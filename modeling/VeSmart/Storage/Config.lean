import VeSmart.Lib.F64
import VeSmart.Storage.Schema

set_option autoImplicit false

/-! # The storage configuration (`victron-storage/src/lib.rs`)

`StorageConfig` holds the delivery, pruning and energy bounds; the journaling fields only
reach `PRAGMA` statements and are left out. `StorageConfig.validate` is the check of
`Storage::open`, so a `ValidConfig` is the configuration of an open `Storage`. -/

namespace VeSmart.Storage

open VeSmart.Lib

structure StorageConfig where
  maxSpoolAttempts : UInt32
  spoolInflightMs : I64
  spoolRetryBaseMs : I64
  spoolRetryMaxMs : I64
  maxSpoolBatches : UInt64
  maxSpoolAgeMs : I64
  energyGapThresholdMs : I64
  energyMinPowerWatts : F64
  energyMaxPowerWatts : Option F64

/-- `StorageConfig::conservative`, the default. -/
def StorageConfig.conservative : StorageConfig where
  maxSpoolAttempts := 5
  spoolInflightMs := ⟨60000, by decide⟩
  spoolRetryBaseMs := ⟨30000, by decide⟩
  spoolRetryMaxMs := ⟨1800000, by decide⟩
  maxSpoolBatches := 10000
  maxSpoolAgeMs := ⟨604800000, by decide⟩
  energyGapThresholdMs := ⟨300000, by decide⟩
  energyMinPowerWatts := .finite 0
  energyMaxPowerWatts := some (.finite 30000)

/-- `m` is not a usable upper bound above `lo`: it is not finite, or `m <= lo`. -/
def badUpperBound (lo m : F64) : Bool :=
  match lo.toRat?, m.toRat? with
  | some l, some u => u ≤ l
  | _, _ => true

def StorageConfig.validate (cfg : StorageConfig) : Except StorageError Unit :=
  if cfg.maxSpoolAttempts = 0 then
    .error (.invalidArgument "max_spool_attempts must be >= 1")
  else if cfg.spoolInflightMs.1 ≤ 0 ∨ cfg.spoolRetryBaseMs.1 ≤ 0 ∨ cfg.spoolRetryMaxMs.1 ≤ 0 then
    .error (.invalidArgument "spool retry delays must be > 0")
  else if cfg.spoolRetryMaxMs.1 < cfg.spoolRetryBaseMs.1 then
    .error (.invalidArgument "spool_retry_max_ms must be >= spool_retry_base_ms")
  else if cfg.maxSpoolBatches = 0 then
    .error (.invalidArgument "max_spool_batches must be >= 1")
  else if i64Max < cfg.maxSpoolBatches.toNat then
    .error (.invalidArgument "max_spool_batches must fit in a SQLite INTEGER")
  else if cfg.maxSpoolAgeMs.1 ≤ 0 then
    .error (.invalidArgument "max_spool_age_ms must be > 0")
  else if cfg.energyGapThresholdMs.1 ≤ 0 then
    .error (.invalidArgument "energy_gap_threshold_ms must be > 0")
  else if !cfg.energyMinPowerWatts.isFinite ||
      cfg.energyMaxPowerWatts.any (badUpperBound cfg.energyMinPowerWatts) then
    .error (.invalidArgument "energy power bounds must be finite and min < max")
  else .ok ()

/-- A configuration that `Storage::open` accepts. -/
abbrev ValidConfig := { cfg : StorageConfig // cfg.validate = .ok () }

theorem StorageConfig.conservative_valid : StorageConfig.conservative.validate = .ok () := by
  decide

/-- What validation promises about the delivery and pruning bounds. -/
structure StorageConfig.Bounds (cfg : StorageConfig) : Prop where
  attempts_pos : 0 < cfg.maxSpoolAttempts.toNat
  inflight_pos : 0 < cfg.spoolInflightMs.1
  base_pos : 0 < cfg.spoolRetryBaseMs.1
  base_le_max : cfg.spoolRetryBaseMs.1 ≤ cfg.spoolRetryMaxMs.1
  batches_pos : 0 < cfg.maxSpoolBatches.toNat
  batches_le : (cfg.maxSpoolBatches.toNat : Int) ≤ i64Max
  age_pos : 0 < cfg.maxSpoolAgeMs.1
  gap_pos : 0 < cfg.energyGapThresholdMs.1

theorem StorageConfig.bounds_of_validate {cfg : StorageConfig} (h : cfg.validate = .ok ()) :
    cfg.Bounds := by
  unfold StorageConfig.validate at h
  split at h; · cases h
  rename_i hattempts
  split at h; · cases h
  rename_i hdelays
  split at h; · cases h
  rename_i hceiling
  split at h; · cases h
  rename_i hbatches
  split at h; · cases h
  rename_i hfits
  split at h; · cases h
  rename_i hage
  split at h; · cases h
  rename_i hgap
  refine ⟨?_, by omega, by omega, by omega, ?_, by omega, by omega, by omega⟩
  · rw [Nat.pos_iff_ne_zero]
    intro h0
    exact hattempts (UInt32.toNat_inj.mp h0)
  · rw [Nat.pos_iff_ne_zero]
    intro h0
    exact hbatches (UInt64.toNat_inj.mp h0)

/-- The minimum power of an open storage is a number. -/
theorem ValidConfig.minPower_finite (cfg : ValidConfig) :
    cfg.1.energyMinPowerWatts.isFinite = true := by
  obtain ⟨cfg, h⟩ := cfg
  by_contra hinfinite
  unfold StorageConfig.validate at h
  simp only [Bool.not_eq_true] at hinfinite
  simp only [hinfinite, Bool.not_false, Bool.true_or, if_true] at h
  -- whichever check comes first, the last one fails
  split_ifs at h

theorem ValidConfig.bounds (cfg : ValidConfig) : cfg.1.Bounds :=
  StorageConfig.bounds_of_validate cfg.2

end VeSmart.Storage
