import VeSmart.Storage.Acquisition

set_option autoImplicit false

/-! # Energy integration in the database (`victron-storage/src/energy.rs`)

The total of a device and the anchor of its last accepted sample are written in one
transaction. `integrateStep` is the decision of one call: what it answers and what it writes,
from the stored row. `quiet_integrate` says that a call without faults does nothing else. -/

namespace VeSmart.Storage

open VeSmart.Lib

/-- One candidate sample for local energy integration. -/
structure EnergySample where
  device : String
  powerWatts : F64
  sampleAtMs : I64
  deriving DecidableEq

/-- Why a sample was not integrated. -/
inductive SkipReason where
  | firstSample
  | invalidPower
  | backwardTime
  | gapTooLarge (gapMs thresholdMs : Int)
  deriving DecidableEq

inductive EnergyOutcome where
  | integrated (deltaKwh totalKwh : F64) (elapsedMs : Int)
  | skipped (reason : SkipReason)
  deriving DecidableEq

/-- The power is not finite or outside the configured bounds. -/
def badPower (cfg : StorageConfig) (power : F64) : Bool :=
  !power.isFinite || power.lt cfg.energyMinPowerWatts ||
    cfg.energyMaxPowerWatts.any (fun max => max.lt power)

/-- The checks of the arguments of `integrate`. -/
def EnergySample.check (sample : EnergySample) : Except StorageError Unit :=
  if sample.device = "" then .error (.invalidArgument "device must not be empty")
  else if sample.sampleAtMs.1 ≤ 0 then .error (.invalidArgument "sample_at_ms must be > 0")
  else .ok ()

/-- The sample as the anchor of a row with the total `totalKwh`. -/
def EnergySample.anchor (sample : EnergySample) (totalKwh : F64) : AcquisitionEnergyState where
  totalKwh := totalKwh
  lastPowerWatts := some sample.powerWatts
  lastSampleAtMs := some sample.sampleAtMs.1

/-- The energy of an interval of `gapMs` milliseconds between two powers. -/
def deltaKwh (previousPower power : F64) (gapMs : Int) : F64 :=
  (((previousPower.add power).scale (1 / 2)).scale ((gapMs : ℚ) / 1000)).scale (1 / 3600000)

/-- The branches of `integrate`: the outcome, and the state that is written if one is. The two
timestamps are positive, so that their difference does not overflow. -/
def integrateStep (cfg : StorageConfig) (previous : Option EnergyRow) (sample : EnergySample) :
    EnergyOutcome × Option AcquisitionEnergyState :=
  match previous with
  -- no durable anchor yet: the sample is stored as the anchor
  | none => (.skipped .firstSample, some (sample.anchor (.finite 0)))
  | some row =>
  match row.lastSampleAtMs with
  -- a row without an anchor is repaired
  | none => (.skipped .firstSample, some (sample.anchor (.finite row.totalKwh)))
  | some lastSampleAtMs =>
  if sample.sampleAtMs.1 ≤ lastSampleAtMs then (.skipped .backwardTime, none)
  else
    let gapMs := sample.sampleAtMs.1 - lastSampleAtMs
    if cfg.energyGapThresholdMs.1 < gapMs then
      (.skipped (.gapTooLarge gapMs cfg.energyGapThresholdMs.1),
        some (sample.anchor (.finite row.totalKwh)))
    else
      let previousPower := (row.lastPowerWatts.map F64.finite).getD sample.powerWatts
      let delta := deltaKwh previousPower sample.powerWatts gapMs
      let newTotal := (F64.finite row.totalKwh).add delta
      (.integrated delta newTotal gapMs, some (sample.anchor newTotal))

/-- `INSERT INTO energy_state ...` or `UPDATE energy_state SET ... WHERE device = ?1`: in either
case the row of the device holds `state`. -/
def writeEnergy (device : String) (state : AcquisitionEnergyState) (nowMs : Int) : Sql Unit :=
  statement sqlIo fun d => d.upsertEnergy device state nowMs

def finalize (outcome : EnergyOutcome) : Sql EnergyOutcome := do
  commitTx sqlIo
  pure outcome

def integrate (cfg : StorageConfig) (sample : EnergySample) : Sql EnergyOutcome := do
  fromExcept sample.check
  -- an invalid sample is never an anchor, so it is refused before any read or write
  if badPower cfg sample.powerWatts then pure (.skipped .invalidPower)
  else transaction sqlIo do
    let previous ← query fun d => d.energy sample.device
    match integrateStep cfg previous sample with
    | (outcome, none) => finalize outcome
    | (outcome, some state) => do
        writeEnergy sample.device state sample.sampleAtMs.1
        finalize outcome

/-- The checks of the arguments of `reset`. -/
def checkReset (device : String) (totalKwh : F64) (nowMs : I64) : Except StorageError Unit :=
  if device = "" then .error (.invalidArgument "device must not be empty")
  else if !totalKwh.isFinite || totalKwh.lt (.finite 0) then
    .error (.invalidArgument "total_kwh must be finite and >= 0")
  else if nowMs.1 ≤ 0 then .error (.invalidArgument "now_ms must be > 0")
  else .ok ()

/-- Overwrite the stored total and clear the anchor. -/
def reset (device : String) (totalKwh : F64) (nowMs : I64) : Sql Unit := do
  fromExcept (checkReset device totalKwh nowMs)
  transaction sqlIo do
    writeEnergy device ⟨totalKwh, none, none⟩ nowMs.1
    commitTx sqlIo
    pure ()

theorem EnergySample.check_pos {sample : EnergySample} (h : sample.check = .ok ()) :
    0 < sample.sampleAtMs.1 := by
  unfold EnergySample.check at h
  split at h
  · cases h
  · split at h
    · cases h
    · omega

section

variable {cfg : StorageConfig} {row : EnergyRow} {sample : EnergySample} {last : Int}

theorem integrateStep_unanchored (h : row.lastSampleAtMs = none) :
    integrateStep cfg (some row) sample =
      (.skipped .firstSample, some (sample.anchor (.finite row.totalKwh))) := by
  simp only [integrateStep, h]

theorem integrateStep_backward (h : row.lastSampleAtMs = some last)
    (hback : sample.sampleAtMs.1 ≤ last) :
    integrateStep cfg (some row) sample = (.skipped .backwardTime, none) := by
  simp only [integrateStep, h, if_pos hback]

theorem integrateStep_long (h : row.lastSampleAtMs = some last)
    (hlong : cfg.energyGapThresholdMs.1 < sample.sampleAtMs.1 - last)
    (hlater : last < sample.sampleAtMs.1) :
    integrateStep cfg (some row) sample =
      (.skipped (.gapTooLarge (sample.sampleAtMs.1 - last) cfg.energyGapThresholdMs.1),
        some (sample.anchor (.finite row.totalKwh))) := by
  simp only [integrateStep, h, if_neg (not_le.mpr hlater), if_pos hlong]

theorem integrateStep_within (h : row.lastSampleAtMs = some last)
    (hlater : last < sample.sampleAtMs.1)
    (hshort : ¬ cfg.energyGapThresholdMs.1 < sample.sampleAtMs.1 - last) {delta : F64}
    (hdelta : deltaKwh ((row.lastPowerWatts.map F64.finite).getD sample.powerWatts)
      sample.powerWatts (sample.sampleAtMs.1 - last) = delta) :
    integrateStep cfg (some row) sample =
      (.integrated delta ((F64.finite row.totalKwh).add delta) (sample.sampleAtMs.1 - last),
        some (sample.anchor ((F64.finite row.totalKwh).add delta))) := by
  simp only [integrateStep, h, if_neg (not_le.mpr hlater), if_neg hshort, hdelta]

end

/-- What a call writes is its sample with a total. -/
theorem integrateStep_writes {cfg : StorageConfig} {previous : Option EnergyRow}
    {sample : EnergySample} {state : AcquisitionEnergyState}
    (h : state ∈ (integrateStep cfg previous sample).2) : ∃ total, state = sample.anchor total := by
  unfold integrateStep at h
  split at h
  · exact ⟨_, (Option.some.inj h).symm⟩
  · split at h
    · exact ⟨_, (Option.some.inj h).symm⟩
    · split at h
      · cases h
      · dsimp only at h
        split at h
        · exact ⟨_, (Option.some.inj h).symm⟩
        · exact ⟨_, (Option.some.inj h).symm⟩

theorem AllOrNothing.pure {α : Type} (a : α) :
    AllOrNothing (D := Db) sqlIo (Pure.pure a : Sql α) :=
  fun d => ⟨.ok a, d, rfl, fun fs => .inl ⟨fs, rfl⟩⟩

theorem integrate_allOrNothing (cfg : StorageConfig) (sample : EnergySample) :
    AllOrNothing sqlIo (integrate cfg sample) := by
  apply AllOrNothing.fromExcept_bind
  intro _
  by_cases hpower : badPower cfg sample.powerWatts = true
  · rw [if_pos hpower]
    exact AllOrNothing.pure _
  rw [if_neg hpower]
  apply transaction_allOrNothing
  apply Body.bind (Fragment.query _)
  intro previous
  rcases integrateStep cfg previous sample with ⟨outcome, _ | state⟩
  · exact Body.commit_pure outcome
  · apply Body.bind (Fragment.statement _)
    intro _
    exact Body.commit_pure outcome

/-- The database after the write of a decision. -/
def writeStep (sample : EnergySample) (d : Db) :
    EnergyOutcome × Option AcquisitionEnergyState → Except StorageError EnergyOutcome × Db
  | (outcome, none) => (.ok outcome, d)
  | (outcome, some state) =>
      match d.upsertEnergy sample.device state sample.sampleAtMs.1 with
      | .error e => (.error e, d)
      | .ok (_, d') => (.ok outcome, d')

@[simp] theorem writeStep_unwritten (sample : EnergySample) (d : Db) (outcome : EnergyOutcome) :
    writeStep sample d (outcome, none) = (.ok outcome, d) := rfl

theorem writeStep_refused {sample : EnergySample} {state : AcquisitionEnergyState}
    (h : EnergyRow.ofState state sample.sampleAtMs.1 = none) (d : Db) (outcome : EnergyOutcome) :
    writeStep sample d (outcome, some state) = (.error (.sqlite .constraint), d) := by
  simp only [writeStep, Db.upsertEnergy, h]

theorem writeStep_written {sample : EnergySample} {state : AcquisitionEnergyState}
    {row : EnergyRow} (h : EnergyRow.ofState state sample.sampleAtMs.1 = some row) (d : Db)
    (outcome : EnergyOutcome) :
    writeStep sample d (outcome, some state) =
      (.ok outcome, { d with energy := Function.update d.energy sample.device (some row) }) := by
  simp only [writeStep, Db.upsertEnergy, h]

theorem quiet_integrate_unchecked {cfg : StorageConfig} {sample : EnergySample} {e : StorageError}
    (h : sample.check = .error e) (d : Db) : quiet (integrate cfg sample) d = (.error e, d) := by
  rw [integrate, quiet_fromExcept_bind, h]

theorem quiet_integrate_badPower {cfg : StorageConfig} {sample : EnergySample}
    (hcheck : sample.check = .ok ()) (hpower : badPower cfg sample.powerWatts = true) (d : Db) :
    quiet (integrate cfg sample) d = (.ok (.skipped .invalidPower), d) := by
  rw [integrate, quiet_fromExcept_bind, hcheck]
  dsimp only
  rw [if_pos hpower]
  rfl

/-- A call with a usable sample reads the row, decides, and writes what it has decided. -/
theorem quiet_integrate {cfg : StorageConfig} {sample : EnergySample}
    (hcheck : sample.check = .ok ()) (hpower : badPower cfg sample.powerWatts = false) (d : Db) :
    quiet (integrate cfg sample) d =
      writeStep sample d (integrateStep cfg (d.energy sample.device) sample) := by
  rw [integrate, quiet_fromExcept_bind, hcheck]
  dsimp only
  rw [if_neg (by simp [hpower]), quiet_transaction, exec_bind_ok (exec_query _ d d)]
  rcases integrateStep cfg (d.energy sample.device) sample with ⟨outcome, _ | state⟩
  · rfl
  · dsimp only [writeStep]
    cases hup : d.upsertEnergy sample.device state sample.sampleAtMs.1 with
    | error e =>
        have hwrite : exec (writeEnergy sample.device state sample.sampleAtMs.1)
            ⟨d, some d, []⟩ = (.error e, ⟨d, some d, []⟩) := by
          rw [writeEnergy, exec_statement_open, hup]
        rw [exec_bind_error hwrite]
    | ok p =>
        have hwrite : exec (writeEnergy sample.device state sample.sampleAtMs.1)
            ⟨d, some d, []⟩ = (.ok p.1, ⟨d, some p.2, []⟩) := by
          rw [writeEnergy, exec_statement_open, hup]
        rw [exec_bind_ok hwrite]
        rfl

end VeSmart.Storage
