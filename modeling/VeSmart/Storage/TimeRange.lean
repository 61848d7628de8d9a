import VeSmart.Storage.Oldest
import VeSmart.Storage.Ownership

set_option autoImplicit false

/-! # The range of the spool's times

`TimeOp` names the 64-bit operations with which `claim_oldest`, `record_retry` and `prune` compute
times; `SpoolCall.timeOps` are those a call gets to before a statement of it fails. The operations
of the retry and of the prune saturate, and the shift is small. The end of a lease is a plain sum
of the clock value and a configured duration that validation bounds from below only, so it
overflows exactly when a claim finds a batch less than the duration before the end of time
(`times_in_range_iff`). The deadlines that reach the table are never before the clock: a sum that
has wrapped is refused by the `CHECK` of the column. -/

namespace VeSmart.Storage

open VeSmart.Lib

variable {cfg : StorageConfig} {now : I64} {d : Db}

/-! ## The operations -/

/-- A 64-bit operation: `+`, the saturating ones, and `<<`. -/
inductive TimeOp where
  | add (x y : Int)
  | saturatingAdd (x y : Int)
  | saturatingSub (x y : Int)
  | saturatingMul (x y : Int)
  | shl (x : Int) (bits : Nat)
  deriving DecidableEq

def TimeOp.value : TimeOp → Int
  | .add x y => wrapI64 (x + y)
  | .saturatingAdd x y => satI64 (x + y)
  | .saturatingSub x y => satI64 (x - y)
  | .saturatingMul x y => satI64 (x * y)
  | .shl x bits => wrapI64 (x * 2 ^ bits)

/-- A saturating operation has a result for all operands; a shift also loses bits that leave the
word. -/
def TimeOp.overflows : TimeOp → Bool
  | .add x y => !decide (InI64 (x + y))
  | .shl x bits => decide (64 ≤ bits) || !decide (InI64 (x * 2 ^ bits))
  | _ => false

/-- `base.saturating_mul(1i64 << exp)`. -/
def retryProduct (cfg : StorageConfig) (attempts : UInt32) : TimeOp :=
  .saturatingMul cfg.spoolRetryBaseMs.1 (TimeOp.shl 1 (min (attempts.toNat - 1) 20)).value

/-- The first `n` statements of the call do not fail. -/
def SpoolCall.Reaches (call : SpoolCall) (n : Nat) : Prop := true ∉ call.faults.take n

instance (call : SpoolCall) (n : Nat) : Decidable (call.Reaches n) :=
  inferInstanceAs (Decidable (¬ _))

/-- The operations that a call performs on times, in the order of the source. A claim and a retry
read the table inside their transaction before. -/
def SpoolCall.timeOps (cfg : StorageConfig) (d : Db) (call : SpoolCall) : List TimeOp :=
  match call.op with
  | .claim nowMs =>
      if call.Reaches 2 then
        match d.spool.selectReady nowMs.1 cfg.maxSpoolAttempts with
        | none => []
        | some _ => [.add nowMs.1 cfg.spoolInflightMs.1]
      else []
  | .recordRetry id nowMs =>
      if call.Reaches 2 then
        match (d.spool.find id).map fun r => UInt32.ofNat r.attempts with
        | none => []
        | some attempts =>
            if cfg.maxSpoolAttempts ≤ attempts then []
            else
              [.shl 1 (min (attempts.toNat - 1) 20), retryProduct cfg attempts,
                .saturatingAdd nowMs.1
                  (min (retryProduct cfg attempts).value cfg.spoolRetryMaxMs.1)]
      else []
  | .prune nowMs =>
      if call.Reaches 1 then [.saturatingSub nowMs.1 cfg.maxSpoolAgeMs.1] else []
  | _ => []

/-- The clock value that a claim, a retry or a prune is given. -/
def SpoolOp.clock : SpoolOp → Option I64
  | .claim nowMs => some nowMs
  | .recordRetry _ nowMs => some nowMs
  | .prune nowMs => some nowMs
  | _ => none

theorem shl_small (attempts : UInt32) :
    (TimeOp.shl 1 (min (attempts.toNat - 1) 20)).overflows = false ∧
      (TimeOp.shl 1 (min (attempts.toNat - 1) 20)).value = 2 ^ min (attempts.toNat - 1) 20 := by
  have hexp : min (attempts.toNat - 1) 20 ≤ 20 := min_le_right _ _
  have hpow : (2 : Int) ^ min (attempts.toNat - 1) 20 ≤ 2 ^ 20 :=
    pow_le_pow_right₀ (by norm_num) hexp
  have hnonneg : (0 : Int) ≤ 2 ^ min (attempts.toNat - 1) 20 := by positivity
  have hin : InI64 (1 * 2 ^ min (attempts.toNat - 1) 20) := by
    simp only [InI64, i64Min, i64Max, one_mul]
    constructor
    · omega
    · calc (2 : Int) ^ min (attempts.toNat - 1) 20 ≤ 2 ^ 20 := hpow
        _ ≤ 9223372036854775807 := by norm_num
  constructor
  · have hbits : ¬ 64 ≤ min (attempts.toNat - 1) 20 := by omega
    rw [one_mul] at hin
    simp [TimeOp.overflows, hbits, hin]
  · rw [TimeOp.value, wrapI64_of_inI64 hin, one_mul]

theorem retryDelay_nonneg (hcfg : cfg.Bounds) (attempts : UInt32) :
    0 ≤ retryDelay cfg attempts := by
  have hbase := hcfg.base_pos
  have hmax : 0 ≤ cfg.spoolRetryMaxMs.1 := by
    have := hcfg.base_le_max
    omega
  have hproduct : 0 ≤ cfg.spoolRetryBaseMs.1 * 2 ^ min (attempts.toNat - 1) 20 := by positivity
  exact le_min (satI64_lower hproduct (by decide)) hmax

/-! ## Deadlines -/

/-- Every row is as it was in `d`, or has a deadline that is not before `now`. -/
def Ahead (d : Db) (now : I64) (d' : Db) : Prop :=
  ∀ r ∈ d'.spool.rows, r ∈ d.spool.rows ∨ now.1 ≤ r.nextAttemptAtMs

theorem Ahead.refl (d : Db) (now : I64) : Ahead d now d := fun _ hr => .inl hr

theorem deleteWhere_ahead (p : SpoolTable → SpoolRow → Bool) :
    Preserves (Ahead d now) (onSpool fun t => .ok (t.deleteWhere (p t))) := by
  apply Preserves.onSpool
  rintro w n t h ⟨⟩ r hr
  exact h r (List.mem_of_mem_filter hr)

theorem update_ahead (p : SpoolRow → Bool) (bump : Nat) {next : Int}
    (hnext : 0 ≤ next → now.1 ≤ next) :
    Preserves (Ahead d now) (onSpool fun t => t.update p bump next) := by
  apply Preserves.onSpool
  intro w n t h hrun r hr
  by_cases hpos : 0 ≤ next
  · rw [(SpoolTable.update_ok hpos hrun).2.2, List.mem_map] at hr
    obtain ⟨old, hold, rfl⟩ := hr
    by_cases hp : p old = true
    · rw [if_pos hp]
      exact .inr (hnext hpos)
    · rw [if_neg hp]
      exact h old hold
  · -- nothing is written: the `CHECK` refuses a negative deadline
    rw [SpoolTable.update, dif_neg hpos] at hrun
    split at hrun
    · cases hrun
    · cases hrun
      exact h r hr

theorem bumpCounter_ahead (key : String) (nowMs : Int) :
    Preserves (Ahead d now) (bumpCounter key nowMs) := by
  apply Preserves.bind
  · exact Preserves.bind (Preserves.query _) fun _ => Preserves.fromExcept _
  · intro current
    apply Preserves.bind (Preserves.fromExcept _); intro _
    apply Preserves.bind (Preserves.fromExcept _); intro _
    apply Preserves.statement
    intro w a w' h hw
    unfold Db.upsertKv at hw
    split at hw
    · cases hw
      exact h
    · cases hw

/-- A lease that does not wrap ends after the clock value. -/
theorem lease_ahead (hcfg : cfg.Bounds)
    (hnext : 0 ≤ wrapI64 (now.1 + cfg.spoolInflightMs.1)) :
    now.1 ≤ wrapI64 (now.1 + cfg.spoolInflightMs.1) := by
  have hpos := hcfg.inflight_pos
  have hfit : now.1 + cfg.spoolInflightMs.1 ≤ i64Max := by
    by_contra hover
    have := wrapI64_neg now.2 cfg.spoolInflightMs.2 (not_le.mp hover)
    omega
  have hin : InI64 (now.1 + cfg.spoolInflightMs.1) := by
    have := now.2.1
    exact ⟨by omega, hfit⟩
  rw [wrapI64_of_inI64 hin]
  omega

theorem claimOldest_ahead (hcfg : cfg.Bounds) :
    Preserves (Ahead d now) (claimOldest cfg now) := by
  apply Preserves.transaction
  apply Preserves.bind (Preserves.query _)
  intro candidate
  cases candidate with
  | none => exact Preserves.bind Preserves.commitTx fun _ => Preserves.pure _
  | some batch =>
      apply Preserves.bind (update_ahead _ _ (lease_ahead hcfg))
      intro changed
      split
      · exact Preserves.bind Preserves.commitTx fun _ => Preserves.pure _
      · exact Preserves.bind Preserves.commitTx fun _ => Preserves.pure _

theorem recordRetry_ahead (hcfg : cfg.Bounds) (id : Int) :
    Preserves (Ahead d now) (recordRetry cfg id now) := by
  apply Preserves.transaction
  apply Preserves.bind (Preserves.query _)
  intro attempts
  cases attempts with
  | none => exact Preserves.bind Preserves.commitTx fun _ => Preserves.throw _
  | some attempts =>
      show Preserves _ (ite _ _ _)
      split
      · apply Preserves.bind (deleteWhere_ahead fun _ r => r.id = id); intro _
        apply Preserves.bind (bumpCounter_ahead _ _); intro _
        exact Preserves.bind Preserves.commitTx fun _ => Preserves.pure _
      · have hdelay := retryDelay_nonneg hcfg attempts
        have hnext : now.1 ≤ satI64 (now.1 + retryDelay cfg attempts) :=
          satI64_lower (by omega) now.2.2
        apply Preserves.bind (update_ahead _ _ fun _ => hnext); intro _
        exact Preserves.bind Preserves.commitTx fun _ => Preserves.pure _

theorem prune_ahead : Preserves (Ahead d now) (prune cfg now) := by
  apply Preserves.transaction
  apply Preserves.bind (deleteWhere_ahead fun _ r => _); intro _
  apply Preserves.bind (deleteWhere_ahead fun _ r => _); intro _
  apply Preserves.bind (deleteWhere_ahead _); intro _
  apply Preserves.bind (Preserves.query _); intro _
  exact Preserves.bind Preserves.commitTx fun _ => Preserves.pure _

/-- No call writes a deadline before its clock value. -/
theorem SpoolCall.ahead (hcfg : cfg.Bounds) (call : SpoolCall) (d : Db)
    (hclock : call.op.clock = some now) : Ahead d now (call.exec cfg d).2 := by
  obtain ⟨op, faults⟩ := call
  rw [SpoolCall.exec]
  cases op with
  | claim nowMs =>
      cases hclock
      exact ((claimOldest_ahead hcfg).map _).committed (Ahead.refl d now) faults
  | recordRetry id nowMs =>
      cases hclock
      exact ((recordRetry_ahead hcfg id).map _).committed (Ahead.refl d now) faults
  | prune nowMs =>
      cases hclock
      exact (prune_ahead.map _).committed (Ahead.refl d now) faults
  | enqueue device payload nowMs => cases hclock
  | commit c => cases hclock
  | peek nowMs => cases hclock
  | markDelivered id wallMs => cases hclock
  | dropBatch id wallMs => cases hclock

/-! ## Runs -/

/-- No operation of the call overflows, and no deadline it writes is before its clock value. -/
def SpoolCall.InRange (cfg : StorageConfig) (d : Db) (call : SpoolCall) : Prop :=
  (∀ o ∈ call.timeOps cfg d, o.overflows = false) ∧
    ∀ now, call.op.clock = some now → Ahead d now (call.exec cfg d).2

/-- A claim that gets to see the table finds no batch, or the lease ends in time. -/
def SpoolCall.Roomy (cfg : StorageConfig) (d : Db) (call : SpoolCall) : Prop :=
  ∀ now, call.op = .claim now → call.Reaches 2 →
    (∀ r ∈ d.spool.rows, ¬ r.ready now.1 cfg.maxSpoolAttempts) ∨
      now.1 + cfg.spoolInflightMs.1 ≤ i64Max

/-- `P` holds of every call of the sequence, at the database it finds. -/
def Along (cfg : StorageConfig) (P : Db → SpoolCall → Prop) : Db → List SpoolCall → Prop
  | _, [] => True
  | d, call :: rest => P d call ∧ Along cfg P (call.exec cfg d).2 rest

theorem Along.congr {P Q : Db → SpoolCall → Prop} {calls : List SpoolCall}
    (h : ∀ call ∈ calls, ∀ d, P d call ↔ Q d call) (d : Db) :
    Along cfg P d calls ↔ Along cfg Q d calls := by
  induction calls generalizing d with
  | nil => exact Iff.rfl
  | cons call rest ih =>
      obtain ⟨hcall, hrest⟩ := List.forall_mem_cons.mp h
      exact and_congr (hcall d) (ih hrest _)

theorem claim_overflows_iff (hcfg : cfg.Bounds) (now : I64) (faults : List Bool)
    (hnow : 0 < now.1) :
    (∀ o ∈ SpoolCall.timeOps cfg d ⟨.claim now, faults⟩, o.overflows = false) ↔
      (SpoolCall.Reaches ⟨.claim now, faults⟩ 2 →
        (∀ r ∈ d.spool.rows, ¬ r.ready now.1 cfg.maxSpoolAttempts) ∨
          now.1 + cfg.spoolInflightMs.1 ≤ i64Max) := by
  have hsum : (TimeOp.add now.1 cfg.spoolInflightMs.1).overflows = false ↔
      now.1 + cfg.spoolInflightMs.1 ≤ i64Max := by
    have hpos := hcfg.inflight_pos
    have hlow : i64Min ≤ now.1 + cfg.spoolInflightMs.1 := by
      have : i64Min ≤ 0 := by decide
      omega
    rw [TimeOp.overflows, Bool.not_eq_false', decide_eq_true_eq, InI64]
    exact and_iff_right hlow
  rw [SpoolCall.timeOps]
  dsimp only
  by_cases hreaches : SpoolCall.Reaches ⟨.claim now, faults⟩ 2
  swap
  · simp [hreaches]
  rw [if_pos hreaches, forall_prop_of_true hreaches]
  cases hselect : d.spool.selectReady now.1 cfg.maxSpoolAttempts with
  | none =>
      have hidle := SpoolTable.selectReady_none.mp hselect
      simp only [List.not_mem_nil, false_imp_iff, implies_true, true_iff]
      exact .inl fun r hr => by simp [hidle r hr]
  | some row =>
      obtain ⟨hrow, hready, -⟩ := SpoolTable.selectReady_oldest hselect
      have hbusy : ¬ ∀ r ∈ d.spool.rows, ¬ r.ready now.1 cfg.maxSpoolAttempts :=
        fun hidle => hidle row hrow hready
      simp only [List.mem_singleton, forall_eq, hsum, hbusy, false_or]

/-- One call. -/
theorem SpoolCall.inRange_iff (hcfg : cfg.Bounds) (d : Db) (call : SpoolCall)
    (hclock : ∀ now, call.op.clock = some now → 0 < now.1) :
    call.InRange cfg d ↔ call.Roomy cfg d := by
  have hahead : ∀ now, call.op.clock = some now → Ahead d now (call.exec cfg d).2 :=
    fun now h => call.ahead hcfg d h
  unfold SpoolCall.InRange SpoolCall.Roomy
  rw [and_iff_left hahead]
  obtain ⟨op, faults⟩ := call
  cases op with
  | claim nowMs =>
      dsimp only at hclock ⊢
      rw [claim_overflows_iff hcfg nowMs faults (hclock nowMs rfl)]
      constructor
      · rintro h now ⟨⟩
        exact h
      · exact fun h => h nowMs rfl
  | recordRetry id nowMs =>
      refine iff_of_true ?_ (by simp)
      rw [SpoolCall.timeOps]
      dsimp only
      split
      · cases (d.spool.find id).map fun r => UInt32.ofNat r.attempts with
        | none => simp
        | some attempts =>
            dsimp only
            split
            · simp
            · simp only [List.mem_cons, List.not_mem_nil, or_false, forall_eq_or_imp, forall_eq]
              exact ⟨(shl_small attempts).1, rfl, rfl⟩
      · simp
  | prune nowMs =>
      refine iff_of_true ?_ (by simp)
      rw [SpoolCall.timeOps]
      dsimp only
      split
      · simp [TimeOp.overflows]
      · simp
  | enqueue device payload nowMs => exact iff_of_true (by simp [SpoolCall.timeOps]) (by simp)
  | commit c => exact iff_of_true (by simp [SpoolCall.timeOps]) (by simp)
  | peek nowMs => exact iff_of_true (by simp [SpoolCall.timeOps]) (by simp)
  | markDelivered id wallMs => exact iff_of_true (by simp [SpoolCall.timeOps]) (by simp)
  | dropBatch id wallMs => exact iff_of_true (by simp [SpoolCall.timeOps]) (by simp)

/-- **The spool's times stay in range exactly when every lease that is taken ends before the end of
time.** -/
theorem times_in_range_iff (cfg : ValidConfig) (d : Db) (calls : List SpoolCall)
    (hclock : ∀ call ∈ calls, ∀ now, call.op.clock = some now → 0 < now.1) :
    Along cfg.1 (SpoolCall.InRange cfg.1) d calls ↔ Along cfg.1 (SpoolCall.Roomy cfg.1) d calls :=
  Along.congr (fun call hcall d => call.inRange_iff cfg.bounds d (hclock call hcall)) d

/-- The longest lease that validation admits. -/
def endlessLease : StorageConfig :=
  { StorageConfig.conservative with spoolInflightMs := ms 9223372036854775807 }

theorem endlessLease_valid : endlessLease.validate = .ok () := by decide

/-- One batch is queued and claimed, a millisecond after the epoch. -/
def earlyClaim : List SpoolCall :=
  [⟨.enqueue "shunt" [0] (ms 1), []⟩, ⟨.claim (ms 1), []⟩]

theorem earlyClaim_clock :
    ∀ call ∈ earlyClaim, ∀ now, call.op.clock = some now → 0 < now.1 := by
  intro call hcall now hnow
  simp only [earlyClaim, List.mem_cons, List.not_mem_nil, or_false] at hcall
  rcases hcall with rfl | rfl
  · cases hnow
  · cases hnow
    decide

theorem earlyClaim_roomy (d : Db) :
    Along StorageConfig.conservative (SpoolCall.Roomy StorageConfig.conservative) d earlyClaim := by
  refine ⟨?_, ?_, trivial⟩
  · rintro now ⟨⟩
  · rintro now ⟨⟩ -
    exact .inr (by decide)

theorem earlyClaim_inRange :
    Along StorageConfig.conservative (SpoolCall.InRange StorageConfig.conservative) Db.empty
      earlyClaim :=
  (times_in_range_iff ⟨StorageConfig.conservative, StorageConfig.conservative_valid⟩ Db.empty
    earlyClaim earlyClaim_clock).mpr (earlyClaim_roomy Db.empty)

theorem endlessLease_overflows :
    ¬ ∀ (cfg : ValidConfig) (calls : List SpoolCall),
      (∀ call ∈ calls, ∀ now, call.op.clock = some now → 0 < now.1) →
      Along cfg.1 (SpoolCall.InRange cfg.1) Db.empty calls := by
  intro h
  have hclaim := (h ⟨endlessLease, endlessLease_valid⟩ earlyClaim earlyClaim_clock).2.1.1
  exact absurd hclaim (by decide)

end VeSmart.Storage
