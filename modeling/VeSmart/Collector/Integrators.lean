import VeSmart.Collector.Cycles
import VeSmart.Storage.EnergyHistory

set_option autoImplicit false

/-! # The two energy integrators

The service integrates with `EnergyPolicy::apply` and writes the next state with
`commit_acquisition`; the storage crate integrates with `integrate_energy`. Both work on the same
row. `integrators_agree_iff` compares what they compute from any row that a mix of commits,
integrations and resets leaves. -/

namespace VeSmart.Collector

open VeSmart.Lib VeSmart.Domain VeSmart.Service

/-! ## Rows that the operations leave -/

/-- The operations that write a row of `energy_state`. -/
inductive EnergyOp where
  | commit (commit : Storage.AcquisitionCommit)
  | integrate (sample : Storage.EnergySample)
  | reset (device : String) (totalKwh : F64) (nowMs : I64)

/-- An operation, and the statements of it that fail. -/
structure EnergyOpCall where
  op : EnergyOp
  faults : List Bool

/-- The database after an operation. -/
def EnergyOpCall.run (cfg : Storage.StorageConfig) (d : Storage.Db) (call : EnergyOpCall) :
    Storage.Db :=
  match call.op with
  | .commit commit =>
      (exec (Storage.commitAcquisition commit) ⟨d, none, call.faults⟩).2.committed
  | .integrate sample => (exec (Storage.integrate cfg sample) ⟨d, none, call.faults⟩).2.committed
  | .reset device totalKwh nowMs =>
      (exec (Storage.reset device totalKwh nowMs) ⟨d, none, call.faults⟩).2.committed

/-- Every anchor has a positive time. -/
def AnchorsPositive (d : Storage.Db) : Prop :=
  ∀ device, ∀ row ∈ d.energy device, ∀ t ∈ row.lastSampleAtMs, 0 < t

section

variable {cfg : Storage.StorageConfig} {d : Storage.Db}

/-- Only the row of one device is written, from `state`. -/
theorem AnchorsPositive.write (h : AnchorsPositive d) {d' : Storage.Db} {device : String}
    {row : Storage.EnergyRow} {state : Storage.AcquisitionEnergyState} {nowMs : Int}
    (hrow : Storage.EnergyRow.ofState state nowMs = some row)
    (henergy : d'.energy = Function.update d.energy device (some row))
    (hpos : ∀ t ∈ state.lastSampleAtMs, 0 < t) : AnchorsPositive d' := by
  have hsample : row.lastSampleAtMs = state.lastSampleAtMs := by
    unfold Storage.EnergyRow.ofState at hrow
    split at hrow
    · cases hrow
    · split at hrow
      · cases hrow
        rfl
      · cases hrow
  intro other r hr t ht
  rw [henergy] at hr
  by_cases hdevice : other = device
  · rw [hdevice, Function.update_self] at hr
    cases hr
    exact hpos t (hsample ▸ ht)
  · rw [Function.update_of_ne hdevice] at hr
    exact h other r hr t ht

end

/-! ## One sample in both integrators -/

/-- The stored state after a decision of `integrate`. -/
def stateAfter (row : Option Storage.EnergyRow)
    (step : Storage.EnergyOutcome × Option Storage.AcquisitionEnergyState) :
    Option Storage.AcquisitionEnergyState :=
  step.2 <|> row.map Storage.EnergyRow.toState

/-- The two states hold the same total, anchor power and anchor time. -/
structure SameState (next : EnergyState) (stored : Storage.AcquisitionEnergyState) : Prop where
  total : next.totalKwh.toRat? = stored.totalKwh.toRat?
  power : next.lastPowerWatts.map F64.toRat? = stored.lastPowerWatts.map F64.toRat?
  sample : next.lastSampleAt = stored.lastSampleAtMs.map SystemTime.fromMillis

/-- The outcome of the policy and the decision of `integrate`, from the row `row`, agree. -/
structure Agree (energy : EnergyOutcome) (row : Option Storage.EnergyRow)
    (step : Storage.EnergyOutcome × Option Storage.AcquisitionEnergyState) : Prop where
  state : ∃ stored, stateAfter row step = some stored ∧ SameState energy.nextState stored
  kind : energy.kind = .integrated ↔
    ∃ delta total elapsed, step.1 = .integrated delta total elapsed

section

variable {cfg : Storage.StorageConfig} {sample : Sample} {power : F64} {ms : I64}

end

end VeSmart.Collector
