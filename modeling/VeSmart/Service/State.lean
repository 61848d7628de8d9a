import Mathlib.Tactic

set_option autoImplicit false

/-! # The bounded cycle state machine (`victron-service/src/state.rs`) -/

namespace VeSmart.Service

/-- All observable phases of the collector. -/
inductive CyclePhase where
  | idle
  | discovering
  | connecting
  | negotiating
  | subscribing
  | requesting
  | collecting
  | persisting
  | delivering
  | disconnecting
  | backoff
  | shuttingDown
  deriving DecidableEq

/-- A direct transition from the first phase to the second is legal. -/
def CyclePhase.canTransitionTo : CyclePhase → CyclePhase → Bool
  | .idle, next => next ∈ [.discovering, .shuttingDown]
  | .discovering, next => next ∈ [.connecting, .disconnecting, .backoff, .shuttingDown]
  | .connecting, next => next ∈ [.negotiating, .disconnecting, .backoff, .shuttingDown]
  | .negotiating, next => next ∈ [.subscribing, .disconnecting, .backoff, .shuttingDown]
  | .subscribing, next => next ∈ [.requesting, .disconnecting, .backoff, .shuttingDown]
  | .requesting, next => next ∈ [.collecting, .disconnecting, .backoff, .shuttingDown]
  | .collecting, next => next ∈ [.persisting, .disconnecting, .backoff, .shuttingDown]
  | .persisting, next => next ∈ [.delivering, .disconnecting, .backoff, .shuttingDown]
  | .delivering, next => next ∈ [.disconnecting, .backoff, .shuttingDown]
  | .disconnecting, next => next ∈ [.idle, .backoff, .shuttingDown]
  | .backoff, next => next ∈ [.idle, .discovering, .shuttingDown]
  | .shuttingDown, _ => false

/-- An illegal state transition (programming error). -/
structure StateTransitionError where
  source : CyclePhase
  target : CyclePhase
  deriving DecidableEq

/-- Guards the phase machine. -/
structure StateMachine where
  current : CyclePhase
  transitions : UInt64

def StateMachine.new : StateMachine := ⟨.idle, 0⟩

/-- Attempt `next`; an illegal transition is rejected. -/
def StateMachine.transition (m : StateMachine) (next : CyclePhase) :
    Except StateTransitionError StateMachine :=
  if m.current = next || !m.current.canTransitionTo next then
    .error ⟨m.current, next⟩
  else .ok ⟨next, m.transitions + 1⟩

/-- No phase is followed by itself, so the first test of `transition` adds nothing. -/
theorem CyclePhase.not_canTransitionTo_self (p : CyclePhase) : p.canTransitionTo p = false := by
  cases p <;> decide

theorem StateMachine.transition_ok {m : StateMachine} {next : CyclePhase}
    (h : m.current.canTransitionTo next = true) :
    m.transition next = .ok ⟨next, m.transitions + 1⟩ := by
  have hne : m.current ≠ next := by
    intro heq
    rw [heq, CyclePhase.not_canTransitionTo_self] at h
    cases h
  simp [transition, hne, h]

end VeSmart.Service
