import VeSmart.Client.Rules
import VeSmart.Lib.Machine

set_option autoImplicit false

/-! # Runs of a session

The calls that the service makes, in any order, each with a script of its own: it may return,
fail or be dropped at any of its await points. Between two calls the device may send. -/

namespace VeSmart.Client

open VeSmart.Lib VeSmart.Bluez VeSmart.Protocol

inductive SessionCall where
  | discover
  | connect
  | negotiate (frames : List (List UInt8))
  | subscribe (instanceId : UInt16) (payload : List UInt8)
  | requestValues (payload : List UInt8)
  | finishCycle
  | disconnect

inductive Action where
  | call (c : SessionCall) (script : List Event)
  /-- The session is idle, and the device sends. -/
  | idle (sends : List Notification)

section

variable (decodeStream : List UInt8 → Except Protocol.ProtocolError (List Item))

def perform : SessionCall → Call (Option Completed)
  | .discover => do
      discover
      pure none
  | .connect => do
      connect
      pure none
  | .negotiate frames => do
      negotiate frames
      pure none
  | .subscribe instanceId payload => do
      subscribe decodeStream instanceId payload
      pure none
  | .requestValues payload => do
      let values ← requestValues decodeStream payload
      pure (some values)
  | .finishCycle => do
      finishCycle
      pure none
  | .disconnect => do
      disconnect
      pure none

/-- The session in front of a script. -/
def Life.facing (l : Life) (script : List Event) : Life := { l with script := script }

def Life.initial : Life := ⟨.new, 0, [], [], 0⟩

/-- The state after an action; what a call leaves of its script does not happen. -/
def step (l : Life) : Action → Option Life
  | .call c script => some (exec (perform decodeStream c) (l.facing script)).2
  | .idle sends => some (sends.foldl Life.arrive l)

/-- The states that a new session reaches by actions that `may` allows. -/
def Reached (may : Life → Action → Prop) (l : Life) : Prop :=
  Reaches (step decodeStream) may .initial l

/-- What a call keeps holds after it, however it ends. -/
theorem kept_after {α : Type} {P I : Life → Prop} {x : Call α}
    (h : Triple P x (fun _ => I) (fun _ => I)) {l : Life} (hl : P l) : I (exec x l).2 := by
  have hrun := h l hl
  rcases hx : exec x l with ⟨r, l'⟩
  rw [hx] at hrun
  cases r with
  | ok a => exact hrun
  | error halt => exact hrun

/-- What a call returns does not change the state. -/
theorem exec_then_pure {α β : Type} (x : Call α) (f : α → β) (l : Life) :
    (exec (do
      let a ← x
      pure (f a)) l).2 = (exec x l).2 := by
  rw [exec_bind]
  rcases exec x l with ⟨r, l'⟩
  cases r <;> rfl

end

end VeSmart.Client
