import Mathlib.Logic.Relation
import Mathlib.Tactic

set_option autoImplicit false

/-! # Machines with partial actions

A machine is a function that takes a state and an action to the next state, if the action is
possible there. `Reaches` are its runs with actions that a schedule `may` allows, and
`Reaches.invariant` is the induction over them. -/

namespace VeSmart.Lib

section

variable {S A : Type}

/-- `t` is reached from `s` by possible actions that `may` allows. -/
def Reaches (step : S → A → Option S) (may : S → A → Prop) : S → S → Prop :=
  Relation.ReflTransGen fun s t => ∃ a, may s a ∧ step s a = some t

/-- The state after a list of actions. -/
def runActions (step : S → A → Option S) : S → List A → Option S
  | s, [] => some s
  | s, a :: as => (step s a).bind fun t => runActions step t as

theorem runActions_append (step : S → A → Option S) (s : S) (as bs : List A) :
    runActions step s (as ++ bs) = (runActions step s as).bind fun t => runActions step t bs := by
  induction as generalizing s with
  | nil => rfl
  | cons a as ih => simp only [List.cons_append, runActions, Option.bind_assoc, ih]

/-- Every action of the list is allowed where it happens. -/
def AllowedRun (step : S → A → Option S) (may : S → A → Prop) : S → List A → Prop
  | _, [] => True
  | s, a :: as => may s a ∧ ∀ t, step s a = some t → AllowedRun step may t as

variable {step : S → A → Option S} {may : S → A → Prop} {s t u : S}

theorem Reaches.act {a : A} (h : Reaches step may s t) (hmay : may t a)
    (hstep : step t a = some u) : Reaches step may s u :=
  h.tail ⟨a, hmay, hstep⟩

/-- What holds initially and is kept by every allowed action holds of every reached state. -/
theorem Reaches.invariant {I : S → Prop} (h : Reaches step may s t) (hs : I s)
    (hstep : ∀ t a u, I t → may t a → step t a = some u → I u) : I t := by
  induction h with
  | refl => exact hs
  | tail _ hlast ih =>
      obtain ⟨a, hmay, hact⟩ := hlast
      exact hstep _ a _ ih hmay hact

/-- A list of actions that are allowed where they happen reaches its last state. -/
theorem Reaches.of_allowed {actions : List A} (hallowed : AllowedRun step may s actions)
    (hrun : runActions step s actions = some t) : Reaches step may s t := by
  induction actions generalizing s with
  | nil =>
      cases hrun
      exact .refl
  | cons a as ih =>
      obtain ⟨u, hu, hrest⟩ := Option.bind_eq_some_iff.mp hrun
      exact .head ⟨a, hallowed.1, hu⟩ (ih (hallowed.2 u hu) hrest)

theorem AllowedRun.of_always {actions : List A} (hmay : ∀ s, ∀ a ∈ actions, may s a) (s : S) :
    AllowedRun step may s actions := by
  induction actions generalizing s with
  | nil => trivial
  | cons a as ih =>
      exact ⟨hmay s a (by simp), fun t _ => ih (fun s b hb => hmay s b (by simp [hb])) t⟩

/-- A list of actions reaches its last state, if every action is allowed everywhere. -/
theorem Reaches.of_run {actions : List A} (hmay : ∀ s, ∀ a ∈ actions, may s a)
    (hrun : runActions step s actions = some t) : Reaches step may s t :=
  .of_allowed (.of_always hmay s) hrun

end

end VeSmart.Lib
