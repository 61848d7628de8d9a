import Mathlib.Tactic

set_option autoImplicit false

/-! # Readings that advance, and the sum over consecutive ones

A stream of readings arrives in any order, with repetitions. A reading is *accepted* when it is
later than every reading accepted before it, so the accepted ones form a strictly increasing
sequence and the last of them stands for all (`later_iff`, `le_last`). A quantity that is
integrated piece by piece is the sum of a function of two consecutive accepted readings
(`consecutive`); it grows by one piece when one reading is accepted. -/

namespace VeSmart.Lib

/-- A value read at a time. -/
structure Point (T V : Type) where
  time : T
  value : V
  deriving DecidableEq

section

variable {T V E : Type} [AddCommMonoid E] {piece : Point T V → Point T V → E}

/-- The sum of `piece` over the consecutive pairs of a list. -/
def consecutive (piece : Point T V → Point T V → E)
    (xs : List (Point T V)) : E :=
  (xs.zipWith piece xs.tail).sum

@[simp] theorem consecutive_nil : consecutive piece [] = 0 := rfl

@[simp] theorem consecutive_singleton (x : Point T V) : consecutive piece [x] = 0 := rfl

@[simp] theorem consecutive_cons (x y : Point T V) (xs : List (Point T V)) :
    consecutive piece (x :: y :: xs) = piece x y + consecutive piece (y :: xs) := by
  simp [consecutive]

/-- One more reading at the end adds one piece, from the last reading so far. -/
theorem consecutive_append {xs : List (Point T V)} {a : Point T V}
    (ha : xs.getLast? = some a) (x : Point T V) :
    consecutive piece (xs ++ [x]) = consecutive piece xs + piece a x := by
  induction xs with
  | nil => cases ha
  | cons y ys ih =>
      cases ys with
      | nil =>
          cases ha
          simp
      | cons z zs =>
          have hlast : (z :: zs).getLast? = some a := by simpa using ha
          calc consecutive piece (y :: z :: zs ++ [x])
              = piece y z + consecutive piece (z :: zs ++ [x]) := consecutive_cons y z _
            _ = piece y z + (consecutive piece (z :: zs) + piece a x) := by rw [ih hlast]
            _ = consecutive piece (y :: z :: zs) + piece a x := by
                rw [consecutive_cons, add_assoc]

end

section

variable {T V : Type} [LinearOrder T]

/-- `x` is later than every reading of `xs`. -/
def Later (xs : List (Point T V)) (x : Point T V) : Prop := ∀ y ∈ xs, y.time < x.time

instance (xs : List (Point T V)) (x : Point T V) : Decidable (Later xs x) :=
  inferInstanceAs (Decidable (∀ y ∈ xs, y.time < x.time))

/-- One more reading arrives after the readings `xs` have been accepted. -/
def accept (xs : List (Point T V)) (x : Point T V) : List (Point T V) :=
  if Later xs x then xs ++ [x] else xs

/-- The readings that are accepted, in the order of arrival. -/
def accepted (xs : List (Point T V)) : List (Point T V) := xs.foldl accept []

@[simp] theorem accepted_nil : accepted ([] : List (Point T V)) = [] := rfl

@[simp] theorem accepted_append (xs : List (Point T V)) (x : Point T V) :
    accepted (xs ++ [x]) = accept (accepted xs) x := by
  simp [accepted, List.foldl_append]

theorem accept_of_later {xs : List (Point T V)} {x : Point T V} (h : Later xs x) :
    accept xs x = xs ++ [x] := if_pos h

theorem accept_of_not_later {xs : List (Point T V)} {x : Point T V} (h : ¬ Later xs x) :
    accept xs x = xs := if_neg h

/-- Accepted readings advance; by induction on the stream, from its end. -/
theorem accepted_increasing (xs : List (Point T V)) :
    (accepted xs).Pairwise (fun x y => x.time < y.time) := by
  induction xs using List.reverseRecOn with
  | nil => simp
  | append_singleton xs x ih =>
      rw [accepted_append]
      by_cases hlater : Later (accepted xs) x
      · rw [accept_of_later hlater, List.pairwise_append]
        refine ⟨ih, List.pairwise_singleton _ _, ?_⟩
        intro y hy z hz
        rw [List.mem_singleton] at hz
        rw [hz]
        exact hlater y hy
      · rwa [accept_of_not_later hlater]

/-- What is accepted has arrived. -/
theorem mem_of_mem_accepted {xs : List (Point T V)} {x : Point T V} (h : x ∈ accepted xs) :
    x ∈ xs := by
  induction xs using List.reverseRecOn with
  | nil => exact h
  | append_singleton xs y ih =>
      rw [accepted_append] at h
      by_cases hlater : Later (accepted xs) y
      · rw [accept_of_later hlater] at h
        rcases List.mem_append.mp h with h | h
        · exact List.mem_append_left _ (ih h)
        · exact List.mem_append_right _ h
      · rw [accept_of_not_later hlater] at h
        exact List.mem_append_left _ (ih h)

/-- The last reading of an increasing list stands for the others. -/
theorem later_iff {xs : List (Point T V)} (h : xs.Pairwise (fun x y => x.time < y.time))
    {a : Point T V} (ha : xs.getLast? = some a) (x : Point T V) :
    Later xs x ↔ a.time < x.time := by
  obtain ⟨ys, rfl⟩ := List.getLast?_eq_some_iff.mp ha
  constructor
  · intro hlater
    exact hlater a (by simp)
  · intro hlt y hy
    rcases List.mem_append.mp hy with hy | hy
    · have hya : y.time < a.time := (List.pairwise_append.mp h).2.2 y hy a (by simp)
      exact hya.trans hlt
    · rw [List.mem_singleton] at hy
      rwa [hy]

/-- A reading that has arrived is not later than what has been accepted since. -/
theorem not_later_of_mem {xs : List (Point T V)} {x : Point T V} (h : x ∈ xs) :
    ¬ Later (accepted xs) x := by
  induction xs using List.reverseRecOn with
  | nil => cases h
  | append_singleton xs y ih =>
      rw [accepted_append]
      by_cases hlater : Later (accepted xs) y
      · rw [accept_of_later hlater]
        intro hx
        rcases List.mem_append.mp h with h | h
        · exact ih h fun z hz => hx z (List.mem_append_left _ hz)
        · rw [List.mem_singleton.mp h] at hx
          exact lt_irrefl _ (hx y (by simp))
      · rw [accept_of_not_later hlater]
        rcases List.mem_append.mp h with h | h
        · exact ih h
        · rwa [List.mem_singleton.mp h]

theorem consecutive_nonneg {piece : Point T V → Point T V → ℚ} {xs : List (Point T V)}
    (h : ∀ x ∈ xs, ∀ y ∈ xs, x.time < y.time → 0 ≤ piece x y)
    (hxs : xs.Pairwise (fun x y => x.time < y.time)) : 0 ≤ consecutive piece xs := by
  induction xs with
  | nil => exact le_refl 0
  | cons x xs ih =>
      cases xs with
      | nil => exact le_refl 0
      | cons y ys =>
          rw [consecutive_cons]
          have hxy : x.time < y.time := (List.pairwise_cons.mp hxs).1 y (by simp)
          have hrest : 0 ≤ consecutive piece (y :: ys) :=
            ih (fun a ha b hb => h a (List.mem_cons_of_mem x ha) b (List.mem_cons_of_mem x hb))
              (List.pairwise_cons.mp hxs).2
          exact add_nonneg (h x (by simp) y (by simp) hxy) hrest

end

end VeSmart.Lib
