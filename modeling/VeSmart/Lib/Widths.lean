import Mathlib.Data.List.Basic

set_option autoImplicit false

/-! # Self-delimiting pieces

The first element of a piece says how many follow it. A text has at most one cut into such pieces,
and none exactly if walking from piece to piece runs past its end. -/

namespace VeSmart.Lib

section

variable {β : Type} (extra : β → Nat)

/-- A piece of the right length. -/
def IsPiece (p : List β) : Prop := ∃ b s, p = b :: s ∧ s.length = extra b

/-- The cut of a text into pieces. -/
def cut : List β → Option (List (List β))
  | [] => some []
  | b :: s =>
      if s.length < extra b then none
      else (cut (s.drop (extra b))).map ((b :: s.take (extra b)) :: ·)
termination_by s => s.length
decreasing_by
  rw [List.length_drop, List.length_cons]
  omega

/-- The positions that a walk from piece to piece reaches. The last may be past the end. -/
inductive Walks (text : List β) : Nat → Prop
  | start : Walks text 0
  | next {i : Nat} {b : β} (h : Walks text i) (hb : text[i]? = some b) :
      Walks text (i + (extra b + 1))

variable {extra}

theorem cut_cons {b : β} {s : List β} (h : extra b ≤ s.length) :
    cut extra (b :: s) = (cut extra (s.drop (extra b))).map ((b :: s.take (extra b)) :: ·) := by
  rw [cut, if_neg (by omega)]

theorem cut_short {b : β} {s : List β} (h : s.length < extra b) : cut extra (b :: s) = none := by
  rw [cut, if_pos h]

/-- The pieces of a text are whole, and the text is what they give together. -/
theorem cut_some {s : List β} {ps : List (List β)} (h : cut extra s = some ps) :
    ps.flatten = s ∧ ∀ p ∈ ps, IsPiece extra p := by
  induction s using cut.induct extra generalizing ps with
  | case1 =>
      rw [cut] at h
      cases h
      exact ⟨rfl, fun p hp => absurd hp List.not_mem_nil⟩
  | case2 b s hshort =>
      rw [cut_short hshort] at h
      cases h
  | case3 b s hlong ih =>
      rw [cut_cons (by omega)] at h
      obtain ⟨qs, hqs, rfl⟩ := Option.map_eq_some_iff.mp h
      obtain ⟨hflat, hpieces⟩ := ih hqs
      constructor
      · rw [List.flatten_cons, hflat, List.cons_append, List.take_append_drop]
      · intro p hp
        rcases List.mem_cons.mp hp with rfl | hp
        · exact ⟨b, s.take (extra b), rfl, by rw [List.length_take]; omega⟩
        · exact hpieces p hp

/-- Pieces are found again in what they give together. -/
theorem cut_flatten {ps : List (List β)} (h : ∀ p ∈ ps, IsPiece extra p) :
    cut extra ps.flatten = some ps := by
  induction ps with
  | nil => rw [List.flatten_nil, cut]
  | cons p ps ih =>
      obtain ⟨b, s, rfl, hlength⟩ := h p (List.mem_cons_self ..)
      have hrest := ih fun q hq => h q (List.mem_cons_of_mem _ hq)
      have hdrop : (s ++ ps.flatten).drop (extra b) = ps.flatten := by
        rw [← hlength, List.drop_left]
      have htake : (s ++ ps.flatten).take (extra b) = s := by
        rw [← hlength, List.take_left]
      rw [List.flatten_cons, List.cons_append, cut_cons (by rw [List.length_append]; omega), hdrop,
        htake, hrest, Option.map_some]

/-- A walk goes on in what is behind a piece. -/
theorem Walks.behind {b : β} {s : List β} {i : Nat} (h : Walks extra (s.drop (extra b)) i) :
    Walks extra (b :: s) (i + (extra b + 1)) := by
  induction h with
  | start =>
      have hfirst : Walks extra (b :: s) (0 + (extra b + 1)) := .next .start rfl
      exact hfirst
  | @next i c hi hc ih =>
      have hthere : (b :: s)[i + (extra b + 1)]? = some c := by
        rw [List.getElem?_drop] at hc
        rw [← Nat.add_assoc, List.getElem?_cons_succ, Nat.add_comm i]
        exact hc
      have hnext := ih.next hthere
      rwa [Nat.add_right_comm] at hnext

theorem Walks.within {b : β} {s : List β} {i : Nat} (h : Walks extra (b :: s) i) : i = 0 ∨
    ∃ j, Walks extra (s.drop (extra b)) j ∧ i = j + (extra b + 1) := by
  induction h with
  | start => exact Or.inl rfl
  | @next i c hi hc ih =>
      right
      rcases ih with rfl | ⟨j, hj, rfl⟩
      · cases hc
        exact ⟨0, .start, rfl⟩
      · have hthere : (s.drop (extra b))[j]? = some c := by
          rw [← Nat.add_assoc, List.getElem?_cons_succ] at hc
          rw [List.getElem?_drop, Nat.add_comm]
          exact hc
        exact ⟨j + (extra c + 1), hj.next hthere, by omega⟩

/-- A text has no cut exactly if the walk runs past its end. -/
theorem cut_none_iff {s : List β} : cut extra s = none ↔ ∃ i, Walks extra s i ∧ s.length < i := by
  induction s using cut.induct extra with
  | case1 =>
      rw [cut]
      constructor
      · intro h
        cases h
      · rintro ⟨i, hi, hlong⟩
        cases hi with
        | start => exact absurd hlong (Nat.lt_irrefl _)
        | next _ hb => cases hb
  | case2 b s hshort =>
      rw [cut_short hshort]
      refine ⟨fun _ => ⟨0 + (extra b + 1), .next .start rfl, ?_⟩, fun _ => rfl⟩
      rw [List.length_cons]
      omega
  | case3 b s hlong ih =>
      have hlong : extra b ≤ s.length := by omega
      have hlength : (s.drop (extra b)).length = s.length - extra b := List.length_drop
      rw [cut_cons hlong, Option.map_eq_none_iff, ih]
      constructor
      · rintro ⟨i, hi, hpast⟩
        refine ⟨_, hi.behind, ?_⟩
        rw [List.length_cons]
        omega
      · rintro ⟨i, hi, hpast⟩
        rw [List.length_cons] at hpast
        rcases hi.within with rfl | ⟨j, hj, rfl⟩
        · omega
        · exact ⟨j, hj, by omega⟩

end

end VeSmart.Lib
