import Mathlib.Data.List.Sort
import Mathlib.Tactic

set_option autoImplicit false

/-! # The least and the greatest elements of a list

A list is read as a finite set whose elements a total preorder `r` tells apart (`Ranked`). The
`rank` of an element counts the elements strictly above it, and `greatest r n l` keeps those of
rank less than `n`, in the order of `l`: the `n` greatest (`greatest_length`, `greatest_above`).
It commutes with every filter that is closed upwards (`greatest_filter`), so cutting twice is
cutting once. `insertionSort_tail` is about the other end: the sorted list without its head is the
sorted list of the elements other than the least. -/

namespace VeSmart.Lib

variable {α : Type} {r : α → α → Prop} [DecidableRel r]

/-- No element occurs twice, and no two elements are equally high. -/
structure Ranked (r : α → α → Prop) (l : List α) : Prop where
  nodup : l.Nodup
  antisymm : ∀ a ∈ l, ∀ b ∈ l, r a b → r b a → a = b

omit [DecidableRel r] in
theorem Ranked.perm {l l' : List α} (h : Ranked r l) (hperm : l.Perm l') : Ranked r l' where
  nodup := hperm.nodup_iff.mp h.nodup
  antisymm := fun a ha b hb =>
    h.antisymm a (hperm.mem_iff.mpr ha) b (hperm.mem_iff.mpr hb)

omit [DecidableRel r] in
theorem Ranked.sublist {l l' : List α} (h : Ranked r l) (hsub : l'.Sublist l) : Ranked r l' where
  nodup := h.nodup.sublist hsub
  antisymm := fun a ha b hb => h.antisymm a (hsub.subset ha) b (hsub.subset hb)

/-! ## The greatest elements -/

/-- The number of elements strictly above `a`. -/
def rank (r : α → α → Prop) [DecidableRel r] (l : List α) (a : α) : Nat :=
  l.countP fun b => !decide (r b a)

/-- The `n` greatest elements of `l`, in the order of `l`. -/
def greatest (r : α → α → Prop) [DecidableRel r] (n : Nat) (l : List α) : List α :=
  l.filter fun a => rank r l a < n

theorem rank_perm {l l' : List α} (h : l.Perm l') (a : α) : rank r l a = rank r l' a :=
  h.countP_eq _

theorem rank_sublist {l l' : List α} (h : l'.Sublist l) (a : α) : rank r l' a ≤ rank r l a :=
  h.countP_le

theorem mem_greatest {n : Nat} {l : List α} {a : α} :
    a ∈ greatest r n l ↔ a ∈ l ∧ rank r l a < n := by
  simp [greatest]

theorem greatest_sublist (n : Nat) (l : List α) : (greatest r n l).Sublist l :=
  List.filter_sublist

/-- Cutting twice at one bound is cutting once. -/
theorem greatest_greatest (n : Nat) (l : List α) :
    greatest r n (greatest r n l) = greatest r n l := by
  conv_lhs => rw [greatest]
  rw [List.filter_eq_self]
  intro a ha
  have hlow := (mem_greatest.mp ha).2
  have hle := rank_sublist (r := r) (greatest_sublist (r := r) n l) a
  simp only [decide_eq_true_eq]
  omega

/-- In a list that falls strictly, the rank of an element is its position. -/
theorem filter_rank_falling {l : List α} (hfall : l.Pairwise fun a b => r b a ∧ ¬ r a b)
    (hrefl : ∀ a, r a a) (n : Nat) : l.filter (fun a => rank r l a < n) = l.take n := by
  induction l generalizing n with
  | nil => simp
  | cons a rest ih =>
      obtain ⟨hbelow, hrest⟩ := List.pairwise_cons.mp hfall
      have htop : rank r (a :: rest) a = 0 := by
        rw [rank, List.countP_eq_zero]
        intro b hb
        rcases List.mem_cons.mp hb with rfl | hlater
        · simpa using hrefl b
        · simpa using (hbelow b hlater).1
      have hlater : ∀ b ∈ rest, rank r (a :: rest) b = rank r rest b + 1 := by
        intro b hb
        rw [rank, List.countP_cons_of_pos (by simpa using (hbelow b hb).2)]
        rfl
      cases n with
      | zero => simp
      | succ n =>
          rw [List.filter_cons_of_pos (by simp [htop]), List.take_succ_cons, ← ih hrest n]
          congr 1
          apply List.filter_congr
          intro b hb
          rw [hlater b hb]
          simp

section Total

variable [Std.Total r] [IsTrans α r]

theorem Ranked.falling {l : List α} (h : Ranked r l) :
    (l.insertionSort fun a b => r b a).Pairwise fun a b => r b a ∧ ¬ r a b := by
  have : Std.Total fun a b => r b a := ⟨fun a b => (Std.Total.total (r := r) b a)⟩
  have : IsTrans α fun a b => r b a := ⟨fun a b c hab hbc => Trans.trans hbc hab⟩
  have hperm := List.perm_insertionSort (fun a b => r b a) l
  have hsorted := List.pairwise_insertionSort (fun a b => r b a) l
  have hranked := h.perm hperm.symm
  have hne : (l.insertionSort fun a b => r b a).Pairwise (· ≠ ·) := hranked.nodup
  refine (hsorted.and hne).imp_of_mem ?_
  rintro a b ha hb ⟨hba, hneq⟩
  exact ⟨hba, fun hab => hneq (hranked.antisymm a ha b hb hab hba)⟩

omit [Std.Total r] in
theorem rank_anti (l : List α) {a b : α} (hab : r a b) : rank r l b ≤ rank r l a := by
  apply List.countP_mono_left
  intro c _ hc
  simp only [Bool.not_eq_true', decide_eq_false_iff_not] at hc ⊢
  exact fun hca => hc (Trans.trans hca hab)

omit [DecidableRel r] [IsTrans α r] in
theorem refl_of_total (a : α) : r a a := by
  rcases Std.Total.total (r := r) a a with h | h <;> exact h

theorem greatest_perm_take {l : List α} (h : Ranked r l) (n : Nat) :
    (greatest r n l).Perm ((l.insertionSort fun a b => r b a).take n) := by
  have hperm := List.perm_insertionSort (fun a b => r b a) l
  rw [← filter_rank_falling h.falling refl_of_total n]
  have hsame : (l.insertionSort fun a b => r b a).filter
      (fun a => rank r (l.insertionSort fun a b => r b a) a < n) =
      (l.insertionSort fun a b => r b a).filter (fun a => rank r l a < n) := by
    apply List.filter_congr
    intro a _
    rw [rank_perm hperm]
  rw [hsame]
  exact (hperm.filter _).symm

/-- There are `n` greatest elements, or as many as the list has. -/
theorem greatest_length {l : List α} (h : Ranked r l) (n : Nat) :
    (greatest r n l).length = min n l.length := by
  rw [(greatest_perm_take h n).length_eq, List.length_take, List.length_insertionSort]

/-- An element is among those that are cut off iff its rank is too large. -/
theorem mem_drop_iff {l : List α} (h : Ranked r l) (n : Nat) (a : α) :
    a ∈ (l.insertionSort fun a b => r b a).drop n ↔ a ∈ l ∧ n ≤ rank r l a := by
  have hperm := List.perm_insertionSort (fun a b => r b a) l
  have htake : a ∈ (l.insertionSort fun a b => r b a).take n ↔ a ∈ l ∧ rank r l a < n := by
    rw [← (greatest_perm_take h n).mem_iff, mem_greatest]
  have hall : a ∈ l ↔ a ∈ (l.insertionSort fun a b => r b a).take n ∨
      a ∈ (l.insertionSort fun a b => r b a).drop n := by
    rw [← List.mem_append, List.take_append_drop, hperm.mem_iff]
  have hapart : a ∈ (l.insertionSort fun a b => r b a).take n →
      a ∉ (l.insertionSort fun a b => r b a).drop n := by
    intro hin hout
    have hnodup : (l.insertionSort fun a b => r b a).Nodup := hperm.nodup_iff.mpr h.nodup
    exact List.disjoint_take_drop hnodup le_rfl hin hout
  constructor
  · intro hdrop
    have hin := hall.mpr (.inr hdrop)
    refine ⟨hin, ?_⟩
    by_contra hlow
    exact hapart (htake.mpr ⟨hin, by omega⟩) hdrop
  · rintro ⟨hin, hrank⟩
    rcases hall.mp hin with hkept | hdrop
    · have := (htake.mp hkept).2
      omega
    · exact hdrop

/-- What is kept is strictly above what is not. -/
theorem greatest_above {l : List α} {n : Nat} {a b : α} (ha : a ∈ greatest r n l) (hb : b ∈ l)
    (hout : b ∉ greatest r n l) : r b a ∧ ¬ r a b := by
  have hhigh := (mem_greatest.mp ha).2
  have hlow : n ≤ rank r l b := by
    by_contra hlow
    exact hout (mem_greatest.mpr ⟨hb, by omega⟩)
  have hnot : ¬ r a b := by
    intro hab
    have := rank_anti l hab
    omega
  exact ⟨(Std.Total.total (r := r) b a).resolve_right hnot, hnot⟩

omit [IsTrans α r] in
/-- Cutting commutes with a filter that keeps everything above what it keeps. -/
theorem greatest_filter {l : List α} {p : α → Bool}
    (hup : ∀ a b, p a = true → r a b → p b = true) (n : Nat) :
    greatest r n (l.filter p) = (greatest r n l).filter p := by
  have hrank : ∀ a, p a = true → rank r (l.filter p) a = rank r l a := by
    intro a ha
    rw [rank, rank, List.countP_filter]
    apply List.countP_congr
    intro b _
    simp only [Bool.not_eq_true', decide_eq_false_iff_not, Bool.and_eq_true, and_iff_left_iff_imp]
    intro hab
    exact hup a b ha ((Std.Total.total (r := r) a b).resolve_right hab)
  unfold greatest
  rw [List.filter_filter, List.filter_filter]
  apply List.filter_congr
  intro a _
  by_cases ha : p a = true
  · simp [ha, hrank a ha]
  · simp [ha]

/-! ## The least element -/

/-- The sorted list after its head is the sorted list of the other elements. -/
theorem insertionSort_tail {l : List α} (h : Ranked r l) {a : α} {rest : List α}
    (hsort : l.insertionSort r = a :: rest) {p : α → Bool} (ha : p a = false)
    (hrest : ∀ b ∈ l, b ≠ a → p b = true) : (l.filter p).insertionSort r = rest := by
  have hperm := List.perm_insertionSort r l
  rw [hsort] at hperm
  have hranked := h.perm hperm.symm
  have hfilter : (a :: rest).filter p = rest := by
    rw [List.filter_cons_of_neg (by simpa using ha), List.filter_eq_self]
    intro b hb
    apply hrest b (hperm.mem_iff.mp (List.mem_cons_of_mem _ hb))
    rintro rfl
    exact (List.nodup_cons.mp hranked.nodup).1 hb
  have hsame : ((l.filter p).insertionSort r).Perm rest := by
    rw [← hfilter]
    exact (List.perm_insertionSort r _).trans (hperm.filter p).symm
  have hleft := List.pairwise_insertionSort r (l.filter p)
  have hright : (a :: rest).Pairwise r := hsort ▸ List.pairwise_insertionSort r l
  refine hsame.eq_of_pairwise ?_ hleft (List.pairwise_cons.mp hright).2
  intro b c hb hc hbc hcb
  exact hranked.antisymm b (List.mem_cons_of_mem _ (hsame.mem_iff.mp hb)) c
    (List.mem_cons_of_mem _ hc) hbc hcb

end Total

end VeSmart.Lib
