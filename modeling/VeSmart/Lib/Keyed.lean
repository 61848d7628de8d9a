import Mathlib.Data.List.Sort
import Mathlib.Tactic

set_option autoImplicit false

/-! # The last element of each key

The elements of a list have keys, and of the elements with one key the last one counts
(`lastOf`). A stable sort brings the elements with one key together and keeps their order, so the
last one of each run of equal keys (`lastRuns`) is the one that counts: `latest` has one element
for each key, in the order of the keys (`mem_latest`, `latest_sorted`). -/

namespace VeSmart.Lib

variable {α κ : Type} [LinearOrder κ] {key : α → κ}

/-- The last element with the key `k`. -/
def lastOf (key : α → κ) (xs : List α) (k : κ) : Option α :=
  (xs.filter fun x => key x = k).getLast?

/-- The last element of each run of neighbours with equal keys. -/
def lastRuns (key : α → κ) : List α → List α
  | [] => []
  | [x] => [x]
  | x :: y :: rest =>
      if key x = key y then lastRuns key (y :: rest) else x :: lastRuns key (y :: rest)

def leByKey (key : α → κ) (a b : α) : Bool := key a ≤ key b

/-- The stable sort by the keys. -/
def sortByKey (key : α → κ) (xs : List α) : List α := xs.mergeSort (leByKey key)

/-- One element for each key, the last one, in the order of the keys. -/
def latest (key : α → κ) (xs : List α) : List α := lastRuns key (sortByKey key xs)

/-! ## The sort -/

theorem leByKey_trans (a b c : α) (hab : leByKey key a b = true) (hbc : leByKey key b c = true) :
    leByKey key a c = true := by
  simp only [leByKey, decide_eq_true_eq] at hab hbc ⊢
  exact le_trans hab hbc

theorem leByKey_total (a b : α) : (leByKey key a b || leByKey key b a) = true := by
  simp only [leByKey, Bool.or_eq_true, decide_eq_true_eq]
  exact le_total (key a) (key b)

theorem sortByKey_perm (key : α → κ) (xs : List α) : (sortByKey key xs).Perm xs :=
  List.mergeSort_perm xs _

theorem sortByKey_sorted (key : α → κ) (xs : List α) :
    (sortByKey key xs).Pairwise fun a b => key a ≤ key b := by
  have hsorted := List.pairwise_mergeSort (@leByKey_trans _ _ _ key) leByKey_total xs
  exact hsorted.imp of_decide_eq_true

/-- The elements with one key stay in their order. -/
theorem filter_sortByKey (xs : List α) (k : κ) :
    (sortByKey key xs).filter (fun x => key x = k) = xs.filter fun x => key x = k := by
  have hpair : (xs.filter fun x => key x = k).Pairwise
      fun a b => leByKey key a b = true := by
    apply List.pairwise_of_forall_mem_list
    intro a ha b hb
    have ha' : key a = k := by simpa using (List.mem_filter.mp ha).2
    have hb' : key b = k := by simpa using (List.mem_filter.mp hb).2
    simp [leByKey, ha', hb']
  have hsub := List.sublist_mergeSort leByKey_trans leByKey_total hpair List.filter_sublist
  have hsub' := hsub.filter fun x => decide (key x = k)
  rw [List.filter_filter] at hsub'
  simp only [Bool.and_self] at hsub'
  have hlen := ((sortByKey_perm key xs).filter fun x => decide (key x = k)).length_eq
  exact (hsub'.eq_of_length hlen.symm).symm

theorem lastOf_sortByKey (xs : List α) (k : κ) :
    lastOf key (sortByKey key xs) k = lastOf key xs k := by
  rw [lastOf, filter_sortByKey, lastOf]

/-- The two lists differ in the order of elements with different keys only. -/
def Reordered (key : α → κ) (xs ys : List α) : Prop :=
  ∀ k, xs.filter (fun x => key x = k) = ys.filter fun x => key x = k

theorem Reordered.mem_iff {xs ys : List α} (h : Reordered key xs ys) (a : α) :
    a ∈ xs ↔ a ∈ ys := by
  have hiff : a ∈ xs.filter (fun x => key x = key a) ↔
      a ∈ ys.filter fun x => key x = key a := by rw [h]
  simpa using hiff

theorem Reordered.tail {a : α} {xs ys : List α} (h : Reordered key (a :: xs) (a :: ys)) :
    Reordered key xs ys := by
  intro k
  have hk := h k
  by_cases ha : key a = k
  · rw [List.filter_cons_of_pos (by simpa using ha),
      List.filter_cons_of_pos (by simpa using ha)] at hk
    exact (List.cons.inj hk).2
  · rwa [List.filter_cons_of_neg (by simpa using ha),
      List.filter_cons_of_neg (by simpa using ha)] at hk

/-- A sorted list is known by the elements of each key. -/
theorem Reordered.eq_of_sorted {xs ys : List α} (h : Reordered key xs ys)
    (hx : xs.Pairwise fun a b => key a ≤ key b) (hy : ys.Pairwise fun a b => key a ≤ key b) :
    xs = ys := by
  induction xs generalizing ys with
  | nil =>
      refine (List.eq_nil_iff_forall_not_mem.mpr ?_).symm
      intro a ha
      exact List.not_mem_nil ((h.mem_iff a).mpr ha)
  | cons x xs ih =>
      cases ys with
      | nil => exact absurd ((h.mem_iff x).mp (List.mem_cons_self ..)) List.not_mem_nil
      | cons y ys =>
          obtain ⟨hxs, hx'⟩ := List.pairwise_cons.mp hx
          obtain ⟨hys, hy'⟩ := List.pairwise_cons.mp hy
          -- each head is in the other list, so neither key is the lower one
          have hle : key x ≤ key y := by
            rcases List.mem_cons.mp ((h.mem_iff y).mpr (List.mem_cons_self ..)) with rfl | hin
            · exact le_refl _
            · exact hxs y hin
          have hge : key y ≤ key x := by
            rcases List.mem_cons.mp ((h.mem_iff x).mp (List.mem_cons_self ..)) with rfl | hin
            · exact le_refl _
            · exact hys x hin
          have hkey : key x = key y := le_antisymm hle hge
          have hhead := h (key x)
          rw [List.filter_cons_of_pos (by simp), List.filter_cons_of_pos (by simp [hkey])] at hhead
          obtain rfl : x = y := (List.cons.inj hhead).1
          rw [ih h.tail hx' hy']

theorem sortByKey_congr {xs ys : List α} (h : Reordered key xs ys) :
    sortByKey key xs = sortByKey key ys := by
  refine Reordered.eq_of_sorted ?_ (sortByKey_sorted key xs) (sortByKey_sorted key ys)
  intro k
  rw [filter_sortByKey, filter_sortByKey, h k]

theorem filter_orderedInsert (a : α) (xs : List α) (k : κ) :
    (xs.orderedInsert (fun a b => key a ≤ key b) a).filter (fun x => key x = k) =
      (a :: xs).filter fun x => key x = k := by
  induction xs with
  | nil => rfl
  | cons b xs ih =>
      rw [List.orderedInsert]
      split_ifs with hle
      · rfl
      · rw [List.filter_cons, ih]
        by_cases hb : key b = k
        · have ha : key a ≠ k := fun ha => hle (ha.trans hb.symm).le
          simp [ha, hb]
        · by_cases ha : key a = k <;> simp [ha, hb]

/-- The sort computes by insertion. -/
theorem sortByKey_insertion (xs : List α) :
    sortByKey key xs = xs.insertionSort fun a b => key a ≤ key b := by
  have : IsTrans α fun a b => key a ≤ key b := ⟨fun _ _ _ => le_trans⟩
  have : Std.Total fun a b : α => key a ≤ key b := ⟨fun a b => le_total (key a) (key b)⟩
  refine Reordered.eq_of_sorted (fun k => ?_) (sortByKey_sorted key xs)
    (List.pairwise_insertionSort _ xs)
  rw [filter_sortByKey]
  induction xs with
  | nil => rfl
  | cons x xs ih => rw [List.insertionSort_cons, filter_orderedInsert, List.filter_cons, ih,
      List.filter_cons]

/-- With no key twice, any order will do. -/
theorem Reordered.of_perm {xs ys : List α} (hkeys : (xs.map key).Nodup) (hperm : xs.Perm ys) :
    Reordered key xs ys := by
  intro k
  have hfilter := hperm.filter fun x => decide (key x = k)
  have hreplicate : (xs.filter fun x => key x = k).map key =
      List.replicate (xs.filter fun x => key x = k).length k := by
    rw [List.map_eq_replicate_iff]
    intro a ha
    simpa using (List.mem_filter.mp ha).2
  have hnodup : ((xs.filter fun x => key x = k).map key).Nodup :=
    hkeys.sublist (List.filter_sublist.map key)
  rw [hreplicate, List.nodup_replicate] at hnodup
  -- at most one element is left on either side
  generalize xs.filter (fun x => key x = k) = us at hfilter hnodup
  cases us with
  | nil => exact hfilter.nil_eq
  | cons a us =>
      have hnil : us = [] := List.length_eq_zero_iff.mp (by simpa using hnodup)
      subst hnil
      exact List.singleton_perm.mp hfilter

/-! ## The runs -/

theorem lastRuns_sublist (key : α → κ) (xs : List α) : (lastRuns key xs).Sublist xs := by
  induction xs with
  | nil => exact List.Sublist.refl _
  | cons x xs ih =>
      cases xs with
      | nil => exact List.Sublist.refl _
      | cons y rest =>
          unfold lastRuns
          split_ifs with h
          · exact ih.cons x
          · exact ih.cons_cons x

theorem lastRuns_sorted {xs : List α} (h : xs.Pairwise fun a b => key a ≤ key b) :
    (lastRuns key xs).Pairwise fun a b => key a < key b := by
  induction xs with
  | nil => exact List.Pairwise.nil
  | cons x xs ih =>
      cases xs with
      | nil => exact List.pairwise_singleton _ _
      | cons y rest =>
          obtain ⟨hx, htail⟩ := List.pairwise_cons.mp h
          have hy := (List.pairwise_cons.mp htail).1
          unfold lastRuns
          split_ifs with hkey
          · exact ih htail
          · -- behind `x` every key is at least that of `y`
            refine List.pairwise_cons.mpr ⟨?_, ih htail⟩
            intro z hz
            have hlt : key x < key y := lt_of_le_of_ne (hx y (List.mem_cons_self ..)) hkey
            rcases List.mem_cons.mp ((lastRuns_sublist key _).subset hz) with rfl | hz'
            · exact hlt
            · exact lt_of_lt_of_le hlt (hy z hz')

theorem lastOf_cons_of_ne {x : α} {xs : List α} {k : κ} (h : key x ≠ k) :
    lastOf key (x :: xs) k = lastOf key xs k := by
  simp [lastOf, h]

/-- A later element with the same key hides the first one. -/
theorem lastOf_cons_of_mem {x y : α} {xs : List α} (k : κ) (hy : y ∈ xs) (h : key x = key y) :
    lastOf key (x :: xs) k = lastOf key xs k := by
  by_cases hk : key x = k
  · have hne : xs.filter (fun x => key x = k) ≠ [] := by
      apply List.ne_nil_of_mem
      exact List.mem_filter.mpr ⟨hy, by simpa using h.symm.trans hk⟩
    obtain ⟨z, rest, hfilter⟩ := List.exists_cons_of_ne_nil hne
    simp [lastOf, hk, hfilter]
  · exact lastOf_cons_of_ne hk

theorem lastOf_cons_of_none {x : α} {xs : List α} (h : ∀ y ∈ xs, key y ≠ key x) :
    lastOf key (x :: xs) (key x) = some x := by
  have hfilter : xs.filter (fun y => key y = key x) = [] := by
    rw [List.filter_eq_nil_iff]
    intro y hy
    simpa using h y hy
  simp [lastOf, hfilter]

theorem lastOf_mem {xs : List α} {k : κ} {x : α} (h : lastOf key xs k = some x) :
    x ∈ xs ∧ key x = k := by
  have hmem := List.mem_filter.mp (List.mem_of_getLast? h)
  exact ⟨hmem.1, by simpa using hmem.2⟩

/-- In a sorted list the runs are the keys. -/
theorem mem_lastRuns {xs : List α} (h : xs.Pairwise fun a b => key a ≤ key b) (z : α) :
    z ∈ lastRuns key xs ↔ lastOf key xs (key z) = some z := by
  induction xs with
  | nil => simp [lastRuns, lastOf]
  | cons x xs ih =>
      obtain ⟨hx, htail⟩ := List.pairwise_cons.mp h
      cases xs with
      | nil =>
          by_cases hz : key x = key z
          · simp [lastRuns, lastOf, hz, eq_comm]
          · simp only [lastRuns, lastOf, hz, List.mem_singleton, List.filter_cons_of_neg,
              List.filter_nil, decide_false, Bool.false_eq_true, not_false_eq_true,
              List.getLast?_nil, reduceCtorEq, iff_false]
            rintro rfl
            exact hz rfl
      | cons y rest =>
          have hy := (List.pairwise_cons.mp htail).1
          unfold lastRuns
          split_ifs with hkey
          · rw [lastOf_cons_of_mem (key z) (List.mem_cons_self ..) hkey]
            exact ih htail
          · have hlt : key x < key y := lt_of_le_of_ne (hx y (List.mem_cons_self ..)) hkey
            have habove : ∀ w ∈ y :: rest, key x < key w := by
              intro w hw
              rcases List.mem_cons.mp hw with rfl | hw'
              · exact hlt
              · exact lt_of_lt_of_le hlt (hy w hw')
            by_cases hz : key x = key z
            · rw [← hz, lastOf_cons_of_none fun w hw => (habove w hw).ne', List.mem_cons]
              constructor
              · rintro (rfl | hmem)
                · rfl
                · exact absurd hz (habove z ((lastRuns_sublist key _).subset hmem)).ne
              · intro heq
                exact Or.inl (Option.some.inj heq).symm
            · rw [lastOf_cons_of_ne hz, List.mem_cons, ← ih htail]
              refine or_iff_right ?_
              rintro rfl
              exact hz rfl

/-! ## The elements that count -/

theorem latest_sorted (key : α → κ) (xs : List α) :
    (latest key xs).Pairwise fun a b => key a < key b :=
  lastRuns_sorted (sortByKey_sorted key xs)

theorem mem_latest {xs : List α} {x : α} :
    x ∈ latest key xs ↔ lastOf key xs (key x) = some x := by
  rw [latest, mem_lastRuns (sortByKey_sorted key xs), lastOf_sortByKey]

/-- No key gets lost. -/
theorem exists_latest {xs : List α} {x : α} (hx : x ∈ xs) :
    ∃ y ∈ latest key xs, key y = key x := by
  have hne : xs.filter (fun y => key y = key x) ≠ [] :=
    List.ne_nil_of_mem (List.mem_filter.mpr ⟨hx, by simp⟩)
  have hlast : lastOf key xs (key x) = some ((xs.filter fun y => key y = key x).getLast hne) :=
    List.getLast?_eq_some_getLast hne
  have hkey := (lastOf_mem hlast).2
  exact ⟨_, mem_latest.mpr (by rw [hkey, hlast]), hkey⟩

/-- With a key of its own every element counts. -/
theorem mem_latest_injective (hkey : Function.Injective key) (xs : List α) (x : α) :
    x ∈ latest key xs ↔ x ∈ xs := by
  constructor
  · exact fun h => (lastOf_mem (mem_latest.mp h)).1
  · intro h
    obtain ⟨y, hy, heq⟩ : ∃ y ∈ latest key xs, key y = key x := exists_latest h
    rwa [hkey heq] at hy

/-- The elements of different keys may come in any order. -/
theorem latest_congr {xs ys : List α} (h : Reordered key xs ys) :
    latest key xs = latest key ys := by
  rw [latest, sortByKey_congr h, latest]

/-- With no key twice every element counts. -/
theorem mem_latest_of_nodup {xs : List α} (hkeys : (xs.map key).Nodup) {x : α} :
    x ∈ latest key xs ↔ x ∈ xs := by
  rw [mem_latest]
  constructor
  · exact fun h => (lastOf_mem h).1
  · intro hx
    obtain ⟨y, hy, hkey⟩ : ∃ y ∈ latest key xs, key y = key x := exists_latest hx
    obtain rfl := List.inj_on_of_nodup_map hkeys (lastOf_mem (mem_latest.mp hy)).1 hx hkey
    exact mem_latest.mp hy

end VeSmart.Lib
