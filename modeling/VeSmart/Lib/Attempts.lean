import Mathlib.Tactic

set_option autoImplicit false

/-! # Queues whose entries are attempted a bounded number of times

A queue lists its entries with the attempts that each has had, and an entry may be attempted
while it has had fewer than `limit`. Entries may be forgotten at any time, and an attempted entry
may stay and be attempted again. What bounds such a run is the number of attempts that are left
over all entries: `Attempts.length_le` for the whole run, `Attempts.count_le` for each entry. -/

namespace VeSmart.Lib

section

variable {ι : Type} {limit : Nat}

/-- The attempts that the entries have left, taken together. -/
def attemptsLeft (limit : Nat) (q : List (ι × Nat)) : Nat := (q.map fun e => limit - e.2).sum

@[simp] theorem attemptsLeft_cons (e : ι × Nat) (q : List (ι × Nat)) :
    attemptsLeft limit (e :: q) = (limit - e.2) + attemptsLeft limit q := by
  simp [attemptsLeft]

theorem attemptsLeft_sublist {q q' : List (ι × Nat)} (h : q'.Sublist q) :
    attemptsLeft limit q' ≤ attemptsLeft limit q := by
  induction h with
  | slnil => exact le_refl _
  | cons e _ ih =>
      rw [attemptsLeft_cons]
      omega
  | cons_cons e _ ih =>
      rw [attemptsLeft_cons, attemptsLeft_cons]
      omega

variable [DecidableEq ι]

/-- One more attempt of the entry `i`. -/
def attempted (i : ι) (q : List (ι × Nat)) : List (ι × Nat) :=
  q.map fun e => if e.1 = i then (e.1, e.2 + 1) else e

/-- The attempts that the entry `i` has left. -/
def attemptsLeftOf (limit : Nat) (q : List (ι × Nat)) (i : ι) : Nat :=
  attemptsLeft limit (q.filter fun e => e.1 = i)

/-- The entries `is` can be attempted, in this order, from the queue. Between two attempts, and
after the last one, entries may be forgotten. -/
inductive Attempts (limit : Nat) : List (ι × Nat) → List ι → Prop
  | done (q : List (ι × Nat)) : Attempts limit q []
  | next {q q' : List (ι × Nat)} {i : ι} {n : Nat} {is : List ι} (hmem : (i, n) ∈ q)
      (hleft : n < limit) (hsub : q'.Sublist (attempted i q)) (h : Attempts limit q' is) :
      Attempts limit q (i :: is)

/-! ## One step -/

theorem attempted_cons (i : ι) (e : ι × Nat) (q : List (ι × Nat)) :
    attempted i (e :: q) = (if e.1 = i then (e.1, e.2 + 1) else e) :: attempted i q := rfl

theorem attemptsLeft_attempted_le (i : ι) (q : List (ι × Nat)) :
    attemptsLeft limit (attempted i q) ≤ attemptsLeft limit q := by
  induction q with
  | nil => exact le_refl _
  | cons e q ih =>
      rw [attempted_cons, attemptsLeft_cons, attemptsLeft_cons]
      by_cases he : e.1 = i
      · simp only [he, if_true]
        omega
      · simp only [he, if_false]
        omega

/-- An attempt that was permitted is one attempt less. -/
theorem attemptsLeft_attempted {i : ι} {n : Nat} {q : List (ι × Nat)} (hmem : (i, n) ∈ q)
    (hleft : n < limit) : attemptsLeft limit (attempted i q) + 1 ≤ attemptsLeft limit q := by
  induction q with
  | nil => simp at hmem
  | cons e q ih =>
      have hrest : attemptsLeft limit (attempted i q) ≤ attemptsLeft limit q :=
        attemptsLeft_attempted_le i q
      rw [attempted_cons, attemptsLeft_cons, attemptsLeft_cons]
      rcases List.mem_cons.mp hmem with rfl | hmem
      · simp only [if_true]
        omega
      · have hstep := ih hmem
        by_cases he : e.1 = i
        · simp only [he, if_true]
          omega
        · simp only [he, if_false]
          omega

theorem filter_attempted (i j : ι) (q : List (ι × Nat)) :
    (attempted i q).filter (fun e => e.1 = j) = attempted i (q.filter fun e => e.1 = j) := by
  induction q with
  | nil => rfl
  | cons e q ih =>
      rw [attempted_cons]
      by_cases he : e.1 = i <;> by_cases hj : e.1 = j <;>
        simp_all [attempted_cons]

theorem mem_attempted {i j : ι} {q : List (ι × Nat)} (h : ∃ n, (j, n) ∈ attempted i q) :
    ∃ n, (j, n) ∈ q := by
  obtain ⟨n, hn⟩ := h
  obtain ⟨e, he, heq⟩ := List.mem_map.mp hn
  by_cases hi : e.1 = i
  · rw [if_pos hi] at heq
    have hj : e.1 = j := congrArg Prod.fst heq
    exact ⟨e.2, hj ▸ he⟩
  · rw [if_neg hi] at heq
    exact ⟨n, heq ▸ he⟩

theorem attemptsLeftOf_cons_eq (i : ι) (n : Nat) (q : List (ι × Nat)) :
    attemptsLeftOf limit ((i, n) :: q) i = (limit - n) + attemptsLeftOf limit q i := by
  simp [attemptsLeftOf]

theorem attemptsLeftOf_cons_ne {i : ι} {e : ι × Nat} (h : e.1 ≠ i) (q : List (ι × Nat)) :
    attemptsLeftOf limit (e :: q) i = attemptsLeftOf limit q i := by
  simp [attemptsLeftOf, h]

/-- With one entry for each `i`, its attempts are those of the entry. -/
theorem attemptsLeftOf_mem {i : ι} {n : Nat} {q : List (ι × Nat)} (hnodup : (q.map Prod.fst).Nodup)
    (h : (i, n) ∈ q) : attemptsLeftOf limit q i = limit - n := by
  induction q with
  | nil => simp at h
  | cons e q ih =>
      rw [List.map_cons, List.nodup_cons] at hnodup
      rcases List.mem_cons.mp h with rfl | h
      · have hnone : attemptsLeftOf limit q i = 0 := by
          have hother : q.filter (fun e => e.1 = i) = [] := by
            rw [List.filter_eq_nil_iff]
            intro e he
            have hne : e.1 ≠ i := fun hi => hnodup.1 (List.mem_map.mpr ⟨e, he, hi⟩)
            simpa using hne
          unfold attemptsLeftOf
          rw [hother]
          rfl
        rw [attemptsLeftOf_cons_eq, hnone]
        omega
      · have hne : e.1 ≠ i := fun he => hnodup.1 (List.mem_map.mpr ⟨(i, n), h, he.symm⟩)
        rw [attemptsLeftOf_cons_ne hne]
        exact ih hnodup.2 h

/-! ## A whole run -/

/-- A run makes no more attempts than the queue has left. -/
theorem Attempts.length_le {q : List (ι × Nat)} {is : List ι} (h : Attempts limit q is) :
    is.length ≤ attemptsLeft limit q := by
  induction h with
  | done => exact Nat.zero_le _
  | next hmem hleft hsub _ ih =>
      calc (_ :: _ : List ι).length
          ≤ attemptsLeft limit _ + 1 := Nat.succ_le_succ ih
        _ ≤ attemptsLeft limit (attempted _ _) + 1 := Nat.succ_le_succ (attemptsLeft_sublist hsub)
        _ ≤ attemptsLeft limit _ := attemptsLeft_attempted hmem hleft

/-- More entries do not stand in the way of a run. -/
theorem Attempts.of_sublist {q q' : List (ι × Nat)} {is : List ι} (h : Attempts limit q' is)
    (hsub : q'.Sublist q) : Attempts limit q is := by
  cases h with
  | done => exact .done q
  | next hmem hleft hsub' h => exact .next (hsub.subset hmem) hleft (hsub'.trans (hsub.map _)) h

/-- A run seen at one entry is a run of the queue of that entry alone. -/
theorem Attempts.filter {q : List (ι × Nat)} {is : List ι} (h : Attempts limit q is) (j : ι) :
    Attempts limit (q.filter fun e => e.1 = j) (is.filter fun i => i = j) := by
  induction h with
  | done q => exact .done _
  | @next q q' i n is hmem hleft hsub _ ih =>
      have hfilter := hsub.filter fun e => decide (e.1 = j)
      rw [filter_attempted] at hfilter
      by_cases hi : i = j
      · subst hi
        rw [List.filter_cons_of_pos (by simp)]
        exact .next (List.mem_filter.mpr ⟨hmem, by simp⟩) hleft hfilter ih
      · -- the attempt is one of another entry, which the filtered queue does not have
        rw [List.filter_cons_of_neg (by simpa using hi)]
        have hsame : attempted i (q.filter fun e => e.1 = j) = q.filter fun e => e.1 = j := by
          have hother : ∀ e ∈ q.filter (fun e => e.1 = j), e.1 ≠ i := by
            intro e he
            have hej : e.1 = j := by simpa using (List.mem_filter.mp he).2
            exact fun hei => hi (hei.symm.trans hej)
          calc attempted i (q.filter fun e => e.1 = j)
              = (q.filter fun e => e.1 = j).map id :=
                List.map_congr_left fun e he => if_neg (hother e he)
            _ = q.filter fun e => e.1 = j := List.map_id _
        rw [hsame] at hfilter
        exact ih.of_sublist hfilter

/-- No entry is attempted more often than it has attempts left. -/
theorem Attempts.count_le {q : List (ι × Nat)} {is : List ι} (h : Attempts limit q is) (i : ι) :
    is.countP (fun j => j = i) ≤ attemptsLeftOf limit q i := by
  rw [List.countP_eq_length_filter]
  exact (h.filter i).length_le

/-- Only entries of the queue are attempted. -/
theorem Attempts.mem {q : List (ι × Nat)} {is : List ι} (h : Attempts limit q is) :
    ∀ i ∈ is, ∃ n, (i, n) ∈ q := by
  induction h with
  | done => simp
  | next hmem _ hsub _ ih =>
      intro j hj
      rcases List.mem_cons.mp hj with rfl | hj
      · exact ⟨_, hmem⟩
      · obtain ⟨n, hn⟩ := ih j hj
        exact mem_attempted ⟨n, hsub.subset hn⟩

end

end VeSmart.Lib
