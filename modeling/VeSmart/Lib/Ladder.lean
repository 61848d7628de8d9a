import VeSmart.Lib.Transaction

set_option autoImplicit false

/-! # Operations that climb a ladder of transactions

An operation that consists of several transactions is not all or nothing: an interruption
leaves what the transactions before it have committed. `climb rung bs` runs the rungs of `bs`
in turn. It is safe to interrupt when the next run takes up the climb at the rung at which the
last one stopped: then `Resumable` holds, and any number of interrupted runs before a complete
one make no difference (`Resumable.afterRuns`).
-/

namespace VeSmart.Lib

variable {D ε α β : Type} {io : ε}

/-- What is committed after a run of `x` with the faults `fs`. -/
def leaves (x : Prog (Connection D) ε α) (d : D) (fs : List Bool) : D :=
  (exec x ⟨d, none, fs⟩).2.committed

/-- What is committed after runs of `x` one after the other, each with faults of its own. -/
def afterRuns (x : Prog (Connection D) ε α) : D → List (List Bool) → D
  | d, [] => d
  | d, fs :: runs => afterRuns x (leaves x d fs) runs

/-- A run without faults ends the same way whether or not an interrupted one came before. -/
def Resumable (x : Prog (Connection D) ε α) : Prop :=
  ∀ d fs, quiet x (leaves x d fs) = quiet x d

/-- The rungs of a list, each of them once the one before it has succeeded. -/
def climb (rung : β → Prog (Connection D) ε Unit) : List β → Prog (Connection D) ε Unit
  | [] => pure ()
  | b :: bs => do
      rung b
      climb rung bs

theorem Resumable.afterRuns {x : Prog (Connection D) ε α} (h : Resumable x) (d : D)
    (runs : List (List Bool)) : quiet x (afterRuns x d runs) = quiet x d := by
  induction runs generalizing d with
  | nil => rfl
  | cons fs runs ih =>
      show quiet x (Lib.afterRuns x (leaves x d fs) runs) = quiet x d
      rw [ih, h d fs]

/-- A database that every run leaves alone stays as it is. -/
theorem afterRuns_fixed {x : Prog (Connection D) ε α} {d : D} (h : ∀ fs, leaves x d fs = d)
    (runs : List (List Bool)) : afterRuns x d runs = d := by
  induction runs with
  | nil => rfl
  | cons fs runs ih =>
      show afterRuns x (leaves x d fs) runs = d
      rw [h fs, ih]

/-! ## The climb without faults -/

variable {rung : β → Prog (Connection D) ε Unit}

@[simp] theorem quiet_climb_nil (d : D) : quiet (climb rung []) d = (.ok (), d) := rfl

/-- The first rung succeeds and the climb goes on from what it has committed. -/
theorem quiet_climb_ok {b : β} {bs : List β} {d d' : D}
    (hrung : AllOrNothing io (rung b)) (h : quiet (rung b) d = (.ok (), d')) :
    quiet (climb rung (b :: bs)) d = quiet (climb rung bs) d' := by
  have hexec : exec (rung b) ⟨d, none, []⟩ = (.ok (), ⟨d', none, []⟩) := by
    rw [hrung.exec_quiet, h]
  rw [quiet, climb, exec_bind_ok hexec, quiet]

/-! ## The climb with faults -/

/-- One rung with faults: it fails and leaves everything as it was, fails as it would have
without them, or is climbed. -/
theorem exec_climb_cons (b : β) (bs : List β) (hrung : AllOrNothing io (rung b)) (d : D)
    (fs : List Bool) :
    ∃ fs', exec (climb rung (b :: bs)) ⟨d, none, fs⟩ = (.error io, ⟨d, none, fs'⟩) ∨
      (∃ e d', quiet (rung b) d = (.error e, d') ∧
        exec (climb rung (b :: bs)) ⟨d, none, fs⟩ = (.error e, ⟨d', none, fs'⟩)) ∨
      (∃ d', quiet (rung b) d = (.ok (), d') ∧
        exec (climb rung (b :: bs)) ⟨d, none, fs⟩ = exec (climb rung bs) ⟨d', none, fs'⟩) := by
  obtain ⟨fs', hrun | hrun⟩ := hrung.exec_cases d fs
  · refine ⟨fs', .inr ?_⟩
    rcases hq : quiet (rung b) d with ⟨e | u, d'⟩
    · rw [hq] at hrun
      exact .inl ⟨e, d', rfl, exec_bind_error hrun⟩
    · rw [hq] at hrun
      exact .inr ⟨d', rfl, exec_bind_ok hrun⟩
  · exact ⟨fs', .inl (exec_bind_error hrun)⟩

/-- Where a run takes up the climb at the rung after the last one climbed, it completes an
interrupted climb. The induction is on the rungs that are left. -/
theorem climb_resumes {x : Prog (Connection D) ε Unit} {bs : List β}
    (hrung : ∀ b ∈ bs, AllOrNothing io (rung b))
    (hfail : ∀ b ∈ bs, ∀ d d' e, quiet (rung b) d = (.error e, d') → d' = d)
    (hnext : ∀ b rest, b :: rest <:+ bs → ∀ d d', quiet (rung b) d = (.ok (), d') →
      quiet x d' = quiet (climb rung rest) d')
    {d : D} (fs : List Bool) (hstart : quiet x d = quiet (climb rung bs) d) :
    quiet x (leaves (climb rung bs) d fs) = quiet x d := by
  induction bs generalizing d fs with
  | nil => rfl
  | cons b bs ih =>
      have hb : AllOrNothing io (rung b) := hrung b List.mem_cons_self
      obtain ⟨fs', hrun | ⟨e, d', hq, hrun⟩ | ⟨d', hq, hrun⟩⟩ := exec_climb_cons b bs hb d fs
      · rw [leaves, hrun]
      · have hd : d' = d := hfail b List.mem_cons_self d d' e hq
        rw [leaves, hrun, hd]
      · -- the rung is climbed: the next run goes on from `d'`, as this one does
        have htail : quiet x d' = quiet (climb rung bs) d' :=
          hnext b bs (List.suffix_refl _) d d' hq
        have hrest : quiet x (leaves (climb rung bs) d' fs') = quiet x d' := by
          apply ih
          · exact fun c hc => hrung c (List.mem_cons_of_mem b hc)
          · exact fun c hc => hfail c (List.mem_cons_of_mem b hc)
          · exact fun c rest hs => hnext c rest (hs.trans (List.suffix_cons b bs))
          · exact htail
        calc quiet x (leaves (climb rung (b :: bs)) d fs)
            = quiet x (leaves (climb rung bs) d' fs') := by rw [leaves, hrun, leaves]
          _ = quiet (climb rung bs) d' := by rw [hrest, htail]
          _ = quiet x d := by rw [hstart, quiet_climb_ok hb hq]

end VeSmart.Lib
