import Mathlib.Tactic

set_option autoImplicit false

/-! # Integration from an anchor that is stored rounded

A quantity is integrated piece by piece: every record at a time `t` either moves an anchor to
`t`, or keeps it, or integrates from the anchor to `t` and moves it there. The anchor is stored
rounded down, as `ρ t`, so the next piece may start before the last one has ended.
`wholeStarts_iff_disjoint` says when the pieces overlap: exactly when a piece starts from an
anchor that a piece ending at a time with `ρ t ≠ t` has left. -/

namespace VeSmart.Lib

/-- One record: what it does to the anchor, and when. -/
inductive Move (T : Type) where
  | anchored (t : T)
  | kept (t : T)
  | integrated (start t : T)
  deriving DecidableEq

section

variable {T : Type}

/-- The piece that a record integrates. -/
def Move.interval? : Move T → Option (T × T)
  | .anchored _ => none
  | .kept _ => none
  | .integrated start t => some (start, t)

def intervals (ms : List (Move T)) : List (T × T) := ms.filterMap Move.interval?

/-- The two pieces have no point inside both. -/
def NonOverlapping [LE T] (x y : T × T) : Prop := x.2 ≤ y.1 ∨ y.2 ≤ x.1

/-- The records from the anchor `anchor`: each is later than the one before it (`last`) even
when rounded, and a piece starts at the anchor. -/
inductive Moves [LT T] (ρ : T → T) : Option T → Option T → List (Move T) → Prop
  | nil (anchor last : Option T) : Moves ρ anchor last []
  | anchored {anchor last : Option T} {t : T} {ms : List (Move T)}
      (hlater : ∀ s ∈ last, s < ρ t) (hrest : Moves ρ (some (ρ t)) (some t) ms) :
      Moves ρ anchor last (.anchored t :: ms)
  | kept {anchor last : Option T} {t : T} {ms : List (Move T)}
      (hlater : ∀ s ∈ last, s < ρ t) (hrest : Moves ρ anchor (some t) ms) :
      Moves ρ anchor last (.kept t :: ms)
  | integrated {last : Option T} {a t : T} {ms : List (Move T)}
      (hlater : ∀ s ∈ last, s < ρ t) (hlt : a < t)
      (hrest : Moves ρ (some (ρ t)) (some t) ms) :
      Moves ρ (some a) last (.integrated a t :: ms)

/-- No piece starts from an anchor that was rounded by a piece: `left` is the end of the piece
that has left the current anchor, if one has. -/
def WholeStarts (ρ : T → T) : Option T → List (Move T) → Prop
  | _, [] => True
  | _, .anchored _ :: ms => WholeStarts ρ none ms
  | left, .kept _ :: ms => WholeStarts ρ left ms
  | left, .integrated _ t :: ms => (∀ u ∈ left, ρ u = u) ∧ WholeStarts ρ (some t) ms

@[simp] theorem intervals_anchored (t : T) (ms : List (Move T)) :
    intervals (.anchored t :: ms) = intervals ms := rfl

@[simp] theorem intervals_kept (t : T) (ms : List (Move T)) :
    intervals (.kept t :: ms) = intervals ms := rfl

@[simp] theorem intervals_integrated (a t : T) (ms : List (Move T)) :
    intervals (.integrated a t :: ms) = (a, t) :: intervals ms := rfl

variable [LinearOrder T] {ρ : T → T} {anchor last : Option T} {ms : List (Move T)}

/-- A piece starts at the current anchor or after the last record, and ends after it. -/
theorem Moves.start_or_later (hρ : ∀ t, ρ t ≤ t) (h : Moves ρ anchor last ms) :
    ∀ x ∈ intervals ms, (anchor = some x.1 ∨ ∀ s ∈ last, s ≤ x.1) ∧ ∀ s ∈ last, s < x.2 := by
  induction h with
  | nil anchor last => intro x hx; cases hx
  | @anchored anchor last t ms hlater hrest ih =>
      intro x hx
      obtain ⟨hstart, hend⟩ := ih x hx
      have hbefore : ∀ s ∈ last, s ≤ t := fun s hs => le_of_lt (lt_of_lt_of_le (hlater s hs) (hρ t))
      refine ⟨.inr fun s hs => ?_, fun s hs => lt_of_le_of_lt (hbefore s hs) (hend t rfl)⟩
      rcases hstart with hanchor | hlast
      · rw [← Option.some.inj hanchor]
        exact le_of_lt (hlater s hs)
      · exact (hbefore s hs).trans (hlast t rfl)
  | @kept anchor last t ms hlater hrest ih =>
      intro x hx
      obtain ⟨hstart, hend⟩ := ih x hx
      have hbefore : ∀ s ∈ last, s ≤ t := fun s hs => le_of_lt (lt_of_lt_of_le (hlater s hs) (hρ t))
      refine ⟨?_, fun s hs => lt_of_le_of_lt (hbefore s hs) (hend t rfl)⟩
      rcases hstart with hanchor | hlast
      · exact .inl hanchor
      · exact .inr fun s hs => (hbefore s hs).trans (hlast t rfl)
  | @integrated last a t ms hlater hlt hrest ih =>
      intro x hx
      have hbefore : ∀ s ∈ last, s < t := fun s hs => lt_of_lt_of_le (hlater s hs) (hρ t)
      rcases List.mem_cons.mp hx with rfl | hmem
      · exact ⟨.inl rfl, hbefore⟩
      · obtain ⟨hstart, hend⟩ := ih x hmem
        refine ⟨.inr fun s hs => ?_, fun s hs => (hbefore s hs).trans (hend t rfl)⟩
        rcases hstart with hanchor | hlast
        · rw [← Option.some.inj hanchor]
          exact le_of_lt (hlater s hs)
        · exact (le_of_lt (hbefore s hs)).trans (hlast t rfl)

/-- An anchor left by a piece that ends at `u` is harmless exactly when all later pieces start
at `u` or after it. -/
theorem wholeStarts_some_iff (hρ : ∀ t, ρ t ≤ t) {u : T} (h : Moves ρ anchor last ms)
    (hanchor : anchor = some (ρ u)) (hu : ∃ s ∈ last, u ≤ s) :
    WholeStarts ρ (some u) ms ↔ WholeStarts ρ none ms ∧ ∀ x ∈ intervals ms, u ≤ x.1 := by
  obtain ⟨s, hs, hus⟩ := hu
  induction h generalizing s with
  | nil anchor last => simp [WholeStarts, intervals]
  | @anchored anchor last t ms hlater hrest _ =>
      have hut : u ≤ ρ t := hus.trans (le_of_lt (hlater s hs))
      simp only [WholeStarts, intervals_anchored, iff_self_and]
      intro _ x hx
      rcases (hrest.start_or_later hρ x hx).1 with hstart | hstart
      · rwa [← Option.some.inj hstart]
      · exact (hut.trans (hρ t)).trans (hstart t rfl)
  | @kept anchor last t ms hlater hrest ih =>
      exact ih hanchor t rfl (hus.trans (le_of_lt (lt_of_lt_of_le (hlater s hs) (hρ t))))
  | @integrated last a t ms hlater hlt hrest _ =>
      have ha : a = ρ u := Option.some.inj hanchor
      have hut : u ≤ ρ t := hus.trans (le_of_lt (hlater s hs))
      have hrestStart : ∀ x ∈ intervals ms, u ≤ x.1 := by
        intro x hx
        rcases (hrest.start_or_later hρ x hx).1 with hstart | hstart
        · rwa [← Option.some.inj hstart]
        · exact (hut.trans (hρ t)).trans (hstart t rfl)
      have hwhole : ρ u = u ↔ u ≤ a := by
        rw [ha]
        exact ⟨fun h => le_of_eq h.symm, fun h => le_antisymm (hρ u) h⟩
      simp only [WholeStarts, Option.mem_def, Option.some.injEq, forall_eq', reduceCtorEq,
        false_implies, implies_true, true_and, intervals_integrated, List.mem_cons, forall_eq_or_imp,
        hwhole]
      constructor
      · rintro ⟨hu, hws⟩
        exact ⟨hws, hu, hrestStart⟩
      · rintro ⟨hws, hu, -⟩
        exact ⟨hu, hws⟩

/-- **When the pieces are disjoint.** -/
theorem wholeStarts_iff_disjoint (hρ : ∀ t, ρ t ≤ t) (h : Moves ρ anchor last ms) :
    WholeStarts ρ none ms ↔ (intervals ms).Pairwise NonOverlapping := by
  induction h with
  | nil anchor last => simp [WholeStarts, intervals]
  | anchored hlater hrest ih => exact ih
  | kept hlater hrest ih => exact ih
  | @integrated last a t ms hlater hlt hrest ih =>
      have hpair : ∀ x ∈ intervals ms, NonOverlapping (a, t) x ↔ t ≤ x.1 := by
        intro x hx
        have hend : t < x.2 := (hrest.start_or_later hρ x hx).2 t rfl
        constructor
        · rintro (hle | hle)
          · exact hle
          · exact absurd (hend.trans_le hle) (not_lt.mpr (le_of_lt hlt))
        · exact .inl
      rw [intervals_integrated, List.pairwise_cons, ← ih]
      calc WholeStarts ρ none (.integrated a t :: ms)
          ↔ WholeStarts ρ (some t) ms := by simp [WholeStarts]
        _ ↔ WholeStarts ρ none ms ∧ ∀ x ∈ intervals ms, t ≤ x.1 :=
            wholeStarts_some_iff hρ hrest rfl ⟨t, rfl, le_refl t⟩
        _ ↔ (∀ x ∈ intervals ms, NonOverlapping (a, t) x) ∧ WholeStarts ρ none ms := by
            rw [and_comm]
            exact and_congr_left' (forall₂_congr fun x hx => (hpair x hx).symm)

end

end VeSmart.Lib
