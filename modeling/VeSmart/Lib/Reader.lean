import Mathlib.Tactic

set_option autoImplicit false

/-! # Readers with a budget

A reader takes a value off the front of its input and pays for it out of a budget. A grammar says
which text stands for which value at which price; `Reads` says that a reader takes exactly the
values of a grammar. The loops of a decoder are readers as well: so many values in a row
(`Reads.times`), or values until a stop (`Reads.until`). -/

namespace VeSmart.Lib

/-- The input that is left, and the budget. -/
structure Source (β : Type) where
  input : List β
  budget : Nat

/-- `s` stands for `x` at the price `n`. -/
abbrev Grammar (α β : Type) := α → List β → Nat → Prop

section

variable {α β ε : Type}

/-- Taking `s` off the input for `n` units. -/
def Takes (s : List β) (n : Nat) (d d' : Source β) : Prop :=
  d.input = s ++ d'.input ∧ d.budget = d'.budget + n

theorem Takes.refl (d : Source β) : Takes [] 0 d d := ⟨rfl, rfl⟩

theorem Takes.trans {s t : List β} {n k : Nat} {d d' d'' : Source β} (h : Takes s n d d')
    (h' : Takes t k d' d'') : Takes (s ++ t) (n + k) d d'' := by
  obtain ⟨hinput, hbudget⟩ := h
  obtain ⟨hinput', hbudget'⟩ := h'
  constructor
  · rw [hinput, hinput', List.append_assoc]
  · omega

theorem Takes.eq_of_nil {d d' : Source β} (h : Takes [] 0 d d') : d = d' := by
  obtain ⟨hinput, hbudget⟩ := h
  cases d
  cases d'
  simp only [List.nil_append, Nat.add_zero] at hinput hbudget
  rw [hinput, hbudget]

/-- A text in two parts is taken part by part. -/
theorem Takes.split {s t : List β} {n k : Nat} {d d'' : Source β}
    (h : Takes (s ++ t) (n + k) d d'') :
    Takes s n d ⟨t ++ d''.input, d''.budget + k⟩ ∧
      Takes t k ⟨t ++ d''.input, d''.budget + k⟩ d'' := by
  obtain ⟨hinput, hbudget⟩ := h
  refine ⟨⟨?_, ?_⟩, rfl, rfl⟩
  · rw [hinput, List.append_assoc]
  · show d.budget = d''.budget + k + n
    omega

/-- The reader takes the values of the grammar, whole, and no others. -/
def Reads (f : Source β → Except ε (α × Source β)) (G : Grammar α β) : Prop :=
  ∀ d x d', f d = .ok (x, d') ↔ ∃ s n, G x s n ∧ Takes s n d d'

/-- A row of values. -/
inductive Series (G : Grammar α β) : Grammar (List α) β
  | nil : Series G [] [] 0
  | cons {x : α} {xs : List α} {s t : List β} {n k : Nat} (h : G x s n) (hrest : Series G xs t k) :
      Series G (x :: xs) (s ++ t) (n + k)

theorem bind_eq_ok {γ : Type} {x : Except ε α} {k : α → Except ε γ} {r : γ} :
    (x >>= k) = .ok r ↔ ∃ a, x = .ok a ∧ k a = .ok r := by
  cases x with
  | error e =>
      constructor
      · nofun
      · rintro ⟨a, ⟨⟩, -⟩
  | ok a =>
      constructor
      · exact fun h => ⟨a, rfl, h⟩
      · rintro ⟨a', ⟨⟩, h⟩
        exact h

/-- `n` values in a row. -/
def readTimes (f : Source β → Except ε (α × Source β)) :
    Nat → Source β → Except ε (List α × Source β)
  | 0, d => .ok ([], d)
  | n + 1, d => do
      let (x, d) ← f d
      let (xs, d) ← readTimes f n d
      .ok (x :: xs, d)

/-- Values until `stop` takes the end off the input; one more than `room` of them is an error. -/
def readUntil (stop : Source β → Except ε (Option (Source β))) (full : ε)
    (f : Source β → Except ε (α × Source β)) : Nat → Source β → Except ε (List α × Source β)
  | 0, d => do
      match ← stop d with
      | some d => .ok ([], d)
      | none => .error full
  | room + 1, d => do
      match ← stop d with
      | some d => .ok ([], d)
      | none => do
          let (x, d) ← f d
          let (xs, d) ← readUntil stop full f room d
          .ok (x :: xs, d)

variable {f : Source β → Except ε (α × Source β)} {G : Grammar α β}

theorem Reads.read (h : Reads f G) {d d' : Source β} {x : α} (hf : f d = .ok (x, d')) :
    ∃ s n, G x s n ∧ Takes s n d d' := (h d x d').mp hf

theorem Reads.ok (h : Reads f G) {d d' : Source β} {x : α} {s : List β} {n : Nat} (hG : G x s n)
    (htake : Takes s n d d') : f d = .ok (x, d') := (h d x d').mpr ⟨s, n, hG, htake⟩

theorem Reads.of_iff {G' : Grammar α β} (h : Reads f G) (hG : ∀ x s n, G x s n ↔ G' x s n) :
    Reads f G' := by
  intro d x d'
  rw [h d x d']
  simp only [hG]

/-- A value of `G`, and then one of a grammar that may depend on it. -/
theorem Reads.bind {γ : Type} {g : α → Source β → Except ε (γ × Source β)}
    {H : α → Grammar γ β} (h : Reads f G) (hg : ∀ x, Reads (g x) (H x)) :
    Reads (fun d => f d >>= fun r => g r.1 r.2)
      (fun y s n => ∃ x t u k l, G x t k ∧ H x y u l ∧ s = t ++ u ∧ n = k + l) := by
  intro d y d'
  simp only [bind_eq_ok]
  constructor
  · rintro ⟨⟨x, dmid⟩, hf, hrest⟩
    obtain ⟨t, k, hG, htake⟩ := h.read hf
    obtain ⟨u, l, hH, htake'⟩ := (hg x).read hrest
    exact ⟨_, _, ⟨x, t, u, k, l, hG, hH, rfl, rfl⟩, htake.trans htake'⟩
  · rintro ⟨s, n, ⟨x, t, u, k, l, hG, hH, rfl, rfl⟩, htake⟩
    obtain ⟨hfirst, hsecond⟩ := htake.split
    exact ⟨_, h.ok hG hfirst, (hg x).ok hH hsecond⟩

theorem Reads.map {γ : Type} (h : Reads f G) (k : α → γ) :
    Reads (fun d => f d >>= fun r => .ok (k r.1, r.2)) (fun y s n => ∃ x, G x s n ∧ y = k x) := by
  intro d y d'
  simp only [bind_eq_ok]
  constructor
  · rintro ⟨⟨x, dmid⟩, hf, hrest⟩
    cases hrest
    obtain ⟨s, n, hG, htake⟩ := h.read hf
    exact ⟨s, n, ⟨x, hG, rfl⟩, htake⟩
  · rintro ⟨s, n, ⟨x, hG, rfl⟩, htake⟩
    exact ⟨_, h.ok hG htake, rfl⟩

theorem readTimes_succ_ok {n : Nat} {d d' : Source β} {xs : List α} :
    readTimes f (n + 1) d = .ok (xs, d') ↔
      ∃ x dmid ys, f d = .ok (x, dmid) ∧ readTimes f n dmid = .ok (ys, d') ∧ xs = x :: ys := by
  show (f d >>= fun r => readTimes f n r.2 >>= fun q => .ok (r.1 :: q.1, q.2)) = _ ↔ _
  simp only [bind_eq_ok]
  constructor
  · rintro ⟨⟨x, dmid⟩, hf, ⟨ys, dend⟩, hrest, hval⟩
    cases hval
    exact ⟨x, dmid, ys, hf, hrest, rfl⟩
  · rintro ⟨x, dmid, ys, hf, hrest, rfl⟩
    exact ⟨_, hf, _, hrest, rfl⟩

theorem Reads.times (h : Reads f G) (count : Nat) :
    Reads (readTimes f count) (fun xs s n => xs.length = count ∧ Series G xs s n) := by
  induction count with
  | zero =>
      intro d xs d'
      constructor
      · intro hrun
        cases hrun
        exact ⟨[], 0, ⟨rfl, .nil⟩, .refl d⟩
      · rintro ⟨s, n, ⟨hlength, hseries⟩, htake⟩
        cases hseries with
        | cons _ _ => cases hlength
        | nil =>
            rw [htake.eq_of_nil]
            rfl
  | succ count ih =>
      intro d xs d'
      rw [readTimes_succ_ok]
      constructor
      · rintro ⟨x, dmid, ys, hf, hrest, rfl⟩
        obtain ⟨s, n, hG, htake⟩ := h.read hf
        obtain ⟨t, k, ⟨hlength, hseries⟩, htake'⟩ := ih.read hrest
        exact ⟨_, _, ⟨congrArg (· + 1) hlength, .cons hG hseries⟩, htake.trans htake'⟩
      · rintro ⟨s, n, ⟨hlength, hseries⟩, htake⟩
        cases hseries with
        | nil => cases hlength
        | cons hG hrest =>
            obtain ⟨hfirst, hsecond⟩ := htake.split
            have hcount := Nat.succ.inj hlength
            exact ⟨_, _, _, h.ok hG hfirst, ih.ok ⟨hcount, hrest⟩ hsecond, rfl⟩

/-- `stop` takes the text `e` for the end, and lets every value of the grammar be. -/
structure Stops (stop : Source β → Except ε (Option (Source β))) (e : List β)
    (G : Grammar α β) : Prop where
  atEnd : ∀ d d', stop d = .ok (some d') ↔ Takes e 0 d d'
  atValue : ∀ x s n d d', G x s n → Takes s n d d' → stop d = .ok none

section

variable {stop : Source β → Except ε (Option (Source β))} {full : ε} {e : List β}

theorem readUntil_zero_ok {d d' : Source β} {xs : List α} :
    readUntil stop full f 0 d = .ok (xs, d') ↔ stop d = .ok (some d') ∧ xs = [] := by
  unfold readUntil
  simp only [bind_eq_ok]
  constructor
  · rintro ⟨r, hstop, hrest⟩
    cases r with
    | none => cases hrest
    | some dend =>
        cases hrest
        exact ⟨hstop, rfl⟩
  · rintro ⟨hstop, rfl⟩
    exact ⟨_, hstop, rfl⟩

theorem readUntil_succ_ok {room : Nat} {d d' : Source β} {xs : List α} :
    readUntil stop full f (room + 1) d = .ok (xs, d') ↔
      (stop d = .ok (some d') ∧ xs = []) ∨
      (stop d = .ok none ∧ ∃ x dmid ys, f d = .ok (x, dmid) ∧
        readUntil stop full f room dmid = .ok (ys, d') ∧ xs = x :: ys) := by
  show (stop d >>= fun r => match r with
    | some d => .ok ([], d)
    | none => f d >>= fun r => readUntil stop full f room r.2 >>= fun q => .ok (r.1 :: q.1, q.2)) =
      _ ↔ _
  simp only [bind_eq_ok]
  constructor
  · rintro ⟨r, hstop, hrest⟩
    cases r with
    | some dend =>
        cases hrest
        exact .inl ⟨hstop, rfl⟩
    | none =>
        simp only [bind_eq_ok] at hrest
        obtain ⟨⟨x, dmid⟩, hf, ⟨ys, dend⟩, hloop, hval⟩ := hrest
        cases hval
        exact .inr ⟨hstop, x, dmid, ys, hf, hloop, rfl⟩
  · rintro (⟨hstop, rfl⟩ | ⟨hstop, x, dmid, ys, hf, hloop, rfl⟩)
    · exact ⟨_, hstop, rfl⟩
    · refine ⟨_, hstop, ?_⟩
      simp only [bind_eq_ok]
      exact ⟨_, hf, _, hloop, rfl⟩

theorem Reads.until (h : Reads f G) (hstop : Stops stop e G) (room : Nat) :
    Reads (readUntil stop full f room)
      (fun xs s n => xs.length ≤ room ∧ ∃ t, Series G xs t n ∧ s = t ++ e) := by
  induction room with
  | zero =>
      intro d xs d'
      rw [readUntil_zero_ok]
      constructor
      · rintro ⟨hend, rfl⟩
        exact ⟨e, 0, ⟨Nat.le_refl 0, [], .nil, rfl⟩, (hstop.atEnd d d').mp hend⟩
      · rintro ⟨s, n, ⟨hlength, t, hseries, rfl⟩, htake⟩
        cases hseries with
        | nil => exact ⟨(hstop.atEnd d d').mpr htake, rfl⟩
        | cons _ _ => simp at hlength
  | succ room ih =>
      intro d xs d'
      rw [readUntil_succ_ok]
      constructor
      · rintro (⟨hend, rfl⟩ | ⟨-, x, dmid, ys, hf, hloop, rfl⟩)
        · exact ⟨e, 0, ⟨Nat.zero_le _, [], .nil, rfl⟩, (hstop.atEnd d d').mp hend⟩
        · obtain ⟨s, n, hG, htake⟩ := h.read hf
          obtain ⟨u, k, ⟨hlength, t, hseries, rfl⟩, htake'⟩ := ih.read hloop
          refine ⟨_, _, ⟨Nat.succ_le_succ hlength, s ++ t, .cons hG hseries, ?_⟩,
            htake.trans htake'⟩
          rw [List.append_assoc]
      · rintro ⟨u, n, ⟨hlength, t, hseries, rfl⟩, htake⟩
        cases hseries with
        | nil => exact .inl ⟨(hstop.atEnd d d').mpr htake, rfl⟩
        | cons hG hrest =>
            rw [List.append_assoc] at htake
            obtain ⟨hfirst, hsecond⟩ := htake.split
            refine .inr ⟨hstop.atValue _ _ _ _ _ hG hfirst, ?_⟩
            have hroom := Nat.le_of_succ_le_succ hlength
            exact ⟨_, _, _, h.ok hG hfirst, ih.ok ⟨hroom, _, hrest, rfl⟩ hsecond, rfl⟩

end

/-! ## The budget -/

/-- The reader does not add to the budget. -/
def Spends (f : Source β → Except ε (α × Source β)) : Prop :=
  ∀ d x d', f d = .ok (x, d') → d'.budget ≤ d.budget

theorem Spends.bind {γ : Type} {g : α → Source β → Except ε (γ × Source β)} (h : Spends f)
    (hg : ∀ x, Spends (g x)) : Spends (fun d => f d >>= fun r => g r.1 r.2) := by
  intro d y d' hrun
  obtain ⟨⟨x, dmid⟩, hf, hrest⟩ := bind_eq_ok.mp hrun
  exact (hg x dmid y d' hrest).trans (h d x dmid hf)

theorem Spends.map {γ : Type} (h : Spends f) (k : α → γ) :
    Spends (fun d => f d >>= fun r => .ok (k r.1, r.2)) := by
  intro d y d' hrun
  obtain ⟨⟨x, dmid⟩, hf, hval⟩ := bind_eq_ok.mp hrun
  cases hval
  exact h d x dmid hf

theorem Spends.times (h : Spends f) (n : Nat) : Spends (readTimes f n) := by
  induction n with
  | zero =>
      intro d xs d' hrun
      cases hrun
      exact Nat.le_refl _
  | succ n ih =>
      intro d xs d' hrun
      obtain ⟨x, dmid, ys, hf, hrest, -⟩ := readTimes_succ_ok.mp hrun
      exact (ih dmid ys d' hrest).trans (h d x dmid hf)

theorem Spends.until (h : Spends f) {stop : Source β → Except ε (Option (Source β))} {full : ε}
    (hstop : ∀ d d', stop d = .ok (some d') → d'.budget ≤ d.budget) (room : Nat) :
    Spends (readUntil stop full f room) := by
  induction room with
  | zero =>
      intro d xs d' hrun
      exact hstop d d' (readUntil_zero_ok.mp hrun).1
  | succ room ih =>
      intro d xs d' hrun
      obtain ⟨hend, -⟩ | ⟨-, x, dmid, ys, hf, hrest, -⟩ := readUntil_succ_ok.mp hrun
      · exact hstop d d' hend
      · exact (ih dmid ys d' hrest).trans (h d x dmid hf)

end

end VeSmart.Lib
