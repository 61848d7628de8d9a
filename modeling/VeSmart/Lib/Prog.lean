import Mathlib.Tactic

set_option autoImplicit false

/-! # Programs over a state that may fail

`Prog σ ε α` is a computation that reads and writes a state `σ` and either returns an `α` or
fails with an `ε`. A failing computation keeps the state it has reached: undoing what it did
is the business of whoever called it. `exec` runs a program from a state, and
`Triple P x Q E` is the partial specification of a program with a second postcondition `E`
for its failures. The rules (`Triple.bind`, `Triple.conseq`, ...) follow the structure of a
program, so that the specification of a sequence is assembled from those of its steps.
-/

namespace VeSmart.Lib

/-- A computation over the state `σ` that returns an `α` or fails with an `ε`. -/
abbrev Prog (σ ε α : Type) := ExceptT ε (StateM σ) α

section

variable {σ ε α β : Type}

/-- Run a program from the state `s`. -/
def exec (x : Prog σ ε α) (s : σ) : Except ε α × σ := (ExceptT.run x).run s

/-- The program that does what `f` does. -/
def ofFun (f : σ → Except ε α × σ) : Prog σ ε α := ExceptT.mk (StateT.mk (fun s => f s))

/-- A pure check as a program: it leaves the state alone. -/
def fromExcept (v : Except ε α) : Prog σ ε α := ofFun (fun s => (v, s))

/-- Fail with `e` unless `p` holds. -/
def ensure (p : Prop) [Decidable p] (e : ε) : Prog σ ε Unit :=
  fromExcept (if p then .ok () else .error e)

/-- Run a program and return its failure as a value. -/
def attempt {ε' : Type} (x : Prog σ ε α) : Prog σ ε' (Except ε α) :=
  ofFun (fun s => (.ok (exec x s).1, (exec x s).2))

/-- Run a program on one part of a state. -/
def zoom {τ : Type} (part : τ → σ) (put : τ → σ → τ) (x : Prog σ ε α) : Prog τ ε α :=
  ofFun (fun t => ((exec x (part t)).1, put t (exec x (part t)).2))

/-- Repeat a program until it gives a result, `turns` times at most; `spent` is the failure when
the turns are used up. -/
def repeatUntil (spent : ε) (body : Prog σ ε (Option α)) : Nat → Prog σ ε α
  | 0 => throw spent
  | turns + 1 => do
      match ← body with
      | some a => pure a
      | none => repeatUntil spent body turns

/-! ## Running the constructs of a program -/

@[simp] theorem exec_ofFun (f : σ → Except ε α × σ) (s : σ) : exec (ofFun f) s = f s := rfl

@[simp] theorem exec_fromExcept (v : Except ε α) (s : σ) :
    exec (fromExcept v : Prog σ ε α) s = (v, s) := rfl

theorem exec_ensure (p : Prop) [Decidable p] (e : ε) (s : σ) :
    exec (ensure p e : Prog σ ε Unit) s = (if p then .ok () else .error e, s) := rfl

@[simp] theorem exec_pure (a : α) (s : σ) : exec (pure a : Prog σ ε α) s = (.ok a, s) := rfl

@[simp] theorem exec_throw (e : ε) (s : σ) :
    exec (throw e : Prog σ ε α) s = (.error e, s) := rfl

@[simp] theorem exec_get (s : σ) : exec (get : Prog σ ε σ) s = (.ok s, s) := rfl

@[simp] theorem exec_set (s t : σ) : exec (set t : Prog σ ε PUnit) s = (.ok ⟨⟩, t) := rfl

@[simp] theorem exec_modify (f : σ → σ) (s : σ) :
    exec (modify f : Prog σ ε PUnit) s = (.ok ⟨⟩, f s) := rfl

theorem exec_attempt {ε' : Type} (x : Prog σ ε α) (s : σ) :
    exec (attempt x : Prog σ ε' (Except ε α)) s = (.ok (exec x s).1, (exec x s).2) := rfl

theorem exec_zoom {τ : Type} (part : τ → σ) (put : τ → σ → τ) (x : Prog σ ε α) (t : τ) :
    exec (zoom part put x) t = ((exec x (part t)).1, put t (exec x (part t)).2) := rfl

theorem exec_bind (x : Prog σ ε α) (f : α → Prog σ ε β) (s : σ) :
    exec (x >>= f) s =
      match exec x s with
      | (.ok a, s') => exec (f a) s'
      | (.error e, s') => (.error e, s') := by
  show (match (ExceptT.run x).run s with
    | (r, s') => (ExceptT.run (ExceptT.mk (ExceptT.bindCont f r))).run s') = _
  rcases h : (ExceptT.run x).run s with ⟨r, s'⟩
  have hx : exec x s = (r, s') := h
  rw [hx]
  cases r <;> rfl

/-- A bind that succeeds has succeeded in both parts. -/
theorem except_bind_ok {ε α β : Type} {x : Except ε α} {f : α → Except ε β} {b : β} :
    (x >>= f) = .ok b ↔ ∃ a, x = .ok a ∧ f a = .ok b := by
  cases x with
  | error e => simp [bind, Except.bind]
  | ok a => simp [bind, Except.bind]

/-- A bind that fails has failed in one of both parts. -/
theorem except_bind_error {ε α β : Type} {x : Except ε α} {f : α → Except ε β} {e : ε} :
    (x >>= f) = .error e ↔ x = .error e ∨ ∃ a, x = .ok a ∧ f a = .error e := by
  cases x with
  | error e' => simp [bind, Except.bind]
  | ok a => simp [bind, Except.bind]

theorem mapError_ok {ε ε' α : Type} {f : ε → ε'} {r : Except ε α} {a : α}
    (h : r.mapError f = .ok a) : r = .ok a := by
  cases r with
  | error e => cases h
  | ok b => exact congrArg _ (Except.ok.inj h)

/-- A check before the rest of a computation. -/
theorem except_check_ok {ε β : Type} {p : Prop} [Decidable p] {e : ε} {x : Except ε β} {b : β} :
    (if p then .error e else x) = .ok b ↔ ¬ p ∧ x = .ok b := by
  by_cases hp : p
  · simp [hp]
  · simp [hp]

theorem exec_bind_ok {x : Prog σ ε α} {f : α → Prog σ ε β} {s s' : σ} {a : α}
    (h : exec x s = (.ok a, s')) : exec (x >>= f) s = exec (f a) s' := by
  rw [exec_bind, h]

theorem exec_bind_error {x : Prog σ ε α} {f : α → Prog σ ε β} {s s' : σ} {e : ε}
    (h : exec x s = (.error e, s')) : exec (x >>= f) s = (.error e, s') := by
  rw [exec_bind, h]

/-- A sequence that succeeds has succeeded in both steps. -/
theorem exec_bind_inv {x : Prog σ ε α} {f : α → Prog σ ε β} {s s' : σ} {b : β}
    (h : exec (x >>= f) s = (.ok b, s')) :
    ∃ a s₁, exec x s = (.ok a, s₁) ∧ exec (f a) s₁ = (.ok b, s') := by
  rw [exec_bind] at h
  rcases hx : exec x s with ⟨r, s₁⟩
  rw [hx] at h
  cases r with
  | error e => cases h
  | ok a => exact ⟨a, s₁, rfl, h⟩

@[simp] theorem exec_map (f : α → β) (x : Prog σ ε α) (s : σ) :
    exec (f <$> x) s =
      match exec x s with
      | (.ok a, s') => (.ok (f a), s')
      | (.error e, s') => (.error e, s') := by
  rw [← bind_pure_comp, exec_bind]
  rfl

/-! ## Triples -/

/-- Started in a state satisfying `P`, the program returns in a state satisfying `Q` or fails
in a state satisfying `E`. -/
def Triple (P : σ → Prop) (x : Prog σ ε α) (Q : α → σ → Prop) (E : ε → σ → Prop) : Prop :=
  ∀ s, P s → match exec x s with
    | (.ok a, s') => Q a s'
    | (.error e, s') => E e s'

variable {P P' : σ → Prop} {Q Q' : α → σ → Prop} {E E' : ε → σ → Prop} {x : Prog σ ε α}

theorem Triple.ok (h : Triple P x Q E) {s s' : σ} {a : α} (hP : P s)
    (hx : exec x s = (.ok a, s')) : Q a s' := by
  have := h s hP
  rwa [hx] at this

theorem Triple.error (h : Triple P x Q E) {s s' : σ} {e : ε} (hP : P s)
    (hx : exec x s = (.error e, s')) : E e s' := by
  have := h s hP
  rwa [hx] at this

theorem Triple.intro (hok : ∀ s a s', P s → exec x s = (.ok a, s') → Q a s')
    (herr : ∀ s e s', P s → exec x s = (.error e, s') → E e s') : Triple P x Q E := by
  intro s hP
  rcases h : exec x s with ⟨r, s'⟩
  cases r with
  | ok a => exact hok s a s' hP h
  | error e => exact herr s e s' hP h

theorem Triple.pure {a : α} (h : ∀ s, P s → Q a s) : Triple P (Pure.pure a : Prog σ ε α) Q E :=
  fun s hP => h s hP

theorem Triple.throw {e : ε} (h : ∀ s, P s → E e s) :
    Triple P (MonadExcept.throw e : Prog σ ε α) Q E :=
  fun s hP => h s hP

theorem Triple.getState {Q : σ → σ → Prop} (h : ∀ s, P s → Q s s) :
    Triple P (MonadState.get : Prog σ ε σ) Q E :=
  fun s hP => h s hP

/-- The rule of a program that goes on with the state it reads. -/
theorem Triple.getThen {f : σ → Prog σ ε α}
    (h : ∀ s, P s → Triple (fun t => t = s) (f s) Q E) :
    Triple P (MonadState.get >>= f) Q E :=
  fun s hP => h s hP s rfl

theorem Triple.modifyState {f : σ → σ} {Q : PUnit → σ → Prop} (h : ∀ s, P s → Q ⟨⟩ (f s)) :
    Triple P (modify f : Prog σ ε PUnit) Q E :=
  fun s hP => h s hP

/-- The rule of a sequence: the postcondition of the first step is the precondition of the
second, and both may fail into `E`. -/
theorem Triple.bind {R : β → σ → Prop} {f : α → Prog σ ε β}
    (hx : Triple P x Q E) (hf : ∀ a, Triple (Q a) (f a) R E) : Triple P (x >>= f) R E := by
  intro s hP
  rw [exec_bind]
  rcases h : exec x s with ⟨r, s'⟩
  cases r with
  | ok a => exact hf a s' (hx.ok hP h)
  | error e => exact hx.error hP h

theorem Triple.conseq (h : Triple P x Q E) (hP : ∀ s, P' s → P s)
    (hQ : ∀ a s, Q a s → Q' a s) (hE : ∀ e s, E e s → E' e s) : Triple P' x Q' E' :=
  Triple.intro (fun s _ _ hp hx => hQ _ _ (h.ok (hP s hp) hx))
    (fun s _ _ hp hx => hE _ _ (h.error (hP s hp) hx))

/-- The precondition may be used as a fact about the start state. -/
theorem Triple.of_state (h : ∀ s, P s → Triple (fun t => t = s) x Q E) : Triple P x Q E :=
  fun s hP => h s hP s rfl

theorem Triple.and {Q₂ : α → σ → Prop} {E₂ : ε → σ → Prop} (h₁ : Triple P x Q E)
    (h₂ : Triple P x Q₂ E₂) :
    Triple P x (fun a s => Q a s ∧ Q₂ a s) (fun e s => E e s ∧ E₂ e s) :=
  Triple.intro (fun _ _ _ hP hx => ⟨h₁.ok hP hx, h₂.ok hP hx⟩)
    (fun _ _ _ hP hx => ⟨h₁.error hP hx, h₂.error hP hx⟩)

/-- A relation between a state and how the program ends from it, as a triple. -/
theorem Triple.of_exec {S : Except ε α → σ → Prop}
    (h : ∀ s, P s → S (exec x s).1 (exec x s).2) :
    Triple P x (fun a s => S (.ok a) s) (fun e s => S (.error e) s) := by
  intro s hP
  have hs := h s hP
  rcases hx : exec x s with ⟨r, s'⟩
  rw [hx] at hs
  cases r with
  | ok a => exact hs
  | error e => exact hs

/-- A triple from one state, read as a relation. -/
theorem Triple.to_exec {S : Except ε α → σ → Prop} {s : σ} (hP : P s)
    (h : Triple P x (fun a s => S (.ok a) s) (fun e s => S (.error e) s)) :
    S (exec x s).1 (exec x s).2 := by
  have hs := h s hP
  rcases hx : exec x s with ⟨r, s'⟩
  rw [hx] at hs
  cases r with
  | ok a => exact hs
  | error e => exact hs

/-- The rule of a loop: its body keeps the invariant until it gives the result. -/
theorem Triple.repeatUntil {spent : ε} {body : Prog σ ε (Option α)} {I : σ → Prop}
    (hbody : Triple I body (fun r s => match r with
      | some a => Q a s
      | none => I s) E)
    (hspent : ∀ s, I s → E spent s) (turns : Nat) : Triple I (repeatUntil spent body turns) Q E := by
  induction turns with
  | zero => exact Triple.throw hspent
  | succ turns ih =>
      refine Triple.bind hbody fun r => ?_
      cases r with
      | some a => exact Triple.pure fun _ h => h
      | none => exact ih

/-- If every turn that goes on lowers a measure, more turns than the measure change nothing: the
loop never ends for want of turns. -/
theorem exec_repeatUntil_turns {spent : ε} {body : Prog σ ε (Option α)} {m : σ → Nat}
    (hbody : ∀ s s', exec body s = (.ok none, s') → m s' < m s) {n k : Nat} {s : σ}
    (hn : m s < n) (hk : m s < k) :
    exec (Lib.repeatUntil spent body n) s = exec (Lib.repeatUntil spent body k) s := by
  induction n generalizing k s with
  | zero => omega
  | succ n ih =>
      obtain ⟨k, rfl⟩ : ∃ j, k = j + 1 := ⟨k - 1, by omega⟩
      rw [Lib.repeatUntil, Lib.repeatUntil, exec_bind, exec_bind]
      rcases h : exec body s with ⟨_ | _ | a, s'⟩
      · rfl
      · -- the turn goes on, and the measure has fallen
        have hm : m s' < m s := hbody s s' h
        exact ih (by omega) (by omega)
      · rfl

/-- After `attempt`, a failure is a case of the result. -/
theorem Triple.attempt {ε' : Type} {F : ε' → σ → Prop} (h : Triple P x Q E) :
    Triple P (attempt x) (fun r s => match r with
      | .ok a => Q a s
      | .error e => E e s) F := by
  intro s hP
  rw [exec_attempt]
  rcases hx : exec x s with ⟨r, s'⟩
  cases r with
  | ok a => exact h.ok hP hx
  | error e => exact h.error hP hx

/-- The rule of a part: the rest of the state is the same before and after. -/
theorem Triple.zoom {τ : Type} {part : τ → σ} {put : τ → σ → τ} {R : τ → Prop}
    {S : α → τ → Prop} {F : ε → τ → Prop}
    (h : ∀ t, R t → Triple (fun s => s = part t) x (fun a s => S a (put t s))
      (fun e s => F e (put t s))) : Triple R (Lib.zoom part put x) S F := by
  intro t hR
  have hx := h t hR (part t) rfl
  rw [exec_zoom]
  rcases hr : exec x (part t) with ⟨r, s'⟩
  rw [hr] at hx
  cases r with
  | ok a => exact hx
  | error e => exact hx

/-! ## Programs with more state -/

/-- `y` does to the image of every state what `x` does to the state itself: the state of `x` has
parts that decide nothing, and `y` is the program without them. -/
def Projects {τ : Type} (g : σ → τ) (x : Prog σ ε α) (y : Prog τ ε α) : Prop :=
  ∀ s, exec y (g s) = ((exec x s).1, g (exec x s).2)

section

variable {τ : Type} {g : σ → τ}

theorem Projects.pure (a : α) : Projects g (Pure.pure a : Prog σ ε α) (Pure.pure a) :=
  fun _ => rfl

theorem Projects.bind {x : Prog σ ε α} {y : Prog τ ε α} {f : α → Prog σ ε β} {h : α → Prog τ ε β}
    (hx : Projects g x y) (hf : ∀ a, Projects g (f a) (h a)) :
    Projects g (x >>= f) (y >>= h) := by
  intro s
  rw [exec_bind, exec_bind, hx s]
  rcases exec x s with ⟨e | a, s'⟩
  · rfl
  · exact hf a s'

/-- A part of the state that is read may be read on both sides. -/
theorem Projects.getThen {f : σ → Prog σ ε α} {h : τ → Prog τ ε α}
    (hf : ∀ s, Projects g (f s) (h (g s))) : Projects g (get >>= f) (get >>= h) :=
  fun s => hf s s

theorem Projects.attempt {ε' : Type} {x : Prog σ ε α} {y : Prog τ ε α} (h : Projects g x y) :
    Projects g (attempt x : Prog σ ε' (Except ε α)) (attempt y) := by
  intro s
  rw [exec_attempt, exec_attempt, h s]

theorem Projects.ite {p : Prop} [Decidable p] {x x' : Prog σ ε α} {y y' : Prog τ ε α}
    (h : Projects g x y) (h' : Projects g x' y') :
    Projects g (if p then x else x') (if p then y else y') := by
  by_cases hp : p
  · rw [if_pos hp, if_pos hp]
    exact h
  · rw [if_neg hp, if_neg hp]
    exact h'

end

end

end VeSmart.Lib
