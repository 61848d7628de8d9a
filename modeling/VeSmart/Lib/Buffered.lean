import Mathlib.Data.List.Basic

set_option autoImplicit false

/-! # Reading a text that arrives in pieces

A reader of a connection keeps a buffer, reads more while the buffer does not decide what comes
next, and takes what was decided out of it. `Agrees` compares it with a reader of the whole text:
where the text itself decides, the pieces do not matter. -/

namespace VeSmart.Lib

/-- What one read of a connection meets. The end of the list is the end of the connection. -/
inductive Arrival (β ε : Type) where
  | data (xs : List β)
  | broken (e : ε)

/-- How a program ends without a result. -/
inductive Stop (φ : Type) where
  | failed (e : φ)
  | panicked
  deriving DecidableEq

/-- How the reading of a whole text ends without a result. It is `overlong` if something in it is
longer than the reader allows, so that the outcome depends on how the text arrives. -/
inductive Verdict (φ : Type) where
  | failed (e : φ)
  | overlong
  deriving DecidableEq

def Stop.map {φ ψ : Type} (f : φ → ψ) : Stop φ → Stop ψ
  | .failed e => .failed (f e)
  | .panicked => .panicked

def Verdict.map {φ ψ : Type} (f : φ → ψ) : Verdict φ → Verdict ψ
  | .failed e => .failed (f e)
  | .overlong => .overlong

structure Buffered (β ε : Type) where
  stream : List (Arrival β ε)
  buffer : List β

variable {α β γ ε φ : Type}

def Arrival.text : Arrival β ε → List β
  | .data xs => xs
  | .broken _ => []

def arriving (stream : List (Arrival β ε)) : List β := stream.flatMap Arrival.text

/-- What has not been taken yet. -/
def Buffered.content (r : Buffered β ε) : List β := r.buffer ++ arriving r.stream

/-- Every read brings something and none breaks. -/
def Unbroken (stream : List (Arrival β ε)) : Prop := ∀ a ∈ stream, ∃ xs, xs ≠ [] ∧ a = .data xs

/-! ## One read -/

/-- Reads at most `size`; nothing is read at the end of the connection. -/
def receive (size : Nat) : List (Arrival β ε) → Except ε (List β × List (Arrival β ε))
  | [] => .ok ([], [])
  | .broken e :: _ => .error e
  | .data xs :: stream =>
      if xs.length ≤ size then .ok (xs, stream)
      else .ok (xs.take size, .data (xs.drop size) :: stream)

theorem receive_arriving {size : Nat} {stream stream' : List (Arrival β ε)} {xs : List β}
    (h : receive size stream = .ok (xs, stream')) : xs ++ arriving stream' = arriving stream := by
  match stream with
  | [] =>
      cases h
      rfl
  | .broken e :: _ => cases h
  | .data ys :: rest =>
      rw [receive] at h
      split_ifs at h
      · cases h
        rfl
      · cases h
        show ys.take size ++ (ys.drop size ++ arriving rest) = ys ++ arriving rest
        rw [← List.append_assoc, List.take_append_drop]

theorem receive_shrinks {size : Nat} {stream stream' : List (Arrival β ε)} {x : β} {xs : List β}
    (h : receive size stream = .ok (x :: xs, stream')) :
    (arriving stream').length < (arriving stream).length := by
  rw [← receive_arriving h, List.length_append, List.length_cons]
  omega

theorem Unbroken.receive {size : Nat} (hsize : 0 < size) {stream : List (Arrival β ε)}
    (h : Unbroken stream) : ∃ xs stream', receive size stream = .ok (xs, stream') ∧
      Unbroken stream' ∧ (xs = [] → arriving stream = []) := by
  match stream with
  | [] => exact ⟨[], [], rfl, h, fun _ => rfl⟩
  | a :: rest =>
      obtain ⟨ys, hne, rfl⟩ := h a (List.mem_cons_self ..)
      have hrest : Unbroken rest := fun b hb => h b (List.mem_cons_of_mem _ hb)
      by_cases hfits : ys.length ≤ size
      · exact ⟨ys, rest, by rw [Lib.receive, if_pos hfits], hrest, fun hnil => absurd hnil hne⟩
      · refine ⟨ys.take size, .data (ys.drop size) :: rest, by rw [Lib.receive, if_neg hfits], ?_,
          ?_⟩
        · intro b hb
          rcases List.mem_cons.mp hb with rfl | hb
          · exact ⟨ys.drop size, by rw [Ne, List.drop_eq_nil_iff]; exact hfits, rfl⟩
          · exact hrest b hb
        · intro hnil
          rcases List.take_eq_nil_iff.mp hnil with hzero | hempty
          · omega
          · exact absurd hempty hne

/-! ## Reading on until the buffer decides -/

/-- The result of an answer, with what is left. -/
def settle {τ : Type} (answer : Except φ α) (left : τ) : Except (Stop φ) (α × τ) :=
  (answer.mapError Stop.failed).map fun x => (x, left)

section Gather

variable (size : Nat) (failure : ε → φ) (closed : Except φ α)
  (done : List β → Option (Except φ α))

/-- Reads into the buffer until `done` has an answer for it; `closed` is the answer at the end of
the connection. -/
def gather (r : Buffered β ε) : Except (Stop φ) (α × Buffered β ε) :=
  match done r.buffer with
  | some answer => settle answer r
  | none =>
      match hread : receive size r.stream with
      | .error e => .error (.failed (failure e))
      | .ok ([], stream) => settle closed ⟨stream, r.buffer⟩
      | .ok (x :: xs, stream) =>
          have : (arriving stream).length < (arriving r.stream).length := receive_shrinks hread
          gather ⟨stream, r.buffer ++ x :: xs⟩
termination_by (arriving r.stream).length

variable {size failure closed done}

theorem gather_answer {r : Buffered β ε} {answer : Except φ α} (h : done r.buffer = some answer) :
    gather size failure closed done r = settle answer r := by
  rw [gather, h]

theorem gather_more {r : Buffered β ε} {x : β} {xs : List β} {stream : List (Arrival β ε)}
    (h : done r.buffer = none) (hread : receive size r.stream = .ok (x :: xs, stream)) :
    gather size failure closed done r =
      gather size failure closed done ⟨stream, r.buffer ++ x :: xs⟩ := by
  rw [gather, h]
  dsimp only
  split <;> simp_all

theorem gather_closed {r : Buffered β ε} {stream : List (Arrival β ε)}
    (h : done r.buffer = none) (hread : receive size r.stream = .ok ([], stream)) :
    gather size failure closed done r = settle closed ⟨stream, r.buffer⟩ := by
  rw [gather, h]
  dsimp only
  split <;> simp_all

theorem gather_broken {r : Buffered β ε} {e : ε} (h : done r.buffer = none)
    (hread : receive size r.stream = .error e) :
    gather size failure closed done r = .error (.failed (failure e)) := by
  rw [gather, h]
  dsimp only
  split <;> simp_all

variable (failure closed done) in
/-- An answer is given for a beginning of the text, or the whole of it has arrived. -/
theorem gather_ends (hsize : 0 < size) {r : Buffered β ε} (h : Unbroken r.stream) :
    ∃ r', Unbroken r'.stream ∧ r'.content = r.content ∧
      ((∃ answer, done r'.buffer = some answer ∧
        gather size failure closed done r = settle answer r') ∨
      (r'.buffer = r.content ∧ done r'.buffer = none ∧
        gather size failure closed done r = settle closed r')) := by
  induction hn : (arriving r.stream).length using Nat.strongRecOn generalizing r with
  | _ n ih =>
      cases hdone : done r.buffer with
      | some answer => exact ⟨r, h, rfl, Or.inl ⟨answer, hdone, gather_answer hdone⟩⟩
      | none =>
          obtain ⟨xs, stream, hread, hstream, hnil⟩ := h.receive hsize
          have harrive := receive_arriving hread
          cases xs with
          | nil =>
              have hempty : arriving stream = [] := harrive.trans (hnil rfl)
              have hcontent : r.buffer = r.content := by
                rw [Buffered.content, hnil rfl, List.append_nil]
              refine ⟨⟨stream, r.buffer⟩, hstream, ?_, Or.inr ⟨hcontent, hdone, ?_⟩⟩
              · rw [Buffered.content, hempty, List.append_nil, ← hcontent]
              · exact gather_closed hdone hread
          | cons x xs =>
              have hless := receive_shrinks hread
              have hcontent : (⟨stream, r.buffer ++ x :: xs⟩ : Buffered β ε).content =
                  r.content := by
                rw [Buffered.content, List.append_assoc, harrive]
                rfl
              obtain ⟨r', hr', hsame, hends⟩ :=
                ih _ (hn ▸ hless) (r := ⟨stream, r.buffer ++ x :: xs⟩) hstream rfl
              rw [hcontent] at hsame hends
              refine ⟨r', hr', hsame, ?_⟩
              rwa [gather_more hdone hread]

/-- Reading on loses nothing. -/
theorem gather_content {r r' : Buffered β ε} {x : α}
    (h : gather size failure closed done r = .ok (x, r')) : r'.content = r.content := by
  have hsettle : ∀ {answer : Except φ α} {left : Buffered β ε},
      settle answer left = .ok (x, r') → left = r' := by
    intro answer left hleft
    cases answer with
    | error e => cases hleft
    | ok y =>
        cases hleft
        rfl
  induction hn : (arriving r.stream).length using Nat.strongRecOn generalizing r with
  | _ n ih =>
      cases hdone : done r.buffer with
      | some answer =>
          rw [gather_answer hdone] at h
          rw [hsettle h]
      | none =>
          cases hread : receive size r.stream with
          | error e =>
              rw [gather_broken hdone hread] at h
              cases h
          | ok p =>
              obtain ⟨xs, stream⟩ := p
              have harrive := receive_arriving hread
              cases xs with
              | nil =>
                  rw [gather_closed hdone hread] at h
                  rw [← hsettle h, Buffered.content, Buffered.content, ← harrive]
                  rfl
              | cons y ys =>
                  rw [gather_more hdone hread] at h
                  rw [ih _ (hn ▸ receive_shrinks hread) h rfl, Buffered.content,
                    List.append_assoc, harrive]
                  rfl

/-- Where the end of the connection is a failure, a result is what `done` says of the buffer. -/
theorem gather_done {e : φ} {r r' : Buffered β ε} {x : α}
    (h : gather size failure (.error e) done r = .ok (x, r')) :
    done r'.buffer = some (.ok x) := by
  induction hn : (arriving r.stream).length using Nat.strongRecOn generalizing r with
  | _ n ih =>
      cases hdone : done r.buffer with
      | some answer =>
          rw [gather_answer hdone] at h
          cases answer with
          | error e' => cases h
          | ok y =>
              cases h
              exact hdone
      | none =>
          cases hread : receive size r.stream with
          | error e' =>
              rw [gather_broken hdone hread] at h
              cases h
          | ok p =>
              obtain ⟨_ | ⟨y, ys⟩, stream⟩ := p
              · rw [gather_closed hdone hread] at h
                cases h
              · rw [gather_more hdone hread] at h
                exact ih _ (hn ▸ receive_shrinks hread) h rfl

theorem settle_safe {τ : Type} (answer : Except φ α) (left : τ) :
    settle answer left ≠ .error .panicked := by
  cases answer with
  | error e => simp [settle, Except.mapError, Except.map]
  | ok x => simp [settle, Except.mapError, Except.map]

/-- Reading on does not panic. -/
theorem gather_safe (r : Buffered β ε) :
    gather size failure closed done r ≠ .error .panicked := by
  induction hn : (arriving r.stream).length using Nat.strongRecOn generalizing r with
  | _ n ih =>
      cases hdone : done r.buffer with
      | some answer =>
          rw [gather_answer hdone]
          exact settle_safe _ _
      | none =>
          cases hread : receive size r.stream with
          | error e' =>
              rw [gather_broken hdone hread]
              simp
          | ok p =>
              obtain ⟨_ | ⟨y, ys⟩, stream⟩ := p
              · rw [gather_closed hdone hread]
                exact settle_safe _ _
              · rw [gather_more hdone hread]
                exact ih _ (hn ▸ receive_shrinks hread) _ rfl

end Gather

/-! ## Agreement -/

/-- A program ends as the reading of a whole text does, with results in the relation. -/
inductive Agree {κ : Type} (R : γ → κ → Prop) :
    Except (Stop φ) γ → Except (Verdict φ) κ → Prop
  | overlong (x : Except (Stop φ) γ) : Agree R x (.error .overlong)
  | failed (e : φ) : Agree R (.error (.failed e)) (.error (.failed e))
  | ok {p : γ} {q : κ} (h : R p q) : Agree R (.ok p) (.ok q)

section Agree

variable {κ γ' κ' ψ : Type} {R : γ → κ → Prop} {S : γ' → κ' → Prop} {x : Except (Stop φ) γ}
  {y : Except (Verdict φ) κ}

theorem Agree.bind (h : Agree R x y) {k : γ → Except (Stop φ) γ'}
    {k' : κ → Except (Verdict φ) κ'} (hk : ∀ p q, R p q → Agree S (k p) (k' q)) :
    Agree S (x >>= k) (y >>= k') := by
  cases h with
  | overlong => exact .overlong _
  | failed e => exact .failed e
  | ok hR => exact hk _ _ hR

theorem Agree.mapError (h : Agree R x y) (f : φ → ψ) :
    Agree R (x.mapError (Stop.map f)) (y.mapError (Verdict.map f)) := by
  cases h with
  | overlong => exact .overlong _
  | failed e => exact .failed (f e)
  | ok hR => exact .ok hR

theorem Agree.map {z : Except (Verdict φ) κ'} (h : Agree R x y) {f : γ → γ'} {g : κ → κ'}
    (hz : z = y.map g) (hS : ∀ p q, R p q → S (f p) (g q)) : Agree S (x.map f) z := by
  subst hz
  cases h with
  | overlong => exact .overlong _
  | failed e => exact .failed e
  | ok hR => exact .ok (hS _ _ hR)

/-- A text that is not overlong has an outcome. -/
theorem outcome_of_short {z : Except (Verdict φ) γ} (h : z ≠ .error .overlong) :
    ∃ result : Except φ γ, z = result.mapError Verdict.failed := by
  cases z with
  | error e =>
      cases e with
      | failed e => exact ⟨.error e, rfl⟩
      | overlong => exact absurd rfl h
  | ok x => exact ⟨.ok x, rfl⟩

theorem Agree.failure {e : φ} (h : Agree R x (.error (.failed e))) : x = .error (.failed e) := by
  cases h
  rfl

/-- The program has the outcome of the text. -/
theorem Agree.outcome {result : Except φ γ} (h : Agree Eq x (result.mapError Verdict.failed)) :
    x = result.mapError Stop.failed := by
  cases result with
  | error e =>
      cases h
      rfl
  | ok p =>
      cases h with
      | ok heq => rw [heq]; rfl

end Agree

/-- The same value, and the text that is left is the one that is still to be taken. -/
structure Tracks (p : α × Buffered β ε) (q : α × List β) : Prop where
  value : p.1 = q.1
  unbroken : Unbroken p.2.stream
  left : p.2.content = q.2

/-- A reader of pieces does what a reader of the whole text does. -/
def Agrees (f : StateT (Buffered β ε) (Except (Stop φ)) α)
    (g : StateT (List β) (Except (Verdict φ)) α) : Prop :=
  ∀ r, Unbroken r.stream → Agree Tracks (f r) (g r.content)

section Agrees

variable {f : StateT (Buffered β ε) (Except (Stop φ)) α}
  {g : StateT (List β) (Except (Verdict φ)) α}

theorem Agrees.pure (x : α) : Agrees (β := β) (ε := ε) (φ := φ) (pure x) (pure x) :=
  fun _ hr => .ok ⟨rfl, hr, rfl⟩

theorem Agrees.throw (e : φ) : Agrees (α := α) (β := β) (ε := ε)
    (fun _ => .error (.failed e)) (fun _ => .error (.failed e)) :=
  fun _ _ => .failed e

theorem Agrees.bind (h : Agrees f g) {k : α → StateT (Buffered β ε) (Except (Stop φ)) γ}
    {k' : α → StateT (List β) (Except (Verdict φ)) γ} (hk : ∀ x, Agrees (k x) (k' x)) :
    Agrees (f >>= k) (g >>= k') := by
  intro r hr
  show Agree Tracks (f r >>= fun p => k p.1 p.2) (g r.content >>= fun q => k' q.1 q.2)
  refine (h r hr).bind ?_
  intro p q hpq
  rw [hpq.value, ← hpq.left]
  exact hk q.1 p.2 hpq.unbroken

/-- Failures may be told in other words. -/
theorem Agrees.mapError {ψ : Type} (h : Agrees f g) (name : φ → ψ) :
    Agrees (fun r => (f r).mapError (Stop.map name))
      (fun text => (g text).mapError (Verdict.map name)) :=
  fun r hr => (h r hr).mapError name

/-- The values agree, whatever is left. -/
theorem Agrees.value (h : Agrees f g) {r : Buffered β ε} (hr : Unbroken r.stream) :
    Agree (fun p x => p.1 = x) (f r) ((g r.content).map Prod.fst) := by
  have hagree := h r hr
  generalize f r = x at hagree ⊢
  generalize g r.content = y at hagree ⊢
  cases hagree with
  | overlong => exact .overlong _
  | failed e => exact .failed e
  | ok hpq => exact .ok hpq.value

/-- The reading of a text up to what `done` decides. -/
def decided (closed : Except φ α) (done : List β → Option (Except φ α)) (text : List β) :
    Except (Verdict φ) α :=
  ((done text).getD closed).mapError Verdict.failed

/-- No beginning of the text is decided in another way than the text. -/
def Steady (done : List β → Option (Except φ α)) (text : List β) : Prop :=
  ∀ xs, xs <+: text → done xs = none ∨ done xs = done text

theorem settle_agree {κ : Type} {R : γ → κ → Prop} {answer : Except φ α} {r : Buffered β ε}
    {k : α × Buffered β ε → Except (Stop φ) γ} {k' : α → Except (Verdict φ) κ}
    (hk : ∀ x, answer = .ok x → Agree R (k (x, r)) (k' x)) :
    Agree R (settle answer r >>= k) (answer.mapError Verdict.failed >>= k') := by
  cases answer with
  | error e => exact .failed e
  | ok x => exact hk x rfl

/-- Reading on until the buffer decides is reading the text up to what it decides. -/
theorem gather_agree {κ : Type} {R : γ → κ → Prop} {size : Nat} {failure : ε → φ} {e : φ}
    {done : List β → Option (Except φ α)} {r : Buffered β ε}
    {k : α × Buffered β ε → Except (Stop φ) γ} {k' : α → Except (Verdict φ) κ} (hsize : 0 < size)
    (h : Unbroken r.stream) (hsteady : Steady done r.content)
    (hk : ∀ x r', Unbroken r'.stream → r'.content = r.content →
      done r'.buffer = some (.ok x) → Agree R (k (x, r')) (k' x)) :
    Agree R (gather size failure (.error e) done r >>= k)
      (decided (.error e) done r.content >>= k') := by
  obtain ⟨r', hr', hsame, ⟨answer, hdone, hgather⟩ | ⟨hall, hdone, hgather⟩⟩ :=
    gather_ends failure (.error e) done hsize h
  · have hprefix : r'.buffer <+: r.content := by
      rw [← hsame]
      exact List.prefix_append _ _
    have htext : done r.content = some answer := by
      rcases hsteady _ hprefix with hnone | hequal
      · rw [hnone] at hdone
        cases hdone
      · rw [← hequal, hdone]
    rw [hgather, decided, htext, Option.getD_some]
    refine settle_agree ?_
    rintro x rfl
    exact hk x r' hr' hsame hdone
  · rw [hgather, decided, ← hall, hdone, Option.getD_none]
    refine settle_agree ?_
    intro x hx
    cases hx

end Agrees

/-! ## Taking out of the buffer -/

/-- Takes `n` out of the buffer, which has as many. -/
def drain (n : Nat) : StateT (Buffered β ε) (Except (Stop φ)) (List β) := fun r =>
  if n ≤ r.buffer.length then .ok (r.buffer.take n, ⟨r.stream, r.buffer.drop n⟩)
  else .error .panicked

theorem drain_buffer {n : Nat} {r : Buffered β ε} (hn : n ≤ r.buffer.length) :
    drain (φ := φ) n r = .ok (r.content.take n, ⟨r.stream, r.buffer.drop n⟩) := by
  rw [drain, if_pos hn, Buffered.content, List.take_append_of_le_length hn]

theorem drain_content {n : Nat} {r : Buffered β ε} (hn : n ≤ r.buffer.length) :
    (⟨r.stream, r.buffer.drop n⟩ : Buffered β ε).content = r.content.drop n := by
  rw [Buffered.content, Buffered.content, List.drop_append_of_le_length hn]

/-! ## Loops -/

section Loops

variable {σ τ δ : Type}

/-- A sequence that ends with a result has had one in both of its parts. -/
theorem ran_bind {f : StateT τ (Except δ) α} {k : α → StateT τ (Except δ) γ} {t : τ}
    {q : γ × τ} (h : (f >>= k) t = .ok q) : ∃ x t', f t = .ok (x, t') ∧ k x t' = .ok q := by
  change (f t >>= fun p => k p.1 p.2) = .ok q at h
  cases hf : f t with
  | error e =>
      rw [hf] at h
      cases h
  | ok p =>
      rw [hf] at h
      exact ⟨p.1, p.2, rfl, h⟩

theorem bind_ran {f : StateT τ (Except δ) α} {k : α → StateT τ (Except δ) γ} {t t' : τ} {x : α}
    (h : f t = .ok (x, t')) : (f >>= k) t = k x t' := by
  show (f t >>= fun p => k p.1 p.2) = k x t'
  rw [h]
  rfl

/-- A sequence that ends without a result does so in one of its parts. -/
theorem error_bind {f : StateT τ (Except δ) α} {k : α → StateT τ (Except δ) γ} {t : τ} {e : δ}
    (h : (f >>= k) t = .error e) :
    f t = .error e ∨ ∃ x t', f t = .ok (x, t') ∧ k x t' = .error e := by
  change (f t >>= fun p => k p.1 p.2) = .error e at h
  cases hf : f t with
  | error e' =>
      rw [hf] at h
      cases h
      exact .inl rfl
  | ok p =>
      rw [hf] at h
      exact .inr ⟨p.1, p.2, rfl, h⟩

/-- What is left has at least `n` less than before. -/
def Consumes (size : τ → Nat) (n : Nat) (f : StateT τ (Except δ) α) : Prop :=
  ∀ t x t', f t = .ok (x, t') → size t' + n ≤ size t

variable {size : τ → Nat}

theorem Consumes.pure (x : α) : Consumes (δ := δ) size 0 (pure x) := by
  intro t y t' h
  cases h
  exact Nat.le_refl _

theorem Consumes.throw {n : Nat} (e : δ) : Consumes (α := α) size n (fun _ => .error e) := by
  intro t y t' h
  cases h

theorem Consumes.mono {m n : Nat} {f : StateT τ (Except δ) α} (h : Consumes size n f)
    (hle : m ≤ n) : Consumes size m f := by
  intro t x t' hf
  have := h t x t' hf
  omega

theorem Consumes.mapError {ψ : Type} {n : Nat} {f : StateT τ (Except δ) α}
    (h : Consumes size n f) (name : δ → ψ) :
    Consumes (α := α) size n (fun t => (f t).mapError name) := by
  intro t x t' hmapped
  change (f t).mapError name = .ok (x, t') at hmapped
  cases hf : f t with
  | error e =>
      rw [hf] at hmapped
      cases hmapped
  | ok p =>
      rw [hf] at hmapped
      cases hmapped
      exact h t x t' hf

theorem Consumes.bind {m n : Nat} {f : StateT τ (Except δ) α} {k : α → StateT τ (Except δ) γ}
    (hf : Consumes size m f) (hk : ∀ x, Consumes size n (k x)) :
    Consumes size (m + n) (f >>= k) := by
  intro t y t' h
  obtain ⟨x, s, hx, hy⟩ := ran_bind h
  have hfirst := hf t x s hx
  have hrest := hk x s y t' hy
  omega

/-- Repeats a step until it returns. Every step takes something out of the state. -/
def iterate (size : τ → Nat) (step : σ → StateT τ (Except δ) (σ ⊕ α))
    (hstep : ∀ s, Consumes size 1 (step s)) (s : σ) : StateT τ (Except δ) α := fun t =>
  match h : step s t with
  | .error e => .error e
  | .ok (.inr x, t') => .ok (x, t')
  | .ok (.inl s', t') =>
      have : size t' < size t := hstep s t _ t' h
      iterate size step hstep s' t'
termination_by t => size t

variable {step : σ → StateT τ (Except δ) (σ ⊕ α)} {hstep : ∀ s, Consumes size 1 (step s)}

theorem iterate_step (s : σ) (t : τ) : iterate size step hstep s t =
    step s t >>= fun p => Sum.elim (fun s' => iterate size step hstep s' p.2)
      (fun x => .ok (x, p.2)) p.1 := by
  rw [iterate]
  split
  · simp_all
    rfl
  · simp_all
    rfl
  · simp_all
    rfl

/-- A loop that ends without a result does so in its first round or behind it. -/
theorem iterate_error {s : σ} {t : τ} {e : δ} (h : iterate size step hstep s t = .error e) :
    step s t = .error e ∨ ∃ s' t', step s t = .ok (.inl s', t') ∧
      iterate size step hstep s' t' = .error e := by
  rw [iterate_step] at h
  cases hround : step s t with
  | error e' =>
      rw [hround] at h
      cases h
      exact .inl rfl
  | ok p =>
      obtain ⟨next, left⟩ := p
      rw [hround] at h
      cases next with
      | inl s' => exact .inr ⟨s', left, rfl, h⟩
      | inr x => cases h

theorem iterate_consumes (s : σ) : Consumes size 1 (iterate size step hstep s) := by
  intro t x t' h
  induction hn : size t using Nat.strongRecOn generalizing s t with
  | _ n ih =>
      rw [iterate_step] at h
      cases hround : step s t with
      | error e =>
          rw [hround] at h
          cases h
      | ok p =>
          obtain ⟨next, left⟩ := p
          have hless := hstep s t next left hround
          rw [hround] at h
          cases next with
          | inl s' =>
              have hrest := ih (size left) (by omega) s' left h rfl
              omega
          | inr y =>
              cases h
              show size left + 1 ≤ n
              omega

/-- What the rounds of a loop keep, and what the last of them makes of it. -/
theorem iterate_rule {P : σ → τ → Prop} {Q : α → Prop}
    (hnext : ∀ s t s' t', P s t → step s t = .ok (.inl s', t') → P s' t')
    (hdone : ∀ s t x t', P s t → step s t = .ok (.inr x, t') → Q x) {s : σ} {t t' : τ} {x : α}
    (hP : P s t) (h : iterate size step hstep s t = .ok (x, t')) : Q x := by
  induction hn : size t using Nat.strongRecOn generalizing s t with
  | _ n ih =>
      rw [iterate_step] at h
      cases hround : step s t with
      | error e =>
          rw [hround] at h
          cases h
      | ok p =>
          obtain ⟨next, left⟩ := p
          have hless := hstep s t next left hround
          rw [hround] at h
          cases next with
          | inl s' => exact ih (size left) (by omega) (hnext s t s' left hP hround) h rfl
          | inr y =>
              cases h
              exact hdone _ _ _ _ hP hround

end Loops

def Buffered.pending (r : Buffered β ε) : Nat := r.content.length

/-- A loop over the pieces does what the loop over the text does, if the steps do where the
invariant of the loop holds. -/
theorem Agrees.iterate {σ : Type} (I : σ → Prop)
    {step : σ → StateT (Buffered β ε) (Except (Stop φ)) (σ ⊕ α)}
    {step' : σ → StateT (List β) (Except (Verdict φ)) (σ ⊕ α)}
    {hstep : ∀ s, Consumes Buffered.pending 1 (step s)}
    {hstep' : ∀ s, Consumes List.length 1 (step' s)} (h : ∀ s, I s → Agrees (step s) (step' s))
    (hkeep : ∀ s t s' t', I s → step' s t = .ok (.inl s', t') → I s') {s : σ} (hs : I s) :
    Agrees (Lib.iterate Buffered.pending step hstep s)
      (Lib.iterate List.length step' hstep' s) := by
  intro r hr
  -- The text that is left gets shorter with every round.
  induction hn : r.pending using Nat.strongRecOn generalizing s r with
  | _ n ih =>
      rw [iterate_step, iterate_step]
      have hless := hstep s r
      have hnext := hkeep s r.content
      have hround := h s hs r hr
      generalize step s r = x at hless hround
      generalize step' s r.content = y at hnext hround
      cases hround with
      | overlong => exact .overlong _
      | failed e => exact .failed e
      | @ok p q hpq =>
          obtain ⟨next, r'⟩ := p
          obtain ⟨next', text⟩ := q
          obtain ⟨rfl, hunbroken, rfl⟩ := hpq
          cases next with
          | inl s' => exact ih _ (hn ▸ hless _ _ rfl) (hnext _ _ hs rfl) r' hunbroken rfl
          | inr y => exact .ok ⟨rfl, hunbroken, rfl⟩

theorem drain_consumes (n : Nat) :
    Consumes (α := List β) Buffered.pending n (drain (β := β) (ε := ε) (φ := φ) n) := by
  intro r xs r' h
  rw [drain] at h
  split_ifs at h with hn
  cases h
  rw [Buffered.pending, Buffered.pending, drain_content hn, List.length_drop, Buffered.content,
    List.length_append]
  omega

theorem gather_consumes {size : Nat} {failure : ε → φ} {closed : Except φ α}
    {done : List β → Option (Except φ α)} :
    Consumes Buffered.pending 0 (gather size failure closed done) := by
  intro r x r' h
  rw [Buffered.pending, Buffered.pending, gather_content h]
  exact Nat.le_refl _


/-! ## Panics -/

/-- The reader does not panic, whatever arrives. -/
def Safe (f : StateT (Buffered β ε) (Except (Stop φ)) α) : Prop :=
  ∀ r, f r ≠ .error .panicked

section Safe

variable {f : StateT (Buffered β ε) (Except (Stop φ)) α}

theorem Safe.pure (x : α) : Safe (β := β) (ε := ε) (φ := φ) (pure x) := by
  intro r h
  cases h

theorem Safe.throw (e : φ) : Safe (α := α) (β := β) (ε := ε) (fun _ => .error (.failed e)) := by
  intro r h
  cases h

/-- The second part may rely on what the first has left. -/
theorem Safe.bind_of {k : α → StateT (Buffered β ε) (Except (Stop φ)) γ} (hf : Safe f)
    (hk : ∀ r x r', f r = .ok (x, r') → k x r' ≠ .error .panicked) : Safe (f >>= k) := by
  intro r h
  rcases error_bind h with hfirst | ⟨x, r', hrun, hsecond⟩
  · exact hf r hfirst
  · exact hk r x r' hrun hsecond

theorem Safe.bind {k : α → StateT (Buffered β ε) (Except (Stop φ)) γ} (hf : Safe f)
    (hk : ∀ x, Safe (k x)) : Safe (f >>= k) :=
  hf.bind_of fun _ x r' _ => hk x r'

theorem Safe.mapError {ψ : Type} (hf : Safe f) (name : φ → ψ) :
    Safe fun r => (f r).mapError (Stop.map name) := by
  intro r h
  change (f r).mapError (Stop.map name) = .error .panicked at h
  rcases hrun : f r with (e | _) | p
  · rw [hrun] at h
    cases h
  · exact hf r hrun
  · rw [hrun] at h
    cases h

theorem Safe.iterate {σ : Type} (I : σ → Prop)
    {step : σ → StateT (Buffered β ε) (Except (Stop φ)) (σ ⊕ α)}
    {hstep : ∀ s, Consumes Buffered.pending 1 (step s)} (h : ∀ s, I s → Safe (step s))
    (hkeep : ∀ s t s' t', I s → step s t = .ok (.inl s', t') → I s') {s : σ} (hs : I s) :
    Safe (Lib.iterate Buffered.pending step hstep s) := by
  intro r hrun
  induction hn : r.pending using Nat.strongRecOn generalizing s r with
  | _ n ih =>
      rcases iterate_error hrun with hround | ⟨s', left, hround, hrest⟩
      · exact h s hs r hround
      · have hless := hstep s r _ left hround
        exact ih left.pending (by omega) (hkeep s r s' left hs hround) left hrest rfl

end Safe

/-! ## Failures -/

/-- Every failure of the reader is in `F`, whatever arrives. -/
def FailsIn (F : φ → Prop) (f : StateT (Buffered β ε) (Except (Stop φ)) α) : Prop :=
  ∀ r e, f r = .error (.failed e) → F e

section FailsIn

variable {F : φ → Prop} {f : StateT (Buffered β ε) (Except (Stop φ)) α}

theorem FailsIn.pure (x : α) : FailsIn (β := β) (ε := ε) F (pure x) := by
  intro r e h
  cases h

theorem FailsIn.throw {e : φ} (h : F e) :
    FailsIn (α := α) (β := β) (ε := ε) F (fun _ => .error (.failed e)) := by
  intro r e' heq
  cases heq
  exact h

theorem FailsIn.bind {k : α → StateT (Buffered β ε) (Except (Stop φ)) γ} (hf : FailsIn F f)
    (hk : ∀ x, FailsIn F (k x)) : FailsIn F (f >>= k) := by
  intro r e h
  rcases error_bind h with hfirst | ⟨x, r', -, hsecond⟩
  · exact hf r e hfirst
  · exact hk x r' e hsecond

theorem FailsIn.mapError {ψ : Type} {G : ψ → Prop} {name : φ → ψ} (hf : FailsIn F f)
    (hname : ∀ e, F e → G (name e)) : FailsIn G fun r => (f r).mapError (Stop.map name) := by
  intro r e h
  change (f r).mapError (Stop.map name) = .error (.failed e) at h
  rcases hrun : f r with (e' | _) | p
  · rw [hrun] at h
    cases h
    exact hname e' (hf r e' hrun)
  · rw [hrun] at h
    cases h
  · rw [hrun] at h
    cases h

/-- Every round of a loop fails in `F`. -/
theorem FailsIn.iterate {σ : Type} {step : σ → StateT (Buffered β ε) (Except (Stop φ)) (σ ⊕ α)}
    {hstep : ∀ s, Consumes Buffered.pending 1 (step s)} (h : ∀ s, FailsIn F (step s)) (s : σ) :
    FailsIn F (Lib.iterate Buffered.pending step hstep s) := by
  intro r e hrun
  induction hn : r.pending using Nat.strongRecOn generalizing s r with
  | _ n ih =>
      rcases iterate_error hrun with hround | ⟨s', left, hround, hrest⟩
      · exact h s r e hround
      · have hless := hstep s r _ left hround
        exact ih left.pending (by omega) s' left hrest rfl

theorem drain_failsIn (n : Nat) :
    FailsIn F (drain (β := β) (ε := ε) n : StateT _ (Except (Stop φ)) (List β)) := by
  intro r e h
  rw [drain] at h
  split_ifs at h
  cases h

/-- Reading on fails as the connection, its end or the answer does. -/
theorem gather_failsIn {size : Nat} {failure : ε → φ} {closed : Except φ α}
    {done : List β → Option (Except φ α)} (hfailure : ∀ e, F (failure e))
    (hclosed : ∀ e, closed = .error e → F e)
    (hdone : ∀ xs e, done xs = some (.error e) → F e) :
    FailsIn F (gather (β := β) size failure closed done) := by
  have hsettle : ∀ (answer : Except φ α) (left : Buffered β ε) e,
      (∀ e, answer = .error e → F e) → settle answer left = .error (.failed e) → F e := by
    intro answer left e hanswer h
    cases answer with
    | error e' =>
        cases h
        exact hanswer e rfl
    | ok x => cases h
  intro r e hrun
  induction hn : (arriving r.stream).length using Nat.strongRecOn generalizing r with
  | _ n ih =>
      cases hanswer : done r.buffer with
      | some answer =>
          rw [gather_answer hanswer] at hrun
          exact hsettle answer r e (fun e he => hdone r.buffer e (he ▸ hanswer)) hrun
      | none =>
          cases hread : receive size r.stream with
          | error e' =>
              rw [gather_broken hanswer hread] at hrun
              cases hrun
              exact hfailure e'
          | ok p =>
              obtain ⟨_ | ⟨y, ys⟩, stream⟩ := p
              · rw [gather_closed hanswer hread] at hrun
                exact hsettle closed _ e hclosed hrun
              · rw [gather_more hanswer hread] at hrun
                exact ih _ (hn ▸ receive_shrinks hread) _ hrun rfl

end FailsIn

/-! ## Searching a terminator -/

section Position

variable [DecidableEq β] {pat text xs : List β} {pos : Nat}

/-- The first position of `pat`. -/
def position (pat : List β) : List β → Option Nat
  | [] => none
  | b :: s => if pat.isPrefixOf (b :: s) then some 0 else (position pat s).map (· + 1)

theorem position_cons {b : β} (h : ¬ pat <+: b :: xs) :
    position pat (b :: xs) = (position pat xs).map (· + 1) := by
  rw [position, if_neg]
  rwa [List.isPrefixOf_iff_prefix]

theorem position_here {b : β} (h : pat <+: b :: xs) : position pat (b :: xs) = some 0 := by
  rw [position, if_pos (List.isPrefixOf_iff_prefix.mpr h)]

theorem position_within (h : position pat text = some pos) : pos + pat.length ≤ text.length := by
  induction text generalizing pos with
  | nil => cases h
  | cons b s ih =>
      by_cases hhere : pat <+: b :: s
      · rw [position_here hhere] at h
        cases h
        have := hhere.length_le
        omega
      · rw [position_cons hhere] at h
        obtain ⟨p, hp, rfl⟩ := Option.map_eq_some_iff.mp h
        have := ih hp
        rw [List.length_cons]
        omega

/-- More text does not move what has been found. -/
theorem position_append {ys : List β} (h : position pat xs = some pos) :
    position pat (xs ++ ys) = some pos := by
  induction xs generalizing pos with
  | nil => cases h
  | cons b s ih =>
      rw [List.cons_append]
      by_cases hhere : pat <+: b :: s
      · rw [position_here hhere] at h
        rw [position_here (hhere.trans ⟨ys, by simp⟩), h]
      · rw [position_cons hhere] at h
        obtain ⟨p, hp, rfl⟩ := Option.map_eq_some_iff.mp h
        -- The end of the text does not hide an earlier one: what has been found is behind it.
        have hnot : ¬ pat <+: b :: (s ++ ys) := by
          intro hthere
          have hbound := position_within hp
          have hshort : pat.length ≤ (b :: s).length := by
            rw [List.length_cons]
            omega
          exact hhere (List.prefix_of_prefix_length_le hthere ⟨ys, by simp⟩ hshort)
        rw [position_cons hnot, ih hp]
        rfl

theorem position_self (hpat : pat ≠ []) : position pat pat = some 0 := by
  cases hcases : pat with
  | nil => exact absurd hcases hpat
  | cons b s => exact position_here (List.prefix_refl _)

/-- What ends with the terminator is enough to find it. -/
theorem position_take (hpat : pat ≠ []) (h : position pat text = some pos) :
    position pat (text.take (pos + pat.length)) = some pos := by
  induction text generalizing pos with
  | nil => cases h
  | cons b s ih =>
      by_cases hhere : pat <+: b :: s
      · rw [position_here hhere] at h
        cases h
        rw [Nat.zero_add, ← List.prefix_iff_eq_take.mp hhere, position_self hpat]
      · rw [position_cons hhere] at h
        obtain ⟨p, hp, rfl⟩ := Option.map_eq_some_iff.mp h
        have hcut : (b :: s).take (p + 1 + pat.length) = b :: s.take (p + pat.length) := by
          rw [Nat.add_right_comm, List.take_succ_cons]
        have hnot : ¬ pat <+: b :: s.take (p + pat.length) := by
          intro hthere
          rw [← hcut] at hthere
          exact hhere (hthere.trans (List.take_prefix _ _))
        rw [hcut, position_cons hnot, ih hp]
        rfl

/-- In a beginning of the text the terminator is found in its place, if it is there. -/
theorem position_prefix (hpat : pat ≠ []) (hxs : xs <+: text) (h : position pat text = some pos) :
    position pat xs = some pos ∨ (position pat xs = none ∧ xs.length < pos + pat.length) := by
  obtain ⟨ys, rfl⟩ := hxs
  cases hfound : position pat xs with
  | some p =>
      rw [position_append hfound] at h
      cases h
      exact Or.inl rfl
  | none =>
      refine Or.inr ⟨rfl, Nat.lt_of_not_le ?_⟩
      intro hlong
      have htake := position_take hpat h
      rw [List.take_append_of_le_length hlong] at htake
      have hthere : position pat (xs.take (pos + pat.length) ++ xs.drop (pos + pat.length)) =
          some pos := position_append htake
      rw [List.take_append_drop, hfound] at hthere
      cases hthere

theorem position_none (hxs : xs <+: text) (h : position pat text = none) :
    position pat xs = none := by
  obtain ⟨ys, rfl⟩ := hxs
  cases hfound : position pat xs with
  | none => rfl
  | some p =>
      rw [position_append hfound] at h
      cases h

end Position

end VeSmart.Lib
