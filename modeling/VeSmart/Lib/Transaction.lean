import VeSmart.Lib.Prog

set_option autoImplicit false

/-! # Transactions over a connection on which every statement can fail

A `Connection D` holds the committed database, the copy an open transaction works on, and a
list of faults: `true` at the head makes the next statement fail with an I/O error, and an
exhausted list means that no further statement fails. `transaction io body` begins a
transaction, runs `body`, and forgets the working copy at the end, so that only what `body`
has committed survives (the transaction is rolled back when it is dropped).

The statements of a `body` may fail anywhere. `AllOrNothing io x` says that this does not
matter to the committed database: with faults, `x` either does exactly what it does without
them or fails with `io` and changes nothing. `Fragment` and `Body` are the conditions on the
parts of a transaction from which `transaction_allOrNothing` concludes it: nothing is
committed before the last statement. What remains to be studied of an operation is its run
without faults, `quiet x`.
-/

namespace VeSmart.Lib

/-- A database connection: what is committed, the view of the open transaction (if any), and
which of the following statements fail. -/
structure Connection (D : Type) where
  committed : D
  working : Option D
  faults : List Bool

/-- What a statement reads: the open transaction's copy, or the committed database. -/
def Connection.view {D : Type} (c : Connection D) : D := c.working.getD c.committed

/-- What a statement writes: the open transaction's copy, or the committed database. -/
def Connection.write {D : Type} (c : Connection D) (d : D) : Connection D :=
  match c.working with
  | some _ => { c with working := some d }
  | none => { c with committed := d }

section

variable {D ε α β : Type} (io : ε)

/-- Take the next fault: fail with `io` if it is set, run `g` otherwise. -/
def guarded (g : Connection D → Except ε α × Connection D) : Prog (Connection D) ε α :=
  ofFun fun c =>
    match c.faults with
    | true :: fs => (.error io, { c with faults := fs })
    | fs => g { c with faults := fs.tail }

/-- One statement. A statement that violates a constraint fails and writes nothing. -/
def statement (f : D → Except ε (α × D)) : Prog (Connection D) ε α :=
  guarded io fun c =>
    match f c.view with
    | .error e => (.error e, c)
    | .ok (a, d) => (.ok a, c.write d)

/-- `BEGIN IMMEDIATE`. -/
def beginImmediate : Prog (Connection D) ε Unit :=
  guarded io fun c => (.ok (), { c with working := some c.committed })

/-- `COMMIT`. -/
def commitTx : Prog (Connection D) ε Unit :=
  guarded io fun c => (.ok (), { c with committed := c.view, working := none })

/-- Run `body` inside a transaction. What `body` has not committed when it ends is gone. -/
def transaction (body : Prog (Connection D) ε α) : Prog (Connection D) ε α :=
  ofFun fun c =>
    match exec (beginImmediate io) c with
    | (.error e, c') => (.error e, c')
    | (.ok _, c') => ((exec body c').1, { (exec body c').2 with working := none })

/-- The run of an operation on the database `d` with no transaction open and no fault. -/
def quiet (x : Prog (Connection D) ε α) (d : D) : Except ε α × D :=
  ((exec x ⟨d, none, []⟩).1, (exec x ⟨d, none, []⟩).2.committed)

/-! ## Parts of a transaction -/

/-- A part of a transaction that commits nothing. -/
def Fragment (x : Prog (Connection D) ε α) : Prop :=
  ∀ d w, ∃ r w', exec x ⟨d, some w, []⟩ = (r, ⟨d, some w', []⟩) ∧
    ∀ fs, (∃ fs', exec x ⟨d, some w, fs⟩ = (r, ⟨d, some w', fs'⟩)) ∨
      (∃ c', exec x ⟨d, some w, fs⟩ = (.error io, c') ∧ c'.committed = d)

/-- A transaction body that commits at most once, with its last statement. -/
def Body (x : Prog (Connection D) ε α) : Prop :=
  ∀ d w, ∃ r d' w', exec x ⟨d, some w, []⟩ = (r, ⟨d', w', []⟩) ∧
    ∀ fs, (∃ fs', exec x ⟨d, some w, fs⟩ = (r, ⟨d', w', fs'⟩)) ∨
      (∃ c', exec x ⟨d, some w, fs⟩ = (.error io, c') ∧ c'.committed = d)

/-- With faults, the operation does what it does without them, or it fails and changes
nothing. -/
def AllOrNothing (x : Prog (Connection D) ε α) : Prop :=
  ∀ d, ∃ r d', exec x ⟨d, none, []⟩ = (r, ⟨d', none, []⟩) ∧
    ∀ fs, (∃ fs', exec x ⟨d, none, fs⟩ = (r, ⟨d', none, fs'⟩)) ∨
      (∃ fs', exec x ⟨d, none, fs⟩ = (.error io, ⟨d, none, fs'⟩))

variable {io}

theorem Fragment.pure (a : α) : Fragment (D := D) io (Pure.pure a : Prog _ ε α) :=
  fun _ w => ⟨_, w, rfl, fun fs => .inl ⟨fs, rfl⟩⟩

theorem Fragment.throw (e : ε) : Fragment (D := D) io (MonadExcept.throw e : Prog _ ε α) :=
  fun _ w => ⟨_, w, rfl, fun fs => .inl ⟨fs, rfl⟩⟩

theorem Fragment.fromExcept (v : Except ε α) : Fragment (D := D) io (fromExcept v) :=
  fun _ w => ⟨v, w, rfl, fun fs => .inl ⟨fs, rfl⟩⟩

theorem Fragment.statement (f : D → Except ε (α × D)) : Fragment io (statement io f) := by
  intro d w
  -- the constraint check of `f` decides the quiet run; a fault decides the other one
  cases hf : f w with
  | error e =>
      refine ⟨.error e, w, by simp [Lib.statement, guarded, Connection.view, hf], fun fs => ?_⟩
      rcases fs with _ | ⟨_ | _, fs⟩
      · exact .inl ⟨[], by simp [Lib.statement, guarded, Connection.view, hf]⟩
      · exact .inl ⟨fs, by simp [Lib.statement, guarded, Connection.view, hf]⟩
      · exact .inr ⟨⟨d, some w, fs⟩, rfl, rfl⟩
  | ok p =>
      obtain ⟨a, w'⟩ := p
      refine ⟨.ok a, w', by simp [Lib.statement, guarded, Connection.view, Connection.write, hf],
        fun fs => ?_⟩
      rcases fs with _ | ⟨_ | _, fs⟩
      · exact .inl ⟨[], by
          simp [Lib.statement, guarded, Connection.view, Connection.write, hf]⟩
      · exact .inl ⟨fs, by
          simp [Lib.statement, guarded, Connection.view, Connection.write, hf]⟩
      · exact .inr ⟨⟨d, some w, fs⟩, rfl, rfl⟩

theorem Fragment.bind {x : Prog (Connection D) ε α} {f : α → Prog (Connection D) ε β}
    (hx : Fragment io x) (hf : ∀ a, Fragment io (f a)) : Fragment io (x >>= f) := by
  intro d w
  obtain ⟨r, w₁, hq, hfs⟩ := hx d w
  cases r with
  | error e =>
      refine ⟨.error e, w₁, exec_bind_error hq, fun fs => ?_⟩
      rcases hfs fs with ⟨fs', h⟩ | ⟨c', h, hc⟩
      · exact .inl ⟨fs', exec_bind_error h⟩
      · exact .inr ⟨c', exec_bind_error h, hc⟩
  | ok a =>
      obtain ⟨r₂, w₂, hq₂, hfs₂⟩ := hf a d w₁
      refine ⟨r₂, w₂, by rw [exec_bind_ok hq, hq₂], fun fs => ?_⟩
      rcases hfs fs with ⟨fs', h⟩ | ⟨c', h, hc⟩
      · rw [exec_bind_ok h]; exact hfs₂ fs'
      · exact .inr ⟨c', exec_bind_error h, hc⟩

theorem Fragment.body {x : Prog (Connection D) ε α} (h : Fragment io x) : Body io x := by
  intro d w
  obtain ⟨r, w', hq, hfs⟩ := h d w
  exact ⟨r, d, some w', hq, hfs⟩

theorem Body.bind {x : Prog (Connection D) ε α} {f : α → Prog (Connection D) ε β}
    (hx : Fragment io x) (hf : ∀ a, Body io (f a)) : Body io (x >>= f) := by
  intro d w
  obtain ⟨r, w₁, hq, hfs⟩ := hx d w
  cases r with
  | error e =>
      refine ⟨.error e, d, some w₁, exec_bind_error hq, fun fs => ?_⟩
      rcases hfs fs with ⟨fs', h⟩ | ⟨c', h, hc⟩
      · exact .inl ⟨fs', exec_bind_error h⟩
      · exact .inr ⟨c', exec_bind_error h, hc⟩
  | ok a =>
      obtain ⟨r₂, d₂, w₂, hq₂, hfs₂⟩ := hf a d w₁
      refine ⟨r₂, d₂, w₂, by rw [exec_bind_ok hq, hq₂], fun fs => ?_⟩
      rcases hfs fs with ⟨fs', h⟩ | ⟨c', h, hc⟩
      · rw [exec_bind_ok h]; exact hfs₂ fs'
      · exact .inr ⟨c', exec_bind_error h, hc⟩

/-- Committing and then answering `v` without touching the database again. -/
theorem Body.commit (v : Except ε α) :
    Body (D := D) io (commitTx io >>= fun _ => fromExcept v) := by
  intro d w
  refine ⟨v, w, none, rfl, fun fs => ?_⟩
  rcases fs with _ | ⟨_ | _, fs⟩
  · exact .inl ⟨[], rfl⟩
  · exact .inl ⟨fs, rfl⟩
  · exact .inr ⟨⟨d, some w, fs⟩, rfl, rfl⟩

/-- Committing at the very end. -/
theorem Body.commit_last : Body (D := D) io (commitTx io) := by
  intro d w
  refine ⟨.ok (), w, none, rfl, fun fs => ?_⟩
  rcases fs with _ | ⟨_ | _, fs⟩
  · exact .inl ⟨[], rfl⟩
  · exact .inl ⟨fs, rfl⟩
  · exact .inr ⟨⟨d, some w, fs⟩, rfl, rfl⟩

theorem Body.commit_pure (a : α) :
    Body (D := D) io (commitTx io >>= fun _ => (Pure.pure a : Prog _ ε α)) :=
  Body.commit (.ok a)

theorem Body.commit_throw (e : ε) :
    Body (D := D) io (commitTx io >>= fun _ => (MonadExcept.throw e : Prog _ ε α)) :=
  Body.commit (.error e)

/-! ## Whole operations -/

theorem transaction_allOrNothing {body : Prog (Connection D) ε α} (h : Body io body) :
    AllOrNothing io (transaction io body) := by
  intro d
  obtain ⟨r, d', w', hq, hfs⟩ := h d d
  have hbegin : exec (beginImmediate io) ⟨d, none, []⟩
      = (.ok (), (⟨d, some d, []⟩ : Connection D)) := rfl
  refine ⟨r, d', by simp [transaction, hbegin, hq], fun fs => ?_⟩
  -- `BEGIN` itself takes the first fault
  rcases fs with _ | ⟨_ | _, fs⟩
  · exact .inl ⟨[], by simp [transaction, hbegin, hq]⟩
  · have hb : exec (beginImmediate io) ⟨d, none, false :: fs⟩
        = (.ok (), (⟨d, some d, fs⟩ : Connection D)) := rfl
    rcases hfs fs with ⟨fs', h'⟩ | ⟨c', h', hc⟩
    · exact .inl ⟨fs', by simp [transaction, hb, h']⟩
    · exact .inr ⟨c'.faults, by simp [transaction, hb, h', hc]⟩
  · exact .inr ⟨fs, rfl⟩

/-- A statement outside a transaction commits by itself. -/
theorem statement_allOrNothing (f : D → Except ε (α × D)) :
    AllOrNothing io (statement io f) := by
  intro d
  cases hf : f d with
  | error e =>
      refine ⟨.error e, d, by simp [statement, guarded, Connection.view, hf], fun fs => ?_⟩
      rcases fs with _ | ⟨_ | _, fs⟩
      · exact .inl ⟨[], by simp [statement, guarded, Connection.view, hf]⟩
      · exact .inl ⟨fs, by simp [statement, guarded, Connection.view, hf]⟩
      · exact .inr ⟨fs, rfl⟩
  | ok p =>
      obtain ⟨a, d'⟩ := p
      refine ⟨.ok a, d', by simp [statement, guarded, Connection.view, Connection.write, hf],
        fun fs => ?_⟩
      rcases fs with _ | ⟨_ | _, fs⟩
      · exact .inl ⟨[], by simp [statement, guarded, Connection.view, Connection.write, hf]⟩
      · exact .inl ⟨fs, by simp [statement, guarded, Connection.view, Connection.write, hf]⟩
      · exact .inr ⟨fs, rfl⟩

/-- A check made before the operation touches the database. -/
theorem AllOrNothing.fromExcept_bind (v : Except ε α) {f : α → Prog (Connection D) ε β}
    (hf : ∀ a, AllOrNothing io (f a)) : AllOrNothing io (fromExcept v >>= f) := by
  intro d
  cases v with
  | error e => exact ⟨.error e, d, rfl, fun fs => .inl ⟨fs, rfl⟩⟩
  | ok a =>
      obtain ⟨r, d', hq, hfs⟩ := hf a d
      exact ⟨r, d', hq, hfs⟩

@[simp] theorem quiet_statement (f : D → Except ε (α × D)) (d : D) :
    quiet (statement io f) d =
      match f d with
      | .error e => (.error e, d)
      | .ok (a, d') => (.ok a, d') := by
  simp only [quiet, statement, guarded, exec_ofFun, Connection.view, Option.getD_none]
  cases f d <;> rfl

/-- The answer of an operation may be wrapped. -/
theorem AllOrNothing.map {x : Prog (Connection D) ε α} (h : AllOrNothing io x) (f : α → β) :
    AllOrNothing io (f <$> x) := by
  intro d
  obtain ⟨r, d', hq, hfs⟩ := h d
  cases r with
  | ok a =>
      refine ⟨.ok (f a), d', by rw [exec_map, hq], fun fs => ?_⟩
      rcases hfs fs with ⟨fs', h'⟩ | ⟨fs', h'⟩
      · exact .inl ⟨fs', by rw [exec_map, h']⟩
      · exact .inr ⟨fs', by rw [exec_map, h']⟩
  | error e =>
      refine ⟨.error e, d', by rw [exec_map, hq], fun fs => ?_⟩
      rcases hfs fs with ⟨fs', h'⟩ | ⟨fs', h'⟩
      · exact .inl ⟨fs', by rw [exec_map, h']⟩
      · exact .inr ⟨fs', by rw [exec_map, h']⟩

theorem quiet_map (f : α → β) (x : Prog (Connection D) ε α) (d : D) :
    quiet (f <$> x) d = ((quiet x d).1.map f, (quiet x d).2) := by
  unfold quiet
  rw [exec_map]
  rcases exec x ⟨d, none, []⟩ with ⟨r, c⟩
  cases r <;> rfl

/-! ## Statements of a transaction, without faults -/

@[simp] theorem exec_statement_open (f : D → Except ε (α × D)) (d w : D) :
    exec (statement io f) ⟨d, some w, []⟩ =
      match f w with
      | .error e => (.error e, ⟨d, some w, []⟩)
      | .ok (a, w') => (.ok a, ⟨d, some w', []⟩) := by
  simp only [statement, guarded, exec_ofFun, Connection.view, Option.getD_some]
  cases f w <;> rfl

@[simp] theorem exec_commitTx (d w : D) :
    exec (commitTx io) ⟨d, some w, []⟩ = (.ok (), (⟨w, none, []⟩ : Connection D)) := rfl

theorem quiet_transaction (body : Prog (Connection D) ε α) (d : D) :
    quiet (transaction io body) d =
      ((exec body ⟨d, some d, []⟩).1, (exec body ⟨d, some d, []⟩).2.committed) := rfl

theorem quiet_fromExcept_bind (v : Except ε α) (f : α → Prog (Connection D) ε β) (d : D) :
    quiet (fromExcept v >>= f) d =
      match v with
      | .ok a => quiet (f a) d
      | .error e => (.error e, d) := by
  cases v <;> rfl

theorem AllOrNothing.exec_quiet {x : Prog (Connection D) ε α} (h : AllOrNothing io x) (d : D) :
    exec x ⟨d, none, []⟩ = ((quiet x d).1, ⟨(quiet x d).2, none, []⟩) := by
  obtain ⟨r, d', hq, -⟩ := h d
  simp [quiet, hq]

/-- Under any faults: the run without faults, or a failure that changes nothing. -/
theorem AllOrNothing.exec_cases {x : Prog (Connection D) ε α} (h : AllOrNothing io x) (d : D)
    (fs : List Bool) :
    ∃ fs', exec x ⟨d, none, fs⟩ = ((quiet x d).1, ⟨(quiet x d).2, none, fs'⟩) ∨
      exec x ⟨d, none, fs⟩ = (.error io, ⟨d, none, fs'⟩) := by
  obtain ⟨r, d', hq, hfs⟩ := h d
  have hquiet : quiet x d = (r, d') := by simp [quiet, hq]
  rcases hfs fs with ⟨fs', h'⟩ | ⟨fs', h'⟩
  · exact ⟨fs', .inl (by rw [hquiet, h'])⟩
  · exact ⟨fs', .inr h'⟩

/-- What holds of the database before and after the run without faults holds of what is committed
under any faults. -/
theorem AllOrNothing.committed {x : Prog (Connection D) ε α} (h : AllOrNothing io x)
    {Q : D → Prop} {d : D} (hbefore : Q d) (hquiet : Q (quiet x d).2) (fs : List Bool) :
    Q (exec x ⟨d, none, fs⟩).2.committed := by
  obtain ⟨fs', hrun | hrun⟩ := h.exec_cases d fs
  · rw [hrun]
    exact hquiet
  · rw [hrun]
    exact hbefore

/-! ## Single statements, with faults -/

/-- One of the next `n + 1` statements fails: the next one, or one of those after it. -/
theorem mem_take_succ_iff (n : Nat) (fs : List Bool) :
    true ∈ fs.take (n + 1) ↔ fs.headD false = true ∨ true ∈ fs.tail.take n := by
  cases fs with
  | nil => simp
  | cons b fs => cases b <;> simp

/-- A guarded step takes the next fault; an exhausted list has none. -/
theorem exec_guarded (g : Connection D → Except ε α × Connection D)
    (c : Connection D) :
    exec (guarded io g) c =
      if c.faults.headD false then (.error io, { c with faults := c.faults.tail })
      else g { c with faults := c.faults.tail } := by
  obtain ⟨committed, working, _ | ⟨_ | _, fs⟩⟩ := c <;> rfl

theorem exec_statement_faults {f : D → Except ε (α × D)} {d w w' : D}
    {a : α} (hf : f w = .ok (a, w')) (fs : List Bool) :
    exec (statement io f) ⟨d, some w, fs⟩ =
      if fs.headD false then (.error io, ⟨d, some w, fs.tail⟩)
      else (.ok a, ⟨d, some w', fs.tail⟩) := by
  rw [statement, exec_guarded]
  simp only [Connection.view, Option.getD_some, hf, Connection.write]

theorem exec_transaction_faults (body : Prog (Connection D) ε α) (d : D)
    (fs : List Bool) :
    exec (transaction io body) ⟨d, none, fs⟩ =
      if fs.headD false then (.error io, ⟨d, none, fs.tail⟩)
      else ((exec body ⟨d, some d, fs.tail⟩).1,
        { (exec body ⟨d, some d, fs.tail⟩).2 with working := none }) := by
  rcases fs with _ | ⟨_ | _, fs⟩ <;> rfl

/-! ## What no statement of an operation changes -/

/-- The committed database and the copy of the open transaction satisfy `P`. -/
def Connection.Within (P : D → Prop) (c : Connection D) : Prop :=
  P c.committed ∧ ∀ w ∈ c.working, P w

/-- The operation keeps `P`, whatever fails. -/
def Preserves (P : D → Prop) (x : Prog (Connection D) ε α) : Prop :=
  Triple (Connection.Within P) x (fun _ => Connection.Within P) (fun _ => Connection.Within P)

variable {P : D → Prop}

theorem Connection.Within.view {c : Connection D} (h : c.Within P) : P c.view := by
  unfold Connection.view
  cases hw : c.working with
  | none => exact h.1
  | some w => exact h.2 w hw

theorem Preserves.pure (a : α) : Preserves P (Pure.pure a : Prog (Connection D) ε α) :=
  Triple.pure fun _ h => h

theorem Preserves.throw (e : ε) : Preserves P (MonadExcept.throw e : Prog (Connection D) ε α) :=
  Triple.throw fun _ h => h

theorem Preserves.fromExcept (v : Except ε α) :
    Preserves P (Lib.fromExcept v : Prog (Connection D) ε α) := by
  intro c h
  rw [exec_fromExcept]
  cases v with
  | ok a => exact h
  | error e => exact h

theorem Preserves.bind {x : Prog (Connection D) ε α} {f : α → Prog (Connection D) ε β}
    (hx : Preserves P x) (hf : ∀ a, Preserves P (f a)) : Preserves P (x >>= f) :=
  Triple.bind hx hf

theorem Preserves.map {x : Prog (Connection D) ε α} (hx : Preserves P x) (f : α → β) :
    Preserves P (f <$> x) := by
  rw [← bind_pure_comp]
  exact Preserves.bind hx fun a => Preserves.pure (f a)

/-- A fault skips the step, and so does the guard's own bookkeeping keep `P`. -/
theorem Preserves.guarded {g : Connection D → Except ε α × Connection D}
    (hg : ∀ c : Connection D, c.Within P → (g c).2.Within P) : Preserves P (guarded io g) := by
  apply Triple.of_exec (S := fun _ c => Connection.Within P c)
  intro c h
  show (match c.faults with
    | true :: fs => ((.error io : Except ε α), ({ c with faults := fs } : Connection D))
    | fs => g { c with faults := fs.tail }).2.Within P
  split
  · exact h
  · exact hg _ h

theorem Preserves.statement {f : D → Except ε (α × D)}
    (hf : ∀ d a d', P d → f d = .ok (a, d') → P d') : Preserves P (statement io f) := by
  apply Preserves.guarded
  intro c h
  cases hrun : f c.view with
  | error e => exact h
  | ok p =>
      have hnew : P p.2 := hf _ p.1 p.2 h.view hrun
      show (c.write p.2).Within P
      unfold Connection.write
      cases hw : c.working with
      | none => exact ⟨hnew, fun w hmem => by simp at hmem⟩
      | some w => exact ⟨h.1, by simpa using hnew⟩

theorem Preserves.commitTx : Preserves P (commitTx io : Prog (Connection D) ε Unit) := by
  apply Preserves.guarded
  intro c h
  exact ⟨h.view, by simp⟩

theorem Preserves.transaction {body : Prog (Connection D) ε α} (hbody : Preserves P body) :
    Preserves P (transaction io body) := by
  have hbegin : Preserves P (beginImmediate io : Prog (Connection D) ε Unit) := by
    apply Preserves.guarded
    intro c h
    exact ⟨h.1, by simpa using h.1⟩
  apply Triple.of_exec (S := fun _ c => Connection.Within P c)
  intro c h
  have hb := hbegin.to_exec (S := fun _ c => Connection.Within P c) h
  unfold Lib.transaction
  rw [exec_ofFun]
  rcases hexec : exec (beginImmediate io) c with ⟨r, c'⟩
  rw [hexec] at hb
  cases r with
  | error e => exact hb
  | ok u =>
      have hrun := hbody.to_exec (S := fun _ c => Connection.Within P c) hb
      exact ⟨hrun.1, by simp⟩

/-- What an operation preserves holds of the database it leaves. -/
theorem Preserves.committed {x : Prog (Connection D) ε α} (h : Preserves P x) {d : D} (hd : P d)
    (fs : List Bool) : P (exec x ⟨d, none, fs⟩).2.committed := by
  have hrun := h.to_exec (S := fun _ c => Connection.Within P c)
    (s := ⟨d, none, fs⟩) ⟨hd, by simp⟩
  exact hrun.1

end

end VeSmart.Lib
