import VeSmart.Storage.Schema

set_option autoImplicit false

/-! # The key/value helpers on `collector_state` (`victron-storage/src/database.rs`)

`getKv`, `getKvI64`, `setKv` and `bumpCounter`, and what they do inside a transaction. A
counter is stored as decimal text; `Counter kv key n` says that the text under `key` stands
for `n`. -/

namespace VeSmart.Storage

open VeSmart.Lib

/-- The failure of a statement that meets an I/O error. -/
def sqlIo : StorageError := .sqlite .io

/-- An operation on a connection to the database. -/
abbrev Sql (α : Type) := Prog (Connection Db) StorageError α

/-- A statement that only reads. -/
def query {α : Type} (f : Db → α) : Sql α := statement sqlIo fun d => .ok (f d, d)

/-- `INSERT INTO collector_state ... ON CONFLICT(key) DO UPDATE SET ...`. -/
def Db.upsertKv (d : Db) (key value : String) (nowMs : Int) : Except StorageError (Unit × Db) :=
  if h : 0 < nowMs then
    .ok ((), { d with kv := Function.update d.kv key (some ⟨value, nowMs, h⟩) })
  else .error (.sqlite .constraint)

def getKv (key : String) : Sql (Option String) := query fun d => (d.kv key).map KvRow.value

/-- The integer that a stored text stands for. -/
def readI64 (key : String) : Option String → Except StorageError (Option Int)
  | none => .ok none
  | some raw =>
      match parseI64 raw with
      | some v => .ok (some v)
      | none => .error (.inconsistent ("collector_state[" ++ key ++ "] is not an integer"))

def getKvI64 (key : String) : Sql (Option Int) := do
  let raw ← getKv key
  fromExcept (readI64 key raw)

def setKv (key value : String) (nowMs : Int) : Sql Unit := do
  ensure (key ≠ "") (.invalidArgument "key must not be empty")
  ensure (0 < nowMs) (.invalidArgument "now_ms must be > 0")
  statement sqlIo fun d => d.upsertKv key value nowMs

/-- Atomic `+= 1` on a counter; the addition wraps around. -/
def bumpCounter (key : String) (nowMs : Int) : Sql Unit := do
  let current ← getKvI64 key
  setKv key (toString (wrapI64 (current.getD 0 + 1))) nowMs

/-! ## Inside a transaction -/

theorem Fragment.query {α : Type} (f : Db → α) : Fragment sqlIo (query f) :=
  Fragment.statement _

theorem Fragment.ensure (p : Prop) [Decidable p] (e : StorageError) :
    Fragment (D := Db) sqlIo (Lib.ensure p e) :=
  Fragment.fromExcept _

theorem getKvI64_fragment (key : String) : Fragment sqlIo (getKvI64 key) :=
  Fragment.bind (Fragment.query _) fun _ => Fragment.fromExcept _

theorem setKv_fragment (key value : String) (nowMs : Int) :
    Fragment sqlIo (setKv key value nowMs) :=
  Fragment.bind (Fragment.ensure _ _) fun _ =>
    Fragment.bind (Fragment.ensure _ _) fun _ => Fragment.statement _

theorem bumpCounter_fragment (key : String) (nowMs : Int) :
    Fragment sqlIo (bumpCounter key nowMs) :=
  Fragment.bind (getKvI64_fragment key) fun _ => setKv_fragment _ _ _

theorem Preserves.query {α : Type} {P : Db → Prop} (f : Db → α) : Preserves P (query f) := by
  apply Preserves.statement
  rintro d a d' h ⟨⟩
  exact h

@[simp] theorem exec_query {α : Type} (f : Db → α) (d w : Db) :
    exec (query f) ⟨d, some w, []⟩ = (.ok (f w), ⟨d, some w, []⟩) := by
  simp [query]

theorem exec_getKvI64 (key : String) (d w : Db) :
    exec (getKvI64 key) ⟨d, some w, []⟩ =
      (readI64 key ((w.kv key).map KvRow.value), ⟨d, some w, []⟩) := by
  simp only [getKvI64, getKv]
  rw [exec_bind_ok (exec_query _ d w), exec_fromExcept]

/-- `setKv` under a key of the program at a positive time. -/
theorem exec_setKv {key : String} (hkey : key ≠ "") (value : String) {nowMs : Int}
    (h : 0 < nowMs) (d w : Db) :
    exec (setKv key value nowMs) ⟨d, some w, []⟩ =
      (.ok (), ⟨d, some { w with kv := Function.update w.kv key (some ⟨value, nowMs, h⟩) }, []⟩) := by
  simp [setKv, exec_bind, exec_ensure, hkey, h, Db.upsertKv]

theorem exec_setKv_nonpos {key : String} (hkey : key ≠ "") (value : String) {nowMs : Int}
    (h : ¬ 0 < nowMs) (d w : Db) :
    exec (setKv key value nowMs) ⟨d, some w, []⟩ =
      (.error (.invalidArgument "now_ms must be > 0"), ⟨d, some w, []⟩) := by
  simp [setKv, exec_bind, exec_ensure, hkey, h]

/-! ## Counters -/

/-- The counter under `key` has the value `n`; an absent counter is zero. -/
def Counter (kv : String → Option KvRow) (key : String) (n : Nat) : Prop :=
  readI64 key ((kv key).map KvRow.value) = .ok none ∧ n = 0 ∨
    readI64 key ((kv key).map KvRow.value) = .ok (some (n : Int))

theorem Counter.empty (key : String) : Counter Db.empty.kv key 0 := .inl ⟨rfl, rfl⟩

/-- Writes under other keys leave a counter alone. -/
theorem Counter.congr {kv kv' : String → Option KvRow} {key : String} {n : Nat}
    (h : Counter kv key n) (heq : kv' key = kv key) : Counter kv' key n := by
  unfold Counter at h ⊢
  rwa [heq]

theorem Counter.unique {kv : String → Option KvRow} {key : String} {m n : Nat}
    (hm : Counter kv key m) (hn : Counter kv key n) : m = n := by
  rcases hm with ⟨hr, rfl⟩ | hr
  · rcases hn with ⟨-, rfl⟩ | hn
    · rfl
    · rw [hr] at hn; cases hn
  · rcases hn with ⟨hn, -⟩ | hn
    · rw [hr] at hn; cases hn
    · rw [hr] at hn
      injection hn with hn
      injection hn with hn
      omega

/-- The text that `setKv` stores is the one `getKvI64` reads back. -/
theorem readI64_toString (key : String) {x : Int} (h : InI64 x) :
    readI64 key (some (toString x)) = .ok (some x) := by
  simp only [readI64, parseI64_toString h]

/-- The value of a counter as a caller reads it. -/
def total (d : Db) (key : String) : Except StorageError Int :=
  (readI64 key ((d.kv key).map KvRow.value)).map fun v => v.getD 0

theorem Counter.total {d : Db} {key : String} {n : Nat} (h : Counter d.kv key n) :
    total d key = .ok (n : Int) := by
  unfold Storage.total
  rcases h with ⟨hr, rfl⟩ | hr
  · rw [hr]; rfl
  · rw [hr]; rfl

/-- A bump reads `n` and stores `n + 1`, as long as `n + 1` fits. -/
theorem exec_bumpCounter {key : String} (hkey : key ≠ "") {nowMs : Int} (h : 0 < nowMs)
    {d w : Db} {n : Nat} (hn : Counter w.kv key n) (hfit : ((n + 1 : Nat) : Int) ≤ i64Max) :
    ∃ kv', exec (bumpCounter key nowMs) ⟨d, some w, []⟩
        = (.ok (), ⟨d, some { w with kv := kv' }, []⟩) ∧
      Counter kv' key (n + 1) ∧ ∀ other, other ≠ key → kv' other = w.kv other := by
  have hin : InI64 ((n : Int) + 1) := by
    simp only [InI64, i64Min, i64Max] at hfit ⊢
    omega
  have hread : ∃ v : Option Int, readI64 key ((w.kv key).map KvRow.value) = .ok v ∧
      v.getD 0 = (n : Int) := by
    rcases hn with ⟨hr, h0⟩ | hr
    · exact ⟨none, hr, by simp [h0]⟩
    · exact ⟨some n, hr, rfl⟩
  obtain ⟨v, hv, hvn⟩ := hread
  have hget : exec (getKvI64 key) ⟨d, some w, []⟩ = (.ok v, ⟨d, some w, []⟩) := by
    rw [exec_getKvI64, hv]
  refine ⟨Function.update w.kv key (some ⟨toString ((n : Int) + 1), nowMs, h⟩), ?_, .inr ?_, ?_⟩
  · rw [bumpCounter, exec_bind_ok hget, hvn, wrapI64_of_inI64 hin, exec_setKv hkey _ h]
  · rw [Function.update_self]
    exact readI64_toString key hin
  · intro other hother
    exact Function.update_of_ne hother _ _

/-- A bump at a clock that is not positive fails. -/
theorem exec_bumpCounter_nonpos {key : String} (hkey : key ≠ "") {nowMs : Int}
    (h : ¬ 0 < nowMs) (d w : Db) :
    ∃ e, exec (bumpCounter key nowMs) ⟨d, some w, []⟩ = (.error e, ⟨d, some w, []⟩) := by
  cases hr : readI64 key ((w.kv key).map KvRow.value) with
  | error e =>
      refine ⟨e, ?_⟩
      have hget : exec (getKvI64 key) ⟨d, some w, []⟩ = (.error e, ⟨d, some w, []⟩) := by
        rw [exec_getKvI64, hr]
      exact exec_bind_error hget
  | ok v =>
      refine ⟨.invalidArgument "now_ms must be > 0", ?_⟩
      have hget : exec (getKvI64 key) ⟨d, some w, []⟩ = (.ok v, ⟨d, some w, []⟩) := by
        rw [exec_getKvI64, hr]
      rw [bumpCounter, exec_bind_ok hget]
      exact exec_setKv_nonpos hkey _ h d w

end VeSmart.Storage
