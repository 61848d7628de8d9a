import VeSmart.Lib.F64
import VeSmart.Lib.Int64
import VeSmart.Lib.Transaction

set_option autoImplicit false

/-! # The SQLite schema of the collector

The three tables of the version-2 schema (`database.rs`, `MIGRATION_V1` and `MIGRATION_V2`).
A row carries the `CHECK` constraints of its table as fields, and `spool_batch` carries what
`INTEGER PRIMARY KEY AUTOINCREMENT` guarantees: ids increase and never exceed the sequence
counter, so an id is not used twice. A database that violates the schema cannot be built.

`REAL` columns hold exact rationals; `REAL` stores a negative zero as zero.
-/

namespace VeSmart.Storage

open VeSmart.Lib

/-! ## Errors -/

/-- The ways in which a statement fails inside SQLite; `logic` is a table that is missing or
that exists already. -/
inductive SqliteError where
  | io
  | constraint
  | full
  | logic
  deriving DecidableEq, Repr

inductive StorageError where
  | sqlite (e : SqliteError)
  | databaseTooNew (found supported : Int)
  | invalidArgument (message : String)
  | inconsistent (message : String)
  | energyAnchorConflict
  deriving DecidableEq, Repr

/-! ## Rows -/

/-- A row of `collector_state`. -/
structure KvRow where
  value : String
  updatedAtMs : Int
  updated_pos : 0 < updatedAtMs
  deriving DecidableEq

/-- A row of `spool_batch`: one undelivered outbound batch. -/
structure SpoolRow where
  id : Int
  device : String
  createdAtMs : Int
  payload : List UInt8
  attempts : Nat
  nextAttemptAtMs : Int
  created_pos : 0 < createdAtMs
  payload_ne : payload ≠ []
  next_nonneg : 0 ≤ nextAttemptAtMs
  deriving DecidableEq

/-- A row of `energy_state`. -/
structure EnergyRow where
  totalKwh : ℚ
  lastPowerWatts : Option ℚ
  lastSampleAtMs : Option Int
  updatedAtMs : Int
  total_bounds : 0 ≤ totalKwh ∧ totalKwh ≤ 1000000000
  updated_pos : 0 < updatedAtMs
  deriving DecidableEq

/-! ## Tables -/

/-- The table `spool_batch` together with its entry in `sqlite_sequence`. -/
structure SpoolTable where
  rows : List SpoolRow
  seq : Int
  ids_increasing : rows.Pairwise (fun a b => a.id < b.id)
  ids_le_seq : ∀ r ∈ rows, r.id ≤ seq
  seq_bounds : 0 ≤ seq ∧ seq ≤ i64Max
  deriving DecidableEq

/-- The database: `collector_state` and `energy_state` are keyed by their primary keys. -/
structure Db where
  kv : String → Option KvRow
  spool : SpoolTable
  energy : String → Option EnergyRow

def SpoolTable.empty : SpoolTable where
  rows := []
  seq := 0
  ids_increasing := List.Pairwise.nil
  ids_le_seq := by simp
  seq_bounds := by decide

def Db.empty : Db where
  kv := fun _ => none
  spool := SpoolTable.empty
  energy := fun _ => none

theorem SpoolTable.ext_rows {t u : SpoolTable} (hr : t.rows = u.rows) (hs : t.seq = u.seq) :
    t = u := by
  cases t; cases u
  simp_all

theorem SpoolTable.ids_nodup (t : SpoolTable) : (t.rows.map SpoolRow.id).Nodup := by
  rw [List.Nodup, List.pairwise_map]
  exact t.ids_increasing.imp (fun hlt => ne_of_lt hlt)

/-- Rows are identified by their id. -/
theorem SpoolTable.eq_of_id {t : SpoolTable} {a b : SpoolRow} (ha : a ∈ t.rows)
    (hb : b ∈ t.rows) (h : a.id = b.id) : a = b :=
  List.inj_on_of_nodup_map t.ids_nodup ha hb h

/-! ## Statements on `spool_batch` -/

/-- `INSERT INTO spool_batch (device, created_at_ms, payload, attempts, next_attempt_at_ms)
VALUES (?1, ?2, ?3, 0, ?2)`; the new row id is returned. -/
def SpoolTable.insert (t : SpoolTable) (device : String) (createdAtMs : Int)
    (payload : List UInt8) : Except StorageError (Int × SpoolTable) :=
  if hseq : t.seq = i64Max then .error (.sqlite .full)
  else if h : 0 < createdAtMs ∧ payload ≠ [] then
    .ok (t.seq + 1,
      { rows := t.rows ++ [{
          id := t.seq + 1
          device := device
          createdAtMs := createdAtMs
          payload := payload
          attempts := 0
          nextAttemptAtMs := createdAtMs
          created_pos := h.1
          payload_ne := h.2
          next_nonneg := Int.le_of_lt h.1 }]
        seq := t.seq + 1
        ids_increasing := by
          rw [List.pairwise_append]
          refine ⟨t.ids_increasing, List.pairwise_singleton _ _, ?_⟩
          intro a ha b hb
          rw [List.mem_singleton] at hb
          subst hb
          have := t.ids_le_seq a ha
          show a.id < t.seq + 1
          omega
        ids_le_seq := by
          intro r hr
          rcases List.mem_append.mp hr with hr | hr
          · have := t.ids_le_seq r hr; omega
          · rw [List.mem_singleton] at hr
            subst hr
            exact le_refl _
        seq_bounds := by
          have := t.seq_bounds
          omega })
  else .error (.sqlite .constraint)

/-- `DELETE FROM spool_batch WHERE p`; the number of deleted rows is returned. -/
def SpoolTable.deleteWhere (t : SpoolTable) (p : SpoolRow → Bool) : Nat × SpoolTable :=
  (t.rows.countP p,
    { rows := t.rows.filter (fun r => !p r)
      seq := t.seq
      ids_increasing := t.ids_increasing.filter _
      ids_le_seq := fun r hr => t.ids_le_seq r (List.mem_of_mem_filter hr)
      seq_bounds := t.seq_bounds })

/-- The row with a new deadline and `bump` more attempts. -/
def SpoolRow.reschedule (r : SpoolRow) (bump : Nat) (next : Int) (h : 0 ≤ next) : SpoolRow :=
  { r with attempts := r.attempts + bump, nextAttemptAtMs := next, next_nonneg := h }

@[simp] theorem SpoolRow.reschedule_id (r : SpoolRow) (bump : Nat) (next : Int) (h : 0 ≤ next) :
    (r.reschedule bump next h).id = r.id := rfl

/-- `UPDATE spool_batch SET attempts = attempts + bump, next_attempt_at_ms = next WHERE p`; the
number of changed rows is returned. A negative deadline violates the `CHECK` of the first row
it is written to. -/
def SpoolTable.update (t : SpoolTable) (p : SpoolRow → Bool) (bump : Nat) (next : Int) :
    Except StorageError (Nat × SpoolTable) :=
  if h : 0 ≤ next then
    .ok (t.rows.countP p,
      { rows := t.rows.map (fun r => if p r then r.reschedule bump next h else r)
        seq := t.seq
        ids_increasing := by
          rw [List.pairwise_map]
          refine t.ids_increasing.imp (fun {a b} hab => ?_)
          split <;> split <;> exact hab
        ids_le_seq := by
          intro r hr
          obtain ⟨a, ha, rfl⟩ := List.mem_map.mp hr
          have := t.ids_le_seq a ha
          split <;> exact this
        seq_bounds := t.seq_bounds })
  else if t.rows.any p then .error (.sqlite .constraint)
  else .ok (0, t)

/-- Whether `SELECT_READY` returns the row. -/
def SpoolRow.ready (nowMs : Int) (maxAttempts : UInt32) (r : SpoolRow) : Bool :=
  r.nextAttemptAtMs ≤ nowMs && r.attempts < maxAttempts.toNat

/-- The replay order `(created_at_ms, id)`. -/
def SpoolRow.fifoLe (a b : SpoolRow) : Prop :=
  a.createdAtMs < b.createdAtMs ∨ (a.createdAtMs = b.createdAtMs ∧ a.id ≤ b.id)

instance (a b : SpoolRow) : Decidable (a.fifoLe b) := inferInstanceAs (Decidable (_ ∨ _))

instance : Std.Total SpoolRow.fifoLe := ⟨fun a b => by unfold SpoolRow.fifoLe; omega⟩

instance : IsTrans SpoolRow SpoolRow.fifoLe := ⟨fun a b c => by unfold SpoolRow.fifoLe; omega⟩

/-- `SELECT_READY`: the ready rows in the replay order, `LIMIT 1`. -/
def SpoolTable.selectReady (t : SpoolTable) (nowMs : Int) (maxAttempts : UInt32) :
    Option SpoolRow :=
  ((t.rows.filter (SpoolRow.ready nowMs maxAttempts)).insertionSort SpoolRow.fifoLe).head?

/-- `SELECT ... FROM spool_batch WHERE id = ?1`. -/
def SpoolTable.find (t : SpoolTable) (id : Int) : Option SpoolRow :=
  t.rows.find? (fun r => r.id = id)

/-! ## What the statements do to the rows -/

theorem SpoolTable.selectReady_mem {t : SpoolTable} {nowMs : Int} {maxAttempts : UInt32}
    {r : SpoolRow} (h : t.selectReady nowMs maxAttempts = some r) :
    r ∈ t.rows ∧ r.nextAttemptAtMs ≤ nowMs ∧ r.attempts < maxAttempts.toNat := by
  have hm := List.mem_of_head? h
  rw [List.mem_insertionSort, List.mem_filter] at hm
  simpa [SpoolRow.ready] using hm

theorem SpoolTable.find_mem {t : SpoolTable} {id : Int} {r : SpoolRow} (h : t.find id = some r) :
    r ∈ t.rows ∧ r.id = id := by
  refine ⟨List.mem_of_find?_eq_some h, ?_⟩
  simpa using List.find?_some h

theorem SpoolTable.find_of_mem {t : SpoolTable} {r : SpoolRow} (h : r ∈ t.rows) :
    t.find r.id = some r := by
  cases hf : t.find r.id with
  | none =>
      have := List.find?_eq_none.mp hf r h
      simp at this
  | some a =>
      obtain ⟨ha, hid⟩ := SpoolTable.find_mem hf
      exact congrArg some (SpoolTable.eq_of_id ha h hid)

theorem SpoolTable.find_none {t : SpoolTable} {id : Int} (h : t.find id = none) :
    ∀ r ∈ t.rows, r.id ≠ id := by
  intro r hr
  have := List.find?_eq_none.mp h r hr
  simpa using this

@[simp] theorem SpoolTable.deleteWhere_rows (t : SpoolTable) (p : SpoolRow → Bool) :
    (t.deleteWhere p).2.rows = t.rows.filter (fun r => !p r) := rfl

@[simp] theorem SpoolTable.deleteWhere_seq (t : SpoolTable) (p : SpoolRow → Bool) :
    (t.deleteWhere p).2.seq = t.seq := rfl

theorem SpoolTable.deleteWhere_count (t : SpoolTable) (p : SpoolRow → Bool) :
    (t.deleteWhere p).1 = t.rows.countP p := rfl

/-- A statement `WHERE id = ?1` concerns at most one row. -/
theorem SpoolTable.countP_id (t : SpoolTable) (id : Int) :
    t.rows.countP (fun r => r.id = id) = if (t.find id).isSome then 1 else 0 := by
  cases hf : t.find id with
  | none =>
      simp only [Option.isSome_none, Bool.false_eq_true, if_false]
      rw [List.countP_eq_zero]
      intro r hr
      simpa using SpoolTable.find_none hf r hr
  | some a =>
      obtain ⟨ha, hid⟩ := SpoolTable.find_mem hf
      have hcount : t.rows.countP (fun r => r.id = id) = (t.rows.map SpoolRow.id).count id := by
        rw [List.count, List.countP_map]
        congr 1
      have hin : id ∈ t.rows.map SpoolRow.id := List.mem_map.mpr ⟨a, ha, hid⟩
      rw [hcount, List.count_eq_one_of_mem t.ids_nodup hin]
      rfl

theorem SpoolTable.insert_ok {t t' : SpoolTable} {device : String} {createdAtMs id : Int}
    {payload : List UInt8} (h : t.insert device createdAtMs payload = .ok (id, t')) :
    id = t.seq + 1 ∧ t'.seq = t.seq + 1 ∧ ∃ row : SpoolRow, t'.rows = t.rows ++ [row] ∧
      row.id = id ∧ row.device = device ∧ row.createdAtMs = createdAtMs ∧
      row.payload = payload ∧ row.attempts = 0 ∧ row.nextAttemptAtMs = createdAtMs := by
  unfold SpoolTable.insert at h
  split at h
  · cases h
  · split at h
    · cases h
      exact ⟨rfl, rfl, _, rfl, rfl, rfl, rfl, rfl, rfl, rfl⟩
    · cases h

theorem SpoolTable.update_ok {t t' : SpoolTable} {p : SpoolRow → Bool} {bump n : Nat}
    {next : Int} (hn : 0 ≤ next) (h : t.update p bump next = .ok (n, t')) :
    n = t.rows.countP p ∧ t'.seq = t.seq ∧
      t'.rows = t.rows.map (fun r => if p r then r.reschedule bump next hn else r) := by
  rw [SpoolTable.update, dif_pos hn] at h
  cases h
  exact ⟨rfl, rfl, rfl⟩

end VeSmart.Storage
