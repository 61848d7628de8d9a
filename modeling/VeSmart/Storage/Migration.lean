import VeSmart.Lib.Ladder
import VeSmart.Storage.KeyValue

set_option autoImplicit false

/-! # The schema migration (`victron-storage/src/database.rs`)

`migrate` brings a database file to the schema of this program: one transaction for each
version, made of the statements of that version's script and the write of `user_version`. A
`DbFile` is what such a file can hold at any of the versions: every table may be missing, and
`energy_state` comes with one of two `CHECK` constraints. A table carries that its rows satisfy
its constraints.

An interruption is a statement that fails, also `BEGIN` or `COMMIT`: it ends the run, and what
is committed by then is what the next run finds. So each transaction is there as a whole or
not at all. -/

namespace VeSmart.Storage

open VeSmart.Lib

/-! ## Tables -/

/-- A value of a `REAL` column; SQLite has no NaN. -/
inductive SqlReal where
  | finite (q : ℚ)
  | infinite (negative : Bool)
  deriving DecidableEq

/-- A row of `collector_state` with its key. -/
structure KvStored where
  key : String
  value : String
  updatedAtMs : Int
  deriving DecidableEq

/-- The table `collector_state`. -/
structure KvTable where
  rows : List KvStored
  updated_pos : ∀ r ∈ rows, 0 < r.updatedAtMs
  keys_nodup : (rows.map KvStored.key).Nodup

/-- A row of `energy_state`, before any `CHECK`. -/
structure EnergyStored where
  device : String
  totalKwh : ℚ
  lastPowerWatts : Option SqlReal
  lastSampleAtMs : Option Int
  updatedAtMs : Int
  deriving DecidableEq

/-- The `CHECK` on `total_kwh`: `BETWEEN -1.0e6 AND 1.0e9` in the initial schema,
`total_kwh >= 0.0 AND total_kwh <= 1.0e9` since. -/
inductive TotalCheck where
  | legacy
  | nonNegative
  deriving DecidableEq

def TotalCheck.Admits : TotalCheck → ℚ → Prop
  | .legacy, total => -1000000 ≤ total ∧ total ≤ 1000000000
  | .nonNegative, total => 0 ≤ total ∧ total ≤ 1000000000

instance (check : TotalCheck) (total : ℚ) : Decidable (check.Admits total) :=
  match check with
  | .legacy => inferInstanceAs (Decidable (_ ∧ _))
  | .nonNegative => inferInstanceAs (Decidable (_ ∧ _))

/-- A table of energy states, under either of its names. -/
structure EnergyTable where
  check : TotalCheck
  rows : List EnergyStored
  admitted : ∀ r ∈ rows, check.Admits r.totalKwh ∧ 0 < r.updatedAtMs
  devices_nodup : (rows.map EnergyStored.device).Nodup

def KvTable.empty : KvTable where
  rows := []
  updated_pos := fun _ h => absurd h List.not_mem_nil
  keys_nodup := List.nodup_nil

def EnergyTable.empty (check : TotalCheck) : EnergyTable where
  check := check
  rows := []
  admitted := fun _ h => absurd h List.not_mem_nil
  devices_nodup := List.nodup_nil

/-- The new row of an `INSERT` satisfies the constraints of the table. -/
def EnergyTable.Accepts (t : EnergyTable) (r : EnergyStored) : Prop :=
  (t.check.Admits r.totalKwh ∧ 0 < r.updatedAtMs) ∧ r.device ∉ t.rows.map EnergyStored.device

instance (t : EnergyTable) (r : EnergyStored) : Decidable (t.Accepts r) :=
  inferInstanceAs (Decidable (_ ∧ _))

theorem EnergyTable.Accepts.admitted {t : EnergyTable} {r : EnergyStored} (h : t.Accepts r) :
    ∀ x ∈ t.rows ++ [r], t.check.Admits x.totalKwh ∧ 0 < x.updatedAtMs := by
  intro x hx
  rcases List.mem_append.mp hx with hx | hx
  · exact t.admitted x hx
  · rw [List.mem_singleton.mp hx]
    exact h.1

theorem EnergyTable.Accepts.nodup {t : EnergyTable} {r : EnergyStored} (h : t.Accepts r) :
    ((t.rows ++ [r]).map EnergyStored.device).Nodup := by
  rw [List.map_append, List.nodup_append]
  refine ⟨t.devices_nodup, List.nodup_singleton _, ?_⟩
  intro a ha b hb hab
  rw [List.map_singleton, List.mem_singleton] at hb
  exact h.2 (hb ▸ hab ▸ ha)

/-- One row of an `INSERT`. -/
def EnergyTable.insert (t : EnergyTable) (r : EnergyStored) : Except StorageError EnergyTable :=
  if h : t.Accepts r then .ok ⟨t.check, t.rows ++ [r], h.admitted, h.nodup⟩
  else .error (.sqlite .constraint)

/-- `INSERT INTO ... SELECT`: the rows in turn. -/
def EnergyTable.insertAll (t : EnergyTable) : List EnergyStored → Except StorageError EnergyTable
  | [] => .ok t
  | r :: rows =>
      match t.insert r with
      | .ok t' => t'.insertAll rows
      | .error e => .error e

/-- A database file: the version it declares and the tables it has. -/
structure DbFile where
  userVersion : Int
  collectorState : Option KvTable
  spoolBatch : Option SpoolTable
  /-- `idx_spool_batch_fifo` -/
  fifoIndex : Bool
  energyState : Option EnergyTable
  energyStateV2 : Option EnergyTable

/-! ## Scripts -/

/-- A statement of a migration script. -/
inductive ScriptStatement where
  | createCollectorState
  | createSpoolBatch
  | createFifoIndex
  | createEnergyState
  | createEnergyStateV2
  | copyEnergyState
  | dropEnergyState
  | renameEnergyStateV2
  deriving DecidableEq, Repr

/-- What a statement does to the file. `CREATE TABLE` fails on a table that exists unless it
says `IF NOT EXISTS`; the other statements fail on a table that does not exist. -/
def ScriptStatement.run : ScriptStatement → DbFile → Except StorageError DbFile
  | .createCollectorState, d =>
      .ok { d with collectorState := some (d.collectorState.getD KvTable.empty) }
  | .createSpoolBatch, d =>
      .ok { d with spoolBatch := some (d.spoolBatch.getD SpoolTable.empty) }
  | .createFifoIndex, d =>
      match d.spoolBatch with
      | none => .error (.sqlite .logic)
      | some _ => .ok { d with fifoIndex := true }
  | .createEnergyState, d =>
      .ok { d with energyState := some (d.energyState.getD (EnergyTable.empty .nonNegative)) }
  | .createEnergyStateV2, d =>
      match d.energyStateV2 with
      | some _ => .error (.sqlite .logic)
      | none => .ok { d with energyStateV2 := some (EnergyTable.empty .nonNegative) }
  | .copyEnergyState, d =>
      match d.energyStateV2, d.energyState with
      | some target, some source =>
          match target.insertAll source.rows with
          | .ok copied => .ok { d with energyStateV2 := some copied }
          | .error e => .error e
      | _, _ => .error (.sqlite .logic)
  | .dropEnergyState, d =>
      match d.energyState with
      | none => .error (.sqlite .logic)
      | some _ => .ok { d with energyState := none }
  | .renameEnergyStateV2, d =>
      match d.energyStateV2, d.energyState with
      | some t, none => .ok { d with energyState := some t, energyStateV2 := none }
      | _, _ => .error (.sqlite .logic)

/-- `MIGRATION_V1` -/
def migrationV1 : List ScriptStatement :=
  [.createCollectorState, .createSpoolBatch, .createFifoIndex, .createEnergyState]

/-- `MIGRATION_V2` -/
def migrationV2 : List ScriptStatement :=
  [.createEnergyStateV2, .copyEnergyState, .dropEnergyState, .renameEnergyStateV2]

/-- `MIGRATIONS`: the script at index `i` migrates to version `i + 1`. -/
def migrations : List (List ScriptStatement) := [migrationV1, migrationV2]

/-- Highest schema version this program migrates to. -/
def schemaVersion : Int := migrations.length

/-! ## `migrate` -/

/-- An operation on a connection to a database file. -/
abbrev FileSql (α : Type) := Prog (Connection DbFile) StorageError α

/-- `execute_batch` -/
def executeBatch : List ScriptStatement → FileSql Unit
  | [] => pure ()
  | s :: rest => do
      statement sqlIo fun d => (s.run d).map fun d' => ((), d')
      executeBatch rest

/-- `PRAGMA user_version = target` -/
def setUserVersion (target : Int) : FileSql Unit :=
  statement sqlIo fun d => .ok ((), { d with userVersion := target })

/-- The transaction of one migration, given its script and the index of the script. -/
def applyMigration (m : List ScriptStatement × Nat) : FileSql Unit :=
  transaction sqlIo do
    executeBatch m.1
    setUserVersion (m.2 + 1)
    commitTx sqlIo

/-- `current as usize`, on a 64-bit target. -/
def asUsize (n : Int) : Nat := (n % 18446744073709551616).toNat

/-- `migrate` once it knows the version of the file. -/
def migrateFrom (current : Int) : FileSql Unit :=
  if schemaVersion < current then throw (.databaseTooNew current schemaVersion)
  else if current = schemaVersion then pure ()
  else climb applyMigration (migrations.zipIdx.drop (asUsize current))

def migrate : FileSql Unit := do
  let current ← statement sqlIo fun d => .ok (d.userVersion, d)
  migrateFrom current

/-! ## Copying a table -/

theorem EnergyTable.insertAll_ok {t t' : EnergyTable} {rows : List EnergyStored}
    (h : t.insertAll rows = .ok t') : t'.check = t.check ∧ t'.rows = t.rows ++ rows := by
  induction rows generalizing t with
  | nil =>
      cases h
      exact ⟨rfl, by simp⟩
  | cons r rows ih =>
      rw [EnergyTable.insertAll, EnergyTable.insert] at h
      by_cases hr : t.Accepts r
      · rw [dif_pos hr] at h
        obtain ⟨hcheck, hrows⟩ := ih h
        exact ⟨hcheck, by simp [hrows]⟩
      · rw [dif_neg hr] at h
        cases h

/-- Rows that satisfy the `CHECK` and have devices of their own are all inserted. -/
theorem EnergyTable.insertAll_admitted {t : EnergyTable} {rows : List EnergyStored}
    (hcheck : ∀ r ∈ rows, t.check.Admits r.totalKwh ∧ 0 < r.updatedAtMs)
    (hnodup : ((t.rows ++ rows).map EnergyStored.device).Nodup) :
    ∃ t', t.insertAll rows = .ok t' := by
  induction rows generalizing t with
  | nil => exact ⟨t, rfl⟩
  | cons r rows ih =>
      have hfresh : r.device ∉ t.rows.map EnergyStored.device := by
        intro hin
        rw [List.map_append, List.nodup_append] at hnodup
        exact hnodup.2.2 r.device hin r.device (by simp) rfl
      have hr : t.Accepts r := ⟨hcheck r List.mem_cons_self, hfresh⟩
      rw [EnergyTable.insertAll, EnergyTable.insert, dif_pos hr]
      apply ih
      · exact fun x hx => hcheck x (List.mem_cons_of_mem r hx)
      · simpa using hnodup

/-- A copy into a table that refuses one of the rows fails. -/
theorem EnergyTable.insertAll_refused {t : EnergyTable} {rows : List EnergyStored}
    {r : EnergyStored} (hr : r ∈ rows) (hrefused : ¬ t.check.Admits r.totalKwh) :
    ∃ e, t.insertAll rows = .error e := by
  rcases h : t.insertAll rows with e | t'
  · exact ⟨e, rfl⟩
  · obtain ⟨hcheck, hrows⟩ := EnergyTable.insertAll_ok h
    have hin : r ∈ t'.rows := by
      rw [hrows]
      exact List.mem_append_right _ hr
    have hadmits := (t'.admitted r hin).1
    rw [hcheck] at hadmits
    exact absurd hadmits hrefused

/-! ## Scripts inside their transactions -/

/-- The statements of a script in turn, without faults. -/
def runScript : List ScriptStatement → DbFile → Except StorageError DbFile
  | [], d => .ok d
  | s :: rest, d =>
      match s.run d with
      | .ok d' => runScript rest d'
      | .error e => .error e

theorem executeBatch_fragment (script : List ScriptStatement) :
    Fragment sqlIo (executeBatch script) := by
  induction script with
  | nil => exact Fragment.pure ()
  | cons s rest ih => exact Fragment.bind (Fragment.statement _) fun _ => ih

theorem applyMigration_allOrNothing (m : List ScriptStatement × Nat) :
    AllOrNothing sqlIo (applyMigration m) := by
  apply transaction_allOrNothing
  apply Body.bind (executeBatch_fragment m.1)
  intro _
  exact Body.bind (Fragment.statement _) fun _ => Body.commit_last

theorem exec_executeBatch_ok {script : List ScriptStatement} {w w' : DbFile}
    (h : runScript script w = .ok w') (d : DbFile) :
    exec (executeBatch script) ⟨d, some w, []⟩ = (.ok (), ⟨d, some w', []⟩) := by
  induction script generalizing w with
  | nil =>
      cases h
      rfl
  | cons s rest ih =>
      rw [runScript] at h
      rcases hs : s.run w with e | w₁
      · rw [hs] at h
        cases h
      · rw [hs] at h
        have hstep : exec (statement sqlIo fun d => (s.run d).map fun d' => ((), d'))
            ⟨d, some w, []⟩ = (.ok (), ⟨d, some w₁, []⟩) := by
          rw [exec_statement_open, hs]
          rfl
        rw [executeBatch, exec_bind_ok hstep]
        exact ih h

theorem exec_executeBatch_error {script : List ScriptStatement} {w : DbFile} {e : StorageError}
    (h : runScript script w = .error e) (d : DbFile) :
    ∃ w', exec (executeBatch script) ⟨d, some w, []⟩ = (.error e, ⟨d, some w', []⟩) := by
  induction script generalizing w with
  | nil => cases h
  | cons s rest ih =>
      rw [runScript] at h
      rcases hs : s.run w with e' | w₁
      · rw [hs] at h
        cases h
        have hstep : exec (statement sqlIo fun d => (s.run d).map fun d' => ((), d'))
            ⟨d, some w, []⟩ = (.error e, ⟨d, some w, []⟩) := by
          rw [exec_statement_open, hs]
          rfl
        exact ⟨w, exec_bind_error hstep⟩
      · rw [hs] at h
        have hstep : exec (statement sqlIo fun d => (s.run d).map fun d' => ((), d'))
            ⟨d, some w, []⟩ = (.ok (), ⟨d, some w₁, []⟩) := by
          rw [exec_statement_open, hs]
          rfl
        rw [executeBatch, exec_bind_ok hstep]
        exact ih h

theorem quiet_applyMigration_ok {m : List ScriptStatement × Nat} {d d' : DbFile}
    (h : runScript m.1 d = .ok d') :
    quiet (applyMigration m) d = (.ok (), { d' with userVersion := m.2 + 1 }) := by
  rw [applyMigration, quiet_transaction, exec_bind_ok (exec_executeBatch_ok h d)]
  rfl

theorem quiet_applyMigration_error {m : List ScriptStatement × Nat} {d : DbFile}
    {e : StorageError} (h : runScript m.1 d = .error e) :
    quiet (applyMigration m) d = (.error e, d) := by
  obtain ⟨w', hexec⟩ := exec_executeBatch_error h d
  rw [applyMigration, quiet_transaction, exec_bind_error hexec]

/-- A migration that succeeds leaves the version after its own. -/
theorem applyMigration_version {m : List ScriptStatement × Nat} {d d' : DbFile}
    (h : quiet (applyMigration m) d = (.ok (), d')) : d'.userVersion = m.2 + 1 := by
  rcases hs : runScript m.1 d with e | w
  · rw [quiet_applyMigration_error hs] at h
    cases h
  · rw [quiet_applyMigration_ok hs] at h
    cases h
    rfl

/-- A migration that fails leaves the file as it was. -/
theorem applyMigration_rollback {m : List ScriptStatement × Nat} {d d' : DbFile}
    {e : StorageError} (h : quiet (applyMigration m) d = (.error e, d')) : d' = d := by
  rcases hs : runScript m.1 d with e' | w
  · rw [quiet_applyMigration_error hs] at h
    cases h
    rfl
  · rw [quiet_applyMigration_ok hs] at h
    cases h

/-! ## What the two scripts do -/

theorem run_migrationV1 (d : DbFile) :
    runScript migrationV1 d = .ok { d with
      collectorState := some (d.collectorState.getD KvTable.empty)
      spoolBatch := some (d.spoolBatch.getD SpoolTable.empty)
      fifoIndex := true
      energyState := some (d.energyState.getD (EnergyTable.empty .nonNegative)) } := rfl

/-- The rebuild is decided by the copy. -/
theorem run_migrationV2 {d : DbFile} {t : EnergyTable} (ht : d.energyState = some t)
    (hv2 : d.energyStateV2 = none) :
    runScript migrationV2 d =
      ((EnergyTable.empty .nonNegative).insertAll t.rows).map
        fun copied => { d with energyState := some copied } := by
  simp only [migrationV2, runScript, ScriptStatement.run, ht, hv2]
  cases (EnergyTable.empty .nonNegative).insertAll t.rows with
  | error e => rfl
  | ok copied =>
      simp only [Except.map, ← hv2]

/-- Every total of the table is one that the hardened `CHECK` admits. -/
def EnergyTable.Legal (t : EnergyTable) : Prop :=
  ∀ r ∈ t.rows, TotalCheck.nonNegative.Admits r.totalKwh

theorem run_migrationV2_legal {d : DbFile} {t : EnergyTable} (ht : d.energyState = some t)
    (hv2 : d.energyStateV2 = none) (hlegal : t.Legal) :
    ∃ copied : EnergyTable, copied.check = .nonNegative ∧ copied.rows = t.rows ∧
      runScript migrationV2 d = .ok { d with energyState := some copied } := by
  have hcheck : ∀ r ∈ t.rows, (EnergyTable.empty .nonNegative).check.Admits r.totalKwh ∧
      0 < r.updatedAtMs := fun r hr => ⟨hlegal r hr, (t.admitted r hr).2⟩
  obtain ⟨copied, hcopied⟩ :=
    EnergyTable.insertAll_admitted (t := .empty .nonNegative) hcheck t.devices_nodup
  obtain ⟨hc, hrows⟩ := EnergyTable.insertAll_ok hcopied
  refine ⟨copied, hc, hrows, ?_⟩
  rw [run_migrationV2 ht hv2, hcopied]
  rfl

theorem run_migrationV2_illegal {d : DbFile} {t : EnergyTable} (ht : d.energyState = some t)
    (hv2 : d.energyStateV2 = none) {r : EnergyStored} (hr : r ∈ t.rows)
    (hneg : r.totalKwh < 0) : ∃ e, runScript migrationV2 d = .error e := by
  have hrefused : ¬ (EnergyTable.empty .nonNegative).check.Admits r.totalKwh :=
    fun hadmits => absurd hadmits.1 (not_le.mpr hneg)
  obtain ⟨e, he⟩ := EnergyTable.insertAll_refused hr hrefused
  refine ⟨e, ?_⟩
  rw [run_migrationV2 ht hv2, he]
  rfl

/-! ## Runs of `migrate` -/

/-- Reading the version can fail; then comes the rest of `migrate`. -/
theorem exec_migrate (d : DbFile) (fs : List Bool) :
    ∃ fs', exec migrate ⟨d, none, fs⟩ = (.error sqlIo, ⟨d, none, fs'⟩) ∨
      exec migrate ⟨d, none, fs⟩ = exec (migrateFrom d.userVersion) ⟨d, none, fs'⟩ := by
  have hread : AllOrNothing sqlIo
      (statement sqlIo fun d : DbFile => .ok (d.userVersion, d)) := statement_allOrNothing _
  obtain ⟨fs', hrun | hrun⟩ := hread.exec_cases d fs
  · rw [quiet_statement] at hrun
    exact ⟨fs', .inr (exec_bind_ok hrun)⟩
  · exact ⟨fs', .inl (exec_bind_error hrun)⟩

theorem quiet_migrate (d : DbFile) : quiet migrate d = quiet (migrateFrom d.userVersion) d := rfl

/-- A file of a newer version is refused. -/
theorem migrateFrom_newer {current : Int} (h : schemaVersion < current) :
    migrateFrom current = throw (.databaseTooNew current schemaVersion) := by
  rw [migrateFrom, if_pos h]

/-- A file of the current version has nothing pending. -/
theorem migrateFrom_current : migrateFrom schemaVersion = pure () := by
  rw [migrateFrom, if_neg (lt_irrefl _), if_pos rfl]

/-- A file of an older version climbs the migrations after its own. -/
theorem migrateFrom_older {current : Int} (h : current < schemaVersion) :
    migrateFrom current = climb applyMigration (migrations.zipIdx.drop (asUsize current)) := by
  rw [migrateFrom, if_neg (not_lt.mpr h.le), if_neg (ne_of_lt h)]

theorem asUsize_natCast {n : Nat} (h : n ≤ migrations.length) : asUsize n = n := by
  have hlen : migrations.length = 2 := rfl
  unfold asUsize
  omega

/-- From a version of this program on, `migrate` climbs the migrations after that version. -/
theorem quiet_migrate_at {d : DbFile} {n : Nat} (hv : d.userVersion = n)
    (hn : n ≤ migrations.length) :
    quiet migrate d = quiet (climb applyMigration (migrations.zipIdx.drop n)) d := by
  rw [quiet_migrate, hv]
  rcases Nat.lt_or_eq_of_le hn with hlt | rfl
  · have hold : (n : Int) < schemaVersion := Int.ofNat_lt.mpr hlt
    rw [migrateFrom_older hold, asUsize_natCast hn]
  · rw [show ((migrations.length : Nat) : Int) = schemaVersion from rfl, migrateFrom_current]
    rfl

/-- A migration on the way has the index at which the ones after it begin. -/
theorem drop_zipIdx_suffix {α : Type} {l : List α} {m : α × Nat} {rest : List (α × Nat)}
    (h : m :: rest <:+ l.zipIdx) : m.2 < l.length ∧ rest = l.zipIdx.drop (m.2 + 1) := by
  obtain ⟨front, hfront⟩ := h
  have hat : l.zipIdx[front.length]? = some m := by
    rw [← hfront]
    simp
  have hindex : m.2 = front.length := by
    rw [List.getElem?_zipIdx] at hat
    obtain ⟨a, -, rfl⟩ := Option.map_eq_some_iff.mp hat
    simp
  have hlength := congrArg List.length hfront
  rw [List.length_append, List.length_cons, List.length_zipIdx] at hlength
  refine ⟨by omega, ?_⟩
  rw [hindex, ← hfront, ← List.drop_drop]
  simp

/-- An interrupted `migrate` is completed by the next one. -/
theorem migrate_resumable : Resumable migrate := by
  intro d fs
  obtain ⟨fs', hrun | hrun⟩ := exec_migrate d fs
  · rw [leaves, hrun]
  · rw [leaves, hrun]
    rcases lt_trichotomy d.userVersion schemaVersion with hold | hcur | hnew
    · -- the pending migrations: each leaves the version at which the next run goes on
      rw [migrateFrom_older hold]
      refine climb_resumes (fun m _ => applyMigration_allOrNothing m) ?_ ?_ fs' ?_
      · exact fun m _ d d' e h => applyMigration_rollback h
      · intro m rest hsuffix d₁ d₂ hm
        obtain ⟨hlt, hrest⟩ := drop_zipIdx_suffix (hsuffix.trans (List.drop_suffix _ _))
        rw [hrest]
        exact quiet_migrate_at (applyMigration_version hm) hlt
      · rw [quiet_migrate, migrateFrom_older hold]
    · rw [hcur, migrateFrom_current]
      rfl
    · rw [migrateFrom_newer hnew]
      rfl

/-! ## Where a migration starts and ends -/

/-- A file without any table. -/
def DbFile.blank : DbFile where
  userVersion := 0
  collectorState := none
  spoolBatch := none
  fifoIndex := false
  energyState := none
  energyStateV2 := none

def DbFile.kvRows (d : DbFile) : List KvStored := (d.collectorState.map KvTable.rows).getD []

def DbFile.spoolRows (d : DbFile) : List SpoolRow := (d.spoolBatch.map SpoolTable.rows).getD []

def DbFile.energyRows (d : DbFile) : List EnergyStored :=
  (d.energyState.map EnergyTable.rows).getD []

/-- The files that this program and its predecessors leave: an empty one, one of version 1 with
either of the `energy_state` tables, and one of version 2. -/
inductive DbFile.Known (d : DbFile) : Prop where
  | blank (h : d = DbFile.blank)
  | version1 (t : EnergyTable) (hv : d.userVersion = 1) (ht : d.energyState = some t)
      (hv2 : d.energyStateV2 = none)
  | version2 (hv : d.userVersion = 2)

structure DbFile.SameRows (d d' : DbFile) : Prop where
  kv : d'.kvRows = d.kvRows
  spool : d'.spoolRows = d.spoolRows
  energy : d'.energyRows = d.energyRows

/-- The tables of the program and the index of the spool are there. -/
structure DbFile.HasTables (d : DbFile) : Prop where
  kv : d.collectorState.isSome = true
  spool : d.spoolBatch.isSome = true
  index : d.fifoIndex = true
  energy : d.energyState.isSome = true

/-- The energies are under the hardened `CHECK`, and nothing is left of the rebuild. -/
structure DbFile.Hardened (d : DbFile) : Prop where
  check : d.energyState.map EnergyTable.check = some .nonNegative
  rebuilt : d.energyStateV2 = none

/-- `d'` is `d` at version 2. -/
structure DbFile.Upgraded (d d' : DbFile) : Prop where
  version : d'.userVersion = 2
  rows : d.SameRows d'
  /-- An empty file gets them all; the other scripts rely on them. -/
  tables : d.userVersion = 0 ∨ d.HasTables → d'.HasTables
  hardened : d.userVersion ≠ 2 ∨ d.Hardened → d'.Hardened

/-- Version 2 has the hardened `CHECK`; nothing else of a file of version 1 is touched. -/
theorem quiet_migrate_version1 {d : DbFile} {t : EnergyTable} (hv : d.userVersion = 1)
    (ht : d.energyState = some t) (hv2 : d.energyStateV2 = none) (hlegal : t.Legal) :
    ∃ copied : EnergyTable, copied.check = .nonNegative ∧ copied.rows = t.rows ∧
      quiet migrate d =
        (.ok (), { d with userVersion := 2, energyState := some copied }) := by
  obtain ⟨copied, hcheck, hrows, hscript⟩ := run_migrationV2_legal ht hv2 hlegal
  have hlast : quiet (applyMigration (migrationV2, 1)) d =
      (.ok (), { d with userVersion := 2, energyState := some copied }) := by
    rw [quiet_applyMigration_ok hscript]
    rfl
  have hdrop : migrations.zipIdx.drop 1 = [(migrationV2, 1)] := rfl
  refine ⟨copied, hcheck, hrows, ?_⟩
  rw [quiet_migrate_at hv (by decide), hdrop,
    quiet_climb_ok (applyMigration_allOrNothing _) hlast, quiet_climb_nil]

theorem quiet_migrate_blank :
    ∃ copied : EnergyTable, copied.check = .nonNegative ∧ copied.rows = [] ∧
      quiet migrate DbFile.blank =
        (.ok (), ⟨2, some KvTable.empty, some SpoolTable.empty, true, some copied, none⟩) := by
  have hdrop : migrations.zipIdx.drop 0 = [(migrationV1, 0), (migrationV2, 1)] := rfl
  have hfirst : quiet (applyMigration (migrationV1, 0)) DbFile.blank =
      (.ok (), ⟨1, some KvTable.empty, some SpoolTable.empty, true,
        some (EnergyTable.empty .nonNegative), none⟩) := by
    rw [quiet_applyMigration_ok (run_migrationV1 _)]
    rfl
  have hlegal : (EnergyTable.empty .nonNegative).Legal := fun r hr => absurd hr List.not_mem_nil
  -- after the first migration the file is one of version 1
  obtain ⟨copied, hcheck, hrows, hrest⟩ := quiet_migrate_version1
    (d := ⟨1, some KvTable.empty, some SpoolTable.empty, true,
      some (EnergyTable.empty .nonNegative), none⟩) rfl rfl rfl hlegal
  refine ⟨copied, hcheck, hrows, ?_⟩
  rw [quiet_migrate_at (n := 0) rfl (by decide), hdrop,
    quiet_climb_ok (applyMigration_allOrNothing _) hfirst, ← hrest]
  exact (quiet_migrate_at (n := 1) rfl (by decide)).symm

theorem quiet_migrate_version2 {d : DbFile} (hv : d.userVersion = 2) :
    quiet migrate d = (.ok (), d) := by
  rw [quiet_migrate, hv]
  exact congrArg (fun x => quiet x d) migrateFrom_current

/-- A file of the current or a newer version is left alone, whatever fails. -/
theorem leaves_migrate_recent {d : DbFile} (h : schemaVersion ≤ d.userVersion) (fs : List Bool) :
    leaves migrate d fs = d := by
  obtain ⟨fs', hrun | hrun⟩ := exec_migrate d fs
  · rw [leaves, hrun]
  · rw [leaves, hrun]
    rcases h.eq_or_lt with hcur | hnew
    · rw [← hcur, migrateFrom_current]
      rfl
    · rw [migrateFrom_newer hnew]
      rfl

/-- A negative total stops every run at the second migration, which it rolls back. -/
theorem exec_migrate_negative {d : DbFile} {t : EnergyTable} (hv : d.userVersion = 1)
    (ht : d.energyState = some t) (hv2 : d.energyStateV2 = none) {r : EnergyStored}
    (hr : r ∈ t.rows) (hneg : r.totalKwh < 0) (fs : List Bool) :
    ∃ e fs', exec migrate ⟨d, none, fs⟩ = (.error e, ⟨d, none, fs'⟩) := by
  obtain ⟨e, hscript⟩ := run_migrationV2_illegal ht hv2 hr hneg
  have hold : d.userVersion < schemaVersion := by rw [hv]; decide
  have hpending : migrations.zipIdx.drop (asUsize d.userVersion) = [(migrationV2, 1)] := by
    rw [hv]
    rfl
  obtain ⟨fs₁, hrun | hrun⟩ := exec_migrate d fs
  · exact ⟨sqlIo, fs₁, hrun⟩
  · rw [migrateFrom_older hold, hpending] at hrun
    obtain ⟨fs₂, hclimb | ⟨e', d', hq, hclimb⟩ | ⟨d', hq, -⟩⟩ := exec_climb_cons (migrationV2, 1)
      [] (applyMigration_allOrNothing (migrationV2, 1)) d fs₁
    · exact ⟨sqlIo, fs₂, by rw [hrun, hclimb]⟩
    · have hd : d' = d := applyMigration_rollback hq
      exact ⟨e', fs₂, by rw [hrun, hclimb, hd]⟩
    · rw [quiet_applyMigration_error hscript] at hq
      cases hq

/-- The rebuild of `energy_state` touches no other table. -/
theorem upgraded_version1 {d : DbFile} {t copied : EnergyTable} (hv : d.userVersion = 1)
    (ht : d.energyState = some t) (hv2 : d.energyStateV2 = none)
    (hcheck : copied.check = .nonNegative) (hrows : copied.rows = t.rows) :
    d.Upgraded { d with userVersion := 2, energyState := some copied } where
  version := rfl
  rows := by
    refine ⟨rfl, rfl, ?_⟩
    rw [DbFile.energyRows, DbFile.energyRows, ht]
    exact hrows
  tables := by
    rintro (hzero | htables)
    · omega
    · exact ⟨htables.kv, htables.spool, htables.index, rfl⟩
  hardened _ := ⟨congrArg some hcheck, hv2⟩

/-- An uninterrupted run brings a known file with legal totals to version 2, with its rows. -/
theorem quiet_migrate_known {d : DbFile} (hknown : d.Known)
    (hlegal : ∀ r ∈ d.energyRows, 0 ≤ r.totalKwh ∧ r.totalKwh ≤ 1000000000) :
    ∃ d', quiet migrate d = (.ok (), d') ∧ d.Upgraded d' := by
  rcases hknown with rfl | ⟨t, hv, ht, hv2⟩ | hv
  · obtain ⟨copied, hcheck, hrows, hrun⟩ := quiet_migrate_blank
    exact ⟨_, hrun, rfl, ⟨rfl, rfl, hrows⟩, fun _ => ⟨rfl, rfl, rfl, rfl⟩,
      fun _ => ⟨congrArg some hcheck, rfl⟩⟩
  · have ht_legal : t.Legal := by
      intro r hr
      apply hlegal r
      rw [DbFile.energyRows, ht]
      exact hr
    obtain ⟨copied, hcheck, hrows, hrun⟩ := quiet_migrate_version1 hv ht hv2 ht_legal
    exact ⟨_, hrun, upgraded_version1 hv ht hv2 hcheck hrows⟩
  · refine ⟨d, quiet_migrate_version2 hv, hv, ⟨rfl, rfl, rfl⟩, ?_, ?_⟩
    · rintro (hzero | htables)
      · omega
      · exact htables
    · rintro (hother | hhardened)
      · exact absurd hv hother
      · exact hhardened

/-- Whatever interrupted the runs before: a run without an interruption completes the migration
of a known file with legal totals, has the tables of version 2 and loses no row; a negative total
makes every run fail and changes nothing; a file of a newer version is refused as it is; one of
version 2 stays as it is. -/
theorem migrate_crashSafe (d : DbFile) (runs : List (List Bool)) :
    (d.Known → (∀ r ∈ d.energyRows, 0 ≤ r.totalKwh ∧ r.totalKwh ≤ 1000000000) →
      ∃ d', quiet migrate (afterRuns migrate d runs) = (.ok (), d') ∧ d.Upgraded d') ∧
    (d.Known → d.userVersion = 1 → (∃ r ∈ d.energyRows, r.totalKwh < 0) →
      afterRuns migrate d runs = d ∧
        ∀ fs, ∃ e fs', exec migrate ⟨d, none, fs⟩ = (.error e, ⟨d, none, fs'⟩)) ∧
    (schemaVersion < d.userVersion →
      afterRuns migrate d runs = d ∧
        quiet migrate d = (.error (.databaseTooNew d.userVersion schemaVersion), d)) ∧
    (d.userVersion = 2 →
      afterRuns migrate d runs = d ∧ quiet migrate d = (.ok (), d)) := by
  refine ⟨?_, ?_, ?_, ?_⟩
  · intro hknown hlegal
    rw [migrate_resumable.afterRuns]
    exact quiet_migrate_known hknown hlegal
  · rintro hknown hv ⟨r, hr, hneg⟩
    rcases hknown with rfl | ⟨t, -, ht, hv2⟩ | hv'
    · cases hv
    · rw [DbFile.energyRows, ht] at hr
      have hfails := exec_migrate_negative hv ht hv2 hr hneg
      refine ⟨afterRuns_fixed (fun fs => ?_) runs, hfails⟩
      obtain ⟨e, fs', hrun⟩ := hfails fs
      rw [leaves, hrun]
    · omega
  · intro hnew
    refine ⟨afterRuns_fixed (leaves_migrate_recent hnew.le) runs, ?_⟩
    rw [quiet_migrate, migrateFrom_newer hnew]
    rfl
  · intro hv
    have hcur : schemaVersion ≤ d.userVersion := by rw [hv]; decide
    exact ⟨afterRuns_fixed (leaves_migrate_recent hcur) runs, quiet_migrate_version2 hv⟩

/-- A file of the initial schema with one device. -/
def legacyFile (device : String) (total : ℚ) (h : TotalCheck.legacy.Admits total) : DbFile where
  userVersion := 1
  collectorState := none
  spoolBatch := none
  fifoIndex := false
  energyState := some
    { check := .legacy
      rows := [⟨device, total, some (.finite 300), some 1700000000000, 1700000000000⟩]
      admitted := List.forall_mem_singleton.mpr ⟨h, Int.ofNat_lt.mpr (Nat.zero_lt_succ _)⟩
      devices_nodup := List.nodup_singleton _ }
  energyStateV2 := none

theorem legacy_admits : TotalCheck.legacy.Admits (25 / 2) ∧ TotalCheck.legacy.Admits (-5) := by
  norm_num [TotalCheck.Admits]

/-- Two interrupted runs and a complete one on a file with a legal total, and two runs on one
with a negative total. -/
theorem legacyFile_migrated :
    (∃ d', quiet migrate (afterRuns migrate (legacyFile "legacy" (25 / 2) legacy_admits.1)
        [[false, false, true], [true]]) = (.ok (), d') ∧
        (legacyFile "legacy" (25 / 2) legacy_admits.1).Upgraded d') ∧
      afterRuns migrate (legacyFile "bad" (-5) legacy_admits.2) [[], [false, true]] =
        legacyFile "bad" (-5) legacy_admits.2 := by
  constructor
  · apply (migrate_crashSafe _ _).1 (.version1 _ rfl rfl rfl)
    intro r hr
    rw [List.mem_singleton.mp hr]
    norm_num
  · apply ((migrate_crashSafe _ _).2.1 (.version1 _ rfl rfl rfl) rfl _).1
    exact ⟨_, List.mem_singleton_self _, by norm_num⟩

/-! ## The database that a migrated file stores -/

def KvRow.stored (key : String) (r : KvRow) : KvStored := ⟨key, r.value, r.updatedAtMs⟩

def EnergyRow.stored (device : String) (r : EnergyRow) : EnergyStored where
  device := device
  totalKwh := r.totalKwh
  lastPowerWatts := r.lastPowerWatts.map .finite
  lastSampleAtMs := r.lastSampleAtMs
  updatedAtMs := r.updatedAtMs

/-- The tables of the file hold the rows of the database, each under its key. -/
structure DbFile.Holds (f : DbFile) (d : Db) : Prop where
  kv : ∀ key, f.kvRows.find? (fun r => r.key = key) = (d.kv key).map (KvRow.stored key)
  spool : f.spoolRows = d.spool.rows
  energy : ∀ device,
    f.energyRows.find? (fun r => r.device = device) = (d.energy device).map (EnergyRow.stored device)

theorem DbFile.Holds.of_sameRows {f f' : DbFile} {d : Db} (h : f.Holds d) (hrows : f.SameRows f') :
    f'.Holds d where
  kv := by rw [hrows.kv]; exact h.kv
  spool := by rw [hrows.spool]; exact h.spool
  energy := by rw [hrows.energy]; exact h.energy

/-- The rows of a database satisfy the hardened `CHECK`. -/
theorem DbFile.Holds.legal {f : DbFile} {d : Db} (h : f.Holds d) :
    ∀ r ∈ f.energyRows, 0 ≤ r.totalKwh ∧ r.totalKwh ≤ 1000000000 := by
  intro r hr
  have hnodup : (f.energyRows.map EnergyStored.device).Nodup := by
    unfold DbFile.energyRows
    cases f.energyState with
    | none => exact List.nodup_nil
    | some t => exact t.devices_nodup
  obtain ⟨a, ha⟩ : ∃ a, f.energyRows.find? (fun x => x.device = r.device) = some a :=
    Option.isSome_iff_exists.mp (List.find?_isSome.mpr ⟨r, hr, by simp⟩)
  have hdevice : a.device = r.device := by simpa using List.find?_some ha
  have hsame : a = r :=
    List.inj_on_of_nodup_map hnodup (List.mem_of_find?_eq_some ha) hr hdevice
  rw [hsame, h.energy] at ha
  obtain ⟨row, -, hrow⟩ := Option.map_eq_some_iff.mp ha
  rw [← hrow]
  exact row.total_bounds

/-- Interrupted or not, the migration ends in a file that stores the database it started from. -/
theorem migrate_holds {f : DbFile} {d : Db} (hknown : f.Known) (h : f.Holds d)
    (runs : List (List Bool)) :
    ∃ f', quiet migrate (afterRuns migrate f runs) = (.ok (), f') ∧ f'.userVersion = 2 ∧
      f'.Holds d := by
  obtain ⟨f', hrun, hupgraded⟩ := quiet_migrate_known hknown h.legal
  exact ⟨f', by rw [migrate_resumable.afterRuns, hrun], hupgraded.version,
    h.of_sameRows hupgraded.rows⟩

/-- A new file becomes the empty database. -/
theorem migrate_fresh (runs : List (List Bool)) :
    ∃ f', quiet migrate (afterRuns migrate DbFile.blank runs) = (.ok (), f') ∧
      f'.userVersion = 2 ∧ f'.Holds Db.empty :=
  migrate_holds (.blank rfl) ⟨fun _ => rfl, rfl, fun _ => rfl⟩ runs

end VeSmart.Storage
