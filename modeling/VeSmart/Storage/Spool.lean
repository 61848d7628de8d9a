import VeSmart.Storage.Config
import VeSmart.Storage.KeyValue

set_option autoImplicit false

/-! # The delivery spool (`victron-storage/src/spool.rs`)

The operations on `spool_batch` as programs over a connection. Every one of them is all or
nothing (`claimOldest_allOrNothing`, ...), and the second half says what each does when no
statement fails: which rows change, which counter moves, and when it is refused. -/

namespace VeSmart.Storage

open VeSmart.Lib

/-- One undelivered outbound batch, as handed to a caller. -/
structure SpoolBatch where
  id : Int
  device : String
  createdAtMs : Int
  payload : List UInt8
  attempts : UInt32
  nextAttemptAtMs : Int
  deriving DecidableEq

inductive RetryOutcome where
  | retried (nextAttemptAtMs : Int) (attempts : UInt32)
  | dropped (attempts : UInt32)
  deriving DecidableEq

structure PruneStats where
  removed : Nat
  remaining : Nat
  deriving DecidableEq

structure SpoolStats where
  queuedBatches : Nat
  oldestCreatedAtMs : Option Int
  totalAttempts : Nat
  deriving DecidableEq

/-- `row_to_batch`; the attempt count is cut to 32 bits. -/
def SpoolRow.toBatch (r : SpoolRow) : SpoolBatch where
  id := r.id
  device := r.device
  createdAtMs := r.createdAtMs
  payload := r.payload
  attempts := UInt32.ofNat r.attempts
  nextAttemptAtMs := r.nextAttemptAtMs

/-- A statement on the table `spool_batch`. -/
def onSpool {α : Type} (f : SpoolTable → Except StorageError (α × SpoolTable)) : Sql α :=
  statement sqlIo fun d => (f d.spool).map fun p => (p.1, { d with spool := p.2 })

def deliveredTotal : String := "spool.delivered_total"
def droppedTotal : String := "spool.dropped_total"

/-! ## The operations -/

def enqueue (device : String) (payload : List UInt8) (nowMs : I64) : Sql Int := do
  ensure (device ≠ "") (.invalidArgument "device must not be empty")
  ensure (payload ≠ []) (.invalidArgument "payload must not be empty")
  ensure (0 < nowMs.1) (.invalidArgument "now_ms must be > 0")
  onSpool fun t => t.insert device nowMs.1 payload

def peekOldest (nowMs : I64) (maxAttempts : UInt32) : Sql (Option SpoolBatch) :=
  query fun d => (d.spool.selectReady nowMs.1 maxAttempts).map SpoolRow.toBatch

def claimOldest (cfg : StorageConfig) (nowMs : I64) : Sql (Option SpoolBatch) :=
  transaction sqlIo do
    let candidate ← query fun d =>
      (d.spool.selectReady nowMs.1 cfg.maxSpoolAttempts).map SpoolRow.toBatch
    match candidate with
    | none => do
        commitTx sqlIo
        pure none
    | some batch => do
        let nextAttempt := wrapI64 (nowMs.1 + cfg.spoolInflightMs.1)
        let changed ← onSpool fun t => t.update
          (fun r => r.id = batch.id && r.attempts < cfg.maxSpoolAttempts.toNat) 1 nextAttempt
        if changed = 0 then do
          commitTx sqlIo
          pure none
        else do
          commitTx sqlIo
          pure (some { batch with
            attempts := batch.attempts + 1
            nextAttemptAtMs := nextAttempt })

/-- Delete a batch and count it under `counter`. -/
def removeBatch (counter : String) (id : Int) (nowMs : I64) : Sql Bool :=
  transaction sqlIo do
    let changed ← onSpool fun t => .ok (t.deleteWhere fun r => r.id = id)
    if 0 < changed then bumpCounter counter nowMs.1
    commitTx sqlIo
    pure (decide (0 < changed))

def markDelivered (id : Int) (nowMs : I64) : Sql Bool := removeBatch deliveredTotal id nowMs

def dropBatch (id : Int) (nowMs : I64) : Sql Bool := removeBatch droppedTotal id nowMs

/-- `base * 2^(attempts - 1)`, capped; the exponent stops at 20. -/
def retryDelay (cfg : StorageConfig) (attempts : UInt32) : Int :=
  let exp := min (attempts.toNat - 1) 20
  min (satI64 (cfg.spoolRetryBaseMs.1 * 2 ^ exp)) cfg.spoolRetryMaxMs.1

def recordRetry (cfg : StorageConfig) (id : Int) (nowMs : I64) : Sql RetryOutcome :=
  transaction sqlIo do
    let attempts ← query fun d => (d.spool.find id).map fun r => UInt32.ofNat r.attempts
    match attempts with
    | none => do
        commitTx sqlIo
        throw (.inconsistent ("spool batch " ++ toString id ++
          " not found for retry (already delivered or pruned)"))
    | some attempts =>
        if cfg.maxSpoolAttempts ≤ attempts then do
          let _ ← onSpool fun t => .ok (t.deleteWhere fun r => r.id = id)
          bumpCounter droppedTotal nowMs.1
          commitTx sqlIo
          pure (.dropped attempts)
        else do
          let next := satI64 (nowMs.1 + retryDelay cfg attempts)
          let _ ← onSpool fun t => t.update (fun r => r.id = id) 0 next
          commitTx sqlIo
          pure (.retried next attempts)

/-- The ids of the newest `n` rows and no others survive the count bound. -/
def SpoolTable.beyond (t : SpoolTable) (n : Nat) (r : SpoolRow) : Bool :=
  r.id ∈ ((t.rows.insertionSort fun a b => b.fifoLe a).drop n).map SpoolRow.id

def prune (cfg : StorageConfig) (nowMs : I64) : Sql PruneStats :=
  transaction sqlIo do
    let ageCutoff := satI64 (nowMs.1 - cfg.maxSpoolAgeMs.1)
    let aged ← onSpool fun t => .ok (t.deleteWhere fun r => r.createdAtMs < ageCutoff)
    let exhausted ← onSpool fun t =>
      .ok (t.deleteWhere fun r => cfg.maxSpoolAttempts.toNat ≤ r.attempts)
    let counted ← onSpool fun t =>
      .ok (t.deleteWhere (t.beyond cfg.maxSpoolBatches.toNat))
    let remaining ← query fun d => d.spool.rows.length
    commitTx sqlIo
    pure { removed := aged + exhausted + counted, remaining := remaining }

/-- `spool_stats`: three separate reads. -/
def stats : Sql SpoolStats := do
  let queued ← query fun d => d.spool.rows.length
  let oldest ← query fun d => (d.spool.rows.map SpoolRow.createdAtMs).min?
  let totalAttempts ← query fun d => (d.spool.rows.map SpoolRow.attempts).sum
  pure { queuedBatches := queued, oldestCreatedAtMs := oldest, totalAttempts := totalAttempts }

/-! ## Every operation is all or nothing -/

theorem Fragment.onSpool {α : Type} (f : SpoolTable → Except StorageError (α × SpoolTable)) :
    Fragment sqlIo (onSpool f) :=
  Fragment.statement _

/-- A statement on the spool keeps what its change of the table keeps. -/
theorem Preserves.onSpool {α : Type} {P : Db → Prop}
    {f : SpoolTable → Except StorageError (α × SpoolTable)}
    (hf : ∀ d a t, P d → f d.spool = .ok (a, t) → P { d with spool := t }) :
    Preserves P (onSpool f) := by
  apply Preserves.statement
  intro d a d' h hd
  cases hrun : f d.spool with
  | error e => simp [hrun, Except.map] at hd
  | ok p =>
      simp only [hrun, Except.map, Except.ok.injEq, Prod.mk.injEq] at hd
      rw [← hd.2]
      exact hf d p.1 p.2 h hrun

theorem enqueue_fragment (device : String) (payload : List UInt8) (nowMs : I64) :
    Fragment sqlIo (enqueue device payload nowMs) := by
  unfold enqueue
  apply Fragment.bind (Fragment.ensure _ _); intro _
  apply Fragment.bind (Fragment.ensure _ _); intro _
  apply Fragment.bind (Fragment.ensure _ _); intro _
  exact Fragment.onSpool _

theorem enqueue_allOrNothing (device : String) (payload : List UInt8) (nowMs : I64) :
    AllOrNothing sqlIo (enqueue device payload nowMs) := by
  unfold enqueue
  apply AllOrNothing.fromExcept_bind; intro _
  apply AllOrNothing.fromExcept_bind; intro _
  apply AllOrNothing.fromExcept_bind; intro _
  exact statement_allOrNothing _

theorem peekOldest_allOrNothing (nowMs : I64) (maxAttempts : UInt32) :
    AllOrNothing sqlIo (peekOldest nowMs maxAttempts) := by
  unfold peekOldest query
  exact statement_allOrNothing _

theorem claimOldest_allOrNothing (cfg : StorageConfig) (nowMs : I64) :
    AllOrNothing sqlIo (claimOldest cfg nowMs) := by
  apply transaction_allOrNothing
  apply Body.bind (Fragment.query _)
  intro candidate
  cases candidate with
  | none => exact Body.commit_pure _
  | some batch =>
      apply Body.bind (Fragment.onSpool _)
      intro changed
      split
      · exact Body.commit_pure _
      · exact Body.commit_pure _

theorem removeBatch_allOrNothing (counter : String) (id : Int) (nowMs : I64) :
    AllOrNothing sqlIo (removeBatch counter id nowMs) := by
  apply transaction_allOrNothing
  apply Body.bind (Fragment.onSpool _)
  intro changed
  show Body sqlIo (ite _ _ _)
  split
  · exact Body.bind (bumpCounter_fragment _ _) fun _ => Body.commit_pure _
  · exact Body.commit_pure _

theorem recordRetry_allOrNothing (cfg : StorageConfig) (id : Int) (nowMs : I64) :
    AllOrNothing sqlIo (recordRetry cfg id nowMs) := by
  apply transaction_allOrNothing
  apply Body.bind (Fragment.query _)
  intro attempts
  cases attempts with
  | none => exact Body.commit_throw _
  | some attempts =>
      show Body sqlIo (ite _ _ _)
      split
      · apply Body.bind (Fragment.onSpool _); intro _
        apply Body.bind (bumpCounter_fragment _ _); intro _
        exact Body.commit_pure _
      · apply Body.bind (Fragment.onSpool _); intro _
        exact Body.commit_pure _

theorem prune_allOrNothing (cfg : StorageConfig) (nowMs : I64) :
    AllOrNothing sqlIo (prune cfg nowMs) := by
  apply transaction_allOrNothing
  apply Body.bind (Fragment.onSpool _); intro aged
  apply Body.bind (Fragment.onSpool _); intro exhausted
  apply Body.bind (Fragment.onSpool _); intro counted
  apply Body.bind (Fragment.query _); intro remaining
  exact Body.commit_pure _

/-! ## What an operation does when no statement fails -/

@[simp] theorem exec_onSpool {α : Type} (f : SpoolTable → Except StorageError (α × SpoolTable))
    (d w : Db) :
    exec (onSpool f) ⟨d, some w, []⟩ =
      match f w.spool with
      | .error e => (.error e, ⟨d, some w, []⟩)
      | .ok (a, t) => (.ok a, ⟨d, some { w with spool := t }, []⟩) := by
  unfold onSpool
  rw [exec_statement_open]
  cases f w.spool <;> rfl

theorem quiet_enqueue (device : String) (payload : List UInt8) (nowMs : I64) (d : Db) :
    quiet (enqueue device payload nowMs) d =
      if device = "" then (.error (.invalidArgument "device must not be empty"), d)
      else if payload = [] then (.error (.invalidArgument "payload must not be empty"), d)
      else if nowMs.1 ≤ 0 then (.error (.invalidArgument "now_ms must be > 0"), d)
      else match d.spool.insert device nowMs.1 payload with
        | .error e => (.error e, d)
        | .ok (id, t) => (.ok id, { d with spool := t }) := by
  unfold enqueue ensure
  rw [quiet_fromExcept_bind]
  by_cases hdev : device = ""
  · simp [hdev]
  rw [if_pos hdev, if_neg hdev]
  show quiet (fromExcept _ >>= _) d = _
  rw [quiet_fromExcept_bind]
  by_cases hpay : payload = []
  · simp [hpay]
  rw [if_pos hpay, if_neg hpay]
  show quiet (fromExcept _ >>= _) d = _
  rw [quiet_fromExcept_bind]
  by_cases hnow : nowMs.1 ≤ 0
  · have : ¬ 0 < nowMs.1 := by omega
    simp [hnow, this]
  rw [if_pos (by omega), if_neg hnow]
  show quiet (statement sqlIo _) d = _
  rw [quiet_statement]
  dsimp only
  cases d.spool.insert device nowMs.1 payload <;> rfl

theorem quiet_peekOldest (nowMs : I64) (maxAttempts : UInt32) (d : Db) :
    quiet (peekOldest nowMs maxAttempts) d =
      (.ok ((d.spool.selectReady nowMs.1 maxAttempts).map SpoolRow.toBatch), d) := by
  unfold peekOldest query
  rw [quiet_statement]

theorem quiet_claimOldest_none {cfg : StorageConfig} {nowMs : I64} {d : Db}
    (h : d.spool.selectReady nowMs.1 cfg.maxSpoolAttempts = none) :
    quiet (claimOldest cfg nowMs) d = (.ok none, d) := by
  simp [claimOldest, quiet_transaction, exec_bind, h]

/-- The rows after the lease of the batch `id`. -/
def leaseRows (rows : List SpoolRow) (id next : Int) (h : 0 ≤ next) : List SpoolRow :=
  rows.map fun r => if r.id = id then r.reschedule 1 next h else r

/-- Only the selected row meets the `WHERE` clause of the claim. -/
theorem claim_where {cfg : StorageConfig} {nowMs : Int} {t : SpoolTable} {row : SpoolRow}
    (h : t.selectReady nowMs cfg.maxSpoolAttempts = some row) :
    ∀ r ∈ t.rows, (r.id = row.id ∧ r.attempts < cfg.maxSpoolAttempts.toNat) ↔ r.id = row.id := by
  intro r hr
  obtain ⟨hrow, -, hatt⟩ := SpoolTable.selectReady_mem h
  constructor
  · exact fun hw => hw.1
  · intro hid
    have : r = row := SpoolTable.eq_of_id hr hrow hid
    exact ⟨hid, this ▸ hatt⟩

/-- The end of a lease at a time that some row is ready at. -/
theorem lease_end {nowMs ttl : I64} (hnow : 0 ≤ nowMs.1) (hpos : 0 < ttl.1)
    (hfit : nowMs.1 + ttl.1 ≤ i64Max) : wrapI64 (nowMs.1 + ttl.1) = nowMs.1 + ttl.1 := by
  apply wrapI64_of_inI64
  simp only [InI64, i64Min, i64Max] at hfit ⊢
  omega

theorem selectReady_nonneg {t : SpoolTable} {nowMs : Int} {maxAttempts : UInt32}
    {row : SpoolRow} (h : t.selectReady nowMs maxAttempts = some row) : 0 ≤ nowMs := by
  obtain ⟨-, hnext, -⟩ := SpoolTable.selectReady_mem h
  have := row.next_nonneg
  omega

theorem quiet_claimOldest_some {cfg : StorageConfig} {nowMs : I64} {d : Db} {row : SpoolRow}
    (h : d.spool.selectReady nowMs.1 cfg.maxSpoolAttempts = some row)
    (hpos : 0 < cfg.spoolInflightMs.1) (hfit : nowMs.1 + cfg.spoolInflightMs.1 ≤ i64Max) :
    ∃ t hnext, quiet (claimOldest cfg nowMs) d =
        (.ok (some { row.toBatch with
          attempts := row.toBatch.attempts + 1
          nextAttemptAtMs := nowMs.1 + cfg.spoolInflightMs.1 }), { d with spool := t }) ∧
      t.seq = d.spool.seq ∧
      t.rows = leaseRows d.spool.rows row.id (nowMs.1 + cfg.spoolInflightMs.1) hnext := by
  obtain ⟨hrow, -, hatt⟩ := SpoolTable.selectReady_mem h
  have hnow := selectReady_nonneg h
  have hend := lease_end hnow hpos hfit
  have hnext : 0 ≤ nowMs.1 + cfg.spoolInflightMs.1 := by omega
  obtain ⟨n, t, ht⟩ : ∃ n t, d.spool.update
      (fun r => r.id = row.id && r.attempts < cfg.maxSpoolAttempts.toNat) 1
      (nowMs.1 + cfg.spoolInflightMs.1) = .ok (n, t) := by
    rw [SpoolTable.update, dif_pos hnext]
    exact ⟨_, _, rfl⟩
  obtain ⟨hn, hseq, hrows⟩ := SpoolTable.update_ok hnext ht
  have hpos : n ≠ 0 := by
    rw [hn, ← Nat.pos_iff_ne_zero, List.countP_pos_iff]
    exact ⟨row, hrow, by simpa using hatt⟩
  refine ⟨t, hnext, ?_, hseq, ?_⟩
  · have hid : row.toBatch.id = row.id := rfl
    simp [claimOldest, quiet_transaction, exec_bind, h, hid, hend, ht, hpos]
  · rw [hrows, leaseRows]
    apply List.map_congr_left
    intro r hr
    simp only [Bool.and_eq_true, decide_eq_true_eq, claim_where h r hr]

/-- A lease that would end after the last representable time wraps around to a negative one,
which violates the `CHECK`. -/
theorem quiet_claimOldest_overflow {cfg : StorageConfig} {nowMs : I64} {d : Db}
    {row : SpoolRow} (h : d.spool.selectReady nowMs.1 cfg.maxSpoolAttempts = some row)
    (hfit : i64Max < nowMs.1 + cfg.spoolInflightMs.1) :
    quiet (claimOldest cfg nowMs) d = (.error (.sqlite .constraint), d) := by
  obtain ⟨hrow, -, hatt⟩ := SpoolTable.selectReady_mem h
  have hneg := wrapI64_neg nowMs.2 cfg.spoolInflightMs.2 hfit
  have hany : d.spool.rows.any
      (fun r => r.id = row.id && r.attempts < cfg.maxSpoolAttempts.toNat) = true := by
    rw [List.any_eq_true]
    exact ⟨row, hrow, by simpa using hatt⟩
  have hup : d.spool.update
      (fun r => r.id = row.id && r.attempts < cfg.maxSpoolAttempts.toNat) 1
      (wrapI64 (nowMs.1 + cfg.spoolInflightMs.1)) = .error (.sqlite .constraint) := by
    rw [SpoolTable.update, dif_neg (by omega), if_pos hany]
  have hid : row.toBatch.id = row.id := rfl
  simp [claimOldest, quiet_transaction, exec_bind, h, hid, hup]

theorem deliveredTotal_ne : deliveredTotal ≠ "" := by decide

theorem droppedTotal_ne : droppedTotal ≠ "" := by decide

/-- An unknown id is not counted. -/
theorem quiet_removeBatch_absent {counter : String} {id : Int} {nowMs : I64} {d : Db}
    (h : d.spool.find id = none) :
    quiet (removeBatch counter id nowMs) d = (.ok false, d) := by
  have hsame : (d.spool.deleteWhere fun r => r.id = id).2 = d.spool := by
    refine SpoolTable.ext_rows ?_ rfl
    rw [SpoolTable.deleteWhere_rows, List.filter_eq_self]
    intro r hr
    simpa using SpoolTable.find_none h r hr
  have hcount : (d.spool.deleteWhere fun r => r.id = id).1 = 0 := by
    rw [SpoolTable.deleteWhere_count, SpoolTable.countP_id, h]
    rfl
  simp [removeBatch, quiet_transaction, exec_bind, hcount, hsame]

/-- A stored batch is deleted and counted once. -/
theorem quiet_removeBatch_present {counter : String} (hkey : counter ≠ "") {id : Int}
    {nowMs : I64} (hnow : 0 < nowMs.1) {d : Db} {row : SpoolRow} (h : d.spool.find id = some row)
    {n : Nat} (hn : Counter d.kv counter n) (hfit : ((n + 1 : Nat) : Int) ≤ i64Max) :
    ∃ kv', quiet (removeBatch counter id nowMs) d = (.ok true,
        { d with kv := kv', spool := (d.spool.deleteWhere fun r => r.id = id).2 }) ∧
      Counter kv' counter (n + 1) ∧ ∀ other, other ≠ counter → kv' other = d.kv other := by
  have hcount : (d.spool.deleteWhere fun r => r.id = id).1 = 1 := by
    rw [SpoolTable.deleteWhere_count, SpoolTable.countP_id, h]
    rfl
  obtain ⟨kv', hbump, hcounter, hframe⟩ := exec_bumpCounter hkey hnow
    (d := d) (w := { d with spool := (d.spool.deleteWhere fun r => r.id = id).2 }) hn hfit
  refine ⟨kv', ?_, hcounter, hframe⟩
  simp [removeBatch, quiet_transaction, exec_bind, hcount, hbump]

/-- The counter cannot be written at a clock that is not positive, and the batch stays. -/
theorem quiet_removeBatch_nonpos {counter : String} (hkey : counter ≠ "") {id : Int}
    {nowMs : I64} (hnow : ¬ 0 < nowMs.1) {d : Db} {row : SpoolRow}
    (h : d.spool.find id = some row) :
    ∃ e, quiet (removeBatch counter id nowMs) d = (.error e, d) := by
  have hcount : (d.spool.deleteWhere fun r => r.id = id).1 = 1 := by
    rw [SpoolTable.deleteWhere_count, SpoolTable.countP_id, h]
    rfl
  obtain ⟨e, hbump⟩ := exec_bumpCounter_nonpos hkey hnow d
    { d with spool := (d.spool.deleteWhere fun r => r.id = id).2 }
  refine ⟨e, ?_⟩
  simp [removeBatch, quiet_transaction, exec_bind, hcount, hbump]

theorem quiet_recordRetry_absent {cfg : StorageConfig} {id : Int} {nowMs : I64} {d : Db}
    (h : d.spool.find id = none) :
    quiet (recordRetry cfg id nowMs) d =
      (.error (.inconsistent ("spool batch " ++ toString id ++
        " not found for retry (already delivered or pruned)")), d) := by
  simp [recordRetry, quiet_transaction, exec_bind, h]

/-- A batch whose attempts are used up is dropped and counted. -/
theorem quiet_recordRetry_exhausted {cfg : StorageConfig} {id : Int} {nowMs : I64}
    (hnow : 0 < nowMs.1) {d : Db} {row : SpoolRow} (h : d.spool.find id = some row)
    (hatt : cfg.maxSpoolAttempts ≤ UInt32.ofNat row.attempts) {n : Nat}
    (hn : Counter d.kv droppedTotal n) (hfit : ((n + 1 : Nat) : Int) ≤ i64Max) :
    ∃ kv', quiet (recordRetry cfg id nowMs) d = (.ok (.dropped (UInt32.ofNat row.attempts)),
        { d with kv := kv', spool := (d.spool.deleteWhere fun r => r.id = id).2 }) ∧
      Counter kv' droppedTotal (n + 1) ∧ ∀ other, other ≠ droppedTotal → kv' other = d.kv other := by
  obtain ⟨kv', hbump, hcounter, hframe⟩ := exec_bumpCounter droppedTotal_ne hnow
    (d := d) (w := { d with spool := (d.spool.deleteWhere fun r => r.id = id).2 }) hn hfit
  refine ⟨kv', ?_, hcounter, hframe⟩
  simp [recordRetry, quiet_transaction, exec_bind, h, hatt, hbump]

theorem quiet_recordRetry_nonpos {cfg : StorageConfig} {id : Int} {nowMs : I64}
    (hnow : ¬ 0 < nowMs.1) {d : Db} {row : SpoolRow} (h : d.spool.find id = some row)
    (hatt : cfg.maxSpoolAttempts ≤ UInt32.ofNat row.attempts) :
    ∃ e, quiet (recordRetry cfg id nowMs) d = (.error e, d) := by
  obtain ⟨e, hbump⟩ := exec_bumpCounter_nonpos droppedTotal_ne hnow d
    { d with spool := (d.spool.deleteWhere fun r => r.id = id).2 }
  refine ⟨e, ?_⟩
  simp [recordRetry, quiet_transaction, exec_bind, h, hatt, hbump]

/-- When a failed delivery is to be tried again. -/
def retryAt (cfg : StorageConfig) (nowMs : I64) (row : SpoolRow) : Int :=
  satI64 (nowMs.1 + retryDelay cfg (UInt32.ofNat row.attempts))

/-- The rows after the batch `id` has been given a new deadline. -/
def retryRows (rows : List SpoolRow) (id next : Int) (h : 0 ≤ next) : List SpoolRow :=
  rows.map fun r => if r.id = id then r.reschedule 0 next h else r

theorem quiet_recordRetry_retried {cfg : StorageConfig} {id : Int} {nowMs : I64} {d : Db}
    {row : SpoolRow} (h : d.spool.find id = some row)
    (hatt : ¬ cfg.maxSpoolAttempts ≤ UInt32.ofNat row.attempts)
    (hnext : 0 ≤ retryAt cfg nowMs row) :
    ∃ t, quiet (recordRetry cfg id nowMs) d =
        (.ok (.retried (retryAt cfg nowMs row) (UInt32.ofNat row.attempts)),
          { d with spool := t }) ∧
      t.seq = d.spool.seq ∧ t.rows = retryRows d.spool.rows id (retryAt cfg nowMs row) hnext := by
  obtain ⟨n, t, ht⟩ : ∃ n t, d.spool.update (fun r => r.id = id) 0
      (retryAt cfg nowMs row) = .ok (n, t) := by
    rw [SpoolTable.update, dif_pos hnext]
    exact ⟨_, _, rfl⟩
  obtain ⟨-, hseq, hrows⟩ := SpoolTable.update_ok hnext ht
  refine ⟨t, ?_, hseq, ?_⟩
  · rw [retryAt] at ht ⊢
    simp [recordRetry, quiet_transaction, exec_bind, h, hatt, ht]
  · rw [hrows, retryRows]
    simp only [decide_eq_true_eq]

theorem quiet_recordRetry_negative {cfg : StorageConfig} {id : Int} {nowMs : I64} {d : Db}
    {row : SpoolRow} (h : d.spool.find id = some row)
    (hatt : ¬ cfg.maxSpoolAttempts ≤ UInt32.ofNat row.attempts)
    (hnext : ¬ 0 ≤ retryAt cfg nowMs row) :
    quiet (recordRetry cfg id nowMs) d = (.error (.sqlite .constraint), d) := by
  obtain ⟨hrow, hid⟩ := SpoolTable.find_mem h
  have hany : d.spool.rows.any (fun r => r.id = id) = true := by
    rw [List.any_eq_true]
    exact ⟨row, hrow, by simpa using hid⟩
  have hup : d.spool.update (fun r => r.id = id) 0 (retryAt cfg nowMs row)
      = .error (.sqlite .constraint) := by
    rw [SpoolTable.update, dif_neg hnext, if_pos hany]
  rw [retryAt] at hup
  simp [recordRetry, quiet_transaction, exec_bind, h, hatt, hup]

/-- The tables that `prune` passes through: after the age bound, the attempt budget and the
count bound. -/
def SpoolTable.pruneAged (cfg : StorageConfig) (nowMs : I64) (t : SpoolTable) : SpoolTable :=
  (t.deleteWhere fun r => r.createdAtMs < satI64 (nowMs.1 - cfg.maxSpoolAgeMs.1)).2

def SpoolTable.pruneExhausted (cfg : StorageConfig) (t : SpoolTable) : SpoolTable :=
  (t.deleteWhere fun r => cfg.maxSpoolAttempts.toNat ≤ r.attempts).2

def SpoolTable.pruneBeyond (cfg : StorageConfig) (t : SpoolTable) : SpoolTable :=
  (t.deleteWhere (t.beyond cfg.maxSpoolBatches.toNat)).2

def SpoolTable.pruned (cfg : StorageConfig) (nowMs : I64) (t : SpoolTable) : SpoolTable :=
  ((t.pruneAged cfg nowMs).pruneExhausted cfg).pruneBeyond cfg

/-- A deletion reports the rows that are gone. -/
theorem SpoolTable.deleteWhere_length (t : SpoolTable) (p : SpoolRow → Bool) :
    (t.deleteWhere p).1 + (t.deleteWhere p).2.rows.length = t.rows.length := by
  simp only [SpoolTable.deleteWhere_count, SpoolTable.deleteWhere_rows, List.countP_eq_length_filter]
  exact (List.length_eq_length_filter_add p).symm

theorem quiet_prune (cfg : StorageConfig) (nowMs : I64) (d : Db) :
    quiet (prune cfg nowMs) d =
      (.ok {
          removed := d.spool.rows.length - (d.spool.pruned cfg nowMs).rows.length
          remaining := (d.spool.pruned cfg nowMs).rows.length },
        { d with spool := d.spool.pruned cfg nowMs }) := by
  have h₁ := d.spool.deleteWhere_length
    fun r => r.createdAtMs < satI64 (nowMs.1 - cfg.maxSpoolAgeMs.1)
  have h₂ := (d.spool.pruneAged cfg nowMs).deleteWhere_length
    fun r => cfg.maxSpoolAttempts.toNat ≤ r.attempts
  have h₃ := ((d.spool.pruneAged cfg nowMs).pruneExhausted cfg).deleteWhere_length
    (((d.spool.pruneAged cfg nowMs).pruneExhausted cfg).beyond cfg.maxSpoolBatches.toNat)
  have hrun : quiet (prune cfg nowMs) d =
      (.ok {
          removed := (d.spool.deleteWhere fun r =>
              r.createdAtMs < satI64 (nowMs.1 - cfg.maxSpoolAgeMs.1)).1 +
            ((d.spool.pruneAged cfg nowMs).deleteWhere fun r =>
              cfg.maxSpoolAttempts.toNat ≤ r.attempts).1 +
            (((d.spool.pruneAged cfg nowMs).pruneExhausted cfg).deleteWhere
              (((d.spool.pruneAged cfg nowMs).pruneExhausted cfg).beyond
                cfg.maxSpoolBatches.toNat)).1
          remaining := (d.spool.pruned cfg nowMs).rows.length },
        { d with spool := d.spool.pruned cfg nowMs }) := rfl
  rw [hrun]
  have e₁ : (d.spool.deleteWhere fun r =>
      r.createdAtMs < satI64 (nowMs.1 - cfg.maxSpoolAgeMs.1)).2 = d.spool.pruneAged cfg nowMs := rfl
  have e₂ : ((d.spool.pruneAged cfg nowMs).deleteWhere fun r =>
      cfg.maxSpoolAttempts.toNat ≤ r.attempts).2
        = (d.spool.pruneAged cfg nowMs).pruneExhausted cfg := rfl
  have e₃ : (((d.spool.pruneAged cfg nowMs).pruneExhausted cfg).deleteWhere
      (((d.spool.pruneAged cfg nowMs).pruneExhausted cfg).beyond cfg.maxSpoolBatches.toNat)).2
        = d.spool.pruned cfg nowMs := rfl
  rw [e₁] at h₁
  rw [e₂] at h₂
  rw [e₃] at h₃
  congr 3
  omega

end VeSmart.Storage
