import VeSmart.Storage.Acquisition

set_option autoImplicit false

/-! # Runs of storage operations

`SpoolOp` names the operations of `Storage` that read or write the spool, with their
arguments, and a `SpoolCall` is one call of an operation together with the statements of it
that fail. `SpoolStep` is the relation between the state before a call, its result and the
state after it: one constructor for each thing a call can do. `SpoolCall.step` proves that a
call does one of these things, so that an invariant of runs needs a case for each constructor
and never looks into a transaction. -/

namespace VeSmart.Storage

open VeSmart.Lib

/-- The operations of `Storage` on the spool. The clock argument of `markDelivered` and
`dropBatch` is the wall clock they read. -/
inductive SpoolOp where
  | enqueue (device : String) (payload : List UInt8) (nowMs : I64)
  | commit (c : AcquisitionCommit)
  | claim (nowMs : I64)
  | peek (nowMs : I64)
  | markDelivered (id : Int) (wallMs : I64)
  | dropBatch (id : Int) (wallMs : I64)
  | recordRetry (id : Int) (nowMs : I64)
  | prune (nowMs : I64)

inductive SpoolResult where
  | enqueued (id : Int)
  | commit (o : AcquisitionCommitOutcome)
  | claimed (batch : Option SpoolBatch)
  | peeked (batch : Option SpoolBatch)
  | delivered (changed : Bool)
  | dropped (changed : Bool)
  | retry (o : RetryOutcome)
  | pruned (s : PruneStats)
  deriving DecidableEq

def SpoolOp.program (cfg : StorageConfig) : SpoolOp → Sql SpoolResult
  | .enqueue device payload nowMs => .enqueued <$> Storage.enqueue device payload nowMs
  | .commit c => .commit <$> commitAcquisition c
  | .claim nowMs => .claimed <$> claimOldest cfg nowMs
  | .peek nowMs => .peeked <$> peekOldest nowMs cfg.maxSpoolAttempts
  | .markDelivered id wallMs => .delivered <$> Storage.markDelivered id wallMs
  | .dropBatch id wallMs => .dropped <$> Storage.dropBatch id wallMs
  | .recordRetry id nowMs => .retry <$> Storage.recordRetry cfg id nowMs
  | .prune nowMs => .pruned <$> Storage.prune cfg nowMs

/-- A call of an operation, and which of its statements fail. -/
structure SpoolCall where
  op : SpoolOp
  faults : List Bool

/-- The result of a call and the database it leaves. -/
def SpoolCall.exec (cfg : StorageConfig) (call : SpoolCall) (d : Db) :
    Except StorageError SpoolResult × Db :=
  ((Lib.exec (call.op.program cfg) ⟨d, none, call.faults⟩).1,
    (Lib.exec (call.op.program cfg) ⟨d, none, call.faults⟩).2.committed)

/-- The database after a sequence of calls. -/
def runCalls (cfg : StorageConfig) (d : Db) (calls : List SpoolCall) : Db :=
  calls.foldl (fun d call => (call.exec cfg d).2) d

theorem SpoolOp.program_allOrNothing (cfg : StorageConfig) (op : SpoolOp) :
    AllOrNothing sqlIo (op.program cfg) := by
  cases op with
  | enqueue device payload nowMs => exact (enqueue_allOrNothing device payload nowMs).map _
  | commit c => exact (commit_allOrNothing c).map _
  | claim nowMs => exact (claimOldest_allOrNothing cfg nowMs).map _
  | peek nowMs => exact (peekOldest_allOrNothing nowMs _).map _
  | markDelivered id wallMs => exact (removeBatch_allOrNothing _ id wallMs).map _
  | dropBatch id wallMs => exact (removeBatch_allOrNothing _ id wallMs).map _
  | recordRetry id nowMs => exact (recordRetry_allOrNothing cfg id nowMs).map _
  | prune nowMs => exact (prune_allOrNothing cfg nowMs).map _

/-- A call does what the operation does when no statement fails, or it fails and changes
nothing. -/
theorem SpoolCall.exec_cases (cfg : StorageConfig) (call : SpoolCall) (d : Db) :
    call.exec cfg d = quiet (call.op.program cfg) d ∨ call.exec cfg d = (.error sqlIo, d) := by
  obtain ⟨fs', h | h⟩ := (call.op.program_allOrNothing cfg).exec_cases d call.faults
  · left
    rw [SpoolCall.exec, h]
  · right
    rw [SpoolCall.exec, h]

theorem SpoolCall.exec_quiet (cfg : StorageConfig) (op : SpoolOp) (d : Db) :
    SpoolCall.exec cfg ⟨op, []⟩ d = quiet (op.program cfg) d := by
  rw [SpoolCall.exec, (op.program_allOrNothing cfg).exec_quiet d]

/-! ## The step relation -/

/-- A counter goes up by one, and no other key is touched. -/
def Bumped (kv kv' : String → Option KvRow) (key : String) : Prop :=
  (∃ n, Counter kv key n ∧ Counter kv' key (n + 1)) ∧ ∀ other, other ≠ key → kv' other = kv other

/-- What a call can do to the database, with the result it reports. -/
inductive SpoolStep (cfg : StorageConfig) (d : Db) :
    SpoolOp → Except StorageError SpoolResult → Db → Prop
  | failed (op : SpoolOp) (e : StorageError) : SpoolStep cfg d op (.error e) d
  | enqueued (device payload nowMs id t)
      (h : d.spool.insert device nowMs.1 payload = .ok (id, t)) :
      SpoolStep cfg d (.enqueue device payload nowMs) (.ok (.enqueued id)) { d with spool := t }
  | already (c) : SpoolStep cfg d (.commit c) (.ok (.commit .alreadyCommitted)) d
  | committed (c id d') (h : CommitEffect c d d' id) :
      SpoolStep cfg d (.commit c) (.ok (.commit (.committed id))) d'
  | idle (nowMs) : SpoolStep cfg d (.claim nowMs) (.ok (.claimed none)) d
  | leased (nowMs row t hnext)
      (h : d.spool.selectReady nowMs.1 cfg.maxSpoolAttempts = some row)
      (hfit : nowMs.1 + cfg.spoolInflightMs.1 ≤ i64Max)
      (hseq : t.seq = d.spool.seq)
      (hrows : t.rows = leaseRows d.spool.rows row.id (nowMs.1 + cfg.spoolInflightMs.1) hnext) :
      SpoolStep cfg d (.claim nowMs) (.ok (.claimed (some { row.toBatch with
          attempts := row.toBatch.attempts + 1
          nextAttemptAtMs := nowMs.1 + cfg.spoolInflightMs.1 }))) { d with spool := t }
  | peeked (nowMs batch) : SpoolStep cfg d (.peek nowMs) (.ok (.peeked batch)) d
  | unknownDelivered (id wallMs) :
      SpoolStep cfg d (.markDelivered id wallMs) (.ok (.delivered false)) d
  | delivered (id wallMs row kv') (h : d.spool.find id = some row)
      (hkv : Bumped d.kv kv' deliveredTotal) :
      SpoolStep cfg d (.markDelivered id wallMs) (.ok (.delivered true))
        { d with kv := kv', spool := (d.spool.deleteWhere fun r => r.id = id).2 }
  | unknownDropped (id wallMs) : SpoolStep cfg d (.dropBatch id wallMs) (.ok (.dropped false)) d
  | dropped (id wallMs row kv') (h : d.spool.find id = some row)
      (hkv : Bumped d.kv kv' droppedTotal) :
      SpoolStep cfg d (.dropBatch id wallMs) (.ok (.dropped true))
        { d with kv := kv', spool := (d.spool.deleteWhere fun r => r.id = id).2 }
  | exhausted (id nowMs row kv') (h : d.spool.find id = some row)
      (hatt : cfg.maxSpoolAttempts ≤ UInt32.ofNat row.attempts)
      (hkv : Bumped d.kv kv' droppedTotal) :
      SpoolStep cfg d (.recordRetry id nowMs)
        (.ok (.retry (.dropped (UInt32.ofNat row.attempts))))
        { d with kv := kv', spool := (d.spool.deleteWhere fun r => r.id = id).2 }
  | retried (id nowMs row t hnext) (h : d.spool.find id = some row)
      (hatt : ¬ cfg.maxSpoolAttempts ≤ UInt32.ofNat row.attempts)
      (hseq : t.seq = d.spool.seq)
      (hrows : t.rows = retryRows d.spool.rows id (retryAt cfg nowMs row) hnext) :
      SpoolStep cfg d (.recordRetry id nowMs)
        (.ok (.retry (.retried (retryAt cfg nowMs row) (UInt32.ofNat row.attempts))))
        { d with spool := t }
  | pruned (nowMs) :
      SpoolStep cfg d (.prune nowMs)
        (.ok (.pruned {
          removed := d.spool.rows.length - (d.spool.pruned cfg nowMs).rows.length
          remaining := (d.spool.pruned cfg nowMs).rows.length }))
        { d with spool := d.spool.pruned cfg nowMs }

/-- Both counters hold numbers, with room for one more while a batch is queued. -/
structure CountersReady (d : Db) : Prop where
  delivered : ∃ n, Counter d.kv deliveredTotal n ∧ (d.spool.rows ≠ [] → ((n + 1 : Nat) : Int) ≤ i64Max)
  dropped : ∃ n, Counter d.kv droppedTotal n ∧ (d.spool.rows ≠ [] → ((n + 1 : Nat) : Int) ≤ i64Max)

theorem rows_ne_nil_of_find {t : SpoolTable} {id : Int} {row : SpoolRow}
    (h : t.find id = some row) : t.rows ≠ [] :=
  List.ne_nil_of_mem (SpoolTable.find_mem h).1

/-- What deleting and counting a batch does. -/
theorem removeBatch_cases {counter : String} (hkey : counter ≠ "") (id : Int) (nowMs : I64)
    {d : Db} (hc : ∃ n, Counter d.kv counter n ∧
      (d.spool.rows ≠ [] → ((n + 1 : Nat) : Int) ≤ i64Max)) :
    quiet (removeBatch counter id nowMs) d = (.ok false, d) ∨
      (∃ e, quiet (removeBatch counter id nowMs) d = (.error e, d)) ∨
      ∃ row kv', d.spool.find id = some row ∧ Bumped d.kv kv' counter ∧
        quiet (removeBatch counter id nowMs) d = (.ok true,
          { d with kv := kv', spool := (d.spool.deleteWhere fun r => r.id = id).2 }) := by
  cases hf : d.spool.find id with
  | none => exact .inl (quiet_removeBatch_absent hf)
  | some row =>
      by_cases hnow : 0 < nowMs.1
      · obtain ⟨n, hn, hroom⟩ := hc
        obtain ⟨kv', hq, hcounter, hframe⟩ :=
          quiet_removeBatch_present hkey hnow hf hn (hroom (rows_ne_nil_of_find hf))
        exact .inr (.inr ⟨row, kv', rfl, ⟨⟨n, hn, hcounter⟩, hframe⟩, hq⟩)
      · exact .inr (.inl (quiet_removeBatch_nonpos hkey hnow hf))

/-- An operation without faults does one of the things of `SpoolStep`. -/
theorem SpoolOp.step (cfg : ValidConfig) (op : SpoolOp) {d : Db} (hc : CountersReady d) :
    SpoolStep cfg.1 d op (quiet (op.program cfg.1) d).1 (quiet (op.program cfg.1) d).2 := by
  cases op with
  | enqueue device payload nowMs =>
      rw [SpoolOp.program, quiet_map, quiet_enqueue]
      split; · exact .failed _ _
      split; · exact .failed _ _
      split; · exact .failed _ _
      cases hins : d.spool.insert device nowMs.1 payload with
      | error e => exact .failed _ _
      | ok p => exact .enqueued device payload nowMs p.1 p.2 hins
  | commit c =>
      rw [SpoolOp.program, quiet_map]
      rcases quiet_commit_cases c d with ⟨e, hq, -⟩ | ⟨hq, -⟩ | ⟨id, d', hq, heffect⟩
      · rw [hq]; exact .failed _ _
      · rw [hq]; exact .already c
      · rw [hq]; exact .committed c id d' heffect
  | claim nowMs =>
      rw [SpoolOp.program, quiet_map]
      cases hsel : d.spool.selectReady nowMs.1 cfg.1.maxSpoolAttempts with
      | none => rw [quiet_claimOldest_none hsel]; exact .idle nowMs
      | some row =>
          by_cases hfit : nowMs.1 + cfg.1.spoolInflightMs.1 ≤ i64Max
          · obtain ⟨t, hnext, hq, hseq, hrows⟩ :=
              quiet_claimOldest_some hsel cfg.bounds.inflight_pos hfit
            rw [hq]
            exact .leased nowMs row t hnext hsel hfit hseq hrows
          · rw [quiet_claimOldest_overflow hsel (by omega)]
            exact .failed _ _
  | peek nowMs =>
      rw [SpoolOp.program, quiet_map, quiet_peekOldest]
      exact .peeked nowMs _
  | markDelivered id wallMs =>
      rw [SpoolOp.program, quiet_map, Storage.markDelivered]
      rcases removeBatch_cases deliveredTotal_ne id wallMs hc.delivered with
        hq | ⟨e, hq⟩ | ⟨row, kv', hf, hkv, hq⟩
      · rw [hq]; exact .unknownDelivered id wallMs
      · rw [hq]; exact .failed _ _
      · rw [hq]; exact .delivered id wallMs row kv' hf hkv
  | dropBatch id wallMs =>
      rw [SpoolOp.program, quiet_map, Storage.dropBatch]
      rcases removeBatch_cases droppedTotal_ne id wallMs hc.dropped with
        hq | ⟨e, hq⟩ | ⟨row, kv', hf, hkv, hq⟩
      · rw [hq]; exact .unknownDropped id wallMs
      · rw [hq]; exact .failed _ _
      · rw [hq]; exact .dropped id wallMs row kv' hf hkv
  | recordRetry id nowMs =>
      rw [SpoolOp.program, quiet_map]
      cases hf : d.spool.find id with
      | none => rw [quiet_recordRetry_absent hf]; exact .failed _ _
      | some row =>
          by_cases hatt : cfg.1.maxSpoolAttempts ≤ UInt32.ofNat row.attempts
          · by_cases hnow : 0 < nowMs.1
            · obtain ⟨n, hn, hroom⟩ := hc.dropped
              obtain ⟨kv', hq, hcounter, hframe⟩ :=
                quiet_recordRetry_exhausted hnow hf hatt hn (hroom (rows_ne_nil_of_find hf))
              rw [hq]
              exact .exhausted id nowMs row kv' hf hatt ⟨⟨n, hn, hcounter⟩, hframe⟩
            · obtain ⟨e, hq⟩ := quiet_recordRetry_nonpos hnow hf hatt
              rw [hq]; exact .failed _ _
          · by_cases hnext : 0 ≤ retryAt cfg.1 nowMs row
            · obtain ⟨t, hq, hseq, hrows⟩ := quiet_recordRetry_retried hf hatt hnext
              rw [hq]
              exact .retried id nowMs row t hnext hf hatt hseq hrows
            · rw [quiet_recordRetry_negative hf hatt hnext]
              exact .failed _ _
  | prune nowMs =>
      rw [SpoolOp.program, quiet_map, quiet_prune]
      exact .pruned nowMs

/-- **A call does one of the things of `SpoolStep`**, whichever of its statements fail. -/
theorem SpoolCall.step (cfg : ValidConfig) (call : SpoolCall) {d : Db} (hc : CountersReady d) :
    SpoolStep cfg.1 d call.op (call.exec cfg.1 d).1 (call.exec cfg.1 d).2 := by
  rcases call.exec_cases cfg.1 d with h | h
  · rw [h]; exact call.op.step cfg hc
  · rw [h]; exact .failed _ _

end VeSmart.Storage
