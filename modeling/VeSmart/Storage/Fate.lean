import VeSmart.Storage.Spool

set_option autoImplicit false

/-! # What the bookkeeping of a batch can do

`mark_delivered`, `drop_batch` and `record_retry` by their results, whatever the stored counters
say: an operation that fails has changed nothing (`removeBatch_outcome`, `recordRetry_outcome`), so the
result tells whether the batch is still there. -/

namespace VeSmart.Storage

open VeSmart.Lib

variable {d : Db} {id : Int}

/-- Counting touches no table but that of the counters, whether it fails or not. -/
theorem exec_bumpCounter_kv {key : String} (hkey : key ≠ "") (nowMs : Int) (d w : Db) :
    ∃ r kv', exec (bumpCounter key nowMs) ⟨d, some w, []⟩ =
      (r, ⟨d, some { w with kv := kv' }, []⟩) := by
  unfold bumpCounter
  cases hread : readI64 key ((w.kv key).map KvRow.value) with
  | error e =>
      refine ⟨.error e, w.kv, ?_⟩
      rw [exec_bind_error (by rw [exec_getKvI64, hread])]
  | ok current =>
      rw [exec_bind_ok (by rw [exec_getKvI64, hread])]
      by_cases hnow : 0 < nowMs
      · exact ⟨_, _, exec_setKv hkey _ hnow d w⟩
      · exact ⟨_, w.kv, exec_setKv_nonpos hkey _ hnow d w⟩

/-- The batch is gone. -/
def SpoolTable.without (t : SpoolTable) (id : Int) : SpoolTable :=
  (t.deleteWhere fun r => r.id = id).2

@[simp] theorem SpoolTable.find_without (t : SpoolTable) (id : Int) :
    (t.without id).find id = none := by
  unfold SpoolTable.find SpoolTable.without
  rw [SpoolTable.deleteWhere_rows, List.find?_eq_none]
  intro r hr
  simpa using (List.mem_filter.mp hr).2

/-- A statement that rewrites rows is seen by who looks them up. -/
theorem SpoolTable.find_map {t t' : SpoolTable} {f : SpoolRow → SpoolRow}
    (hrows : t'.rows = t.rows.map f) (hid : ∀ r, (f r).id = r.id) (id : Int) :
    t'.find id = (t.find id).map f := by
  unfold SpoolTable.find
  rw [hrows, List.find?_map]
  congr 1
  apply List.find?_congr
  intro r _
  simp [hid]

/-- An update leaves every batch in the spool. -/
theorem SpoolTable.update_find {t t' : SpoolTable} {p : SpoolRow → Bool} {bump n : Nat} {next : Int}
    (h : t.update p bump next = .ok (n, t')) (id : Int) :
    (t'.find id).isSome = (t.find id).isSome := by
  by_cases hnext : 0 ≤ next
  · obtain ⟨-, -, hrows⟩ := SpoolTable.update_ok hnext h
    rw [SpoolTable.find_map hrows (fun r => by split <;> rfl), Option.isSome_map]
  · rw [SpoolTable.update, dif_neg hnext] at h
    split at h
    · cases h
    · cases h
      rfl

/-- A removal fails and changes nothing, or the batch is gone and the result tells whether it was
there. -/
theorem removeBatch_outcome {counter : String} (hkey : counter ≠ "") (id : Int) (nowMs : I64)
    (d : Db) (faults : List Bool) :
    (∃ e faults', exec (removeBatch counter id nowMs) ⟨d, none, faults⟩ =
        (.error e, ⟨d, none, faults'⟩)) ∨
      ∃ d' faults', exec (removeBatch counter id nowMs) ⟨d, none, faults⟩ =
          (.ok (d.spool.find id).isSome, ⟨d', none, faults'⟩) ∧ d'.spool = d.spool.without id := by
  obtain ⟨faults', hrun | hrun⟩ := (removeBatch_allOrNothing counter id nowMs).exec_cases d faults
  · rw [hrun]
    have hcount : (d.spool.deleteWhere fun r => r.id = id).1 =
        if (d.spool.find id).isSome then 1 else 0 := by
      rw [SpoolTable.deleteWhere_count, SpoolTable.countP_id]
    cases hfind : d.spool.find id with
    | none =>
        rw [quiet_removeBatch_absent hfind]
        refine .inr ⟨d, faults', rfl, ?_⟩
        refine SpoolTable.ext_rows ?_ rfl
        rw [SpoolTable.without, SpoolTable.deleteWhere_rows, eq_comm, List.filter_eq_self]
        intro r hr
        simpa using SpoolTable.find_none hfind r hr
    | some row =>
        rw [hfind] at hcount
        obtain ⟨r, kv', hbump⟩ := exec_bumpCounter_kv hkey nowMs.1 d
          { d with spool := (d.spool.deleteWhere fun r => r.id = id).2 }
        cases r with
        | error e =>
            left
            refine ⟨e, faults', ?_⟩
            simp [removeBatch, quiet_transaction, exec_bind, hcount, hbump]
        | ok u =>
            right
            refine ⟨{ d with kv := kv', spool := d.spool.without id }, faults', ?_, rfl⟩
            simp [removeBatch, quiet_transaction, exec_bind, hcount, hbump, SpoolTable.without]
  · exact .inl ⟨_, _, hrun⟩

/-- A retry fails and changes nothing, or the batch is gone, or it has a new deadline. -/
theorem recordRetry_outcome (cfg : StorageConfig) (id : Int) (nowMs : I64) (d : Db)
    (faults : List Bool) :
    (∃ e faults', exec (recordRetry cfg id nowMs) ⟨d, none, faults⟩ =
        (.error e, ⟨d, none, faults'⟩)) ∨
      (∃ attempts d' faults', exec (recordRetry cfg id nowMs) ⟨d, none, faults⟩ =
          (.ok (.dropped attempts), ⟨d', none, faults'⟩) ∧ d'.spool = d.spool.without id) ∨
      ∃ row next d' faults', exec (recordRetry cfg id nowMs) ⟨d, none, faults⟩ =
          (.ok (.retried next (UInt32.ofNat row.attempts)), ⟨d', none, faults'⟩) ∧
        d.spool.find id = some row ∧
        ∃ hnext, d'.spool.rows = retryRows d.spool.rows id next hnext := by
  obtain ⟨faults', hrun | hrun⟩ := (recordRetry_allOrNothing cfg id nowMs).exec_cases d faults
  · rw [hrun]
    cases hfind : d.spool.find id with
    | none =>
        rw [quiet_recordRetry_absent hfind]
        exact .inl ⟨_, _, rfl⟩
    | some row =>
        by_cases hspent : cfg.maxSpoolAttempts ≤ UInt32.ofNat row.attempts
        · obtain ⟨r, kv', hbump⟩ := exec_bumpCounter_kv droppedTotal_ne nowMs.1 d
            { d with spool := (d.spool.deleteWhere fun r => r.id = id).2 }
          cases r with
          | error e =>
              left
              refine ⟨e, faults', ?_⟩
              simp [recordRetry, quiet_transaction, exec_bind, hfind, hspent, hbump]
          | ok u =>
              right
              left
              refine ⟨UInt32.ofNat row.attempts, { d with kv := kv', spool := d.spool.without id },
                faults', ?_, rfl⟩
              simp [recordRetry, quiet_transaction, exec_bind, hfind, hspent, hbump,
                SpoolTable.without]
        · by_cases hnext : 0 ≤ retryAt cfg nowMs row
          · obtain ⟨t, hquiet, -, hrows⟩ := quiet_recordRetry_retried hfind hspent hnext
            rw [hquiet]
            exact .inr (.inr ⟨row, _, _, _, rfl, rfl, hnext, hrows⟩)
          · rw [quiet_recordRetry_negative hfind hspent hnext]
            exact .inl ⟨_, _, rfl⟩
  · exact .inl ⟨_, _, hrun⟩

end VeSmart.Storage
