import VeSmart.Storage.Operations

set_option autoImplicit false

/-! # The ledger of the spool

A `History` is what the callers of the spool have been told: which batches were accepted, and
which ids were reported delivered, dropped or pruned. `Balanced` ties the database to it:
every id ever issued is queued or in exactly one of the three lists, the two counters in
`collector_state` are the lengths of theirs, and a queued row still has the bytes that were
accepted. The invariant holds of every run (`ledgerRun_balanced`), with failing calls, unknown
ids and replays included. -/

namespace VeSmart.Storage

open VeSmart.Lib

/-- A batch as it was accepted. -/
structure SpoolEntry where
  id : Int
  device : String
  payload : List UInt8
  deriving DecidableEq

structure History where
  inserted : List SpoolEntry
  delivered : List Int
  dropped : List Int
  pruned : List Int
  removed : Nat
  deriving DecidableEq

def History.empty : History := ⟨[], [], [], [], 0⟩

/-- The ids that have disappeared between two states. -/
def vanished (before after : SpoolTable) : List Int :=
  (before.rows.map SpoolRow.id).filter fun id => id ∉ after.rows.map SpoolRow.id

/-- The history after a call with the result `r`. -/
def History.record (h : History) (before after : Db) :
    SpoolOp → Except StorageError SpoolResult → History
  | .enqueue device payload _, .ok (.enqueued id) =>
      { h with inserted := h.inserted ++ [⟨id, device, payload⟩] }
  | .commit c, .ok (.commit (.committed id)) =>
      { h with inserted := h.inserted ++ [⟨id, c.device, c.payload⟩] }
  | .markDelivered id _, .ok (.delivered true) => { h with delivered := h.delivered ++ [id] }
  | .dropBatch id _, .ok (.dropped true) => { h with dropped := h.dropped ++ [id] }
  | .recordRetry id _, .ok (.retry (.dropped _)) => { h with dropped := h.dropped ++ [id] }
  | .prune _, .ok (.pruned s) =>
      { h with
        pruned := h.pruned ++ vanished before.spool after.spool
        removed := h.removed + s.removed }
  | _, _ => h

/-- One call, and what is recorded of it. -/
def ledgerStep (cfg : StorageConfig) (s : Db × History) (call : SpoolCall) : Db × History :=
  ((call.exec cfg s.1).2, s.2.record s.1 (call.exec cfg s.1).2 call.op (call.exec cfg s.1).1)

/-- A run from the empty database. -/
def ledgerRun (cfg : StorageConfig) (calls : List SpoolCall) : Db × History :=
  calls.foldl (ledgerStep cfg) (Db.empty, History.empty)

/-- The database and the history agree. -/
structure Balanced (d : Db) (h : History) : Prop where
  accounts : (d.spool.rows.map SpoolRow.id ++ h.delivered ++ h.dropped ++ h.pruned).Perm
    (h.inserted.map SpoolEntry.id)
  issued_nodup : (h.inserted.map SpoolEntry.id).Nodup
  issued_le : ∀ e ∈ h.inserted, e.id ≤ d.spool.seq
  issued_length : (h.inserted.length : Int) = d.spool.seq
  payloads : ∀ r ∈ d.spool.rows, ⟨r.id, r.device, r.payload⟩ ∈ h.inserted
  delivered : Counter d.kv deliveredTotal h.delivered.length
  dropped : Counter d.kv droppedTotal h.dropped.length
  removed : h.removed = h.pruned.length

theorem Balanced.empty : Balanced Db.empty History.empty where
  accounts := List.Perm.refl _
  issued_nodup := List.nodup_nil
  issued_le := by simp [History.empty]
  issued_length := rfl
  payloads := by simp [Db.empty, SpoolTable.empty]
  delivered := Counter.empty _
  dropped := Counter.empty _
  removed := rfl

/-- The balance in numbers. -/
theorem Balanced.total {d : Db} {h : History} (hb : Balanced d h) :
    h.inserted.length =
      d.spool.rows.length + h.delivered.length + h.dropped.length + h.removed := by
  have hlen := hb.accounts.length_eq
  simp only [List.length_append, List.length_map] at hlen
  rw [hb.removed]
  omega

/-- Nothing is counted twice. -/
theorem Balanced.disjoint {d : Db} {h : History} (hb : Balanced d h) :
    (h.delivered ++ h.dropped ++ h.pruned).Nodup := by
  have hnodup := (hb.accounts.nodup_iff).mpr hb.issued_nodup
  rw [List.append_assoc, List.append_assoc, ← List.append_assoc h.delivered] at hnodup
  exact (List.nodup_append.mp hnodup).2.1

/-- Every accepted batch is queued or counted out: by a delivery, a drop or a prune. -/
def CountedOut (d : Db) (h : History) : Prop :=
  ∀ e ∈ h.inserted, (∃ r ∈ d.spool.rows, r.id = e.id) ∨
    e.id ∈ h.delivered ∨ e.id ∈ h.dropped ∨ e.id ∈ h.pruned

theorem Balanced.countedOut {d : Db} {h : History} (hb : Balanced d h) : CountedOut d h := by
  intro e he
  have hmem := hb.accounts.mem_iff.mpr (List.mem_map_of_mem he)
  simpa only [List.mem_append, List.mem_map, or_assoc] using hmem

theorem Balanced.ready {d : Db} {h : History} (hb : Balanced d h) : CountersReady d := by
  have htotal := hb.total
  have hlen := hb.issued_length
  have hseq := d.spool.seq_bounds
  have hroom : d.spool.rows ≠ [] → 0 < d.spool.rows.length := List.length_pos_of_ne_nil
  constructor
  · exact ⟨_, hb.delivered, fun hne => by have := hroom hne; omega⟩
  · exact ⟨_, hb.dropped, fun hne => by have := hroom hne; omega⟩

/-! ## Changes that keep the balance -/

/-- Rows with new deadlines and attempt counts. -/
theorem Balanced.reschedule {d : Db} {h : History} (hb : Balanced d h) {t : SpoolTable}
    (f : SpoolRow → SpoolRow)
    (hf : ∀ r, (f r).id = r.id ∧ (f r).device = r.device ∧ (f r).payload = r.payload)
    (hseq : t.seq = d.spool.seq) (hrows : t.rows = d.spool.rows.map f) :
    Balanced { d with spool := t } h := by
  have hids : t.rows.map SpoolRow.id = d.spool.rows.map SpoolRow.id := by
    rw [hrows, List.map_map]
    exact List.map_congr_left fun r _ => (hf r).1
  refine ⟨?_, hb.issued_nodup, ?_, ?_, ?_, hb.delivered, hb.dropped, hb.removed⟩
  · show (t.rows.map SpoolRow.id ++ _ ++ _ ++ _).Perm _
    rw [hids]
    exact hb.accounts
  · show ∀ e ∈ h.inserted, e.id ≤ t.seq
    rw [hseq]
    exact hb.issued_le
  · show (h.inserted.length : Int) = t.seq
    rw [hseq]
    exact hb.issued_length
  · intro r hr
    have hr' : r ∈ t.rows := hr
    rw [hrows] at hr'
    obtain ⟨a, ha, rfl⟩ := List.mem_map.mp hr'
    rw [(hf a).1, (hf a).2.1, (hf a).2.2]
    exact hb.payloads a ha

/-- A new batch, with writes that leave the counters alone. -/
theorem Balanced.insert {d d' : Db} {h : History} (hb : Balanced d h) {device : String}
    {createdAtMs id : Int} {payload : List UInt8}
    (hins : d.spool.insert device createdAtMs payload = .ok (id, d'.spool))
    (hdel : d'.kv deliveredTotal = d.kv deliveredTotal)
    (hdrop : d'.kv droppedTotal = d.kv droppedTotal) :
    Balanced d' { h with inserted := h.inserted ++ [⟨id, device, payload⟩] } := by
  obtain ⟨rfl, hseq, row, hrows, hid, hdev, -, hpay, -, -⟩ := SpoolTable.insert_ok hins
  refine ⟨?_, ?_, ?_, ?_, ?_, ?_, ?_, hb.removed⟩
  · rw [List.perm_iff_count]
    intro x
    have hcount := List.perm_iff_count.mp hb.accounts x
    simp only [hrows, List.map_append, List.map_cons, List.map_nil, List.count_append, hid]
      at hcount ⊢
    omega
  · rw [List.map_append, List.nodup_append]
    refine ⟨hb.issued_nodup, List.nodup_singleton _, ?_⟩
    intro a ha b hmem
    obtain ⟨e, he, rfl⟩ := List.mem_map.mp ha
    have hle := hb.issued_le e he
    have hb' : b = d.spool.seq + 1 := by simpa using hmem
    omega
  · intro e he
    rcases List.mem_append.mp he with he | he
    · have := hb.issued_le e he
      omega
    · rw [List.mem_singleton] at he
      subst he
      exact le_of_eq hseq.symm
  · have := hb.issued_length
    simp only [List.length_append, List.length_cons, List.length_nil]
    omega
  · intro r hr
    rw [hrows] at hr
    rcases List.mem_append.mp hr with hr | hr
    · exact List.mem_append_left _ (hb.payloads r hr)
    · rw [List.mem_singleton] at hr
      subst hr
      apply List.mem_append_right
      rw [List.mem_singleton, hid, hdev, hpay]
  · exact hb.delivered.congr hdel
  · exact hb.dropped.congr hdrop

/-- Deleting the batch `id` takes exactly that id out of the queue. -/
theorem count_deleteWhere_id {t : SpoolTable} {id : Int} {row : SpoolRow}
    (h : t.find id = some row) (x : Int) :
    (t.rows.map SpoolRow.id).count x =
      ((t.deleteWhere fun r => r.id = id).2.rows.map SpoolRow.id).count x +
        [id].count x := by
  obtain ⟨hrow, hid⟩ := SpoolTable.find_mem h
  have hperm : (t.rows.map SpoolRow.id).Perm
      (id :: (t.deleteWhere fun r => r.id = id).2.rows.map SpoolRow.id) := by
    have hnodup : (id :: (t.deleteWhere fun r => r.id = id).2.rows.map SpoolRow.id).Nodup := by
      rw [List.nodup_cons]
      refine ⟨?_, SpoolTable.ids_nodup _⟩
      simp
    rw [List.perm_ext_iff_of_nodup t.ids_nodup hnodup]
    intro a
    simp only [SpoolTable.deleteWhere_rows, List.mem_map, List.mem_cons, List.mem_filter,
      Bool.not_eq_true', decide_eq_false_iff_not]
    constructor
    · rintro ⟨r, hr, rfl⟩
      by_cases hr' : r.id = id
      · exact .inl hr'
      · exact .inr ⟨r, ⟨hr, hr'⟩, rfl⟩
    · rintro (rfl | ⟨r, ⟨hr, -⟩, rfl⟩)
      · exact ⟨row, hrow, hid⟩
      · exact ⟨r, hr, rfl⟩
  rw [hperm.count_eq, List.count_cons, List.count_singleton]

/-- A batch is deleted and counted as delivered. -/
theorem Balanced.deliver {d : Db} {h : History} (hb : Balanced d h) {id : Int} {row : SpoolRow}
    (hf : d.spool.find id = some row) {kv' : String → Option KvRow}
    (hkv : Bumped d.kv kv' deliveredTotal) :
    Balanced { d with kv := kv', spool := (d.spool.deleteWhere fun r => r.id = id).2 }
      { h with delivered := h.delivered ++ [id] } := by
  obtain ⟨⟨n, hn, hn'⟩, hframe⟩ := hkv
  refine ⟨?_, hb.issued_nodup, hb.issued_le, hb.issued_length, ?_, ?_, ?_, hb.removed⟩
  · rw [List.perm_iff_count]
    intro x
    have hcount := List.perm_iff_count.mp hb.accounts x
    have hdel := count_deleteWhere_id hf x
    simp only [List.count_append] at hcount ⊢
    omega
  · intro r hr
    exact hb.payloads r (List.mem_of_mem_filter hr)
  · rw [List.length_append, hb.delivered.unique hn]
    exact hn'
  · exact hb.dropped.congr (hframe droppedTotal (by decide))

/-- A batch is deleted and counted as dropped. -/
theorem Balanced.drop {d : Db} {h : History} (hb : Balanced d h) {id : Int} {row : SpoolRow}
    (hf : d.spool.find id = some row) {kv' : String → Option KvRow}
    (hkv : Bumped d.kv kv' droppedTotal) :
    Balanced { d with kv := kv', spool := (d.spool.deleteWhere fun r => r.id = id).2 }
      { h with dropped := h.dropped ++ [id] } := by
  obtain ⟨⟨n, hn, hn'⟩, hframe⟩ := hkv
  refine ⟨?_, hb.issued_nodup, hb.issued_le, hb.issued_length, ?_, ?_, ?_, hb.removed⟩
  · rw [List.perm_iff_count]
    intro x
    have hcount := List.perm_iff_count.mp hb.accounts x
    have hdel := count_deleteWhere_id hf x
    simp only [List.count_append] at hcount ⊢
    omega
  · intro r hr
    exact hb.payloads r (List.mem_of_mem_filter hr)
  · exact hb.delivered.congr (hframe deliveredTotal (by decide))
  · rw [List.length_append, hb.dropped.unique hn]
    exact hn'

theorem pruned_sublist (cfg : StorageConfig) (nowMs : I64) (t : SpoolTable) :
    (t.pruned cfg nowMs).rows.Sublist t.rows := by
  have h₁ : (t.pruneAged cfg nowMs).rows.Sublist t.rows := List.filter_sublist
  have h₂ : ((t.pruneAged cfg nowMs).pruneExhausted cfg).rows.Sublist
      (t.pruneAged cfg nowMs).rows := List.filter_sublist
  have h₃ : (t.pruned cfg nowMs).rows.Sublist
      ((t.pruneAged cfg nowMs).pruneExhausted cfg).rows := List.filter_sublist
  exact h₃.trans (h₂.trans h₁)

/-- What has vanished and what is left make up what was there. -/
theorem vanished_perm {t t' : SpoolTable} (h : t'.rows.Sublist t.rows) :
    (t.rows.map SpoolRow.id).Perm (t'.rows.map SpoolRow.id ++ vanished t t') := by
  have hnodup : (t'.rows.map SpoolRow.id ++ vanished t t').Nodup := by
    rw [List.nodup_append]
    refine ⟨t'.ids_nodup, t.ids_nodup.filter _, ?_⟩
    rintro a ha b hb rfl
    have := (List.mem_filter.mp hb).2
    simp only [decide_not, Bool.not_eq_true', decide_eq_false_iff_not] at this
    exact this ha
  rw [List.perm_ext_iff_of_nodup t.ids_nodup hnodup]
  intro a
  have hsub : a ∈ t'.rows.map SpoolRow.id → a ∈ t.rows.map SpoolRow.id :=
    fun ha => (h.map SpoolRow.id).subset ha
  unfold vanished
  rw [List.mem_append, List.mem_filter]
  by_cases ha : a ∈ t'.rows.map SpoolRow.id
  · simp [ha, hsub ha]
  · simp [ha]

theorem Balanced.prune {d : Db} {h : History} (hb : Balanced d h) {t : SpoolTable}
    (hseq : t.seq = d.spool.seq) (hsub : t.rows.Sublist d.spool.rows) :
    Balanced { d with spool := t }
      { h with
        pruned := h.pruned ++ vanished d.spool t
        removed := h.removed + (d.spool.rows.length - t.rows.length) } := by
  have hperm := vanished_perm hsub
  refine ⟨?_, hb.issued_nodup, ?_, ?_, ?_, hb.delivered, hb.dropped, ?_⟩
  · rw [List.perm_iff_count]
    intro x
    have hcount := List.perm_iff_count.mp hb.accounts x
    have hx := List.perm_iff_count.mp hperm x
    simp only [List.count_append] at hcount hx ⊢
    omega
  · show ∀ e ∈ h.inserted, e.id ≤ t.seq
    rw [hseq]
    exact hb.issued_le
  · show (h.inserted.length : Int) = t.seq
    rw [hseq]
    exact hb.issued_length
  · intro r hr
    exact hb.payloads r (hsub.subset hr)
  · have hlen := hperm.length_eq
    have hr := hb.removed
    simp only [List.length_append, List.length_map] at hlen ⊢
    omega

/-! ## Every run is balanced -/

theorem History.record_error (h : History) (d d' : Db) (op : SpoolOp) (e : StorageError) :
    h.record d d' op (.error e) = h := by
  cases op <;> rfl

/-- The identity of a device is stored under another key than the counters. -/
theorem CommitEffect.counters {c : AcquisitionCommit} {d d' : Db} {id : Int}
    (h : CommitEffect c d d' id) :
    d'.kv deliveredTotal = d.kv deliveredTotal ∧ d'.kv droppedTotal = d.kv droppedTotal := by
  obtain ⟨hpos, hkv⟩ := h.kv
  have hdel : deliveredTotal ≠ lastSuccessKey c.device :=
    (lastSuccessKey_ne_spool c.device "delivered_total").symm
  have hdrop : droppedTotal ≠ lastSuccessKey c.device :=
    (lastSuccessKey_ne_spool c.device "dropped_total").symm
  rw [hkv, Function.update_of_ne hdel, Function.update_of_ne hdrop]
  exact ⟨rfl, rfl⟩

/-- **One call keeps the balance.** -/
theorem Balanced.step {cfg : StorageConfig} {d d' : Db} {h : History} {op : SpoolOp}
    {r : Except StorageError SpoolResult} (hb : Balanced d h) (hstep : SpoolStep cfg d op r d') :
    Balanced d' (h.record d d' op r) := by
  cases hstep with
  | failed op e =>
      rw [History.record_error]
      exact hb
  | enqueued device payload nowMs id t hins => exact hb.insert hins rfl rfl
  | already c => exact hb
  | committed c id d' heffect =>
      exact hb.insert heffect.spool heffect.counters.1 heffect.counters.2
  | idle nowMs => exact hb
  | leased nowMs row t hnext hsel hfit hseq hrows =>
      refine hb.reschedule _ (fun r => ?_) hseq hrows
      split <;> exact ⟨rfl, rfl, rfl⟩
  | peeked nowMs batch => exact hb
  | unknownDelivered id wallMs => exact hb
  | delivered id wallMs row kv' hf hkv => exact hb.deliver hf hkv
  | unknownDropped id wallMs => exact hb
  | dropped id wallMs row kv' hf hkv => exact hb.drop hf hkv
  | exhausted id nowMs row kv' hf hatt hkv => exact hb.drop hf hkv
  | retried id nowMs row t hnext hf hatt hseq hrows =>
      refine hb.reschedule _ (fun r => ?_) hseq hrows
      split <;> exact ⟨rfl, rfl, rfl⟩
  | pruned nowMs => exact hb.prune rfl (pruned_sublist cfg nowMs d.spool)

theorem ledgerRun_append (cfg : StorageConfig) (calls : List SpoolCall) (call : SpoolCall) :
    ledgerRun cfg (calls ++ [call]) = ledgerStep cfg (ledgerRun cfg calls) call := by
  simp [ledgerRun]

/-- **Every run is balanced.** -/
theorem ledgerRun_balanced (cfg : ValidConfig) (calls : List SpoolCall) :
    Balanced (ledgerRun cfg.1 calls).1 (ledgerRun cfg.1 calls).2 := by
  induction calls using List.reverseRecOn with
  | nil => exact Balanced.empty
  | append_singleton calls call ih =>
      rw [ledgerRun_append]
      exact ih.step (call.step cfg ih.ready)

/-- Only a delivery moves the delivered counter. -/
theorem SpoolStep.deliveredTotal {cfg : StorageConfig} {d d' : Db} {op : SpoolOp}
    {r : Except StorageError SpoolResult} (hstep : SpoolStep cfg d op r d')
    (hop : ∀ id wallMs, op ≠ .markDelivered id wallMs) :
    d'.kv Storage.deliveredTotal = d.kv Storage.deliveredTotal := by
  cases hstep with
  | delivered id wallMs row kv' hf hkv => exact absurd rfl (hop id wallMs)
  | committed c id d' heffect => exact heffect.counters.1
  | dropped id wallMs row kv' hf hkv => exact hkv.2 _ (by decide)
  | exhausted id nowMs row kv' hf hatt hkv => exact hkv.2 _ (by decide)
  | failed | enqueued | already | idle | leased | peeked | unknownDelivered | unknownDropped
  | retried | pruned => rfl

/-- **Conservation.** After every sequence of calls: the batches ever inserted are the queued
rows plus the two counters plus what `prune` reported removed; the queued payloads are the
accepted ones; no id is counted twice; and no call but `mark_delivered` moves the delivered
counter. -/
theorem spool_conservation (cfg : ValidConfig) (calls : List SpoolCall) :
    (∃ n m : Nat, total (ledgerRun cfg.1 calls).1 deliveredTotal = .ok (n : Int) ∧
        total (ledgerRun cfg.1 calls).1 droppedTotal = .ok (m : Int) ∧
        (ledgerRun cfg.1 calls).2.inserted.length =
          (ledgerRun cfg.1 calls).1.spool.rows.length + n + m +
            (ledgerRun cfg.1 calls).2.removed ∧
        (ledgerRun cfg.1 calls).2.delivered.length = n ∧
        (ledgerRun cfg.1 calls).2.dropped.length = m ∧
        (ledgerRun cfg.1 calls).2.pruned.length = (ledgerRun cfg.1 calls).2.removed) ∧
      ((ledgerRun cfg.1 calls).2.inserted.map SpoolEntry.id).Nodup ∧
      (∀ r ∈ (ledgerRun cfg.1 calls).1.spool.rows,
        ⟨r.id, r.device, r.payload⟩ ∈ (ledgerRun cfg.1 calls).2.inserted) ∧
      ((ledgerRun cfg.1 calls).2.delivered ++ (ledgerRun cfg.1 calls).2.dropped ++
        (ledgerRun cfg.1 calls).2.pruned).Nodup ∧
      ∀ call : SpoolCall, (∀ id wallMs, call.op ≠ .markDelivered id wallMs) →
        total (call.exec cfg.1 (ledgerRun cfg.1 calls).1).2 deliveredTotal =
          total (ledgerRun cfg.1 calls).1 deliveredTotal := by
  have hb := ledgerRun_balanced cfg calls
  refine ⟨⟨_, _, hb.delivered.total, hb.dropped.total, hb.total, rfl, rfl, hb.removed.symm⟩,
    hb.issued_nodup, hb.payloads, hb.disjoint, ?_⟩
  intro call hop
  have hkv := (call.step cfg hb.ready).deliveredTotal hop
  unfold total
  rw [hkv]

end VeSmart.Storage
