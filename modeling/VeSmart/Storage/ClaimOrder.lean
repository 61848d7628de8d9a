import VeSmart.Lib.Ranking
import VeSmart.Storage.Oldest

set_option autoImplicit false

/-! # The order of claims

A claim takes the head of the queue of ready batches and leaves its tail
(`readyQueue_after_claim`): the leased batch is not ready any more, and no other row changes. So
repeated claims at one instant hand out the ready batches one after the other, each once, and
then nothing (`claim_order`). -/

namespace VeSmart.Storage

open VeSmart.Lib

variable {cfg : StorageConfig} {now : I64} {d : Db} {t t' : SpoolTable} {row : SpoolRow}

/-! ## The queue -/

/-- The ready batches in the replay order. -/
def SpoolTable.readyQueue (t : SpoolTable) (nowMs : Int) (maxAttempts : UInt32) :
    List SpoolRow :=
  (t.rows.filter (SpoolRow.ready nowMs maxAttempts)).insertionSort SpoolRow.fifoLe

theorem SpoolTable.selectReady_eq_head (t : SpoolTable) (nowMs : Int) (maxAttempts : UInt32) :
    t.selectReady nowMs maxAttempts = (t.readyQueue nowMs maxAttempts).head? := rfl

theorem SpoolTable.mem_readyQueue {nowMs : Int} {maxAttempts : UInt32} {r : SpoolRow} :
    r ∈ t.readyQueue nowMs maxAttempts ↔ r ∈ t.rows ∧ r.ready nowMs maxAttempts = true := by
  rw [SpoolTable.readyQueue, List.mem_insertionSort, List.mem_filter]

/-- The replay order tells the batches of a table apart. -/
theorem SpoolTable.ranked (t : SpoolTable) : Ranked SpoolRow.fifoLe t.rows where
  nodup := List.Nodup.of_map _ t.ids_nodup
  antisymm := fun _ ha _ hb => SpoolTable.fifo_antisymm ha hb

/-- One batch is replayed before another. -/
def SpoolRow.before (a b : SpoolRow) : Prop :=
  a.createdAtMs < b.createdAtMs ∨ (a.createdAtMs = b.createdAtMs ∧ a.id < b.id)

theorem SpoolRow.before_iff {a b : SpoolRow} : a.before b ↔ a.fifoLe b ∧ ¬ b.fifoLe a := by
  unfold SpoolRow.before SpoolRow.fifoLe
  omega

theorem SpoolTable.readyQueue_increasing (t : SpoolTable) (nowMs : Int) (maxAttempts : UInt32) :
    (t.readyQueue nowMs maxAttempts).Pairwise SpoolRow.before := by
  have hranked := t.ranked.sublist (List.filter_sublist (p := SpoolRow.ready nowMs maxAttempts))
  have hperm := List.perm_insertionSort SpoolRow.fifoLe
    (t.rows.filter (SpoolRow.ready nowMs maxAttempts))
  have hqueue := hranked.perm hperm.symm
  have hsorted := List.pairwise_insertionSort SpoolRow.fifoLe
    (t.rows.filter (SpoolRow.ready nowMs maxAttempts))
  refine (hsorted.and hqueue.nodup).imp_of_mem ?_
  rintro a b ha hb ⟨hab, hne⟩
  rw [SpoolRow.before_iff]
  exact ⟨hab, fun hba => hne (hqueue.antisymm a ha b hb hab hba)⟩

/-! ## One claim -/

/-- The batch that a claim hands out for a row. -/
def SpoolRow.leased (cfg : StorageConfig) (nowMs : I64) (r : SpoolRow) : SpoolBatch :=
  { r.toBatch with
    attempts := r.toBatch.attempts + 1
    nextAttemptAtMs := nowMs.1 + cfg.spoolInflightMs.1 }

/-- A ready row has an attempt left, so neither the cut to 32 bits nor the increment loses
anything. -/
theorem SpoolRow.leased_attempts (hready : row.attempts < cfg.maxSpoolAttempts.toNat) :
    (row.leased cfg now).attempts.toNat = row.attempts + 1 := by
  have hmax := cfg.maxSpoolAttempts.toNat_lt
  show (UInt32.ofNat row.attempts + 1).toNat = _
  rw [UInt32.toNat_add, UInt32.toNat_ofNat', UInt32.toNat_one]
  omega

/-- The lease takes its row out of the ready ones and leaves the others. -/
theorem filter_leaseRows {rows : List SpoolRow} {next nowMs : Int} {maxAttempts : UInt32}
    (id : Int) (h : 0 ≤ next) (hlater : nowMs < next) :
    (leaseRows rows id next h).filter (SpoolRow.ready nowMs maxAttempts) =
      (rows.filter (SpoolRow.ready nowMs maxAttempts)).filter fun r => r.id ≠ id := by
  induction rows with
  | nil => rfl
  | cons r rest ih =>
      rw [leaseRows] at ih ⊢
      rw [List.map_cons]
      by_cases hid : r.id = id
      · have hout : SpoolRow.ready nowMs maxAttempts (r.reschedule 1 next h) = false := by
          have : ¬ next ≤ nowMs := by omega
          simp [SpoolRow.ready, SpoolRow.reschedule, this]
        rw [if_pos hid, List.filter_cons_of_neg (by simp [hout]), ih]
        by_cases hready : r.ready nowMs maxAttempts = true
        · rw [List.filter_cons_of_pos hready, List.filter_cons_of_neg (by simp [hid])]
        · rw [List.filter_cons_of_neg hready]
      · rw [if_neg hid]
        by_cases hready : r.ready nowMs maxAttempts = true
        · rw [List.filter_cons_of_pos hready, List.filter_cons_of_pos hready,
            List.filter_cons_of_pos (by simp [hid]), ih]
        · rw [List.filter_cons_of_neg hready, List.filter_cons_of_neg hready, ih]

/-- A claim leaves the tail of the queue. -/
theorem readyQueue_after_claim {maxAttempts : UInt32} {nowMs next : Int} (h : 0 ≤ next)
    (hlater : nowMs < next) (hselect : t.selectReady nowMs maxAttempts = some row)
    (hrows : t'.rows = leaseRows t.rows row.id next h) :
    t.readyQueue nowMs maxAttempts = row :: t'.readyQueue nowMs maxAttempts := by
  rw [SpoolTable.selectReady_eq_head] at hselect
  obtain ⟨rest, hqueue⟩ : ∃ rest, t.readyQueue nowMs maxAttempts = row :: rest := by
    cases hlist : t.readyQueue nowMs maxAttempts with
    | nil => simp [hlist] at hselect
    | cons first rest =>
        rw [hlist, List.head?_cons, Option.some_inj] at hselect
        exact ⟨rest, by rw [hselect]⟩
  have hrow : row ∈ t.rows := (SpoolTable.mem_readyQueue.mp (hqueue ▸ List.mem_cons_self)).1
  have hranked := t.ranked.sublist (List.filter_sublist (p := SpoolRow.ready nowMs maxAttempts))
  have htail := insertionSort_tail hranked hqueue (p := fun r => decide (r.id ≠ row.id))
    (by simp) (by
      intro r hr hne
      rw [decide_eq_true_eq]
      exact fun hid => hne (SpoolTable.eq_of_id (List.mem_of_mem_filter hr) hrow hid))
  rw [hqueue, SpoolTable.readyQueue, hrows, filter_leaseRows row.id h hlater, htail]

/-- A claim when some batch is ready. -/
theorem claim_of_queue (hcfg : cfg.Bounds) (hfit : now.1 + cfg.spoolInflightMs.1 ≤ i64Max)
    (hselect : d.spool.selectReady now.1 cfg.maxSpoolAttempts = some row) :
    ∃ t' hnext, quiet (claimOldest cfg now) d =
        (.ok (some (row.leased cfg now)), { d with spool := t' }) ∧
      t'.seq = d.spool.seq ∧
      t'.rows = leaseRows d.spool.rows row.id (now.1 + cfg.spoolInflightMs.1) hnext ∧
      d.spool.readyQueue now.1 cfg.maxSpoolAttempts =
        row :: t'.readyQueue now.1 cfg.maxSpoolAttempts := by
  obtain ⟨t', hnext, hrun, hseq, hrows⟩ := quiet_claimOldest_some hselect hcfg.inflight_pos hfit
  have hpos := hcfg.inflight_pos
  exact ⟨t', hnext, hrun, hseq, hrows,
    readyQueue_after_claim hnext (by omega) hselect hrows⟩

/-! ## Repeated claims -/

/-- `n` claims at one instant: what each returns, in order. -/
def claims (cfg : StorageConfig) (nowMs : I64) :
    Nat → Db → List (Except StorageError (Option SpoolBatch))
  | 0, _ => []
  | n + 1, d =>
      (quiet (claimOldest cfg nowMs) d).1 ::
        claims cfg nowMs n (quiet (claimOldest cfg nowMs) d).2

theorem claims_none (hnone : d.spool.selectReady now.1 cfg.maxSpoolAttempts = none) (n : Nat) :
    claims cfg now n d = List.replicate n (.ok none) := by
  induction n with
  | zero => rfl
  | succ n ih => rw [claims, quiet_claimOldest_none hnone, ih, List.replicate_succ]

/-- Padding behind the first `n` entries does not show among them. -/
theorem take_padded {α : Type} (xs : List α) (x : α) (n : Nat) :
    (xs ++ List.replicate (n + 1) x).take n = (xs ++ List.replicate n x).take n := by
  rw [List.replicate_succ', ← List.append_assoc, List.take_append_of_le_length (by simp)]

/-- The claims go through the queue, and then there is nothing left to claim. -/
theorem claims_eq_queue (hcfg : cfg.Bounds) (hfit : now.1 + cfg.spoolInflightMs.1 ≤ i64Max)
    (n : Nat) (d : Db) :
    claims cfg now n d =
      ((d.spool.readyQueue now.1 cfg.maxSpoolAttempts).map
          (fun r : SpoolRow => Except.ok (some (r.leased cfg now))) ++
        List.replicate n (Except.ok none)).take n := by
  induction n generalizing d with
  | zero => rfl
  | succ n ih =>
      cases hselect : d.spool.selectReady now.1 cfg.maxSpoolAttempts with
      | none =>
          have hempty : d.spool.readyQueue now.1 cfg.maxSpoolAttempts = [] := by
            rwa [SpoolTable.selectReady_eq_head, List.head?_eq_none_iff] at hselect
          rw [claims_none hselect, hempty]
          simp
      | some row =>
          obtain ⟨t', _, hrun, -, -, hqueue⟩ := claim_of_queue hcfg hfit hselect
          rw [claims, hrun, ih, hqueue, List.map_cons, List.cons_append, List.take_succ_cons,
            take_padded]

/-- **Claim order.** A claim answers nothing exactly when no row is ready; otherwise it leases the
oldest ready row, the one that peeking shows, and changes nothing else. Claims at one instant hand
out all ready rows, each once, in the replay order. -/
theorem claim_order (cfg : ValidConfig) (now : I64) (d : Db)
    (hfit : now.1 + cfg.1.spoolInflightMs.1 ≤ i64Max) :
    ((quiet (claimOldest cfg.1 now) d).1 = .ok none ↔
      ∀ r ∈ d.spool.rows, ¬ r.ready now.1 cfg.1.maxSpoolAttempts) ∧
    ((quiet (claimOldest cfg.1 now) d).1 = .ok none → (quiet (claimOldest cfg.1 now) d).2 = d) ∧
    ((∃ r ∈ d.spool.rows, r.ready now.1 cfg.1.maxSpoolAttempts) →
      ∃ row ∈ d.spool.rows, row.ready now.1 cfg.1.maxSpoolAttempts ∧
        (∀ r ∈ d.spool.rows, r.ready now.1 cfg.1.maxSpoolAttempts → r = row ∨ row.before r) ∧
        quiet (peekOldest now cfg.1.maxSpoolAttempts) d = (.ok (some row.toBatch), d) ∧
        ∃ batch t' hnext,
          quiet (claimOldest cfg.1 now) d = (.ok (some batch), { d with spool := t' }) ∧
          batch = { row.toBatch with
            attempts := batch.attempts
            nextAttemptAtMs := now.1 + cfg.1.spoolInflightMs.1 } ∧
          batch.attempts.toNat = row.attempts + 1 ∧
          t'.seq = d.spool.seq ∧
          t'.rows = d.spool.rows.map fun r =>
            if r.id = row.id then r.reschedule 1 (now.1 + cfg.1.spoolInflightMs.1) hnext else r) ∧
    ∃ queue : List SpoolRow,
      (∀ r, r ∈ queue ↔ r ∈ d.spool.rows ∧ r.ready now.1 cfg.1.maxSpoolAttempts) ∧
      queue.Pairwise SpoolRow.before ∧
      ∀ n, claims cfg.1 now n d =
        (queue.map (fun r : SpoolRow => Except.ok (some (r.leased cfg.1 now))) ++
          List.replicate n (Except.ok none)).take n := by
  have hcfg := cfg.bounds
  refine ⟨?_, ?_, ?_, d.spool.readyQueue now.1 cfg.1.maxSpoolAttempts,
    fun r => SpoolTable.mem_readyQueue, SpoolTable.readyQueue_increasing _ _ _,
    fun n => claims_eq_queue hcfg hfit n d⟩
  · cases hselect : d.spool.selectReady now.1 cfg.1.maxSpoolAttempts with
    | none =>
        have hidle := SpoolTable.selectReady_none.mp hselect
        simp only [quiet_claimOldest_none hselect, Bool.not_eq_true, true_iff]
        exact hidle
    | some row =>
        obtain ⟨hrow, hready, -⟩ := SpoolTable.selectReady_oldest hselect
        obtain ⟨t', _, hrun, -⟩ := claim_of_queue hcfg hfit hselect
        rw [hrun]
        constructor
        · intro h
          cases h
        · exact fun hidle => absurd hready (hidle row hrow)
  · intro hnone
    cases hselect : d.spool.selectReady now.1 cfg.1.maxSpoolAttempts with
    | none => rw [quiet_claimOldest_none hselect]
    | some row =>
        obtain ⟨t', _, hrun, -⟩ := claim_of_queue hcfg hfit hselect
        rw [hrun] at hnone
        cases hnone
  · rintro ⟨r, hr, hdue⟩
    cases hselect : d.spool.selectReady now.1 cfg.1.maxSpoolAttempts with
    | none =>
        rw [SpoolTable.selectReady_none.mp hselect r hr] at hdue
        cases hdue
    | some row =>
        obtain ⟨hrow, hready, holdest⟩ := SpoolTable.selectReady_oldest hselect
        obtain ⟨t', hnext, hrun, hseq, hrows, -⟩ := claim_of_queue hcfg hfit hselect
        have hleft := (SpoolTable.selectReady_mem hselect).2.2
        refine ⟨row, hrow, hready, ?_, ?_, _, t', hnext, hrun, rfl,
          SpoolRow.leased_attempts hleft, hseq, hrows⟩
        · intro r hr hdue
          by_cases hsame : r = row
          · exact .inl hsame
          · have hle := holdest r hr hdue
            exact .inr (SpoolRow.before_iff.mpr ⟨hle, fun hge =>
              hsame (SpoolTable.fifo_antisymm hr hrow hge hle)⟩)
        · rw [quiet_peekOldest, hselect, Option.map_some]

/-- A row that nobody has tried to deliver yet. -/
def untriedRow (id createdAtMs : Int) (h : decide (0 < createdAtMs) = true) : SpoolRow where
  id := id
  device := "shunt"
  createdAtMs := createdAtMs
  payload := [0]
  attempts := 0
  nextAttemptAtMs := createdAtMs
  created_pos := of_decide_eq_true h
  payload_ne := List.cons_ne_nil _ _
  next_nonneg := Int.le_of_lt (of_decide_eq_true h)

/-- Three rows: the second and the third are from one instant, before the first. -/
def tiedRows : Db :=
  { Db.empty with
    spool := {
      rows := [untriedRow 1 20 rfl, untriedRow 2 10 rfl, untriedRow 3 10 rfl]
      seq := 3
      ids_increasing := by decide
      ids_le_seq := by decide
      seq_bounds := by decide } }

theorem tiedRows_claimed :
    ∃ queue : List SpoolRow,
      (∀ r, r ∈ queue ↔ r ∈ tiedRows.spool.rows ∧ r.ready 30 5) ∧
      queue.Pairwise SpoolRow.before ∧
      ∀ n, claims StorageConfig.conservative (ms 30) n tiedRows =
        (queue.map (fun r : SpoolRow =>
            Except.ok (some (r.leased StorageConfig.conservative (ms 30)))) ++
          List.replicate n (Except.ok none)).take n :=
  (claim_order ⟨StorageConfig.conservative, StorageConfig.conservative_valid⟩ (ms 30) tiedRows
    (by decide)).2.2.2

end VeSmart.Storage
