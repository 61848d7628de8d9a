import VeSmart.Storage.ClaimOrder

set_option autoImplicit false

/-! # What pruning leaves

The three deletions of `prune` come to one description of the rows that stay: the greatest
`max_spool_batches` in the replay order among those that are young enough and have an attempt left
(`pruned_rows`). The age bound keeps everything newer than what it keeps, so it commutes with the
count bound, and a later prune makes an earlier one superfluous (`pruned_pruned`). -/

namespace VeSmart.Storage

open VeSmart.Lib

variable {cfg : StorageConfig} {now later : I64} {t : SpoolTable}

/-- The row is not older than `max_spool_age_ms`. -/
def SpoolRow.young (cfg : StorageConfig) (nowMs : I64) (r : SpoolRow) : Bool :=
  satI64 (nowMs.1 - cfg.maxSpoolAgeMs.1) ≤ r.createdAtMs

/-- The row has an attempt left. -/
def SpoolRow.untired (cfg : StorageConfig) (r : SpoolRow) : Bool :=
  r.attempts < cfg.maxSpoolAttempts.toNat

/-- The rows that the age bound and the attempt budget leave. -/
def SpoolTable.keepable (cfg : StorageConfig) (nowMs : I64) (t : SpoolTable) : List SpoolRow :=
  t.rows.filter fun r => r.young cfg nowMs && r.untired cfg

theorem SpoolTable.mem_keepable {r : SpoolRow} :
    r ∈ t.keepable cfg now ↔
      r ∈ t.rows ∧ satI64 (now.1 - cfg.maxSpoolAgeMs.1) ≤ r.createdAtMs ∧
        r.attempts < cfg.maxSpoolAttempts.toNat := by
  simp [SpoolTable.keepable, SpoolRow.young, SpoolRow.untired]

theorem SpoolTable.keepable_ranked (cfg : StorageConfig) (now : I64) (t : SpoolTable) :
    Ranked SpoolRow.fifoLe (t.keepable cfg now) :=
  t.ranked.sublist List.filter_sublist

/-- What is replayed after a young row is young. -/
theorem SpoolRow.young_up (a b : SpoolRow) (ha : a.young cfg now = true) (hab : a.fifoLe b) :
    b.young cfg now = true := by
  simp only [SpoolRow.young, decide_eq_true_eq] at ha ⊢
  unfold SpoolRow.fifoLe at hab
  omega

/-- A row that is young later has been young before. -/
theorem SpoolRow.young_mono (hle : now.1 ≤ later.1) (r : SpoolRow)
    (h : r.young cfg later = true) : r.young cfg now = true := by
  simp only [SpoolRow.young, decide_eq_true_eq] at h ⊢
  have hcut : satI64 (now.1 - cfg.maxSpoolAgeMs.1) ≤ satI64 (later.1 - cfg.maxSpoolAgeMs.1) :=
    satI64_mono (by omega)
  omega

/-! ## The count bound -/

/-- The `OFFSET` of the last deletion cuts off the rows of too large a rank. -/
theorem SpoolTable.beyond_iff (t : SpoolTable) (n : Nat) {r : SpoolRow} (hr : r ∈ t.rows) :
    t.beyond n r = true ↔ n ≤ rank SpoolRow.fifoLe t.rows r := by
  have hdrop : r.id ∈ ((t.rows.insertionSort fun a b => b.fifoLe a).drop n).map SpoolRow.id ↔
      r ∈ (t.rows.insertionSort fun a b => b.fifoLe a).drop n := by
    constructor
    · intro h
      obtain ⟨a, ha, hid⟩ := List.mem_map.mp h
      have hin : a ∈ t.rows := ((mem_drop_iff t.ranked n a).mp ha).1
      rwa [← SpoolTable.eq_of_id hin hr hid]
    · exact fun h => List.mem_map.mpr ⟨r, h, rfl⟩
  rw [SpoolTable.beyond, decide_eq_true_eq, hdrop, mem_drop_iff t.ranked]
  exact and_iff_right hr

theorem SpoolTable.pruneBeyond_rows (cfg : StorageConfig) (t : SpoolTable) :
    (t.pruneBeyond cfg).rows = greatest SpoolRow.fifoLe cfg.maxSpoolBatches.toNat t.rows := by
  rw [SpoolTable.pruneBeyond, SpoolTable.deleteWhere_rows, greatest]
  apply List.filter_congr
  intro r hr
  rw [Bool.eq_iff_iff, Bool.not_eq_true', ← Bool.not_eq_true, SpoolTable.beyond_iff t _ hr,
    decide_eq_true_eq]
  omega

/-- **The three deletions together.** -/
theorem SpoolTable.pruned_rows (cfg : StorageConfig) (now : I64) (t : SpoolTable) :
    (t.pruned cfg now).rows =
      greatest SpoolRow.fifoLe cfg.maxSpoolBatches.toNat (t.keepable cfg now) := by
  rw [SpoolTable.pruned, SpoolTable.pruneBeyond_rows]
  congr 1
  rw [SpoolTable.pruneExhausted, SpoolTable.pruneAged, SpoolTable.deleteWhere_rows,
    SpoolTable.deleteWhere_rows, SpoolTable.keepable, List.filter_filter]
  apply List.filter_congr
  intro r _
  rw [SpoolRow.young, SpoolRow.untired, Bool.and_comm, ← decide_not, ← decide_not]
  simp only [not_lt, not_le]

@[simp] theorem SpoolTable.pruned_seq (cfg : StorageConfig) (now : I64) (t : SpoolTable) :
    (t.pruned cfg now).seq = t.seq := rfl

/-! ## Pruning again -/

/-- An earlier prune does not show in what a later one leaves. -/
theorem SpoolTable.pruned_pruned (hle : now.1 ≤ later.1) (t : SpoolTable) :
    (t.pruned cfg now).pruned cfg later = t.pruned cfg later := by
  apply SpoolTable.ext_rows
  · have hyoung : ∀ rows : List SpoolRow, greatest SpoolRow.fifoLe cfg.maxSpoolBatches.toNat
        (rows.filter (SpoolRow.young cfg later)) =
        (greatest SpoolRow.fifoLe cfg.maxSpoolBatches.toNat rows).filter
          (SpoolRow.young cfg later) :=
      fun rows => greatest_filter SpoolRow.young_up _
    have htired : (t.pruned cfg now).keepable cfg later =
        (t.pruned cfg now).rows.filter (SpoolRow.young cfg later) := by
      apply List.filter_congr
      intro r hr
      rw [SpoolTable.pruned_rows, mem_greatest, SpoolTable.mem_keepable] at hr
      have : r.untired cfg = true := by simpa [SpoolRow.untired] using hr.1.2.2
      rw [this, Bool.and_true]
    have hkeep : (t.keepable cfg now).filter (SpoolRow.young cfg later) = t.keepable cfg later := by
      rw [SpoolTable.keepable, List.filter_filter]
      apply List.filter_congr
      intro r _
      by_cases hlater : r.young cfg later = true
      · rw [hlater, SpoolRow.young_mono hle r hlater, Bool.true_and]
      · simp only [Bool.not_eq_true] at hlater
        rw [hlater, Bool.false_and, Bool.false_and]
    calc ((t.pruned cfg now).pruned cfg later).rows
        = greatest SpoolRow.fifoLe cfg.maxSpoolBatches.toNat
            ((t.pruned cfg now).rows.filter (SpoolRow.young cfg later)) := by
          rw [SpoolTable.pruned_rows, htired]
      _ = (greatest SpoolRow.fifoLe cfg.maxSpoolBatches.toNat
            (t.keepable cfg now)).filter (SpoolRow.young cfg later) := by
          rw [hyoung, SpoolTable.pruned_rows, greatest_greatest]
      _ = greatest SpoolRow.fifoLe cfg.maxSpoolBatches.toNat (t.keepable cfg later) := by
          rw [← hyoung, hkeep]
      _ = (t.pruned cfg later).rows := (SpoolTable.pruned_rows cfg later t).symm
  · rfl

/-- A later prune spares nothing that an earlier one has removed. -/
theorem SpoolTable.pruned_sublist_pruned (hle : now.1 ≤ later.1) (t : SpoolTable) :
    (t.pruned cfg later).rows.Sublist (t.pruned cfg now).rows := by
  rw [← SpoolTable.pruned_pruned hle t, SpoolTable.pruned_rows]
  exact (greatest_sublist _ _).trans List.filter_sublist

/-- **Pruning keeps exactly the right rows.** -/
theorem prune_keeps_newest (cfg : ValidConfig) (now : I64) (d : Db) :
    ∃ stats t', quiet (prune cfg.1 now) d = (.ok stats, { d with spool := t' }) ∧
      t'.seq = d.spool.seq ∧ t'.rows.Sublist d.spool.rows ∧
      (∀ r ∈ t'.rows, satI64 (now.1 - cfg.1.maxSpoolAgeMs.1) ≤ r.createdAtMs ∧
        r.attempts < cfg.1.maxSpoolAttempts.toNat) ∧
      t'.rows.length = min cfg.1.maxSpoolBatches.toNat (d.spool.rows.countP fun r =>
        satI64 (now.1 - cfg.1.maxSpoolAgeMs.1) ≤ r.createdAtMs &&
          r.attempts < cfg.1.maxSpoolAttempts.toNat) ∧
      (∀ kept ∈ t'.rows, ∀ r ∈ d.spool.rows,
        satI64 (now.1 - cfg.1.maxSpoolAgeMs.1) ≤ r.createdAtMs →
        r.attempts < cfg.1.maxSpoolAttempts.toNat → r ∉ t'.rows → r.before kept) ∧
      stats.remaining = t'.rows.length ∧
      stats.removed + stats.remaining = d.spool.rows.length ∧
      quiet (prune cfg.1 now) { d with spool := t' } =
        (.ok { removed := 0, remaining := stats.remaining }, { d with spool := t' }) ∧
      ∀ later : I64, now.1 ≤ later.1 →
        (quiet (prune cfg.1 later) { d with spool := t' }).2 = (quiet (prune cfg.1 later) d).2 ∧
        (quiet (prune cfg.1 later) d).2.spool.rows.Sublist t'.rows := by
  have hrows := SpoolTable.pruned_rows cfg.1 now d.spool
  have hsub : (d.spool.pruned cfg.1 now).rows.Sublist d.spool.rows := by
    rw [hrows]
    exact (greatest_sublist _ _).trans List.filter_sublist
  refine ⟨_, d.spool.pruned cfg.1 now, quiet_prune cfg.1 now d, rfl, hsub, ?_, ?_, ?_, rfl,
    ?_, ?_, ?_⟩
  · intro r hr
    rw [hrows, mem_greatest, SpoolTable.mem_keepable] at hr
    exact hr.1.2
  · rw [hrows, greatest_length (d.spool.keepable_ranked cfg.1 now), SpoolTable.keepable,
      ← List.countP_eq_length_filter]
    rfl
  · intro kept hkept r hr hyoung hleft hout
    rw [hrows] at hkept hout
    have hin : r ∈ d.spool.keepable cfg.1 now := SpoolTable.mem_keepable.mpr ⟨hr, hyoung, hleft⟩
    exact SpoolRow.before_iff.mpr (greatest_above hkept hin hout)
  · have := hsub.length_le
    dsimp only
    omega
  · rw [quiet_prune, SpoolTable.pruned_pruned (le_refl _), Nat.sub_self]
  · intro later hle
    rw [quiet_prune, quiet_prune]
    dsimp only
    exact ⟨by rw [SpoolTable.pruned_pruned hle], SpoolTable.pruned_sublist_pruned hle d.spool⟩

end VeSmart.Storage
