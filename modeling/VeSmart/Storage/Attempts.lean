import VeSmart.Lib.Attempts
import VeSmart.Storage.Spool

set_option autoImplicit false

/-! # The spool as a queue of attempts

`claim_oldest` counts an attempt before it hands out the batch, and no other operation on a batch
that is already there counts or forgets one. So a claim is an attempt in the sense of
`Lib.Attempts`, with `max_spool_attempts` as the limit (`claimOldest_attempts`), and the bookkeeping
calls can only shorten the queue. -/

namespace VeSmart.Storage

open VeSmart.Lib

/-- The batches with the attempts that each has had. -/
def SpoolTable.queue (t : SpoolTable) : List ((Int × List UInt8) × Nat) :=
  t.rows.map fun r => ((r.id, r.payload), r.attempts)

/-! ## The statements on the queue -/

theorem deleteWhere_queue (t : SpoolTable) (p : SpoolRow → Bool) :
    (t.deleteWhere p).2.queue.Sublist t.queue :=
  List.filter_sublist.map _

/-- A new deadline leaves the queue alone. -/
theorem update_queue {t t' : SpoolTable} {p : SpoolRow → Bool} {next : Int} {n : Nat}
    (h : t.update p 0 next = .ok (n, t')) : t'.queue = t.queue := by
  unfold SpoolTable.update at h
  split at h
  · cases h
    unfold SpoolTable.queue
    dsimp only
    rw [List.map_map]
    apply List.map_congr_left
    intro r _
    dsimp only [Function.comp]
    split <;> rfl
  · split at h
    · cases h
    · cases h
      rfl

/-- The attempts of a row are those of its entry. -/
theorem attemptsLeftOf_row {limit : Nat} {t : SpoolTable} {row : SpoolRow} (h : row ∈ t.rows) :
    attemptsLeftOf limit t.queue (row.id, row.payload) = limit - row.attempts := by
  apply attemptsLeftOf_mem
  · apply List.Nodup.of_map Prod.fst
    unfold SpoolTable.queue
    rw [List.map_map, List.map_map]
    exact t.ids_nodup
  · exact List.mem_map.mpr ⟨row, h, rfl⟩

/-! ## The operations on the queue -/

section

variable {q : List ((Int × List UInt8) × Nat)}

/-- The queue has not grown, and nothing has been attempted. -/
def Shortens (q : List ((Int × List UInt8) × Nat)) (d : Db) : Prop := d.spool.queue.Sublist q

theorem onSpool_shortens {α : Type} {f : SpoolTable → Except StorageError (α × SpoolTable)}
    (hf : ∀ t a t', f t = .ok (a, t') → t'.queue.Sublist t.queue) :
    Preserves (Shortens q) (onSpool f) :=
  Preserves.onSpool fun _ _ _ h hrun => (hf _ _ _ hrun).trans h

theorem delete_shortens (p : SpoolRow → Bool) :
    Preserves (Shortens q) (onSpool fun t => .ok (t.deleteWhere p)) := by
  apply onSpool_shortens
  rintro t a t' ⟨⟩
  exact deleteWhere_queue t p

theorem bumpCounter_shortens (key : String) (nowMs : Int) :
    Preserves (Shortens q) (bumpCounter key nowMs) := by
  apply Preserves.bind
  · exact Preserves.bind (Preserves.query _) fun _ => Preserves.fromExcept _
  intro current
  apply Preserves.bind (Preserves.fromExcept _); intro _
  apply Preserves.bind (Preserves.fromExcept _); intro _
  apply Preserves.statement
  intro d a d' h hd
  unfold Db.upsertKv at hd
  split at hd
  · cases hd
    exact h
  · cases hd

theorem removeBatch_shortens (counter : String) (id : Int) (nowMs : I64) :
    Preserves (Shortens q) (removeBatch counter id nowMs) := by
  apply Preserves.transaction
  apply Preserves.bind (delete_shortens _)
  intro changed
  show Preserves _ (ite _ _ _)
  split
  · exact Preserves.bind (bumpCounter_shortens _ _) fun _ =>
      Preserves.bind Preserves.commitTx fun _ => Preserves.pure _
  · exact Preserves.bind Preserves.commitTx fun _ => Preserves.pure _

theorem recordRetry_shortens (cfg : StorageConfig) (id : Int) (nowMs : I64) :
    Preserves (Shortens q) (recordRetry cfg id nowMs) := by
  apply Preserves.transaction
  apply Preserves.bind (Preserves.query _)
  intro attempts
  cases attempts with
  | none => exact Preserves.bind Preserves.commitTx fun _ => Preserves.throw _
  | some attempts =>
      show Preserves _ (ite _ _ _)
      split
      · apply Preserves.bind (delete_shortens _); intro _
        apply Preserves.bind (bumpCounter_shortens _ _); intro _
        exact Preserves.bind Preserves.commitTx fun _ => Preserves.pure _
      · apply Preserves.bind
        · apply onSpool_shortens
          intro t a t' h
          rw [update_queue h]
        intro _
        exact Preserves.bind Preserves.commitTx fun _ => Preserves.pure _

theorem leaseRows_queue {t t' : SpoolTable} {row : SpoolRow} {next : Int} {hnext : 0 ≤ next}
    (hrow : row ∈ t.rows) (hrows : t'.rows = leaseRows t.rows row.id next hnext) :
    t'.queue = attempted (row.id, row.payload) t.queue := by
  unfold SpoolTable.queue attempted
  rw [hrows, leaseRows, List.map_map, List.map_map]
  apply List.map_congr_left
  intro r hr
  dsimp only [Function.comp]
  by_cases hid : r.id = row.id
  · have hsame : r = row := SpoolTable.eq_of_id hr hrow hid
    rw [if_pos hid, if_pos (by rw [hsame])]
    rfl
  · rw [if_neg hid, if_neg fun h => hid (congrArg Prod.fst h)]

/-- **A claim is an attempt.** Whatever fails, a claim that hands out a batch has counted an attempt
of it that was permitted. -/
theorem claimOldest_attempts {cfg : StorageConfig} (hcfg : cfg.Bounds) (nowMs : I64) (d : Db)
    (faults : List Bool) {batch : SpoolBatch}
    (h : (exec (claimOldest cfg nowMs) ⟨d, none, faults⟩).1 = .ok (some batch)) :
    ∃ row ∈ d.spool.rows, batch.id = row.id ∧ batch.payload = row.payload ∧
      row.attempts < cfg.maxSpoolAttempts.toNat ∧
      (exec (claimOldest cfg nowMs) ⟨d, none, faults⟩).2.committed.spool.queue =
        attempted (row.id, row.payload) d.spool.queue := by
  obtain ⟨faults', hrun | hrun⟩ := (claimOldest_allOrNothing cfg nowMs).exec_cases d faults
  · rw [hrun] at h ⊢
    cases hselect : d.spool.selectReady nowMs.1 cfg.maxSpoolAttempts with
    | none =>
        rw [quiet_claimOldest_none hselect] at h
        cases h
    | some row =>
        by_cases hfit : nowMs.1 + cfg.spoolInflightMs.1 ≤ i64Max
        · obtain ⟨t, hnext, hquiet, -, hrows⟩ :=
            quiet_claimOldest_some hselect hcfg.inflight_pos hfit
          obtain ⟨hrow, -, hleft⟩ := SpoolTable.selectReady_mem hselect
          rw [hquiet] at h ⊢
          cases h
          exact ⟨row, hrow, rfl, rfl, hleft, leaseRows_queue hrow hrows⟩
        · rw [quiet_claimOldest_overflow hselect (by omega)] at h
          cases h
  · rw [hrun] at h
    cases h

end

end VeSmart.Storage
