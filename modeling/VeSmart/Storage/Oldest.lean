import VeSmart.Storage.Spool

set_option autoImplicit false

/-! # The batch that is handed out next

`SELECT_READY` picks the least due batch in the replay order, so a batch that has just been
enqueued is picked only when no older one is due (`selectReady_append`). The second half says when
the claim that follows the selection goes through, statement by statement. -/

namespace VeSmart.Storage

open VeSmart.Lib

variable {t t' : SpoolTable} {nowMs : Int} {maxAttempts : UInt32} {row fresh : SpoolRow}

/-! ## The selection -/

/-- Two batches of one table are not equally old. -/
theorem SpoolTable.fifo_antisymm {a b : SpoolRow} (ha : a ∈ t.rows) (hb : b ∈ t.rows)
    (hab : a.fifoLe b) (hba : b.fifoLe a) : a = b := by
  apply SpoolTable.eq_of_id ha hb
  unfold SpoolRow.fifoLe at hab hba
  omega

theorem SpoolTable.selectReady_none :
    t.selectReady nowMs maxAttempts = none ↔ ∀ r ∈ t.rows, r.ready nowMs maxAttempts = false := by
  unfold SpoolTable.selectReady
  rw [List.head?_eq_none_iff, ← List.length_eq_zero_iff, List.length_insertionSort,
    List.length_eq_zero_iff, List.filter_eq_nil_iff]
  simp

/-- The selected batch is due, and no due batch is older. -/
theorem SpoolTable.selectReady_oldest (h : t.selectReady nowMs maxAttempts = some row) :
    row ∈ t.rows ∧ row.ready nowMs maxAttempts = true ∧
      ∀ r ∈ t.rows, r.ready nowMs maxAttempts = true → row.fifoLe r := by
  have hmem := List.mem_of_head? h
  rw [List.mem_insertionSort, List.mem_filter] at hmem
  refine ⟨hmem.1, hmem.2, fun r hr hready => ?_⟩
  unfold SpoolTable.selectReady at h
  have hsorted := List.pairwise_insertionSort SpoolRow.fifoLe
    (t.rows.filter (SpoolRow.ready nowMs maxAttempts))
  have hin : r ∈ (t.rows.filter (SpoolRow.ready nowMs maxAttempts)).insertionSort
      SpoolRow.fifoLe := by
    rw [List.mem_insertionSort, List.mem_filter]
    exact ⟨hr, hready⟩
  cases hlist : (t.rows.filter (SpoolRow.ready nowMs maxAttempts)).insertionSort
      SpoolRow.fifoLe with
  | nil => rw [hlist] at h; cases h
  | cons first rest =>
      rw [hlist] at h hsorted hin
      cases h
      rcases List.mem_cons.mp hin with rfl | hlater
      · exact Or.inr ⟨rfl, le_refl _⟩
      · exact List.rel_of_pairwise_cons hsorted hlater

/-- An oldest due batch is the selected one. -/
theorem SpoolTable.selectReady_of_oldest (hrow : row ∈ t.rows)
    (hready : row.ready nowMs maxAttempts = true)
    (holdest : ∀ r ∈ t.rows, r.ready nowMs maxAttempts = true → row.fifoLe r) :
    t.selectReady nowMs maxAttempts = some row := by
  cases hselect : t.selectReady nowMs maxAttempts with
  | none =>
      rw [SpoolTable.selectReady_none.mp hselect row hrow] at hready
      cases hready
  | some first =>
      obtain ⟨hfirst, hdue, hleast⟩ := SpoolTable.selectReady_oldest hselect
      rw [SpoolTable.fifo_antisymm hfirst hrow (hleast row hrow hready) (holdest first hfirst hdue)]

/-- **A batch that has just been enqueued waits for the older ones that are due.** -/
theorem SpoolTable.selectReady_append (hrows : t'.rows = t.rows ++ [fresh])
    (hid : ∀ r ∈ t.rows, r.id < fresh.id) :
    t'.selectReady nowMs maxAttempts =
      (t.selectReady nowMs maxAttempts).elim
        (if fresh.ready nowMs maxAttempts then some fresh else none)
        (fun row => if row.createdAtMs ≤ fresh.createdAtMs ∨ fresh.ready nowMs maxAttempts = false
          then some row else some fresh) := by
  have hmem : ∀ r, r ∈ t'.rows ↔ r ∈ t.rows ∨ r = fresh := by
    intro r
    rw [hrows, List.mem_append, List.mem_singleton]
  cases hselect : t.selectReady nowMs maxAttempts with
  | none =>
      have hnone := SpoolTable.selectReady_none.mp hselect
      by_cases hfresh : fresh.ready nowMs maxAttempts = true
      · rw [Option.elim_none, if_pos hfresh]
        apply SpoolTable.selectReady_of_oldest ((hmem _).mpr (.inr rfl)) hfresh
        intro r hr hready
        rcases (hmem r).mp hr with hold | rfl
        · rw [hnone r hold] at hready
          cases hready
        · exact Or.inr ⟨rfl, le_refl _⟩
      · rw [Option.elim_none, if_neg hfresh, SpoolTable.selectReady_none]
        intro r hr
        rcases (hmem r).mp hr with hold | rfl
        · exact hnone r hold
        · simpa using hfresh
  | some row =>
      obtain ⟨hrow, hready, holdest⟩ := SpoolTable.selectReady_oldest hselect
      have hlt := hid row hrow
      rw [Option.elim_some]
      by_cases hbefore : row.createdAtMs ≤ fresh.createdAtMs ∨
          fresh.ready nowMs maxAttempts = false
      · rw [if_pos hbefore]
        apply SpoolTable.selectReady_of_oldest ((hmem _).mpr (.inl hrow)) hready
        intro r hr hdue
        rcases (hmem r).mp hr with hold | rfl
        · exact holdest r hold hdue
        · rcases hbefore with hle | hnot
          · unfold SpoolRow.fifoLe
            omega
          · rw [hnot] at hdue
            cases hdue
      · rw [if_neg hbefore]
        push Not at hbefore
        apply SpoolTable.selectReady_of_oldest ((hmem _).mpr (.inr rfl)) (by simpa using hbefore.2)
        intro r hr hdue
        rcases (hmem r).mp hr with hold | rfl
        · have hle := holdest r hold hdue
          unfold SpoolRow.fifoLe at hle ⊢
          omega
        · exact Or.inr ⟨rfl, le_refl _⟩

/-! ## The claim, statement by statement -/

/-- A claim of a due batch is four statements, and goes through if none of them fails. -/
theorem claimOldest_result {cfg : StorageConfig} (hcfg : cfg.Bounds) {now : I64} {d : Db}
    (h : d.spool.selectReady now.1 cfg.maxSpoolAttempts = some row)
    (hfit : now.1 + cfg.spoolInflightMs.1 ≤ i64Max) (faults : List Bool) :
    (exec (claimOldest cfg now) ⟨d, none, faults⟩).1 =
      if true ∈ faults.take 4 then .error sqlIo
      else .ok (some { row.toBatch with
        attempts := row.toBatch.attempts + 1
        nextAttemptAtMs := now.1 + cfg.spoolInflightMs.1 }) := by
  obtain ⟨hrow, -, hleft⟩ := SpoolTable.selectReady_mem h
  have hnow := selectReady_nonneg h
  have hend := lease_end hnow hcfg.inflight_pos hfit
  have hpos := hcfg.inflight_pos
  obtain ⟨n, t, ht⟩ : ∃ n t, d.spool.update
      (fun r => r.id = row.id && r.attempts < cfg.maxSpoolAttempts.toNat) 1
      (now.1 + cfg.spoolInflightMs.1) = .ok (n, t) := by
    rw [SpoolTable.update, dif_pos (by omega)]
    exact ⟨_, _, rfl⟩
  have hchanged : n ≠ 0 := by
    rw [(SpoolTable.update_ok (by omega) ht).1, ← Nat.pos_iff_ne_zero, List.countP_pos_iff]
    exact ⟨row, hrow, by simpa using hleft⟩
  simp only [mem_take_succ_iff, List.take_zero, List.not_mem_nil, or_false]
  unfold claimOldest
  rw [exec_transaction_faults]
  by_cases hbegin : faults.headD false = true
  · rw [if_pos hbegin, if_pos (.inl hbegin)]
  rw [if_neg hbegin]
  have hselect : exec (statement sqlIo fun d =>
      .ok ((d.spool.selectReady now.1 cfg.maxSpoolAttempts).map SpoolRow.toBatch, d))
      ⟨d, some d, faults.tail⟩ = _ := exec_statement_faults rfl faults.tail
  by_cases hread : faults.tail.headD false = true
  · rw [if_pos hread] at hselect
    rw [if_pos (.inr (.inl hread)), query, exec_bind_error hselect]
  rw [if_neg hread] at hselect
  rw [query, exec_bind_ok hselect, h]
  dsimp only [Option.map_some]
  have hid : row.toBatch.id = row.id := rfl
  rw [hid, hend]
  have hwrite : exec (statement sqlIo fun d : Db => (d.spool.update
      (fun r => r.id = row.id && r.attempts < cfg.maxSpoolAttempts.toNat) 1
      (now.1 + cfg.spoolInflightMs.1)).map fun p => (p.1, { d with spool := p.2 }))
      ⟨d, some d, faults.tail.tail⟩ = _ :=
    exec_statement_faults (congrArg (Except.map _) ht) faults.tail.tail
  by_cases hupdate : faults.tail.tail.headD false = true
  · rw [if_pos hupdate] at hwrite
    rw [if_pos (.inr (.inr (.inl hupdate))), onSpool, exec_bind_error hwrite]
  rw [if_neg hupdate] at hwrite
  rw [onSpool, exec_bind_ok hwrite, if_neg hchanged, exec_bind, commitTx, exec_guarded]
  by_cases hcommit : faults.tail.tail.tail.headD false = true
  · rw [if_pos hcommit, if_pos (.inr (.inr (.inr hcommit)))]
  · rw [if_neg hcommit,
      if_neg (not_or.mpr ⟨hbegin, not_or.mpr ⟨hread, not_or.mpr ⟨hupdate, hcommit⟩⟩⟩)]
    rfl

end VeSmart.Storage
