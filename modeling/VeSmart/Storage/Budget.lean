import VeSmart.Storage.Ledger

set_option autoImplicit false

/-! # The attempt budget and stranded batches

A row whose attempts have reached the budget is never selected again. `exhausted_iff` says
when such a row is in the queue: some claim took the last permitted attempt of the batch, and
nothing after it delivered, dropped, retried or pruned it. A call that crashes or meets an
SQLite error has no effect (`runCalls_effective`), so here it is a call that is missing from
the sequence. -/

namespace VeSmart.Storage

open VeSmart.Lib

/-! ## Runs of operations -/

theorem ledgerRun_fst (cfg : StorageConfig) (calls : List SpoolCall) :
    (ledgerRun cfg calls).1 = runCalls cfg Db.empty calls := by
  induction calls using List.reverseRecOn with
  | nil => rfl
  | append_singleton calls call ih =>
      rw [ledgerRun_append, runCalls, List.foldl_append]
      show (call.exec cfg (ledgerRun cfg calls).1).2 = (call.exec cfg (runCalls cfg Db.empty calls)).2
      rw [ih]

theorem runCalls_balanced (cfg : ValidConfig) (calls : List SpoolCall) :
    ∃ h, Balanced (runCalls cfg.1 Db.empty calls) h := by
  rw [← ledgerRun_fst]
  exact ⟨_, ledgerRun_balanced cfg calls⟩

/-- A sequence of operations, each carried out without a fault, from the empty database. -/
def runOps (cfg : StorageConfig) (ops : List SpoolOp) : Db :=
  runCalls cfg Db.empty (ops.map fun op => ⟨op, []⟩)

/-- What the callers of such a sequence have been told. -/
def opsHistory (cfg : StorageConfig) (ops : List SpoolOp) : History :=
  (ledgerRun cfg (ops.map fun op => ⟨op, []⟩)).2

theorem runOps_countedOut (cfg : ValidConfig) (ops : List SpoolOp) :
    CountedOut (runOps cfg.1 ops) (opsHistory cfg.1 ops) := by
  rw [runOps, ← ledgerRun_fst]
  exact (ledgerRun_balanced cfg _).countedOut

theorem runOps_append (cfg : StorageConfig) (ops : List SpoolOp) (op : SpoolOp) :
    runOps cfg (ops ++ [op]) = (quiet (op.program cfg) (runOps cfg ops)).2 := by
  rw [← SpoolCall.exec_quiet]
  simp [runOps, runCalls]

theorem runOps_balanced (cfg : ValidConfig) (ops : List SpoolOp) :
    ∃ h, Balanced (runOps cfg.1 ops) h :=
  runCalls_balanced cfg _

/-- Calls that fail are as good as not made: what is left is a run of operations. -/
theorem runCalls_effective (cfg : StorageConfig) (calls : List SpoolCall) :
    ∃ ops : List SpoolOp, ops.Sublist (calls.map SpoolCall.op) ∧
      runCalls cfg Db.empty calls = runOps cfg ops := by
  induction calls using List.reverseRecOn with
  | nil => exact ⟨[], List.Sublist.refl _, rfl⟩
  | append_singleton calls call ih =>
      obtain ⟨ops, hsub, heq⟩ := ih
      have hrun : runCalls cfg Db.empty (calls ++ [call]) = (call.exec cfg (runOps cfg ops)).2 := by
        rw [← heq]
        simp [runCalls]
      rw [List.map_append, List.map_singleton]
      rcases call.exec_cases cfg (runOps cfg ops) with h | h
      · exact ⟨ops ++ [call.op], hsub.append (List.Sublist.refl _), by
          rw [hrun, h, runOps_append]⟩
      · exact ⟨ops, hsub.trans (List.sublist_append_left _ _), by rw [hrun, h]⟩

/-! ## Attempts never exceed the budget -/

def WithinBudget (cfg : StorageConfig) (d : Db) : Prop :=
  ∀ r ∈ d.spool.rows, r.attempts ≤ cfg.maxSpoolAttempts.toNat

theorem WithinBudget.step {cfg : StorageConfig} {d d' : Db} {op : SpoolOp}
    {r : Except StorageError SpoolResult} (hw : WithinBudget cfg d)
    (hstep : SpoolStep cfg d op r d') : WithinBudget cfg d' := by
  have hinsert : ∀ {device : String} {createdAtMs id : Int} {payload : List UInt8}
      {t : SpoolTable}, d.spool.insert device createdAtMs payload = .ok (id, t) →
      ∀ r ∈ t.rows, r.attempts ≤ cfg.maxSpoolAttempts.toNat := by
    intro device createdAtMs id payload t hins r hr
    obtain ⟨-, -, row, hrows, -, -, -, -, hzero, -⟩ := SpoolTable.insert_ok hins
    rw [hrows] at hr
    rcases List.mem_append.mp hr with hr | hr
    · exact hw r hr
    · rw [List.mem_singleton] at hr
      subst hr
      omega
  cases hstep with
  | failed | already | idle | peeked | unknownDelivered | unknownDropped => exact hw
  | enqueued device payload nowMs id t hins => exact hinsert hins
  | committed c id d' heffect => exact hinsert heffect.spool
  | leased nowMs row t hnext hsel hfit hseq hrows =>
      intro r hr
      have hr' : r ∈ t.rows := hr
      rw [hrows] at hr'
      obtain ⟨a, ha, rfl⟩ := List.mem_map.mp hr'
      by_cases hid : a.id = row.id
      · have hlt := ((claim_where hsel a ha).mpr hid).2
        rw [if_pos hid]
        show a.attempts + 1 ≤ _
        omega
      · rw [if_neg hid]
        exact hw a ha
  | delivered | dropped | exhausted =>
      intro r hr
      exact hw r (List.mem_of_mem_filter hr)
  | retried id nowMs row t hnext hf hatt hseq hrows =>
      intro r hr
      have hr' : r ∈ t.rows := hr
      rw [hrows] at hr'
      obtain ⟨a, ha, rfl⟩ := List.mem_map.mp hr'
      have ha' := hw a ha
      split <;> exact ha'
  | pruned nowMs => exact fun r hr => hw r ((pruned_sublist cfg nowMs d.spool).subset hr)

theorem runCalls_withinBudget (cfg : ValidConfig) (calls : List SpoolCall) :
    WithinBudget cfg.1 (runCalls cfg.1 Db.empty calls) := by
  induction calls using List.reverseRecOn with
  | nil => intro r hr; cases hr
  | append_singleton calls call ih =>
      obtain ⟨h, hb⟩ := runCalls_balanced cfg calls
      have hrun : runCalls cfg.1 Db.empty (calls ++ [call]) =
          (call.exec cfg.1 (runCalls cfg.1 Db.empty calls)).2 := by
        simp [runCalls]
      rw [hrun]
      exact ih.step (call.step cfg hb.ready)

/-- The 32-bit attempt count that `record_retry` compares is the stored one. -/
theorem budget_le_iff {cfg : StorageConfig} {n : Nat} (h : n ≤ cfg.maxSpoolAttempts.toNat) :
    cfg.maxSpoolAttempts ≤ UInt32.ofNat n ↔ cfg.maxSpoolAttempts.toNat ≤ n := by
  have hlt := cfg.maxSpoolAttempts.toNat_lt
  have hsize : UInt32.size = 4294967296 := rfl
  have hn : (UInt32.ofNat n).toNat = n := UInt32.toNat_ofNat_of_lt' (by omega)
  rw [UInt32.le_iff_toNat_le, hn]

/-! ## Exhausted batches -/

/-- The batch `id` is queued and no claim can select it. -/
def Exhausted (cfg : StorageConfig) (d : Db) (id : Int) : Prop :=
  ∃ r ∈ d.spool.rows, r.id = id ∧ cfg.maxSpoolAttempts.toNat ≤ r.attempts

/-- The operation, at a clock that is positive, finishes with the batch `id` if its attempts
are used up. -/
def SpoolOp.settles (id : Int) : SpoolOp → Prop
  | .markDelivered i wallMs => i = id ∧ 0 < wallMs.1
  | .dropBatch i wallMs => i = id ∧ 0 < wallMs.1
  | .recordRetry i nowMs => i = id ∧ 0 < nowMs.1
  | .prune _ => True
  | _ => False

/-- The operation is a claim that takes the last permitted attempt of the batch `id`. -/
def TakesLast (cfg : StorageConfig) (d : Db) (op : SpoolOp) (id : Int) : Prop :=
  ∃ nowMs row, op = .claim nowMs ∧
    d.spool.selectReady nowMs.1 cfg.maxSpoolAttempts = some row ∧ row.id = id ∧
    row.attempts + 1 = cfg.maxSpoolAttempts.toNat ∧ nowMs.1 + cfg.spoolInflightMs.1 ≤ i64Max

/-- Rows that differ in their deadlines only. -/
theorem exhausted_map {cfg : StorageConfig} {d : Db} {t : SpoolTable} {id : Int}
    (f : SpoolRow → SpoolRow) (hf : ∀ r, (f r).id = r.id ∧ (f r).attempts = r.attempts)
    (hrows : t.rows = d.spool.rows.map f) :
    Exhausted cfg { d with spool := t } id ↔ Exhausted cfg d id := by
  unfold Exhausted
  show (∃ r ∈ t.rows, _) ↔ _
  rw [hrows]
  constructor
  · rintro ⟨r, hr, hid, hatt⟩
    obtain ⟨a, ha, rfl⟩ := List.mem_map.mp hr
    exact ⟨a, ha, (hf a).1 ▸ hid, (hf a).2 ▸ hatt⟩
  · rintro ⟨r, hr, hid, hatt⟩
    exact ⟨f r, List.mem_map_of_mem hr, by rw [(hf r).1]; exact hid, by rw [(hf r).2]; exact hatt⟩

/-- A new batch has all its attempts left. -/
theorem exhausted_insert {cfg : StorageConfig} (hpos : 0 < cfg.maxSpoolAttempts.toNat)
    {d d' : Db} {device : String} {createdAtMs id x : Int} {payload : List UInt8}
    (hins : d.spool.insert device createdAtMs payload = .ok (id, d'.spool)) :
    Exhausted cfg d' x ↔ Exhausted cfg d x := by
  obtain ⟨-, -, row, hrows, -, -, -, -, hzero, -⟩ := SpoolTable.insert_ok hins
  unfold Exhausted
  rw [hrows]
  constructor
  · rintro ⟨r, hr, hid, hatt⟩
    rcases List.mem_append.mp hr with hr | hr
    · exact ⟨r, hr, hid, hatt⟩
    · rw [List.mem_singleton] at hr
      subst hr
      omega
  · rintro ⟨r, hr, hid, hatt⟩
    exact ⟨r, List.mem_append_left _ hr, hid, hatt⟩

theorem exhausted_delete {cfg : StorageConfig} {d : Db} {kv' : String → Option KvRow}
    {id x : Int} :
    Exhausted cfg { d with kv := kv', spool := (d.spool.deleteWhere fun r => r.id = id).2 } x ↔
      Exhausted cfg d x ∧ ¬ id = x := by
  unfold Exhausted
  constructor
  · rintro ⟨r, hr, hid, hatt⟩
    have hr' : r ∈ d.spool.rows.filter (fun r => !decide (r.id = id)) := hr
    rw [List.mem_filter] at hr'
    refine ⟨⟨r, hr'.1, hid, hatt⟩, ?_⟩
    rintro rfl
    simp [hid] at hr'
  · rintro ⟨⟨r, hr, hid, hatt⟩, hne⟩
    refine ⟨r, ?_, hid, hatt⟩
    show r ∈ d.spool.rows.filter (fun r => !decide (r.id = id))
    rw [List.mem_filter]
    refine ⟨hr, ?_⟩
    have : r.id ≠ id := by rw [hid]; exact fun h => hne h.symm
    simpa using this

theorem not_exhausted_of_find_none {cfg : StorageConfig} {d : Db} {id : Int}
    (h : d.spool.find id = none) : ¬ Exhausted cfg d id := by
  rintro ⟨r, hr, hid, -⟩
  exact SpoolTable.find_none h r hr hid

/-- Nothing is settled by a call for a batch that is not there. -/
theorem exhausted_absent {cfg : StorageConfig} {id x : Int} {d : Db} {P : Prop}
    (hf : d.spool.find id = none) : Exhausted cfg d x ↔ Exhausted cfg d x ∧ ¬ (id = x ∧ P) := by
  constructor
  · intro hex
    refine ⟨hex, ?_⟩
    rintro ⟨rfl, -⟩
    exact not_exhausted_of_find_none hf hex
  · exact fun hex => hex.1

/-- Counting a batch out settles it, if the clock is positive. -/
theorem exhausted_removeBatch {cfg : StorageConfig} {counter : String} (hkey : counter ≠ "")
    {id x : Int} {nowMs : I64} {d : Db} (hc : ∃ n, Counter d.kv counter n ∧
      (d.spool.rows ≠ [] → ((n + 1 : Nat) : Int) ≤ i64Max)) :
    Exhausted cfg (quiet (removeBatch counter id nowMs) d).2 x ↔
      Exhausted cfg d x ∧ ¬ (id = x ∧ 0 < nowMs.1) := by
  cases hf : d.spool.find id with
  | none =>
      rw [quiet_removeBatch_absent hf]
      exact exhausted_absent hf
  | some row =>
      by_cases hnow : 0 < nowMs.1
      · obtain ⟨n, hn, hroom⟩ := hc
        obtain ⟨kv', hq, -, -⟩ :=
          quiet_removeBatch_present hkey hnow hf hn (hroom (rows_ne_nil_of_find hf))
        rw [hq]
        simp only [hnow, and_true]
        exact exhausted_delete
      · obtain ⟨e, hq⟩ := quiet_removeBatch_nonpos hkey hnow hf
        rw [hq]
        simp [hnow]

/-- Recording a retry settles an exhausted batch, if the clock is positive. -/
theorem exhausted_recordRetry {cfg : StorageConfig} {id x : Int} {nowMs : I64} {d : Db}
    (hw : WithinBudget cfg d) (hc : CountersReady d) :
    Exhausted cfg (quiet (recordRetry cfg id nowMs) d).2 x ↔
      Exhausted cfg d x ∧ ¬ (id = x ∧ 0 < nowMs.1) := by
  cases hf : d.spool.find id with
  | none =>
      rw [quiet_recordRetry_absent hf]
      exact exhausted_absent hf
  | some row =>
      obtain ⟨hrow, hid⟩ := SpoolTable.find_mem hf
      have hbudget := budget_le_iff (hw row hrow)
      by_cases hatt : cfg.maxSpoolAttempts ≤ UInt32.ofNat row.attempts
      · by_cases hnow : 0 < nowMs.1
        · obtain ⟨n, hn, hroom⟩ := hc.dropped
          obtain ⟨kv', hq, -, -⟩ :=
            quiet_recordRetry_exhausted hnow hf hatt hn (hroom (rows_ne_nil_of_find hf))
          rw [hq]
          simp only [hnow, and_true]
          exact exhausted_delete
        · obtain ⟨e, hq⟩ := quiet_recordRetry_nonpos hnow hf hatt
          rw [hq]
          simp [hnow]
      · -- the batch has attempts left, so it is not the exhausted one
        have hother : Exhausted cfg d x → ¬ id = x := by
          rintro ⟨r, hr, hrx, hle⟩ rfl
          have : r = row := SpoolTable.eq_of_id hr hrow (hrx.trans hid.symm)
          subst this
          exact hatt (hbudget.mpr hle)
        have hkeep : Exhausted cfg (quiet (recordRetry cfg id nowMs) d).2 x ↔ Exhausted cfg d x := by
          by_cases hnext : 0 ≤ retryAt cfg nowMs row
          · obtain ⟨t, hq, -, hrows⟩ := quiet_recordRetry_retried hf hatt hnext
            rw [hq]
            refine exhausted_map _ (fun r => ?_) hrows
            split <;> exact ⟨rfl, rfl⟩
          · rw [quiet_recordRetry_negative hf hatt hnext]
        rw [hkeep]
        constructor
        · exact fun hex => ⟨hex, fun h => hother hex h.1⟩
        · exact fun hex => hex.1

/-- A prune removes every exhausted batch. -/
theorem not_exhausted_prune {cfg : StorageConfig} {nowMs : I64} {d : Db} {x : Int} :
    ¬ Exhausted cfg (quiet (prune cfg nowMs) d).2 x := by
  rw [quiet_prune]
  rintro ⟨r, hr, -, hatt⟩
  have hr' : r ∈ (d.spool.pruned cfg nowMs).rows := hr
  have hmem : r ∈ ((d.spool.pruneAged cfg nowMs).pruneExhausted cfg).rows :=
    List.mem_of_mem_filter hr'
  have := (List.mem_filter.mp hmem).2
  simp only [Bool.not_eq_true', decide_eq_false_iff_not] at this
  exact this hatt

/-- A claim exhausts a batch when it takes the last permitted attempt. -/
theorem exhausted_claim {cfg : ValidConfig} {nowMs : I64} {d : Db} {x : Int} :
    Exhausted cfg.1 (quiet (claimOldest cfg.1 nowMs) d).2 x ↔
      Exhausted cfg.1 d x ∨ TakesLast cfg.1 d (.claim nowMs) x := by
  cases hsel : d.spool.selectReady nowMs.1 cfg.1.maxSpoolAttempts with
  | none =>
      rw [quiet_claimOldest_none hsel]
      constructor
      · exact fun hex => .inl hex
      · rintro (hex | ⟨now', row, heq, hsel', -⟩)
        · exact hex
        · cases heq
          rw [hsel] at hsel'
          cases hsel'
  | some row =>
      obtain ⟨hrow, -, hlt⟩ := SpoolTable.selectReady_mem hsel
      by_cases hfit : nowMs.1 + cfg.1.spoolInflightMs.1 ≤ i64Max
      · obtain ⟨t, hnext, hq, -, hrows⟩ :=
          quiet_claimOldest_some hsel cfg.bounds.inflight_pos hfit
        rw [hq]
        constructor
        · rintro ⟨r, hr, hid, hatt⟩
          have hr' : r ∈ t.rows := hr
          rw [hrows] at hr'
          obtain ⟨a, ha, rfl⟩ := List.mem_map.mp hr'
          by_cases hida : a.id = row.id
          · have harow : a = row := SpoolTable.eq_of_id ha hrow hida
            subst harow
            rw [if_pos rfl] at hid hatt
            have hatt' : cfg.1.maxSpoolAttempts.toNat ≤ a.attempts + 1 := hatt
            exact .inr ⟨nowMs, a, rfl, hsel, hid, by omega, hfit⟩
          · rw [if_neg hida] at hid hatt
            exact .inl ⟨a, ha, hid, hatt⟩
        · have hmem : ∀ a ∈ d.spool.rows,
              (if a.id = row.id then a.reschedule 1 (nowMs.1 + cfg.1.spoolInflightMs.1) hnext
                else a) ∈ t.rows := by
            intro a ha
            rw [hrows]
            exact List.mem_map_of_mem ha
          rintro (⟨r, hr, hid, hatt⟩ | ⟨now', row', heq, hsel', hid, hlast, -⟩)
          · have hne : r.id ≠ row.id := by
              intro hidr
              have : r = row := SpoolTable.eq_of_id hr hrow hidr
              subst this
              omega
            have := hmem r hr
            rw [if_neg hne] at this
            exact ⟨r, this, hid, hatt⟩
          · cases heq
            rw [hsel] at hsel'
            cases hsel'
            have := hmem row hrow
            rw [if_pos rfl] at this
            exact ⟨_, this, hid, le_of_eq hlast.symm⟩
      · rw [quiet_claimOldest_overflow hsel (by omega)]
        constructor
        · exact fun hex => .inl hex
        · rintro (hex | ⟨now', row', heq, -, -, -, hfit'⟩)
          · exact hex
          · cases heq
            exact absurd hfit' hfit

theorem takesLast_claim {cfg : StorageConfig} {d : Db} {op : SpoolOp} {x : Int}
    (hop : ∀ nowMs, op ≠ .claim nowMs) : ¬ TakesLast cfg d op x := by
  rintro ⟨nowMs, row, heq, -⟩
  exact hop nowMs heq

/-- **One operation**: a batch is exhausted after it if it was and has not been settled, or if
the operation took its last attempt. -/
theorem exhausted_step (cfg : ValidConfig) {d : Db} (hw : WithinBudget cfg.1 d)
    (hc : CountersReady d) (op : SpoolOp) (x : Int) :
    Exhausted cfg.1 (quiet (op.program cfg.1) d).2 x ↔
      (Exhausted cfg.1 d x ∧ ¬ op.settles x) ∨ TakesLast cfg.1 d op x := by
  have hpos := cfg.bounds.attempts_pos
  have hstep := op.step cfg hc
  cases op with
  | enqueue device payload nowMs =>
      rw [or_iff_left (takesLast_claim (by simp)), and_iff_left (by simp [SpoolOp.settles])]
      revert hstep
      generalize quiet ((SpoolOp.enqueue device payload nowMs).program cfg.1) d = q
      rcases q with ⟨r, d'⟩
      intro hstep
      cases hstep with
      | failed => rfl
      | enqueued _ _ _ id t hins => exact exhausted_insert hpos hins
  | commit c =>
      rw [or_iff_left (takesLast_claim (by simp)), and_iff_left (by simp [SpoolOp.settles])]
      revert hstep
      generalize quiet ((SpoolOp.commit c).program cfg.1) d = q
      rcases q with ⟨r, d'⟩
      intro hstep
      cases hstep with
      | failed => rfl
      | already => rfl
      | committed _ id _ heffect => exact exhausted_insert hpos heffect.spool
  | claim nowMs =>
      rw [SpoolOp.program, quiet_map, exhausted_claim, and_iff_left (by simp [SpoolOp.settles])]
  | peek nowMs =>
      rw [or_iff_left (takesLast_claim (by simp)), and_iff_left (by simp [SpoolOp.settles]),
        SpoolOp.program, quiet_map, quiet_peekOldest]
  | markDelivered id wallMs =>
      rw [or_iff_left (takesLast_claim (by simp)), SpoolOp.program, quiet_map]
      exact exhausted_removeBatch deliveredTotal_ne hc.delivered
  | dropBatch id wallMs =>
      rw [or_iff_left (takesLast_claim (by simp)), SpoolOp.program, quiet_map]
      exact exhausted_removeBatch droppedTotal_ne hc.dropped
  | recordRetry id nowMs =>
      rw [or_iff_left (takesLast_claim (by simp)), SpoolOp.program, quiet_map]
      exact exhausted_recordRetry hw hc
  | prune nowMs =>
      rw [or_iff_left (takesLast_claim (by simp)), SpoolOp.program, quiet_map]
      constructor
      · exact fun hex => absurd hex not_exhausted_prune
      · exact fun hex => absurd trivial hex.2

/-- **One run**: a batch is exhausted after it if some claim took its last attempt and no later
operation settled it. -/
theorem exhausted_iff (cfg : ValidConfig) (ops : List SpoolOp) (x : Int) :
    Exhausted cfg.1 (runOps cfg.1 ops) x ↔
      ∃ before op after, ops = before ++ op :: after ∧
        TakesLast cfg.1 (runOps cfg.1 before) op x ∧ ∀ o ∈ after, ¬ o.settles x := by
  induction ops using List.reverseRecOn with
  | nil =>
      constructor
      · rintro ⟨r, hr, -⟩
        cases hr
      · rintro ⟨before, op, after, heq, -⟩
        simp at heq
  | append_singleton ops last ih =>
      obtain ⟨h, hb⟩ := runOps_balanced cfg ops
      have hw : WithinBudget cfg.1 (runOps cfg.1 ops) := runCalls_withinBudget cfg _
      rw [runOps_append, exhausted_step cfg hw hb.ready, ih]
      constructor
      · rintro (⟨⟨before, op, after, rfl, hlast, hafter⟩, hset⟩ | hlast)
        · refine ⟨before, op, after ++ [last], by simp, hlast, ?_⟩
          intro o ho
          rcases List.mem_append.mp ho with ho | ho
          · exact hafter o ho
          · rw [List.mem_singleton] at ho
            exact ho ▸ hset
        · exact ⟨ops, last, [], rfl, hlast, by simp⟩
      · rintro ⟨before, op, after, heq, hlast, hafter⟩
        -- the claim is the last operation, or the last operation comes after it
        rcases List.eq_nil_or_concat after with rfl | ⟨after', o, rfl⟩
        · obtain ⟨rfl, hop⟩ := List.append_inj' heq rfl
          obtain rfl : last = op := by simpa using hop
          exact .inr hlast
        · have heq' : ops ++ [last] = (before ++ op :: after') ++ [o] := by simpa using heq
          obtain ⟨rfl, hop⟩ := List.append_inj' heq' rfl
          obtain rfl : last = o := by simpa using hop
          left
          exact ⟨⟨before, op, after', rfl, hlast, fun o' ho' => hafter o' (by simp [ho'])⟩,
            hafter last (by simp)⟩

/-! ## Stranded batches -/

/-- The row is returned by some claim once the clock reaches its deadline, as far as its
attempts are concerned. -/
def SpoolRow.Claimable (cfg : StorageConfig) (r : SpoolRow) : Prop :=
  ∀ nowMs, r.nextAttemptAtMs ≤ nowMs → r.ready nowMs cfg.maxSpoolAttempts = true

theorem SpoolRow.claimable_iff (cfg : StorageConfig) (r : SpoolRow) :
    r.Claimable cfg ↔ r.attempts < cfg.maxSpoolAttempts.toNat := by
  constructor
  · intro h
    have := h r.nextAttemptAtMs (le_refl _)
    simpa [SpoolRow.ready] using this
  · intro h nowMs hnow
    simp [SpoolRow.ready, hnow, h]

/-- Every queued batch is claimable, now or at its deadline. -/
def NoStranded (cfg : StorageConfig) (d : Db) : Prop := ∀ r ∈ d.spool.rows, r.Claimable cfg

theorem noStranded_iff (cfg : StorageConfig) (d : Db) :
    NoStranded cfg d ↔ ∀ x, ¬ Exhausted cfg d x := by
  constructor
  · rintro h x ⟨r, hr, -, hatt⟩
    have := (r.claimable_iff cfg).mp (h r hr)
    omega
  · intro h r hr
    rw [SpoolRow.claimable_iff]
    by_contra hge
    exact h r.id ⟨r, hr, rfl, by omega⟩

/-- Every claim that takes a batch's last permitted attempt is followed by an operation that
settles the batch. -/
def LastAttemptsSettled (cfg : StorageConfig) (ops : List SpoolOp) : Prop :=
  ∀ before op after x, ops = before ++ op :: after →
    TakesLast cfg (runOps cfg before) op x → ∃ o ∈ after, o.settles x

theorem noStranded_iff_settled (cfg : ValidConfig) (ops : List SpoolOp) :
    NoStranded cfg.1 (runOps cfg.1 ops) ↔ LastAttemptsSettled cfg.1 ops := by
  rw [noStranded_iff]
  constructor
  · intro h before op after x heq hlast
    by_contra hnone
    refine h x ((exhausted_iff cfg ops x).mpr ⟨before, op, after, heq, hlast, ?_⟩)
    exact fun o ho hset => hnone ⟨o, ho, hset⟩
  · intro h x hex
    obtain ⟨before, op, after, heq, hlast, hafter⟩ := (exhausted_iff cfg ops x).mp hex
    obtain ⟨o, ho, hset⟩ := h before op after x heq hlast
    exact hafter o ho hset

/-- **The queue holds no stranded batch exactly when every last attempt is settled.** A batch
leaves it by a delivery, a drop or a prune in any case. -/
theorem spool_no_stranded_iff (cfg : ValidConfig) (ops : List SpoolOp) :
    NoStranded cfg.1 (runOps cfg.1 ops) ∧ CountedOut (runOps cfg.1 ops) (opsHistory cfg.1 ops) ↔
      LastAttemptsSettled cfg.1 ops := by
  rw [noStranded_iff_settled, and_iff_left (runOps_countedOut cfg ops)]

/-- One batch, and five deliveries that die before their bookkeeping. -/
def fiveCrashes : List SpoolOp :=
  [.enqueue "mppt" [1] (ms 1000), .claim (ms 1000), .claim (ms 61000), .claim (ms 121000),
    .claim (ms 181000), .claim (ms 241000)]

/-- With the default configuration, the batch that five claims have been made of is queued and
no claim returns it again. -/
theorem fiveCrashes_stranded :
    ¬ NoStranded StorageConfig.conservative (runOps StorageConfig.conservative fiveCrashes) := by
  have hrows : (runOps StorageConfig.conservative fiveCrashes).spool.rows.map SpoolRow.attempts
      = [5] := by
    decide
  intro h
  have hmem : 5 ∈ (runOps StorageConfig.conservative fiveCrashes).spool.rows.map
      SpoolRow.attempts := by
    rw [hrows]
    exact List.mem_singleton_self 5
  obtain ⟨r, hr, hatt⟩ := List.mem_map.mp hmem
  have hlt := (r.claimable_iff _).mp (h r hr)
  rw [hatt] at hlt
  exact absurd hlt (by decide)

end VeSmart.Storage
