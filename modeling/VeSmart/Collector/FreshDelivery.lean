import VeSmart.Service.FreshDelivery
import VeSmart.Storage.Oldest
import VeSmart.Storage.Fate
import VeSmart.Collector.Drain

set_option autoImplicit false

/-! # Whose delivery a cycle reports

`CycleResult.delivery` is meant to be what happened to the batch that the cycle has enqueued. The
claim after the commit takes the oldest due batch of the whole spool, though, so that an older batch
that is due is delivered in place of the fresh one. `delivery_fresh_iff` says exactly when the
report is about the fresh batch. -/

namespace VeSmart.Collector

open VeSmart.Lib VeSmart.Domain VeSmart.Service
open VeSmart.Storage (Db SpoolRow SpoolTable)

section

variable {ω ε : Type} {s : SqliteStorage}

/-! ## The bookkeeping calls of the adapter, by their results -/

/-- The batch is in the spool. -/
def Queued (d : Db) (id : Int) : Prop := (d.spool.find id).isSome = true

/-- A removal that succeeds has removed the batch, and one that fails has not. -/
theorem remove_fate {counter operation : String} (hkey : counter ≠ "") (claim : ClaimedBatch)
    (w : SqliteWorld) (hqueued : Queued w.db claim.id.toNat) :
    let call : Call Unit := do
      let id ← fromExcept (claimId claim.id)
      let changed ← blocking s (Storage.removeBatch counter id (← wallClock))
      fromExcept (requireChanged changed claim.id operation)
    ((exec call w).1 = .ok () → (exec call w).2.db.spool.find claim.id.toNat = none) ∧
      ∀ e, (exec call w).1 = .error e → Queued (exec call w).2.db claim.id.toNat := by
  intro call
  unfold call claimId
  by_cases hid : (claim.id.toNat : Int) ≤ i64Max
  · have hwall : exec wallClock w = (.ok w.call.wallMs, w) := rfl
    rw [if_pos hid, exec_bind_ok (exec_fromExcept _ _), exec_bind_ok hwall, exec_bind, exec_blocking]
    rcases Storage.removeBatch_outcome hkey claim.id.toNat w.call.wallMs w.db w.call.faults with
      ⟨e, faults', hexec⟩ | ⟨d', faults', hexec, hspool⟩
    · rw [hexec]
      exact ⟨fun h => (by cases h), fun _ _ => hqueued⟩
    · rw [hexec, hqueued]
      refine ⟨fun _ => ?_, fun _ h => by cases h⟩
      show d'.spool.find _ = none
      rw [hspool, SpoolTable.find_without]
  · rw [if_neg hid, exec_bind_error (exec_fromExcept _ _)]
    exact ⟨fun h => (by cases h), fun _ _ => hqueued⟩

theorem complete_fate (claim : ClaimedBatch) (w : SqliteWorld)
    (hqueued : Queued w.db claim.id.toNat) :
    ((exec (spoolComplete s claim) w).1 = .ok () →
        (exec (spoolComplete s claim) w).2.db.spool.find claim.id.toNat = none) ∧
      ∀ e, (exec (spoolComplete s claim) w).1 = .error e →
        Queued (exec (spoolComplete s claim) w).2.db claim.id.toNat :=
  remove_fate Storage.deliveredTotal_ne claim w hqueued

theorem drop_fate (claim : ClaimedBatch) (w : SqliteWorld) (hqueued : Queued w.db claim.id.toNat) :
    ((exec (spoolDrop s claim) w).1 = .ok () →
        (exec (spoolDrop s claim) w).2.db.spool.find claim.id.toNat = none) ∧
      ∀ e, (exec (spoolDrop s claim) w).1 = .error e →
        Queued (exec (spoolDrop s claim) w).2.db claim.id.toNat :=
  remove_fate Storage.droppedTotal_ne claim w hqueued

/-- What a retry has done to the batch, by its result. -/
theorem retry_fate (claim : ClaimedBatch) (now : SystemTime) (w : SqliteWorld) {row : SpoolRow}
    (hrow : w.db.spool.find claim.id.toNat = some row) :
    (∃ e, (exec (spoolRetry s claim now) w).1 = .error e ∧
        Queued (exec (spoolRetry s claim now) w).2.db claim.id.toNat) ∨
      (∃ attempts, (exec (spoolRetry s claim now) w).1 = .ok (.dropped attempts) ∧
        (exec (spoolRetry s claim now) w).2.db.spool.find claim.id.toNat = none) ∨
      (exec (spoolRetry s claim now) w).1 = .ok (.retried (UInt32.ofNat row.attempts)) ∧
        ∃ row', (exec (spoolRetry s claim now) w).2.db.spool.find claim.id.toNat = some row' ∧
          row'.attempts = row.attempts := by
  have hqueued : Queued w.db claim.id.toNat := by
    unfold Queued
    rw [hrow]
    rfl
  unfold spoolRetry claimId
  by_cases hid : (claim.id.toNat : Int) ≤ i64Max
  · rw [if_pos hid, exec_bind_ok (exec_fromExcept _ _)]
    cases hnow : timeToMs now with
    | error e =>
        rw [exec_bind_error (exec_fromExcept _ _)]
        exact .inl ⟨e, rfl, hqueued⟩
    | ok nowMs =>
        rw [exec_bind_ok (exec_fromExcept _ _), exec_bind, exec_blocking]
        rcases Storage.recordRetry_outcome s.config.1 claim.id.toNat nowMs w.db w.call.faults with
          ⟨e, faults', hexec⟩ | ⟨attempts, d', faults', hexec, hspool⟩ |
          ⟨row₁, next, d', faults', hexec, hfind, hnext, hrows⟩
        · rw [hexec]
          exact .inl ⟨_, rfl, hqueued⟩
        · rw [hexec]
          refine .inr (.inl ⟨attempts, rfl, ?_⟩)
          show d'.spool.find _ = none
          rw [hspool, SpoolTable.find_without]
        · obtain rfl : row₁ = row := Option.some.inj (hfind.symm.trans hrow)
          rw [hexec]
          refine .inr (.inr ⟨rfl, row₁.reschedule 0 next hnext, ?_, rfl⟩)
          show d'.spool.find _ = _
          rw [SpoolTable.find_map hrows (fun r => by split <;> rfl), hrow, Option.map_some,
            if_pos (SpoolTable.find_mem hrow).2]
  · rw [if_neg hid, exec_bind_error (exec_fromExcept _ _)]
    exact .inl ⟨_, rfl, hqueued⟩

/-! ## The claim of the adapter -/

/-- A claim at `now` that selects a batch is not refused, and none of its statements fails: the
clock and the end of the lease are times of the database, the TTL is that of the storage, and the
four statements of the transaction succeed. -/
structure GoesThrough (s : SqliteStorage) (ttl : Duration) (now : SystemTime)
    (faults : List Bool) : Prop where
  clock : SystemTime.unixEpoch ≤ now ∧ 0 < now.asMillis
  lease : now.asMillis + s.config.1.spoolInflightMs.1 ≤ i64Max
  ttl : (ttl.asMillis : Int) = s.config.1.spoolInflightMs.1
  statements : true ∉ faults.take 4

theorem durationToMs_ok {d : Duration} {ms : Int} (h : durationToMs d = .ok ms) :
    (d.asMillis : Int) = ms := by
  unfold durationToMs at h
  split at h
  · exact Except.ok.inj h
  · cases h

/-- What a claim hands out has been selected by the storage crate, in a claim that goes through. -/
theorem claim_went {ttl : Duration} {now : SystemTime} {w w' : SqliteWorld} {claim : ClaimedBatch}
    (h : exec (spoolClaimNext s ttl now) w = (.ok (some claim), w')) :
    GoesThrough s ttl now w.call.faults ∧ ∃ row, 0 ≤ row.id ∧
      w.db.spool.selectReady now.asMillis s.config.1.maxSpoolAttempts = some row ∧
      claimEntry claim = (row.id, row.payload) := by
  obtain ⟨nowMs, batch, hnow, httl, hconverted, hbatch, -⟩ := spoolClaimNext_inv h
  obtain ⟨hms, hpos⟩ := timeToMs_ok hnow
  have hepoch : SystemTime.unixEpoch ≤ now := by
    by_contra hbefore
    rw [timeToMs, if_pos (not_le.mp hbefore)] at hnow
    cases hnow
  have hclaim := Storage.claimOldest_allOrNothing s.config.1 nowMs
  cases hselect : w.db.spool.selectReady nowMs.1 s.config.1.maxSpoolAttempts with
  | none =>
      obtain ⟨faults', hrun | hrun⟩ := hclaim.exec_cases w.db w.call.faults
      · rw [hrun, Storage.quiet_claimOldest_none hselect] at hbatch
        cases hbatch
      · rw [hrun] at hbatch
        cases hbatch
  | some row =>
      by_cases hfit : nowMs.1 + s.config.1.spoolInflightMs.1 ≤ i64Max
      · rw [Storage.claimOldest_result s.config.bounds hselect hfit] at hbatch
        by_cases hfaulty : true ∈ w.call.faults.take 4
        · rw [if_pos hfaulty] at hbatch
          cases hbatch
        rw [if_neg hfaulty] at hbatch
        cases hbatch
        obtain ⟨hid, hentry⟩ := claimedBatch_inv hconverted
        exact ⟨⟨⟨hepoch, hpos⟩, hms ▸ hfit, durationToMs_ok httl, hfaulty⟩, row, hid, hms ▸ hselect,
          hentry⟩
      · obtain ⟨faults', hrun | hrun⟩ := hclaim.exec_cases w.db w.call.faults
        · rw [hrun, Storage.quiet_claimOldest_overflow hselect (by omega)] at hbatch
          cases hbatch
        · rw [hrun] at hbatch
          cases hbatch

/-- A claim that goes through hands out the batch that the storage crate selects. -/
theorem claim_goes {ttl : Duration} {now : SystemTime} {w : SqliteWorld} {row : SpoolRow}
    (h : GoesThrough s ttl now w.call.faults) (hid : 0 ≤ row.id)
    (hselect : w.db.spool.selectReady now.asMillis s.config.1.maxSpoolAttempts = some row) :
    ∃ claim, (exec (spoolClaimNext s ttl now) w).1 = .ok (some claim) ∧
      (claim.id.toNat : Int) = row.id := by
  have hpos := s.config.bounds.inflight_pos
  have hlease := h.lease
  obtain ⟨hepoch, hpositive⟩ := h.clock
  obtain ⟨nowMs, hnow, hms⟩ : ∃ nowMs, timeToMs now = .ok nowMs ∧ nowMs.1 = now.asMillis := by
    have hbounds : ¬ (now.asMillis ≤ 0 ∨ i64Max < now.asMillis) := by omega
    refine ⟨⟨now.asMillis, inI64_of_asMillis hbounds⟩, ?_, rfl⟩
    unfold timeToMs
    rw [if_neg (not_lt.mpr hepoch), dif_neg hbounds]
  have httl : durationToMs ttl = .ok s.config.1.spoolInflightMs.1 := by
    have hequal := h.ttl
    unfold durationToMs
    rw [if_pos ⟨by omega, by omega⟩, hequal]
  rw [← hms] at hselect hlease
  have hclaim := Storage.claimOldest_result s.config.bounds hselect hlease w.call.faults
  rw [if_neg h.statements] at hclaim
  obtain ⟨hrow, -⟩ := SpoolTable.selectReady_mem hselect
  have hrange : 0 ≤ row.id ∧ row.id ≤ u64Max := by
    have hseq := w.db.spool.ids_le_seq row hrow
    have hlast := w.db.spool.seq_bounds.2
    simp only [i64Max] at hlast
    simp only [u64Max]
    omega
  unfold spoolClaimNext
  rw [hnow, httl, exec_bind_ok (exec_fromExcept _ _), exec_bind_ok (exec_fromExcept _ _),
    if_neg (not_not.mpr rfl), exec_bind, exec_blocking, hclaim]
  refine ⟨⟨UInt64.ofNat row.id.toNat, row.payload, UInt32.ofNat row.attempts + 1⟩, ?_, ?_⟩
  · exact congrArg (Except.map some) (claimedBatch_ok hrange)
  · simp only [u64Max] at hrange
    show ((UInt64.ofNat row.id.toNat).toNat : Int) = row.id
    rw [UInt64.toNat_ofNat_of_lt' (by simp only [UInt64.size]; omega)]
    omega

/-- A claim takes no batch out of the spool, even if it fails. -/
theorem claim_queued {ttl : Duration} {now : SystemTime} {id : Int} :
    Keeps (fun d => Queued d id) (spoolClaimNext s ttl now) := by
  have hclaim : ∀ nowMs, Preserves (fun d => Queued d id)
      (Storage.claimOldest s.config.1 nowMs) := by
    intro nowMs
    apply Preserves.transaction
    apply Preserves.bind (Storage.Preserves.query _)
    intro candidate
    cases candidate with
    | none => exact Preserves.bind Preserves.commitTx fun _ => Preserves.pure _
    | some batch =>
        apply Preserves.bind
        · apply Storage.Preserves.onSpool
          intro d n t h hupdate
          unfold Queued
          rw [SpoolTable.update_find hupdate]
          exact h
        · intro changed
          split
          · exact Preserves.bind Preserves.commitTx fun _ => Preserves.pure _
          · exact Preserves.bind Preserves.commitTx fun _ => Preserves.pure _
  apply Keeps.bind (Keeps.fromExcept _); intro nowMs
  apply Keeps.bind (Keeps.fromExcept _); intro claimMs
  split
  · exact Triple.throw fun _ h => h
  · exact Keeps.bind (Keeps.blocking (hclaim _)) fun _ => Keeps.fromExcept _

/-- A claim that hands out nothing has changed nothing. -/
theorem claim_unclaimed {ttl : Duration} {now : SystemTime} {w w' : SqliteWorld}
    (h : exec (spoolClaimNext s ttl now) w = (.ok none, w')) : w'.db = w.db := by
  obtain ⟨nowMs, w₁, hnow, h⟩ := exec_bind_inv h
  obtain ⟨ttlMs, w₂, httl, h⟩ := exec_bind_inv h
  obtain rfl : w = w₁ := congrArg Prod.snd hnow
  obtain rfl : w = w₂ := congrArg Prod.snd httl
  by_cases hsame : ttlMs ≠ s.config.1.spoolInflightMs.1
  · rw [if_pos hsame] at h
    cases h
  rw [if_neg hsame] at h
  obtain ⟨batch, w₃, hclaim, h⟩ := exec_bind_inv h
  obtain rfl : w₃ = w' := congrArg Prod.snd h
  have hdb : (exec (Storage.claimOldest s.config.1 nowMs) ⟨w.db, none, w.call.faults⟩).2.committed =
      w₃.db := congrArg (fun r => r.2.db) hclaim
  have hbatch := mapError_ok (congrArg Prod.fst hclaim)
  cases batch with
  | some batch =>
      -- a batch is handed out, or its conversion fails
      have hsome : Except.map some (claimedBatch batch) = .ok none := congrArg Prod.fst h
      cases hconverted : claimedBatch batch with
      | error e => rw [hconverted] at hsome; cases hsome
      | ok claim => rw [hconverted] at hsome; cases hsome
  | none =>
      rw [← hdb]
      obtain ⟨faults', hrun | hrun⟩ :=
        (Storage.claimOldest_allOrNothing s.config.1 nowMs).exec_cases w.db w.call.faults
      · rw [hrun] at hbatch ⊢
        cases hselect : w.db.spool.selectReady nowMs.1 s.config.1.maxSpoolAttempts with
        | none => rw [Storage.quiet_claimOldest_none hselect]
        | some row =>
            by_cases hfit : nowMs.1 + s.config.1.spoolInflightMs.1 ≤ i64Max
            · obtain ⟨t, hnext, hquiet, -⟩ :=
                Storage.quiet_claimOldest_some hselect s.config.bounds.inflight_pos hfit
              rw [hquiet] at hbatch
              cases hbatch
            · rw [Storage.quiet_claimOldest_overflow hselect (by omega)]
      · rw [hrun]

/-! ## What a report is about -/

/-- The id that the next enqueued batch gets. -/
def freshId (d : Db) : Int := d.spool.seq + 1

/-- The status tells what has become of the batch `id`. -/
def Fate (d : Db) (id : Int) : DeliveryStatus → Prop
  | .delivered => d.spool.find id = none
  | .queued attempts => ∃ row, d.spool.find id = some row ∧ row.attempts = attempts.toNat
  | .dropped _ => d.spool.find id = none
  | .skipped => False
  | .failed _ => Queued d id

/-- The report of a cycle from `start` to `c` is about the batch that the cycle has enqueued: no
other batch was claimed, and the status is the fate of this one. -/
structure DescribesFresh (ε : Type) (k : Service.Collector ω SqliteWorld)
    (start : CycleContext ω SqliteWorld) (result : CycleResult) (c : CycleContext ω SqliteWorld) :
    Prop where
  claims : ∀ claim ∈ (exec (runCycle k.logged : Cycle ω _ ε _) (start.withLog [])).2.claims,
    (claim.id.toNat : Int) = freshId start.store.db
  fate : Fate c.store.db (freshId start.store.db) result.delivery

/-- The claim at `now` hands out a batch that was in the spool before: the oldest one that is due
then is not younger than the sample, or the sample is not due yet, and the claim goes through. -/
def OlderClaimed (s : SqliteStorage) (ttl : Duration) (d : Db) (observedAt now : SystemTime)
    (faults : List Bool) : Prop :=
  GoesThrough s ttl now faults ∧ ∃ row,
    d.spool.selectReady now.asMillis s.config.1.maxSpoolAttempts = some row ∧ 0 ≤ row.id ∧
      (row.createdAtMs ≤ observedAt.asMillis ∨ now.asMillis < observedAt.asMillis)

/-- The spool after the commit of a cycle: the one before it, and the fresh batch. -/
structure FreshlyQueued (d d' : Db) (observedAt : SystemTime) (fresh : SpoolRow) : Prop where
  rows : d'.spool.rows = d.spool.rows ++ [fresh]
  id : fresh.id = freshId d
  created : fresh.createdAtMs = observedAt.asMillis
  attempts : fresh.attempts = 0
  next : fresh.nextAttemptAtMs = observedAt.asMillis

variable {k : Service.Collector ω SqliteWorld}

/-- The durable step over the logged adapter claims nothing, and enqueues the fresh batch. -/
theorem persist_fresh (hstorage : k.ports.storage = s.port) {sample : Sample}
    {mid late : CycleContext ω (SqliteWorld × List ClaimedBatch)} {energy : EnergyOutcome}
    (h : PersistStep k.logged sample mid (.ok (energy, false)) late) :
    late.claims = mid.claims ∧
      ∃ fresh, FreshlyQueued mid.store.1.db late.store.1.db sample.observedAt fresh := by
  have hport : k.logged.ports.storage = s.port.logged := congrArg StoragePort.logged hstorage
  generalize hr : (Except.ok (energy, false) : Except (CyclePhase × CycleError) _) = r at h
  cases h with
  | refused => cases hr
  | duplicate => cases hr
  | commit prev success now now' spool payload env _ hpositive hprev hsuccess hnewer before hspool
      hpayload result after hcommit hcurrent hhealth hstore htrace =>
      rw [hport] at hspool hcommit
      -- the reads before the commit leave the database and the log alone
      have hdb : before.1.db = mid.store.1.db := by
        rw [← congrArg (fun r => r.2.1.db) hspool]
        calc _ = ((s.port.lastSuccess (s.port.energyState mid.store.1).2).2).db :=
              SqliteStorage.port_read (.spoolHealth now)
          _ = ((s.port.energyState mid.store.1).2).db := SqliteStorage.port_read .lastSuccess
          _ = mid.store.1.db := SqliteStorage.port_read .energyState
      have hlog : after.2 = mid.store.2 :=
        calc after.2 = before.2 := (congrArg (fun r => r.2.2) hcommit).symm
          _ = mid.store.2 := (congrArg (fun r => r.2.2) hspool).symm
      have hresult : result = .ok .committed := by
        rcases result with e | _ | _
        · cases hr
        · rfl
        · cases hr
      have hexec : exec (commitAcquisition s (acquisitionCommit k.logged sample prev
          (k.logged.energy.apply prev sample) payload)) before.1 = (.ok .committed, after.1) :=
        Prod.ext ((congrArg Prod.fst hcommit).trans hresult) (congrArg (fun r => r.2.1) hcommit)
      refine ⟨(congrArg Prod.snd hstore).trans hlog, ?_⟩
      rw [hstore, ← hdb]
      rcases port_commit_cases s _ before.1 with ⟨e, -, hfails⟩ | ⟨c, hconv, hcases⟩
      · cases hfails.symm.trans hexec
      rcases hcases with ⟨e, w', hfails, -⟩ | ⟨v, w', hfails, -⟩ | ⟨id, w', hcommits, heffect⟩
      · cases hfails.symm.trans hexec
      · cases hfails.symm.trans hexec
      · obtain rfl : w' = after.1 := congrArg Prod.snd (hcommits.symm.trans hexec)
        obtain ⟨hid, -, fresh, hrows, hfresh, -, hcreated, -, hattempts, hnext⟩ :=
          SpoolTable.insert_ok heffect.spool
        have hobserved := (sqliteCommit_ok hconv).2.1
        exact ⟨fresh, hrows, hfresh.trans hid, hcreated.trans hobserved, hattempts,
          hnext.trans hobserved⟩

/-- The fresh batch in the spool after its claim: one attempt. -/
theorem claimed_fresh {ttl : Duration} {now : SystemTime} {w w' : SqliteWorld}
    {claim : ClaimedBatch} {fresh : SpoolRow}
    (hclaim : exec (spoolClaimNext s ttl now) w = (.ok (some claim), w'))
    (hfresh : fresh ∈ w.db.spool.rows) (hattempts : fresh.attempts = 0)
    (hid : (claim.id.toNat : Int) = fresh.id) :
    ∃ row, w'.db.spool.find claim.id.toNat = some row ∧ row.attempts = 1 := by
  obtain ⟨row, hrow, hentry, -, hqueue⟩ := spoolClaimNext_attempts hclaim
  have hsame : row = fresh :=
    SpoolTable.eq_of_id hrow hfresh ((congrArg Prod.fst hentry).symm.trans hid)
  have hmem : (claimEntry claim, 1) ∈ w'.db.spool.queue := by
    rw [hqueue, attempted, List.mem_map]
    refine ⟨(claimEntry claim, 0), List.mem_map.mpr ⟨row, hrow, ?_⟩, by simp⟩
    rw [hentry, hsame, hattempts]
  obtain ⟨row', hrow', heq⟩ := List.mem_map.mp hmem
  have hid' : row'.id = claim.id.toNat := congrArg (fun e => e.1.1) heq
  refine ⟨row', ?_, congrArg Prod.snd heq⟩
  rw [← hid']
  exact SpoolTable.find_of_mem hrow'

/-- The status of a claim of the fresh batch is the fate of this batch. -/
theorem claimEnds_fate {claim : ClaimedBatch} {w w' : SqliteWorld} {status : DeliveryStatus}
    {row : SpoolRow} (h : ClaimEnds s.port claim w status w')
    (hrow : w.db.spool.find claim.id.toNat = some row) (hattempts : row.attempts = 1) :
    Fate w'.db claim.id.toNat status := by
  have hqueued : Queued w.db claim.id.toNat := by
    unfold Queued
    rw [hrow]
    rfl
  cases h with
  | delivered h => exact (complete_fate claim w hqueued).1 h
  | incomplete e h => exact (complete_fate claim w hqueued).2 e h
  | dropped h => exact (drop_fate claim w hqueued).1 h
  | undropped e h => exact (drop_fate claim w hqueued).2 e h
  | retried now attempts h =>
      rcases retry_fate (s := s) claim now w hrow with ⟨e, hr, -⟩ | ⟨n, hr, -⟩ | ⟨hr, row', hfind, hn⟩
      · cases hr.symm.trans h
      · cases hr.symm.trans h
      · cases hr.symm.trans h
        exact ⟨row', hfind, by rw [hn, hattempts]; rfl⟩
  | spent now attempts h =>
      rcases retry_fate (s := s) claim now w hrow with ⟨e, hr, -⟩ | ⟨n, hr, hgone⟩ | ⟨hr, -⟩
      · cases hr.symm.trans h
      · exact hgone
      · cases hr.symm.trans h
  | unretried now e h =>
      rcases retry_fate (s := s) claim now w hrow with ⟨e', hr, hkept⟩ | ⟨n, hr, -⟩ | ⟨hr, -⟩
      · exact hkept
      · cases hr.symm.trans h
      · cases hr.symm.trans h

/-- The batch that the claim selects is the fresh one, unless an older one is due. -/
theorem selected_fresh {d d' : Db} {observedAt : SystemTime} {fresh : SpoolRow} {nowMs : Int}
    {maxAttempts : UInt32} (hmax : 0 < maxAttempts.toNat)
    (h : FreshlyQueued d d' observedAt fresh) :
    d'.spool.selectReady nowMs maxAttempts =
      (d.spool.selectReady nowMs maxAttempts).elim
        (if observedAt.asMillis ≤ nowMs then some fresh else none)
        (fun row => if row.createdAtMs ≤ observedAt.asMillis ∨ nowMs < observedAt.asMillis
          then some row else some fresh) := by
  have hids : ∀ r ∈ d.spool.rows, r.id < fresh.id := by
    intro r hr
    have hle := d.spool.ids_le_seq r hr
    rw [h.id, freshId]
    omega
  have hready : fresh.ready nowMs maxAttempts = decide (observedAt.asMillis ≤ nowMs) := by
    unfold SpoolRow.ready
    rw [h.next, h.attempts]
    simp [hmax]
  rw [SpoolTable.selectReady_append h.rows hids, hready, h.created]
  simp only [decide_eq_true_eq, decide_eq_false_iff_not, not_le]

/-- An older batch is due in the spool before the commit exactly when one is selected after it. -/
theorem older_iff {d d' : Db} {observedAt : SystemTime} {fresh : SpoolRow} {nowMs : Int}
    {maxAttempts : UInt32} (hmax : 0 < maxAttempts.toNat)
    (h : FreshlyQueued d d' observedAt fresh) :
    (∃ row, d.spool.selectReady nowMs maxAttempts = some row ∧ 0 ≤ row.id ∧
        (row.createdAtMs ≤ observedAt.asMillis ∨ nowMs < observedAt.asMillis)) ↔
      ∃ row, d'.spool.selectReady nowMs maxAttempts = some row ∧ 0 ≤ row.id ∧
        row.id ≠ freshId d := by
  have hselected : d'.spool.selectReady nowMs maxAttempts = _ := selected_fresh hmax h
  constructor
  · rintro ⟨row, hselect, hid, hbefore⟩
    obtain ⟨hrow, -⟩ := SpoolTable.selectReady_mem hselect
    have hle := d.spool.ids_le_seq row hrow
    rw [hselect, Option.elim_some, if_pos hbefore] at hselected
    refine ⟨row, hselected, hid, ?_⟩
    unfold freshId
    omega
  · rintro ⟨row, hselect, hid, hother⟩
    rw [hselect] at hselected
    cases hold : d.spool.selectReady nowMs maxAttempts with
    | none =>
        rw [hold, Option.elim_none] at hselected
        split at hselected
        · cases hselected
          exact absurd h.id hother
        · cases hselected
    | some older =>
        rw [hold, Option.elim_some] at hselected
        split at hselected
        · rename_i hbefore
          cases hselected
          exact ⟨row, rfl, hid, hbefore⟩
        · cases hselected
          exact absurd h.id hother

/-- The end of a delivery is about the fresh batch unless the claim hands out an older one. -/
theorem freshEnds_iff {now : SystemTime} {d : Db} {observedAt : SystemTime} {fresh : SpoolRow}
    {mid last : CycleContext ω (SqliteWorld × List ClaimedBatch)} {status : DeliveryStatus}
    (hstorage : k.ports.storage = s.port) (hnone : mid.claims = [])
    (hfresh : FreshlyQueued d mid.store.1.db observedAt fresh)
    (hends : FreshEnds k.logged now mid status last) :
    ((∀ claim ∈ last.claims, (claim.id.toNat : Int) = freshId d) ∧
        Fate last.store.1.db (freshId d) status) ↔
      ¬ OlderClaimed s k.config.spoolClaimTtl d observedAt now mid.store.1.call.faults := by
  have hport : k.logged.ports.storage = s.port.logged := congrArg StoragePort.logged hstorage
  have hrow : fresh ∈ mid.store.1.db.spool.rows := by
    rw [hfresh.rows]
    simp
  have hfind : mid.store.1.db.spool.find (freshId d) = some fresh := by
    rw [← hfresh.id]
    exact SpoolTable.find_of_mem hrow
  have holder : OlderClaimed s k.config.spoolClaimTtl d observedAt now mid.store.1.call.faults ↔
      GoesThrough s k.config.spoolClaimTtl now mid.store.1.call.faults ∧ ∃ row,
        mid.store.1.db.spool.selectReady now.asMillis s.config.1.maxSpoolAttempts = some row ∧
        0 ≤ row.id ∧ row.id ≠ freshId d :=
    and_congr_right fun _ => older_iff s.config.bounds.attempts_pos hfresh
  rw [holder]
  -- what is not handed out is not older
  have hidle : (∀ claim, (s.port.spoolClaimNext k.config.spoolClaimTtl now mid.store.1).1 ≠
      .ok (some claim)) → ¬ (GoesThrough s k.config.spoolClaimTtl now mid.store.1.call.faults ∧
        ∃ row, mid.store.1.db.spool.selectReady now.asMillis s.config.1.maxSpoolAttempts = some row ∧
          0 ≤ row.id ∧ row.id ≠ freshId d) := by
    rintro hrefused ⟨hgoes, row, hselect, hid, -⟩
    obtain ⟨claim, hclaim, -⟩ := claim_goes hgoes hid hselect
    exact hrefused claim hclaim
  have hlog : ∀ r, (s.port.spoolClaimNext k.config.spoolClaimTtl now mid.store.1).1 = r →
      (s.port.logged.spoolClaimNext k.config.spoolClaimTtl now mid.store).2.2 = claimedNow r := by
    rintro r rfl
    exact congrArg (· ++ _) hnone
  cases hends with
  | failed e hclaim =>
      rw [hport] at hclaim ⊢
      refine iff_of_true ⟨?_, ?_⟩ (hidle fun claim h => by cases hclaim.symm.trans h)
      · intro claim hmem
        exact absurd hmem (List.eq_nil_iff_forall_not_mem.mp (hlog _ hclaim) claim)
      · have hqueued : Queued mid.store.1.db (freshId d) := congrArg Option.isSome hfind
        exact claim_queued.exec hqueued
  | unclaimed hclaim =>
      rw [hport] at hclaim ⊢
      refine iff_of_true ⟨?_, fresh, ?_, hfresh.attempts⟩
        (hidle fun claim h => by cases hclaim.symm.trans h)
      · intro claim hmem
        exact absurd hmem (List.eq_nil_iff_forall_not_mem.mp (hlog _ hclaim) claim)
      · have hexec : exec (spoolClaimNext s k.config.spoolClaimTtl now) mid.store.1 = (.ok none, _) :=
          Prod.ext hclaim rfl
        exact (congrArg (fun d : Db => d.spool.find _) (claim_unclaimed hexec)).trans hfind
  | claimed claim status last hclaim hdeliver =>
      obtain ⟨hended, -⟩ := (deliverClaim_once claim _).ok rfl hdeliver
      rw [hport] at hclaim hended
      obtain ⟨hsettled, hkept⟩ := hended.unlogged
      have hlast : last.claims = [claim] := hkept.trans (hlog _ hclaim)
      have hexec : exec (spoolClaimNext s k.config.spoolClaimTtl now) mid.store.1 =
          (.ok (some claim), _) := Prod.ext hclaim rfl
      obtain ⟨hgoes, row, hid, hselect, hentry⟩ := claim_went hexec
      have hnamed : (claim.id.toNat : Int) = row.id := congrArg Prod.fst hentry
      rw [hlast]
      by_cases hsame : row.id = freshId d
      · refine iff_of_true ⟨?_, ?_⟩ ?_
        · intro claim' hmem
          rw [List.mem_singleton.mp hmem, hnamed, hsame]
        · obtain ⟨row', hfind', hone⟩ := claimed_fresh hexec hrow hfresh.attempts
            (hnamed.trans (hsame.trans hfresh.id.symm))
          rw [← hsame, ← hnamed]
          exact claimEnds_fate hsettled hfind' hone
        · rintro ⟨-, row', hselect', -, hother⟩
          rw [Option.some.inj (hselect'.symm.trans hselect)] at hother
          exact hother hsame
      · refine iff_of_false ?_ (not_not.mpr ⟨hgoes, row, hselect, hid, hsame⟩)
        rintro ⟨hall, -⟩
        exact hsame (hnamed.symm.trans (hall claim (List.mem_singleton.mpr rfl)))

/-- **Whose delivery a cycle reports**: that of the batch it has enqueued, unless the claim hands
out an older one. -/
theorem delivery_fresh_iff (k : Service.Collector ω SqliteWorld) (s : SqliteStorage)
    (hstorage : k.ports.storage = s.port) (start c : CycleContext ω SqliteWorld)
    (result : CycleResult)
    (hrun : exec (runCycle k : Cycle ω SqliteWorld ε _) start = (.ok (.success result), c))
    (hnew : result.duplicate = false) :
    ∃ now mid, exec (arrive k) start = (.ok (result.sample, now), mid) ∧
      (DescribesFresh ε k start result c ↔
        ¬ OlderClaimed s k.config.spoolClaimTtl start.store.db result.sample.observedAt now
          mid.store.call.faults) := by
  -- the logged run is the run
  have hlogged := runCycle_unlogs (ε := ε) (k := k) (start.withLog [])
  rw [CycleContext.unlogged_withLog, hrun] at hlogged
  rcases hrun' : exec (runCycle k.logged : Cycle ω _ ε _) (start.withLog []) with ⟨r, c'⟩
  rw [hrun'] at hlogged
  obtain rfl : Except.ok (.success result) = r := congrArg Prod.fst hlogged
  obtain rfl : c = c'.unlogged := congrArg Prod.snd hlogged
  obtain ⟨now, mid, persisted, energy, late, last, harrive, hstart, hpersist, hmid, -, hends, hstore,
    -⟩ := cycleStates_arrives (runCycle_success hrun') hnew
  have harrive' := arrive_unlogs (k := k) (start.withLog [])
  rw [CycleContext.unlogged_withLog, harrive] at harrive'
  refine ⟨now, mid.unlogged, harrive', ?_⟩
  obtain ⟨hlog, fresh, hfresh⟩ := persist_fresh hstorage hpersist
  have hnone : mid.claims = [] := by
    unfold CycleContext.claims
    rw [hmid]
    exact hlog.trans (congrArg Prod.snd hstart)
  rw [← hmid, hstart] at hfresh
  refine Iff.trans ?_ (freshEnds_iff hstorage hnone hfresh hends)
  have hclaims : c'.claims = last.claims := congrArg Prod.snd hstore
  have hdb : c'.unlogged.store.db = last.store.1.db := congrArg (fun w => w.1.db) hstore
  constructor
  · intro h
    have hall := h.claims
    have hfate := h.fate
    rw [hrun', hclaims] at hall
    rw [hdb] at hfate
    exact ⟨hall, hfate⟩
  · rintro ⟨hall, hfate⟩
    refine ⟨?_, ?_⟩
    · rw [hrun', hclaims]
      exact hall
    · rw [hdb]
      exact hfate

end

/-! ## A backlog -/

/-- The cycle has committed a new sample and gone to its end. -/
def CycleOutcome.fresh : CycleOutcome → Bool
  | .success result => !result.duplicate
  | _ => false

theorem fresh_success {outcome : Except RunError CycleOutcome}
    (h : outcome.toOption.any CycleOutcome.fresh = true) :
    ∃ result, outcome = .ok (.success result) ∧ result.duplicate = false := by
  cases outcome with
  | error e => cases h
  | ok outcome =>
      cases outcome with
      | success result => exact ⟨result, rfl, by simpa [Except.toOption, CycleOutcome.fresh] using h⟩
      | failure p e => cases h
      | shutdownGraceful p sample => cases h

/-- The scripted collector at its sample of 2 s, over a storage. -/
def sunnyCycle (w : SqliteWorld) : CycleContext Sample SqliteWorld := .new (sunny 2000000000) w

/-- Over an empty spool the report is about the fresh batch. -/
theorem scripted_fresh : ∃ result c,
    exec (runCycle scripted : Cycle Sample SqliteWorld RunError _) (sunnyCycle ⟨Db.empty, []⟩) =
      (.ok (.success result), c) ∧
    DescribesFresh RunError scripted (sunnyCycle ⟨Db.empty, []⟩) result c := by
  have hfresh : (exec (runCycle scripted : Cycle Sample SqliteWorld RunError _)
      (sunnyCycle ⟨Db.empty, []⟩)).1.toOption.any CycleOutcome.fresh = true := by decide +kernel
  obtain ⟨result, hresult, hnew⟩ := fresh_success hfresh
  obtain ⟨now, mid, -, hiff⟩ := delivery_fresh_iff (ε := RunError) scripted scriptedStorage rfl
    (sunnyCycle ⟨Db.empty, []⟩) _ result (Prod.ext hresult rfl) hnew
  refine ⟨result, _, Prod.ext hresult rfl, hiff.mpr ?_⟩
  -- nothing was in the spool before
  rintro ⟨-, row, hselect, -⟩
  cases hselect

/-- With a batch of 1.3 s in the spool, the cycle of 2 s claims that one in place of its own. -/
theorem backlog_misreported : ∃ result c,
    exec (runCycle scripted : Cycle Sample SqliteWorld RunError _) (sunnyCycle stormyWorld) =
      (.ok (.success result), c) ∧ result.duplicate = false ∧
    ¬ DescribesFresh RunError scripted (sunnyCycle stormyWorld) result c := by
  have hfresh : (exec (runCycle scripted : Cycle Sample SqliteWorld RunError _)
      (sunnyCycle stormyWorld)).1.toOption.any CycleOutcome.fresh = true := by decide +kernel
  have hclaims : (exec (runCycle scripted.logged : Cycle Sample _ RunError _)
      ((sunnyCycle stormyWorld).withLog [])).2.claims.map (fun claim => claim.id) = [1] := by
    decide +kernel
  obtain ⟨result, hresult, hnew⟩ := fresh_success hfresh
  refine ⟨result, _, Prod.ext hresult rfl, hnew, fun h => ?_⟩
  have hall := h.claims
  obtain ⟨claim, hmem, hid⟩ := List.mem_map.mp (hclaims ▸ List.mem_singleton_self (1 : UInt64))
  have hnamed := hall claim hmem
  rw [hid] at hnamed
  exact absurd hnamed (by decide +kernel)

end VeSmart.Collector
