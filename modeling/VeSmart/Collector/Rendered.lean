import VeSmart.Collector.Counters
import VeSmart.Collector.Invariant
import VeSmart.Service.Projection

set_option autoImplicit false

/-! # What the rendered batches say about the collector

A batch is rendered before it is committed, from a projection of the storage and of the counters.
`rendered_truth` says that the projection is what the commit then brings about, in every payload
that a process commits over the SQLite adapter. The rendered gap is an unchecked sum of 64-bit
words; it never wraps, because the skipped gaps are disjoint intervals between the epoch and the
last success (`GapReached`). -/

namespace VeSmart.Collector

open VeSmart.Lib VeSmart.Domain VeSmart.Service

/-! ## What the adapter answers -/

section

variable {s : SqliteStorage}

theorem timeToMs_le {t : SystemTime} {ms : I64} (h : timeToMs t = .ok ms) :
    t.asMillis ≤ i64Max := by
  rw [← (timeToMs_ok h).1]
  exact ms.2.2

/-- The anchor of a state that the database takes is after the epoch. -/
theorem serviceEnergyToSqlite_pos {state : EnergyState} {r : Storage.AcquisitionEnergyState}
    (h : serviceEnergyToSqlite state = .ok r) : ∀ t ∈ state.lastSampleAt, 0 < t.asMillis := by
  intro t ht
  unfold serviceEnergyToSqlite at h
  rw [ht] at h
  cases hms : timeToMs t with
  | error e => simp [transposeMap, hms, Except.map, bind, Except.bind] at h
  | ok ms => exact (timeToMs_ok hms).2

theorem sqliteCommit_range {commit : Service.AcquisitionCommit} {c : Storage.AcquisitionCommit}
    (h : sqliteCommit commit = .ok c) : commit.observedAt.asMillis ≤ i64Max ∧
      ∀ state ∈ commit.expectedEnergy, ∀ t ∈ state.lastSampleAt, 0 < t.asMillis := by
  unfold sqliteCommit at h
  cases hobs : timeToMs commit.observedAt with
  | error e => rw [hobs] at h; cases h
  | ok ms =>
  refine ⟨timeToMs_le hobs, fun state hstate => ?_⟩
  rw [hobs, hstate] at h
  cases hexp : serviceEnergyToSqlite state with
  | error e => simp [transposeMap, hexp, Except.map, bind, Except.bind] at h
  | ok expected => exact serviceEnergyToSqlite_pos hexp

theorem port_committed_range {commit : Service.AcquisitionCommit} {w w' : SqliteWorld}
    (h : s.port.commitAcquisition commit w = (.ok .committed, w')) :
    commit.observedAt.asMillis ≤ i64Max ∧
      ∀ state ∈ commit.expectedEnergy, ∀ t ∈ state.lastSampleAt, 0 < t.asMillis := by
  have hexec : exec (commitAcquisition s commit) w = (.ok .committed, w') := h
  obtain ⟨c, w₁, hconv, -⟩ := exec_bind_inv hexec
  rw [exec_fromExcept] at hconv
  exact sqliteCommit_range (congrArg Prod.fst hconv)

/-- The depth that the adapter reports is the number of rows. -/
theorem port_depth {now : SystemTime} {spool : SpoolHealth} {w w' : SqliteWorld}
    (h : s.port.spoolHealth now w = (.ok spool, w')) :
    spool.depth = w.db.spool.rows.length := by
  have hexec : exec (spoolHealth s now) w = (.ok spool, w') := h
  obtain ⟨nowMs, w₁, hnow, hexec⟩ := exec_bind_inv hexec
  rw [exec_fromExcept] at hnow
  obtain rfl : w = w₁ := congrArg Prod.snd hnow
  obtain ⟨stats, w₂, hstats, hexec⟩ := exec_bind_inv hexec
  rw [exec_blocking] at hstats
  have hread := mapError_ok (congrArg Prod.fst hstats)
  rcases hq : exec Storage.stats ⟨w.db, none, w.call.faults⟩ with ⟨q, c⟩
  rw [hq] at hread
  dsimp only at hread
  rw [hread] at hq
  cases hexec
  exact Storage.exec_stats_ok hq

end

/-! ## The gaps of a process -/

/-- The whole seconds of the gap that the cycle has skipped. -/
def gapSeconds (cycle : CommittedCycle) : Nat :=
  (cycle.energy.skippedGapSeconds.map Duration.asSecs).getD 0

def gapTotal (cycles : List CommittedCycle) : Nat := (cycles.map gapSeconds).sum

@[simp] theorem gapTotal_nil : gapTotal [] = 0 := rfl

@[simp] theorem gapTotal_append (xs ys : List CommittedCycle) :
    gapTotal (xs ++ ys) = gapTotal xs + gapTotal ys := by
  simp [gapTotal]

@[simp] theorem gapTotal_cons (cycle : CommittedCycle) (cycles : List CommittedCycle) :
    gapTotal (cycle :: cycles) = gapSeconds cycle + gapTotal cycles := by
  simp [gapTotal]

/-- The seconds fit between the epoch and the anchor, and before the last success. -/
def GapReached (v : Durable) (total : Nat) : Prop :=
  total = 0 ∨ ∃ anchor success, v.energy.bind StoredEnergy.lastSampleAtMs = some anchor ∧
    v.lastSuccessMs = some success ∧ total * 1000 ≤ anchor ∧ total * 1000 ≤ success ∧
    success ≤ i64Max

/-- The seconds of a gap that ends by the last millisecond of the adapter. -/
theorem gap_le {anchor : Int} {t : SystemTime} (hanchor : SystemTime.fromMillis anchor < t) :
    (Duration.asSecs (t.nanos - (SystemTime.fromMillis anchor).nanos).toNat : Int) * 1000 ≤
      t.asMillis - anchor := by
  simp only [SystemTime.lt_iff, SystemTime.fromMillis, nanosPerMilli] at hanchor
  simp only [Duration.asSecs, SystemTime.fromMillis, SystemTime.asMillis, nanosPerMilli,
    nanosPerSec]
  omega

/-- The anchor of a state that is read back is that of the row. -/
theorem anchor_of_toState {v : Durable} {state : EnergyState} {anchor : SystemTime}
    (h : v.energy.map StoredEnergy.toState = some state)
    (hanchor : state.lastSampleAt = some anchor) :
    v.energy.bind StoredEnergy.lastSampleAtMs = some anchor.asMillis ∧
      anchor = SystemTime.fromMillis anchor.asMillis := by
  obtain ⟨stored, hstored, rfl⟩ := Option.map_eq_some_iff.mp h
  obtain ⟨ms, hms, rfl⟩ := Option.map_eq_some_iff.mp hanchor
  rw [SystemTime.asMillis_fromMillis, hstored]
  exact ⟨hms, rfl⟩

/-- The step of a run: a commit keeps the seconds between the epoch and the last success. -/
theorem GapReached.commit {v v' : Durable} {total : Nat} {sample : Sample} {o : EnergyOutcome}
    {commit : AcquisitionCommit} (h : GapReached v total)
    (hstep : AnchorStep (v.energy.map StoredEnergy.toState) sample o)
    (hnext : commit.nextEnergy = o.nextState) (hobserved : commit.observedAt = sample.observedAt)
    (hrange : commit.observedAt.asMillis ≤ i64Max)
    (hpos : ∀ state ∈ v.energy.map StoredEnergy.toState, ∀ t ∈ state.lastSampleAt, 0 < t.asMillis)
    (hcommitted : CommittedOnce commit v v') :
    GapReached v' (total + (o.skippedGapSeconds.map Duration.asSecs).getD 0) := by
  have hanchor' : v'.energy.bind StoredEnergy.lastSampleAtMs =
      o.nextState.lastSampleAt.map SystemTime.asMillis := by
    obtain ⟨stored, hstored, hholds⟩ := hcommitted.energy
    rw [hstored, ← hnext]
    exact hholds.sample
  have hnewer := hcommitted.newer
  have hidentity := hcommitted.identity
  rw [hobserved] at hrange hnewer hidentity
  -- the seconds so far end by the last success, which is earlier than the sample
  have hbefore : total = 0 ∨ (total : Int) * 1000 ≤ sample.observedAt.asMillis := by
    rcases h with hzero | ⟨anchor, success, -, hsuccess, -, hle, -⟩
    · exact .inl hzero
    · have hlt := hnewer success hsuccess
      exact .inr (by omega)
  cases hstep with
  | moved hgap hanchor =>
      rw [hgap, Option.map_none, Option.getD_none, Nat.add_zero]
      rcases hbefore with hzero | hle
      · exact .inl hzero
      · exact .inr ⟨_, _, by rw [hanchor', hanchor]; rfl, hidentity, hle, hle, hrange⟩
  | kept hgap hprev anchor hanchor =>
      rw [hgap, Option.map_none, Option.getD_none, Nat.add_zero]
      obtain ⟨hsame, -⟩ := anchor_of_toState hprev hanchor
      rcases h with hzero | ⟨anchor₀, success, hanchor₀, hsuccess, hfits, hle, -⟩
      · exact .inl hzero
      · have hlt := hnewer success hsuccess
        rw [hsame, Option.some.injEq] at hanchor₀
        exact .inr ⟨_, _, by rw [hanchor', hanchor]; rfl, hidentity, by omega, by omega, hrange⟩
  | skipped state anchor hprev hfrom hlt hgap hanchor =>
      rw [hgap, Option.map_some, Option.getD_some]
      have hafter := hpos state hprev anchor hfrom
      obtain ⟨hsame, hwhole⟩ := anchor_of_toState hprev hfrom
      -- the gap begins at the anchor, by which the seconds so far have ended
      have hstart : (total : Int) * 1000 ≤ anchor.asMillis := by
        rcases h with hzero | ⟨anchor₀, success, hanchor₀, -, hfits, -⟩
        · omega
        · rw [hsame, Option.some.injEq] at hanchor₀
          omega
      have hseconds : (Duration.asSecs (sample.observedAt.nanos - anchor.nanos).toNat : Int) *
          1000 ≤ sample.observedAt.asMillis - anchor.asMillis := by
        rw [hwhole] at hlt ⊢
        rw [SystemTime.asMillis_fromMillis]
        exact gap_le hlt
      have hend : ((total + Duration.asSecs (sample.observedAt.nanos - anchor.nanos).toNat : Nat) :
          Int) * 1000 ≤ sample.observedAt.asMillis := by
        push_cast
        omega
      exact .inr ⟨_, _, by rw [hanchor', hanchor]; rfl, hidentity, hend, hend, hrange⟩

/-- The seconds that are reached fit in a 64-bit word. -/
theorem GapReached.fits {v : Durable} {total : Nat} (h : GapReached v total) :
    total ≤ u64Max := by
  rcases h with hzero | ⟨anchor, success, -, -, -, hle, hrange⟩
  · simp [hzero]
  · simp only [i64Max] at hrange
    simp only [u64Max]
    omega

/-! ## One committed payload -/

section

variable {ω : Type}

/-- What the batch says of spool, gap, last success and yield is what holds right after its
commit. -/
structure PostCommit (s : SqliteStorage) (p : CommittedPayload ω SqliteWorld) : Prop where
  depth : p.context.spoolDepth = p.after.store.db.spool.rows.length
  gap : p.context.energyGapSkippedSeconds = p.after.health.energyGapSkippedSeconds
  success : p.context.lastSuccess.map SystemTime.asMillis = (s.view p.after.store).lastSuccessMs ∧
    p.context.lastSuccess.isSome = true
  yield : p.context.energyKind ≠ .native →
    ∃ row ∈ p.after.store.db.energy s.device.asStr,
      p.context.resolvedYieldKwh.toRat? = some row.totalKwh

variable {s : SqliteStorage} {k : Service.Collector ω SqliteWorld}
  {start c : CycleContext ω SqliteWorld}

/-- The step of a run: a cycle that commits a payload. -/
structure PayloadAdded (s : SqliteStorage) (k : Service.Collector ω SqliteWorld)
    (start : CycleContext ω SqliteWorld) (p : CommittedPayload ω SqliteWorld) : Prop where
  rendered : ∃ env, (k.ports.render p.context env).1 = .ok p.cycle.commit.payload
  truth : PostCommit s p
  gap : p.after.health.energyGapSkippedSeconds.toNat =
    start.health.energyGapSkippedSeconds.toNat + gapSeconds p.cycle
  reached : GapReached (s.view p.after.store) p.after.health.energyGapSkippedSeconds.toNat
  trace : committedCycles p.after.trace = committedCycles start.trace ++ [p.cycle]

theorem committedPayload?_added (hstorage : k.ports.storage = s.port)
    (hdevice : k.device.device = s.device) (hidle : start.state.current = .idle)
    {p : CommittedPayload ω SqliteWorld}
    (hgap : GapReached (s.view start.store) start.health.energyGapSkippedSeconds.toNat)
    (h : committedPayload? k start = some p) : PayloadAdded s k start p := by
  obtain ⟨sample, prev, mid, before, hp⟩ := committedPayload?_some hidle h
  obtain ⟨now, now', spool, queried, hcontext, hqueried, hspool⟩ := hp.projected.context
  have hreads := hp.projected.reads
  have hcall := hp.done.call
  have hanchor := hp.projected.anchor
  have hresolved := hp.projected.resolved
  rw [hstorage] at hqueried hspool hreads hcall hanchor
  -- the storage before the commit is that before the cycle, and so are the counters
  have hdb : before.store.db = start.store.db := by rw [port_reads hreads, hp.reached.store]
  have hview : s.view before.store = s.view start.store := view_of_same hdb
  have hhealth : before.health = start.health := by
    rw [hp.projected.health, hp.reached.health]
  have hprev : prev = (s.view start.store).energy.map StoredEnergy.toState := by
    rw [s.contract.energyState _ _ hanchor, hp.reached.store]
  have hcommit := hp.commit
  have hcommitted : CommittedOnce p.cycle.commit (s.view start.store) (s.view p.after.store) := by
    rw [← hview]
    exact s.contract.committed _ _ _ (by rw [hcommit]; exact hdevice) hcall
  obtain ⟨hrange, hpos⟩ := port_committed_range hcall
  have hnext : p.cycle.commit.nextEnergy = p.cycle.energy.nextState := by rw [hcommit]; rfl
  have hobserved : p.cycle.commit.observedAt = sample.observedAt := by rw [hcommit]; rfl
  have hexpected : p.cycle.commit.expectedEnergy = prev := by rw [hcommit]; rfl
  rw [hexpected, hprev] at hpos
  have hstep : AnchorStep ((s.view start.store).energy.map StoredEnergy.toState) sample
      p.cycle.energy := by
    rw [hresolved, ← hprev]
    exact k.energy.apply_anchor prev sample
  have hreached : GapReached (s.view p.after.store)
      (start.health.energyGapSkippedSeconds.toNat + gapSeconds p.cycle) :=
    hgap.commit hstep hnext hobserved hrange hpos hcommitted
  have hfits := hreached.fits
  have hcounted : p.after.health.energyGapSkippedSeconds.toNat =
      start.health.energyGapSkippedSeconds.toNat + gapSeconds p.cycle := by
    rw [hp.done.health, commitHealth_gap, hhealth]
    exact Nat.min_eq_right hfits
  refine ⟨⟨before.env, hp.done.rendered⟩, ⟨?_, ?_, ?_, ?_⟩, hcounted, hcounted ▸ hreached, ?_⟩
  · -- one row more than were counted
    obtain ⟨id, -, hbatches⟩ := hcommitted.batch
    have hlength := congrArg List.length hbatches
    simp only [SqliteStorage.view, List.length_map, List.length_append, List.length_singleton]
      at hlength
    rw [hcontext, hlength]
    show spool.depth + 1 = _
    rw [port_depth hspool, port_reads hqueried, hp.reached.store]
  · -- the unchecked sum does not wrap
    apply UInt64.toNat_inj.mp
    rw [hcounted, hcontext]
    show (mid.health.energyGapSkippedSeconds + UInt64.ofNat (gapSeconds p.cycle)).toNat = _
    rw [hp.reached.health, UInt64.toNat_add, UInt64.toNat_ofNat']
    simp only [u64Max] at hfits
    omega
  · rw [hcommitted.identity, hcontext, hobserved]
    exact ⟨rfl, rfl⟩
  · intro hkind
    obtain ⟨stored, hstored, hholds⟩ := hcommitted.energy
    obtain ⟨row, hrow, rfl⟩ := Option.map_eq_some_iff.mp hstored
    refine ⟨row, hrow, ?_⟩
    have htotal := hholds.total
    rw [hnext] at htotal
    have hsame : p.cycle.energy.totalKwh = p.cycle.energy.nextState.totalKwh := by
      rw [hcontext] at hkind
      rw [hresolved] at hkind ⊢
      exact k.energy.apply_total prev sample hkind
    calc p.context.resolvedYieldKwh.toRat?
        = p.cycle.energy.totalKwh.toRat? := by rw [hcontext]; rfl
      _ = p.cycle.energy.nextState.totalKwh.toRat? := by rw [hsame]
      _ = some row.totalKwh := htotal
  · obtain ⟨events, htrace, hquiet⟩ := hp.reached.trace
    have hnone : committedCycles (events ++ [Event.phase CyclePhase.persisting mid.store]) = [] := by
      apply committedCycles_none
      intro e he
      rcases List.mem_append.mp he with hmem | hmem
      · exact Event.isCommit_of_inert (hquiet e hmem)
      · rw [List.mem_singleton.mp hmem]
        rfl
    calc committedCycles p.after.trace
        = committedCycles (start.trace ++ (events ++ [Event.phase .persisting mid.store]) ++
            [.commit p.cycle.energy p.cycle.commit (.ok .committed)]) := by
          rw [hp.done.trace, hp.projected.trace, htrace, List.append_assoc start.trace]
      _ = committedCycles start.trace ++ [p.cycle] := by
          rw [committedCycles_append, committedCycles_append, hnone, List.append_nil]
          rfl

/-! ## The rest of the process -/

/-- Energy, identity, counted gap and commits are those of `start`. -/
structure GapKept (s : SqliteStorage) (start c : CycleContext ω SqliteWorld) : Prop where
  commits : committedCycles c.trace = committedCycles start.trace
  gap : c.health.energyGapSkippedSeconds = start.health.energyGapSkippedSeconds
  energy : (s.view c.store).energy = (s.view start.store).energy
  success : (s.view c.store).lastSuccessMs = (s.view start.store).lastSuccessMs

theorem GapKept.refl (c : CycleContext ω SqliteWorld) : GapKept s c c := ⟨rfl, rfl, rfl, rfl⟩

theorem GapKept.event {e : Event SqliteWorld} (h : GapKept s start c) (he : e.isCommit = false) :
    committedCycles (c.trace ++ [e]) = committedCycles start.trace := by
  have hnone : committedCycles [e] = [] := committedCycles_none (by simpa using he)
  rw [committedCycles_append, hnone, List.append_nil, h.commits]

theorem gapKeptInvariant (hstorage : k.ports.storage = s.port)
    (start : CycleContext ω SqliteWorld) : StepInvariant k (GapKept s start) where
  env _ _ h := ⟨h.commits, h.gap, h.energy, h.success⟩
  store c _ h hstep := by
    rw [hstorage] at hstep
    obtain ⟨henergy, hsuccess⟩ := s.contract.spool _ _ hstep
    exact ⟨h.commits, h.gap, henergy.trans h.energy, hsuccess.trans h.success⟩
  delivery c ok h := ⟨h.commits, by simp [h.gap], h.energy, h.success⟩
  dropped c h := ⟨h.commits, by simp [h.gap], h.energy, h.success⟩
  progress _ h := ⟨h.event rfl, h.gap, h.energy, h.success⟩
  deliver _ _ h := ⟨h.event rfl, h.gap, h.energy, h.success⟩
  moved _ _ _ h he := ⟨h.event he, h.gap, h.energy, h.success⟩

theorem GapReached.kept {total : Nat} (h : GapReached (s.view start.store) total)
    (hkept : GapKept s start c) : GapReached (s.view c.store) total := by
  unfold GapReached
  rw [hkept.energy, hkept.success]
  exact h

/-- A cycle either keeps the accounts, or adds one payload and keeps the accounts after it. -/
theorem runCycle_payload (hstorage : k.ports.storage = s.port)
    (hdevice : k.device.device = s.device) (hidle : start.state.current = .idle)
    {outcome : CycleOutcome}
    (hexec : exec (runCycle k : Cycle ω SqliteWorld RunError CycleOutcome) start =
      (.ok outcome, c)) :
    GapKept s (((committedPayload? k start).map CommittedPayload.after).getD start) c := by
  have hkeeps : ∀ kept : CycleContext ω SqliteWorld,
      GapKept s kept (exec (durable k) start).2 → GapKept s kept c := by
    intro kept hdurable
    have hrest := runCycle_keeps (ε := RunError) (gapKeptInvariant hstorage kept)
      (fun c e h => ⟨h.commits, (recordFailureHealth_gap e c.health).trans h.gap, h.energy,
        h.success⟩) hdurable
    exact hrest.ok rfl hexec
  apply hkeeps
  cases hpayload : committedPayload? k start with
  | some p =>
      obtain ⟨sample, prev, mid, before, hp⟩ := committedPayload?_some hidle hpayload
      rw [hp.durable]
      exact .refl _
  | none =>
      have hc : CommitContract k.ports.storage k.device.device s.view := by
        rw [hstorage, hdevice]
        exact s.contract
      obtain ⟨hview, hgap, events, htrace, hinert⟩ := committedPayload?_none hc hidle hpayload
      refine ⟨?_, hgap, by rw [hview]; rfl, by rw [hview]; rfl⟩
      have hnone : committedCycles events = [] := by
        rw [committedCycles, List.filterMap_eq_nil_iff]
        intro e he
        exact Event.committedCycle?_inert (hinert e he)
      rw [htrace, committedCycles_append, hnone, List.append_nil]
      rfl

/-! ## Runs -/

/-- The payloads that the process has committed, in order. -/
def committedPayloads (k : Service.Collector ω SqliteWorld) (r : Runner ω SqliteWorld) :
    List (CommittedPayload ω SqliteWorld) :=
  r.records.filterMap fun rec => committedPayload? k rec.entry

/-- **What the committed payloads of a process say.** -/
structure RenderedTruth (k : Service.Collector ω SqliteWorld) (s : SqliteStorage)
    (r : Runner ω SqliteWorld) : Prop where
  /-- They are the payloads of the commits that returned `Committed`. -/
  payloads : (committedPayloads k r).map CommittedPayload.cycle = committedCycles r.ctx.trace
  rendered : ∀ p ∈ committedPayloads k r, ∃ env,
    (k.ports.render p.context env).1 = .ok p.cycle.commit.payload
  truth : ∀ p ∈ committedPayloads k r, PostCommit s p
  /-- The gap in each is the sum over the cycles that have committed so far. -/
  sums : ∀ earlier p, earlier ++ [p] <+: committedPayloads k r →
    p.context.energyGapSkippedSeconds.toNat =
      gapTotal ((earlier ++ [p]).map CommittedPayload.cycle)
  monotone : (committedPayloads k r).Pairwise fun p q =>
    p.context.energyGapSkippedSeconds ≤ q.context.energyGapSkippedSeconds

/-- The invariant of the loop. -/
structure GapAccounts (k : Service.Collector ω SqliteWorld) (s : SqliteStorage)
    (r : Runner ω SqliteWorld) : Prop where
  truth : RenderedTruth k s r
  total : r.ctx.health.energyGapSkippedSeconds.toNat = gapTotal (committedCycles r.ctx.trace)
  reached : GapReached (s.view r.ctx.store) r.ctx.health.energyGapSkippedSeconds.toNat

/-- Running sums do not decrease. -/
theorem monotone_of_sums {ps : List (CommittedPayload ω SqliteWorld)}
    (h : ∀ earlier p, earlier ++ [p] <+: ps → p.context.energyGapSkippedSeconds.toNat =
      gapTotal ((earlier ++ [p]).map CommittedPayload.cycle)) :
    ps.Pairwise fun p q =>
      p.context.energyGapSkippedSeconds ≤ q.context.energyGapSkippedSeconds := by
  induction ps using List.reverseRecOn with
  | nil => exact .nil
  | append_singleton ps last ih =>
      have hbefore := ih fun earlier p hp => h earlier p (hp.trans (List.prefix_append _ _))
      refine List.pairwise_append.mpr ⟨hbefore, List.pairwise_singleton _ _, ?_⟩
      intro p hp q hq
      obtain rfl := List.mem_singleton.mp hq
      obtain ⟨earlier, later, rfl⟩ := List.append_of_mem hp
      have hsum := h earlier p ⟨later ++ [q], by simp⟩
      have hlast := h _ q (List.prefix_refl _)
      rw [UInt64.le_iff_toNat_le, hsum, hlast]
      simp only [List.map_append, List.map_cons, List.map_nil, gapTotal_append,
        gapTotal_cons, gapTotal_nil]
      omega

/-- What commits nothing and counts no gap keeps the accounts. -/
theorem GapAccounts.kept {r t : Runner ω SqliteWorld} {c : CycleContext ω SqliteWorld}
    (h : GapAccounts k s r) (hpayloads : committedPayloads k t = committedPayloads k r)
    (hkept : GapKept s r.ctx c) (htrace : t.ctx.trace = c.trace)
    (hgap : t.ctx.health.energyGapSkippedSeconds = c.health.energyGapSkippedSeconds)
    (hstore : t.ctx.store = c.store) : GapAccounts k s t := by
  refine ⟨⟨?_, ?_, ?_, ?_, ?_⟩, ?_, ?_⟩
  · rw [hpayloads, htrace, hkept.commits]
    exact h.truth.payloads
  · rw [hpayloads]
    exact h.truth.rendered
  · rw [hpayloads]
    exact h.truth.truth
  · rw [hpayloads]
    exact h.truth.sums
  · rw [hpayloads]
    exact h.truth.monotone
  · rw [hgap, htrace, hkept.gap, hkept.commits]
    exact h.total
  · rw [hgap, hstore, hkept.gap]
    exact h.reached.kept hkept

/-- Waiting and draining keep the accounts. -/
theorem GapAccounts.waits {r t : Runner ω SqliteWorld} (h : GapAccounts k s r)
    (hwaited : Carried r (GapKept s r.ctx) t) : GapAccounts k s t := by
  have hpayloads : committedPayloads k t = committedPayloads k r := by
    rw [committedPayloads, hwaited.records]
    rfl
  exact h.kept hpayloads hwaited.context rfl rfl rfl

theorem accountHealth_gap (outcome : CycleOutcome) (h : HealthSnapshot) :
    (accountHealth outcome h).energyGapSkippedSeconds = h.energyGapSkippedSeconds := by
  have hsuccess : ∀ (h : HealthSnapshot) (t : SystemTime),
      (h.setLastSuccess t).energyGapSkippedSeconds = h.energyGapSkippedSeconds := by
    intro h t
    unfold HealthSnapshot.setLastSuccess
    split <;> rfl
  cases outcome with
  | success result => exact hsuccess _ _
  | failure p e => rfl
  | shutdownGraceful p sample => exact hsuccess _ _

/-- A cycle keeps the accounts: if it commits a payload, the payload tells the truth. -/
theorem GapAccounts.cycle (hstorage : k.ports.storage = s.port)
    (hdevice : k.device.device = s.device) {r r' : Runner ω SqliteWorld}
    {rec : CycleRecord ω SqliteWorld} (h : GapAccounts k s r) (hbooked : Booked r r' rec)
    (hstore : r'.ctx.store = rec.exit.store) (htrace : r'.ctx.trace = rec.exit.trace)
    (hlegal : rec.Legal k) : GapAccounts k s r' := by
  have hkept := runCycle_payload hstorage hdevice hlegal.entered hlegal.ran
  have hgap : r'.ctx.health.energyGapSkippedSeconds = rec.exit.health.energyGapSkippedSeconds := by
    rw [hbooked.health, accountHealth_gap]
  have hpayloads : committedPayloads k r' =
      committedPayloads k r ++ (committedPayload? k rec.entry).toList := by
    rw [committedPayloads, hbooked.records, List.filterMap_append]
    cases hpayload : committedPayload? k rec.entry <;> simp [hpayload, committedPayloads]
  rw [hbooked.entry] at hkept hpayloads
  cases hpayload : committedPayload? k r.ctx with
  | none =>
      rw [hpayload] at hkept hpayloads
      rw [Option.toList_none, List.append_nil] at hpayloads
      exact h.kept hpayloads hkept htrace hgap hstore
  | some p =>
      have hidle : r.ctx.state.current = .idle := hbooked.entry ▸ hlegal.entered
      have hadded := committedPayload?_added hstorage hdevice hidle h.reached hpayload
      rw [hpayload] at hkept hpayloads
      rw [Option.toList_some] at hpayloads
      have hafter : GapKept s p.after rec.exit := hkept
      have hcommits : committedCycles r'.ctx.trace =
          committedCycles r.ctx.trace ++ [p.cycle] := by
        rw [htrace, hafter.commits, hadded.trace]
      have htotal : r'.ctx.health.energyGapSkippedSeconds.toNat =
          gapTotal (committedCycles r'.ctx.trace) := by
        rw [hgap, hafter.gap, hadded.gap, h.total, hcommits]
        simp
      have hsums : ∀ earlier q, earlier ++ [q] <+: committedPayloads k r' →
          q.context.energyGapSkippedSeconds.toNat =
            gapTotal ((earlier ++ [q]).map CommittedPayload.cycle) := by
        intro earlier q hq
        rw [hpayloads] at hq
        rcases List.prefix_concat_iff.mp hq with hwhole | hbefore
        · -- the gap that was rendered is the one that is counted now
          obtain ⟨rfl, hlast⟩ := List.append_inj' hwhole rfl
          obtain rfl : q = p := List.singleton_inj.mp hlast
          rw [hadded.truth.gap, ← hafter.gap, ← hgap, htotal, hcommits, List.map_append,
            h.truth.payloads]
          rfl
        · exact h.truth.sums earlier q hbefore
      refine ⟨⟨?_, ?_, ?_, hsums, monotone_of_sums hsums⟩, htotal, ?_⟩
      · rw [hpayloads, hcommits, List.map_append, h.truth.payloads]
        rfl
      · intro q hq
        rw [hpayloads] at hq
        rcases List.mem_append.mp hq with hmem | hmem
        · exact h.truth.rendered q hmem
        · rw [List.mem_singleton.mp hmem]
          exact hadded.rendered
      · intro q hq
        rw [hpayloads] at hq
        rcases List.mem_append.mp hq with hmem | hmem
        · exact h.truth.truth q hmem
        · rw [List.mem_singleton.mp hmem]
          exact hadded.truth
      · rw [hgap, hstore, hafter.gap]
        exact hadded.reached.kept hafter

theorem iteration_gapAccounts (hstorage : k.ports.storage = s.port)
    (hdevice : k.device.device = s.device) {r r' : Runner ω SqliteWorld} {drains : Nat}
    {flow : Flow} (hrests : RunnerAt k (fun p => p.resting = true) r) (h : GapAccounts k s r)
    (hexec : exec (Service.iteration k drains) r = (.ok flow, r')) : GapAccounts k s r' := by
  rcases iteration_cases (gapKeptInvariant hstorage r.ctx) (.refl _) hexec with
    ⟨-, hwaited⟩ | ⟨mid, hmid, hrun⟩
  · exact h.waits hwaited
  · obtain ⟨rec, hbooked, hstore, htrace⟩ := runOnce_booked hrun
    have hlegal : rec.Legal k := ((iteration_rule drains).ok hrests hexec).1 rec (by
      rw [hbooked.records]
      exact List.mem_append_right _ (List.mem_singleton_self rec))
    exact (h.waits hmid).cycle hstorage hdevice hbooked hstore htrace hlegal

/-- By induction on the iterations, from any database. -/
theorem Looped.gapAccounts (hstorage : k.ports.storage = s.port)
    (hdevice : k.device.device = s.device) {r : Runner ω SqliteWorld} (h : Looped k r) :
    GapAccounts k s r := by
  induction h with
  | start env store =>
      refine ⟨⟨rfl, by simp [committedPayloads, Runner.new], by simp [committedPayloads, Runner.new],
        ?_, .nil⟩, rfl, .inl rfl⟩
      intro earlier p hp
      exact absurd (List.prefix_nil.mp hp) (by simp)
  | next r r' drains h hexec ih => exact iteration_gapAccounts hstorage hdevice h.legal ih hexec

/-- **Rendered health is the truth after the commit**: for every behaviour of the ports and every
database, at every moment of a process. -/
theorem rendered_truth (k : Service.Collector ω SqliteWorld) (s : SqliteStorage)
    (hstorage : k.ports.storage = s.port) (hdevice : k.device.device = s.device)
    (r : Runner ω SqliteWorld) (h : Moment k r) : RenderedTruth k s r := by
  cases h with
  | looped _ h => exact (h.gapAccounts hstorage hdevice).truth
  | drained r₀ _ drains ready h hexec =>
      exact ((h.gapAccounts hstorage hdevice).waits
        ((prepare_carried (gapKeptInvariant hstorage r₀.ctx) drains).ok
          ⟨rfl, rfl, rfl, rfl, .refl _⟩ hexec)).truth
  | ended r₀ _ drains h hexec =>
      exact (iteration_gapAccounts hstorage hdevice h.legal (h.gapAccounts hstorage hdevice)
        hexec).truth

end

/-! ## A process after a long pause -/

/-- One iteration of a process over the database that a cycle in the first second has left; its own
cycle is 1999 seconds later. -/
def resumed : Except RunError Flow × Runner Sample SqliteWorld :=
  exec (Service.iteration scripted 3) (Runner.new (sunny 2000000000000)
    ⟨((cycleAt 1000000000).finish Storage.Db.empty).store.db, []⟩)

def resumedNext : Bool :=
  match resumed.1 with
  | .ok .next => true
  | _ => false

theorem resumed_truth : RenderedTruth scripted scriptedStorage resumed.2 ∧
    (committedPayloads scripted resumed.2).map (fun p => p.context.energyGapSkippedSeconds) =
      [1999] := by
  have hnext : resumedNext = true := by decide +kernel
  have hexec : resumed.1 = .ok .next := by
    unfold resumedNext at hnext
    split at hnext
    · assumption
    · cases hnext
  exact ⟨rendered_truth scripted scriptedStorage rfl rfl _
    (.looped _ (.next _ _ 3 (.start _ _) (Prod.ext hexec rfl))), by decide +kernel⟩

end VeSmart.Collector
