import VeSmart.Collector.Cycles

set_option autoImplicit false

/-! # A collector never wedges its storage

`Unwedged` holds of a fresh database and after every cycle: the anchor is not later than the
acquisition identity, the energy is not negative, and the power is in its range. From such a
database every further commit of a valid sample passes the validation of the storage crate. -/

namespace VeSmart.Collector

open VeSmart.Lib VeSmart.Domain VeSmart.Service

section

variable {ω : Type} {s : SqliteStorage} {d d' : Storage.Db}

/-- The invariant of the durable state of the adapter's device. -/
structure Unwedged (s : SqliteStorage) (d : Storage.Db) : Prop where
  identity : ∃ stored, Storage.storedSuccess d s.device.asStr = .ok stored ∧
    (∀ ms ∈ stored, ms ≤ i64Max) ∧ ∀ row ∈ d.energy s.device.asStr, ∀ a ∈ row.lastSampleAtMs,
      0 < a ∧ ∃ ms ∈ stored, a ≤ ms
  power : ∀ row ∈ d.energy s.device.asStr, ∀ p ∈ row.lastPowerWatts, 0 ≤ p ∧ p ≤ 30000

theorem Unwedged.empty (s : SqliteStorage) : Unwedged s Storage.Db.empty where
  identity := ⟨none, rfl, by simp, by simp [Storage.Db.empty]⟩
  power := by simp [Storage.Db.empty]

theorem Unwedged.same (h : Unwedged s d) (hsame : Storage.SameAcquisitions d d') :
    Unwedged s d' := by
  obtain ⟨henergy, hidentity⟩ := hsame
  constructor
  · rw [hidentity, henergy]
    exact h.identity
  · rw [henergy]
    exact h.power

theorem Unwedged.sound (h : Unwedged s d) :
    ∀ e ∈ (s.dbView d).energy, e.Sound := by
  intro e he
  obtain ⟨row, hrow, rfl⟩ := Option.map_eq_some_iff.mp he
  exact ⟨row.total_bounds.1, h.power row hrow⟩

/-! ## One commit -/

/-- Reads and spool operations keep the acquisitions. -/
theorem port_steps {w w' : SqliteWorld} (h : Relation.ReflTransGen (StoreStep s.port) w w') :
    Storage.SameAcquisitions w.db w'.db := by
  induction h with
  | refl => exact ⟨rfl, fun _ => rfl⟩
  | tail _ hstep ih =>
      cases hstep with
      | read hread =>
          rw [SqliteStorage.port_read hread]
          exact ih
      | spool hspool =>
          obtain ⟨henergy, hidentity⟩ := SqliteStorage.port_spool hspool
          exact ⟨henergy.trans ih.1, fun device => (hidentity device).trans (ih.2 device)⟩

theorem port_reads {w w' : SqliteWorld} (h : Relation.ReflTransGen (ReadStep s.port) w w') :
    w'.db = w.db := by
  induction h with
  | refl => rfl
  | tail _ hstep ih => rw [SqliteStorage.port_read hstep, ih]

/-- The commit of a sample over the adapter, from a database that satisfies the invariant. -/
structure IssuedAt (s : SqliteStorage) (d : Storage.Db) (sample : Sample)
    (commit : Service.AcquisitionCommit) : Prop where
  device : commit.device = s.device
  observed : commit.observedAt = sample.observedAt
  expected : commit.expectedEnergy = (s.dbView d).energy.map StoredEnergy.toState
  next : SoundNext (s.dbView d).energy sample commit.nextEnergy

theorem issuedAt (k : Service.Collector ω SqliteWorld) (hstorage : k.ports.storage = s.port)
    (hdevice : k.device.device = s.device) {start : CycleContext ω SqliteWorld} {sample : Sample}
    {prev : Option EnergyState} {payload : List UInt8} {before after : SqliteWorld}
    {result : Except Service.StorageError Service.AcquisitionCommitOutcome}
    (h : CommitIssued k start sample prev payload before result after)
    (hd : Unwedged s start.store.db) :
    before.db = start.store.db ∧ IssuedAt s before.db sample
      (acquisitionCommit k sample prev (k.energy.apply prev sample) payload) := by
  have hreads := h.reads
  have hanchor := h.anchor
  rw [hstorage] at hreads hanchor
  have hbefore := port_reads hreads
  have hprev : prev = (s.dbView before.db).energy.map StoredEnergy.toState := by
    rw [s.contract.energyState _ _ hanchor, hbefore]
    rfl
  refine ⟨hbefore, hdevice, rfl, hprev, ?_⟩
  rw [hprev]
  refine k.energy.apply_sound ?_ sample
  rw [hbefore]
  exact hd.sound

/-- The invariant after a commit. -/
theorem Unwedged.committed {sample : Sample} {commit : Service.AcquisitionCommit}
    {c : Storage.AcquisitionCommit} {id : Int} (hd : Unwedged s d)
    (hissued : IssuedAt s d sample commit) (hconv : sqliteCommit commit = .ok c)
    (h : Storage.CommitEffect c d d' id) : Unwedged s d' := by
  obtain ⟨hdevice, hobs, -, hnext, -⟩ := sqliteCommit_ok hconv
  rw [hissued.device] at hdevice
  obtain ⟨stored, hstored, -, hanchors⟩ := hd.identity
  obtain ⟨stored', hstored', hnewer⟩ := h.newer
  have hidentity := h.exactly.identity
  obtain ⟨row, hrow, hholds, -⟩ := h.exactly.energy
  rw [hdevice] at hstored' hidentity hrow
  rw [hstored] at hstored'
  cases hstored'
  rw [hnext] at hholds
  have hpositive : 0 < c.observedAtMs.1 := h.identity.2
  refine ⟨⟨some c.observedAtMs.1, hidentity, ?_, ?_⟩, ?_⟩
  · intro ms hms
    cases hms
    exact c.observedAtMs.2.2
  · intro row' hrow' a ha
    cases hrow.symm.trans hrow'
    rw [hholds.sample] at ha
    rcases hissued.next.anchor with hanchor | ⟨e, he, hanchor⟩
    · -- the anchor is the observation itself
      simp only [atMillis, hanchor, hissued.observed ▸ hobs.symm, Option.map_some,
        Option.mem_def, Option.some.injEq] at ha
      exact ⟨ha ▸ hpositive, _, rfl, le_of_eq ha.symm⟩
    · -- the stored anchor is kept, and the observation is newer
      obtain ⟨old, hold, rfl⟩ := Option.map_eq_some_iff.mp he
      simp only [atMillis, hanchor, Option.map_map, Function.comp_def,
        SystemTime.asMillis_fromMillis, Option.map_id', storedEnergy] at ha
      obtain ⟨hpos, ms, hms, hle⟩ := hanchors old hold a ha
      exact ⟨hpos, _, rfl, hle.trans (le_of_lt (hnewer ms hms))⟩
  · intro row' hrow' p hp
    cases hrow.symm.trans hrow'
    have hpower : commit.nextEnergy.lastPowerWatts.map F64.toRat? = some (some p) := by
      have hp' : row.lastPowerWatts = some p := hp
      have hsame : commit.nextEnergy.lastPowerWatts.map F64.toRat? = _ := hholds.power
      rw [hsame, hp']
      rfl
    obtain ⟨power, hmem, hvalue⟩ := Option.map_eq_some_iff.mp hpower
    obtain ⟨q, hq, hbounds⟩ := hissued.next.power power hmem
    cases hvalue.symm.trans hq
    exact hbounds

/-! ## A further commit is accepted -/

/-- A commit that the storage crate did not refuse: it returned `Committed` or
`AlreadyCommitted`, or SQLite itself failed (an I/O error, or a full table). -/
inductive Accepted (s : SqliteStorage) :
    Except Service.StorageError Service.AcquisitionCommitOutcome → Prop
  | ok (outcome : Service.AcquisitionCommitOutcome) : Accepted s (.ok outcome)
  | io : Accepted s (.error (.io (s.sqliteText .io)))
  | full : Accepted s (.error (.io (s.sqliteText .full)))

theorem timeToMs_of {t : SystemTime} (hpos : 0 < t.asMillis) (hmax : t.asMillis ≤ i64Max) :
    ∃ ms, timeToMs t = .ok ms := by
  have hepoch : ¬ t < SystemTime.unixEpoch := by
    simp only [SystemTime.lt_iff, SystemTime.unixEpoch]
    simp only [SystemTime.asMillis, nanosPerMilli] at hpos
    omega
  have hrange : ¬ (t.asMillis ≤ 0 ∨ i64Max < t.asMillis) := by omega
  unfold timeToMs
  rw [if_neg hepoch, dif_neg hrange]
  exact ⟨_, rfl⟩

theorem serviceEnergyToSqlite_of {state : EnergyState}
    (h : ∀ t ∈ state.lastSampleAt, 0 < t.asMillis ∧ t.asMillis ≤ i64Max) :
    serviceEnergyToSqlite state = .ok (atMillis state) := by
  have hconv : ∃ r, serviceEnergyToSqlite state = .ok r := by
    unfold serviceEnergyToSqlite
    cases hanchor : state.lastSampleAt with
    | none => exact ⟨_, rfl⟩
    | some t =>
        obtain ⟨hpos, hmax⟩ := h t hanchor
        obtain ⟨ms, hms⟩ := timeToMs_of hpos hmax
        simp [transposeMap, hms, Except.map, bind, Except.bind, pure, Except.pure]
  obtain ⟨r, hr⟩ := hconv
  rw [hr, serviceEnergyToSqlite_ok hr]

/-- Reading a stored state back and storing it again changes nothing. -/
theorem atMillis_toState (row : Storage.EnergyRow) :
    atMillis (storedEnergy row).toState = row.toState := by
  simp [atMillis, StoredEnergy.toState, storedEnergy, Storage.EnergyRow.toState,
    Function.comp_def]

/-- An observation in positive 64-bit milliseconds, and a total that the storage can hold. -/
structure Representable (commit : Service.AcquisitionCommit) : Prop where
  first : 1 ≤ commit.observedAt.asMillis
  last : commit.observedAt.asMillis ≤ i64Max
  total : ∀ total, commit.nextEnergy.totalKwh.toRat? = some total → total ≤ 1000000000

/-- The anchors of a commit are positive and representable. -/
theorem IssuedAt.anchor_range {sample : Sample} {commit : Service.AcquisitionCommit}
    (h : IssuedAt s d sample commit) (hd : Unwedged s d) (hr : Representable commit) :
    (∀ e ∈ commit.expectedEnergy, ∀ t ∈ e.lastSampleAt, 0 < t.asMillis ∧ t.asMillis ≤ i64Max) ∧
      ∀ t ∈ commit.nextEnergy.lastSampleAt, 0 < t.asMillis ∧ t.asMillis ≤ i64Max := by
  obtain ⟨stored, -, hmax, hanchors⟩ := hd.identity
  have hread : ∀ e ∈ (s.dbView d).energy, ∀ t ∈ e.toState.lastSampleAt,
      0 < t.asMillis ∧ t.asMillis ≤ i64Max := by
    intro e he t ht
    obtain ⟨row, hrow, rfl⟩ := Option.map_eq_some_iff.mp he
    obtain ⟨a, ha, rfl⟩ := Option.map_eq_some_iff.mp ht
    obtain ⟨hpos, ms, hms, hle⟩ := hanchors row hrow a ha
    rw [SystemTime.asMillis_fromMillis]
    exact ⟨hpos, hle.trans (hmax ms hms)⟩
  constructor
  · intro e he t ht
    rw [h.expected] at he
    obtain ⟨e', he', rfl⟩ := Option.map_eq_some_iff.mp he
    exact hread e' he' t ht
  · intro t ht
    rcases h.next.anchor with hanchor | ⟨e, he, hanchor⟩
    · rw [hanchor, ← h.observed] at ht
      cases ht
      have hfirst := hr.first
      exact ⟨by omega, hr.last⟩
    · rw [hanchor] at ht
      exact hread e he t ht

theorem IssuedAt.converts {sample : Sample} {commit : Service.AcquisitionCommit}
    (h : IssuedAt s d sample commit) (hd : Unwedged s d) (hr : Representable commit) :
    ∃ c, sqliteCommit commit = .ok c := by
  obtain ⟨hexpected, hnext⟩ := h.anchor_range hd hr
  have hfirst := hr.first
  obtain ⟨ms, hms⟩ := timeToMs_of (by omega) hr.last
  have hanchor : ∃ e, transposeMap serviceEnergyToSqlite commit.expectedEnergy = .ok e := by
    cases he : commit.expectedEnergy with
    | none => exact ⟨none, rfl⟩
    | some e =>
        rw [transposeMap, serviceEnergyToSqlite_of (hexpected e he)]
        exact ⟨_, rfl⟩
  obtain ⟨expected, hexpected'⟩ := hanchor
  unfold sqliteCommit
  rw [hms, hexpected', serviceEnergyToSqlite_of hnext]
  exact ⟨_, rfl⟩

/-- The converted commit passes the validation if its observation is new. -/
theorem IssuedAt.validates {sample : Sample} {commit : Service.AcquisitionCommit}
    {c : Storage.AcquisitionCommit} (h : IssuedAt s d sample commit) (hd : Unwedged s d)
    (hr : Representable commit) (hconv : sqliteCommit commit = .ok c) (hpayload : c.payload ≠ [])
    {stored : Option Int} (hstored : Storage.storedSuccess d s.device.asStr = .ok stored)
    (hnewer : ∀ v ∈ stored, v < c.observedAtMs.1) :
    Storage.validateStateAndPayload c = .ok () := by
  obtain ⟨-, hobs, hexpected, hnext, -⟩ := sqliteCommit_ok hconv
  obtain ⟨stored', hstored', -, hanchors⟩ := hd.identity
  rw [hstored] at hstored'
  cases hstored'
  have hanchor : ∀ row ∈ d.energy s.device.asStr, ∀ a ∈ row.lastSampleAtMs,
      0 < a ∧ a ≤ c.observedAtMs.1 := by
    intro row hrow a ha
    obtain ⟨hpos, ms, hms, hle⟩ := hanchors row hrow a ha
    exact ⟨hpos, hle.trans (le_of_lt (hnewer ms hms))⟩
  rw [Storage.validateStateAndPayload_ok]
  refine ⟨hpayload, ?_, ?_⟩
  · -- the expected state is the stored row
    intro e he
    rw [hexpected, h.expected] at he
    obtain ⟨_, hmem, rfl⟩ := Option.map_eq_some_iff.mp he
    obtain ⟨_, hmem', rfl⟩ := Option.map_eq_some_iff.mp hmem
    obtain ⟨row, hrow, rfl⟩ := Option.map_eq_some_iff.mp hmem'
    rw [atMillis_toState]
    refine ⟨⟨row.totalKwh, rfl, row.total_bounds.1, row.total_bounds.2⟩, ?_, hanchor row hrow⟩
    intro p hp
    obtain ⟨q, -, rfl⟩ := Option.map_eq_some_iff.mp hp
    rfl
  · rw [hnext]
    obtain ⟨total, htotal, hnonneg⟩ := h.next.total
    refine ⟨⟨total, htotal, hnonneg, hr.total total htotal⟩, ?_, ?_⟩
    · intro p hp
      obtain ⟨q, hq, -⟩ := h.next.power p hp
      simp [F64.isFinite, hq]
    · intro a ha
      obtain ⟨t, ht, rfl⟩ := Option.map_eq_some_iff.mp ha
      rcases h.next.anchor with hobserved | ⟨e, he, hkept⟩
      · rw [hobserved, ← h.observed] at ht
        cases ht
        have hfirst := hr.first
        omega
      · obtain ⟨row, hrow, rfl⟩ := Option.map_eq_some_iff.mp he
        rw [hkept] at ht
        obtain ⟨a, hmem, rfl⟩ := Option.map_eq_some_iff.mp ht
        rw [SystemTime.asMillis_fromMillis]
        exact hanchor row hrow a hmem

/-- **A commit over a database that satisfies the invariant is accepted.** -/
theorem IssuedAt.accepted {sample : Sample} {commit : Service.AcquisitionCommit}
    {w w' : SqliteWorld} {result : Except Service.StorageError Service.AcquisitionCommitOutcome}
    (h : IssuedAt s w.db sample commit) (hd : Unwedged s w.db) (hr : Representable commit)
    (hpayload : commit.payload ≠ [])
    (hcall : exec (commitAcquisition s commit) w = (result, w')) : Accepted s result := by
  obtain ⟨c, hconv⟩ := h.converts hd hr
  obtain ⟨hdevice, hobs, hexpected, hnext, hpay⟩ := sqliteCommit_ok hconv
  rw [h.device] at hdevice
  obtain ⟨stored, hstored, -, -⟩ := hd.identity
  rcases port_commit_cases s commit w with ⟨e, hbad, -⟩ | ⟨c', hconv', hcases⟩
  · rw [hconv] at hbad
    cases hbad
  rw [hconv] at hconv'
  cases hconv'
  rcases hcases with ⟨e, w₁, hexec, -, hwhy⟩ | ⟨v, w₁, hexec, -⟩ | ⟨id, w₁, hexec, -⟩
  · rw [hexec] at hcall
    cases hcall
    rcases hwhy with rfl | hrefused
    · exact .io
    cases hrefused with
    | identity hid =>
        have hvalid : Storage.validateIdentity c = .ok () := by
          rw [Storage.validateIdentity_ok, hdevice, hobs]
          have hfirst := hr.first
          exact ⟨s.device.nonempty, by omega⟩
        rw [hvalid] at hid
        cases hid
    | unreadable hread =>
        rw [hdevice, hstored] at hread
        cases hread
    | invalid hread hnewer hinvalid =>
        rw [hdevice] at hread
        rw [h.validates hd hr hconv (hpay ▸ hpayload) hread hnewer] at hinvalid
        cases hinvalid
    | conflict hconflict =>
        -- the expected state was read from this very database
        apply absurd _ hconflict
        rw [hexpected, h.expected, hdevice]
        cases hrow : w.db.energy s.device.asStr with
        | none => simp [SqliteStorage.dbView, SqliteStorage.view, hrow]
        | some row => simp [SqliteStorage.dbView, SqliteStorage.view, hrow, atMillis_toState]
    | full => exact .full
  · rw [hexec] at hcall
    cases hcall
    exact .ok _
  · rw [hexec] at hcall
    cases hcall
    exact .ok _

/-! ## Runs of cycles -/

/-- The step of the invariant: one cycle keeps it. -/
theorem Unwedged.finish (i : CycleInput ω s) (hd : Unwedged s d) :
    Unwedged s (i.finish d).store.db := by
  obtain ⟨mid, outcome, hmid, hrun⟩ := i.finish_run d
  have hsteps := hmid.store
  rw [i.storage] at hsteps
  have hdmid : Unwedged s mid.store.db := hd.same (port_steps hsteps)
  cases hrun.writes with
  | none h =>
      have hrest := h.store
      rw [i.storage] at hrest
      exact hdmid.same (port_steps hrest)
  | @once sample prev payload before after result last c earlier hcall _ hstore _ hrest =>
      have hlast := hrest.store
      rw [i.storage, hstore] at hlast
      obtain ⟨hbefore, hissued⟩ := issuedAt i.collector i.storage i.device hcall hdmid
      have hexec := hcall.call
      rw [i.storage] at hexec
      apply Unwedged.same _ (port_steps hlast)
      have hdbefore : Unwedged s before.db := hbefore ▸ hdmid
      rcases port_commit_cases s _ before with ⟨e, -, hres⟩ | ⟨c, hconv, hcases⟩
      · cases hexec.symm.trans hres
        exact hdbefore
      · rcases hcases with ⟨e, w, hres, hsame, -⟩ | ⟨v, w, hres, hsame, -⟩ | ⟨id, w, hres, heffect⟩
        · cases hexec.symm.trans hres
          rw [hsame]
          exact hdbefore
        · cases hexec.symm.trans hres
          rw [hsame]
          exact hdbefore
        · cases hexec.symm.trans hres
          exact hdbefore.committed hissued hconv heffect

/-- The invariant holds after every run of cycles, by induction on the cycles. -/
theorem cycles_unwedged (run : List (CycleInput ω s)) (hd : Unwedged s d) :
    Unwedged s (cyclesDb d run) := by
  induction run generalizing d with
  | nil => exact hd
  | cons i rest ih => exact ih (hd.finish i)

/-- A cycle with the renderer of the collector. -/
structure RenderedCycle (ω : Type) (s : SqliteStorage) extends CycleInput ω s where
  renderer : PrometheusRenderer
  renders : ∀ ctx env, (collector.ports.render ctx env).1 = renderer.render ctx

/-- Every commit that a further cycle issues is accepted. -/
theorem Unwedged.accepts (i : RenderedCycle ω s) (hd : Unwedged s d) {energy : EnergyOutcome}
    {commit : Service.AcquisitionCommit}
    {result : Except Service.StorageError Service.AcquisitionCommitOutcome}
    (hmem : .commit energy commit result ∈ (i.toCycleInput.finish d).trace)
    (hr : Representable commit) : Accepted s result := by
  obtain ⟨mid, outcome, hmid, hrun⟩ := i.toCycleInput.finish_run d
  have hnone : ∀ e ∈ mid.trace, e.isCommit = false := by
    obtain ⟨events, htrace, hevents⟩ := hmid.trace
    rw [htrace]
    exact hevents
  obtain ⟨sample, prev, payload, before, after, hcall, rfl⟩ :=
    hrun.writes.commit_event hnone hmem
  have hsteps := hmid.store
  rw [i.storage] at hsteps
  have hdmid : Unwedged s mid.store.db := hd.same (port_steps hsteps)
  obtain ⟨hbefore, hissued⟩ := issuedAt i.collector i.storage i.device hcall hdmid
  obtain ⟨health, spool, now, env, hrender⟩ := hcall.rendered
  rw [i.renders] at hrender
  have hexec := hcall.call
  rw [i.storage] at hexec
  exact hissued.accepted (hbefore ▸ hdmid) hr (PrometheusRenderer.render_ne hrender) hexec

/-- The durable state of a device that the invariant promises: the anchor is not later than the
last success, the total is finite and not negative, and the power is in the PV power range. -/
structure SoundState (s : SqliteStorage) (d : Storage.Db) : Prop where
  anchor : ∀ row ∈ d.energy s.device.asStr, ∀ a ∈ row.lastSampleAtMs,
    ∃ ms, Storage.storedSuccess d s.device.asStr = .ok (some ms) ∧ a ≤ ms
  total : ∀ row ∈ d.energy s.device.asStr,
    ∃ total, row.toState.totalKwh.toRat? = some total ∧ 0 ≤ total
  power : ∀ row ∈ d.energy s.device.asStr, ∀ p ∈ row.lastPowerWatts,
    pvPowerW.min ≤ p ∧ p ≤ pvPowerW.max

theorem Unwedged.soundState (h : Unwedged s d) : SoundState s d where
  anchor row hrow a ha := by
    obtain ⟨stored, hstored, -, hanchors⟩ := h.identity
    obtain ⟨-, ms, hms, hle⟩ := hanchors row hrow a ha
    cases hms
    exact ⟨ms, hstored, hle⟩
  total row _ := ⟨row.totalKwh, rfl, row.total_bounds.1⟩
  power := h.power

/-- **A collector never wedges its storage**: from a fresh database every run of cycles ends in a
sound state, and every commit of a further cycle with a representable observation is accepted. -/
theorem storage_never_wedged (s : SqliteStorage) (run : List (CycleInput ω s)) :
    SoundState s (cyclesDb Storage.Db.empty run) ∧
      ∀ (next : RenderedCycle ω s) (energy : EnergyOutcome) (commit : Service.AcquisitionCommit)
        (result : Except Service.StorageError Service.AcquisitionCommitOutcome),
        .commit energy commit result ∈
          (next.toCycleInput.finish (cyclesDb Storage.Db.empty run)).trace →
        Representable commit → Accepted s result := by
  have hd := cycles_unwedged run (Unwedged.empty s)
  exact ⟨hd.soundState, fun next energy commit result hmem hr => hd.accepts next hmem hr⟩

end

end VeSmart.Collector
