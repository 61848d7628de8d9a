import VeSmart.Collector.Drain
import VeSmart.Collector.Prometheus
import VeSmart.Collector.Readings
import VeSmart.Collector.Rendered
import VeSmart.Service.Calls
import VeSmart.Service.Collecting

set_option autoImplicit false

/-! # What the database is told comes from the device

The SQLite spool hands out only payloads that were committed to it (`SqliteStorage.payloads`), under
ids that are positive and all different (`Numbered`). A committed payload is a text that tells what
the answer of its cycle says (`committed_tells`). -/

namespace VeSmart.Collector

open VeSmart.Lib VeSmart.Domain VeSmart.Protocol VeSmart.Metrics VeSmart.Service
open VeSmart.Storage (Db SpoolRow SpoolTable Shortens)

/-! ## Ids and payloads of the spool -/

/-- The ids and the payloads of the spool. -/
def batches (d : Db) : List (Int × List UInt8) := d.spool.rows.map fun r => (r.id, r.payload)

theorem batches_queue (d : Db) : batches d = d.spool.queue.map Prod.fst := by
  rw [batches, SpoolTable.queue, List.map_map]
  rfl

theorem update_batches {t t' : SpoolTable} {p : SpoolRow → Bool} {bump n : Nat} {next : Int}
    (h : t.update p bump next = .ok (n, t')) :
    t'.rows.map (fun r => (r.id, r.payload)) = t.rows.map fun r => (r.id, r.payload) := by
  unfold SpoolTable.update at h
  split at h
  · cases h
    dsimp only
    rw [List.map_map]
    apply List.map_congr_left
    intro r _
    dsimp only [Function.comp]
    split <;> rfl
  · split at h
    · cases h
    · cases h
      rfl

section

variable {ω : Type} {s : SqliteStorage}

/-- A claim changes neither ids nor payloads. -/
theorem claim_batches (ttl : Duration) (now : SystemTime) (bs : List (Int × List UInt8)) :
    Keeps (fun d => batches d = bs) (spoolClaimNext s ttl now) := by
  have hclaim : ∀ nowMs, Preserves (fun d => batches d = bs)
      (Storage.claimOldest s.config.1 nowMs) := by
    intro nowMs
    apply Preserves.transaction
    apply Preserves.bind (Storage.Preserves.query _)
    intro candidate
    cases candidate with
    | none => exact Preserves.bind Preserves.commitTx fun _ => Preserves.pure _
    | some batch =>
        apply Preserves.bind
        · apply Storage.Preserves.onSpool
          intro d n t h hupdate
          exact (update_batches hupdate).trans h
        · intro changed
          split
          · exact Preserves.bind Preserves.commitTx fun _ => Preserves.pure _
          · exact Preserves.bind Preserves.commitTx fun _ => Preserves.pure _
  apply Keeps.bind (Keeps.fromExcept _); intro nowMs
  apply Keeps.bind (Keeps.fromExcept _); intro claimMs
  split
  · exact Triple.throw fun _ h => h
  · exact Keeps.bind (Keeps.blocking (hclaim _)) fun _ => Keeps.fromExcept _

/-- The operations on the spool add nothing to it. -/
theorem port_batches {w w' : SqliteWorld} (h : SpoolCallStep s.port w w') :
    batches w'.db ⊆ batches w.db := by
  have hshort : ∀ {α : Type} {x : Call α}, Keeps (Shortens w.db.spool.queue) x →
      batches (exec x w).2.db ⊆ batches w.db := by
    intro α x hx
    rw [batches_queue, batches_queue]
    exact ((hx.exec (P := Shortens w.db.spool.queue) (List.Sublist.refl _)).map _).subset
  cases h with
  | claim ttl now =>
      have hsame : batches (exec (spoolClaimNext s ttl now) w).2.db = batches w.db :=
        (claim_batches ttl now _).exec rfl
      exact fun b hb => hsame ▸ hb
  | complete claim =>
      apply hshort
      apply Keeps.bind (Keeps.fromExcept _); intro id
      apply Keeps.bind Keeps.wallClock; intro wallMs
      exact Keeps.bind (Keeps.blocking (Storage.removeBatch_shortens _ _ _)) fun _ =>
        Keeps.fromExcept _
  | retry claim now =>
      apply hshort
      apply Keeps.bind (Keeps.fromExcept _); intro id
      apply Keeps.bind (Keeps.fromExcept _); intro nowMs
      apply Keeps.bind (Keeps.blocking (Storage.recordRetry_shortens _ _ _)); intro outcome
      cases outcome <;> exact Keeps.pure _
  | drop claim =>
      apply hshort
      apply Keeps.bind (Keeps.fromExcept _); intro id
      apply Keeps.bind Keeps.wallClock; intro wallMs
      exact Keeps.bind (Keeps.blocking (Storage.removeBatch_shortens _ _ _)) fun _ =>
        Keeps.fromExcept _

/-- A commit adds its own batch, under the next id, if it returns `Committed`. -/
theorem commit_batches (commit : Service.AcquisitionCommit) (w : SqliteWorld) :
    batches (s.port.commitAcquisition commit w).2.db = batches w.db ∨
      (s.port.commitAcquisition commit w).1 = .ok .committed ∧
        batches (s.port.commitAcquisition commit w).2.db =
          batches w.db ++ [(w.db.spool.seq + 1, commit.payload)] := by
  show batches (exec (commitAcquisition s commit) w).2.db = _ ∨ _
  rcases port_commit_cases s commit w with ⟨e, -, hexec⟩ | ⟨c, hconv, hcases⟩
  · exact .inl (by rw [hexec])
  rcases hcases with ⟨e, w', hexec, hdb, -⟩ | ⟨v, w', hexec, hdb, -⟩ | ⟨id, w', hexec, heffect⟩
  · exact .inl (by rw [hexec, hdb])
  · exact .inl (by rw [hexec, hdb])
  · obtain ⟨-, -, -, -, hpayload⟩ := sqliteCommit_ok hconv
    obtain ⟨hid, -, row, hrows, hrow, -, -, hrowPayload, -⟩ := SpoolTable.insert_ok heffect.spool
    refine .inr ⟨congrArg Prod.fst hexec, ?_⟩
    show batches (exec (commitAcquisition s commit) w).2.db = _
    rw [hexec, batches, hrows, List.map_append, ← hpayload, ← hid, ← hrow, ← hrowPayload]
    rfl

/-! ## The contracts -/

/-- A batch with the payload is in the spool. -/
def Spooled (d : Db) (payload : List UInt8) : Prop := ∃ id, (id, payload) ∈ batches d

theorem SqliteStorage.payloads (s : SqliteStorage) :
    PayloadContract s.port fun w => Spooled w.db where
  read hread h := by
    unfold Spooled at h ⊢
    rwa [SqliteStorage.port_read hread] at h
  spool hspool := fun ⟨id, hmem⟩ => ⟨id, port_batches hspool hmem⟩
  claimed ttl now {w claim} h := by
    obtain ⟨row, hrow, hentry, -⟩ := spoolClaimNext_attempts (Prod.ext h rfl)
    have hpayload : claim.payload = row.payload := congrArg Prod.snd hentry
    exact ⟨row.id, hpayload ▸ List.mem_map_of_mem hrow⟩
  commit {commit w payload} h := by
    obtain ⟨id, hmem⟩ := h
    rcases commit_batches commit w with hsame | ⟨hresult, hadded⟩
    · exact .inl ⟨id, hsame ▸ hmem⟩
    · rw [hadded] at hmem
      rcases List.mem_append.mp hmem with hbefore | hnew
      · exact .inl ⟨id, hbefore⟩
      · exact .inr ⟨hresult, congrArg Prod.snd (List.mem_singleton.mp hnew)⟩

/-- The ids of the spool are positive, as those of `AUTOINCREMENT` are. -/
def Numbered (d : Db) : Prop := ∀ b ∈ batches d, 0 < b.1

theorem Numbered.empty : Numbered Db.empty := by
  intro b hb
  cases hb

theorem Numbered.commit {commit : Service.AcquisitionCommit} {w : SqliteWorld}
    (h : Numbered w.db) : Numbered (s.port.commitAcquisition commit w).2.db := by
  have hseq := w.db.spool.seq_bounds.1
  rcases commit_batches commit w with hsame | ⟨-, hadded⟩
  · intro b hb
    exact h b (hsame ▸ hb)
  · intro b hb
    rw [hadded] at hb
    rcases List.mem_append.mp hb with hbefore | hnew
    · exact h b hbefore
    · rw [List.mem_singleton.mp hnew]
      show 0 < w.db.spool.seq + 1
      omega

/-- The ids stay positive through a process. -/
theorem numberedInvariant (k : Service.Collector ω SqliteWorld)
    (hstorage : k.ports.storage = s.port) : CallInvariant k fun _ c => Numbered c.store.db where
  env _ h := h
  health _ h := h
  moved _ h _ := h
  read h hread := by
    rw [hstorage] at hread
    show Numbered _
    rw [SqliteStorage.port_read hread]
    exact h
  commit _ _ h := by
    rw [hstorage]
    exact h.commit
  claim ttl now h := by
    rw [hstorage]
    exact fun b hb => h b (port_batches (.claim ttl now) hb)
  deliver h := h
  settle h hsettle := by
    rw [hstorage] at hsettle
    exact fun b hb => h b (port_batches hsettle.call hb)

/-- A numbered spool has no more rows than there are ids. -/
theorem Numbered.length_le {d : Db} (h : Numbered d) : (d.spool.rows.length : Int) ≤ i64Max := by
  have hids : (d.spool.rows.map SpoolRow.id).toFinset ⊆ Finset.Icc 1 i64Max := by
    intro id hid
    obtain ⟨r, hr, rfl⟩ := List.mem_map.mp (List.mem_toFinset.mp hid)
    have hpos : 0 < r.id := h (r.id, r.payload) (List.mem_map_of_mem hr)
    have hle := (d.spool.ids_le_seq r hr).trans d.spool.seq_bounds.2
    exact Finset.mem_Icc.mpr ⟨hpos, hle⟩
  have hcard := Finset.card_le_card hids
  rw [List.toFinset_card_of_nodup d.spool.ids_nodup, List.length_map, Int.card_Icc] at hcard
  simp only [i64Max] at hcard ⊢
  omega

end

/-! ## One committed payload -/

/-- An answer of the device: the bytes that a session returned for an instance. -/
structure Answer where
  device : DeviceId
  inst : UInt16
  raw : List UInt8

/-- The text tells what a sample of the answer reports. -/
def Tells (formatValue : F64 → String) (a : Answer) (payload : List UInt8) : Prop :=
  ∃ text ctx items records, payload = intoBytes text ∧ ctx.device = a.device ∧
    Reads formatValue text (series ctx) ∧ EncodesAll items a.raw ∧ Bounded items ∧
    Response.parseItems items = .ok records ∧ Reports a.inst records ctx.sample

/-- The answer of a cycle from here. -/
def answer? {ω σ : Type} (k : Service.Collector ω σ) (start : CycleContext ω σ) : Option Answer :=
  match (exec (requestPayload k) start).1 with
  | .ok raw => some ⟨k.device.device, k.config.inst, raw⟩
  | .error _ => none

section

variable {ω : Type} {m : Minicbor} {k : Service.Collector ω SqliteWorld}
  {start mid before : CycleContext ω SqliteWorld} {s : SqliteStorage}

/-- The sample of a cycle reports what the answer of the cycle says. -/
theorem acquire_reports (hm : m.Conforms) {now : ω → SystemTime × ω}
    (hprotocol : k.ports.protocol = veSmartProtocol m k.device.device now) {sample : Sample}
    (h : exec (acquire k) start = (.ok sample, mid)) :
    ∃ raw items records, answer? k start = some ⟨k.device.device, k.config.inst, raw⟩ ∧
      EncodesAll items raw ∧ Bounded items ∧ Response.parseItems items = .ok records ∧
      Reports k.config.inst records sample := by
  rw [acquire_parts] at h
  obtain ⟨raw, c, hrequest, h⟩ := exec_bind_inv h
  unfold collectSample at h
  rw [hprotocol, exec_bind_ok (exec_onEnv _ _)] at h
  obtain ⟨values, c₁, hvalues, h⟩ := exec_bind_inv h
  obtain ⟨hparse, rfl⟩ := exec_mapErr_inv hvalues
  rw [exec_bind_ok (exec_onEnv _ _)] at h
  obtain ⟨translated, c₂, hsample, h⟩ := exec_bind_inv h
  obtain ⟨htranslate, rfl⟩ := exec_mapErr_inv hsample
  split at h
  · cases h
  cases h
  obtain ⟨items, records, hdecode, hrecords, rfl⟩ := parseResponse_ok hparse
  obtain ⟨hencodes, hbounded⟩ := (decodeStream_iff hm).mp hdecode
  have hholds := translate_holds htranslate
  refine ⟨raw, items, records, ?_, hencodes, hbounded, hrecords, ?_⟩
  · unfold answer?
    rw [hrequest]
  · exact {
      readings := fun f => lastValue_records k.config.inst _ _ records ▸ hholds.readings f
      chargerState := lastValue_records k.config.inst _ _ records ▸
        congrArg Sample.chargerState hholds.others
      loadState := lastValue_records k.config.inst _ _ records ▸
        congrArg Sample.loadState hholds.others
      yieldTotalKwh := congrArg Sample.yieldTotalKwh hholds.others
      yieldTodayKwh := congrArg Sample.yieldTodayKwh hholds.others
      bleRssiDbm := congrArg Sample.bleRssiDbm hholds.others }

/-- The walk of a cycle up to the renderer of its payload. -/
theorem committedPayload?_walk {p : CommittedPayload ω SqliteWorld}
    (h : committedPayload? k start = some p) : ∃ sample prev energy mid before,
      exec (acquire k) start = (.ok sample, mid) ∧
      exec (project k sample) mid = (.ok ⟨prev, energy, some p.context⟩, before) := by
  unfold committedPayload? at h
  rcases hacquire : exec (acquire k) start with ⟨e | sample, mid⟩
  · simp [hacquire] at h
  rcases hproject : exec (project k sample) mid with ⟨e | ⟨prev, energy, _ | context⟩, before⟩
  · simp [hacquire, hproject] at h
  · simp [hacquire, hproject] at h
  refine ⟨sample, prev, energy, mid, before, rfl, ?_⟩
  simp only [hacquire, hproject] at h
  split at h
  · cases h
    exact hproject
  · cases h

/-- The age of a sample is measured by the clock of the service. -/
theorem project_sample {sample : Sample} {prev : Option EnergyState} {energy : EnergyOutcome}
    {context : RenderContext}
    (h : exec (project k sample) mid = (.ok ⟨prev, energy, some context⟩, before)) :
    context.sample = sample ∧
      ∃ env, context.sampleAge = (k.ports.now env).1.durationSince sample.observedAt := by
  unfold project at h
  obtain ⟨_, c, -, h⟩ := exec_bind_inv h
  split at h
  · cases h
  rw [exec_bind_ok (exec_onStore _ _)] at h
  obtain ⟨state, c, -, h⟩ := exec_bind_inv h
  rw [exec_bind_ok (exec_onStore _ _)] at h
  obtain ⟨success, c, -, h⟩ := exec_bind_inv h
  split at h
  · cases h
  rw [exec_bind_ok (exec_onEnv _ _), exec_bind_ok (exec_onStore _ _)] at h
  obtain ⟨spool, c, -, h⟩ := exec_bind_inv h
  rw [exec_bind_ok (exec_onEnv _ _), exec_bind_ok (exec_get _)] at h
  cases h
  exact ⟨rfl, _, rfl⟩

/-- A duration of signed 64-bit seconds is one of unsigned ones. -/
theorem longest_le : 9223372036854775808 * 1000000000 ≤ Duration.maximum := by
  unfold Duration.maximum
  norm_num [u64Max, nanosPerSec]

/-- The age that the adapter reports is one of milliseconds. -/
theorem port_oldestAge {now : SystemTime} {spool : Service.SpoolHealth} {w w' : SqliteWorld}
    (h : s.port.spoolHealth now w = (.ok spool, w')) :
    ∀ age ∈ spool.oldestAge, age ≤ Duration.maximum := by
  have hexec : exec (spoolHealth s now) w = (.ok spool, w') := h
  obtain ⟨nowMs, w₁, -, hexec⟩ := exec_bind_inv hexec
  obtain ⟨stats, w₂, -, hexec⟩ := exec_bind_inv hexec
  cases hexec
  intro age hage
  obtain ⟨oldest, -, rfl⟩ := Option.map_eq_some_iff.mp hage
  have hms : (max (satI64 (nowMs.1 - oldest)) 0).toNat * nanosPerMilli ≤
      9223372036854775808 * 1000000000 := by
    simp only [satI64, i64Min, i64Max, nanosPerMilli]
    omega
  exact hms.trans longest_le

theorem durationSince_le {t earlier : SystemTime} (ht : InI64 (t.nanos / nanosPerSec))
    (hepoch : SystemTime.unixEpoch ≤ earlier) :
    ∀ age ∈ t.durationSince earlier, age ≤ Duration.maximum := by
  intro age hage
  unfold SystemTime.durationSince at hage
  split at hage
  · obtain rfl := Option.some.inj hage
    simp only [SystemTime.le_iff, SystemTime.unixEpoch] at hepoch
    simp only [InI64, i64Min, i64Max, nanosPerSec] at ht
    have hbound : (t.nanos - earlier.nanos).toNat ≤ 9223372036854775808 * 1000000000 := by omega
    exact hbound.trans longest_le
  · cases hage

/-- The collector as it is installed: the adapters of the protocol, of SQLite and of the metrics,
and a clock with signed 64-bit seconds. -/
structure Installed (m : Minicbor) (formatValue : F64 → String) (debug : String → String)
    (s : SqliteStorage) (k : Service.Collector ω SqliteWorld) : Prop where
  protocol : ∃ clock, k.ports.protocol = veSmartProtocol m k.device.device clock
  storage : k.ports.storage = s.port
  device : k.device.device = s.device
  renders : ∀ ctx env, (k.ports.render ctx env).1 =
    (prometheusRenderer formatValue debug).render ctx
  clock : ∀ env, InI64 ((k.ports.now env).1.nanos / nanosPerSec)

variable {formatValue : F64 → String} {debug : String → String}

/-- What is known of the context of a payload that is committed from a numbered spool. -/
structure Rendering (k : Service.Collector ω SqliteWorld) (p : CommittedPayload ω SqliteWorld) :
    Prop where
  device : p.context.device = k.device.device
  widths : ContextWidths p.context
  observed : SystemTime.fromMillis 1 ≤ p.context.sample.observedAt
  representable : p.context.sample.observedAt.asMillis ≤ i64Max
  yield : p.context.resolvedYieldKwh.isFinite = true
  last : p.context.lastSuccess = some p.context.sample.observedAt

theorem committed_rendering (h : Installed m formatValue debug s k)
    (hidle : start.state.current = .idle) (hnumbered : Numbered start.store.db)
    {p : CommittedPayload ω SqliteWorld} (hp : committedPayload? k start = some p)
    (hnative : p.context.sample.yieldTotalKwh = none) : Rendering k p := by
  obtain ⟨sample, prev, mid, before, hcommitted⟩ := committedPayload?_some hidle hp
  obtain ⟨now, now', spool, queried, hcontext, hqueried, hspool⟩ := hcommitted.projected.context
  obtain ⟨walked, _, _, _, _, -, hproject⟩ := committedPayload?_walk hp
  obtain ⟨hwalked, env, hage⟩ := project_sample hproject
  have hsample : p.context.sample = sample := by rw [hcontext]; rfl
  obtain rfl : sample = walked := hsample.symm.trans hwalked
  have hcall := hcommitted.done.call
  have hresolved := hcommitted.projected.resolved
  rw [h.storage] at hqueried hspool hcall
  have hcommit := hcommitted.commit
  -- the conversion and the validation of the commit
  obtain ⟨-, -, heffect⟩ := port_commit_answer hcall
  obtain ⟨c, id, hconv, heffect⟩ := heffect rfl
  obtain ⟨-, hobserved, -⟩ := sqliteCommit_ok hconv
  have hms : c.observedAtMs.1 = sample.observedAt.asMillis := by rw [hobserved, hcommit]; rfl
  have hmax : sample.observedAt.asMillis ≤ i64Max := hms ▸ c.observedAtMs.2.2
  have hfirst : 1 ≤ sample.observedAt.asMillis := hms ▸ heffect.identity.2
  have hobservedAt : SystemTime.fromMillis 1 ≤ sample.observedAt :=
    (SystemTime.fromMillis_le_iff.mpr hfirst).trans sample.observedAt.fromMillis_asMillis_le
  have hepoch : SystemTime.unixEpoch ≤ sample.observedAt := le_trans (by decide) hobservedAt
  have hlast : p.context.lastSuccess = some sample.observedAt := by rw [hcontext]; rfl
  have hqueue : queried.db = start.store.db := by rw [port_reads hqueried, hcommitted.reached.store]
  refine ⟨by rw [hcontext]; rfl, ⟨?_, ?_, ?_, ?_⟩, hsample ▸ hobservedAt, hsample ▸ hmax, ?_,
    hsample ▸ hlast⟩
  · rw [hlast]
    rintro t ⟨⟩
    simp only [SystemTime.asMillis, nanosPerMilli] at hmax hfirst
    simp only [InI64, i64Min, nanosPerSec]
    simp only [i64Max] at hmax ⊢
    omega
  · rw [hage]
    exact durationSince_le (h.clock env) hepoch
  · rw [hcontext]
    show ∀ age ∈ spool.oldestAge.or (some 0), age ≤ Duration.maximum
    intro age hage
    rcases Option.or_eq_some_iff.mp hage with holdest | ⟨-, hzero⟩
    · exact port_oldestAge hspool age holdest
    · cases hzero
      exact Nat.zero_le _
  · have hlength := hnumbered.length_le
    rw [hcontext]
    show spool.depth + 1 ≤ u64Max
    rw [port_depth hspool, hqueue]
    simp only [i64Max] at hlength
    simp only [u64Max]
    omega
  · have hstored : CommittedOnce p.cycle.commit (s.view before.store) (s.view p.after.store) :=
      s.contract.committed _ _ _ (by rw [hcommit]; exact h.device) hcall
    obtain ⟨stored, -, hholds⟩ := hstored.energy
    have hkind : p.cycle.energy.kind ≠ .native := by
      rw [hresolved]
      exact k.energy.apply_uncounted prev (hsample ▸ hnative)
    have htotal : p.context.resolvedYieldKwh = p.cycle.commit.nextEnergy.totalKwh := by
      calc p.context.resolvedYieldKwh
          = p.cycle.energy.totalKwh := by rw [hcontext]; rfl
        _ = p.cycle.energy.nextState.totalKwh := by
          rw [hresolved] at hkind ⊢
          exact k.energy.apply_total prev sample hkind
        _ = p.cycle.commit.nextEnergy.totalKwh := by rw [hcommit]; rfl
    rw [htotal, F64.isFinite, hholds.total]
    rfl

/-- **A committed text tells what the answer of its cycle says.** -/
theorem committed_tells (hm : m.Conforms) (hdisplay : Display formatValue)
    (h : Installed m formatValue debug s k) (hidle : start.state.current = .idle)
    (hnumbered : Numbered start.store.db) {p : CommittedPayload ω SqliteWorld}
    (hp : committedPayload? k start = some p) :
    ∃ a, answer? k start = some a ∧ Tells formatValue a p.cycle.commit.payload := by
  obtain ⟨clock, hprotocol⟩ := h.protocol
  obtain ⟨sample, _, _, _, _, hacquire, hproject⟩ := committedPayload?_walk hp
  obtain ⟨hsample, -⟩ := project_sample hproject
  obtain ⟨raw, items, records, hanswer, hencodes, hbounded, hrecords, hreports⟩ :=
    acquire_reports hm hprotocol hacquire
  rw [← hsample] at hreports
  have hrendering := committed_rendering h hidle hnumbered hp hreports.yieldTotalKwh
  obtain ⟨_, _, _, before, hcommitted⟩ := committedPayload?_some hidle hp
  have hrendered := hcommitted.done.rendered
  rw [h.renders] at hrendered
  obtain ⟨points, hbatch, hpoints, hvalid, hnames⟩ := contextBatch_ok debug hrendering.widths
    hrendering.observed hrendering.representable hrendering.yield (by
      rw [hrendering.last]
      rintro t ⟨⟩
      exact le_trans (by decide) hrendering.observed)
  have hne : points ≠ [] := by
    rintro rfl
    exact series_ne p.context hpoints.symm
  rw [render_ok debug hbatch hne] at hrendered
  refine ⟨_, hanswer, encode formatValue points, p.context, items, records,
    (Except.ok.inj hrendered).symm, hrendering.device, ?_, hencodes, hbounded, hrecords, hreports⟩
  rw [← hpoints]
  exact reads_encode hdisplay hvalid hnames

end

end VeSmart.Collector
