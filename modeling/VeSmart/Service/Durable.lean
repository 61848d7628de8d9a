import VeSmart.Service.Runner

set_option autoImplicit false

/-! # The durable effect of a cycle

A storage is seen through a `Durable` view: the energy state, the acquisition identity and the
batches. `CommitContract` says what its port may do to the view (`ports/storage.rs`), and
`runCycle_truthful` that over such a storage the outcome of a cycle tells what the cycle has
done to it. -/

namespace VeSmart.Service

open VeSmart.Lib VeSmart.Domain

/-! ## The view of a storage -/

/-- Energy state at the resolution of the storage: whole milliseconds. -/
structure StoredEnergy where
  totalKwh : ℚ
  lastPowerWatts : Option ℚ
  lastSampleAtMs : Option Int
  deriving DecidableEq

/-- The state that is read back. -/
def StoredEnergy.toState (s : StoredEnergy) : EnergyState where
  totalKwh := .finite s.totalKwh
  lastPowerWatts := s.lastPowerWatts.map .finite
  lastSampleAt := s.lastSampleAtMs.map SystemTime.fromMillis

/-- What is stored stands for the state. -/
structure StoredEnergy.Holds (s : StoredEnergy) (state : EnergyState) : Prop where
  total : state.totalKwh.toRat? = some s.totalKwh
  power : state.lastPowerWatts.map F64.toRat? = s.lastPowerWatts.map some
  sample : s.lastSampleAtMs = state.lastSampleAt.map SystemTime.asMillis

structure Durable where
  energy : Option StoredEnergy
  lastSuccessMs : Option Int
  batches : List (Int × List UInt8)

/-- The durable effect of exactly one commit. -/
structure CommittedOnce (commit : AcquisitionCommit) (v v' : Durable) : Prop where
  newer : ∀ ms ∈ v.lastSuccessMs, ms < commit.observedAt.asMillis
  energy : ∃ stored, v'.energy = some stored ∧ stored.Holds commit.nextEnergy
  identity : v'.lastSuccessMs = some commit.observedAt.asMillis
  batch : ∃ id, (∀ batch ∈ v.batches, batch.1 ≠ id) ∧
    v'.batches = v.batches ++ [(id, commit.payload)]

section

variable {ω σ : Type}

/-- The contract of `commit_acquisition` and of the operations around it, for one device: reads
tell the view and keep it, a commit happens once or not at all, and spool work keeps energy and
identity. -/
structure CommitContract (port : StoragePort σ) (device : DeviceId) (view : σ → Durable) :
    Prop where
  energyState : ∀ s e, (port.energyState s).1 = .ok e →
    e = (view s).energy.map StoredEnergy.toState
  lastSuccess : ∀ s t, (port.lastSuccess s).1 = .ok t →
    t = (view s).lastSuccessMs.map SystemTime.fromMillis
  read : ∀ s s', ReadStep port s s' → view s' = view s
  error : ∀ c s s' e, port.commitAcquisition c s = (.error e, s') → view s' = view s
  already : ∀ c s s', c.device = device →
    port.commitAcquisition c s = (.ok .alreadyCommitted, s') →
    view s' = view s ∧ ∃ ms ∈ (view s).lastSuccessMs, c.observedAt.asMillis ≤ ms
  committed : ∀ c s s', c.device = device → port.commitAcquisition c s = (.ok .committed, s') →
    CommittedOnce c (view s) (view s')
  spool : ∀ s s', SpoolCallStep port s s' →
    (view s').energy = (view s).energy ∧ (view s').lastSuccessMs = (view s).lastSuccessMs

theorem CommitContract.reads {port : StoragePort σ} {device : DeviceId} {view : σ → Durable}
    (h : CommitContract port device view) {s s' : σ}
    (hreads : Relation.ReflTransGen (ReadStep port) s s') : view s' = view s := by
  induction hreads with
  | refl => rfl
  | tail _ hstep ih => rw [h.read _ _ hstep, ih]

theorem CommitContract.spoolWork {port : StoragePort σ} {device : DeviceId} {view : σ → Durable}
    (h : CommitContract port device view) {s s' : σ}
    (hwork : Relation.ReflTransGen (SpoolCallStep port) s s') :
    (view s').energy = (view s).energy ∧ (view s').lastSuccessMs = (view s).lastSuccessMs := by
  induction hwork with
  | refl => exact ⟨rfl, rfl⟩
  | tail _ hstep ih =>
      obtain ⟨henergy, hsuccess⟩ := h.spool _ _ hstep
      exact ⟨henergy.trans ih.1, hsuccess.trans ih.2⟩

/-! ## Events -/

/-- The energy of a commit that returned `Committed`. -/
def Event.committed? : Event σ → Option EnergyOutcome
  | .commit energy _ (.ok .committed) => some energy
  | _ => none

def Event.isDeliver : Event σ → Bool
  | .deliver _ => true
  | _ => false

/-- Neither a delivery nor a commit that returned `Committed`. -/
def Event.inert (e : Event σ) : Prop := e.committed? = none ∧ e.isDeliver = false

theorem Event.inert_of_quiet {e : Event σ} (h : e.quiet = true) : e.inert := by
  cases e with
  | commit energy commit result => cases h
  | deliver payload => cases h
  | phase p store => exact ⟨rfl, rfl⟩
  | progress p => exact ⟨rfl, rfl⟩
  | ble call => exact ⟨rfl, rfl⟩

/-- The events between the two contexts are inert. -/
def InertTrace (start c : CycleContext ω σ) : Prop :=
  ∃ events, c.trace = start.trace ++ events ∧ ∀ e ∈ events, e.inert

/-- Nothing durable has happened between the two contexts. -/
structure Idled (start c : CycleContext ω σ) : Prop where
  store : c.store = start.store
  gap : c.health.energyGapSkippedSeconds = start.health.energyGapSkippedSeconds
  trace : InertTrace start c

variable {k : Collector ω σ} {start mid c : CycleContext ω σ}

theorem inert_append {xs ys : List (Event σ)} (hx : ∀ e ∈ xs, e.inert) (hy : ∀ e ∈ ys, e.inert) :
    ∀ e ∈ xs ++ ys, e.inert := by
  intro e he
  rcases List.mem_append.mp he with hmem | hmem
  · exact hx e hmem
  · exact hy e hmem

theorem InertTrace.trans (h₁ : InertTrace start mid) (h₂ : InertTrace mid c) :
    InertTrace start c := by
  obtain ⟨first, hfirst, hinert₁⟩ := h₁
  obtain ⟨second, hsecond, hinert₂⟩ := h₂
  exact ⟨first ++ second, by rw [hsecond, hfirst, List.append_assoc],
    inert_append hinert₁ hinert₂⟩

theorem Idled.trans (h₁ : Idled start mid) (h₂ : Idled mid c) : Idled start c :=
  ⟨h₂.store.trans h₁.store, h₂.gap.trans h₁.gap, h₁.trace.trans h₂.trace⟩

theorem Reached.idled {p : CyclePhase} (h : Reached start p c) : Idled start c := by
  obtain ⟨events, htrace, hquiet⟩ := h.trace
  exact ⟨h.store, by rw [h.health], events, htrace, fun e he => Event.inert_of_quiet (hquiet e he)⟩

theorem Released.idled {ok : Bool} (h : Released start ok c) : Idled start c := by
  refine ⟨h.store, by rw [h.health], _, h.trace, ?_⟩
  intro e he
  apply Event.inert_of_quiet
  cases ok <;> simp at he <;> rcases he with rfl | rfl | rfl <;> rfl

theorem TornDown.idled {p : CyclePhase} (h : TornDown start p c) : Idled start c := by
  obtain ⟨entered, hentered, htrace⟩ := h.trace
  refine ⟨h.store, by rw [h.health], entered ++ [.ble .disconnect, .phase p start.store], ?_, ?_⟩
  · rw [htrace, List.append_assoc]
  · intro e he
    apply Event.inert_of_quiet
    rcases hentered with rfl | rfl <;> simp at he <;> rcases he with rfl | rfl | rfl <;> rfl

/-- A failure is counted, but no gap is. -/
theorem recordFailureHealth_gap (e : CycleError) (h : HealthSnapshot) :
    (recordFailureHealth e h).energyGapSkippedSeconds = h.energyGapSkippedSeconds := by
  cases e <;> rfl

/-! ## The durable step -/

/-- The energy that a cycle resolves for its sample: the policy on the stored state. -/
def cycleEnergy (k : Collector ω σ) (view : σ → Durable) (store : σ) (sample : Sample) :
    EnergyOutcome :=
  k.energy.apply ((view store).energy.map StoredEnergy.toState) sample

/-- The commit of a cycle with the rendered payload. -/
def cycleCommit (k : Collector ω σ) (view : σ → Durable) (store : σ) (sample : Sample)
    (payload : List UInt8) : AcquisitionCommit :=
  acquisitionCommit k sample ((view store).energy.map StoredEnergy.toState)
    (cycleEnergy k view store sample) payload

/-- The payload was rendered for the sample. -/
def Rendered (k : Collector ω σ) (sample : Sample) (energy : EnergyOutcome)
    (health : HealthSnapshot) (payload : List UInt8) : Prop :=
  ∃ spool now env, (k.ports.render (renderContext k sample energy spool now health) env).1 =
    .ok payload

/-- A sample is settled: it was committed before, or it is committed once in this cycle. -/
inductive Settled (k : Collector ω σ) (view : σ → Durable) (start : CycleContext ω σ)
    (sample : Sample) : Bool → CycleContext ω σ → Prop
  | duplicate (c : CycleContext ω σ) (hview : view c.store = view start.store)
      (hgap : c.health.energyGapSkippedSeconds = start.health.energyGapSkippedSeconds)
      (hstored : ∃ ms ∈ (view start.store).lastSuccessMs, sample.observedAt.asMillis ≤ ms)
      (htrace : InertTrace start c) : Settled k view start sample true c
  | fresh (payload : List UInt8) (c : CycleContext ω σ)
      (hrendered : Rendered k sample (cycleEnergy k view start.store sample) start.health payload)
      (hcommitted : CommittedOnce (cycleCommit k view start.store sample payload)
        (view start.store) (view c.store))
      (hgap : c.health.energyGapSkippedSeconds.toNat =
        min u64Max (start.health.energyGapSkippedSeconds.toNat +
          ((cycleEnergy k view start.store sample).skippedGapSeconds.map Duration.asSecs).getD 0))
      (htrace : ∃ before after, c.trace = start.trace ++ (before ++
          [.commit (cycleEnergy k view start.store sample)
            (cycleCommit k view start.store sample payload) (.ok .committed)] ++ after) ∧
        (∀ e ∈ before, e.inert) ∧ ∀ e ∈ after, e.inert) :
      Settled k view start sample false c

theorem Settled.idled {view : σ → Durable} {sample : Sample} {duplicate : Bool}
    (h : Settled k view start sample duplicate mid) (hidled : Idled mid c) :
    Settled k view start sample duplicate c := by
  cases h with
  | duplicate _ hview hgap hstored htrace =>
      exact .duplicate c (by rw [hidled.store, hview]) (hidled.gap.trans hgap) hstored
        (htrace.trans hidled.trace)
  | fresh payload _ hrendered hcommitted hgap htrace =>
      obtain ⟨before, after, hearlier, hbefore, hafter⟩ := htrace
      obtain ⟨events, hevents, hinert⟩ := hidled.trace
      exact .fresh payload c hrendered (by rwa [hidled.store]) (by rw [hidled.gap, hgap])
        ⟨before, after ++ events, by rw [hevents, hearlier]; simp, hbefore,
          inert_append hafter hinert⟩

theorem commitHealth_gap (energy : EnergyOutcome) (h : HealthSnapshot) :
    (commitHealth energy (.ok .committed) h).energyGapSkippedSeconds.toNat =
      min u64Max (h.energyGapSkippedSeconds.toNat +
        (energy.skippedGapSeconds.map Duration.asSecs).getD 0) := by
  have hbound : h.energyGapSkippedSeconds.toNat < 18446744073709551616 :=
    h.energyGapSkippedSeconds.toNat_lt
  unfold commitHealth
  cases energy.skippedGapSeconds with
  | none =>
      simp only [u64Max, Option.elim_none, Option.map_none, Option.getD_none]
      omega
  | some gap => exact HealthSnapshot.recordEnergyGap_gap h gap

/-- A settled sample after the durable step of a cycle. -/
theorem PersistStep.settled {view : σ → Durable} (hc : CommitContract k.ports.storage k.device.device view)
    (hmid : Idled start mid) (hhealth : mid.health = start.health) {sample : Sample}
    {energy : EnergyOutcome} {duplicate : Bool}
    (h : PersistStep k sample mid (.ok (energy, duplicate)) c) :
    energy = cycleEnergy k view start.store sample ∧ Settled k view start sample duplicate c := by
  generalize hr : (Except.ok (energy, duplicate) :
    Except (CyclePhase × CycleError) (EnergyOutcome × Bool)) = r at h
  have hentered : Event.inert (.phase .persisting mid.store) := ⟨rfl, rfl⟩
  cases h with
  | refused => cases hr
  | duplicate prev success _ hprev hsuccess hle _ hhealth' hstore htrace =>
      cases hr
      have hread := hc.energyState _ _ hprev
      have hview₁ := hc.read mid.store _ .energyState
      have hview₂ := hc.read (k.ports.storage.energyState mid.store).2 _ .lastSuccess
      have hls := hc.lastSuccess _ _ hsuccess
      rw [hview₁, hmid.store] at hls
      rw [hmid.store] at hread
      refine ⟨by rw [hread]; rfl, .duplicate c ?_ ?_ ?_ (hmid.trace.trans
        ⟨_, htrace, by simpa using hentered⟩)⟩
      · rw [hstore, hview₂, hview₁, hmid.store]
      · rw [hhealth', hhealth]
      · cases hstored : (view start.store).lastSuccessMs with
        | none => rw [hstored] at hls; cases hls
        | some ms =>
            rw [hstored] at hls
            cases hls
            exact ⟨ms, rfl, SystemTime.asMillis_le_of_le hle⟩
  | commit prev success now now' spool payload env _ _ hprev hsuccess _ before hspool hpayload
      result after hcommit _ hhealth' hstore htrace =>
      have hread := hc.energyState _ _ hprev
      have hview₁ := hc.read mid.store _ .energyState
      have hview₂ := hc.read (k.ports.storage.energyState mid.store).2 _ .lastSuccess
      have hview₃ := hc.read (k.ports.storage.lastSuccess
        (k.ports.storage.energyState mid.store).2).2 _ (.spoolHealth now)
      rw [hspool] at hview₃
      have hbefore : view before = view start.store := by
        rw [hview₃, hview₂, hview₁, hmid.store]
      rw [hmid.store] at hread
      have henergy : k.energy.apply prev sample = cycleEnergy k view start.store sample := by
        rw [hread]
        rfl
      have hcom : acquisitionCommit k sample prev (k.energy.apply prev sample) payload =
          cycleCommit k view start.store sample payload := by
        rw [henergy, hread]
        rfl
      rw [hcom, henergy] at htrace
      rw [hcom] at hcommit
      rw [henergy] at hhealth' hpayload hr
      rcases result with err | _ | _
      · cases hr
      · cases hr
        obtain ⟨earlier, hearlier, hinert⟩ := hmid.trace
        refine ⟨rfl, .fresh payload c ⟨spool, now', env, ?_⟩ ?_ ?_
          ⟨earlier ++ [.phase .persisting mid.store], [], ?_,
            inert_append hinert (by simpa using hentered), by simp⟩⟩
        · rw [← hhealth]
          exact hpayload
        · rw [hstore, ← hbefore]
          exact hc.committed _ _ _ rfl hcommit
        · rw [hhealth', commitHealth_gap, hhealth]
        · rw [htrace, hearlier]
          simp
      · cases hr
        obtain ⟨hsame, ms, hms, hle⟩ := hc.already _ _ _ rfl hcommit
        rw [hbefore] at hms hsame
        refine ⟨rfl, .duplicate c ?_ ?_ ⟨ms, hms, hle⟩ (hmid.trace.trans ⟨_, htrace, ?_⟩)⟩
        · rw [hstore, hsame]
        · rw [hhealth', ← hhealth]
          rfl
        · intro e he
          simp only [List.mem_cons, List.not_mem_nil, or_false] at he
          rcases he with rfl | rfl <;> exact ⟨rfl, rfl⟩

/-- A failure while persisting has changed nothing durable. -/
theorem PersistStep.refused_view {view : σ → Durable} (hc : CommitContract k.ports.storage k.device.device view)
    {sample : Sample} {e : CyclePhase × CycleError} (h : PersistStep k sample mid (.error e) c) :
    view c.store = view mid.store ∧
      c.health.energyGapSkippedSeconds = mid.health.energyGapSkippedSeconds ∧
      InertTrace mid c := by
  generalize hr : (Except.error e :
    Except (CyclePhase × CycleError) (EnergyOutcome × Bool)) = r at h
  have hentered : Event.inert (.phase .persisting mid.store) := ⟨rfl, rfl⟩
  cases h with
  | refused _ _ _ _ hhealth hstore htrace =>
      exact ⟨hc.reads hstore, by rw [hhealth], _, htrace, by simpa using hentered⟩
  | duplicate => cases hr
  | commit _ _ now _ _ _ _ _ _ _ _ _ before hspool _ result after hcommit _ hhealth hstore
      htrace =>
      have hview₁ := hc.read mid.store _ .energyState
      have hview₂ := hc.read (k.ports.storage.energyState mid.store).2 _ .lastSuccess
      have hview₃ := hc.read (k.ports.storage.lastSuccess
        (k.ports.storage.energyState mid.store).2).2 _ (.spoolHealth now)
      rw [hspool] at hview₃
      rcases result with err | _ | _
      · refine ⟨?_, by rw [hhealth]; rfl, _, htrace, ?_⟩
        · calc view c.store = view before := by rw [hstore]; exact hc.error _ _ _ _ hcommit
            _ = view mid.store := by rw [hview₃, hview₂, hview₁]
        · intro e he
          simp only [List.mem_cons, List.not_mem_nil, or_false] at he
          rcases he with rfl | rfl <;> exact ⟨rfl, rfl⟩
      · cases hr
      · cases hr

/-! ## The whole cycle -/

/-- The gap counter over a cycle: unchanged if no commit returned `Committed`, and otherwise
larger, up to saturation, by the whole seconds of the gap that the committed energy skipped. -/
def GapCounted (start c : CycleContext ω σ) : Prop :=
  ∃ events, c.trace = start.trace ++ events ∧
    (((∀ e ∈ events, e.committed? = none) ∧
        c.health.energyGapSkippedSeconds = start.health.energyGapSkippedSeconds) ∨
      ∃ before after energy commit,
        events = before ++ [.commit energy commit (.ok .committed)] ++ after ∧
        (∀ e ∈ before, e.committed? = none) ∧ (∀ e ∈ after, e.committed? = none) ∧
        c.health.energyGapSkippedSeconds.toNat =
          min u64Max (start.health.energyGapSkippedSeconds.toNat +
            (energy.skippedGapSeconds.map Duration.asSecs).getD 0))

theorem GapCounted.extend (h : GapCounted start mid) {events : List (Event σ)}
    (htrace : c.trace = mid.trace ++ events) (hevents : ∀ e ∈ events, e.committed? = none)
    (hgap : c.health.energyGapSkippedSeconds = mid.health.energyGapSkippedSeconds) :
    GapCounted start c := by
  obtain ⟨earlier, hearlier, hcase⟩ := h
  refine ⟨earlier ++ events, by rw [htrace, hearlier, List.append_assoc], ?_⟩
  rcases hcase with ⟨hnone, hsame⟩ | ⟨before, after, energy, commit, rfl, hbefore, hafter, hgrown⟩
  · left
    refine ⟨fun e he => ?_, hgap.trans hsame⟩
    rcases List.mem_append.mp he with hmem | hmem
    · exact hnone e hmem
    · exact hevents e hmem
  · right
    refine ⟨before, after ++ events, energy, commit, by simp, hbefore, fun e he => ?_, ?_⟩
    · rcases List.mem_append.mp he with hmem | hmem
      · exact hafter e hmem
      · exact hevents e hmem
    · rw [hgap, hgrown]

theorem GapCounted.idled (h : GapCounted start mid) (hidled : Idled mid c) :
    GapCounted start c := by
  obtain ⟨events, htrace, hinert⟩ := hidled.trace
  exact h.extend htrace (fun e he => (hinert e he).1) hidled.gap

theorem GapCounted.refl (c : CycleContext ω σ) : GapCounted c c :=
  ⟨[], by simp, .inl ⟨by simp, rfl⟩⟩

theorem Settled.gapCounted {view : σ → Durable} {sample : Sample} {duplicate : Bool}
    (h : Settled k view start sample duplicate c) : GapCounted start c := by
  cases h with
  | duplicate _ _ hgap _ htrace =>
      obtain ⟨events, htrace, hinert⟩ := htrace
      exact ⟨events, htrace, .inl ⟨fun e he => (hinert e he).1, hgap⟩⟩
  | fresh payload _ _ _ hgap htrace =>
      obtain ⟨before, after, htrace, hbefore, hafter⟩ := htrace
      exact ⟨_, htrace, .inr ⟨before, after, _, _, rfl, fun e he => (hbefore e he).1,
        fun e he => (hafter e he).1, hgap⟩⟩

/-- A settled sample is not newer than the stored identity. -/
theorem Settled.identity {view : σ → Durable} {sample : Sample} {duplicate : Bool}
    (h : Settled k view start sample duplicate c) :
    ∃ ms ∈ (view c.store).lastSuccessMs, sample.observedAt.asMillis ≤ ms := by
  cases h with
  | duplicate _ hview _ hstored _ => rwa [hview]
  | fresh payload _ _ hcommitted _ _ =>
      exact ⟨_, hcommitted.identity, le_refl _⟩

/-- What is said of a cycle from `start` that ended in `c` with `outcome`. -/
structure Truthful (k : Collector ω σ) (view : σ → Durable) (start : CycleContext ω σ)
    (outcome : CycleOutcome) (c : CycleContext ω σ) : Prop where
  /-- A failure up to `Persisting` has changed nothing durable. -/
  failure : ∀ p e, outcome = .failure p e → (p.acquiring = true ∨ p = .persisting) →
    view c.store = view start.store
  /-- A fresh success has committed once before its delivery step. -/
  fresh : ∀ result, outcome = .success result → result.duplicate = false →
    result.energy = cycleEnergy k view start.store result.sample ∧
      ∃ payload store events, c.trace = start.trace ++ events ∧
        .phase .delivering store ∈ events ∧
        Rendered k result.sample result.energy start.health payload ∧
        CommittedOnce (cycleCommit k view start.store result.sample payload)
          (view start.store) (view store)
  /-- A duplicate has changed nothing, and nothing was delivered. -/
  duplicate : ∀ result, outcome = .success result → result.duplicate = true →
    view c.store = view start.store ∧
      ∃ events, c.trace = start.trace ++ events ∧ ∀ e ∈ events, e.isDeliver = false
  /-- The stored identity is not earlier than the sample. -/
  identity : ∀ sample, (∃ result, outcome = .success result ∧ result.sample = sample) ∨
      (∃ p, outcome = .shutdownGraceful p sample) →
    ∃ ms ∈ (view c.store).lastSuccessMs, sample.observedAt.asMillis ≤ ms
  gap : GapCounted start c

theorem Delivering.settled {view : σ → Durable} {sample : Sample} {late last : CycleContext ω σ}
    (h : Delivering k true late last) (hs : Settled k view start sample true late) :
    Settled k view start sample true last := by
  obtain ⟨-, hstore, hhealth, htrace⟩ : last.state = late.state ∧ last.store = late.store ∧
      last.health = late.health ∧ last.trace = late.trace := by
    simpa [Delivering] using h
  exact hs.idled ⟨hstore, by rw [hhealth], [], by simp [htrace], by simp⟩

/-- The delivery of a fresh batch: spool work from the store of the `Delivering` event. -/
theorem Delivering.fresh {late last : CycleContext ω σ} (h : Delivering k false late last) :
    Relation.ReflTransGen (SpoolCallStep k.ports.storage) late.store last.store ∧
      last.health.energyGapSkippedSeconds = late.health.energyGapSkippedSeconds ∧
      ∃ events, last.trace = late.trace ++ (.phase .delivering late.store :: events) ∧
        ∀ e ∈ events, e.committed? = none := by
  obtain ⟨n, env, hwork⟩ : ∃ n env, SpoolWork k { late with
      env := env, state := ⟨.delivering, n⟩,
      trace := late.trace ++ [.phase .delivering late.store] } last := by
    simpa [Delivering] using h
  obtain ⟨events, htrace, hevents⟩ := hwork.trace
  refine ⟨hwork.store, hwork.gap, events, by simp [htrace], fun e he => ?_⟩
  rcases hevents e he with rfl | ⟨payload, rfl⟩ <;> rfl

theorem Delivering.gapCounted {late last : CycleContext ω σ} {duplicate : Bool}
    (h : Delivering k duplicate late last) (hgap : GapCounted start late) :
    GapCounted start last := by
  cases duplicate with
  | true =>
      obtain ⟨-, -, hhealth, htrace⟩ : last.state = late.state ∧ last.store = late.store ∧
          last.health = late.health ∧ last.trace = late.trace := by
        simpa [Delivering] using h
      have htrace' : last.trace = late.trace ++ [] := by rw [htrace, List.append_nil]
      exact hgap.extend htrace' (by simp) (by rw [hhealth])
  | false =>
      obtain ⟨-, hsame, events, htrace, hevents⟩ := h.fresh
      refine hgap.extend htrace (fun e he => ?_) hsame
      rcases List.mem_cons.mp he with rfl | hmem
      · rfl
      · exact hevents e hmem

/-- The identity after the delivery step. -/
theorem Delivering.identity {view : σ → Durable} (hc : CommitContract k.ports.storage k.device.device view)
    {late last : CycleContext ω σ} {duplicate : Bool} (h : Delivering k duplicate late last) :
    (view last.store).lastSuccessMs = (view late.store).lastSuccessMs := by
  cases duplicate with
  | true =>
      have hstore : last.store = late.store := by
        obtain ⟨-, hstore, -⟩ := (by simpa [Delivering] using h : last.state = late.state ∧
          last.store = late.store ∧ last.health = late.health ∧ last.trace = late.trace)
        exact hstore
      rw [hstore]
  | false => exact (hc.spoolWork h.fresh.1).2

theorem CycleRun.truthful {view : σ → Durable} (hc : CommitContract k.ports.storage k.device.device view)
    {outcome : CycleOutcome} (h : CycleRun k start outcome c) :
    Truthful k view start outcome c := by
  cases h with
  | success result _ hwalk =>
      cases hwalk with
      | done sample energy duplicate delivery mid late last _ hmid hpersist hdeliver hreleased =>
          obtain ⟨henergy, hsettled⟩ := hpersist.settled hc hmid.idled hmid.health
          have hgap := (hdeliver.gapCounted hsettled.gapCounted).idled hreleased.idled
          refine ⟨fun _ _ h => (nomatch h), ?_, ?_, ?_, hgap⟩
          · rintro result ⟨⟩ hfresh
            refine ⟨henergy, ?_⟩
            cases hsettled with
            | duplicate => cases hfresh
            | fresh payload _ hrendered hcommitted _ _ =>
                obtain ⟨walk, hwalk⟩ := hmid.trace_grows.trans hpersist.trace_grows
                obtain ⟨-, -, events, hevents, -⟩ := hdeliver.fresh
                obtain ⟨rest, hrest⟩ := hreleased.trace_grows
                refine ⟨payload, late.store, walk ++ (.phase .delivering late.store :: events) ++
                  rest, ?_, by simp, henergy ▸ hrendered, hcommitted⟩
                simp [← hrest, hevents, ← hwalk]
          · rintro result ⟨⟩ hdup
            simp only [doneResult] at hdup
            subst hdup
            have hlast := (hdeliver.settled hsettled).idled hreleased.idled
            cases hlast with
            | duplicate _ hview _ _ htrace =>
                obtain ⟨events, htrace, hinert⟩ := htrace
                exact ⟨hview, events, htrace, fun e he => (hinert e he).2⟩
          · rintro sample' (⟨result, ⟨⟩, rfl⟩ | ⟨p, ⟨⟩⟩)
            rw [hreleased.store, hdeliver.identity hc]
            exact hsettled.identity
  | failure p e stop _ hwalk hdown =>
      have hstop : Idled stop c :=
        ⟨hdown.idled.store, hdown.idled.gap.trans (recordFailureHealth_gap e stop.health),
          hdown.idled.trace⟩
      have hrest : ∀ (hgap : GapCounted start stop),
          ((p.acquiring = true ∨ p = .persisting) → view stop.store = view start.store) →
          Truthful k view start (.failure p e) c := by
        intro hgap hview
        refine ⟨?_, fun _ h => (nomatch h), fun _ h => (nomatch h), ?_, hgap.idled hstop⟩
        · rintro p' e' ⟨⟩ hp
          rw [hstop.store]
          exact hview hp
        · rintro sample (⟨result, ⟨⟩, -⟩ | ⟨p, ⟨⟩⟩)
      cases hwalk with
      | stopped _ _ _ _ _ hreached =>
          exact hrest ((GapCounted.refl start).idled hreached.idled)
            fun _ => by rw [hreached.store]
      | refused sample _ _ mid _ hmid hpersist =>
          obtain ⟨hview, hgap, htrace⟩ := hpersist.refused_view hc
          obtain ⟨events, htrace, hinert⟩ := htrace
          refine hrest (((GapCounted.refl start).idled hmid.idled).extend htrace
            (fun e he => (hinert e he).1) hgap) fun _ => ?_
          rw [hview, hmid.store]
      | unreleased sample energy duplicate mid late last _ e hmid hpersist hdeliver hreleased =>
          obtain ⟨-, hsettled⟩ := hpersist.settled hc hmid.idled hmid.health
          refine hrest ((hdeliver.gapCounted hsettled.gapCounted).idled hreleased.idled) ?_
          rintro (hp | hp) <;> cases hp
  | shutdown p sample stop _ hwalk hdown =>
      cases hwalk with
      | interrupted sample energy duplicate mid late env hmid hpersist =>
          obtain ⟨-, hsettled⟩ := hpersist.settled hc hmid.idled hmid.health
          have hinterrupted : Idled late { late with env := env } :=
            ⟨rfl, rfl, [], by simp, by simp⟩
          have hend := hsettled.idled (hinterrupted.trans hdown.idled)
          refine ⟨fun _ _ h => (nomatch h), fun _ h => (nomatch h), fun _ h => (nomatch h), ?_,
            hend.gapCounted⟩
          rintro sample' (⟨result, ⟨⟩, -⟩ | ⟨p, ⟨⟩⟩)
          exact hend.identity

/-- **A cycle's outcome tells the truth about durable state**: for every storage that satisfies
the commit contract, all other ports and every context in `Idle`. -/
theorem runCycle_truthful (k : Collector ω σ) (view : σ → Durable)
    (hc : CommitContract k.ports.storage k.device.device view) (start : CycleContext ω σ)
    (hidle : start.state.current = .idle) :
    ∃ outcome c, exec (runCycle k : Cycle ω σ RunError CycleOutcome) start = (.ok outcome, c) ∧
      Truthful k view start outcome c := by
  obtain ⟨outcome, c, hexec, hrun⟩ := runCycle_steps (k := k) (ε := RunError) hidle
  exact ⟨outcome, c, hexec, hrun.truthful hc⟩

end

end VeSmart.Service
