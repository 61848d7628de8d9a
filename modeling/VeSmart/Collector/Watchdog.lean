import VeSmart.Collector.Config
import VeSmart.Collector.Pace

set_option autoImplicit false

/-! # The progress watchdog (`victron-collector/src/watchdog.rs`)

Each report gives the collector a budget until the next one. `watchdog_fed_iff` says when the
heartbeat finds progress throughout a run whose calls keep their deadlines: the deadlines of an
import, of a release with the teardown after it and of a sleep in the active cadence are not all
within the budgets. -/

namespace VeSmart.Collector

open VeSmart.Lib VeSmart.Domain VeSmart.Service

/-! ## The observer -/

/-- The latest report. Instants are counted from the start of the observer. -/
structure Progress where
  phase : CyclePhase
  enteredAt : Duration
  budget : Duration

/-- The budgets for the phases. -/
structure ProgressObserver where
  phaseTimeout : Duration
  maximumIdle : Duration
  deliveryTimeout : Duration

def ProgressObserver.initial (o : ProgressObserver) : Progress := ⟨.idle, 0, o.maximumIdle⟩

def ProgressObserver.budgetFor (o : ProgressObserver) : CyclePhase → Duration
  | .idle | .backoff => o.maximumIdle
  | .discovering | .connecting | .negotiating | .subscribing | .requesting | .disconnecting =>
      o.phaseTimeout
  | .collecting | .persisting => o.phaseTimeout
  | .delivering => o.deliveryTimeout
  | .shuttingDown => 0

def ProgressObserver.onProgress (o : ProgressObserver) (phase : CyclePhase) (now : Duration) :
    Progress :=
  ⟨phase, now, o.budgetFor phase⟩

/-- The phase, while it is inside its budget. -/
def Progress.healthyProgress (p : Progress) (now : Duration) : Option CyclePhase :=
  if 0 < p.budget ∧ now - p.enteredAt ≤ p.budget then some p.phase else none

/-! ## What the daemon configures -/

/-- The timeouts of the VictoriaMetrics client. -/
structure ClientTimeouts where
  connect : Duration
  read : Duration

/-- The bound of one import. -/
def ClientTimeouts.total (t : ClientTimeouts) : Duration := t.connect + t.read

def requestTimeout (cfg : Config) : Duration :=
  .fromSecs cfg.victoriaMetrics.requestTimeoutSeconds.toNat

/-- The client of the delivery adapter. -/
def deliveryTimeouts (cfg : Config) : ClientTimeouts := ⟨requestTimeout cfg, requestTimeout cfg⟩

/-- The observer of the daemon. -/
def progressObserver (cfg : Config) (service : ServiceConfig) : ProgressObserver where
  phaseTimeout := service.phaseTimeout
  maximumIdle := Duration.saturatingAdd
    (Duration.saturatingAdd service.idleInterval service.backoffCap) service.phaseTimeout
  deliveryTimeout := requestTimeout cfg

/-- The collector is configured as the daemon configures it; its interval policy may be any. -/
structure Deployed {ω σ : Type} (cfg : Config) (k : Service.Collector ω σ) : Prop where
  config : k.config = cfg.toService
  backoff : k.backoff = cfg.toService.backoff.delay

/-! ## A timed run -/

/-- Acts, with the time that each takes. -/
abbrev TimedRun := List (Act × Duration)

/-- The heartbeat finds progress at every moment up to `now`. -/
def Progress.Fed (p : Progress) (now : Duration) : Prop :=
  ∀ t, p.enteredAt ≤ t → t ≤ now → p.healthyProgress t ≠ none

/-- The watchdog is fed up to the end of the run or the shutdown: at every moment between two
reports there is progress. -/
def Watched (o : ProgressObserver) : Progress → Duration → TimedRun → Prop
  | p, now, [] => p.phase = .shuttingDown ∨ p.Fed now
  | p, now, (.report phase, took) :: rest =>
      p.Fed now ∧ Watched o (o.onProgress phase now) (now + took) rest
  | p, now, (_, took) :: rest => Watched o p (now + took) rest

section

variable {ω σ : Type}

/-- Each call keeps the deadline that the code gives it, and nothing else takes time. A sleep is
over when it is scheduled to be, or earlier if the shutdown channel wakes it. -/
structure InTime (k : Service.Collector ω σ) (client : ClientTimeouts) (run : TimedRun) : Prop where
  reports : ∀ phase took, (.report phase, took) ∈ run → took = 0
  calls : ∀ call took, (.call call, took) ∈ run → took ≤ k.config.phaseTimeout
  imports : ∀ payload took, (.deliver payload, took) ∈ run → took ≤ client.total
  sleeps : ∀ sleep took, (.sleep sleep, took) ∈ run → took ≤ sleep.scheduled k

/-- What the deadlines do not imply: an import takes no longer than the request timeout, a release
and the disconnect right after it no longer than one phase, a sleep in the active cadence no longer
than the longest that is expected in the idle one. -/
structure Punctual (o : ProgressObserver) (run : TimedRun) : Prop where
  imports : ∀ payload took, (.deliver payload, took) ∈ run → took ≤ o.deliveryTimeout
  sleeps : ∀ failures took, (.sleep ⟨.active, failures⟩, took) ∈ run → took ≤ o.maximumIdle
  releases : ∀ took took',
    [(.call .finishCycle, took), (.call .disconnect, took')] <:+: run →
      took + took' ≤ o.phaseTimeout

/-! ## Between two reports -/

theorem Progress.fed_iff {p : Progress} {now : Duration} (hbudget : 0 < p.budget)
    (hnow : p.enteredAt ≤ now) : p.Fed now ↔ now - p.enteredAt ≤ p.budget := by
  constructor
  · intro h
    have hfed := h now hnow le_rfl
    unfold healthyProgress at hfed
    by_contra hlate
    exact hfed (if_neg fun hle => hlate hle.2)
  · intro h t ht hle
    have helapsed : t - p.enteredAt ≤ p.budget := (Nat.sub_le_sub_right hle _).trans h
    unfold healthyProgress
    rw [if_pos ⟨hbudget, helapsed⟩]
    exact Option.some_ne_none _

theorem allowed_cases {p : CyclePhase} {acts : List Act} (h : allowed p acts = true) :
    acts = [] ∨ (∃ call, acts = [.call call] ∧ callsBle p = true) ∨
      (p = .disconnecting ∧ acts = [.call .finishCycle, .call .disconnect]) ∨
      (p = .delivering ∧ ∃ payload, acts = [.deliver payload]) ∨
      (p = .idle ∧ ∃ sleep, acts = [.sleep sleep]) := by
  unfold allowed at h
  split at h
  · exact .inl rfl
  · exact .inr (.inl ⟨_, rfl, h⟩)
  · exact .inr (.inr (.inl ⟨rfl, rfl⟩))
  · exact .inr (.inr (.inr (.inl ⟨rfl, _, rfl⟩)))
  · exact .inr (.inr (.inr (.inr ⟨rfl, _, rfl⟩)))
  · cases h

variable {k : Service.Collector ω σ} {o : ProgressObserver} {client : ClientTimeouts}
  {run span rest : TimedRun}

/-- The budgets, against the configuration of the loop. -/
structure Budgeted (k : Service.Collector ω σ) (o : ProgressObserver) : Prop where
  phase : o.phaseTimeout = k.config.phaseTimeout
  phase_pos : 0 < o.phaseTimeout
  idle_pos : 0 < o.maximumIdle
  delivery_pos : 0 < o.deliveryTimeout
  idle : ∀ failures, Sleep.scheduled k ⟨.idle, failures⟩ ≤ o.maximumIdle

theorem Budgeted.pos (h : Budgeted k o) {p : CyclePhase} (hp : p ≠ .shuttingDown) :
    0 < o.budgetFor p := by
  cases p with
  | idle => exact h.idle_pos
  | backoff => exact h.idle_pos
  | delivering => exact h.delivery_pos
  | shuttingDown => exact absurd rfl hp
  | _ => exact h.phase_pos

theorem budgetFor_callsBle {p : CyclePhase} (h : callsBle p = true) :
    o.budgetFor p = o.phaseTimeout := by
  cases p <;> first | rfl | cases h

theorem InTime.mono (h : InTime k client run) (hmem : span ⊆ run) : InTime k client span where
  reports p took hin := h.reports p took (hmem hin)
  calls call took hin := h.calls call took (hmem hin)
  imports payload took hin := h.imports payload took (hmem hin)
  sleeps sleep took hin := h.sleeps sleep took (hmem hin)

/-- A list without `x` cannot reach over an `x`. -/
theorem infix_split {α : Type} {l : List α} {x : α} (hx : x ∉ l) (hne : l ≠ []) (a b : List α) :
    l <:+: a ++ x :: b ↔ l <:+: a ∨ l <:+: b := by
  have hshort : ∀ a : List α, l <+: a ++ x :: b → l <+: a := by
    intro a hl
    have hax : a ++ [x] <+: a ++ x :: b := ⟨b, by simp⟩
    rcases List.prefix_or_prefix_of_prefix hl hax with h | h
    · rcases List.prefix_concat_iff.mp h with rfl | h
      · simp at hx
      · exact h
    · exact absurd (h.subset (by simp)) hx
  induction a with
  | nil =>
      rw [List.nil_append, List.infix_cons_iff]
      constructor
      · rintro (h | h)
        · exact absurd (List.prefix_nil.mp (hshort [] h)) hne
        · exact .inr h
      · rintro (h | h)
        · exact absurd (List.infix_nil.mp h) hne
        · exact .inr h
  | cons y a ih =>
      rw [List.cons_append, List.infix_cons_iff, List.infix_cons_iff, propext ih, or_assoc]
      refine or_congr_left ⟨fun h => hshort (y :: a) h, fun h => ?_⟩
      exact h.trans (List.prefix_append (y :: a) (x :: b))

/-- A release and a teardown have no report between them. -/
theorem releases_report {p : CyclePhase} {took t t' : Duration} :
    [(.call .finishCycle, t), (.call .disconnect, t')] <:+: span ++ (.report p, took) :: rest ↔
      [(Act.call .finishCycle, t), (.call .disconnect, t')] <:+: span ∨
        [(Act.call .finishCycle, t), (.call .disconnect, t')] <:+: rest :=
  infix_split (by simp) (by simp) span rest

theorem punctual_report {p : CyclePhase} {took : Duration} :
    Punctual o (span ++ (.report p, took) :: rest) ↔ Punctual o span ∧ Punctual o rest := by
  constructor
  · intro h
    refine ⟨⟨fun payload t hin => ?_, fun failures t hin => ?_, fun t t' hin => ?_⟩,
      fun payload t hin => ?_, fun failures t hin => ?_, fun t t' hin => ?_⟩
    · exact h.imports payload t (List.mem_append_left _ hin)
    · exact h.sleeps failures t (List.mem_append_left _ hin)
    · exact h.releases t t' (releases_report.mpr (.inl hin))
    · exact h.imports payload t (List.mem_append_right _ (List.mem_cons_of_mem _ hin))
    · exact h.sleeps failures t (List.mem_append_right _ (List.mem_cons_of_mem _ hin))
    · exact h.releases t t' (releases_report.mpr (.inr hin))
  · rintro ⟨hspan, hrest⟩
    refine ⟨fun payload t hin => ?_, fun failures t hin => ?_, fun t t' hin => ?_⟩
    · have hmem : (Act.deliver payload, t) ∈ span ∨ (Act.deliver payload, t) ∈ rest := by
        simpa using hin
      exact hmem.elim (hspan.imports payload t) (hrest.imports payload t)
    · have hmem : (Act.sleep ⟨.active, failures⟩, t) ∈ span ∨
          (Act.sleep ⟨.active, failures⟩, t) ∈ rest := by
        simpa using hin
      exact hmem.elim (hspan.sleeps failures t) (hrest.sleeps failures t)
    · exact (releases_report.mp hin).elim (hspan.releases t t') (hrest.releases t t')

/-- Before the next report, being punctual is being within the budget. -/
theorem punctual_iff {p : CyclePhase} (hk : Budgeted k o)
    (hallowed : allowed p (span.map Prod.fst) = true) (htime : InTime k client span) :
    Punctual o span ↔ (span.map Prod.snd).sum ≤ o.budgetFor p := by
  have hshort : span.length < 2 → ∀ t t' : Duration,
      [(Act.call .finishCycle, t), (.call .disconnect, t')] <:+: span → t + t' ≤ o.phaseTimeout := by
    intro hlen t t' hin
    exact absurd hin.length_le (by simpa using hlen)
  rcases allowed_cases hallowed with hnil | ⟨call, hcall, hble⟩ | ⟨rfl, hdown⟩ |
    ⟨rfl, payload, hdeliver⟩ | ⟨rfl, sleep, hsleep⟩
  · rw [List.map_eq_nil_iff.mp hnil] at hshort ⊢
    exact iff_of_true ⟨nofun, nofun, hshort (by simp)⟩ (Nat.zero_le _)
  · obtain ⟨⟨_, took⟩, rfl, rfl⟩ := List.map_eq_singleton_iff.mp hcall
    have hle : took ≤ o.phaseTimeout := hk.phase ▸ htime.calls call took (List.mem_singleton_self _)
    refine iff_of_true ⟨by simp, by simp, hshort (by simp)⟩ ?_
    rw [budgetFor_callsBle hble]
    simpa using hle
  · -- the release has failed and the link is torn down
    obtain ⟨⟨_, t⟩, rest, rfl, rfl, hrest⟩ := List.map_eq_cons_iff.mp hdown
    obtain ⟨⟨_, t'⟩, rfl, rfl⟩ := List.map_eq_singleton_iff.mp hrest
    have hsum : ([(Act.call .finishCycle, t), (Act.call .disconnect, t')].map Prod.snd).sum =
        t + t' := by simp
    rw [hsum]
    constructor
    · intro h
      exact h.releases t t' (List.infix_refl _)
    · intro h
      refine ⟨by simp, by simp, fun u u' hin => ?_⟩
      have heq := hin.eq_of_length rfl
      simp only [List.cons.injEq, Prod.mk.injEq, true_and, and_true] at heq
      rw [heq.1, heq.2]
      exact h
  · obtain ⟨⟨_, took⟩, rfl, rfl⟩ := List.map_eq_singleton_iff.mp hdeliver
    have hsum : ([(Act.deliver payload, took)].map Prod.snd).sum = took := by simp
    rw [hsum]
    constructor
    · intro h
      exact h.imports payload took (List.mem_singleton_self _)
    · intro h
      refine ⟨fun payload' t hin => ?_, by simp, hshort (by simp)⟩
      obtain ⟨-, rfl⟩ := Prod.mk.inj (List.mem_singleton.mp hin)
      exact h
  · obtain ⟨⟨_, took⟩, rfl, rfl⟩ := List.map_eq_singleton_iff.mp hsleep
    have hsum : ([(Act.sleep sleep, took)].map Prod.snd).sum = took := by simp
    rw [hsum]
    constructor
    · intro h
      rcases sleep with ⟨_ | _, failures⟩
      · exact h.sleeps failures took (List.mem_singleton_self _)
      · exact (htime.sleeps _ took (List.mem_singleton_self _)).trans (hk.idle failures)
    · intro h
      refine ⟨by simp, fun failures t hin => ?_, hshort (by simp)⟩
      obtain ⟨-, rfl⟩ := Prod.mk.inj (List.mem_singleton.mp hin)
      exact h

/-! ## A whole run -/

theorem allowed_shuttingDown {acts : List Act} (h : allowed .shuttingDown acts = true) :
    acts = [] := by
  rcases allowed_cases h with hnil | ⟨call, -, hble⟩ | ⟨hp, -⟩ | ⟨hp, -⟩ | ⟨hp, -⟩
  · exact hnil
  · cases hble
  · cases hp
  · cases hp
  · cases hp

/-- The watchdog is fed since the last report if the span is punctual. -/
theorem fed_punctual (hk : Budgeted k o) {p : CyclePhase} (hp : p ≠ .shuttingDown)
    {entered now : Duration} (hallowed : allowed p (span.map Prod.fst) = true)
    (hnow : now = entered + (span.map Prod.snd).sum) (htime : InTime k client span) :
    (⟨p, entered, o.budgetFor p⟩ : Progress).Fed now ↔ Punctual o span := by
  have hentered : entered ≤ now := hnow ▸ Nat.le_add_right _ _
  have helapsed : now - entered = (span.map Prod.snd).sum := by
    rw [hnow]
    exact Nat.add_sub_cancel_left _ _
  rw [Progress.fed_iff (hk.pos hp) hentered, punctual_iff hk hallowed htime]
  show now - entered ≤ _ ↔ _
  rw [helapsed]

/-- The run from the point at which `span` has passed since the last report; by induction on what
is left of it. -/
theorem watched_iff (hk : Budgeted k o) {p : CyclePhase} {entered now : Duration} {u : Pace}
    (hallowed : allowed p (span.map Prod.fst) = true)
    (hpaced : (run.map Prod.fst).foldlM Pace.step ⟨p, span.map Prod.fst⟩ = some u)
    (hnow : now = entered + (span.map Prod.snd).sum) (htime : InTime k client (span ++ run)) :
    Watched o ⟨p, entered, o.budgetFor p⟩ now run ↔ Punctual o (span ++ run) := by
  induction run generalizing p entered now span with
  | nil =>
      rw [List.append_nil] at htime ⊢
      show (p = .shuttingDown ∨ _) ↔ _
      by_cases hp : p = .shuttingDown
      · refine iff_of_true (.inl hp) ((punctual_iff hk hallowed htime).mpr ?_)
        have hnil : span.map Prod.fst = [] := allowed_shuttingDown (hp ▸ hallowed)
        rw [List.map_eq_nil_iff.mp hnil]
        exact Nat.zero_le _
      · rw [or_iff_right hp, fed_punctual hk hp hallowed hnow htime]
  | cons step rest ih =>
      obtain ⟨act, took⟩ := step
      rw [List.map_cons, List.foldlM_cons] at hpaced
      obtain ⟨t, hstep, hrest⟩ := Option.bind_eq_some_iff.mp hpaced
      by_cases hreport : ∃ q, act = .report q
      · obtain ⟨q, rfl⟩ := hreport
        have hopen : p ≠ .shuttingDown := by
          rintro rfl
          cases hstep
        have ht : t = ⟨q, []⟩ := by
          rw [Pace.step_report hopen] at hstep
          exact (Option.some.inj hstep).symm
        have hzero : took = 0 := htime.reports q took (by simp)
        have hspan := fed_punctual hk hopen hallowed hnow
          (htime.mono (List.subset_append_left _ _))
        have hwatched : Watched o ⟨q, now, o.budgetFor q⟩ (now + took) rest ↔
            Punctual o ([] ++ rest) :=
          ih rfl (by rw [ht] at hrest; exact hrest) (by rw [hzero]; rfl) (htime.mono (by simp))
        rw [punctual_report, ← hspan]
        exact and_congr_right fun _ => hwatched
      · have hact : ∀ q, act ≠ .report q := fun q h => hreport ⟨q, h⟩
        obtain ⟨hallowed', rfl⟩ := Pace.step_some hact hstep
        have hwatched : Watched o ⟨p, entered, o.budgetFor p⟩ (now + took) rest ↔
            Punctual o ((span ++ [(act, took)]) ++ rest) :=
          ih (by simpa using hallowed') (by simpa using hrest)
            (by simp [hnow, Nat.add_assoc]) (by simpa using htime)
        rw [List.append_assoc, List.singleton_append] at hwatched
        rw [← hwatched]
        cases act with
        | report q => exact absurd rfl (hact q)
        | _ => rfl

/-- A run of the loop, from its start. -/
theorem run_watched (hk : Budgeted k o) {env : ω} {store : σ} {drains iterations : Nat}
    (hacts : run.map Prod.fst = timeline k drains iterations (Runner.new env store))
    (htime : InTime k client run) : Watched o o.initial 0 run ↔ Punctual o run := by
  have hstart : RunnerAt k (fun p => p.resting = true) (Runner.new env store) :=
    ⟨fun _ h => (nomatch h), rfl⟩
  obtain ⟨u, hpaced⟩ := timeline_paced (s := ⟨.idle, []⟩) drains iterations hstart nofun
  have hwatched : Watched o ⟨.idle, 0, o.budgetFor .idle⟩ 0 run ↔ Punctual o ([] ++ run) :=
    watched_iff hk rfl (hacts ▸ hpaced) rfl htime
  -- the observer starts in `Idle`
  exact hwatched

/-! ## The daemon -/

variable {cfg : Config}

theorem requestTimeout_pos (h : cfg.validate = .ok ()) : 0 < requestTimeout cfg := by
  unfold Config.validate at h
  simp only [except_check_ok] at h
  obtain ⟨-, -, hsecs, -⟩ := h
  refine fromSecs_pos.mpr (Nat.pos_of_ne_zero fun hzero => hsecs ?_)
  exact UInt64.toNat_inj.mp hzero

theorem saturatingAdd_mono {a b c d : Duration} (h₁ : a ≤ b) (h₂ : c ≤ d) :
    Duration.saturatingAdd a c ≤ Duration.saturatingAdd b d :=
  min_le_min le_rfl (Nat.add_le_add h₁ h₂)

theorem le_saturatingAdd {a b : Duration} (ha : a ≤ Duration.maximum) :
    a ≤ Duration.saturatingAdd a b :=
  le_min ha (Nat.le_add_right _ _)

/-- A sleep is within the budget if its cadence is no slower than the idle one. -/
theorem Deployed.sleep_le (hdeployed : Deployed cfg k) (sleep : Sleep)
    (hactive : sleep.kind = .active →
      cfg.toService.activeInterval ≤ cfg.toService.idleInterval) :
    sleep.scheduled k ≤ (progressObserver cfg cfg.toService).maximumIdle := by
  have hsum : ∀ base, base ≤ cfg.toService.idleInterval →
      Duration.saturatingAdd base (cfg.toService.backoff.delay sleep.failures) ≤
        (progressObserver cfg cfg.toService).maximumIdle := by
    intro base hbase
    calc Duration.saturatingAdd base (cfg.toService.backoff.delay sleep.failures)
        ≤ Duration.saturatingAdd cfg.toService.idleInterval cfg.toService.backoffCap :=
          saturatingAdd_mono hbase (cfg.toService.backoff.delay_le_cap sleep.failures)
      _ ≤ _ := le_saturatingAdd (min_le_left _ _)
  unfold Sleep.scheduled
  rw [hdeployed.config, hdeployed.backoff]
  cases hkind : sleep.kind with
  | active => exact hsum _ (hactive hkind)
  | idle => exact hsum _ le_rfl

theorem Deployed.budgeted (hdeployed : Deployed cfg k) (hvalid : cfg.validate = .ok ()) :
    Budgeted k (progressObserver cfg cfg.toService) := by
  have hbounds := ServiceConfig.bounds_of_validate (Config.validate_ok hvalid).2
  have hphase : 0 < cfg.toService.phaseTimeout :=
    lt_of_lt_of_le hbounds.response_pos hbounds.response_le_phase
  have hpos : 0 < Duration.saturatingAdd cfg.toService.idleInterval cfg.toService.backoffCap :=
    lt_min (by decide) (Nat.add_pos_left hbounds.idle_pos _)
  refine ⟨by rw [hdeployed.config]; rfl, hphase, ?_, requestTimeout_pos hvalid, ?_⟩
  · exact lt_of_lt_of_le hpos (le_saturatingAdd (min_le_left _ _))
  · exact fun failures => hdeployed.sleep_le ⟨.idle, failures⟩ nofun

/-- **When the watchdog is fed**: in a run of the daemon whose calls keep their deadlines, the
heartbeat finds progress until shutdown exactly if every import, every release with the teardown
after it and every sleep in the active cadence stays within its budget. -/
theorem watchdog_fed_iff (cfg : Config) (hvalid : cfg.validate = .ok ())
    (k : Service.Collector ω σ) (hdeployed : Deployed cfg k) (env : ω) (store : σ)
    (drains iterations : Nat) (run : TimedRun)
    (hacts : run.map Prod.fst = timeline k drains iterations (Runner.new env store))
    (htime : InTime k (deliveryTimeouts cfg) run) :
    Watched (progressObserver cfg cfg.toService)
        (progressObserver cfg cfg.toService).initial 0 run ↔
      Punctual (progressObserver cfg cfg.toService) run :=
  run_watched (hdeployed.budgeted hvalid) hacts htime

end

/-! ## The scripted daemon -/

/-- The scripted ports under the configuration of the deployment plan. -/
def daemon : Service.Collector Sample SqliteWorld where
  config := (planned 12).toService
  device := ⟨solarCharger, 3⟩
  resolves := by rfl
  ports := scriptedPorts scriptedStorage scriptedRenderer
  energy := ⟨(planned 12).toService.maximumEnergyGap⟩
  backoff := (planned 12).toService.backoff.delay
  interval := SolarActivityPolicy.kind

theorem daemon_deployed : Deployed (planned 12) daemon := ⟨rfl, rfl⟩

/-- Two iterations over a fresh database. -/
def daemonActs : List Act :=
  timeline daemon 3 2 (Runner.new (sunny 1000000000) ⟨Storage.Db.empty, []⟩)

/-- What the acts take when an import takes `importing` and the link is released at once. -/
def paceOf (importing : Duration) : Act → Duration
  | .report _ => 0
  | .call .finishCycle => 0
  | .call .disconnect => 0
  | .call _ => daemon.config.phaseTimeout
  | .deliver _ => importing
  | .sleep sleep => sleep.scheduled daemon

def daemonRun (importing : Duration) : TimedRun :=
  daemonActs.map fun act => (act, paceOf importing act)

theorem daemonRun_acts (importing : Duration) : (daemonRun importing).map Prod.fst = daemonActs := by
  unfold daemonRun
  rw [List.map_map]
  exact List.map_id _

theorem mem_daemonRun {importing took : Duration} {act : Act}
    (h : (act, took) ∈ daemonRun importing) : act ∈ daemonActs ∧ took = paceOf importing act := by
  obtain ⟨act', hmem, heq⟩ := List.mem_map.mp h
  obtain ⟨rfl, rfl⟩ := Prod.mk.inj heq
  exact ⟨hmem, rfl⟩

theorem daemonRun_inTime {importing : Duration}
    (h : importing ≤ (deliveryTimeouts (planned 12)).total) :
    InTime daemon (deliveryTimeouts (planned 12)) (daemonRun importing) where
  reports _ _ hin := (mem_daemonRun hin).2
  calls call took hin := by
    rw [(mem_daemonRun hin).2]
    cases call <;> first | exact le_rfl | exact Nat.zero_le _
  imports _ _ hin := by
    rw [(mem_daemonRun hin).2]
    exact h
  sleeps _ _ hin := (mem_daemonRun hin).2.le

/-- Imports that take as long as the request timeout: the watchdog is fed, through a sleep of
15 s and phases of 12 s. -/
theorem daemon_fed : Watched (progressObserver (planned 12) (planned 12).toService)
    (progressObserver (planned 12) (planned 12).toService).initial 0
    (daemonRun (Duration.fromSecs 10)) := by
  refine (watchdog_fed_iff (planned 12) (by decide +kernel) daemon daemon_deployed
    (sunny 1000000000) ⟨Storage.Db.empty, []⟩ 3 2 _ (daemonRun_acts _)
    (daemonRun_inTime (by decide))).mpr ⟨?_, ?_, ?_⟩
  · intro payload took hin
    rw [(mem_daemonRun hin).2]
    exact le_rfl
  · intro failures took hin
    rw [(mem_daemonRun hin).2]
    exact daemon_deployed.sleep_le ⟨.active, failures⟩ fun _ => by decide
  · intro took took' hin
    have hzero : took = 0 := (mem_daemonRun (hin.subset (List.mem_cons_self ..))).2
    have hzero' : took' = 0 := (mem_daemonRun (hin.subset (List.mem_cons_of_mem _
      (List.mem_singleton_self _)))).2
    rw [hzero, hzero']
    exact Nat.zero_le _

/-- An import within the deadline of the client that takes twice the request timeout: the watchdog
is not fed. -/
theorem slowImport_starves : ∃ run : TimedRun,
    (planned 12).validate = .ok () ∧ Deployed (planned 12) daemon ∧
      run.map Prod.fst = timeline daemon 3 2 (Runner.new (sunny 1000000000) ⟨Storage.Db.empty, []⟩) ∧
      InTime daemon (deliveryTimeouts (planned 12)) run ∧
      ¬ Watched (progressObserver (planned 12) (planned 12).toService)
        (progressObserver (planned 12) (planned 12).toService).initial 0 run := by
  have hvalid : (planned 12).validate = .ok () := by decide +kernel
  have htime : InTime daemon (deliveryTimeouts (planned 12)) (daemonRun (Duration.fromSecs 20)) :=
    daemonRun_inTime (by decide)
  refine ⟨daemonRun (Duration.fromSecs 20), hvalid, daemon_deployed, daemonRun_acts _, htime, ?_⟩
  rw [run_watched (daemon_deployed.budgeted hvalid) (daemonRun_acts _) htime]
  intro hpunctual
  have hdelivers : daemonActs.any (fun act => match act with
      | .deliver _ => true
      | _ => false) = true := by decide +kernel
  obtain ⟨act, hmem, hact⟩ := List.any_eq_true.mp hdelivers
  cases act with
  | deliver payload =>
      have hle : Duration.fromSecs 20 ≤ Duration.fromSecs 10 :=
        hpunctual.imports payload _ (List.mem_map.mpr ⟨_, hmem, rfl⟩)
      exact absurd hle (by decide)
  | _ => cases hact

end VeSmart.Collector
