import VeSmart.Collector.Memory

set_option autoImplicit false

/-! # What the loop does between two progress reports

The phase observer sees the reports of the loop; time passes in the calls of the BLE session, in the
deliveries and in the sleeps between them. `timeline_paced` says which of these can stand between
two reports: at most one, except for a link that is torn down after its release has failed. -/

namespace VeSmart.Collector

open VeSmart.Lib VeSmart.Domain VeSmart.Service

/-! ## The acts of a run -/

/-- A sleep between two cycles: the cadence and the failures that it is scheduled by. -/
structure Sleep where
  kind : IntervalKind
  failures : UInt32
  deriving DecidableEq

/-- A report to the phase observer, or an await that takes time. -/
inductive Act where
  | report (phase : CyclePhase)
  | call (call : BleCall)
  | deliver (payload : List UInt8)
  | sleep (sleep : Sleep)
  deriving DecidableEq

section

variable {ω σ : Type}

/-- The act that an event shows. Storage calls take no time. -/
def act? : Event σ → Option Act
  | .phase p _ => some (.report p)
  | .progress p => some (.report p)
  | .ble call => some (.call call)
  | .commit _ _ _ => none
  | .deliver payload => some (.deliver payload)

def Sleep.scheduled (k : Service.Collector ω σ) (s : Sleep) : Duration :=
  Duration.saturatingAdd
    (match s.kind with
      | .active => k.config.activeInterval
      | .idle => k.config.idleInterval)
    (k.backoff s.failures)

/-- The sleep of `awaitNext`; there is none before the first cycle. -/
def nextSleep (k : Service.Collector ω σ) (r : Runner ω σ) : Option Sleep :=
  let failures := r.ctx.health.consecutiveFailures
  let sleep : Sleep :=
    ⟨k.interval ⟨(k.ports.now r.ctx.env).1, r.ctx.health.lastSuccess, r.lastSolar, failures⟩,
      failures⟩
  if r.cycles = 0 ∨ sleep.scheduled k = 0 then none else some sleep

/-- The acts between two states of the loop. -/
def newActs (before after : Runner ω σ) : List Act :=
  (after.ctx.trace.drop before.ctx.trace.length).filterMap act?

/-- The acts of one iteration. The trace shows all but the sleep, which stands where the loop
waits. -/
def iterationActs (k : Service.Collector ω σ) (drains : Nat) (r : Runner ω σ) : List Act :=
  match exec (prepare k drains) r with
  | (.ok (some false), ready) =>
      newActs r ready ++ (nextSleep k ready).toList.map .sleep ++
        newActs ready (exec (proceed k) ready).2
  | _ => newActs r (exec (Service.iteration k drains) r).2

/-- The acts of `iterations` iterations. -/
def timeline (k : Service.Collector ω σ) (drains : Nat) : Nat → Runner ω σ → List Act
  | 0, _ => []
  | iterations + 1, r => iterationActs k drains r ++
      match exec (Service.iteration k drains) r with
      | (.ok .next, r') => timeline k drains iterations r'
      | _ => []

/-- `nextSleep` is the sleep of `awaitNext`. -/
theorem awaitNext_sleeps (k : Service.Collector ω σ) (r : Runner ω σ) :
    match nextSleep k r with
    | none => ∃ env, exec (awaitNext k) r = (.ok false, { r with ctx := { r.ctx with env := env } })
    | some s =>
        let woken := k.ports.wait (s.scheduled k) (k.ports.now r.ctx.env).2
        exec (awaitNext k) r = (.ok (k.ports.shutdownRequested woken).1,
          { r with ctx := { r.ctx with env := (k.ports.shutdownRequested woken).2 } }) := by
  unfold awaitNext
  rw [exec_bind_ok (exec_get _)]
  by_cases hcycles : r.cycles = 0
  · have hnone : nextSleep k r = none := if_pos (.inl hcycles)
    rw [hnone, if_pos hcycles]
    exact ⟨r.ctx.env, rfl⟩
  · have hnow : exec (onCycle (onEnv k.ports.now)) r =
        (.ok (k.ports.now r.ctx.env).1, { r with ctx := { r.ctx with
          env := (k.ports.now r.ctx.env).2 } }) := rfl
    rw [if_neg hcycles, exec_bind_ok hnow]
    by_cases hwait : Duration.saturatingAdd (baseInterval k r (k.ports.now r.ctx.env).1)
        (k.backoff r.ctx.health.consecutiveFailures) = 0
    · have hnone : nextSleep k r = none := if_pos (.inr hwait)
      rw [hnone]
      dsimp only
      rw [if_pos hwait]
      exact ⟨_, rfl⟩
    · have hsome : nextSleep k r = some ⟨_, _⟩ :=
        if_neg (not_or.mpr ⟨hcycles, hwait⟩)
      rw [hsome]
      dsimp only
      rw [if_neg hwait]
      rfl

/-! ## What may stand between two reports -/

/-- The phases that are reported right before a BLE call. -/
def callsBle (p : CyclePhase) : Bool :=
  p ∈ [.discovering, .connecting, .negotiating, .subscribing, .requesting, .disconnecting]

/-- The acts that may follow the report of a phase. -/
def allowed : CyclePhase → List Act → Bool
  | _, [] => true
  | p, [.call _] => callsBle p
  | .disconnecting, [.call .finishCycle, .call .disconnect] => true
  | .delivering, [.deliver _] => true
  | .idle, [.sleep _] => true
  | _, _ => false

/-- The phase reported last, and the acts since. -/
structure Pace where
  phase : CyclePhase
  since : List Act

/-- An allowed act. After `ShuttingDown` there is none. -/
def Pace.step (s : Pace) : Act → Option Pace
  | .report p => if s.phase = .shuttingDown then none else some ⟨p, []⟩
  | act => if allowed s.phase (s.since ++ [act]) then some { s with since := s.since ++ [act] }
      else none

theorem Pace.step_report {s : Pace} (h : s.phase ≠ .shuttingDown) (p : CyclePhase) :
    s.step (.report p) = some ⟨p, []⟩ :=
  if_neg h

theorem Pace.step_act {s : Pace} {act : Act} (hact : ∀ p, act ≠ .report p)
    (h : allowed s.phase (s.since ++ [act]) = true) :
    s.step act = some { s with since := s.since ++ [act] } := by
  cases act with
  | report p => exact absurd rfl (hact p)
  | call call => exact if_pos h
  | deliver payload => exact if_pos h
  | sleep sleep => exact if_pos h

theorem Pace.step_some {s t : Pace} {act : Act} (hact : ∀ p, act ≠ .report p)
    (h : s.step act = some t) :
    allowed s.phase (s.since ++ [act]) = true ∧ t = { s with since := s.since ++ [act] } := by
  by_cases hallowed : allowed s.phase (s.since ++ [act]) = true
  · rw [Pace.step_act hact hallowed] at h
    exact ⟨hallowed, (Option.some.inj h).symm⟩
  · cases act with
    | report p => exact absurd rfl (hact p)
    | call call => exact absurd ((if_neg hallowed).symm.trans h) nofun
    | deliver payload => exact absurd ((if_neg hallowed).symm.trans h) nofun
    | sleep sleep => exact absurd ((if_neg hallowed).symm.trans h) nofun

/-- The acts of a context since `start` are allowed, and lead from the pace `s` to `t`. -/
def PacedTo (s : Pace) (start c : CycleContext ω σ) (t : Pace) : Prop :=
  ∃ events, c.trace = start.trace ++ events ∧
    (events.filterMap act?).foldlM Pace.step s = some t

variable {k : Service.Collector ω σ} {s t u : Pace} {start c c' : CycleContext ω σ}

theorem PacedTo.refl (s : Pace) (c : CycleContext ω σ) : PacedTo s c c s :=
  ⟨[], by simp, rfl⟩

theorem PacedTo.congr (h : PacedTo s start c t) (htrace : c'.trace = c.trace) :
    PacedTo s start c' t := by
  obtain ⟨events, hevents, hfold⟩ := h
  exact ⟨events, by rw [htrace, hevents], hfold⟩

theorem PacedTo.event (h : PacedTo s start c t) {e : Event σ} {act : Act} (he : act? e = some act)
    (hstep : t.step act = some u) (htrace : c'.trace = c.trace ++ [e]) :
    PacedTo s start c' u := by
  obtain ⟨events, hevents, hfold⟩ := h
  refine ⟨events ++ [e], by rw [htrace, hevents, List.append_assoc], ?_⟩
  rw [List.filterMap_append, List.foldlM_append, hfold]
  show List.foldlM Pace.step t (List.filterMap act? [e]) = _
  rw [List.filterMap_cons_some he]
  show (t.step act >>= fun u' => List.foldlM Pace.step u' []) = _
  rw [hstep]
  rfl

/-- A storage event is no act. -/
theorem PacedTo.silent (h : PacedTo s start c t) {e : Event σ} (he : act? e = none)
    (htrace : c'.trace = c.trace ++ [e]) : PacedTo s start c' t := by
  obtain ⟨events, hevents, hfold⟩ := h
  refine ⟨events ++ [e], by rw [htrace, hevents, List.append_assoc], ?_⟩
  rw [List.filterMap_append, List.filterMap_cons_none he, List.filterMap_nil, List.append_nil]
  exact hfold

theorem PacedTo.newActs {r r' : Runner ω σ} (h : PacedTo s r.ctx r'.ctx t) :
    (newActs r r').foldlM Pace.step s = some t := by
  obtain ⟨events, hevents, hfold⟩ := h
  unfold Collector.newActs
  rw [hevents, List.drop_left]
  exact hfold

/-! ## The steps of a cycle -/

/-- The machine is in the phase `p`, at the pace `t`. -/
def On (s : Pace) (start : CycleContext ω σ) (p : CyclePhase) (t : Pace)
    (c : CycleContext ω σ) : Prop :=
  c.state.current = p ∧ PacedTo s start c t

/-- The machine is in the phase that was reported last. -/
abbrev At (s : Pace) (start : CycleContext ω σ) (p : CyclePhase) (since : List Act) :
    CycleContext ω σ → Prop :=
  On s start p ⟨p, since⟩

/-- The same, whatever the phase and the acts since. -/
def InStep (s : Pace) (start c : CycleContext ω σ) : Prop :=
  ∃ since, PacedTo s start c ⟨c.state.current, since⟩

/-- The same, and the link may be torn down. -/
def Stalled (s : Pace) (start c : CycleContext ω σ) : Prop :=
  ∃ since, PacedTo s start c ⟨c.state.current, since⟩ ∧
    (c.state.current = .disconnecting →
      allowed .disconnecting (since ++ [.call .disconnect]) = true)

variable {p q : CyclePhase} {since : List Act}

theorem At.inStep (h : At s start p since c) : InStep s start c :=
  ⟨since, h.1.symm ▸ h.2⟩

theorem Stalled.inStep (h : Stalled s start c) : InStep s start c := by
  obtain ⟨since, hpaced, -⟩ := h
  exact ⟨since, hpaced⟩

theorem At.stalled (h : At s start p since c) (hp : p ≠ .disconnecting) : Stalled s start c := by
  refine ⟨since, h.1.symm ▸ h.2, ?_⟩
  intro hdown
  exact absurd (h.1.symm.trans hdown) hp

theorem On.congr (h : On s start p t c) (hstate : c'.state = c.state)
    (htrace : c'.trace = c.trace) : On s start p t c' :=
  ⟨by rw [hstate]; exact h.1, h.2.congr htrace⟩

section

variable {α ε ε' : Type} {P : CycleContext ω σ → Prop} {E : ε → CycleContext ω σ → Prop}

/-- A transition is reported, or refused and leaves everything as it was. -/
theorem goto_paced {f : StateTransitionError → ε} (hP : ∀ c, P c →
      c.state.current ≠ .shuttingDown → ∃ t, t.phase ≠ .shuttingDown ∧ PacedTo s start c t)
    (q : CyclePhase) :
    Triple P (do mapErr f (← goto q)) (fun _ => At s start q []) (fun _ => P) := by
  apply Triple.bind (Q := fun r c => match r with
    | .ok () => At s start q [] c
    | .error _ => P c)
  · intro c hc
    unfold goto
    rw [exec_ofFun]
    cases hnext : c.state.transition q with
    | error e => exact hc
    | ok state =>
        unfold StateMachine.transition at hnext
        split at hnext
        · cases hnext
        · rename_i hlegal
          have hopen : c.state.current ≠ .shuttingDown := by
            intro hdown
            rw [hdown] at hlegal
            exact hlegal (by simp [CyclePhase.canTransitionTo])
          obtain ⟨t, ht, hpaced⟩ := hP c hc hopen
          cases hnext
          exact ⟨rfl, hpaced.event rfl (Pace.step_report ht q) rfl⟩
  · intro r
    apply mapErr_rule
    · rintro ⟨⟩ c hc hr
      subst hr
      exact hc
    · intro e c hc hr
      subst hr
      exact hc

theorem goto_inStep {f : StateTransitionError → ε} (hP : ∀ c, P c → InStep s start c)
    (q : CyclePhase) :
    Triple P (do mapErr f (← goto q)) (fun _ => At s start q []) (fun _ => P) := by
  refine goto_paced (fun c hc hopen => ?_) q
  obtain ⟨since, hpaced⟩ := hP c hc
  exact ⟨_, hopen, hpaced⟩

theorem callBle_paced {call : BleCall} {op : Duration → ω → Timed α × ω}
    (hallowed : allowed p (since ++ [.call call]) = true) :
    Triple (At s start p since) (callBle k call op)
      (fun _ => At s start p (since ++ [.call call])) E := by
  apply callBle_rule
  rintro c a env ⟨hcurrent, hpaced⟩
  exact ⟨hcurrent, hpaced.event rfl (Pace.step_act nofun hallowed) rfl⟩

theorem phase_paced {call : BleCall} {op : Duration → ω → Timed α × ω} (hp : callsBle p = true) :
    Triple (At s start p []) (phase k call op) (fun _ => At s start p [.call call]) E := by
  apply phase_rule
  rintro c a env ⟨hcurrent, hpaced⟩
  have hallowed : allowed p [.call call] = true := by
    cases p <;> first | rfl | cases hp
  exact ⟨hcurrent, hpaced.event rfl (Pace.step_act nofun hallowed) rfl⟩

theorem onEnv_paced {f : ω → α × ω} :
    Triple (On s start p t) (onEnv f) (fun _ => On s start p t) E :=
  onEnv_rule fun _ _ _ h => h.congr rfl rfl

theorem onStore_paced {f : σ → α × σ} :
    Triple (On s start p t) (onStore f) (fun _ => On s start p t) E :=
  onStore_rule fun _ h => h.congr rfl rfl

theorem updateHealth_paced {f : HealthSnapshot → HealthSnapshot} :
    Triple (On s start p t) (updateHealth f) (fun _ => On s start p t) E :=
  updateHealth_rule fun _ h => h.congr rfl rfl

theorem mapErr_paced {f : ε' → ε} {result : Except ε' α} :
    Triple P (mapErr f result : Cycle ω σ ε α) (fun _ => P) (fun _ => P) :=
  mapErr_rule (fun _ _ h _ => h) (fun _ _ h _ => h)

end

/-! ## The cycle -/

section

variable {α β : Type} {R : β → CycleContext ω σ → Prop}

/-- A phase of the walk is entered. -/
theorem enter_paced {rest : Unit → Cycle ω σ (CyclePhase × CycleError) β}
    (hp : p ≠ .disconnecting) (hrest : Triple (At s start q []) (rest ()) R
      (fun _ => Stalled s start)) :
    Triple (At s start p since) (gotoPhase q >>= rest) R (fun _ => Stalled s start) := by
  refine Triple.bind ?_ fun _ => hrest
  exact (goto_inStep (fun _ h => h.inStep) q).conseq (fun _ h => h) (fun _ _ h => h)
    (fun _ _ h => h.stalled hp)

/-- A result is checked. -/
theorem check_paced {ε' : Type} {f : ε' → CyclePhase × CycleError} {result : Except ε' α}
    {rest : α → Cycle ω σ (CyclePhase × CycleError) β} (hp : p ≠ .disconnecting)
    (hrest : ∀ a, Triple (At s start p since) (rest a) R (fun _ => Stalled s start)) :
    Triple (At s start p since) (mapErr f result >>= rest) R (fun _ => Stalled s start) := by
  refine Triple.bind ?_ hrest
  exact mapErr_paced.conseq (fun _ h => h) (fun _ _ h => h) (fun _ _ h => h.stalled hp)

end

theorem acquire_paced : Triple (At s start .idle since) (acquire k)
    (fun _ => At s start .collecting []) (fun _ => Stalled s start) := by
  unfold acquire
  refine enter_paced (by decide) ?_
  refine Triple.bind (phase_paced rfl) fun r => check_paced (by decide) fun _ => ?_
  refine enter_paced (by decide) ?_
  refine Triple.bind (phase_paced rfl) fun r => check_paced (by decide) fun _ => ?_
  refine enter_paced (by decide) ?_
  refine Triple.bind onEnv_paced fun vregs => ?_
  refine Triple.bind onEnv_paced fun r => check_paced (by decide) fun plan => ?_
  refine Triple.bind (phase_paced rfl) fun r => check_paced (by decide) fun _ => ?_
  refine enter_paced (by decide) ?_
  refine Triple.bind (phase_paced rfl) fun r => check_paced (by decide) fun _ => ?_
  refine enter_paced (by decide) ?_
  refine Triple.bind (phase_paced rfl) fun r => check_paced (by decide) fun raw => ?_
  refine enter_paced (by decide) ?_
  refine Triple.bind onEnv_paced fun r => check_paced (by decide) fun values => ?_
  refine Triple.bind onEnv_paced fun r => check_paced (by decide) fun sample => ?_
  split
  · exact Triple.throw fun c hc => hc.stalled (by decide)
  · exact Triple.pure fun c hc => hc

theorem commitSample_paced (sample : Sample) (prev : Option EnergyState) (energy : EnergyOutcome) :
    Triple (At s start .persisting []) (commitSample k sample prev energy)
      (fun _ => At s start .persisting []) (fun _ => Stalled s start) := by
  unfold commitSample
  refine Triple.bind onEnv_paced fun now => Triple.bind onStore_paced fun r => ?_
  refine check_paced (by decide) fun spool => ?_
  refine Triple.bind onEnv_paced fun now => ?_
  refine Triple.bind (Q := fun _ => At s start .persisting []) (Triple.getState fun _ h => h) ?_
  intro c
  refine Triple.bind onEnv_paced fun r => check_paced (by decide) fun payload => ?_
  refine Triple.bind onStore_paced fun result => ?_
  refine Triple.bind (Q := fun _ => At s start .persisting []) ?_ fun _ => ?_
  · exact record_rule fun _ h => ⟨h.1, h.2.silent rfl rfl⟩
  refine check_paced (by decide) fun outcome => ?_
  cases outcome with
  | committed => exact Triple.bind updateHealth_paced fun _ => Triple.pure fun _ h => h
  | alreadyCommitted => exact Triple.pure fun _ h => h

theorem persist_paced (sample : Sample) :
    Triple (At s start .collecting []) (persist k sample) (fun _ => At s start .persisting [])
      (fun _ => Stalled s start) := by
  unfold persist
  refine enter_paced (by decide) ?_
  split
  · exact Triple.throw fun c hc => hc.stalled (by decide)
  refine Triple.bind onStore_paced fun r => check_paced (by decide) fun prev => ?_
  refine Triple.bind onStore_paced fun r => check_paced (by decide) fun lastSuccess => ?_
  split
  · exact Triple.pure fun _ h => h
  · exact commitSample_paced sample prev _

/-! ## The delivery -/

section

variable {ε : Type} {E : ε → CycleContext ω σ → Prop}

theorem report_paced (ht : t.phase ≠ .shuttingDown) (q : CyclePhase) :
    Triple (On s start p t) (record (.progress q)) (fun _ => On s start p ⟨q, []⟩) E :=
  record_rule fun _ h => ⟨h.1, h.2.event rfl (Pace.step_report ht q) rfl⟩

theorem dropClaim_paced (claim : ClaimedBatch) :
    Triple (On s start p t) (dropClaim k claim) (fun _ => On s start p t) E := by
  refine Triple.bind onStore_paced fun result => ?_
  cases result with
  | ok u => exact Triple.bind updateHealth_paced fun _ => Triple.pure fun _ h => h
  | error e => exact Triple.pure fun _ h => h

theorem delivering_open {since : List Act} :
    (⟨.delivering, since⟩ : Pace).phase ≠ .shuttingDown := nofun

/-- Reports frame the delivery. -/
theorem deliverClaim_paced (claim : ClaimedBatch) (ht : t.phase ≠ .shuttingDown) :
    Triple (On s start p t) (deliverClaim k claim) (fun _ => On s start p ⟨.delivering, []⟩)
      E := by
  refine Triple.bind (report_paced ht _) fun _ => ?_
  refine Triple.bind (Q := fun _ => On s start p ⟨.delivering, [.deliver claim.payload]⟩) ?_
    fun _ => ?_
  · exact record_rule fun _ h => ⟨h.1, h.2.event rfl (Pace.step_act nofun rfl) rfl⟩
  refine Triple.bind onEnv_paced fun result => ?_
  refine Triple.bind (report_paced delivering_open _) fun _ => ?_
  have hcount : ∀ {status : DeliveryStatus} {f : HealthSnapshot → HealthSnapshot},
      Triple (On s start p ⟨.delivering, []⟩) (do
        updateHealth f
        pure status) (fun _ => On s start p ⟨.delivering, []⟩) E :=
    Triple.bind updateHealth_paced fun _ => Triple.pure fun _ h => h
  cases result with
  | ok u =>
      refine Triple.bind onStore_paced fun completed => ?_
      cases completed with
      | ok u => exact hcount
      | error e => exact hcount
  | error e =>
      refine Triple.bind updateHealth_paced fun _ => ?_
      show Triple _ (ite _ _ _) _ E
      split
      · show Triple _ (ite _ _ _) _ E
        split
        · exact dropClaim_paced claim
        · refine Triple.bind onEnv_paced fun now => Triple.bind onStore_paced fun retried => ?_
          rcases retried with e | attempts | attempts
          · exact Triple.pure fun _ h => h
          · exact Triple.pure fun _ h => h
          · exact hcount
      · exact dropClaim_paced claim

/-- A drain reports `Delivering`, if anything; by induction on its passes. -/
theorem drainSpool_paced (fuel : Nat) (delivered : UInt32) (ht : t.phase ≠ .shuttingDown) :
    Triple (On s start p t) (drainSpool k fuel delivered)
      (fun _ c => ∃ u : Pace, u.phase ≠ .shuttingDown ∧ On s start p u c) E := by
  have hdone : ∀ {u : Pace} {result : Option DrainResult}, u.phase ≠ .shuttingDown →
      Triple (On s start p u) (pure result)
        (fun _ c => ∃ u : Pace, u.phase ≠ .shuttingDown ∧ On s start p u c) E :=
    fun hu => Triple.pure fun _ h => ⟨_, hu, h⟩
  induction fuel generalizing t delivered with
  | zero => exact hdone ht
  | succ fuel ih =>
      refine Triple.bind onEnv_paced fun stop => ?_
      cases stop with
      | true => exact hdone ht
      | false =>
      refine Triple.bind (report_paced ht _) fun _ => Triple.bind onEnv_paced fun stop => ?_
      cases stop with
      | true => exact hdone delivering_open
      | false =>
      refine Triple.bind onEnv_paced fun now => Triple.bind onStore_paced fun claimed => ?_
      rcases claimed with e | _ | claim
      · exact hdone delivering_open
      · exact hdone delivering_open
      · refine Triple.bind (deliverClaim_paced claim delivering_open) fun status => ?_
        cases status with
        | delivered => exact ih (delivered + 1) delivering_open
        | queued attempts => exact ih delivered delivering_open
        | dropped attempts => exact ih delivered delivering_open
        | skipped => exact ih delivered delivering_open
        | failed e => exact hdone delivering_open

end

/-- Where the walk releases the link from. -/
def Concluding (s : Pace) (start c : CycleContext ω σ) : Prop :=
  At s start .persisting [] c ∨ At s start .delivering [] c

theorem deliverFresh_paced (duplicate : Bool) :
    Triple (At s start .persisting []) (deliverFresh k duplicate)
      (fun _ => Concluding s start) (fun _ => Stalled s start) := by
  unfold deliverFresh
  split
  · exact Triple.pure fun _ h => .inl h
  refine enter_paced (by decide) ?_
  refine Triple.bind onEnv_paced fun now => Triple.bind onStore_paced fun claimed => ?_
  rcases claimed with e | _ | claim
  · exact Triple.pure fun _ h => .inr h
  · exact Triple.pure fun _ h => .inr h
  · exact (deliverClaim_paced claim delivering_open).conseq (fun _ h => h) (fun _ _ h => .inr h)
      (fun _ _ h => h)

/-- A release that fails leaves the link to the teardown, which reports nothing before it
disconnects. -/
theorem release_paced : Triple (Concluding s start) (release k) (fun _ => At s start .idle [])
    (fun _ => Stalled s start) := by
  have hstalled : ∀ c, Concluding s start c → Stalled s start c := by
    rintro c (hat | hat)
    · exact hat.stalled (by decide)
    · exact hat.stalled (by decide)
  have hunreleased : ∀ c, At s start .disconnecting [.call .finishCycle] c → Stalled s start c :=
    fun c hc => ⟨_, hc.1.symm ▸ hc.2, fun _ => rfl⟩
  unfold release
  refine Triple.bind ((goto_inStep (fun c h => (hstalled c h).inStep) _).conseq
    (fun _ h => h) (fun _ _ h => h) (fun _ c h => hstalled c h)) fun _ => ?_
  refine Triple.bind (phase_paced rfl) fun r => ?_
  refine Triple.bind (mapErr_paced.conseq (fun _ h => h) (fun _ _ h => h)
    (fun _ c h => hunreleased c h)) fun _ => ?_
  exact (goto_inStep (fun _ h => h.inStep) _).conseq (fun _ h => h) (fun _ _ h => h)
    (fun _ c h => hunreleased c h)

theorem cycleStates_paced : Triple (At s start .idle since) (cycleStates k)
    (fun step => match step with
      | .done _ => At s start .idle []
      | .shutdown _ _ => At s start .persisting []) (fun _ => Stalled s start) := by
  refine Triple.bind acquire_paced fun sample => Triple.bind (persist_paced sample) ?_
  rintro ⟨energy, duplicate⟩
  refine Triple.bind onEnv_paced fun stop => ?_
  cases stop with
  | true => exact Triple.pure fun _ h => h
  | false =>
      refine Triple.bind (deliverFresh_paced duplicate) fun delivery => ?_
      exact Triple.bind release_paced fun _ => Triple.pure fun _ h => h

/-! ## The teardown -/

section

variable {ε : Type} {E : ε → CycleContext ω σ → Prop}

/-- The end of a teardown. -/
theorem leave_paced (q : CyclePhase)
    (hallowed : allowed .disconnecting (since ++ [.call .disconnect]) = true) :
    Triple (At s start .disconnecting since) (do
      let _ ← callBle k .disconnect k.ports.ble.disconnect
      mapErr CycleError.state (← goto q)) (fun _ => InStep s start) (fun _ => InStep s start) := by
  apply Triple.bind (callBle_paced hallowed)
  intro _
  exact (goto_inStep (fun _ h => h.inStep) q).conseq (fun _ h => h) (fun _ _ h => h.inStep)
    (fun _ _ h => h.inStep)

theorem teardownAfterFailure_paced : Triple (Stalled s start) (teardownAfterFailure k)
    (fun _ => InStep s start) (fun _ => InStep s start) := by
  unfold teardownAfterFailure
  apply Triple.getThen
  rintro c ⟨since, hpaced, hdown⟩
  have hin : ∀ c', c' = c → InStep s start c' := by
    rintro _ rfl
    exact ⟨since, hpaced⟩
  by_cases hthere : c.state.current = .disconnecting
  · -- the link was being released: the observer is not told again
    rw [if_neg (by simpa using hthere)]
    refine (leave_paced .backoff (hdown hthere)).conseq ?_ (fun _ _ h => h) (fun _ _ h => h)
    rintro _ rfl
    exact ⟨hthere, hthere ▸ hpaced⟩
  · rw [if_pos (by simpa using hthere)]
    dsimp only
    rw [← bind_assoc]
    refine Triple.bind ((goto_inStep hin .disconnecting).conseq (fun _ h => h)
      (fun _ _ h => h) (fun _ _ h => hin _ h)) fun _ => ?_
    exact leave_paced .backoff rfl

theorem teardownToShutdown_paced : Triple (InStep s start) (teardownToShutdown k)
    (fun _ => InStep s start) (fun _ => InStep s start) := by
  unfold teardownToShutdown
  rw [← bind_assoc]
  refine Triple.bind (goto_inStep (fun _ h => h) .disconnecting) fun _ => ?_
  exact leave_paced .shuttingDown rfl

/-- A cycle ends in the phase that it has reported last. -/
theorem runCycle_paced : Triple (At s start .idle since) (runCycle k : Cycle ω σ ε CycleOutcome)
    (fun _ => InStep s start) E := by
  have hattempt : ∀ {x : Cycle ω σ CycleError Unit} {P : CycleContext ω σ → Prop},
      Triple P x (fun _ => InStep s start) (fun _ => InStep s start) →
      Triple P (attempt x : Cycle ω σ ε _) (fun _ => InStep s start) E := by
    intro x P hx
    refine (Triple.attempt hx).conseq (fun _ h => h) ?_ (fun _ _ h => h)
    rintro (e | u) c hc
    · exact hc
    · exact hc
  apply Triple.bind (Triple.attempt cycleStates_paced)
  rintro (⟨p, e⟩ | result | ⟨p, sample⟩)
  · refine Triple.bind (Q := fun _ => Stalled s start) ?_ fun _ => ?_
    · exact updateHealth_rule fun _ ⟨since, hpaced, hdown⟩ => ⟨since, hpaced.congr rfl, hdown⟩
    refine Triple.bind (hattempt teardownAfterFailure_paced) fun down => ?_
    cases down <;> exact Triple.pure fun _ h => h
  · exact Triple.pure fun _ h => h.inStep
  · refine Triple.bind ((hattempt teardownToShutdown_paced).conseq (fun _ h => h.inStep)
      (fun _ _ h => h) (fun _ _ h => h)) fun down => ?_
    cases down <;> exact Triple.pure fun _ h => h

end

/-! ## The loop -/

/-- The acts so far are allowed. -/
def SomePace (s : Pace) (start c : CycleContext ω σ) : Prop := ∃ t, PacedTo s start c t

/-- Between two cycles, at a pace from which reports are possible. -/
def Resting (s : Pace) (start c : CycleContext ω σ) : Prop :=
  c.state.current.resting = true ∧ ∃ t, t.phase ≠ .shuttingDown ∧ PacedTo s start c t

theorem Resting.some (h : Resting s start c) : SomePace s start c := by
  obtain ⟨-, t, -, hpaced⟩ := h
  exact ⟨t, hpaced⟩

theorem resting_open {p : CyclePhase} (h : p.resting = true) : p ≠ .shuttingDown := by
  rintro rfl
  cases h

theorem At.resting (h : At s start p since c) (hp : p.resting = true) : Resting s start c :=
  ⟨h.1.symm ▸ hp, _, resting_open hp, h.2⟩

theorem onCycle_lift {α : Type} {x : Cycle ω σ RunError α} {P : CycleContext ω σ → Prop}
    {Q : α → CycleContext ω σ → Prop} {E : RunError → CycleContext ω σ → Prop}
    (h : Triple P x Q E) :
    Triple (fun r => P r.ctx) (onCycle x) (fun a r => Q a r.ctx) (fun e r => E e r.ctx) := by
  apply Triple.zoom
  intro r hr
  exact h.conseq (by rintro _ rfl; exact hr) (fun _ _ hQ => hQ) (fun _ _ hE => hE)

/-- The resting phase has just been reported. -/
def Reported (s : Pace) (start c : CycleContext ω σ) : Prop :=
  c.state.current.resting = true ∧ PacedTo s start c ⟨c.state.current, []⟩

theorem Reported.resting (h : Reported s start c) : Resting s start c :=
  ⟨h.1, _, resting_open h.1, h.2⟩

theorem reportProgress_paced : Triple (Resting s start) reportProgress
    (fun _ => Reported s start) (fun _ => SomePace s start) := by
  apply Triple.getThen
  rintro c ⟨hrest, t, ht, hpaced⟩
  apply record_rule
  rintro _ rfl
  exact ⟨hrest, hpaced.event rfl (Pace.step_report ht _) rfl⟩

theorem drainSpool_resting (drains : Nat) :
    Triple (Resting s start) (drainSpool k drains 0 : Cycle ω σ RunError _)
      (fun _ => Resting s start) (fun _ => SomePace s start) := by
  apply Triple.of_state
  rintro c ⟨hrest, t, ht, hpaced⟩
  refine Triple.conseq (P := On s start c.state.current t) (drainSpool_paced drains 0 ht) ?_ ?_
    (fun _ _ h => h)
  · rintro _ rfl
    exact ⟨rfl, hpaced⟩
  · rintro _ c' ⟨u, hu, hcurrent, hpaced'⟩
    exact ⟨hcurrent ▸ hrest, u, hu, hpaced'⟩

theorem enterIdle_paced :
    Triple (Reported s start)
      (do if (← get).state.current = .idle then pure () else gotoIdle : Cycle ω σ RunError Unit)
      (fun _ => At s start .idle []) (fun _ => SomePace s start) := by
  apply Triple.getThen
  intro c hc
  by_cases hidle : c.state.current = .idle
  · rw [if_pos hidle]
    apply Triple.pure
    rintro _ rfl
    exact ⟨hidle, hidle ▸ hc.2⟩
  · rw [if_neg hidle]
    refine (goto_paced (P := Resting s start) ?_ .idle).conseq ?_ (fun _ _ h => h)
      (fun _ _ h => h.some)
    · exact fun _ h _ => h.2
    · rintro _ rfl
      exact hc.resting

/-- Up to the choice of the interval: the machine is in `Idle` and has just said so. -/
theorem prepare_paced (drains : Nat) :
    Triple (fun r => Resting s start r.ctx) (prepare k drains)
      (fun ready r => match ready with
        | none => SomePace s start r.ctx
        | some true => Resting s start r.ctx
        | some false => At s start .idle [] r.ctx) (fun _ r => SomePace s start r.ctx) := by
  refine Triple.bind (onCycle_lift reportProgress_paced) fun _ => ?_
  refine Triple.bind ((onCycle_lift (drainSpool_resting drains)).conseq
    (fun _ h => h.resting) (fun _ _ h => h) (fun _ _ h => h)) fun drained => ?_
  cases drained with
  | none => exact Triple.pure fun _ h => h.some
  | some result =>
      refine Triple.bind (onCycle_lift reportProgress_paced) fun _ => ?_
      refine Triple.bind (onCycle_lift (onEnv_rule (Q := fun _ => Reported s start) ?_))
        fun stop => ?_
      · exact fun _ _ _ h => ⟨h.1, h.2.congr rfl⟩
      cases stop with
      | true => exact Triple.pure fun _ h => h.resting
      | false => exact Triple.bind (onCycle_lift enterIdle_paced) fun _ => Triple.pure fun _ h => h

/-- The loop disconnects under a report of its own. -/
theorem disconnectForShutdown_paced :
    Triple (Resting s start) (disconnectForShutdown k) (fun _ => Resting s start)
      (fun _ => SomePace s start) := by
  apply Triple.of_state
  rintro c ⟨hrest, t, ht, hpaced⟩
  refine Triple.conseq (P := On s start c.state.current t) ?_ (by rintro _ rfl; exact ⟨rfl, hpaced⟩)
    (fun _ _ h => h) (fun _ _ h => h)
  refine Triple.bind (report_paced ht .disconnecting) fun _ => ?_
  refine Triple.bind (Q := fun _ => On s start c.state.current
    ⟨.disconnecting, [.call .disconnect]⟩) ?_ fun _ => ?_
  · exact callBle_rule fun _ _ _ h => ⟨h.1, h.2.event rfl (Pace.step_act nofun rfl) rfl⟩
  · apply Triple.pure
    rintro c' ⟨hcurrent, hpaced'⟩
    exact ⟨hcurrent ▸ hrest, _, by simp, hpaced'⟩

theorem gotoIdleOrShutdown_paced :
    Triple (Resting s start) gotoIdleOrShutdown (fun _ => SomePace s start)
      (fun _ => SomePace s start) := by
  apply Triple.getThen
  intro c hc
  split
  · apply Triple.pure
    rintro _ rfl
    exact hc.some
  · refine (goto_paced (P := Resting s start) (fun _ h _ => h.2) .shuttingDown).conseq
      (by rintro _ rfl; exact hc) (fun _ _ h => ⟨_, h.2⟩) (fun _ _ h => h.some)

theorem stopLoop_paced :
    Triple (fun r => Resting s start r.ctx) (stopLoop k)
      (fun flow r => SomePace s start r.ctx ∧ flow = .stop) (fun _ r => SomePace s start r.ctx) := by
  refine Triple.bind (onCycle_lift disconnectForShutdown_paced) fun _ => ?_
  refine Triple.bind (onCycle_lift gotoIdleOrShutdown_paced) fun _ => ?_
  exact Triple.pure fun _ h => ⟨h, rfl⟩

/-- A cycle of the loop; what follows it is no act. -/
theorem runOnce_paced :
    Triple (fun r => At s start .idle since r.ctx) (runOnce k) (fun _ r => InStep s start r.ctx)
      (fun _ r => SomePace s start r.ctx) := by
  have hhealth : ∀ {f : HealthSnapshot → HealthSnapshot},
      Triple (fun r : Runner ω σ => InStep s start r.ctx) (onCycle (updateHealth f))
        (fun _ r => InStep s start r.ctx) (fun _ r => SomePace s start r.ctx) :=
    onCycle_lift (updateHealth_rule fun _ ⟨since, hpaced⟩ => ⟨since, hpaced.congr rfl⟩)
  refine Triple.bind (Q := fun _ r => At s start .idle since r.ctx)
    (Triple.getState fun _ h => h) fun _ => ?_
  refine Triple.bind (onCycle_lift runCycle_paced) fun outcome => ?_
  refine Triple.bind (Q := fun _ r => InStep s start r.ctx) (Triple.modifyState fun _ h => h)
    fun _ => ?_
  cases outcome with
  | success result =>
      refine Triple.bind (Q := fun _ r => InStep s start r.ctx) (Triple.modifyState fun _ h => h)
        fun _ => ?_
      exact Triple.bind hhealth fun _ => Triple.pure fun _ h => h
  | failure p e => exact Triple.bind hhealth fun _ => Triple.pure fun _ h => h
  | shutdownGraceful p sample =>
      refine Triple.bind (Q := fun _ r => InStep s start r.ctx) (Triple.modifyState fun _ h => h)
        fun _ => ?_
      exact Triple.bind hhealth fun _ => Triple.pure fun _ h => h

/-- Waiting changes the environment only. -/
theorem awaitNext_paced :
    Triple (fun r => At s start .idle since r.ctx) (awaitNext k)
      (fun _ r => At s start .idle since r.ctx) (fun _ r => SomePace s start r.ctx) := by
  refine Triple.conseq (Triple.of_exec (S := fun _ r => At s start .idle since r.ctx) ?_)
    (fun _ h => h) (fun _ _ h => h) (fun _ _ h => ⟨_, h.2⟩)
  intro r hr
  have hsleeps := awaitNext_sleeps k r
  cases hnext : nextSleep k r with
  | none =>
      rw [hnext] at hsleeps
      obtain ⟨env, hexec⟩ := hsleeps
      rw [hexec]
      exact hr.congr rfl rfl
  | some sleep =>
      rw [hnext] at hsleeps
      rw [hsleeps]
      exact hr.congr rfl rfl

/-- The rest of an iteration, from the choice of the interval. -/
theorem proceed_paced (since : List Act) :
    Triple (fun r => At s start .idle since r.ctx) (proceed k)
      (fun flow r => SomePace s start r.ctx ∧ (flow = .next → InStep s start r.ctx))
      (fun _ r => SomePace s start r.ctx) := by
  refine Triple.bind awaitNext_paced fun stop => ?_
  cases stop with
  | true =>
      refine stopLoop_paced.conseq (fun _ h => h.resting rfl) ?_ (fun _ _ h => h)
      rintro flow r ⟨hpaced, rfl⟩
      exact ⟨hpaced, nofun⟩
  | false =>
      refine runOnce_paced.conseq (fun _ h => h) ?_ (fun _ _ h => h)
      rintro flow r ⟨since', hpaced⟩
      exact ⟨⟨_, hpaced⟩, fun _ => ⟨since', hpaced⟩⟩

theorem sleep_paced (sleep : Option Sleep) :
    (sleep.toList.map Act.sleep).foldlM Pace.step ⟨.idle, []⟩ =
      some ⟨.idle, sleep.toList.map .sleep⟩ := by
  cases sleep <;> rfl

/-- Nothing is asked of what an iteration leaves unless it goes on. -/
theorem unless_next {ε α τ : Type} {x : Except ε α} {a : α} {t : τ} {P : τ → Prop}
    (h : x ≠ .ok a) : ∀ t', (x, t) = (.ok a, t') → P t' :=
  fun _ heq => absurd (Prod.mk.inj heq).1 h

/-- The acts of an iteration are allowed, and if the loop goes on the machine is in the phase
reported last. -/
theorem iteration_paced (drains : Nat) {r : Runner ω σ}
    (hrest : r.ctx.state.current.resting = true) (hs : s.phase ≠ .shuttingDown) :
    ∃ u, (iterationActs k drains r).foldlM Pace.step s = some u ∧
      ∀ r', exec (Service.iteration k drains) r = (.ok .next, r') →
        u.phase = r'.ctx.state.current := by
  have hprepare := prepare_paced (k := k) (s := s) drains r ⟨hrest, s, hs, PacedTo.refl _ _⟩
  have hiteration : exec (Service.iteration k drains) r = exec _ r :=
    congrArg (fun x => exec x r) (iteration_prepare k drains)
  unfold iterationActs
  rcases hexec : exec (prepare k drains) r with ⟨e | _ | _ | _, ready⟩
  · -- the machine has refused a transition
    rw [hexec] at hprepare
    rw [exec_bind_error hexec] at hiteration
    obtain ⟨u, hu⟩ := hprepare
    rw [hiteration]
    exact ⟨u, hu.newActs, unless_next (by simp)⟩
  · -- the drain has run out of passes
    rw [hexec] at hprepare
    rw [exec_bind_ok hexec] at hiteration
    obtain ⟨u, hu⟩ := hprepare
    rw [hiteration]
    exact ⟨u, hu.newActs, unless_next (by simp)⟩
  · rw [hexec] at hprepare
    rw [exec_bind_ok hexec] at hiteration
    dsimp only at hprepare hiteration ⊢
    have hproceed := proceed_paced (k := k) ((nextSleep k ready).toList.map .sleep) ready
      ⟨hprepare.1, PacedTo.refl _ ready.ctx⟩
    rw [hiteration, List.foldlM_append, List.foldlM_append, hprepare.2.newActs]
    simp only [Option.bind_eq_bind, Option.bind_some, sleep_paced]
    rcases hrun : exec (proceed k) ready with ⟨e | flow, r'⟩
    · rw [hrun] at hproceed
      obtain ⟨u, hu⟩ := hproceed
      exact ⟨u, hu.newActs, unless_next (by simp)⟩
    · rw [hrun] at hproceed
      obtain ⟨⟨u, hu⟩, hnext⟩ := hproceed
      by_cases hflow : flow = .next
      · obtain ⟨since', hpaced⟩ := hnext hflow
        refine ⟨_, hpaced.newActs, ?_⟩
        rintro _ ⟨-, rfl⟩
        rfl
      · exact ⟨u, hu.newActs, unless_next (by simpa using hflow)⟩
  · rw [hexec] at hprepare
    rw [exec_bind_ok hexec] at hiteration
    have hstop := stopLoop_paced (k := k) ready hprepare
    rw [hiteration]
    rcases hrun : exec (stopLoop k) ready with ⟨e | flow, r'⟩
    · rw [hrun] at hstop
      obtain ⟨u, hu⟩ := hstop
      exact ⟨u, hu.newActs, unless_next (by simp)⟩
    · rw [hrun] at hstop
      obtain ⟨⟨u, hu⟩, rfl⟩ := hstop
      exact ⟨u, hu.newActs, unless_next (by simp)⟩

/-- **What a run does between two reports**: in every run of the loop, only what the phase reported
last allows. By induction on the iterations. -/
theorem timeline_paced (drains iterations : Nat) {r : Runner ω σ}
    (hr : RunnerAt k (fun p => p.resting = true) r) (hs : s.phase ≠ .shuttingDown) :
    ∃ u, (timeline k drains iterations r).foldlM Pace.step s = some u := by
  induction iterations generalizing r s with
  | zero => exact ⟨s, rfl⟩
  | succ iterations ih =>
      obtain ⟨u, hu, hnext⟩ := iteration_paced (k := k) drains hr.2 hs
      unfold timeline
      rw [List.foldlM_append, hu]
      rcases hexec : exec (Service.iteration k drains) r with ⟨e | _ | _ | _, r'⟩
      · exact ⟨u, rfl⟩
      · obtain ⟨hrecords, hrest⟩ := (iteration_rule drains).ok hr hexec
        exact ih ⟨hrecords, hrest⟩ (hnext r' hexec ▸ resting_open hrest)
      · exact ⟨u, rfl⟩
      · exact ⟨u, rfl⟩

end

end VeSmart.Collector
