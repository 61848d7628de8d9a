import VeSmart.Service.Runner

set_option autoImplicit false

/-! # How the loop uses its session

The loop calls the BLE session in a fixed order: a cycle goes from discovery to the response, and
whatever fails is followed by a disconnect before the next cycle. `StagedSession` are the
obligations of a session that is used like this, stage by stage, and `run_session` is what the loop
makes of them: a run that begins between two cycles ends there. -/

namespace VeSmart.Service

open VeSmart.Lib VeSmart.Domain

/-- How far a cycle has come with its session. -/
inductive SessionStage where
  | idle
  | discovered
  | connected
  | negotiated
  | subscribed
  | answered
  /-- A call has failed or was cut off. -/
  | broken

section

variable {ω σ ε α β : Type}

/-- A call of the session ends in `good` if it succeeds, and else in `bad`. -/
def Ends (good bad : ω → Prop) (r : Timed α × ω) : Prop :=
  (∀ a, r.1 = some (.ok a) → good r.2) ∧ ((∀ a, r.1 ≠ some (.ok a)) → bad r.2)

/-- The ports besides the session and the storage keep `I`. -/
structure OtherPorts (k : Collector ω σ) (I : ω → Prop) : Prop where
  vregs : ∀ env, I env → I (k.ports.protocol.vregs env).2
  acquirePlan : ∀ inst vregs env, I env → I (k.ports.protocol.acquirePlan inst vregs env).2
  parseResponse : ∀ inst bytes env, I env → I (k.ports.protocol.parseResponse inst bytes env).2
  translate : ∀ inst values env, I env → I (k.ports.protocol.translate inst values env).2
  deliver : ∀ payload env, I env → I (k.ports.deliver payload env).2
  render : ∀ ctx env, I env → I (k.ports.render ctx env).2
  now : ∀ env, I env → I (k.ports.now env).2
  shutdownRequested : ∀ env, I env → I (k.ports.shutdownRequested env).2
  wait : ∀ d env, I env → I (k.ports.wait d env)

/-- The obligations of a session for which the protocol plans `plan`. -/
structure StagedSession (k : Collector ω σ) (plan : AcquirePlan) (I : SessionStage → ω → Prop) :
    Prop where
  others : ∀ s, OtherPorts k (I s)
  plans : ∀ env env' p, (k.ports.protocol.acquirePlan k.config.inst
    (k.ports.protocol.vregs env).1 env').1 = .ok p → p = plan
  discover : ∀ d env, I .idle env → Ends (I .discovered) (I .broken) (k.ports.ble.discover d env)
  connect : ∀ d env, I .discovered env →
    Ends (I .connected) (I .broken) (k.ports.ble.connect d env)
  negotiate : ∀ d env, I .connected env → Ends (I .negotiated) (I .broken)
    (k.ports.ble.negotiate plan.negotiationFrames d env)
  subscribe : ∀ d env, I .negotiated env → Ends (I .subscribed) (I .broken)
    (k.ports.ble.subscribe k.config.inst plan.subscribePayload d env)
  requestValues : ∀ timeout d env, I .subscribed env → Ends (I .answered) (I .broken)
    (k.ports.ble.requestValues plan.valuesPayload timeout d env)
  finishCycle : ∀ d env, I .answered env →
    Ends (I .idle) (I .broken) (k.ports.ble.finishCycle d env)
  disconnect : ∀ d env, I .broken env → I .idle (k.ports.ble.disconnect d env).2
  breaks : ∀ s env, I s env → I .broken env

/-! ## Steps of a cycle -/

/-- The environment of a context is in `I`. -/
def EnvIn (I : ω → Prop) (c : CycleContext ω σ) : Prop := I c.env

variable {k : Collector ω σ} {plan : AcquirePlan} {J : ω → Prop} {I : SessionStage → ω → Prop}

/-- A step that keeps `J`. -/
def KeepsEnv (J : ω → Prop) (x : Cycle ω σ ε α) : Prop :=
  Triple (EnvIn J) x (fun _ => EnvIn J) (fun _ => EnvIn J)

theorem keeps_pure (a : α) : KeepsEnv J (pure a : Cycle ω σ ε α) := Triple.pure fun _ h => h

theorem keeps_throw (e : ε) : KeepsEnv J (throw e : Cycle ω σ ε α) := Triple.throw fun _ h => h

theorem keeps_bind {x : Cycle ω σ ε α} {f : α → Cycle ω σ ε β} (hx : KeepsEnv J x)
    (hf : ∀ a, KeepsEnv J (f a)) : KeepsEnv J (x >>= f) := Triple.bind hx hf

theorem keeps_get {f : CycleContext ω σ → Cycle ω σ ε α} (hf : ∀ c, KeepsEnv J (f c)) :
    KeepsEnv J (get >>= f) :=
  fun c hc => hf c c hc

theorem keeps_onEnv {f : ω → α × ω} (h : ∀ env, J env → J (f env).2) :
    KeepsEnv J (onEnv f : Cycle ω σ ε α) :=
  fun c hc => h c.env hc

theorem keeps_onStore (f : σ → α × σ) : KeepsEnv J (onStore f : Cycle ω σ ε α) := fun _ hc => hc

theorem keeps_record (e : Event σ) : KeepsEnv J (record e : Cycle ω σ ε Unit) := fun _ hc => hc

theorem keeps_updateHealth (f : HealthSnapshot → HealthSnapshot) :
    KeepsEnv J (updateHealth f : Cycle ω σ ε Unit) := fun _ hc => hc

theorem keeps_mapErr {ε' : Type} (f : ε' → ε) (result : Except ε' α) :
    KeepsEnv J (mapErr f result : Cycle ω σ ε α) :=
  mapErr_rule (fun _ _ h _ => h) fun _ _ h _ => h

theorem goto_env (p : CyclePhase) {E : ε → CycleContext ω σ → Prop} :
    Triple (EnvIn J) (goto p) (fun _ => EnvIn J) E := by
  intro c hc
  unfold goto
  rw [exec_ofFun]
  cases c.state.transition p with
  | error e => exact hc
  | ok state => exact hc

theorem keeps_goto (p : CyclePhase) : KeepsEnv J (goto p : Cycle ω σ ε _) := goto_env p

theorem keeps_gotoPhase (p : CyclePhase) : KeepsEnv (σ := σ) J (gotoPhase p) :=
  keeps_bind (keeps_goto p) fun _ => keeps_mapErr _ _

/-- A phase of the session: what comes after it goes on from `good`. -/
theorem phase_session {good bad : ω → Prop} {call : BleCall} {op : Duration → ω → Timed α × ω}
    {f : BleError → ε} {rest : α → Cycle ω σ ε β} {Q : β → CycleContext ω σ → Prop}
    (h : ∀ d env, J env → Ends good bad (op d env))
    (hrest : ∀ a, Triple (EnvIn good) (rest a) Q (fun _ => EnvIn bad)) :
    Triple (EnvIn J) (phase k call op >>= fun r => mapErr f r >>= rest) Q
      (fun _ => EnvIn bad) := by
  have hphase : Triple (EnvIn J) (phase k call op : Cycle ω σ ε _)
      (fun r c => (∀ a, r = .ok a → good c.env) ∧ (∀ e, r = .error e → bad c.env))
      (fun _ => EnvIn bad) := by
    intro c hc
    obtain ⟨hgood, hbad⟩ := h k.config.phaseTimeout c.env hc
    rw [exec_phase]
    rcases hanswer : (op k.config.phaseTimeout c.env).1 with _ | e | a
    · refine ⟨fun a ha => ?_, fun _ _ => hbad fun a ha => by simp [hanswer] at ha⟩
      cases ha
    · refine ⟨fun a ha => ?_, fun _ _ => hbad fun a ha => by simp [hanswer] at ha⟩
      cases ha
    · refine ⟨fun _ _ => hgood a hanswer, fun e he => ?_⟩
      cases he
  refine Triple.bind hphase fun r => ?_
  refine Triple.bind (Q := fun a c => r = .ok a ∧ good c.env) ?_ fun a => ?_
  · exact mapErr_rule (fun a c hc ha => ⟨ha, hc.1 a ha⟩) fun e c hc he => hc.2 e he
  · exact (hrest a).conseq (fun _ hc => hc.2) (fun _ _ hc => hc) fun _ _ hc => hc

/-- A step before the rest, at a stage. -/
theorem StagedSession.step (h : StagedSession k plan I) {s : SessionStage} {x : Cycle ω σ ε α}
    {rest : α → Cycle ω σ ε β} {Q : β → CycleContext ω σ → Prop} (hx : KeepsEnv (I s) x)
    (hrest : ∀ a, Triple (EnvIn (I s)) (rest a) Q (fun _ => EnvIn (I .broken))) :
    Triple (EnvIn (I s)) (x >>= rest) Q (fun _ => EnvIn (I .broken)) :=
  Triple.bind (hx.conseq (fun _ h => h) (fun _ _ h => h) fun _ c hc => h.breaks _ c.env hc) hrest

/-! ## The walk -/

theorem acquire_session (h : StagedSession k plan I) :
    Triple (EnvIn (I .idle)) (acquire k) (fun _ => EnvIn (I .answered))
      (fun _ => EnvIn (I .broken)) := by
  unfold acquire
  refine h.step (keeps_gotoPhase _) fun _ => ?_
  refine phase_session (fun d env => h.discover d env) fun _ => ?_
  refine h.step (keeps_gotoPhase _) fun _ => ?_
  refine phase_session (fun d env => h.connect d env) fun _ => ?_
  refine h.step (keeps_gotoPhase _) fun _ => ?_
  -- the registers and the plan that is made of them
  refine Triple.bind (Q := fun vregs c => (∃ env, vregs = (k.ports.protocol.vregs env).1) ∧
    I .connected c.env) (fun c hc => ?_) fun vregs => ?_
  · exact ⟨⟨c.env, rfl⟩, (h.others _).vregs c.env hc⟩
  refine Triple.bind (Q := fun r c => (∀ p, r = .ok p → p = plan) ∧ I .connected c.env)
    (fun c hc => ?_) fun r => ?_
  · obtain ⟨⟨env, rfl⟩, hc⟩ := hc
    exact ⟨fun p => h.plans env c.env p, (h.others _).acquirePlan _ _ c.env hc⟩
  refine Triple.bind (Q := fun p c => p = plan ∧ I .connected c.env) ?_ fun p => ?_
  · exact mapErr_rule (fun p c hc hp => ⟨hc.1 p hp, hc.2⟩) fun e c hc _ => h.breaks _ c.env hc.2
  refine Triple.of_state fun c hc => ?_
  obtain ⟨rfl, hc⟩ := hc
  have hstart : ∀ s, s = c → EnvIn (I .connected) s := by
    rintro _ rfl
    exact hc
  refine Triple.conseq (P := EnvIn (I .connected)) ?_ hstart (fun _ _ h => h) fun _ _ h => h
  refine phase_session (fun d env => h.negotiate d env) fun _ => ?_
  refine h.step (keeps_gotoPhase _) fun _ => ?_
  refine phase_session (fun d env => h.subscribe d env) fun _ => ?_
  refine h.step (keeps_gotoPhase _) fun _ => ?_
  refine phase_session (fun d env => h.requestValues _ d env) fun raw => ?_
  refine h.step (keeps_gotoPhase _) fun _ => ?_
  refine h.step (keeps_onEnv ((h.others _).parseResponse _ _)) fun r => ?_
  refine h.step (keeps_mapErr _ r) fun values => ?_
  refine h.step (keeps_onEnv ((h.others _).translate _ _)) fun r => ?_
  refine h.step (keeps_mapErr _ r) fun sample => ?_
  by_cases hempty : sample.isEmpty = true
  · rw [if_pos hempty]
    exact Triple.throw fun c hc => h.breaks _ c.env hc
  · rw [if_neg hempty]
    exact Triple.pure fun _ hc => hc

theorem commitSample_keeps (h : OtherPorts k J) (sample : Sample) (prev : Option EnergyState)
    (energy : EnergyOutcome) : KeepsEnv J (commitSample k sample prev energy) := by
  unfold commitSample
  refine keeps_bind (keeps_onEnv h.now) fun now => ?_
  refine keeps_bind (keeps_onStore _) fun r => ?_
  refine keeps_bind (keeps_mapErr _ r) fun spool => ?_
  refine keeps_bind (keeps_onEnv h.now) fun now => ?_
  refine keeps_get fun c => ?_
  refine keeps_bind (keeps_onEnv (h.render _)) fun r => ?_
  refine keeps_bind (keeps_mapErr _ r) fun payload => ?_
  refine keeps_bind (keeps_onStore _) fun result => ?_
  refine keeps_bind (keeps_record _) fun _ => ?_
  refine keeps_bind (keeps_mapErr _ result) fun outcome => ?_
  cases outcome with
  | committed => exact keeps_bind (keeps_updateHealth _) fun _ => keeps_pure _
  | alreadyCommitted => exact keeps_pure _

theorem persist_keeps (h : OtherPorts k J) (sample : Sample) : KeepsEnv J (persist k sample) := by
  unfold persist
  refine keeps_bind (keeps_gotoPhase _) fun _ => ?_
  by_cases hold : sample.observedAt ≤ SystemTime.unixEpoch
  · rw [if_pos hold]
    exact keeps_throw _
  · rw [if_neg hold]
    refine keeps_bind (keeps_onStore _) fun r => ?_
    refine keeps_bind (keeps_mapErr _ r) fun prev => ?_
    refine keeps_bind (keeps_onStore _) fun r => ?_
    refine keeps_bind (keeps_mapErr _ r) fun lastSuccess => ?_
    by_cases hduplicate : lastSuccess.any (fun ls => sample.observedAt ≤ ls) = true
    · rw [if_pos hduplicate]
      exact keeps_pure _
    · rw [if_neg hduplicate]
      exact commitSample_keeps h _ _ _

theorem dropClaim_keeps (claim : ClaimedBatch) :
    KeepsEnv J (dropClaim k claim : Cycle ω σ ε DeliveryStatus) := by
  refine keeps_bind (keeps_onStore _) fun r => ?_
  cases r with
  | ok u => exact keeps_bind (keeps_updateHealth _) fun _ => keeps_pure _
  | error e => exact keeps_pure _

theorem deliverClaim_keeps (h : OtherPorts k J) (claim : ClaimedBatch) :
    KeepsEnv J (deliverClaim k claim : Cycle ω σ ε DeliveryStatus) := by
  unfold deliverClaim
  refine keeps_bind (keeps_record _) fun _ => ?_
  refine keeps_bind (keeps_record _) fun _ => ?_
  refine keeps_bind (keeps_onEnv (h.deliver _)) fun result => ?_
  refine keeps_bind (keeps_record _) fun _ => ?_
  cases result with
  | ok u =>
      refine keeps_bind (keeps_onStore _) fun completed => ?_
      cases completed with
      | ok u => exact keeps_bind (keeps_updateHealth _) fun _ => keeps_pure _
      | error e => exact keeps_bind (keeps_updateHealth _) fun _ => keeps_pure _
  | error e =>
      refine keeps_bind (keeps_updateHealth _) fun _ => ?_
      by_cases hretryable : e.retryable = true
      · rw [if_pos hretryable]
        by_cases hspent : k.config.spoolMaxAttempts ≤ claim.attempts
        · rw [if_pos hspent]
          exact dropClaim_keeps claim
        · rw [if_neg hspent]
          refine keeps_bind (keeps_onEnv h.now) fun now => ?_
          refine keeps_bind (keeps_onStore _) fun r => ?_
          rcases r with e | attempts | attempts
          · exact keeps_pure _
          · exact keeps_pure _
          · exact keeps_bind (keeps_updateHealth _) fun _ => keeps_pure _
      · rw [if_neg hretryable]
        exact dropClaim_keeps claim

/-- A drain, by induction on its passes. -/
theorem drainSpool_keeps (h : OtherPorts k J) (fuel : Nat) (delivered : UInt32) :
    KeepsEnv J (drainSpool k fuel delivered : Cycle ω σ ε (Option DrainResult)) := by
  induction fuel generalizing delivered with
  | zero => exact keeps_pure _
  | succ fuel ih =>
      refine keeps_bind (keeps_onEnv h.shutdownRequested) fun stop => ?_
      cases stop with
      | true => exact keeps_pure _
      | false =>
      refine keeps_bind (keeps_record _) fun _ => ?_
      refine keeps_bind (keeps_onEnv h.shutdownRequested) fun stop => ?_
      cases stop with
      | true => exact keeps_pure _
      | false =>
      refine keeps_bind (keeps_onEnv h.now) fun now => ?_
      refine keeps_bind (keeps_onStore _) fun claimed => ?_
      rcases claimed with e | _ | claim
      · exact keeps_pure _
      · exact keeps_pure _
      · refine keeps_bind (deliverClaim_keeps h claim) fun status => ?_
        cases status with
        | delivered => exact ih (delivered + 1)
        | queued attempts => exact ih delivered
        | dropped attempts => exact ih delivered
        | skipped => exact ih delivered
        | failed e => exact keeps_pure _

theorem deliverFresh_keeps (h : OtherPorts k J) (duplicate : Bool) :
    KeepsEnv J (deliverFresh k duplicate) := by
  unfold deliverFresh
  cases duplicate with
  | true => exact keeps_pure _
  | false =>
      refine keeps_bind (keeps_gotoPhase _) fun _ => ?_
      refine keeps_bind (keeps_onEnv h.now) fun now => ?_
      refine keeps_bind (keeps_onStore _) fun claimed => ?_
      rcases claimed with e | _ | claim
      · exact keeps_pure _
      · exact keeps_pure _
      · exact deliverClaim_keeps h claim

theorem release_session (h : StagedSession k plan I) :
    Triple (EnvIn (I .answered)) (release k) (fun _ => EnvIn (I .idle))
      (fun _ => EnvIn (I .broken)) := by
  unfold release
  refine h.step (keeps_gotoPhase _) fun _ => ?_
  refine phase_session (fun d env => h.finishCycle d env) fun _ => ?_
  exact (keeps_gotoPhase _).conseq (fun _ h => h) (fun _ _ h => h) fun _ c hc => h.breaks _ c.env hc

/-- Where a walk leaves the session: released, or to be disconnected. -/
def StepEnds (I : SessionStage → ω → Prop) : Step → ω → Prop
  | .done _ => I .idle
  | .shutdown _ _ => I .broken

theorem cycleStates_session (h : StagedSession k plan I) :
    Triple (EnvIn (I .idle)) (cycleStates k) (fun step => EnvIn (StepEnds I step))
      (fun _ => EnvIn (I .broken)) := by
  unfold cycleStates
  refine Triple.bind (acquire_session h) fun sample => ?_
  refine h.step (persist_keeps (h.others _) sample) fun persisted => ?_
  refine h.step (keeps_onEnv (h.others _).shutdownRequested) fun stop => ?_
  cases stop with
  | true => exact Triple.pure fun c hc => h.breaks _ c.env hc
  | false =>
      refine h.step (deliverFresh_keeps (h.others _) persisted.2) fun delivery => ?_
      refine Triple.bind (release_session h) fun _ => ?_
      exact Triple.pure fun _ hc => hc

/-! ## Teardown -/

theorem disconnect_session (h : StagedSession k plan I) {E : ε → CycleContext ω σ → Prop} :
    Triple (EnvIn (I .broken)) (callBle k .disconnect k.ports.ble.disconnect)
      (fun _ => EnvIn (I .idle)) E :=
  fun c hc => h.disconnect _ c.env hc

/-- Only the state machine can stop a teardown before its disconnect. -/
def StateError (e : CycleError) : Prop := ∃ error, e = .state error

theorem goto_teardown (p : CyclePhase) {rest : Unit → Cycle ω σ CycleError α}
    {Q : α → CycleContext ω σ → Prop}
    (hrest : Triple (EnvIn J) (rest ()) Q (fun e _ => StateError e)) :
    Triple (EnvIn J) (goto p >>= fun r => mapErr .state r >>= rest) Q
      (fun e _ => StateError e) := by
  refine Triple.bind (goto_env p) fun r => ?_
  refine Triple.bind (Q := fun _ => EnvIn J) ?_ fun _ => hrest
  exact mapErr_rule (fun _ _ hc _ => hc) fun e _ _ _ => ⟨e, rfl⟩

/-- The transition after the disconnect. -/
theorem goto_last (p : CyclePhase) :
    Triple (EnvIn J) (do mapErr CycleError.state (← goto p)) (fun _ => EnvIn J)
      (fun e (_ : CycleContext ω σ) => StateError e) :=
  Triple.bind (goto_env p) fun _ =>
    mapErr_rule (fun _ _ hc _ => hc) fun e _ _ _ => ⟨e, rfl⟩

theorem teardownAfterFailure_session (h : StagedSession k plan I) :
    Triple (EnvIn (I .broken)) (teardownAfterFailure k) (fun _ => EnvIn (I .idle))
      (fun e _ => StateError e) := by
  have hdown : Triple (EnvIn (I .broken)) (do
      let _ ← callBle k .disconnect k.ports.ble.disconnect
      mapErr .state (← goto .backoff)) (fun _ => EnvIn (I .idle)) (fun e _ => StateError e) :=
    Triple.bind (disconnect_session h) fun _ => goto_last .backoff
  unfold teardownAfterFailure
  refine Triple.getThen fun c hc => ?_
  have hstart : ∀ s, s = c → EnvIn (I .broken) s := by
    rintro _ rfl
    exact hc
  by_cases hthere : c.state.current ≠ .disconnecting
  · rw [if_pos hthere]
    exact (goto_teardown .disconnecting hdown).conseq hstart (fun _ _ h => h) fun _ _ h => h
  · rw [if_neg hthere]
    exact hdown.conseq hstart (fun _ _ h => h) fun _ _ h => h

theorem teardownToShutdown_session (h : StagedSession k plan I) :
    Triple (EnvIn (I .broken)) (teardownToShutdown k) (fun _ => EnvIn (I .idle))
      (fun e _ => StateError e) :=
  goto_teardown .disconnecting (Triple.bind (disconnect_session h) fun _ => goto_last .shuttingDown)

/-- A cycle ends with a released session, unless the state machine has stopped it. -/
theorem runCycle_session (h : StagedSession k plan I) {E : ε → CycleContext ω σ → Prop} :
    Triple (EnvIn (I .idle)) (runCycle k)
      (fun outcome c => (∀ p e, outcome ≠ .failure p (.state e)) → I .idle c.env) E := by
  refine Triple.bind (cycleStates_session h).attempt fun r => ?_
  rcases r with ⟨p, error⟩ | result | ⟨p, sample⟩
  · -- the walk has failed
    refine Triple.bind (Q := fun _ => EnvIn (I .broken)) (updateHealth_rule fun _ hc => hc)
      fun _ => ?_
    refine Triple.bind (teardownAfterFailure_session h).attempt fun down => ?_
    rcases down with e | _
    · refine Triple.pure fun c hc hno => ?_
      obtain ⟨error, rfl⟩ := hc
      exact absurd rfl (hno p error)
    · exact Triple.pure fun c hc _ => hc
  · exact Triple.pure fun c hc _ => hc
  · refine Triple.bind (teardownToShutdown_session h).attempt fun down => ?_
    rcases down with e | _
    · refine Triple.pure fun c hc hno => ?_
      obtain ⟨error, rfl⟩ := hc
      exact absurd rfl (hno p error)
    · exact Triple.pure fun c hc _ => hc

/-! ## The loop -/

/-- Between two cycles: the history is legal, the machine is in a phase with `P`, and the session
is idle. -/
def BetweenCycles (k : Collector ω σ) (I : SessionStage → ω → Prop) (P : CyclePhase → Prop)
    (r : Runner ω σ) : Prop :=
  RunnerAt k P r ∧ I .idle r.ctx.env

/-- A step of the loop on the context of the cycles. -/
theorem onCycle_session {x : Cycle ω σ RunError α} {P Q : CyclePhase → Prop}
    (hphase : Triple (fun c => P c.state.current) x (fun _ c => Q c.state.current)
      (fun _ _ => False))
    (hkeeps : KeepsEnv (I .idle) x) :
    Triple (BetweenCycles k I P) (onCycle x) (fun _ => BetweenCycles k I Q) (fun _ _ => False) := by
  have hpair : Triple (fun c => P c.state.current ∧ I .idle c.env) x
      (fun _ c => Q c.state.current ∧ I .idle c.env) (fun _ _ => False) :=
    ((hphase.conseq (fun _ hc => hc.1) (fun _ _ hc => hc) fun _ _ hc => hc).and
      (hkeeps.conseq (fun _ hc => hc.2) (fun _ _ hc => hc) fun _ _ hc => hc)).conseq
        (fun _ hc => hc) (fun _ _ hc => hc) fun _ _ hc => hc.1
  apply Triple.zoom
  rintro r ⟨⟨hrecords, hP⟩, henv⟩
  refine hpair.conseq ?_ (fun _ c hc => ⟨⟨hrecords, hc.1⟩, hc.2⟩) fun _ _ hfalse => hfalse
  rintro _ rfl
  exact ⟨hP, henv⟩

theorem disconnectForShutdown_session (h : StagedSession k plan I) :
    KeepsEnv (I .idle) (disconnectForShutdown k) := by
  refine keeps_bind (keeps_record _) fun _ => ?_
  refine Triple.bind ((disconnect_session h).conseq (fun c hc => h.breaks _ c.env hc)
    (fun _ _ hc => hc) fun _ _ hc => hc) fun _ => ?_
  exact keeps_pure _

theorem gotoIdleOrShutdown_keeps : KeepsEnv (σ := σ) J gotoIdleOrShutdown := by
  refine keeps_get fun c => ?_
  by_cases hdown : c.state.current = .shuttingDown
  · rw [if_pos hdown]
    exact keeps_pure _
  · rw [if_neg hdown]
    exact keeps_bind (keeps_goto _) fun _ => keeps_mapErr _ _

theorem enterIdle_keeps : KeepsEnv (σ := σ) J
    (do if (← get).state.current = .idle then pure () else gotoIdle) := by
  refine keeps_get fun c => ?_
  by_cases hidle : c.state.current = .idle
  · rw [if_pos hidle]
    exact keeps_pure _
  · rw [if_neg hidle]
    exact keeps_bind (keeps_goto _) fun _ => keeps_mapErr _ _

theorem reportProgress_keeps : KeepsEnv (σ := σ) J reportProgress :=
  keeps_get fun _ => keeps_record _

theorem awaitNext_session (h : StagedSession k plan I) {P : CyclePhase → Prop} :
    Triple (BetweenCycles k I P) (awaitNext k) (fun _ => BetweenCycles k I P)
      (fun _ _ => False) := by
  have henv : ∀ {γ : Type} {f : ω → γ × ω}, (∀ env, I .idle env → I .idle (f env).2) →
      Triple (BetweenCycles k I P) (onCycle (onEnv f)) (fun _ => BetweenCycles k I P)
        (fun _ _ => False) :=
    fun hf => onCycle_session (onEnv_rule fun _ _ _ hc => hc) (keeps_onEnv hf)
  refine Triple.bind (Q := fun _ => BetweenCycles k I P) (Triple.getState fun _ hr => hr)
    fun r => ?_
  by_cases hfirst : r.cycles = 0
  · rw [if_pos hfirst]
    exact Triple.pure fun _ hr => hr
  · rw [if_neg hfirst]
    refine Triple.bind (henv (h.others _).now) fun now => ?_
    extract_lets wait
    by_cases hzero : wait = 0
    · rw [if_pos hzero]
      exact Triple.pure fun _ hr => hr
    · rw [if_neg hzero]
      refine Triple.bind (henv ((h.others _).wait wait)) fun _ => ?_
      exact henv (h.others _).shutdownRequested

/-- The session is idle after the step; if the loop goes on, the machine rests. -/
def AfterStep (k : Collector ω σ) (I : SessionStage → ω → Prop) (flow : Flow)
    (r : Runner ω σ) : Prop :=
  (∀ rec ∈ r.records, rec.Legal k) ∧ I .idle r.ctx.env ∧
    (flow = .next → r.ctx.state.current.resting = true)

theorem runOnce_session (h : StagedSession k plan I) :
    Triple (BetweenCycles k I (fun p => p = .idle)) (runOnce k) (AfterStep k I)
      (fun _ _ => False) := by
  rintro r ⟨⟨hrecords, hidle⟩, henv⟩
  obtain ⟨outcome, c, hexec, hrun⟩ := runCycle_steps (k := k) (ε := RunError) hidle
  have hlegal := hrun.legal hidle hexec
  have hends : I .idle c.env :=
    (runCycle_session (E := fun _ _ => True) h).ok henv hexec hlegal.noStateError
  have hhistory : ∀ rec ∈ r.records ++ [⟨r.ctx, outcome, c⟩], rec.Legal k := by
    intro rec hmem
    rcases List.mem_append.mp hmem with hmem | hmem
    · exact hrecords rec hmem
    · rw [List.mem_singleton.mp hmem]
      exact hlegal
  have hcycle : exec (onCycle (runCycle k)) r = (.ok outcome, { r with ctx := c }) := by
    unfold onCycle
    rw [exec_zoom, hexec]
  have hend := hrun.endPhase
  unfold runOnce
  rw [exec_bind_ok (exec_get _), exec_bind_ok hcycle, exec_bind_ok (exec_modify _ _)]
  cases outcome with
  | success result =>
      refine ⟨hhistory, hends, fun _ => ?_⟩
      show c.state.current.resting = true
      rw [hend]
      rfl
  | failure p e =>
      refine ⟨hhistory, hends, fun _ => ?_⟩
      show c.state.current.resting = true
      rw [hend]
      rfl
  | shutdownGraceful p sample => exact ⟨hhistory, hends, fun h => nomatch h⟩

theorem iteration_session (h : StagedSession k plan I) (drains : Nat) :
    Triple (BetweenCycles k I (fun p => p.resting = true)) (iteration k drains) (AfterStep k I)
      (fun _ _ => False) := by
  have hstop : Triple (BetweenCycles k I (fun p => p.resting = true)) (do
      onCycle (disconnectForShutdown k)
      onCycle gotoIdleOrShutdown
      pure Flow.stop) (AfterStep k I) (fun _ _ => False) := by
    refine Triple.bind (onCycle_session (Q := fun p => p.resting = true)
      (disconnectForShutdown_rule (P := fun p => p.resting = true))
      (disconnectForShutdown_session h)) fun _ => ?_
    refine Triple.bind (onCycle_session (Q := fun _ => True) gotoIdleOrShutdown_rule
      gotoIdleOrShutdown_keeps) fun _ => ?_
    exact Triple.pure fun r hr => ⟨hr.1.1, hr.2, fun h => nomatch h⟩
  have hreport : Triple (BetweenCycles k I (fun p => p.resting = true)) (onCycle reportProgress)
      (fun _ => BetweenCycles k I (fun p => p.resting = true)) (fun _ _ => False) :=
    onCycle_session (reportProgress_rule (P := fun p => p.resting = true)) reportProgress_keeps
  refine Triple.bind hreport fun _ => ?_
  refine Triple.bind (onCycle_session (Q := fun p => p.resting = true)
    ((phaseInvariant (k := k) fun p => p.resting = true).drainSpool drains 0)
    (drainSpool_keeps (h.others _) drains 0)) fun drained => ?_
  cases drained with
  | none => exact Triple.pure fun r hr => ⟨hr.1.1, hr.2, fun h => nomatch h⟩
  | some result =>
      refine Triple.bind hreport fun _ => ?_
      refine Triple.bind (onCycle_session (Q := fun p => p.resting = true)
        (onEnv_rule fun _ _ _ hc => hc) (keeps_onEnv (h.others _).shutdownRequested)) fun stop => ?_
      cases stop with
      | true => exact hstop
      | false =>
          refine Triple.bind (onCycle_session (Q := fun p => p = .idle) enterIdle_rule
            enterIdle_keeps) fun _ => ?_
          refine Triple.bind (awaitNext_session h) fun stop => ?_
          cases stop with
          | true =>
              refine hstop.conseq ?_ (fun _ _ hr => hr) fun _ _ hr => hr
              rintro r ⟨⟨hrecords, hidle⟩, henv⟩
              refine ⟨⟨hrecords, ?_⟩, henv⟩
              rw [hidle]
              rfl
          | false => exact runOnce_session h

/-- The loop, by induction on its iterations. -/
theorem run_session_rule (h : StagedSession k plan I) (drains iterations : Nat) :
    Triple (BetweenCycles k I (fun p => p.resting = true)) (run k drains iterations)
      (fun _ r => I .idle r.ctx.env) (fun _ _ => False) := by
  induction iterations with
  | zero => exact Triple.pure fun r hr => hr.2
  | succ iterations ih =>
      refine Triple.bind (iteration_session h drains) fun flow => ?_
      cases flow with
      | next =>
          refine ih.conseq (fun r hr => ?_) (fun _ _ hr => hr) fun _ _ hr => hr
          exact ⟨⟨hr.1, hr.2.2 rfl⟩, hr.2.1⟩
      | unfinished => exact Triple.pure fun r hr => hr.2.1
      | stop =>
          refine Triple.bind (Q := fun _ r => I .idle r.ctx.env)
            (Triple.getState fun r hr => hr.2.1) fun r => ?_
          exact Triple.pure fun r hr => hr

/-- **A run that begins with an idle session ends with one**, whatever its ports do. -/
theorem run_session (h : StagedSession k plan I) {env : ω} (henv : I .idle env) (store : σ)
    (drains iterations : Nat) :
    I .idle (exec (run k drains iterations) (Runner.new env store)).2.ctx.env := by
  have hstart : BetweenCycles k I (fun p => p.resting = true) (Runner.new env store) :=
    ⟨⟨fun _ hmem => (nomatch hmem), rfl⟩, henv⟩
  have hrun := run_session_rule h drains iterations
  rcases hexec : exec (run k drains iterations) (Runner.new env store) with ⟨result, r⟩
  cases result with
  | ok summary => exact hrun.ok hstart hexec
  | error e => exact (hrun.error hstart hexec).elim

end

end VeSmart.Service
