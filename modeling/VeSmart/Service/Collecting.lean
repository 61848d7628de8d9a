import VeSmart.Service.Endings

set_option autoImplicit false

/-! # The response of a cycle

The acquisition in two parts: up to the response of the session, and from the response to the
sample. A cycle fails while collecting exactly if the second part does
(`runCycle_collecting_iff`). -/

namespace VeSmart.Service

open VeSmart.Lib VeSmart.Domain

section

variable {ω σ ε : Type}

/-- From `Idle` to the response of the session. -/
def requestPayload (k : Collector ω σ) : Cycle ω σ (CyclePhase × CycleError) (List UInt8) := do
  gotoPhase .discovering
  mapErr (fun e => (.discovering, .discover e)) (← phase k .discover k.ports.ble.discover)
  gotoPhase .connecting
  mapErr (fun e => (.connecting, .connect e)) (← phase k .connect k.ports.ble.connect)
  gotoPhase .negotiating
  let vregs ← onEnv k.ports.protocol.vregs
  let plan ← mapErr (fun e => (.negotiating, .plan e))
    (← onEnv (k.ports.protocol.acquirePlan k.config.inst vregs))
  mapErr (fun e => (.negotiating, .negotiate e))
    (← phase k (.negotiate plan.negotiationFrames)
      (k.ports.ble.negotiate plan.negotiationFrames))
  gotoPhase .subscribing
  mapErr (fun e => (.subscribing, .subscribe e))
    (← phase k (.subscribe k.config.inst plan.subscribePayload)
      (k.ports.ble.subscribe k.config.inst plan.subscribePayload))
  gotoPhase .requesting
  let raw ← mapErr (fun e => (.requesting, .request e))
    (← phase k (.requestValues plan.valuesPayload k.config.responseTimeout)
      (k.ports.ble.requestValues plan.valuesPayload k.config.responseTimeout))
  gotoPhase .collecting
  pure raw

/-- From the response to a sample with at least one field. -/
def collectSample (k : Collector ω σ) (raw : List UInt8) :
    Cycle ω σ (CyclePhase × CycleError) Sample := do
  let values ← mapErr (fun e => (.collecting, .parse e))
    (← onEnv (k.ports.protocol.parseResponse k.config.inst raw))
  let sample ← mapErr (fun e => (.collecting, .parse e))
    (← onEnv (k.ports.protocol.translate k.config.inst values))
  if sample.isEmpty then throw (.collecting, .parse .emptyResponse) else pure sample

theorem acquire_parts (k : Collector ω σ) : acquire k = requestPayload k >>= collectSample k := by
  unfold acquire requestPayload collectSample
  simp only [bind_assoc, pure_bind]

variable {k : Collector ω σ} {start : CycleContext ω σ}

/-- The cycle ends with the error, and of what it was about to commit nothing remains: the storage
is the one before the cycle, no event is a commit or a delivery, and the health counters have
one protocol error more. -/
def RejectedWith (k : Collector ω σ) (start : CycleContext ω σ) (e : ProtocolError) : Prop :=
  ∃ c, exec (runCycle k : Cycle ω σ RunError CycleOutcome) start =
      (.ok (.failure .collecting (.parse e)), c) ∧
    c.store = start.store ∧ c.health = start.health.recordProtocolError ∧
    ∃ events, c.trace = start.trace ++ events ∧ ∀ event ∈ events, event.quiet = true

/-- The durable step fails while persisting. -/
theorem PersistStep.error_phase {sample : Sample} {p : CyclePhase} {e : CycleError}
    {c : CycleContext ω σ} (h : PersistStep k sample start (.error (p, e)) c) :
    p = .persisting := by
  generalize hr : (Except.error (p, e) : Except (CyclePhase × CycleError) _) = r at h
  cases h with
  | refused _ _ _ _ _ _ _ => cases hr; rfl
  | duplicate => cases hr
  | commit _ _ _ _ _ _ _ _ _ _ _ _ _ _ _ result =>
      rcases result with err | _ | _
      · cases hr; rfl
      · cases hr
      · cases hr

theorem TornDown.quiet {p : CyclePhase} {c : CycleContext ω σ} (h : TornDown start p c) :
    ∃ events, c.trace = start.trace ++ events ∧ ∀ event ∈ events, event.quiet = true := by
  obtain ⟨entered, hentered, htrace⟩ := h.trace
  refine ⟨_, by rw [htrace, List.append_assoc], ?_⟩
  rcases hentered with rfl | rfl <;> simp [Event.quiet]

/-- A cycle is rejected while collecting exactly if its acquisition fails there. -/
theorem runCycle_collecting_iff (hidle : start.state.current = .idle) (e : ProtocolError) :
    RejectedWith k start e ↔
      (exec (acquire k) start).1 = .error (.collecting, .parse e) := by
  constructor
  · rintro ⟨c, hexec, -⟩
    have hends := runCycle_ends hidle hexec
    generalize houtcome : CycleOutcome.failure .collecting (.parse e) = outcome at hends
    cases hends with
    | undurable p err late _ hdurable _ =>
        cases houtcome
        unfold durable at hdurable
        rcases hacquire : exec (acquire k) start with ⟨err | sample, mid⟩
        · rw [exec_bind_error hacquire] at hdurable
          cases hdurable
          rfl
        -- a sample that is refused later is refused while persisting
        have hmid := acquire_steps.ok (Reached.refl hidle) hacquire
        have hpersist := persist_steps (k := k) sample mid hmid.current
        rw [exec_bind_ok hacquire] at hdurable
        rcases hdone : exec (persist k sample) mid with ⟨err | ⟨energy, duplicate⟩, last⟩
        · rw [hdone] at hpersist
          rw [exec_bind_error hdone] at hdurable
          cases hdurable
          cases hpersist.error_phase
        · rw [exec_bind_ok hdone] at hdurable
          cases hdurable
    | interrupted => cases houtcome
    | unreleased => cases houtcome
    | released => cases houtcome
  · intro h
    rcases hacquire : exec (acquire k) start with ⟨err | sample, mid⟩
    · rw [hacquire] at h
      cases h
      obtain ⟨hp, he, hreached⟩ := acquire_steps.error (Reached.refl hidle) hacquire
      obtain ⟨c, hdown, htorn⟩ := teardownAfterFailure_steps (k := k)
        { mid with health := recordFailureHealth (.parse e) mid.health }
        (CycleSteps.stopped _ _ mid hp he hreached : CycleSteps k start _ _).error_legal
      have hstates : exec (cycleStates k) start = (.error (.collecting, .parse e), mid) := by
        unfold cycleStates
        rw [exec_bind_error hacquire]
      refine ⟨c, ?_, htorn.store.trans hreached.store, ?_, ?_⟩
      · unfold runCycle
        rw [exec_bind_ok (exec_attempt _ _), hstates]
        show exec (finishFailed k .collecting (.parse e)) mid = _
        unfold finishFailed updateHealth
        rw [exec_bind_ok (exec_modify _ _), exec_bind_ok (exec_attempt _ _), hdown]
        rfl
      · rw [htorn.health]
        show mid.health.recordProtocolError = _
        rw [hreached.health]
      · obtain ⟨events, htrace, hquiet⟩ := hreached.trace
        obtain ⟨later, hlater, hlaterQuiet⟩ := htorn.quiet
        refine ⟨events ++ later, ?_, ?_⟩
        · rw [hlater]
          show mid.trace ++ later = _
          rw [htrace, List.append_assoc]
        · intro event hevent
          rcases List.mem_append.mp hevent with hmem | hmem
          · exact hquiet event hmem
          · exact hlaterQuiet event hmem
    · rw [hacquire] at h
      cases h

end

end VeSmart.Service
