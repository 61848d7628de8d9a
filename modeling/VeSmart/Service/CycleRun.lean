import VeSmart.Service.CycleSteps

set_option autoImplicit false

/-! # What one cycle can do

`CycleRun` adds the teardown to the ways in which a walk ends. From `Idle` a cycle succeeds and
is back in `Idle`, fails and is in `Backoff`, or is interrupted and is in `ShuttingDown`; in the
last two cases its last BLE call is `disconnect`. -/

namespace VeSmart.Service

open VeSmart.Lib VeSmart.Domain

section

variable {ω σ ε : Type} {k : Collector ω σ} {start : CycleContext ω σ}

/-- A teardown into the phase `p`: through `Disconnecting`, unless the machine is already there,
and the BLE call `disconnect`. -/
structure TornDown (start : CycleContext ω σ) (p : CyclePhase) (c : CycleContext ω σ) : Prop where
  current : c.state.current = p
  store : c.store = start.store
  health : c.health = start.health
  trace : ∃ entered, (entered = [] ∨ entered = [.phase .disconnecting start.store]) ∧
    c.trace = start.trace ++ entered ++ [.ble .disconnect, .phase p start.store]

/-- **What a cycle can do** from the context `start`. -/
inductive CycleRun (k : Collector ω σ) (start : CycleContext ω σ) :
    CycleOutcome → CycleContext ω σ → Prop
  | success (result : CycleResult) (c : CycleContext ω σ)
      (hwalk : CycleSteps k start (.ok (.done result)) c) : CycleRun k start (.success result) c
  | failure (p : CyclePhase) (e : CycleError) (stop c : CycleContext ω σ)
      (hwalk : CycleSteps k start (.error (p, e)) stop)
      (hdown : TornDown { stop with health := recordFailureHealth e stop.health } .backoff c) :
      CycleRun k start (.failure p e) c
  | shutdown (p : CyclePhase) (sample : Sample) (stop c : CycleContext ω σ)
      (hwalk : CycleSteps k start (.ok (.shutdown p sample)) stop)
      (hdown : TornDown stop .shuttingDown c) : CycleRun k start (.shutdownGraceful p sample) c

/-! ## Teardown -/

theorem exec_goto {p : CyclePhase} (c : CycleContext ω σ)
    (hlegal : c.state.current.canTransitionTo p = true) :
    exec (do mapErr CycleError.state (← goto p) : Cycle ω σ CycleError Unit) c = (.ok (), { c with
      state := ⟨p, c.state.transitions + 1⟩, trace := c.trace ++ [.phase p c.store] }) := by
  have hgoto : exec (goto p : Cycle ω σ CycleError _) c = (.ok (.ok ()), { c with
      state := ⟨p, c.state.transitions + 1⟩, trace := c.trace ++ [.phase p c.store] }) := by
    unfold goto
    rw [exec_ofFun, StateMachine.transition_ok hlegal]
  rw [exec_bind_ok hgoto, exec_mapErr_ok _ rfl]

theorem exec_callBle {α : Type} (call : BleCall) (op : Duration → ω → Timed α × ω)
    (c : CycleContext ω σ) :
    exec (callBle k call op : Cycle ω σ ε (Timed α)) c =
      (.ok (op k.config.phaseTimeout c.env).1, { c with
        env := (op k.config.phaseTimeout c.env).2, trace := c.trace ++ [.ble call] }) := rfl

theorem teardownToShutdown_steps (start : CycleContext ω σ)
    (hlegal : start.state.current.canTransitionTo .disconnecting) :
    ∃ c, exec (teardownToShutdown k) start = (.ok (), c) ∧ TornDown start .shuttingDown c := by
  unfold teardownToShutdown
  rw [← bind_assoc, exec_bind_ok (exec_goto _ hlegal), exec_bind_ok (exec_callBle _ _ _),
    exec_goto _ (by rfl)]
  exact ⟨_, rfl, rfl, rfl, rfl, [.phase .disconnecting start.store], .inr rfl, by simp⟩

theorem teardownAfterFailure_steps (start : CycleContext ω σ)
    (hlegal : start.state.current = .disconnecting ∨
      start.state.current.canTransitionTo .disconnecting) :
    ∃ c, exec (teardownAfterFailure k) start = (.ok (), c) ∧ TornDown start .backoff c := by
  unfold teardownAfterFailure
  rw [exec_bind_ok (exec_get _)]
  by_cases hthere : start.state.current = .disconnecting
  · rw [if_neg (by simpa using hthere)]
    dsimp only
    rw [exec_bind_ok (exec_callBle _ _ _), exec_goto _ (by rw [hthere]; rfl)]
    exact ⟨_, rfl, rfl, rfl, rfl, [], .inl rfl, by simp⟩
  · have hgo := hlegal.resolve_left hthere
    rw [if_pos (by simpa using hthere)]
    dsimp only
    rw [← bind_assoc, exec_bind_ok (exec_goto _ hgo), exec_bind_ok (exec_callBle _ _ _),
      exec_goto _ (by rfl)]
    exact ⟨_, rfl, rfl, rfl, rfl, [.phase .disconnecting start.store], .inr rfl, by simp⟩

/-- Wherever a walk fails, the machine may disconnect. -/
theorem CycleSteps.error_legal {e : CyclePhase × CycleError} {stop : CycleContext ω σ}
    (h : CycleSteps k start (.error e) stop) : stop.state.current = .disconnecting ∨
      stop.state.current.canTransitionTo .disconnecting = true := by
  cases h with
  | stopped p e _ hp _ hreached =>
      right
      rw [hreached.current]
      cases p <;> first | rfl | cases hp
  | refused _ _ _ mid _ _ hpersist =>
      right
      rw [hpersist.current]
      rfl
  | unreleased _ _ _ _ _ last _ _ _ _ _ hreleased =>
      left
      exact hreleased.current

/-- A walk fails with an error of a port, never with one of the state machine. -/
theorem CycleSteps.error_external {p : CyclePhase} {e : CycleError} {stop : CycleContext ω σ}
    (h : CycleSteps k start (.error (p, e)) stop) : e.external = true := by
  cases h with
  | stopped _ _ _ _ he _ => exact he
  | refused _ _ _ mid _ _ hpersist =>
      generalize hr : (Except.error (p, e) : Except (CyclePhase × CycleError) _) = r at hpersist
      cases hpersist with
      | refused e' _ he => cases hr; exact he
      | duplicate => cases hr
      | commit _ _ _ _ _ _ _ _ _ _ _ _ _ _ _ result =>
          rcases result with err | _ | _
          · cases hr; rfl
          · cases hr
          · cases hr
  | unreleased => rfl

/-! ## The events of a walk are added to the trace -/

theorem Reached.trace_grows {p : CyclePhase} {c : CycleContext ω σ} (h : Reached start p c) :
    start.trace <+: c.trace := by
  obtain ⟨events, htrace, -⟩ := h.trace
  exact ⟨events, htrace.symm⟩

theorem PersistStep.trace_grows {sample : Sample}
    {r : Except (CyclePhase × CycleError) (EnergyOutcome × Bool)} {c : CycleContext ω σ}
    (h : PersistStep k sample start r c) : start.trace <+: c.trace := by
  cases h with
  | refused _ _ _ _ _ _ htrace => exact ⟨_, htrace.symm⟩
  | duplicate _ _ _ _ _ _ _ _ _ htrace => exact ⟨_, htrace.symm⟩
  | commit _ _ _ _ _ _ _ _ _ _ _ _ _ _ _ _ _ _ _ _ _ htrace => exact ⟨_, htrace.symm⟩

theorem Delivering.trace_grows {duplicate : Bool} {c : CycleContext ω σ}
    (h : Delivering k duplicate start c) : start.trace <+: c.trace := by
  unfold Delivering at h
  split at h
  · obtain ⟨-, -, -, htrace⟩ := h
    rw [htrace]
  · obtain ⟨n, env, hwork⟩ := h
    obtain ⟨events, htrace, -⟩ := hwork.trace
    rw [htrace, List.append_assoc]
    exact List.prefix_append _ _

theorem Released.trace_grows {ok : Bool} {c : CycleContext ω σ} (h : Released start ok c) :
    start.trace <+: c.trace :=
  ⟨_, h.trace.symm⟩

theorem CycleSteps.trace_grows {r : Except (CyclePhase × CycleError) Step} {c : CycleContext ω σ}
    (h : CycleSteps k start r c) : start.trace <+: c.trace := by
  cases h with
  | stopped _ _ _ _ _ hreached => exact hreached.trace_grows
  | refused _ _ _ _ _ hmid hpersist => exact hmid.trace_grows.trans hpersist.trace_grows
  | interrupted _ _ _ _ _ _ hmid hpersist => exact hmid.trace_grows.trans hpersist.trace_grows
  | unreleased _ _ _ _ _ _ _ _ hmid hpersist hdeliver hreleased =>
      exact ((hmid.trace_grows.trans hpersist.trace_grows).trans hdeliver.trace_grows).trans hreleased.trace_grows
  | done _ _ _ _ _ _ _ _ hmid hpersist hdeliver hreleased =>
      exact ((hmid.trace_grows.trans hpersist.trace_grows).trans hdeliver.trace_grows).trans hreleased.trace_grows

/-! ## The cycle -/

/-- **The list is complete**: every cycle from `Idle` is one of `CycleRun`. -/
theorem runCycle_steps (hidle : start.state.current = .idle) :
    ∃ outcome c, exec (runCycle k : Cycle ω σ ε CycleOutcome) start = (.ok outcome, c) ∧
      CycleRun k start outcome c := by
  have hwalk := cycleStates_steps (k := k) hidle
  rcases hexec : exec (cycleStates k) start with ⟨result, stop⟩
  rw [hexec] at hwalk
  unfold runCycle
  rw [exec_bind_ok (exec_attempt _ _), hexec]
  dsimp only at hwalk ⊢
  rcases result with ⟨p, e⟩ | result | ⟨p, sample⟩
  · obtain ⟨c, hdown, htorn⟩ := teardownAfterFailure_steps (k := k)
      { stop with health := recordFailureHealth e stop.health } hwalk.error_legal
    refine ⟨.failure p e, c, ?_, .failure p e stop c hwalk htorn⟩
    show exec (finishFailed k p e) stop = _
    unfold finishFailed updateHealth
    rw [exec_bind_ok (exec_modify _ _), exec_bind_ok (exec_attempt _ _), hdown]
    rfl
  · exact ⟨.success result, stop, rfl, .success result stop hwalk⟩
  · have hlegal : stop.state.current.canTransitionTo .disconnecting = true := by
      cases hwalk with
      | interrupted _ _ _ mid late _ _ hpersist =>
          show late.state.current.canTransitionTo .disconnecting = true
          rw [hpersist.current]
          rfl
    obtain ⟨c, hdown, htorn⟩ := teardownToShutdown_steps (k := k) stop hlegal
    refine ⟨.shutdownGraceful p sample, c, ?_, .shutdown p sample stop c hwalk htorn⟩
    show exec (finishGracefully k p sample) stop = _
    unfold finishGracefully
    rw [exec_bind_ok (exec_attempt _ _), hdown]
    rfl

end

end VeSmart.Service
