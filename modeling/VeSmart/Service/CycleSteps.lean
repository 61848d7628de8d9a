import VeSmart.Service.Cycle

set_option autoImplicit false

/-! # What one walk of a cycle can do

`CycleSteps` lists the ways in which `cycleStates` can end, each with the context it leaves:
the walk stops before the sample, the sample is refused while persisting, shutdown interrupts
the cycle after the durable step, or the link is released. `cycleStates_steps` proves the list
complete, and every statement about a cycle is derived from it. -/

namespace VeSmart.Service

open VeSmart.Lib VeSmart.Domain

section

variable {ω σ : Type}

/-- The event is neither a commit nor a delivery. -/
def Event.quiet : Event σ → Bool
  | .phase _ _ => true
  | .progress _ => true
  | .ble _ => true
  | .commit _ _ _ => false
  | .deliver _ => false

/-- The walk has reached the phase `p`, and nothing but the machine, the environment and the
trace has changed. -/
structure Reached (start : CycleContext ω σ) (p : CyclePhase) (c : CycleContext ω σ) : Prop where
  current : c.state.current = p
  store : c.store = start.store
  health : c.health = start.health
  trace : ∃ events, c.trace = start.trace ++ events ∧ ∀ e ∈ events, e.quiet = true

/-- The phases before the durable step. -/
def CyclePhase.acquiring (p : CyclePhase) : Bool :=
  p ∈ [.discovering, .connecting, .negotiating, .subscribing, .requesting, .collecting]

/-- Not an internal failure of the state machine. -/
def CycleError.external : CycleError → Bool
  | .state _ => false
  | _ => true

/-- A storage operation that only reads. -/
inductive ReadStep (port : StoragePort σ) (store : σ) : σ → Prop
  | energyState : ReadStep port store (port.energyState store).2
  | lastSuccess : ReadStep port store (port.lastSuccess store).2
  | spoolHealth (now : SystemTime) : ReadStep port store (port.spoolHealth now store).2

/-- The result of the durable step, by the result of the commit call. -/
def commitResult (energy : EnergyOutcome) :
    Except StorageError AcquisitionCommitOutcome →
      Except (CyclePhase × CycleError) (EnergyOutcome × Bool)
  | .ok .committed => .ok (energy, false)
  | .ok .alreadyCommitted => .ok (energy, true)
  | .error e => .error (persistError e)

/-- A skipped gap is counted when its commit has succeeded. -/
def commitHealth (energy : EnergyOutcome) (result : Except StorageError AcquisitionCommitOutcome)
    (h : HealthSnapshot) : HealthSnapshot :=
  match result with
  | .ok .committed => energy.skippedGapSeconds.elim h h.recordEnergyGap
  | _ => h

/-- What `persist` can do from the context `start`, at the end of `Collecting`. -/
inductive PersistStep (k : Collector ω σ) (sample : Sample) (start : CycleContext ω σ) :
    Except (CyclePhase × CycleError) (EnergyOutcome × Bool) → CycleContext ω σ → Prop
  /-- Refused before the commit: the storage was at most read. -/
  | refused (e : CycleError) (c : CycleContext ω σ) (hexternal : e.external = true)
      (hcurrent : c.state.current = .persisting) (hhealth : c.health = start.health)
      (hstore : Relation.ReflTransGen (ReadStep k.ports.storage) start.store c.store)
      (htrace : c.trace = start.trace ++ [.phase .persisting start.store]) :
      PersistStep k sample start (.error (.persisting, e)) c
  /-- The sample is not newer than the last committed one. -/
  | duplicate (prev : Option EnergyState) (success : SystemTime) (c : CycleContext ω σ)
      (hprev : (k.ports.storage.energyState start.store).1 = .ok prev)
      (hsuccess : (k.ports.storage.lastSuccess
        (k.ports.storage.energyState start.store).2).1 = .ok (some success))
      (hle : sample.observedAt ≤ success)
      (hcurrent : c.state.current = .persisting) (hhealth : c.health = start.health)
      (hstore : c.store = (k.ports.storage.lastSuccess
        (k.ports.storage.energyState start.store).2).2)
      (htrace : c.trace = start.trace ++ [.phase .persisting start.store]) :
      PersistStep k sample start (.ok (k.energy.apply prev sample, true)) c
  /-- The sample is rendered and committed. -/
  | commit (prev : Option EnergyState) (success : Option SystemTime) (now now' : SystemTime)
      (spool : SpoolHealth) (payload : List UInt8) (env : ω) (c : CycleContext ω σ)
      (hpositive : SystemTime.unixEpoch < sample.observedAt)
      (hprev : (k.ports.storage.energyState start.store).1 = .ok prev)
      (hsuccess : (k.ports.storage.lastSuccess
        (k.ports.storage.energyState start.store).2).1 = .ok success)
      (hnewer : ∀ ls ∈ success, ls < sample.observedAt)
      (before : σ)
      (hspool : k.ports.storage.spoolHealth now (k.ports.storage.lastSuccess
        (k.ports.storage.energyState start.store).2).2 = (.ok spool, before))
      (hpayload : (k.ports.render (renderContext k sample (k.energy.apply prev sample) spool now'
        start.health) env).1 = .ok payload)
      (result : Except StorageError AcquisitionCommitOutcome) (after : σ)
      (hcommit : k.ports.storage.commitAcquisition
        (acquisitionCommit k sample prev (k.energy.apply prev sample) payload) before =
          (result, after))
      (hcurrent : c.state.current = .persisting)
      (hhealth : c.health = commitHealth (k.energy.apply prev sample) result start.health)
      (hstore : c.store = after)
      (htrace : c.trace = start.trace ++ [.phase .persisting start.store,
        .commit (k.energy.apply prev sample)
          (acquisitionCommit k sample prev (k.energy.apply prev sample) payload) result]) :
      PersistStep k sample start (commitResult (k.energy.apply prev sample) result) c

/-- Spool work from `start`: the storage has changed by spool operations only, no gap was
counted, and the events are progress reports and deliveries. -/
structure SpoolWork (k : Collector ω σ) (start c : CycleContext ω σ) : Prop where
  state : c.state = start.state
  store : Relation.ReflTransGen (SpoolCallStep k.ports.storage) start.store c.store
  gap : c.health.energyGapSkippedSeconds = start.health.energyGapSkippedSeconds
  trace : ∃ events, c.trace = start.trace ++ events ∧
    ∀ e ∈ events, e = .progress .delivering ∨ ∃ payload, e = .deliver payload

/-- The delivery step of a cycle: none at all for a duplicate. -/
def Delivering (k : Collector ω σ) (duplicate : Bool) (start c : CycleContext ω σ) : Prop :=
  if duplicate then c.state = start.state ∧ c.store = start.store ∧ c.health = start.health ∧
    c.trace = start.trace
  else ∃ n env, SpoolWork k { start with
    env := env, state := ⟨.delivering, n⟩,
    trace := start.trace ++ [.phase .delivering start.store] } c

/-- The release of the link: `Disconnecting`, the BLE call and, if it succeeded, `Idle`. -/
structure Released (start : CycleContext ω σ) (ok : Bool) (c : CycleContext ω σ) : Prop where
  current : c.state.current = if ok then .idle else .disconnecting
  store : c.store = start.store
  health : c.health = start.health
  trace : c.trace = start.trace ++ ([.phase .disconnecting start.store, .ble .finishCycle] ++
    if ok then [.phase .idle start.store] else [])

/-- The result of a walk that has reached the release of the link. -/
def doneResult (k : Collector ω σ) (sample : Sample) (energy : EnergyOutcome) (duplicate : Bool)
    (delivery : DeliveryStatus) : CycleResult where
  device := k.device
  sample := sample
  resolvedYieldKwh := energy.totalKwh
  energy := energy
  delivery := delivery
  duplicate := duplicate

/-- **What a walk can do** from the context `start`. -/
inductive CycleSteps (k : Collector ω σ) (start : CycleContext ω σ) :
    Except (CyclePhase × CycleError) Step → CycleContext ω σ → Prop
  | stopped (p : CyclePhase) (e : CycleError) (c : CycleContext ω σ) (hp : p.acquiring = true)
      (he : e.external = true) (hreached : Reached start p c) :
      CycleSteps k start (.error (p, e)) c
  | refused (sample : Sample) (p : CyclePhase) (e : CycleError) (mid c : CycleContext ω σ)
      (hmid : Reached start .collecting mid)
      (hpersist : PersistStep k sample mid (.error (p, e)) c) : CycleSteps k start (.error (p, e)) c
  | interrupted (sample : Sample) (energy : EnergyOutcome) (duplicate : Bool)
      (mid late : CycleContext ω σ) (env : ω) (hmid : Reached start .collecting mid)
      (hpersist : PersistStep k sample mid (.ok (energy, duplicate)) late) :
      CycleSteps k start (.ok (.shutdown .delivering sample)) { late with env := env }
  | unreleased (sample : Sample) (energy : EnergyOutcome) (duplicate : Bool)
      (mid late last c : CycleContext ω σ) (e : BleError) (hmid : Reached start .collecting mid)
      (hpersist : PersistStep k sample mid (.ok (energy, duplicate)) late)
      (hdeliver : Delivering k duplicate late last) (hreleased : Released last false c) :
      CycleSteps k start (.error (.disconnecting, .disconnect e)) c
  | done (sample : Sample) (energy : EnergyOutcome) (duplicate : Bool)
      (delivery : DeliveryStatus) (mid late last c : CycleContext ω σ)
      (hmid : Reached start .collecting mid)
      (hpersist : PersistStep k sample mid (.ok (energy, duplicate)) late)
      (hdeliver : Delivering k duplicate late last) (hreleased : Released last true c) :
      CycleSteps k start (.ok (.done (doneResult k sample energy duplicate delivery))) c

/-! ## The acquisition -/

variable {k : Collector ω σ} {start : CycleContext ω σ}

/-- How the acquisition fails: in one of its phases, with an error of a port. -/
def AcquireFailed (start : CycleContext ω σ) (e : CyclePhase × CycleError)
    (c : CycleContext ω σ) : Prop :=
  e.1.acquiring = true ∧ e.2.external = true ∧ Reached start e.1 c

theorem Reached.refl {p : CyclePhase} (h : start.state.current = p) : Reached start p start :=
  ⟨h, rfl, rfl, [], by simp, by simp⟩

theorem Reached.step {p q : CyclePhase} {c : CycleContext ω σ} (h : Reached start p c)
    (state : StateMachine) (hstate : state.current = q) (env : ω) (e : Event σ)
    (he : e.quiet = true) :
    Reached start q { c with state := state, env := env, trace := c.trace ++ [e] } := by
  obtain ⟨events, htrace, hquiet⟩ := h.trace
  refine ⟨hstate, h.store, h.health, events ++ [e], ?_, ?_⟩
  · simp [htrace]
  · intro e' he'
    rcases List.mem_append.mp he' with hmem | hmem
    · exact hquiet e' hmem
    · rwa [List.mem_singleton.mp hmem]

theorem Reached.withEnv {p : CyclePhase} {c : CycleContext ω σ} (h : Reached start p c)
    (env : ω) : Reached start p { c with env := env } :=
  ⟨h.current, h.store, h.health, h.trace⟩

section

variable {α β : Type} {p : CyclePhase} {R : β → CycleContext ω σ → Prop}

theorem acquire_goto {q : CyclePhase} {rest : Unit → Cycle ω σ (CyclePhase × CycleError) β}
    (hlegal : p.canTransitionTo q = true)
    (hrest : Triple (Reached start q) (rest ()) R (AcquireFailed start)) :
    Triple (Reached start p) (gotoPhase q >>= rest) R (AcquireFailed start) := by
  apply Triple.bind (Q := fun _ => Reached start q) _ (fun _ => hrest)
  apply Triple.bind (Q := fun r c => r = .ok () ∧ Reached start q c)
  · apply goto_rule
    · intro c hc
      rw [hc.current]
      exact hlegal
    · intro c n hc
      exact ⟨rfl, hc.step ⟨q, n⟩ rfl c.env _ rfl⟩
  · rintro result
    apply mapErr_rule
    · rintro a c ⟨-, hc⟩ -
      exact hc
    · rintro e c ⟨hok, -⟩ he
      rw [hok] at he
      cases he

theorem acquire_mapErr {ε' : Type} {err : ε' → CycleError} {result : Except ε' α}
    {rest : α → Cycle ω σ (CyclePhase × CycleError) β} (hp : p.acquiring = true)
    (herr : ∀ e, (err e).external = true)
    (hrest : ∀ a, Triple (Reached start p) (rest a) R (AcquireFailed start)) :
    Triple (Reached start p) (mapErr (fun e => (p, err e)) result >>= rest) R
      (AcquireFailed start) := by
  apply Triple.bind (Q := fun _ => Reached start p) _ hrest
  apply mapErr_rule
  · intro a c hc _
    exact hc
  · intro e c hc _
    exact ⟨hp, herr e, hc⟩

theorem acquire_phase {call : BleCall} {op : Duration → ω → Timed α × ω}
    {rest : Except BleError α → Cycle ω σ (CyclePhase × CycleError) β}
    (hrest : ∀ r, Triple (Reached start p) (rest r) R (AcquireFailed start)) :
    Triple (Reached start p) (phase k call op >>= rest) R (AcquireFailed start) := by
  apply Triple.bind (Q := fun _ => Reached start p) _ hrest
  apply phase_rule
  intro c a env hc
  exact hc.step c.state hc.current env _ rfl

theorem acquire_onEnv {f : ω → α × ω} {rest : α → Cycle ω σ (CyclePhase × CycleError) β}
    (hrest : ∀ a, Triple (Reached start p) (rest a) R (AcquireFailed start)) :
    Triple (Reached start p) (onEnv f >>= rest) R (AcquireFailed start) := by
  apply Triple.bind (Q := fun _ => Reached start p) _ hrest
  exact onEnv_rule fun c _ env hc => hc.withEnv env

end

/-- Each phase of the acquisition is entered from the one before it. -/
theorem acquire_steps : Triple (Reached start .idle) (acquire k)
    (fun _ => Reached start .collecting) (AcquireFailed start) := by
  unfold acquire
  refine acquire_goto (by decide) ?_
  refine acquire_phase fun r => acquire_mapErr (by decide) (fun _ => rfl) fun _ => ?_
  refine acquire_goto (by decide) ?_
  refine acquire_phase fun r => acquire_mapErr (by decide) (fun _ => rfl) fun _ => ?_
  refine acquire_goto (by decide) ?_
  refine acquire_onEnv fun vregs => ?_
  refine acquire_onEnv fun r => acquire_mapErr (by decide) (fun _ => rfl) fun plan => ?_
  refine acquire_phase fun r => acquire_mapErr (by decide) (fun _ => rfl) fun _ => ?_
  refine acquire_goto (by decide) ?_
  refine acquire_phase fun r => acquire_mapErr (by decide) (fun _ => rfl) fun _ => ?_
  refine acquire_goto (by decide) ?_
  refine acquire_phase fun r => acquire_mapErr (by decide) (fun _ => rfl) fun raw => ?_
  refine acquire_goto (by decide) ?_
  refine acquire_onEnv fun r => acquire_mapErr (by decide) (fun _ => rfl) fun values => ?_
  refine acquire_onEnv fun r => acquire_mapErr (by decide) (fun _ => rfl) fun sample => ?_
  split
  · exact Triple.throw fun c hc => ⟨by decide, rfl, hc⟩
  · exact Triple.pure fun c hc => hc

/-! ## The durable step -/

theorem exec_gotoPhase {p : CyclePhase} (c : CycleContext ω σ)
    (hlegal : c.state.current.canTransitionTo p = true) :
    exec (gotoPhase p : Cycle ω σ (CyclePhase × CycleError) Unit) c =
      (.ok (), { c with
        state := ⟨p, c.state.transitions + 1⟩, trace := c.trace ++ [.phase p c.store] }) := by
  have hgoto : exec (goto p : Cycle ω σ (CyclePhase × CycleError) _) c =
      (.ok (.ok ()), { c with
        state := ⟨p, c.state.transitions + 1⟩, trace := c.trace ++ [.phase p c.store] }) := by
    unfold goto
    rw [exec_ofFun, StateMachine.transition_ok hlegal]
  unfold gotoPhase
  rw [exec_bind_ok hgoto, exec_mapErr_ok _ rfl]

/-- The part of `persist` after the two reads: refused before the commit, or committed. -/
theorem commitSample_cases (sample : Sample) (prev : Option EnergyState) (energy : EnergyOutcome)
    (c : CycleContext ω σ) :
    (∃ e c', exec (commitSample k sample prev energy) c = (.error (.persisting, e), c') ∧
        e.external = true ∧ c'.state = c.state ∧ c'.health = c.health ∧ c'.trace = c.trace ∧
        Relation.ReflTransGen (ReadStep k.ports.storage) c.store c'.store) ∨
      ∃ now now' spool before payload env result after c',
        k.ports.storage.spoolHealth now c.store = (.ok spool, before) ∧
        (k.ports.render (renderContext k sample energy spool now' c.health) env).1 = .ok payload ∧
        k.ports.storage.commitAcquisition (acquisitionCommit k sample prev energy payload) before =
          (result, after) ∧
        exec (commitSample k sample prev energy) c = (commitResult energy result, c') ∧
        c'.state = c.state ∧ c'.health = commitHealth energy result c.health ∧ c'.store = after ∧
        c'.trace = c.trace ++
          [.commit energy (acquisitionCommit k sample prev energy payload) result] := by
  unfold commitSample
  rw [exec_bind_ok (exec_onEnv _ _), exec_bind_ok (exec_onStore _ _)]
  dsimp only
  have hread : Relation.ReflTransGen (ReadStep k.ports.storage) c.store
      (k.ports.storage.spoolHealth (k.ports.now c.env).1 c.store).2 :=
    .single (.spoolHealth _)
  rcases hspool : k.ports.storage.spoolHealth (k.ports.now c.env).1 c.store with ⟨r, before⟩
  rw [hspool] at hread
  rcases r with e | spool
  · rw [exec_bind_error (exec_mapErr_error _ rfl _)]
    exact .inl ⟨_, _, rfl, rfl, rfl, rfl, rfl, hread⟩
  rw [exec_bind_ok (exec_mapErr_ok _ rfl _), exec_bind_ok (exec_onEnv _ _),
    exec_bind_ok (exec_get _), exec_bind_ok (exec_onEnv _ _)]
  dsimp only
  generalize hnow : k.ports.now (k.ports.now c.env).2 = now'
  cases hrender : (k.ports.render (renderContext k sample energy spool now'.1 c.health) now'.2).1 with
  | error e =>
      rw [exec_bind_error (exec_mapErr_error _ rfl _)]
      exact .inl ⟨_, _, rfl, rfl, rfl, rfl, rfl, hread⟩
  | ok payload =>
      right
      rw [exec_bind_ok (exec_mapErr_ok _ rfl _), exec_bind_ok (exec_onStore _ _)]
      dsimp only
      rcases hcommit : k.ports.storage.commitAcquisition
        (acquisitionCommit k sample prev energy payload) before with ⟨result, after⟩
      refine ⟨(k.ports.now c.env).1, now'.1, spool, before, payload, now'.2, result, after, ?_⟩
      unfold record
      rw [exec_bind_ok (exec_modify _ _)]
      dsimp only
      rcases result with e | _ | _
      · rw [exec_bind_error (exec_mapErr_error _ rfl _)]
        exact ⟨_, hspool, hrender, hcommit, rfl, rfl, rfl, rfl, rfl⟩
      · rw [exec_bind_ok (exec_mapErr_ok _ rfl _)]
        exact ⟨_, hspool, hrender, hcommit, rfl, rfl, rfl, rfl, rfl⟩
      · rw [exec_bind_ok (exec_mapErr_ok _ rfl _)]
        exact ⟨_, hspool, hrender, hcommit, rfl, rfl, rfl, rfl, rfl⟩

theorem persist_steps (sample : Sample) (c : CycleContext ω σ)
    (hc : c.state.current = .collecting) :
    PersistStep k sample c (exec (persist k sample) c).1 (exec (persist k sample) c).2 := by
  have hgoto := exec_gotoPhase (p := .persisting) c (by rw [hc]; decide)
  unfold persist
  rw [exec_bind_ok hgoto]
  by_cases hepoch : sample.observedAt ≤ SystemTime.unixEpoch
  · rw [if_pos hepoch]
    exact .refused _ _ rfl rfl rfl .refl rfl
  rw [if_neg hepoch, exec_bind_ok (exec_onStore _ _)]
  -- the read of the energy state
  have hread₁ : Relation.ReflTransGen (ReadStep k.ports.storage) c.store
      (k.ports.storage.energyState c.store).2 :=
    .single .energyState
  rcases hprev : (k.ports.storage.energyState c.store).1 with e | prev
  · rw [exec_bind_error (exec_mapErr_error _ rfl _)]
    exact .refused _ _ rfl rfl rfl hread₁ rfl
  rw [exec_bind_ok (exec_mapErr_ok _ rfl _)]
  dsimp only
  rw [exec_bind_ok (exec_onStore _ _)]
  -- the read of the acquisition identity
  have hread₂ : Relation.ReflTransGen (ReadStep k.ports.storage) c.store
      (k.ports.storage.lastSuccess (k.ports.storage.energyState c.store).2).2 :=
    hread₁.tail .lastSuccess
  rcases hsuccess : (k.ports.storage.lastSuccess (k.ports.storage.energyState c.store).2).1
    with e | success
  · rw [exec_bind_error (exec_mapErr_error _ rfl _)]
    exact .refused _ _ rfl rfl rfl hread₂ rfl
  rw [exec_bind_ok (exec_mapErr_ok _ rfl _)]
  by_cases hdup : success.any (fun ls => decide (sample.observedAt ≤ ls)) = true
  · rw [if_pos hdup]
    rw [Option.any_eq_true] at hdup
    obtain ⟨ls, rfl, hle⟩ := hdup
    exact .duplicate prev ls _ hprev hsuccess (by simpa using hle) rfl rfl rfl rfl
  rw [if_neg hdup]
  have hnewer : ∀ ls ∈ success, ls < sample.observedAt := by
    intro ls hls
    simp only [Option.mem_def] at hls
    simpa [hls] using hdup
  rcases commitSample_cases (k := k) sample prev (k.energy.apply prev sample)
    { c with
      state := ⟨.persisting, c.state.transitions + 1⟩
      trace := c.trace ++ [.phase .persisting c.store]
      store := (k.ports.storage.lastSuccess (k.ports.storage.energyState c.store).2).2 } with
    ⟨e, c', hexec, he, hstate, hhealth, htrace, hreads⟩ |
    ⟨now, now', spool, before, payload, env, result, after, c', hspool, hpayload, hcommit, hexec,
      hstate, hhealth, hstore, htrace⟩
  · rw [hexec]
    exact .refused e c' he (by rw [hstate]) hhealth (hread₂.trans hreads) htrace
  · rw [hexec]
    exact .commit prev success now now' spool payload env c' (lt_of_not_ge hepoch) hprev hsuccess
      hnewer before hspool hpayload result after hcommit (by rw [hstate]) hhealth hstore
      (by rw [htrace, List.append_assoc]; rfl)

/-- The durable step leaves the machine in `Persisting`. -/
theorem PersistStep.current {sample : Sample}
    {r : Except (CyclePhase × CycleError) (EnergyOutcome × Bool)} {c : CycleContext ω σ}
    (h : PersistStep k sample start r c) : c.state.current = .persisting := by
  cases h with
  | refused => assumption
  | duplicate => assumption
  | commit => assumption

/-! ## Delivery and release -/

theorem SpoolWork.refl (c : CycleContext ω σ) : SpoolWork k c c :=
  ⟨rfl, .refl, rfl, [], by simp, by simp⟩

/-- What spool work has not changed, it cannot change in the next step either. -/
theorem SpoolWork.invariant (c₀ : CycleContext ω σ) : SpoolInvariant k (SpoolWork k c₀) where
  env _ _ h := ⟨h.state, h.store, h.gap, h.trace⟩
  store _ _ h hstep := ⟨h.state, h.store.tail hstep, h.gap, h.trace⟩
  delivery c ok h := ⟨h.state, h.store, by simp [h.gap], h.trace⟩
  dropped c h := ⟨h.state, h.store, by simp [h.gap], h.trace⟩
  progress c h := by
    obtain ⟨events, htrace, hevents⟩ := h.trace
    refine ⟨h.state, h.store, h.gap, events ++ [.progress .delivering], by simp [htrace], ?_⟩
    intro e he
    rcases List.mem_append.mp he with hmem | hmem
    · exact hevents e hmem
    · exact .inl (List.mem_singleton.mp hmem)
  deliver c payload h := by
    obtain ⟨events, htrace, hevents⟩ := h.trace
    refine ⟨h.state, h.store, h.gap, events ++ [.deliver payload], by simp [htrace], ?_⟩
    intro e he
    rcases List.mem_append.mp he with hmem | hmem
    · exact hevents e hmem
    · exact .inr ⟨payload, List.mem_singleton.mp hmem⟩

/-- The delivery step never fails, and leaves the machine where it may disconnect. -/
theorem deliverFresh_steps (duplicate : Bool) (late : CycleContext ω σ)
    (hlate : late.state.current = .persisting) :
    Triple (fun c => ∃ env, c = { late with env := env }) (deliverFresh k duplicate)
      (fun _ c => Delivering k duplicate late c ∧
        c.state.current.canTransitionTo .disconnecting = true)
      (fun _ _ => False) := by
  rintro _ ⟨env, rfl⟩
  unfold deliverFresh Delivering
  cases duplicate with
  | true => exact ⟨⟨rfl, rfl, rfl, rfl⟩, by rw [hlate]; decide⟩
  | false =>
      have hgoto := exec_gotoPhase (p := .delivering) { late with env := env }
        (by rw [hlate]; decide)
      rw [if_neg (by decide), exec_bind_ok hgoto]
      generalize hstart : ({ late with
          env := env, state := ⟨.delivering, late.state.transitions + 1⟩,
          trace := late.trace ++ [.phase .delivering late.store] } : CycleContext ω σ) = start
      have hpre : ∀ c, c = start → SpoolWork k start c := by
        rintro c rfl
        exact .refl c
      refine Triple.conseq (P := SpoolWork k start) (Q := fun _ => SpoolWork k start)
        (E := fun _ _ => False) ?_ hpre ?_ (fun _ _ h => h) start rfl
      · have hinv := SpoolWork.invariant (k := k) start
        apply Triple.bind (Q := fun _ => SpoolWork k start)
        · exact onEnv_rule fun c _ env hc => hinv.env c env hc
        intro now
        apply Triple.bind (Q := fun _ => SpoolWork k start)
        · exact onStore_rule fun c hc => hinv.store c _ hc (.claim _ now)
        intro claimed
        rcases claimed with e | _ | claim
        · exact Triple.pure fun _ hc => hc
        · exact Triple.pure fun _ hc => hc
        · exact hinv.deliverClaim claim
      intro _ c hc
      refine ⟨?_, ?_⟩
      · simp only [Bool.false_eq_true, if_false]
        exact ⟨late.state.transitions + 1, env, hstart ▸ hc⟩
      · rw [hc.state, ← hstart]
        rfl

theorem release_steps (last : CycleContext ω σ)
    (hlast : last.state.current.canTransitionTo .disconnecting = true) :
    Triple (fun c => c = last) (release k) (fun _ c => Released last true c)
      (fun e c => (∃ error, e = (.disconnecting, .disconnect error)) ∧ Released last false c) := by
  rintro c hc
  rw [hc]
  unfold release
  rw [exec_bind_ok (exec_gotoPhase _ hlast), exec_bind_ok (exec_phase _ _ _ _)]
  dsimp only
  cases (Option.getD _ _ : Except BleError Unit) with
  | error e =>
      rw [exec_bind_error (exec_mapErr_error _ rfl _)]
      exact ⟨⟨e, rfl⟩, rfl, rfl, rfl, by simp⟩
  | ok u =>
      rw [exec_bind_ok (exec_mapErr_ok _ rfl _), exec_gotoPhase _ (by rfl)]
      exact ⟨rfl, rfl, rfl, by simp⟩

/-- **The list is complete**: every walk from `Idle` ends in one of the ways of `CycleSteps`. -/
theorem cycleStates_steps (hidle : start.state.current = .idle) :
    CycleSteps k start (exec (cycleStates k) start).1 (exec (cycleStates k) start).2 := by
  apply Triple.to_exec (P := Reached start .idle) (Reached.refl hidle)
  apply Triple.bind (Q := fun _ => Reached start .collecting)
  · exact acquire_steps.conseq (fun _ h => h) (fun _ _ h => h)
      fun e c h => .stopped e.1 e.2 c h.1 h.2.1 h.2.2
  intro sample
  apply Triple.of_state
  intro mid hmid
  apply Triple.bind (Q := fun r c => PersistStep k sample mid (.ok r) c)
  · apply (Triple.of_exec (S := PersistStep k sample mid) _).conseq (fun _ h => h)
      (fun _ _ h => h) (fun e c h => .refused sample e.1 e.2 mid c hmid h)
    rintro _ rfl
    exact persist_steps sample _ hmid.current
  rintro ⟨energy, duplicate⟩
  apply Triple.of_state
  intro late hlate
  apply Triple.bind (Q := fun _ c => ∃ env, c = { late with env := env })
  · apply onEnv_rule
    rintro _ a env rfl
    exact ⟨env, rfl⟩
  intro stop
  cases stop with
  | true =>
      apply Triple.pure
      rintro _ ⟨env, rfl⟩
      exact .interrupted sample energy duplicate mid late env hmid hlate
  | false =>
      apply Triple.bind
      · exact (deliverFresh_steps duplicate late hlate.current).conseq (fun _ h => h)
          (fun _ _ h => h) (fun _ _ h => h.elim)
      intro delivery
      apply Triple.of_state
      rintro last ⟨hdeliver, hlast⟩
      apply Triple.bind
      · apply (release_steps last hlast).conseq (fun _ h => h) (fun _ _ h => h)
        rintro _ c ⟨⟨e, rfl⟩, hreleased⟩
        exact .unreleased sample energy duplicate mid late last c e hmid hlate hdeliver hreleased
      intro _
      apply Triple.pure
      intro c hreleased
      exact .done sample energy duplicate delivery mid late last c hmid hlate hdeliver hreleased

end

end VeSmart.Service
