import VeSmart.Service.Commits
import VeSmart.Service.Runner

set_option autoImplicit false

/-! # What a cycle leaves to the loop that runs it

A cycle is its steps up to the durable one (`durable`), the test for shutdown and the steps after
(`conclude`). `CycleEnds` lists its outcomes by the results of the two, with the commits and
the time of the last success that they leave behind. The loop learns of a commit from the outcome
alone, so what it remembers depends on whether the two agree (`Agrees`). -/

namespace VeSmart.Service

open VeSmart.Lib VeSmart.Domain

section

variable {ω σ ε : Type}

/-! ## The two halves of a cycle -/

/-- The steps up to the durable one. -/
def durable (k : Collector ω σ) :
    Cycle ω σ (CyclePhase × CycleError) (Sample × EnergyOutcome × Bool) := do
  let sample ← acquire k
  let (energy, duplicate) ← persist k sample
  pure (sample, energy, duplicate)

/-- The steps after the durable one. -/
def conclude (k : Collector ω σ) (duplicate : Bool) :
    Cycle ω σ (CyclePhase × CycleError) DeliveryStatus := do
  let delivery ← deliverFresh k duplicate
  release k
  pure delivery

theorem cycleStates_halves (k : Collector ω σ) : cycleStates k = (do
    let (sample, energy, duplicate) ← durable k
    if ← onEnv k.ports.shutdownRequested then pure (.shutdown .delivering sample)
    else do
      let delivery ← conclude k duplicate
      pure (.done (doneResult k sample energy duplicate delivery))) := by
  unfold cycleStates durable conclude doneResult
  simp only [bind_assoc, pure_bind]

variable {k : Collector ω σ} {start mid c : CycleContext ω σ} {α ε' : Type}

/-! ## What the steps around the durable one cannot break -/

/-- A property of contexts that spool work keeps, and so does every step that changes the state
machine and adds an event other than a commit. -/
structure StepInvariant (k : Collector ω σ) (I : CycleContext ω σ → Prop) : Prop
    extends SpoolInvariant k I where
  moved : ∀ c state e, I c → e.isCommit = false →
    I { c with state := state, trace := c.trace ++ [e] }

variable {I : CycleContext ω σ → Prop}

theorem mapErr_keeps {f : ε' → ε} (result : Except ε' α) :
    Triple I (mapErr f result : Cycle ω σ ε α) (fun _ => I) (fun _ => I) :=
  mapErr_rule (fun _ _ hc _ => hc) (fun _ _ hc _ => hc)

/-- A transition, legal or not. -/
theorem StepInvariant.goto (h : StepInvariant k I) (p : CyclePhase)
    {E : ε → CycleContext ω σ → Prop} : Triple I (Service.goto p) (fun _ => I) E := by
  intro c hc
  unfold Service.goto
  rw [exec_ofFun]
  cases c.state.transition p with
  | error e => exact hc
  | ok state => exact h.moved c state _ hc rfl

theorem StepInvariant.enter (h : StepInvariant k I) (p : CyclePhase)
    (f : StateTransitionError → ε) :
    Triple I (do mapErr f (← Service.goto p) : Cycle ω σ ε Unit) (fun _ => I) (fun _ => I) :=
  Triple.bind (h.goto p) mapErr_keeps

theorem StepInvariant.onEnv (h : StepInvariant k I) (f : ω → α × ω)
    {E : ε → CycleContext ω σ → Prop} : Triple I (Service.onEnv f) (fun _ => I) E :=
  onEnv_rule fun c _ env hc => h.env c env hc

theorem StepInvariant.callBle (h : StepInvariant k I) {call : BleCall}
    {op : Duration → ω → Timed α × ω} {E : ε → CycleContext ω σ → Prop} :
    Triple I (Service.callBle k call op) (fun _ => I) E :=
  callBle_rule fun c _ env hc => h.env _ env (h.moved c c.state _ hc rfl)

theorem StepInvariant.deliverFresh (h : StepInvariant k I) (duplicate : Bool) :
    Triple I (Service.deliverFresh k duplicate) (fun _ => I) (fun _ => I) := by
  unfold Service.deliverFresh
  split
  · exact Triple.pure fun _ hc => hc
  apply Triple.bind (h.enter .delivering _)
  intro _
  apply Triple.bind (h.onEnv _)
  intro now
  apply Triple.bind (Q := fun _ => I)
  · exact onStore_rule fun c hc => h.store c _ hc (.claim _ now)
  intro claimed
  rcases claimed with e | _ | claim
  · exact Triple.pure fun _ hc => hc
  · exact Triple.pure fun _ hc => hc
  · exact h.deliverClaim claim

theorem StepInvariant.release (h : StepInvariant k I) :
    Triple I (Service.release k) (fun _ => I) (fun _ => I) := by
  apply Triple.bind (h.enter .disconnecting _)
  intro _
  apply Triple.bind (Q := fun _ => I)
  · exact phase_rule fun c _ env hc => h.env _ env (h.moved c c.state _ hc rfl)
  intro result
  apply Triple.bind (mapErr_keeps result)
  intro _
  exact h.enter .idle _

theorem StepInvariant.reportProgress (h : StepInvariant k I) :
    Triple I (Service.reportProgress : Cycle ω σ RunError Unit) (fun _ => I) (fun _ => I) := by
  apply Triple.getThen
  intro c hc
  apply record_rule
  rintro c rfl
  exact h.moved c c.state _ hc rfl

theorem StepInvariant.enterIdle (h : StepInvariant k I) :
    Triple I
      (do if (← get).state.current = .idle then pure () else gotoIdle : Cycle ω σ RunError Unit)
      (fun _ => I) (fun _ => I) := by
  apply Triple.getThen
  intro c hc
  split
  · apply Triple.pure
    rintro _ rfl
    exact hc
  · apply Triple.conseq (h.enter .idle _) _ (fun _ _ h => h) (fun _ _ h => h)
    rintro _ rfl
    exact hc

theorem StepInvariant.disconnectForShutdown (h : StepInvariant k I) :
    Triple I (Service.disconnectForShutdown k) (fun _ => I) (fun _ => I) := by
  apply Triple.bind (Q := fun _ => I)
  · exact record_rule fun c hc => h.moved c c.state _ hc rfl
  intro _
  apply Triple.bind h.callBle
  intro _
  exact Triple.pure fun _ hc => hc

theorem StepInvariant.gotoIdleOrShutdown (h : StepInvariant k I) :
    Triple I (Service.gotoIdleOrShutdown : Cycle ω σ RunError Unit) (fun _ => I) (fun _ => I) := by
  apply Triple.getThen
  intro c hc
  split
  · apply Triple.pure
    rintro _ rfl
    exact hc
  · apply Triple.conseq (h.enter .shuttingDown _) _ (fun _ _ h => h) (fun _ _ h => h)
    rintro _ rfl
    exact hc

/-! ## Commits and the last success -/

/-- The time of the last success, and the commits so far, are those of `start`. -/
structure Unremarked (start c : CycleContext ω σ) : Prop where
  commits : committedCycles c.trace = committedCycles start.trace
  success : c.health.lastSuccess = start.health.lastSuccess

theorem Unremarked.refl (c : CycleContext ω σ) : Unremarked c c := ⟨rfl, rfl⟩

theorem Unremarked.trans (h₁ : Unremarked start mid) (h₂ : Unremarked mid c) :
    Unremarked start c :=
  ⟨h₂.commits.trans h₁.commits, h₂.success.trans h₁.success⟩

/-- An event that is no commit changes neither. -/
theorem Unremarked.event (h : Unremarked start c) {e : Event σ} (he : e.isCommit = false) :
    Unremarked start { c with trace := c.trace ++ [e] } := by
  have hnone : committedCycles [e] = [] := committedCycles_none (by simpa using he)
  refine ⟨?_, h.success⟩
  calc committedCycles (c.trace ++ [e])
      = committedCycles c.trace ++ committedCycles [e] := committedCycles_append _ _
    _ = committedCycles start.trace := by rw [hnone, List.append_nil, h.commits]

theorem Unwritten.unremarked (h : Unwritten k start c)
    (hsuccess : c.health.lastSuccess = start.health.lastSuccess) : Unremarked start c :=
  ⟨h.committed, hsuccess⟩

/-- The steps around the durable one change neither. -/
theorem unremarkedInvariant (start : CycleContext ω σ) :
    StepInvariant k (Unremarked start) where
  env _ _ h := ⟨h.commits, h.success⟩
  store _ _ h _ := ⟨h.commits, h.success⟩
  delivery _ ok h := ⟨h.commits, by cases ok <;> exact h.success⟩
  dropped _ h := ⟨h.commits, h.success⟩
  progress _ h := h.event rfl
  deliver _ _ h := h.event rfl
  moved _ _ _ h he := ⟨(h.event he).commits, h.success⟩

theorem recordFailureHealth_lastSuccess (e : CycleError) (h : HealthSnapshot) :
    (recordFailureHealth e h).lastSuccess = h.lastSuccess := by
  cases e <;> rfl

theorem TornDown.unremarked (k : Collector ω σ) {p : CyclePhase} (h : TornDown start p c) :
    Unremarked start c :=
  h.unwritten.unremarked (k := k) (by rw [h.health])

/-! ## The durable half -/

/-- What the result of `persist` says about the commits. -/
def Remarked (sample : Sample) (start c : CycleContext ω σ) :
    Except (CyclePhase × CycleError) (EnergyOutcome × Bool) → Prop
  | .ok (_, false) => ∃ cycle : CommittedCycle, cycle.commit.observedAt = sample.observedAt ∧
      committedCycles c.trace = committedCycles start.trace ++ [cycle]
  | _ => committedCycles c.trace = committedCycles start.trace

theorem PersistStep.remarked {sample : Sample}
    {r : Except (CyclePhase × CycleError) (EnergyOutcome × Bool)}
    (h : PersistStep k sample start r c) :
    c.health.lastSuccess = start.health.lastSuccess ∧ Remarked sample start c r := by
  cases h with
  | refused e _ _ _ hhealth _ htrace =>
      refine ⟨by rw [hhealth], ?_⟩
      show committedCycles c.trace = _
      rw [htrace, committedCycles_append]
      exact List.append_nil _
  | duplicate prev success _ _ _ _ _ hhealth _ htrace =>
      refine ⟨by rw [hhealth], ?_⟩
      show committedCycles c.trace = _
      rw [htrace, committedCycles_append]
      exact List.append_nil _
  | commit prev success now now' spool payload env _ _ _ _ _ before _ _ result after _ _ hhealth _
      htrace =>
      have hsuccess : c.health.lastSuccess = start.health.lastSuccess := by
        rw [hhealth]
        unfold commitHealth
        split
        · cases (k.energy.apply prev sample).skippedGapSeconds <;> rfl
        · rfl
      refine ⟨hsuccess, ?_⟩
      rcases result with e | _ | _
      · show committedCycles c.trace = _
        rw [htrace, committedCycles_append]
        exact List.append_nil _
      · refine ⟨⟨k.energy.apply prev sample,
          acquisitionCommit k sample prev (k.energy.apply prev sample) payload⟩, rfl, ?_⟩
        rw [htrace, committedCycles_append]
        rfl
      · show committedCycles c.trace = _
        rw [htrace, committedCycles_append]
        exact List.append_nil _

/-- How the durable half ends. -/
inductive DurableEnds (k : Collector ω σ) (start : CycleContext ω σ) :
    Except (CyclePhase × CycleError) (Sample × EnergyOutcome × Bool) → CycleContext ω σ → Prop
  /-- No sample: nothing is committed. -/
  | failed (p : CyclePhase) (e : CycleError) (c : CycleContext ω σ)
      (hlegal : c.state.current = .disconnecting ∨
        c.state.current.canTransitionTo .disconnecting = true)
      (hrest : Unremarked start c) : DurableEnds k start (.error (p, e)) c
  /-- The acquired sample is committed, unless it is a duplicate. -/
  | done (sample : Sample) (energy : EnergyOutcome) (duplicate : Bool) (c : CycleContext ω σ)
      (hcurrent : c.state.current = .persisting)
      (hacquired : (exec (acquire k) start).1 = .ok sample)
      (hsuccess : c.health.lastSuccess = start.health.lastSuccess)
      (hremarked : Remarked sample start c (.ok (energy, duplicate))) :
      DurableEnds k start (.ok (sample, energy, duplicate)) c

theorem durable_ends (hidle : start.state.current = .idle) :
    DurableEnds k start (exec (durable k) start).1 (exec (durable k) start).2 := by
  have hacquire : Triple (Reached start .idle) (acquire k) (fun _ => Reached start .collecting)
      (AcquireFailed start) :=
    acquire_steps
  unfold durable
  rcases hexec : exec (acquire k) start with ⟨e | sample, mid⟩
  · -- the acquisition fails
    rw [exec_bind_error hexec]
    obtain ⟨hp, he, hreached⟩ := hacquire.error (Reached.refl hidle) hexec
    refine .failed e.1 e.2 mid ?_ (hreached.unwritten.unremarked (k := k) (by rw [hreached.health]))
    exact (CycleSteps.stopped e.1 e.2 mid hp he hreached : CycleSteps k start _ _).error_legal
  rw [exec_bind_ok hexec]
  have hmid := hacquire.ok (Reached.refl hidle) hexec
  have hbefore : Unremarked start mid :=
    hmid.unwritten.unremarked (k := k) (by rw [hmid.health])
  have hpersist := persist_steps (k := k) sample mid hmid.current
  rcases hdone : exec (persist k sample) mid with ⟨e | ⟨energy, duplicate⟩, c⟩
  · rw [exec_bind_error hdone]
    rw [hdone] at hpersist
    obtain ⟨hsuccess, hremarked⟩ := hpersist.remarked
    refine .failed e.1 e.2 c (.inr (by rw [hpersist.current]; rfl)) (hbefore.trans ⟨?_, hsuccess⟩)
    exact hremarked
  · rw [exec_bind_ok hdone]
    rw [hdone] at hpersist
    obtain ⟨hsuccess, hremarked⟩ := hpersist.remarked
    refine .done sample energy duplicate c hpersist.current (by rw [hexec])
      (hsuccess.trans hbefore.success) ?_
    cases duplicate with
    | true => exact hremarked.trans hbefore.commits
    | false =>
        obtain ⟨cycle, hcycle, hcommits⟩ := hremarked
        exact ⟨cycle, hcycle, by rw [hcommits, hbefore.commits]⟩

/-! ## The half after it -/

/-- The session has answered in time, and without an error. -/
def acknowledged : Timed Unit → Bool
  | some (.ok _) => true
  | _ => false

/-- `finish_cycle`, called after the delivery step, releases the link. -/
def releases (k : Collector ω σ) (duplicate : Bool) (late : CycleContext ω σ) : Bool :=
  match exec (deliverFresh k duplicate) late with
  | (.ok _, last) => acknowledged (k.ports.ble.finishCycle k.config.phaseTimeout last.env).1
  | (.error _, _) => false

/-- The answer of the session decides how the release ends. -/
theorem release_answer (last : CycleContext ω σ)
    (hlast : last.state.current.canTransitionTo .disconnecting = true) :
    if acknowledged (k.ports.ble.finishCycle k.config.phaseTimeout last.env).1 then
      ∃ c, exec (release k) last = (.ok (), c)
    else ∃ e c, exec (release k) last = (.error (.disconnecting, .disconnect e), c) := by
  unfold release
  rw [exec_bind_ok (exec_gotoPhase _ hlast), exec_bind_ok (exec_phase _ _ _ _)]
  dsimp only
  rcases (k.ports.ble.finishCycle k.config.phaseTimeout last.env).1 with _ | e | u
  · exact ⟨_, _, exec_bind_error (exec_mapErr_error _ rfl _)⟩
  · exact ⟨_, _, exec_bind_error (exec_mapErr_error _ rfl _)⟩
  · dsimp only [Option.getD_some]
    rw [exec_bind_ok (exec_mapErr_ok _ rfl _), exec_gotoPhase _ (by rfl)]
    exact ⟨_, rfl⟩

/-- How the second half ends: well, exactly if the link is released. -/
inductive ConcludeEnds (k : Collector ω σ) (duplicate : Bool) (late : CycleContext ω σ) :
    Except (CyclePhase × CycleError) DeliveryStatus → CycleContext ω σ → Prop
  | failed (e : BleError) (c : CycleContext ω σ) (hrelease : releases k duplicate late = false)
      (hcurrent : c.state.current = .disconnecting) (hrest : Unremarked late c) :
      ConcludeEnds k duplicate late (.error (.disconnecting, .disconnect e)) c
  | done (delivery : DeliveryStatus) (c : CycleContext ω σ)
      (hrelease : releases k duplicate late = true) (hrest : Unremarked late c) :
      ConcludeEnds k duplicate late (.ok delivery) c

theorem conclude_ends (duplicate : Bool) (late : CycleContext ω σ)
    (hlate : late.state.current = .persisting) :
    ConcludeEnds k duplicate late (exec (conclude k duplicate) late).1
      (exec (conclude k duplicate) late).2 := by
  have hsteps := deliverFresh_steps (k := k) duplicate late hlate
  have hkept := (unremarkedInvariant (k := k) late).deliverFresh duplicate
  unfold conclude
  rcases hdeliver : exec (deliverFresh k duplicate) late with ⟨e | delivery, last⟩
  · exact (hsteps.error ⟨late.env, rfl⟩ hdeliver).elim
  have hlast : Unremarked late last := hkept.ok (.refl late) hdeliver
  obtain ⟨-, hlegal⟩ := hsteps.ok ⟨late.env, rfl⟩ hdeliver
  have hrelease := release_steps (k := k) last hlegal
  have hanswer := release_answer (k := k) last hlegal
  have hreleases : releases k duplicate late =
      acknowledged (k.ports.ble.finishCycle k.config.phaseTimeout last.env).1 := by
    unfold releases
    rw [hdeliver]
  rw [exec_bind_ok hdeliver]
  by_cases hacknowledged : releases k duplicate late = true
  · rw [← hreleases, if_pos hacknowledged] at hanswer
    obtain ⟨c, hexec⟩ := hanswer
    have hreleased := hrelease.ok rfl hexec
    rw [exec_bind_ok hexec]
    exact .done delivery c hacknowledged
      (hlast.trans (hreleased.unwritten.unremarked (k := k) (by rw [hreleased.health])))
  · rw [← hreleases, if_neg hacknowledged] at hanswer
    obtain ⟨e, c, hexec⟩ := hanswer
    obtain ⟨-, hreleased⟩ := hrelease.error rfl hexec
    rw [exec_bind_error hexec]
    exact .failed e c (by simpa using hacknowledged) hreleased.current
      (hlast.trans (hreleased.unwritten.unremarked (k := k) (by rw [hreleased.health])))

/-! ## The cycle -/

/-- **How a cycle ends**, by the results of its two halves. -/
inductive CycleEnds (k : Collector ω σ) (start : CycleContext ω σ) :
    CycleOutcome → CycleContext ω σ → Prop
  | undurable (p : CyclePhase) (e : CycleError) (late c : CycleContext ω σ)
      (hdurable : exec (durable k) start = (.error (p, e), late)) (hrest : Unremarked late c) :
      CycleEnds k start (.failure p e) c
  | interrupted (sample : Sample) (energy : EnergyOutcome) (duplicate : Bool)
      (late c : CycleContext ω σ)
      (hdurable : exec (durable k) start = (.ok (sample, energy, duplicate), late))
      (hstop : (k.ports.shutdownRequested late.env).1 = true) (hrest : Unremarked late c) :
      CycleEnds k start (.shutdownGraceful .delivering sample) c
  | unreleased (sample : Sample) (energy : EnergyOutcome) (duplicate : Bool) (e : BleError)
      (late c : CycleContext ω σ)
      (hdurable : exec (durable k) start = (.ok (sample, energy, duplicate), late))
      (hstop : (k.ports.shutdownRequested late.env).1 = false)
      (hrelease : releases k duplicate
        { late with env := (k.ports.shutdownRequested late.env).2 } = false)
      (hrest : Unremarked late c) :
      CycleEnds k start (.failure .disconnecting (.disconnect e)) c
  | released (sample : Sample) (energy : EnergyOutcome) (duplicate : Bool)
      (delivery : DeliveryStatus) (late c : CycleContext ω σ)
      (hdurable : exec (durable k) start = (.ok (sample, energy, duplicate), late))
      (hstop : (k.ports.shutdownRequested late.env).1 = false)
      (hrelease : releases k duplicate
        { late with env := (k.ports.shutdownRequested late.env).2 } = true)
      (hrest : Unremarked late c) :
      CycleEnds k start (.success (doneResult k sample energy duplicate delivery)) c

/-- A failed walk is torn down, with the commits it has reached. -/
theorem finishFailed_ends (p : CyclePhase) (e : CycleError) {stop : CycleContext ω σ}
    (hlegal : stop.state.current = .disconnecting ∨
      stop.state.current.canTransitionTo .disconnecting = true) :
    ∃ c, exec (finishFailed k p e : Cycle ω σ ε CycleOutcome) stop = (.ok (.failure p e), c) ∧
      Unremarked stop c := by
  obtain ⟨c, hdown, htorn⟩ := teardownAfterFailure_steps (k := k)
    { stop with health := recordFailureHealth e stop.health } hlegal
  have hrest := htorn.unremarked k
  refine ⟨c, ?_, hrest.commits, hrest.success.trans (recordFailureHealth_lastSuccess e _)⟩
  unfold finishFailed updateHealth
  rw [exec_bind_ok (exec_modify _ _), exec_bind_ok (exec_attempt _ _), hdown]
  rfl

theorem runCycle_ends {outcome : CycleOutcome} (hidle : start.state.current = .idle)
    (hexec : exec (runCycle k : Cycle ω σ ε CycleOutcome) start = (.ok outcome, c)) :
    CycleEnds k start outcome c := by
  have hends := durable_ends (k := k) hidle
  unfold runCycle at hexec
  rw [exec_bind_ok (exec_attempt _ _), cycleStates_halves] at hexec
  rcases hdurable : exec (durable k) start with ⟨⟨p, e⟩ | ⟨sample, energy, duplicate⟩, late⟩
  · rw [hdurable] at hends
    rw [exec_bind_error hdurable] at hexec
    cases hends with
    | failed _ _ _ hlegal _ =>
        obtain ⟨c', hfailed, hrest'⟩ := finishFailed_ends (k := k) (ε := ε) p e hlegal
        cases hfailed.symm.trans hexec
        exact .undurable p e late _ hdurable hrest'
  rw [hdurable] at hends
  have hcurrent : late.state.current = .persisting := by
    cases hends with
    | done _ _ _ _ hcurrent => exact hcurrent
  rw [exec_bind_ok hdurable] at hexec
  dsimp only at hexec
  rw [exec_bind_ok (exec_onEnv _ _)] at hexec
  have henv : ∀ {stop : CycleContext ω σ} {env : ω}, Unremarked { late with env := env } stop →
      Unremarked late stop := fun h => ⟨h.commits, h.success⟩
  cases hstop : (k.ports.shutdownRequested late.env).1 with
  | true =>
      rw [hstop, if_pos rfl] at hexec
      obtain ⟨c', hdown, htorn⟩ := teardownToShutdown_steps (k := k)
        { late with env := (k.ports.shutdownRequested late.env).2 } (by rw [hcurrent]; rfl)
      have hgraceful : exec (finishGracefully k .delivering sample : Cycle ω σ ε CycleOutcome)
          { late with env := (k.ports.shutdownRequested late.env).2 } =
            (.ok (.shutdownGraceful .delivering sample), c') := by
        unfold finishGracefully
        rw [exec_bind_ok (exec_attempt _ _), hdown]
        rfl
      cases hgraceful.symm.trans hexec
      exact .interrupted sample energy duplicate late _ hdurable hstop (henv (htorn.unremarked k))
  | false =>
      rw [hstop, if_neg (by decide)] at hexec
      have hconclude := conclude_ends (k := k) duplicate
        { late with env := (k.ports.shutdownRequested late.env).2 } hcurrent
      rcases hrest : exec (conclude k duplicate)
        { late with env := (k.ports.shutdownRequested late.env).2 } with ⟨e | delivery, last⟩
      · rw [hrest] at hconclude
        rw [exec_bind_error hrest] at hexec
        cases hconclude with
        | failed e _ hrelease hthere hunremarked =>
            obtain ⟨c', hfailed, hrest'⟩ := finishFailed_ends (k := k) (ε := ε) .disconnecting
              (.disconnect e) (.inl hthere)
            cases hfailed.symm.trans hexec
            exact .unreleased sample energy duplicate e late _ hdurable hstop hrelease
              (henv (hunremarked.trans hrest'))
      · rw [hrest] at hconclude
        rw [exec_bind_ok hrest] at hexec
        cases hconclude with
        | done _ _ hrelease hunremarked =>
            cases hexec
            exact .released sample energy duplicate delivery late _ hdurable hstop hrelease
              (henv hunremarked)

/-! ## What a cycle commits -/

/-- The sample that a cycle from here commits. -/
def committing (k : Collector ω σ) (start : CycleContext ω σ) : Option Sample :=
  match (exec (durable k) start).1 with
  | .ok (sample, _, false) => some sample
  | _ => none

theorem durable_committing (hidle : start.state.current = .idle) :
    (exec (durable k) start).2.health.lastSuccess = start.health.lastSuccess ∧
      match committing k start with
      | some sample => (exec (acquire k) start).1 = .ok sample ∧
          ∃ cycle : CommittedCycle, cycle.commit.observedAt = sample.observedAt ∧
            committedCycles (exec (durable k) start).2.trace =
              committedCycles start.trace ++ [cycle]
      | none => committedCycles (exec (durable k) start).2.trace = committedCycles start.trace := by
  have hends := durable_ends (k := k) hidle
  unfold committing
  rcases hexec : exec (durable k) start with ⟨r, late⟩
  rw [hexec] at hends
  cases hends with
  | failed p e _ _ hrest => exact ⟨hrest.success, hrest.commits⟩
  | done sample energy duplicate _ _ hacquired hsuccess hremarked =>
      cases duplicate with
      | true => exact ⟨hsuccess, hremarked⟩
      | false => exact ⟨hsuccess, hacquired, hremarked⟩

/-- A whole cycle commits what its durable half does, and leaves the last success to the loop. -/
theorem CycleEnds.committing {outcome : CycleOutcome} (h : CycleEnds k start outcome c)
    (hidle : start.state.current = .idle) :
    c.health.lastSuccess = start.health.lastSuccess ∧
      match committing k start with
      | some sample => (exec (acquire k) start).1 = .ok sample ∧
          ∃ cycle : CommittedCycle, cycle.commit.observedAt = sample.observedAt ∧
            committedCycles c.trace = committedCycles start.trace ++ [cycle]
      | none => committedCycles c.trace = committedCycles start.trace := by
  have hdone : Unremarked (exec (durable k) start).2 c := by
    cases h with
    | undurable p e late _ hdurable hrest =>
        rw [hdurable]
        exact hrest
    | interrupted sample energy duplicate late _ hdurable _ hrest =>
        rw [hdurable]
        exact hrest
    | unreleased sample energy duplicate e late _ hdurable _ _ hrest =>
        rw [hdurable]
        exact hrest
    | released sample energy duplicate delivery late _ hdurable _ _ hrest =>
        rw [hdurable]
        exact hrest
  rw [hdone.success, hdone.commits]
  exact durable_committing hidle

/-! ## What the outcome tells -/

/-- The outcome tells what the cycle has committed: once past its durable step and the test for
shutdown, the link is released if the sample was committed, and not if it was a duplicate. -/
def agrees (k : Collector ω σ) (start : CycleContext ω σ) : Bool :=
  match exec (durable k) start with
  | (.ok (_, _, duplicate), late) =>
      (k.ports.shutdownRequested late.env).1 ||
        releases k duplicate { late with env := (k.ports.shutdownRequested late.env).2 } ==
          !duplicate
  | (.error _, _) => true

/-- What the loop is told of a cycle that does not stop it. -/
def CycleOutcome.told? : CycleOutcome → Option Sample
  | .success result => some result.sample
  | _ => none

theorem CycleEnds.told {outcome : CycleOutcome} (h : CycleEnds k start outcome c)
    (hagrees : agrees k start = true) (hgoes : outcome.isShutdown = false) :
    outcome.told? = Service.committing k start := by
  unfold agrees at hagrees
  unfold Service.committing
  cases h with
  | undurable p e late _ hdurable _ =>
      rw [hdurable]
      rfl
  | interrupted => cases hgoes
  | unreleased sample energy duplicate e late _ hdurable hstop hrelease _ =>
      rw [hdurable] at hagrees ⊢
      dsimp only at hagrees
      rw [hstop, hrelease] at hagrees
      cases duplicate with
      | true => rfl
      | false => cases hagrees
  | released sample energy duplicate delivery late _ hdurable hstop hrelease _ =>
      rw [hdurable] at hagrees ⊢
      dsimp only at hagrees
      rw [hstop, hrelease] at hagrees
      cases duplicate with
      | true => cases hagrees
      | false => rfl

end

end VeSmart.Service
