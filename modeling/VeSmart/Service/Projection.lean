import VeSmart.Service.Endings

set_option autoImplicit false

/-! # What a cycle renders before it commits

The durable step in two parts: up to the call of the renderer (`project`), and from there to the
commit (`commitRendered`). `committedPayload?` is what a cycle has rendered and committed, with its
context right after the commit, and `runCycle_keeps` says what the rest of the cycle leaves of
that. -/

namespace VeSmart.Service

open VeSmart.Lib VeSmart.Domain

section

variable {ω σ ε : Type}

/-! ## The two parts of the durable step -/

/-- The durable step at the call of the renderer; a duplicate has no context to render. -/
structure Projection where
  prev : Option EnergyState
  energy : EnergyOutcome
  context : Option RenderContext

/-- The durable step up to the call of the renderer. -/
def project (k : Collector ω σ) (sample : Sample) :
    Cycle ω σ (CyclePhase × CycleError) Projection := do
  gotoPhase .persisting
  if sample.observedAt ≤ SystemTime.unixEpoch then
    throw (persistError (.invalidTimestamp sample.observedAt))
  else do
    let prev ← mapErr persistError (← onStore k.ports.storage.energyState)
    let energy := k.energy.apply prev sample
    let lastSuccess ← mapErr persistError (← onStore k.ports.storage.lastSuccess)
    if lastSuccess.any (fun ls => sample.observedAt ≤ ls) then pure ⟨prev, energy, none⟩
    else do
      let spool ← mapErr persistError
        (← onStore (k.ports.storage.spoolHealth (← onEnv k.ports.now)))
      let now ← onEnv k.ports.now
      let health := (← get).health
      pure ⟨prev, energy, some (renderContext k sample energy spool now health)⟩

/-- Render the context and commit the payload. -/
def commitRendered (k : Collector ω σ) (sample : Sample) (prev : Option EnergyState)
    (energy : EnergyOutcome) (context : RenderContext) :
    Cycle ω σ (CyclePhase × CycleError) (EnergyOutcome × Bool) := do
  let payload ← mapErr (fun e => (.persisting, .render e)) (← onEnv (k.ports.render context))
  let commit := acquisitionCommit k sample prev energy payload
  let result ← onStore (k.ports.storage.commitAcquisition commit)
  record (.commit energy commit result)
  match ← mapErr persistError result with
  | .committed => do
      updateHealth fun h => energy.skippedGapSeconds.elim h h.recordEnergyGap
      pure (energy, false)
  | .alreadyCommitted => pure (energy, true)

theorem persist_parts (k : Collector ω σ) (sample : Sample) : persist k sample = (do
    let p ← project k sample
    match p.context with
    | some context => commitRendered k sample p.prev p.energy context
    | none => pure (p.energy, true)) := by
  unfold persist project commitSample commitRendered
  simp only [bind_assoc]
  congr 1
  funext _
  split
  · rfl
  simp only [bind_assoc]
  congr 1
  funext _
  congr 1
  funext prev
  congr 1
  funext _
  congr 1
  funext success
  split
  · rfl
  · simp only [bind_assoc]
    rfl

/-- A payload that a cycle has committed: the context it was rendered from, the commit, and the
context of the cycle right after it. -/
structure CommittedPayload (ω σ : Type) where
  context : RenderContext
  cycle : CommittedCycle
  after : CycleContext ω σ

/-- The payload that a cycle from here commits. -/
def committedPayload? (k : Collector ω σ) (start : CycleContext ω σ) :
    Option (CommittedPayload ω σ) :=
  match exec (acquire k) start with
  | (.error _, _) => none
  | (.ok sample, mid) =>
    match exec (project k sample) mid with
    | (.ok ⟨prev, energy, some context⟩, before) =>
      match (k.ports.render context before.env).1,
          exec (commitRendered k sample prev energy context) before with
      | .ok payload, (.ok (_, false), after) =>
          some ⟨context, ⟨energy, acquisitionCommit k sample prev energy payload⟩, after⟩
      | _, _ => none
    | _ => none

variable {k : Collector ω σ} {start mid before after c : CycleContext ω σ}

/-- The walk has reached the renderer with a sample that is no duplicate. -/
structure Projected (k : Collector ω σ) (sample : Sample) (mid : CycleContext ω σ)
    (prev : Option EnergyState) (energy : EnergyOutcome) (context : RenderContext)
    (before : CycleContext ω σ) : Prop where
  anchor : (k.ports.storage.energyState mid.store).1 = .ok prev
  resolved : energy = k.energy.apply prev sample
  reads : Relation.ReflTransGen (ReadStep k.ports.storage) mid.store before.store
  health : before.health = mid.health
  trace : before.trace = mid.trace ++ [.phase .persisting mid.store]
  context : ∃ now now' spool queried, context = renderContext k sample energy spool now' mid.health ∧
    Relation.ReflTransGen (ReadStep k.ports.storage) mid.store queried ∧
    k.ports.storage.spoolHealth now queried = (.ok spool, before.store)

theorem exec_mapErr_inv {ε' α : Type} {f : ε' → ε} {result : Except ε' α} {a : α}
    (h : exec (mapErr f result : Cycle ω σ ε α) c = (.ok a, after)) :
    result = .ok a ∧ after = c := by
  unfold mapErr at h
  rw [exec_fromExcept] at h
  cases result with
  | error e => cases h
  | ok b =>
      cases h
      exact ⟨rfl, rfl⟩

theorem project_inv {sample : Sample} {prev : Option EnergyState} {energy : EnergyOutcome}
    {context : RenderContext} (hcollecting : mid.state.current = .collecting)
    (h : exec (project k sample) mid = (.ok ⟨prev, energy, some context⟩, before)) :
    Projected k sample mid prev energy context before := by
  unfold project at h
  rw [exec_bind_ok (exec_gotoPhase mid (by rw [hcollecting]; rfl))] at h
  split at h
  · cases h
  rw [exec_bind_ok (exec_onStore _ _)] at h
  obtain ⟨prev', c₁, hread, h⟩ := exec_bind_inv h
  obtain ⟨hprev, rfl⟩ := exec_mapErr_inv hread
  rw [exec_bind_ok (exec_onStore _ _)] at h
  obtain ⟨success, c₂, hsuccess, h⟩ := exec_bind_inv h
  obtain ⟨-, rfl⟩ := exec_mapErr_inv hsuccess
  split at h
  · cases h
  rw [exec_bind_ok (exec_onEnv _ _), exec_bind_ok (exec_onStore _ _)] at h
  obtain ⟨spool, c₃, hqueue, h⟩ := exec_bind_inv h
  obtain ⟨hspool, rfl⟩ := exec_mapErr_inv hqueue
  rw [exec_bind_ok (exec_onEnv _ _), exec_bind_ok (exec_get _)] at h
  cases h
  have hqueried : Relation.ReflTransGen (ReadStep k.ports.storage) mid.store
      (k.ports.storage.lastSuccess (k.ports.storage.energyState mid.store).2).2 :=
    (Relation.ReflTransGen.single .energyState).tail .lastSuccess
  exact ⟨hprev, rfl, hqueried.tail (.spoolHealth _), rfl, rfl, _, _, spool, _, rfl, hqueried,
    Prod.ext hspool rfl⟩

/-- A commit that returned `Committed`: what it was called with, and what has become of the
counters and the storage. -/
structure CommitDone (k : Collector ω σ) (before : CycleContext ω σ) (context : RenderContext)
    (cycle : CommittedCycle) (after : CycleContext ω σ) : Prop where
  rendered : (k.ports.render context before.env).1 = .ok cycle.commit.payload
  call : k.ports.storage.commitAcquisition cycle.commit before.store =
    (.ok .committed, after.store)
  health : after.health = commitHealth cycle.energy (.ok .committed) before.health
  trace : after.trace = before.trace ++ [.commit cycle.energy cycle.commit (.ok .committed)]

theorem commitRendered_inv {sample : Sample} {prev : Option EnergyState}
    {energy energy' : EnergyOutcome} {context : RenderContext} {payload : List UInt8}
    (hpayload : (k.ports.render context before.env).1 = .ok payload)
    (h : exec (commitRendered k sample prev energy context) before =
      (.ok (energy', false), after)) :
    CommitDone k before context ⟨energy, acquisitionCommit k sample prev energy payload⟩ after := by
  unfold commitRendered at h
  rw [exec_bind_ok (exec_onEnv _ _)] at h
  obtain ⟨payload', c₁, hrender, h⟩ := exec_bind_inv h
  obtain ⟨hrendered, rfl⟩ := exec_mapErr_inv hrender
  obtain rfl : payload' = payload := Except.ok.inj (hrendered.symm.trans hpayload)
  rw [exec_bind_ok (exec_onStore _ _)] at h
  unfold record at h
  rw [exec_bind_ok (exec_modify _ _)] at h
  obtain ⟨outcome, c₂, hcall, h⟩ := exec_bind_inv h
  obtain ⟨hresult, rfl⟩ := exec_mapErr_inv hcall
  cases outcome with
  | alreadyCommitted => cases h
  | committed =>
      unfold updateHealth at h
      rw [exec_bind_ok (exec_modify _ _)] at h
      cases h
      exact ⟨hpayload, Prod.ext hresult rfl, rfl, by rw [hresult]⟩

/-- How a cycle from `start` has come to commit the payload. -/
structure PayloadCommitted (k : Collector ω σ) (start : CycleContext ω σ)
    (p : CommittedPayload ω σ) (sample : Sample) (prev : Option EnergyState)
    (mid before : CycleContext ω σ) : Prop where
  reached : Reached start .collecting mid
  projected : Projected k sample mid prev p.cycle.energy p.context before
  commit : p.cycle.commit = acquisitionCommit k sample prev p.cycle.energy p.cycle.commit.payload
  done : CommitDone k before p.context p.cycle p.after
  durable : (exec (durable k) start).2 = p.after

theorem committedPayload?_some (hidle : start.state.current = .idle) {p : CommittedPayload ω σ}
    (h : committedPayload? k start = some p) :
    ∃ sample prev mid before, PayloadCommitted k start p sample prev mid before := by
  unfold committedPayload? at h
  rcases hacquire : exec (acquire k) start with ⟨e | sample, mid⟩
  · simp [hacquire] at h
  simp only [hacquire] at h
  have hmid := acquire_steps.ok (Reached.refl hidle) hacquire
  rcases hproject : exec (project k sample) mid with ⟨e | ⟨prev, energy, _ | context⟩, before⟩
  · simp [hproject] at h
  · simp [hproject] at h
  simp only [hproject] at h
  rcases hrender : (k.ports.render context before.env).1 with e | payload
  · simp [hrender] at h
  rcases hcommit : exec (commitRendered k sample prev energy context) before with
    ⟨e | ⟨energy', _ | _⟩, after⟩
  · simp [hrender, hcommit] at h
  · simp only [hrender, hcommit, Option.some.injEq] at h
    subst h
    refine ⟨sample, prev, mid, before, hmid, project_inv hmid.current hproject, rfl,
      commitRendered_inv hrender hcommit, ?_⟩
    have hpersist : exec (persist k sample) mid = (.ok (energy', false), after) := by
      rw [persist_parts, exec_bind_ok hproject]
      exact hcommit
    unfold Service.durable
    rw [exec_bind_ok hacquire, exec_bind_ok hpersist]
    rfl
  · simp [hrender, hcommit] at h

/-- A cycle that commits no payload has changed nothing durable up to the end of its durable
step. -/
theorem committedPayload?_none {view : σ → Durable}
    (hc : CommitContract k.ports.storage k.device.device view)
    (hidle : start.state.current = .idle) (h : committedPayload? k start = none) :
    view (exec (durable k) start).2.store = view start.store ∧
      (exec (durable k) start).2.health.energyGapSkippedSeconds =
        start.health.energyGapSkippedSeconds ∧ InertTrace start (exec (durable k) start).2 := by
  rcases hacquire : exec (acquire k) start with ⟨e | sample, mid⟩
  · obtain ⟨-, -, hreached⟩ := acquire_steps.error (Reached.refl hidle) hacquire
    have hidled := hreached.idled
    unfold durable
    rw [exec_bind_error hacquire]
    exact ⟨by rw [hidled.store], hidled.gap, hidled.trace⟩
  have hmid := acquire_steps.ok (Reached.refl hidle) hacquire
  have hstep := persist_steps (k := k) sample mid hmid.current
  unfold durable
  rw [exec_bind_ok hacquire]
  rcases hpersist : exec (persist k sample) mid with ⟨e | ⟨energy, _ | _⟩, late⟩
  · rw [hpersist] at hstep
    obtain ⟨hview, hgap, htrace⟩ := hstep.refused_view hc
    rw [exec_bind_error hpersist]
    exact ⟨by rw [hview, hmid.store], by rw [hgap, hmid.health], hmid.idled.trace.trans htrace⟩
  · -- a fresh commit is one of a rendered payload
    rw [persist_parts] at hpersist
    obtain ⟨⟨prev, resolved, context⟩, before, hproject, hrest⟩ := exec_bind_inv hpersist
    cases context with
    | none => cases hrest
    | some context =>
        rcases hrender : (k.ports.render context before.env).1 with e | payload
        · unfold commitRendered at hrest
          rw [exec_bind_ok (exec_onEnv _ _), exec_bind_error (exec_mapErr_error _ hrender _)]
            at hrest
          cases hrest
        · dsimp only at hrest
          simp [committedPayload?, hacquire, hproject, hrender, hrest] at h
  · rw [hpersist] at hstep
    obtain ⟨-, hsettled⟩ := hstep.settled hc hmid.idled hmid.health
    rw [exec_bind_ok hpersist]
    cases hsettled with
    | duplicate _ hview hgap _ htrace => exact ⟨hview, hgap, htrace⟩

/-! ## The rest of the cycle -/

variable {I : CycleContext ω σ → Prop}

theorem StepInvariant.teardownAfterFailure (h : StepInvariant k I) :
    Triple I (Service.teardownAfterFailure k) (fun _ => I) (fun _ => I) := by
  apply Triple.getThen
  intro c hc
  have hstart : ∀ t, t = c → I t := by
    rintro _ rfl
    exact hc
  split
  · rw [← bind_assoc]
    apply Triple.bind ((h.enter .disconnecting _).conseq hstart (fun _ _ h => h) fun _ _ h => h)
    intro _
    exact Triple.bind h.callBle fun _ => h.enter .backoff _
  · apply Triple.conseq (P := I) _ hstart (fun _ _ h => h) fun _ _ h => h
    exact Triple.bind h.callBle fun _ => h.enter .backoff _

theorem StepInvariant.teardownToShutdown (h : StepInvariant k I) :
    Triple I (Service.teardownToShutdown k) (fun _ => I) (fun _ => I) := by
  unfold Service.teardownToShutdown
  rw [← bind_assoc]
  apply Triple.bind (h.enter .disconnecting _)
  intro _
  apply Triple.bind h.callBle
  intro _
  exact h.enter .shuttingDown _

/-- **What the rest of a cycle keeps**: an invariant of its steps that holds after the durable step
holds after the cycle. -/
theorem runCycle_keeps (h : StepInvariant k I)
    (hfailed : ∀ c e, I c → I { c with health := recordFailureHealth e c.health })
    (hdurable : I (exec (durable k) start).2) :
    Triple (fun c => c = start) (runCycle k : Cycle ω σ ε CycleOutcome) (fun _ => I)
      (fun _ => I) := by
  have hhalf : Triple (fun c => c = start) (durable k) (fun _ => I) (fun _ => I) := by
    apply Triple.of_exec (S := fun _ => I)
    rintro _ rfl
    exact hdurable
  have hwalk : Triple (fun c => c = start) (cycleStates k) (fun _ => I) (fun _ => I) := by
    rw [cycleStates_halves]
    apply Triple.bind hhalf
    rintro ⟨sample, energy, duplicate⟩
    apply Triple.bind (h.onEnv _)
    intro stop
    cases stop with
    | true => exact Triple.pure fun _ h => h
    | false =>
        apply Triple.bind (Q := fun _ => I)
        · apply Triple.bind (h.deliverFresh duplicate)
          intro delivery
          exact Triple.bind h.release fun _ => Triple.pure fun _ h => h
        · intro delivery
          exact Triple.pure fun _ h => h
  apply Triple.bind (Q := fun _ => I)
  · apply hwalk.attempt.conseq (fun _ h => h) _ fun _ _ h => h
    intro result c hc
    cases result <;> exact hc
  intro result
  rcases result with ⟨p, e⟩ | result | ⟨p, sample⟩
  · apply Triple.bind (Q := fun _ => I)
    · exact updateHealth_rule fun c hc => hfailed c e hc
    intro _
    apply Triple.bind (Q := fun _ => I)
    · apply h.teardownAfterFailure.attempt.conseq (fun _ h => h) _ fun _ _ h => h
      intro result c hc
      cases result <;> exact hc
    intro torn
    cases torn with
    | ok u => exact Triple.pure fun _ h => h
    | error e => exact Triple.pure fun _ h => h
  · exact Triple.pure fun _ h => h
  · apply Triple.bind (Q := fun _ => I)
    · apply h.teardownToShutdown.attempt.conseq (fun _ h => h) _ fun _ _ h => h
      intro result c hc
      cases result <;> exact hc
    intro torn
    cases torn with
    | ok u => exact Triple.pure fun _ h => h
    | error e => exact Triple.pure fun _ h => h

end

end VeSmart.Service
