import VeSmart.Service.CycleRun

set_option autoImplicit false

/-! # The collector run loop (`victron-service/src/runner.rs`)

Each iteration drains the spool, checks for shutdown, waits and runs one cycle. `run_legal`
says that the loop never takes an illegal transition, whatever its ports do: the invariant of
the loop is that the machine rests in `Idle` or `Backoff` between two iterations. -/

namespace VeSmart.Service

open VeSmart.Lib VeSmart.Domain

/-- Outcome of a terminated run loop. -/
structure RunSummary where
  cycles : UInt64
  cyclesSucceeded : UInt64
  graceful : Bool
  health : HealthSnapshot

/-- A fatal run-loop failure (programming error, not a device condition). -/
inductive RunError where
  | state (error : StateTransitionError)

/-- A cycle that the loop has run, with the contexts before and after it. -/
structure CycleRecord (ω σ : Type) where
  entry : CycleContext ω σ
  outcome : CycleOutcome
  exit : CycleContext ω σ

/-- The variables of the loop; `records` is the history of its cycles. -/
structure Runner (ω σ : Type) where
  ctx : CycleContext ω σ
  cycles : UInt64
  cyclesSucceeded : UInt64
  lastSolar : Option SolarActivity
  records : List (CycleRecord ω σ)

def Runner.new {ω σ : Type} (env : ω) (store : σ) : Runner ω σ where
  ctx := .new env store
  cycles := 0
  cyclesSucceeded := 0
  lastSolar := none
  records := []

/-- How an iteration of the loop ends; `unfinished` when its drain ran out of fuel. -/
inductive Flow where
  | next
  | stop
  | unfinished

section

variable {ω σ α : Type}

/-- A step of the loop that works on the context of the cycles. -/
def onCycle (x : Cycle ω σ RunError α) : Prog (Runner ω σ) RunError α :=
  zoom Runner.ctx (fun r c => { r with ctx := c }) x

/-- Report the phase of the machine as progress. -/
def reportProgress : Cycle ω σ RunError Unit := do
  record (.progress (← get).state.current)

def disconnectForShutdown (k : Collector ω σ) : Cycle ω σ RunError Unit := do
  record (.progress .disconnecting)
  let _ ← callBle k .disconnect k.ports.ble.disconnect

def gotoIdle : Cycle ω σ RunError Unit := do
  mapErr .state (← goto .idle)

def gotoIdleOrShutdown : Cycle ω σ RunError Unit := do
  if (← get).state.current = .shuttingDown then pure ()
  else mapErr .state (← goto .shuttingDown)

/-- The interval that the policy selects. -/
def baseInterval (k : Collector ω σ) (r : Runner ω σ) (now : SystemTime) : Duration :=
  match k.interval ⟨now, r.ctx.health.lastSuccess, r.lastSolar,
    r.ctx.health.consecutiveFailures⟩ with
  | .active => k.config.activeInterval
  | .idle => k.config.idleInterval

/-- Wait for the next cycle, by the interval policy and the backoff. The result says that
shutdown was requested meanwhile. -/
def awaitNext (k : Collector ω σ) : Prog (Runner ω σ) RunError Bool := do
  let r ← get
  if r.cycles = 0 then pure false
  else do
    let now ← onCycle (onEnv k.ports.now)
    let wait := Duration.saturatingAdd (baseInterval k r now)
      (k.backoff r.ctx.health.consecutiveFailures)
    if wait = 0 then pure false
    else do
      onCycle (onEnv fun env => ((), k.ports.wait wait env))
      onCycle (onEnv k.ports.shutdownRequested)

/-- Run one cycle and account for its outcome. -/
def runOnce (k : Collector ω σ) : Prog (Runner ω σ) RunError Flow := do
  let entry := (← get).ctx
  let outcome ← onCycle (runCycle k)
  modify fun r => { r with
    cycles := r.cycles + 1, records := r.records ++ [⟨entry, outcome, r.ctx⟩] }
  match outcome with
  | .success result => do
      modify fun r => { r with
        cyclesSucceeded := r.cyclesSucceeded + 1
        lastSolar := some (solarActivity result.sample k.config.solarActiveThresholdWatts) }
      onCycle (updateHealth fun h => (h.recordCycle true).setLastSuccess result.sample.observedAt)
      pure .next
  | .failure _ _ => do
      onCycle (updateHealth fun h => h.recordCycle false)
      pure .next
  | .shutdownGraceful _ sample => do
      modify fun r => { r with cyclesSucceeded := r.cyclesSucceeded + 1 }
      onCycle (updateHealth fun h => (h.recordCycle true).setLastSuccess sample.observedAt)
      pure .stop

def iteration (k : Collector ω σ) (drains : Nat) : Prog (Runner ω σ) RunError Flow := do
  onCycle reportProgress
  match ← onCycle (drainSpool k drains 0) with
  | none => pure .unfinished
  | some _ => do
      -- replay has reported `Delivering`: restore the phase of the machine
      onCycle reportProgress
      if ← onCycle (onEnv k.ports.shutdownRequested) then do
        onCycle (disconnectForShutdown k)
        onCycle gotoIdleOrShutdown
        pure .stop
      else do
        onCycle (do if (← get).state.current = .idle then pure () else gotoIdle)
        if ← awaitNext k then do
          onCycle (disconnectForShutdown k)
          onCycle gotoIdleOrShutdown
          pure .stop
        else runOnce k

/-- Run the collector until shutdown is requested. Nothing is returned when `iterations`
iterations, with `drains` passes for each drain, were not enough. -/
def run (k : Collector ω σ) (drains : Nat) : Nat → Prog (Runner ω σ) RunError (Option RunSummary)
  | 0 => pure none
  | iterations + 1 => do
      match ← iteration k drains with
      | .next => run k drains iterations
      | .stop => do
          let r ← get
          pure (some ⟨r.cycles, r.cyclesSucceeded, true, r.ctx.health⟩)
      | .unfinished => pure none

/-! ## One cycle -/

def CycleOutcome.isSuccess : CycleOutcome → Bool
  | .success _ => true
  | _ => false

def CycleOutcome.isFailure : CycleOutcome → Bool
  | .failure _ _ => true
  | _ => false

def CycleOutcome.isShutdown : CycleOutcome → Bool
  | .shutdownGraceful _ _ => true
  | _ => false

def Event.bleCall? : Event σ → Option BleCall
  | .ble call => some call
  | _ => none

/-- What is claimed of each cycle that the loop runs. -/
structure CycleRecord.Legal (k : Collector ω σ) (r : CycleRecord ω σ) : Prop where
  ran : exec (runCycle k : Cycle ω σ RunError CycleOutcome) r.entry = (.ok r.outcome, r.exit)
  entered : r.entry.state.current = .idle
  noStateError : ∀ p e, r.outcome ≠ .failure p (.state e)
  success : r.exit.state.current = .idle ↔ r.outcome.isSuccess = true
  failure : r.exit.state.current = .backoff ↔ r.outcome.isFailure = true
  shutdown : r.exit.state.current = .shuttingDown ↔ r.outcome.isShutdown = true
  disconnected : ∃ events, r.exit.trace = r.entry.trace ++ events ∧
    (r.outcome.isSuccess = false → (events.filterMap Event.bleCall?).getLast? = some .disconnect)

variable {k : Collector ω σ} {start : CycleContext ω σ}

theorem TornDown.lastCall {p : CyclePhase} {c : CycleContext ω σ} (h : TornDown start p c) :
    ∃ events, c.trace = start.trace ++ events ∧
      (events.filterMap Event.bleCall?).getLast? = some .disconnect := by
  obtain ⟨entered, hentered, htrace⟩ := h.trace
  refine ⟨entered ++ [.ble .disconnect, .phase p start.store], by simp [htrace], ?_⟩
  rcases hentered with rfl | rfl <;> rfl

/-- The phase in which a cycle with this outcome ends. -/
def CycleOutcome.endPhase : CycleOutcome → CyclePhase
  | .success _ => .idle
  | .failure _ _ => .backoff
  | .shutdownGraceful _ _ => .shuttingDown

theorem CycleOutcome.endPhase_iff (outcome : CycleOutcome) :
    (outcome.endPhase = .idle ↔ outcome.isSuccess = true) ∧
      (outcome.endPhase = .backoff ↔ outcome.isFailure = true) ∧
      (outcome.endPhase = .shuttingDown ↔ outcome.isShutdown = true) := by
  cases outcome <;> simp [endPhase, isSuccess, isFailure, isShutdown]

theorem CycleRun.endPhase {outcome : CycleOutcome} {c : CycleContext ω σ}
    (h : CycleRun k start outcome c) : c.state.current = outcome.endPhase := by
  cases h with
  | success result c hwalk =>
      cases hwalk with
      | done _ _ _ _ _ _ _ _ _ _ _ hreleased => exact hreleased.current
  | failure _ _ _ _ _ hdown => exact hdown.current
  | shutdown _ _ _ _ _ hdown => exact hdown.current

/-- The events of a cycle, which end with `disconnect` unless it succeeded. -/
theorem CycleRun.events {outcome : CycleOutcome} {c : CycleContext ω σ}
    (h : CycleRun k start outcome c) : ∃ events, c.trace = start.trace ++ events ∧
      (outcome.isSuccess = false →
        (events.filterMap Event.bleCall?).getLast? = some .disconnect) := by
  have hdowned : ∀ {stop : CycleContext ω σ} {p : CyclePhase}, TornDown stop p c →
      start.trace <+: stop.trace → ∃ events, c.trace = start.trace ++ events ∧
        (outcome.isSuccess = false →
          (events.filterMap Event.bleCall?).getLast? = some .disconnect) := by
    rintro stop p hdown ⟨walk, hwalked⟩
    obtain ⟨events, htrace, hlast⟩ := hdown.lastCall
    refine ⟨walk ++ events, ?_, fun _ => ?_⟩
    · rw [htrace, ← hwalked, List.append_assoc]
    · rw [List.filterMap_append, List.getLast?_append, hlast]
      rfl
  cases h with
  | success result c hwalk =>
      obtain ⟨events, htrace⟩ := hwalk.trace_grows
      exact ⟨events, htrace.symm, fun hfalse => nomatch hfalse⟩
  | failure _ _ _ _ hwalk hdown => exact hdowned hdown hwalk.trace_grows
  | shutdown _ _ _ _ hwalk hdown => exact hdowned hdown hwalk.trace_grows

/-- A cycle from `Idle` is legal. -/
theorem CycleRun.legal {outcome : CycleOutcome} {c : CycleContext ω σ}
    (hidle : start.state.current = .idle)
    (hexec : exec (runCycle k : Cycle ω σ RunError CycleOutcome) start = (.ok outcome, c))
    (h : CycleRun k start outcome c) : CycleRecord.Legal k ⟨start, outcome, c⟩ := by
  obtain ⟨hsuccess, hfailure, hshutdown⟩ := outcome.endPhase_iff
  rw [← h.endPhase] at hsuccess hfailure hshutdown
  refine ⟨hexec, hidle, ?_, hsuccess, hfailure, hshutdown, h.events⟩
  rintro p e rfl
  cases h with
  | failure _ _ stop _ hwalk _ => exact nomatch hwalk.error_external

/-! ## The loop -/

/-- Where the machine rests between two iterations. -/
def CyclePhase.resting (p : CyclePhase) : Bool := p ∈ [.idle, .backoff]

/-- The cycles so far were legal, and the machine is in a phase satisfying `P`. -/
def RunnerAt (k : Collector ω σ) (P : CyclePhase → Prop) (r : Runner ω σ) : Prop :=
  (∀ rec ∈ r.records, rec.Legal k) ∧ P r.ctx.state.current

/-- A step on the context keeps the history. -/
theorem onCycle_rule {x : Cycle ω σ RunError α} {P Q : CyclePhase → Prop}
    (h : Triple (fun c => P c.state.current) x (fun _ c => Q c.state.current) (fun _ _ => False)) :
    Triple (RunnerAt k P) (onCycle x) (fun _ => RunnerAt k Q) (fun _ _ => False) := by
  apply Triple.zoom
  rintro r ⟨hrecords, hP⟩
  apply h.conseq
  · rintro _ rfl
    exact hP
  · intro _ c hQ
    exact ⟨hrecords, hQ⟩
  · intro _ _ hfalse
    exact hfalse

theorem reportProgress_rule {P : CyclePhase → Prop} :
    Triple (fun c : CycleContext ω σ => P c.state.current) reportProgress
      (fun _ c => P c.state.current) (fun _ _ => False) := by
  apply Triple.bind (Q := fun _ c => P c.state.current)
  · exact Triple.getState fun _ h => h
  · intro c
    exact record_rule fun _ h => h

/-- Spool work does not touch the machine. -/
theorem phaseInvariant (P : CyclePhase → Prop) :
    SpoolInvariant k (fun c => P c.state.current) where
  env _ _ h := h
  store _ _ h _ := h
  delivery _ _ h := h
  dropped _ h := h
  progress _ h := h
  deliver _ _ h := h

theorem disconnectForShutdown_rule {P : CyclePhase → Prop} :
    Triple (fun c : CycleContext ω σ => P c.state.current) (disconnectForShutdown k)
      (fun _ c => P c.state.current) (fun _ _ => False) := by
  apply Triple.bind (Q := fun _ c => P c.state.current)
  · exact record_rule fun _ h => h
  intro _
  apply Triple.bind (Q := fun _ c => P c.state.current)
  · exact callBle_rule fun _ _ _ h => h
  intro _
  exact Triple.pure fun _ h => h

/-- A legal transition of the loop. -/
theorem goto_run_rule {P : CyclePhase → Prop} (q : CyclePhase)
    (hlegal : ∀ p, P p → p.canTransitionTo q = true) :
    Triple (fun c : CycleContext ω σ => P c.state.current)
      (do mapErr RunError.state (← goto q)) (fun _ c => c.state.current = q)
      (fun _ _ => False) := by
  apply Triple.bind (Q := fun r c => r = .ok () ∧ c.state.current = q)
  · exact goto_rule (fun c h => hlegal _ h) (fun c n h => ⟨rfl, rfl⟩)
  intro r
  apply mapErr_rule
  · intro _ c h _
    exact h.2
  · intro e c h he
    rw [h.1] at he
    cases he

theorem resting_shutdown {p : CyclePhase} (h : p.resting = true) :
    p.canTransitionTo .shuttingDown = true := by
  cases p <;> first | rfl | cases h

theorem gotoIdleOrShutdown_rule :
    Triple (fun c : CycleContext ω σ => c.state.current.resting = true) gotoIdleOrShutdown
      (fun _ _ => True) (fun _ _ => False) := by
  apply Triple.bind (Q := fun _ c => c.state.current.resting = true)
  · exact Triple.getState fun _ h => h
  intro c
  split
  · exact Triple.pure fun _ _ => trivial
  · exact (goto_run_rule (P := fun p => p.resting = true) .shuttingDown
      fun _ => resting_shutdown).conseq (fun _ h => h) (fun _ _ _ => trivial) (fun _ _ h => h)

/-- Before a cycle the machine is brought to `Idle`. -/
theorem enterIdle_rule :
    Triple (fun c : CycleContext ω σ => c.state.current.resting = true)
      (do if (← get).state.current = .idle then pure () else gotoIdle)
      (fun _ c => c.state.current = .idle) (fun _ _ => False) := by
  apply Triple.bind (Q := fun c' c => c' = c ∧ c.state.current.resting = true)
  · exact Triple.getState fun _ h => ⟨rfl, h⟩
  intro c
  split
  · rename_i hidle
    apply Triple.pure
    rintro _ ⟨rfl, -⟩
    exact hidle
  · rename_i hne
    refine (goto_run_rule (P := fun p => p = .backoff) .idle (by rintro _ rfl; rfl)).conseq
      ?_ (fun _ _ h => h) (fun _ _ h => h)
    rintro _ ⟨rfl, hrest⟩
    revert hne hrest
    cases c.state.current <;> simp [CyclePhase.resting]

theorem awaitNext_rule {P : CyclePhase → Prop} :
    Triple (RunnerAt k P) (awaitNext k) (fun _ => RunnerAt k P) (fun _ _ => False) := by
  have henv : ∀ {α : Type} (f : ω → α × ω),
      Triple (RunnerAt k P) (onCycle (onEnv f)) (fun _ => RunnerAt k P) (fun _ _ => False) :=
    fun f => onCycle_rule (onEnv_rule fun _ _ _ h => h)
  apply Triple.bind (Q := fun _ => RunnerAt k P)
  · exact Triple.getState fun _ h => h
  intro r
  split
  · exact Triple.pure fun _ h => h
  apply Triple.bind (henv _)
  intro now
  extract_lets wait
  split
  · exact Triple.pure fun _ h => h
  apply Triple.bind (henv _)
  intro _
  exact henv _

/-- One cycle of the loop, entered from `Idle`: the history stays legal, and unless the loop
stops the machine rests. -/
theorem runOnce_rule :
    Triple (RunnerAt k (fun p => p = .idle)) (runOnce k)
      (fun flow r => (∀ rec ∈ r.records, rec.Legal k) ∧ match flow with
        | .next => r.ctx.state.current.resting = true
        | _ => True) (fun _ _ => False) := by
  rintro r ⟨hrecords, hidle⟩
  obtain ⟨outcome, c, hexec, hrun⟩ := runCycle_steps (k := k) (ε := RunError) hidle
  have hlegal : ∀ rec ∈ r.records ++ [⟨r.ctx, outcome, c⟩], rec.Legal k := by
    intro rec hmem
    rcases List.mem_append.mp hmem with hmem | hmem
    · exact hrecords rec hmem
    · rw [List.mem_singleton.mp hmem]
      exact hrun.legal hidle hexec
  have hend := hrun.endPhase
  have hcycle : exec (onCycle (runCycle k)) r = (.ok outcome, { r with ctx := c }) := by
    unfold onCycle
    rw [exec_zoom, hexec]
  unfold runOnce
  rw [exec_bind_ok (exec_get _), exec_bind_ok hcycle, exec_bind_ok (exec_modify _ _)]
  cases outcome with
  | success result =>
      refine ⟨hlegal, ?_⟩
      show c.state.current.resting = true
      rw [hend]
      rfl
  | failure p e =>
      refine ⟨hlegal, ?_⟩
      show c.state.current.resting = true
      rw [hend]
      rfl
  | shutdownGraceful p sample => exact ⟨hlegal, trivial⟩

theorem iteration_rule (drains : Nat) :
    Triple (RunnerAt k (fun p => p.resting = true)) (iteration k drains)
      (fun flow r => (∀ rec ∈ r.records, rec.Legal k) ∧ match flow with
        | .next => r.ctx.state.current.resting = true
        | _ => True) (fun _ _ => False) := by
  have hstop : Triple (RunnerAt k (fun p => p.resting = true)) (do
      onCycle (disconnectForShutdown k)
      onCycle gotoIdleOrShutdown
      pure Flow.stop) (fun flow r => (∀ rec ∈ r.records, rec.Legal k) ∧ match flow with
        | .next => r.ctx.state.current.resting = true
        | _ => True) (fun _ _ => False) := by
    apply Triple.bind (onCycle_rule disconnectForShutdown_rule)
    intro _
    apply Triple.bind (onCycle_rule (Q := fun _ => True) gotoIdleOrShutdown_rule)
    intro _
    exact Triple.pure fun r h => ⟨h.1, trivial⟩
  apply Triple.bind (onCycle_rule reportProgress_rule)
  intro _
  apply Triple.bind (onCycle_rule ((phaseInvariant (k := k) _).drainSpool drains 0))
  intro drained
  cases drained with
  | none => exact Triple.pure fun r h => ⟨h.1, trivial⟩
  | some result =>
      apply Triple.bind (onCycle_rule reportProgress_rule)
      intro _
      apply Triple.bind (onCycle_rule (onEnv_rule fun _ _ _ h => h))
      intro stop
      cases stop with
      | true => exact hstop
      | false =>
          apply Triple.bind (onCycle_rule (Q := fun p => p = .idle) enterIdle_rule)
          intro _
          apply Triple.bind awaitNext_rule
          intro stop
          cases stop with
          | true =>
              apply hstop.conseq _ (fun _ _ h => h) (fun _ _ h => h)
              rintro r ⟨hrecords, hidle⟩
              exact ⟨hrecords, by rw [hidle]; rfl⟩
          | false => exact runOnce_rule

/-- The loop, by induction on its iterations. -/
theorem run_rule (drains iterations : Nat) :
    Triple (RunnerAt k (fun p => p.resting = true)) (run k drains iterations)
      (fun _ r => ∀ rec ∈ r.records, rec.Legal k) (fun _ _ => False) := by
  induction iterations with
  | zero => exact Triple.pure fun r h => h.1
  | succ iterations ih =>
      apply Triple.bind (iteration_rule drains)
      intro flow
      cases flow with
      | next => exact ih.conseq (fun r h => h) (fun _ _ h => h) (fun _ _ h => h)
      | unfinished => exact Triple.pure fun r h => h.1
      | stop =>
          apply Triple.bind (Q := fun _ r => ∀ rec ∈ r.records, rec.Legal k)
          · exact Triple.getState fun r h => h.1
          · intro r
            exact Triple.pure fun r h => h

/-- **The run loop never takes an illegal transition**: for all ports, worlds and bounds on the
loops, it does not fail with a state error, and each of its cycles is legal. -/
theorem run_legal (k : Collector ω σ) (env : ω) (store : σ) (drains iterations : Nat) :
    (∀ e, (exec (run k drains iterations) (Runner.new env store)).1 ≠ .error e) ∧
      ∀ rec ∈ (exec (run k drains iterations) (Runner.new env store)).2.records,
        rec.Legal k := by
  have hstart : RunnerAt k (fun p => p.resting = true) (Runner.new env store) :=
    ⟨fun _ h => (nomatch h), rfl⟩
  have hrun := run_rule (k := k) drains iterations
  rcases hexec : exec (run k drains iterations) (Runner.new env store) with ⟨result, r⟩
  cases result with
  | ok summary => exact ⟨fun e h => (nomatch h), hrun.ok hstart hexec⟩
  | error e => exact (hrun.error hstart hexec).elim

end

end VeSmart.Service
