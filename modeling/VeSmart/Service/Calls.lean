import VeSmart.Service.ClaimLog
import VeSmart.Service.Commits
import VeSmart.Service.Runner

set_option autoImplicit false

/-! # Where a delivered payload comes from

A service calls its storage and its delivery port one call after the other. `CallInvariant` is a
property that no call breaks, with the batch that has been claimed and is not settled yet beside
the context, and `CallInvariant.iteration` carries it through the loop. `Traceable` is such a
property: nothing is delivered that was not stored before the process or committed by it. -/

namespace VeSmart.Service

open VeSmart.Lib VeSmart.Domain

section

variable {ω σ ε α β : Type}

/-! ## Invariants of the calls -/

/-- The bookkeeping of a batch that has been delivered or refused. -/
inductive SettleStep (port : StoragePort σ) (claim : ClaimedBatch) (store : σ) : σ → Prop
  | complete : SettleStep port claim store (port.spoolComplete claim store).2
  | retry (now : SystemTime) : SettleStep port claim store (port.spoolRetry claim now store).2
  | drop : SettleStep port claim store (port.spoolDrop claim store).2

theorem SettleStep.call {port : StoragePort σ} {claim : ClaimedBatch} {store store' : σ}
    (h : SettleStep port claim store store') : SpoolCallStep port store store' := by
  cases h with
  | complete => exact .complete claim
  | retry now => exact .retry claim now
  | drop => exact .drop claim

/-- The batch that a claim has put into the service's hand. -/
def inHand : Except StorageError (Option ClaimedBatch) → Option ClaimedBatch
  | .ok claimed => claimed
  | .error _ => none

/-- A property of contexts, with the batch in hand, that no call breaks. -/
structure CallInvariant (k : Collector ω σ) (I : Option ClaimedBatch → CycleContext ω σ → Prop) :
    Prop where
  env : ∀ {hand c} env, I hand c → I hand { c with env := env }
  health : ∀ {hand c} health, I hand c → I hand { c with health := health }
  moved : ∀ {hand c e} state, I hand c → e.quiet = true →
    I hand { c with state := state, trace := c.trace ++ [e] }
  read : ∀ {c store}, I none c → ReadStep k.ports.storage c.store store →
    I none { c with store := store }
  commit : ∀ {c} energy commit, I none c → I none { c with
    store := (k.ports.storage.commitAcquisition commit c.store).2
    trace := c.trace ++
      [.commit energy commit (k.ports.storage.commitAcquisition commit c.store).1] }
  claim : ∀ {c} ttl now, I none c →
    I (inHand (k.ports.storage.spoolClaimNext ttl now c.store).1)
      { c with store := (k.ports.storage.spoolClaimNext ttl now c.store).2 }
  deliver : ∀ {c claim}, I (some claim) c →
    I (some claim) { c with trace := c.trace ++ [.deliver claim.payload] }
  settle : ∀ {c claim store}, I (some claim) c → SettleStep k.ports.storage claim c.store store →
    I none { c with store := store }

/-- The property holds now, and did so before and after every cycle. -/
def Throughout (J : CycleContext ω σ → Prop) (r : Runner ω σ) : Prop :=
  J r.ctx ∧ ∀ rec ∈ r.records, J rec.entry ∧ J rec.exit

/-- A program that keeps a property of contexts. -/
def Maintains (J : CycleContext ω σ → Prop) (x : Cycle ω σ ε α) : Prop :=
  Triple J x (fun _ => J) (fun _ => J)

variable {k : Collector ω σ} {I : Option ClaimedBatch → CycleContext ω σ → Prop}
  {J : CycleContext ω σ → Prop} {hand : Option ClaimedBatch}

namespace Maintains

theorem pure (a : α) : Maintains J (Pure.pure a : Cycle ω σ ε α) := Triple.pure fun _ h => h

theorem throw (e : ε) : Maintains J (MonadExcept.throw e : Cycle ω σ ε α) :=
  Triple.throw fun _ h => h

theorem bind {x : Cycle ω σ ε α} {f : α → Cycle ω σ ε β} (hx : Maintains J x)
    (hf : ∀ a, Maintains J (f a)) : Maintains J (x >>= f) := Triple.bind hx hf

theorem getThen {f : CycleContext ω σ → Cycle ω σ ε α} (hf : ∀ c, Maintains J (f c)) :
    Maintains J (get >>= f) :=
  fun c hc => hf c c hc

theorem mapErr {ε' : Type} (f : ε' → ε) (result : Except ε' α) :
    Maintains J (Service.mapErr f result : Cycle ω σ ε α) :=
  mapErr_rule (fun _ _ h _ => h) fun _ _ h _ => h

theorem attempt {ε' : Type} {x : Cycle ω σ ε α} (hx : Maintains J x) :
    Maintains J (Lib.attempt x : Cycle ω σ ε' (Except ε α)) :=
  (Triple.attempt hx).conseq (fun _ h => h) (fun r _ h => by cases r <;> exact h) fun _ _ h => h

/-- A step of the loop on the context of the cycles. -/
theorem onCycle {x : Cycle ω σ RunError α} (hx : Maintains J x) :
    Triple (Throughout J) (Service.onCycle x) (fun _ => Throughout J) (fun _ => Throughout J) := by
  apply Triple.zoom
  rintro r ⟨hnow, hrecords⟩
  refine Triple.conseq hx ?_ (fun _ _ hc => ⟨hc, hrecords⟩) fun _ _ hc => ⟨hc, hrecords⟩
  rintro _ rfl
  exact hnow

end Maintains

namespace CallInvariant

variable (h : CallInvariant k I)

include h

/-! ## Elementary steps -/

theorem onEnv (f : ω → α × ω) : Maintains (I hand) (Service.onEnv f : Cycle ω σ ε α) :=
  fun c hc => h.env (f c.env).2 hc

theorem record {e : Event σ} (he : e.quiet = true) :
    Maintains (I hand) (Service.record e : Cycle ω σ ε Unit) :=
  fun c hc => h.moved c.state hc he

theorem updateHealth (f : HealthSnapshot → HealthSnapshot) :
    Maintains (I hand) (Service.updateHealth f : Cycle ω σ ε Unit) :=
  fun c hc => h.health (f c.health) hc

theorem readStore {f : σ → α × σ} (hf : ∀ store, ReadStep k.ports.storage store (f store).2) :
    Maintains (I none) (onStore f : Cycle ω σ ε α) :=
  fun c hc => h.read hc (hf c.store)

/-- A transition, legal or not. -/
theorem goto (p : CyclePhase) : Maintains (I hand) (Service.goto p : Cycle ω σ ε _) := by
  intro c hc
  unfold Service.goto
  rw [exec_ofFun]
  cases c.state.transition p with
  | error e => exact hc
  | ok state => exact h.moved state hc rfl

theorem enter (p : CyclePhase) (f : StateTransitionError → ε) :
    Maintains (I hand) (do mapErr f (← Service.goto p) : Cycle ω σ ε Unit) :=
  (h.goto p).bind fun _ => .mapErr _ _

theorem callBle (call : BleCall) (op : Duration → ω → Timed α × ω) :
    Maintains (I hand) (Service.callBle k call op : Cycle ω σ ε (Timed α)) :=
  (h.record rfl).bind fun _ => h.onEnv _

theorem phase (call : BleCall) (op : Duration → ω → Timed α × ω) :
    Maintains (I hand) (Service.phase k call op : Cycle ω σ ε (Except BleError α)) := by
  refine (h.callBle call op).bind fun answer => ?_
  cases answer with
  | none => exact .pure _
  | some result => exact .pure _

/-! ## The bookkeeping of a claim -/

theorem settleStore {claim : ClaimedBatch} {f : σ → α × σ}
    (hf : ∀ store, SettleStep k.ports.storage claim store (f store).2)
    {E : ε → CycleContext ω σ → Prop} :
    Triple (I (some claim)) (onStore f) (fun _ => I none) E :=
  fun c hc => h.settle hc (hf c.store)

theorem dropClaim (claim : ClaimedBatch) :
    Triple (I (some claim)) (Service.dropClaim k claim : Cycle ω σ ε DeliveryStatus)
      (fun _ => I none) (fun _ => I none) := by
  refine Triple.bind (h.settleStore fun _ => .drop) fun dropped => ?_
  cases dropped with
  | ok u => exact Maintains.bind (h.updateHealth _) fun _ => .pure _
  | error e => exact Maintains.pure _

/-- The batch in hand is delivered and settled. -/
theorem deliverClaim (claim : ClaimedBatch) :
    Triple (I (some claim)) (Service.deliverClaim k claim : Cycle ω σ ε DeliveryStatus)
      (fun _ => I none) (fun _ => I none) := by
  have hstep : ∀ {γ : Type} {x : Cycle ω σ ε γ} {f : γ → Cycle ω σ ε DeliveryStatus},
      Triple (I (some claim)) x (fun _ => I (some claim)) (fun _ => I none) →
      (∀ a, Triple (I (some claim)) (f a) (fun _ => I none) (fun _ => I none)) →
      Triple (I (some claim)) (x >>= f) (fun _ => I none) (fun _ => I none) := Triple.bind
  have hprogress : Triple (I (some claim))
      (Service.record (.progress .delivering) : Cycle ω σ ε Unit) (fun _ => I (some claim))
      (fun _ => I none) := fun c hc => h.moved c.state hc rfl
  refine hstep hprogress fun _ => ?_
  refine hstep (fun c hc => h.deliver hc) fun _ => ?_
  refine hstep (fun c hc => h.env _ hc) fun result => ?_
  refine hstep hprogress fun _ => ?_
  cases result with
  | ok u =>
      refine Triple.bind (h.settleStore fun _ => .complete) fun completed => ?_
      cases completed with
      | ok u => exact Maintains.bind (h.updateHealth _) fun _ => .pure _
      | error e => exact Maintains.bind (h.updateHealth _) fun _ => .pure _
  | error e =>
      refine hstep (fun c hc => h.health _ hc) fun _ => ?_
      by_cases hretryable : e.retryable = true
      · rw [if_pos hretryable]
        by_cases hspent : k.config.spoolMaxAttempts ≤ claim.attempts
        · rw [if_pos hspent]
          exact h.dropClaim claim
        · rw [if_neg hspent]
          refine hstep (fun c hc => h.env _ hc) fun now => ?_
          refine Triple.bind (h.settleStore fun _ => .retry now) fun retried => ?_
          rcases retried with e | attempts | attempts
          · exact Maintains.pure _
          · exact Maintains.pure _
          · exact Maintains.bind (h.updateHealth _) fun _ => .pure _
      · rw [if_neg hretryable]
        exact h.dropClaim claim

/-- The next batch is claimed, and what is in hand is worked on. -/
theorem claimNext (ttl : Duration) (now : SystemTime)
    {f : Except StorageError (Option ClaimedBatch) → Cycle ω σ ε α}
    (hnone : Maintains (I none) (f (.ok none))) (herror : ∀ e, Maintains (I none) (f (.error e)))
    (hclaim : ∀ claim, Triple (I (some claim)) (f (.ok (some claim))) (fun _ => I none)
      (fun _ => I none)) :
    Maintains (I none) (onStore (k.ports.storage.spoolClaimNext ttl now) >>= f) := by
  refine Triple.bind (Q := fun claimed c => I (inHand claimed) c)
    (fun c hc => h.claim ttl now hc) fun claimed => ?_
  rcases claimed with e | _ | claim
  · exact herror e
  · exact hnone
  · exact hclaim claim

/-- A drain, by induction on its passes. -/
theorem drainSpool (fuel : Nat) (delivered : UInt32) :
    Maintains (I none)
      (Service.drainSpool k fuel delivered : Cycle ω σ ε (Option DrainResult)) := by
  induction fuel generalizing delivered with
  | zero => exact .pure _
  | succ fuel ih =>
      refine (h.onEnv _).bind fun stop => ?_
      cases stop with
      | true => exact .pure _
      | false =>
      refine (h.record rfl).bind fun _ => ?_
      refine (h.onEnv _).bind fun stop => ?_
      cases stop with
      | true => exact .pure _
      | false =>
      refine (h.onEnv _).bind fun now => ?_
      refine h.claimNext _ now (.pure _) (fun e => .pure _) fun claim => ?_
      refine Triple.bind (h.deliverClaim claim) fun status => ?_
      cases status with
      | delivered => exact ih (delivered + 1)
      | queued attempts => exact ih delivered
      | dropped attempts => exact ih delivered
      | skipped => exact ih delivered
      | failed e => exact Maintains.pure _

/-! ## A cycle -/

theorem acquire : Maintains (I none) (Service.acquire k) := by
  unfold Service.acquire
  refine (h.enter _ _).bind fun _ => ?_
  refine (h.phase _ _).bind fun _ => (Maintains.mapErr _ _).bind fun _ => ?_
  refine (h.enter _ _).bind fun _ => ?_
  refine (h.phase _ _).bind fun _ => (Maintains.mapErr _ _).bind fun _ => ?_
  refine (h.enter _ _).bind fun _ => ?_
  refine (h.onEnv _).bind fun vregs => ?_
  refine (h.onEnv _).bind fun _ => (Maintains.mapErr _ _).bind fun plan => ?_
  refine (h.phase _ _).bind fun _ => (Maintains.mapErr _ _).bind fun _ => ?_
  refine (h.enter _ _).bind fun _ => ?_
  refine (h.phase _ _).bind fun _ => (Maintains.mapErr _ _).bind fun _ => ?_
  refine (h.enter _ _).bind fun _ => ?_
  refine (h.phase _ _).bind fun _ => (Maintains.mapErr _ _).bind fun raw => ?_
  refine (h.enter _ _).bind fun _ => ?_
  refine (h.onEnv _).bind fun _ => (Maintains.mapErr _ _).bind fun values => ?_
  refine (h.onEnv _).bind fun _ => (Maintains.mapErr _ _).bind fun sample => ?_
  by_cases hempty : sample.isEmpty = true
  · rw [if_pos hempty]
    exact .throw _
  · rw [if_neg hempty]
    exact .pure _

theorem commitSample (sample : Sample) (prev : Option EnergyState) (energy : EnergyOutcome) :
    Maintains (I none) (Service.commitSample k sample prev energy) := by
  unfold Service.commitSample
  refine (h.onEnv _).bind fun now => ?_
  refine (h.readStore fun _ => .spoolHealth now).bind fun _ =>
    (Maintains.mapErr _ _).bind fun spool => ?_
  refine (h.onEnv _).bind fun now' => Maintains.getThen fun c => ?_
  refine (h.onEnv _).bind fun _ => (Maintains.mapErr _ _).bind fun payload => ?_
  -- the call and its event are one step of the invariant
  refine Triple.bind (Q := fun result c => ∃ c₀, I none c₀ ∧
    result = (k.ports.storage.commitAcquisition
      (acquisitionCommit k sample prev energy payload) c₀.store).1 ∧
    c = { c₀ with store := (k.ports.storage.commitAcquisition
      (acquisitionCommit k sample prev energy payload) c₀.store).2 })
    (fun c hc => ⟨c, hc, rfl, rfl⟩) fun result => ?_
  refine Triple.bind (Q := fun _ => I none) ?_ fun _ =>
    (Maintains.mapErr _ _).bind fun outcome => ?_
  · rintro _ ⟨c, hc, rfl, rfl⟩
    exact h.commit energy _ hc
  · cases outcome with
    | committed => exact (h.updateHealth _).bind fun _ => .pure _
    | alreadyCommitted => exact .pure _

theorem persist (sample : Sample) : Maintains (I none) (Service.persist k sample) := by
  unfold Service.persist
  refine (h.enter _ _).bind fun _ => ?_
  by_cases hepoch : sample.observedAt ≤ SystemTime.unixEpoch
  · rw [if_pos hepoch]
    exact .throw _
  · rw [if_neg hepoch]
    refine (h.readStore fun _ => .energyState).bind fun _ =>
      (Maintains.mapErr _ _).bind fun prev => ?_
    refine (h.readStore fun _ => .lastSuccess).bind fun _ =>
      (Maintains.mapErr _ _).bind fun success => ?_
    by_cases hduplicate : success.any (fun ls => sample.observedAt ≤ ls) = true
    · rw [if_pos hduplicate]
      exact .pure _
    · rw [if_neg hduplicate]
      exact h.commitSample _ _ _

theorem deliverFresh (duplicate : Bool) :
    Maintains (I none) (Service.deliverFresh k duplicate) := by
  unfold Service.deliverFresh
  cases duplicate with
  | true => exact .pure _
  | false =>
      refine (h.enter _ _).bind fun _ => ?_
      refine (h.onEnv _).bind fun now => ?_
      exact h.claimNext _ now (.pure _) (fun e => .pure _) fun claim => h.deliverClaim claim

theorem release : Maintains (I none) (Service.release k) := by
  refine (h.enter _ _).bind fun _ => ?_
  refine (h.phase _ _).bind fun _ => (Maintains.mapErr _ _).bind fun _ => ?_
  exact h.enter _ _

theorem cycleStates : Maintains (I none) (Service.cycleStates k) := by
  refine h.acquire.bind fun sample => (h.persist sample).bind fun persisted => ?_
  refine (h.onEnv _).bind fun stop => ?_
  cases stop with
  | true => exact .pure _
  | false =>
      refine (h.deliverFresh persisted.2).bind fun delivery => ?_
      exact h.release.bind fun _ => .pure _

theorem teardownAfterFailure : Maintains (I none) (Service.teardownAfterFailure k) := by
  refine Maintains.getThen fun c => ?_
  by_cases hthere : c.state.current ≠ .disconnecting
  · rw [if_pos hthere]
    refine (h.goto _).bind fun _ => (Maintains.mapErr _ _).bind fun _ => ?_
    exact (h.callBle _ _).bind fun _ => h.enter _ _
  · rw [if_neg hthere]
    exact (h.callBle _ _).bind fun _ => h.enter _ _

theorem teardownToShutdown : Maintains (I none) (Service.teardownToShutdown k) := by
  refine (h.goto _).bind fun _ => (Maintains.mapErr _ _).bind fun _ => ?_
  exact (h.callBle _ _).bind fun _ => h.enter _ _

theorem runCycle : Maintains (I none) (Service.runCycle k : Cycle ω σ ε CycleOutcome) := by
  refine h.cycleStates.attempt.bind fun walked => ?_
  rcases walked with ⟨p, e⟩ | result | ⟨p, sample⟩
  · refine (h.updateHealth _).bind fun _ => h.teardownAfterFailure.attempt.bind fun down => ?_
    cases down with
    | error e => exact .pure _
    | ok u => exact .pure _
  · exact .pure _
  · refine h.teardownToShutdown.attempt.bind fun down => ?_
    cases down with
    | error e => exact .pure _
    | ok u => exact .pure _

/-! ## The loop -/

theorem disconnectForShutdown : Maintains (I none) (Service.disconnectForShutdown k) := by
  refine (h.record rfl).bind fun _ => ?_
  exact (h.callBle _ _).bind fun _ => .pure _

theorem gotoIdleOrShutdown :
    Maintains (I none) (Service.gotoIdleOrShutdown : Cycle ω σ RunError Unit) := by
  refine Maintains.getThen fun c => ?_
  by_cases hdown : c.state.current = .shuttingDown
  · rw [if_pos hdown]
    exact .pure _
  · rw [if_neg hdown]
    exact h.enter _ _

theorem enterIdle : Maintains (I none) (do
    if (← get).state.current = .idle then Pure.pure ()
    else gotoIdle : Cycle ω σ RunError Unit) := by
  refine Maintains.getThen fun c => ?_
  by_cases hidle : c.state.current = .idle
  · rw [if_pos hidle]
    exact .pure _
  · rw [if_neg hidle]
    exact h.enter _ _

theorem reportProgress : Maintains (I none) (Service.reportProgress : Cycle ω σ RunError Unit) :=
  Maintains.getThen fun _ => h.record rfl

theorem awaitNext : Triple (Throughout (I none)) (Service.awaitNext k)
    (fun _ => Throughout (I none)) (fun _ => Throughout (I none)) := by
  refine Triple.bind (Q := fun _ => Throughout (I none)) (Triple.getState fun _ hr => hr)
    fun r => ?_
  by_cases hfirst : r.cycles = 0
  · rw [if_pos hfirst]
    exact Triple.pure fun _ hr => hr
  · rw [if_neg hfirst]
    refine Triple.bind (h.onEnv _).onCycle fun now => ?_
    extract_lets wait
    by_cases hzero : wait = 0
    · rw [if_pos hzero]
      exact Triple.pure fun _ hr => hr
    · rw [if_neg hzero]
      refine Triple.bind (h.onEnv _).onCycle fun _ => ?_
      exact (h.onEnv _).onCycle

theorem runOnce : Triple (Throughout (I none)) (Service.runOnce k) (fun _ => Throughout (I none))
    (fun _ => Throughout (I none)) := by
  have hbook : ∀ (f : Runner ω σ → Runner ω σ) (g : HealthSnapshot → HealthSnapshot) (flow : Flow),
      (∀ r, (f r).ctx = r.ctx ∧ (f r).records = r.records) →
      Triple (Throughout (I none)) (do
        modify f
        Service.onCycle (Service.updateHealth g)
        Pure.pure flow) (fun _ => Throughout (I none)) (fun _ => Throughout (I none)) := by
    intro f g flow hf
    refine Triple.bind (Q := fun _ => Throughout (I none)) (Triple.modifyState fun r hr => ?_)
      fun _ => Triple.bind (h.updateHealth g).onCycle fun _ => Triple.pure fun _ hr => hr
    obtain ⟨hctx, hrecords⟩ := hf r
    unfold Throughout
    rw [hctx, hrecords]
    exact hr
  refine Triple.bind (Q := fun r₀ r => I none r₀.ctx ∧ Throughout (I none) r)
    (Triple.getState fun r hr => ⟨hr.1, hr⟩) fun r₀ => ?_
  rintro r ⟨hentry, hr⟩
  revert r
  refine Triple.bind h.runCycle.onCycle fun outcome => ?_
  refine Triple.bind (Q := fun _ => Throughout (I none)) (Triple.modifyState fun r hr => ?_)
    fun _ => ?_
  · refine ⟨hr.1, fun rec hrec => ?_⟩
    rcases List.mem_append.mp hrec with hbefore | hnew
    · exact hr.2 rec hbefore
    · rw [List.mem_singleton.mp hnew]
      exact ⟨hentry, hr.1⟩
  · cases outcome with
    | success result => exact hbook _ _ _ fun _ => ⟨rfl, rfl⟩
    | failure p e =>
        exact Triple.bind (h.updateHealth _).onCycle fun _ => Triple.pure fun _ hr => hr
    | shutdownGraceful p sample => exact hbook _ _ _ fun _ => ⟨rfl, rfl⟩

/-- **An invariant of the calls is one of the loop.** -/
theorem iteration (drains : Nat) : Triple (Throughout (I none)) (Service.iteration k drains)
    (fun _ => Throughout (I none)) (fun _ => Throughout (I none)) := by
  have hstop : Triple (Throughout (I none)) (do
      Service.onCycle (Service.disconnectForShutdown k)
      Service.onCycle Service.gotoIdleOrShutdown
      Pure.pure Flow.stop) (fun _ => Throughout (I none)) (fun _ => Throughout (I none)) :=
    Triple.bind h.disconnectForShutdown.onCycle fun _ =>
      Triple.bind h.gotoIdleOrShutdown.onCycle fun _ => Triple.pure fun _ hr => hr
  refine Triple.bind h.reportProgress.onCycle fun _ => ?_
  refine Triple.bind (h.drainSpool drains 0).onCycle fun drained => ?_
  cases drained with
  | none => exact Triple.pure fun _ hr => hr
  | some result =>
      refine Triple.bind h.reportProgress.onCycle fun _ => ?_
      refine Triple.bind (h.onEnv _).onCycle fun stop => ?_
      cases stop with
      | true => exact hstop
      | false =>
          refine Triple.bind h.enterIdle.onCycle fun _ => ?_
          refine Triple.bind h.awaitNext fun stop => ?_
          cases stop with
          | true => exact hstop
          | false => exact h.runOnce

end CallInvariant

/-! ## Sources of payloads -/

/-- What a storage does with payloads. `holds` says that a batch with the payload is stored: a claim
hands out what is held, and only a commit that returns `Committed` adds to it. -/
structure PayloadContract (port : StoragePort σ) (holds : σ → List UInt8 → Prop) : Prop where
  read : ∀ {w w' payload}, ReadStep port w w' → holds w' payload → holds w payload
  spool : ∀ {w w' payload}, SpoolCallStep port w w' → holds w' payload → holds w payload
  claimed : ∀ ttl now {w claim}, (port.spoolClaimNext ttl now w).1 = .ok (some claim) →
    holds w claim.payload
  commit : ∀ {commit w payload}, holds (port.commitAcquisition commit w).2 payload →
    holds w payload ∨
      (port.commitAcquisition commit w).1 = .ok .committed ∧ payload = commit.payload

/-- The payload is from before the process, or a commit among the events has stored it. -/
def Sourced (earlier : List UInt8 → Prop) (events : List (Event σ)) (payload : List UInt8) : Prop :=
  earlier payload ∨ ∃ cycle ∈ committedCycles events, cycle.commit.payload = payload

theorem Sourced.append {earlier : List UInt8 → Prop} {events : List (Event σ)}
    {payload : List UInt8} (h : Sourced earlier events payload) (later : List (Event σ)) :
    Sourced earlier (events ++ later) payload := by
  rcases h with hearlier | ⟨cycle, hmem, hpayload⟩
  · exact .inl hearlier
  · refine .inr ⟨cycle, ?_, hpayload⟩
    rw [committedCycles_append]
    exact List.mem_append_left _ hmem

/-- What is stored, in hand and delivered has a source. -/
structure Traceable (holds : σ → List UInt8 → Prop) (earlier : List UInt8 → Prop)
    (hand : Option ClaimedBatch) (c : CycleContext ω σ) : Prop where
  stored : ∀ payload, holds c.store payload → Sourced earlier c.trace payload
  hand : ∀ claim ∈ hand, Sourced earlier c.trace claim.payload
  delivered : ∀ payload ∈ c.deliveries, Sourced earlier c.trace payload

variable {holds : σ → List UInt8 → Prop} {earlier : List UInt8 → Prop}

/-- A process that has just been started. -/
theorem Traceable.start (env : ω) {store : σ}
    (h : ∀ payload, holds store payload → earlier payload) :
    Traceable holds earlier none (CycleContext.new env store) where
  stored payload hp := .inl (h payload hp)
  hand := by simp
  delivered := by simp [CycleContext.deliveries, CycleContext.new]

/-- An event that delivers nothing. -/
theorem Traceable.event {c : CycleContext ω σ} (h : Traceable holds earlier hand c) {e : Event σ}
    (he : e.delivered? = none) {store : σ}
    (hstore : ∀ payload, holds store payload → Sourced earlier (c.trace ++ [e]) payload)
    (state : StateMachine) :
    Traceable holds earlier hand { c with
      store := store, state := state, trace := c.trace ++ [e] } where
  stored := hstore
  hand claim hclaim := (h.hand claim hclaim).append [e]
  delivered payload hp := by
    have hsame := deliveries_record c e
    rw [he, Option.toList_none, List.append_nil] at hsame
    exact (h.delivered payload (hsame ▸ hp)).append [e]

/-- **Nothing is delivered that was not committed.** -/
theorem PayloadContract.traceable (hc : PayloadContract k.ports.storage holds)
    (earlier : List UInt8 → Prop) : CallInvariant k (Traceable holds earlier) where
  env _ h := ⟨h.stored, h.hand, h.delivered⟩
  health _ h := ⟨h.stored, h.hand, h.delivered⟩
  moved {_ _ e} state h he := by
    refine h.event ?_ (fun payload hp => (h.stored payload hp).append _) state
    revert he
    cases e <;> simp [Event.quiet, Event.delivered?]
  read h hread := ⟨fun payload hp => h.stored payload (hc.read hread hp), h.hand, h.delivered⟩
  commit {c} energy commit h := by
    refine h.event rfl (fun payload hp => ?_) c.state
    rcases hc.commit hp with hheld | ⟨hresult, rfl⟩
    · exact (h.stored payload hheld).append _
    · refine .inr ⟨⟨energy, commit⟩, ?_, rfl⟩
      rw [hresult, committedCycles_append]
      exact List.mem_append_right _ (List.mem_singleton_self _)
  claim {c} ttl now h := by
    refine ⟨fun payload hp => h.stored payload (hc.spool (.claim ttl now) hp),
      fun claim hclaim => ?_, h.delivered⟩
    refine h.stored _ (hc.claimed ttl now ?_)
    revert hclaim
    cases (k.ports.storage.spoolClaimNext ttl now c.store).1 with
    | error e => simp [inHand]
    | ok claimed => simp [inHand]
  deliver {c claim} h := by
    refine ⟨fun payload hp => (h.stored payload hp).append _,
      fun other hother => (h.hand other hother).append _, fun payload hp => ?_⟩
    rw [deliveries_record] at hp
    rcases List.mem_append.mp hp with hbefore | hnow
    · exact (h.delivered payload hbefore).append _
    · obtain rfl := List.mem_singleton.mp hnow
      exact (h.hand claim rfl).append _
  settle h hsettle :=
    ⟨fun payload hp => h.stored payload (hc.spool hsettle.call hp), by simp, h.delivered⟩

end

end VeSmart.Service
