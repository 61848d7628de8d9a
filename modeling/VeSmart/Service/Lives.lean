import VeSmart.Service.Endings

set_option autoImplicit false

/-! # A service that may crash at any await

`deliver_claim` awaits the delivery and then one bookkeeping call, so a process that is killed
leaves the storage as it was between two of its awaits. `LifeStep` is the service from one await to
the next, with a restart possible in between, and `SpoolProgram.lives` says that a drain and a
cycle are runs of it. -/

namespace VeSmart.Service

open VeSmart.Lib VeSmart.Domain

/-! ## From await to await -/

/-- Where a process is with its delivery: at none, at a claimed batch, or at one that has been
answered. -/
inductive SpoolPoint where
  | between
  | claimed (claim : ClaimedBatch)
  | answered (claim : ClaimedBatch) (result : Except DeliveryError Unit)

/-- The health counters of the delivery. -/
structure Tally where
  succeeded : UInt64
  failed : UInt64
  dropped : UInt64

def Tally.zero : Tally := ⟨0, 0, 0⟩

def Tally.success (t : Tally) : Tally := { t with succeeded := t.succeeded + 1 }

def Tally.failure (t : Tally) (dropped : Bool) : Tally :=
  { t with failed := t.failed + 1, dropped := if dropped then t.dropped + 1 else t.dropped }

def HealthSnapshot.tally (h : HealthSnapshot) : Tally :=
  ⟨h.deliveriesSucceededTotal, h.deliveriesFailedTotal, h.spoolDroppedTotal⟩

/-- A storage and the process that has it open. `born` is the storage when the process started,
`calls` and `incomplete` are the delivery calls of the process and its claims that
`spool_complete` has failed for. -/
structure Life (σ : Type) where
  store : σ
  tally : Tally
  point : SpoolPoint
  born : σ
  calls : Nat
  incomplete : Nat

/-- A process that has just been started. -/
def Life.start {σ : Type} (store : σ) : Life σ := ⟨store, .zero, .between, store, 0, 0⟩

section

variable {ω σ α ε : Type}

def SpoolPoint.ofClaim : Except StorageError (Option ClaimedBatch) → SpoolPoint
  | .ok (some claim) => .claimed claim
  | _ => .between

/-- The batch was dropped by the retry itself. -/
def retryDropped : Except StorageError RetryOutcome → Bool
  | .ok (.dropped _) => true
  | _ => false

/-- One await of the service, or a crash with the restart after it. -/
inductive LifeStep (k : Collector ω σ) (l : Life σ) : Life σ → Prop
  | read (store : σ) (hpoint : l.point = .between) (hread : ReadStep k.ports.storage l.store store) :
      LifeStep k l { l with store := store }
  | commit (commit : AcquisitionCommit) (hpoint : l.point = .between) :
      LifeStep k l { l with store := (k.ports.storage.commitAcquisition commit l.store).2 }
  | claim (now : SystemTime) (hpoint : l.point = .between) :
      LifeStep k l { l with
        store := (k.ports.storage.spoolClaimNext k.config.spoolClaimTtl now l.store).2
        point := .ofClaim (k.ports.storage.spoolClaimNext k.config.spoolClaimTtl now l.store).1 }
  | deliver (claim : ClaimedBatch) (env : ω) (hpoint : l.point = .claimed claim) :
      LifeStep k l { l with
        point := .answered claim (k.ports.deliver claim.payload env).1
        calls := l.calls + 1 }
  | complete (claim : ClaimedBatch) (hpoint : l.point = .answered claim (.ok ())) :
      LifeStep k l { l with
        store := (k.ports.storage.spoolComplete claim l.store).2
        tally := l.tally.success
        point := .between
        incomplete := match (k.ports.storage.spoolComplete claim l.store).1 with
          | .ok () => l.incomplete
          | .error _ => l.incomplete + 1 }
  | drop (claim : ClaimedBatch) (e : DeliveryError) (hpoint : l.point = .answered claim (.error e))
      (hgive : e.retryable = false ∨ k.config.spoolMaxAttempts ≤ claim.attempts) :
      LifeStep k l { l with
        store := (k.ports.storage.spoolDrop claim l.store).2
        tally := l.tally.failure (k.ports.storage.spoolDrop claim l.store).1.isOk
        point := .between }
  | retry (claim : ClaimedBatch) (e : DeliveryError) (now : SystemTime)
      (hpoint : l.point = .answered claim (.error e)) (hretry : e.retryable = true)
      (hleft : ¬ k.config.spoolMaxAttempts ≤ claim.attempts) :
      LifeStep k l { l with
        store := (k.ports.storage.spoolRetry claim now l.store).2
        tally := l.tally.failure (retryDropped (k.ports.storage.spoolRetry claim now l.store).1)
        point := .between }
  | crash : LifeStep k l (.start l.store)

/-- The context of the service shows the life: after some steps from `l₀`, with the delivery at
`point`. -/
def Shows (k : Collector ω σ) (l₀ : Life σ) (point : SpoolPoint) (c : CycleContext ω σ) : Prop :=
  ∃ l, Relation.ReflTransGen (LifeStep k) l₀ l ∧ l.store = c.store ∧ l.tally = c.health.tally ∧
    l.point = point

variable {k : Collector ω σ} {l₀ : Life σ} {point : SpoolPoint} {c c' : CycleContext ω σ}

theorem Shows.congr (h : Shows k l₀ point c) (hstore : c'.store = c.store)
    (htally : c'.health.tally = c.health.tally) : Shows k l₀ point c' := by
  obtain ⟨l, hsteps, hs, ht, hp⟩ := h
  exact ⟨l, hsteps, by rw [hs, hstore], by rw [ht, htally], hp⟩

/-! ## The bookkeeping of one claim -/

theorem onEnv_answer {P : CycleContext ω σ → Prop} {Q : α → CycleContext ω σ → Prop}
    {E : ε → CycleContext ω σ → Prop} {f : ω → α × ω}
    (h : ∀ c, P c → Q (f c.env).1 { c with env := (f c.env).2 }) : Triple P (onEnv f) Q E :=
  fun c hP => h c hP

theorem record_shows {E : ε → CycleContext ω σ → Prop} (e : Event σ) :
    Triple (Shows k l₀ point) (record e) (fun _ => Shows k l₀ point) E :=
  record_rule fun _ h => h.congr rfl rfl

theorem onEnv_shows {E : ε → CycleContext ω σ → Prop} (f : ω → α × ω) :
    Triple (Shows k l₀ point) (onEnv f) (fun _ => Shows k l₀ point) E :=
  onEnv_rule fun _ _ _ h => h.congr rfl rfl

/-- A delivered batch: `spool_complete`, and the success counted whatever it returns. -/
theorem complete_shows {E : ε → CycleContext ω σ → Prop} (claim : ClaimedBatch) :
    Triple (Shows k l₀ (.answered claim (.ok ()))) (do
      match ← onStore (k.ports.storage.spoolComplete claim) with
      | .ok () => do
          updateHealth (fun h => h.recordDelivery true)
          pure DeliveryStatus.delivered
      | .error e => do
          updateHealth (fun h => h.recordDelivery true)
          pure (.failed e)) (fun _ => Shows k l₀ .between) E := by
  rintro c ⟨l, hsteps, hstore, htally, hpoint⟩
  have hdone : Shows k l₀ .between { c with
      store := (k.ports.storage.spoolComplete claim c.store).2
      health := c.health.recordDelivery true } := by
    refine ⟨_, hsteps.tail (.complete claim hpoint), by rw [hstore], ?_, rfl⟩
    show l.tally.success = _
    rw [htally]
    rfl
  rw [exec_bind_ok (exec_onStore _ _)]
  cases (k.ports.storage.spoolComplete claim c.store).1 with
  | ok u => exact hdone
  | error e => exact hdone

/-- The delivery of the batch has failed, and the failure is counted. -/
def Failed (k : Collector ω σ) (l₀ : Life σ) (claim : ClaimedBatch) (e : DeliveryError)
    (c : CycleContext ω σ) : Prop :=
  ∃ l, Relation.ReflTransGen (LifeStep k) l₀ l ∧ l.store = c.store ∧
    l.tally.failure false = c.health.tally ∧ l.point = .answered claim (.error e)

theorem drop_shows {E : ε → CycleContext ω σ → Prop} (claim : ClaimedBatch) (e : DeliveryError)
    (hgive : e.retryable = false ∨ k.config.spoolMaxAttempts ≤ claim.attempts) :
    Triple (Failed k l₀ claim e) (dropClaim k claim) (fun _ => Shows k l₀ .between) E := by
  rintro c ⟨l, hsteps, hstore, htally, hpoint⟩
  have hdropped := hsteps.tail (.drop claim e hpoint hgive)
  unfold dropClaim
  rw [exec_bind_ok (exec_onStore _ _)]
  rw [hstore] at hdropped
  cases hresult : (k.ports.storage.spoolDrop claim c.store).1 with
  | ok u =>
      rw [hresult] at hdropped
      refine ⟨_, hdropped, rfl, ?_, rfl⟩
      calc l.tally.failure true
          = { l.tally.failure false with dropped := (l.tally.failure false).dropped + 1 } := rfl
        _ = c.health.recordSpoolDropped.tally := by rw [htally]; rfl
  | error err =>
      rw [hresult] at hdropped
      exact ⟨_, hdropped, rfl, htally, rfl⟩

theorem retry_shows {E : ε → CycleContext ω σ → Prop} (claim : ClaimedBatch) (e : DeliveryError)
    (hretry : e.retryable = true) (hleft : ¬ k.config.spoolMaxAttempts ≤ claim.attempts) :
    Triple (Failed k l₀ claim e) (do
      let now ← onEnv k.ports.now
      match ← onStore (k.ports.storage.spoolRetry claim now) with
      | .ok (.retried attempts) => pure (DeliveryStatus.queued attempts)
      | .ok (.dropped attempts) => do
          updateHealth HealthSnapshot.recordSpoolDropped
          pure (.dropped attempts)
      | .error e => pure (.failed e)) (fun _ => Shows k l₀ .between) E := by
  rintro c ⟨l, hsteps, hstore, htally, hpoint⟩
  have hretried := hsteps.tail (.retry claim e (k.ports.now c.env).1 hpoint hretry hleft)
  rw [exec_bind_ok (exec_onEnv _ _), exec_bind_ok (exec_onStore _ _)]
  dsimp only
  rw [hstore] at hretried
  rcases hresult : (k.ports.storage.spoolRetry claim (k.ports.now c.env).1 c.store).1 with
    err | attempts | attempts
  · rw [hresult] at hretried
    exact ⟨_, hretried, rfl, htally, rfl⟩
  · rw [hresult] at hretried
    exact ⟨_, hretried, rfl, htally, rfl⟩
  · rw [hresult] at hretried
    refine ⟨_, hretried, rfl, ?_, rfl⟩
    calc l.tally.failure true
        = { l.tally.failure false with dropped := (l.tally.failure false).dropped + 1 } := rfl
      _ = c.health.recordSpoolDropped.tally := by rw [htally]; rfl

theorem deliverClaim_shows {E : ε → CycleContext ω σ → Prop} (claim : ClaimedBatch) :
    Triple (Shows k l₀ (.claimed claim)) (deliverClaim k claim) (fun _ => Shows k l₀ .between)
      E := by
  apply Triple.bind (record_shows _)
  intro _
  apply Triple.bind (record_shows _)
  intro _
  -- the answer of the network
  apply Triple.bind (Q := fun result => Shows k l₀ (.answered claim result))
  · apply onEnv_answer
    rintro c ⟨l, hsteps, hstore, htally, hpoint⟩
    exact ⟨_, hsteps.tail (.deliver claim c.env hpoint), hstore, htally, rfl⟩
  intro result
  apply Triple.bind (record_shows _)
  intro _
  cases result with
  | ok u => exact complete_shows claim
  | error e =>
      apply Triple.bind (Q := fun _ => Failed k l₀ claim e)
      · apply updateHealth_rule
        rintro c ⟨l, hsteps, hstore, htally, hpoint⟩
        exact ⟨l, hsteps, hstore, by rw [htally]; rfl, hpoint⟩
      intro _
      show Triple _ (ite _ _ _) _ E
      by_cases hretry : e.retryable = true
      · rw [if_pos hretry]
        show Triple _ (ite _ _ _) _ E
        by_cases hspent : k.config.spoolMaxAttempts ≤ claim.attempts
        · rw [if_pos hspent]
          exact drop_shows claim e (.inr hspent)
        · rw [if_neg hspent]
          exact retry_shows claim e hretry hspent
      · rw [if_neg hretry]
        exact drop_shows claim e (.inl (by simpa using hretry))

/-- The claim of the next batch. -/
theorem claim_shows {E : ε → CycleContext ω σ → Prop} (now : SystemTime) :
    Triple (Shows k l₀ .between) (onStore (k.ports.storage.spoolClaimNext k.config.spoolClaimTtl now))
      (fun claimed => Shows k l₀ (.ofClaim claimed)) E := by
  apply onStore_rule
  rintro c ⟨l, hsteps, hstore, htally, hpoint⟩
  refine ⟨_, hsteps.tail (.claim now hpoint), ?_, htally, ?_⟩
  · rw [hstore]
  · rw [hstore]

theorem drainSpool_shows {E : ε → CycleContext ω σ → Prop} (fuel : Nat) (delivered : UInt32) :
    Triple (Shows k l₀ .between) (drainSpool k fuel delivered) (fun _ => Shows k l₀ .between)
      E := by
  induction fuel generalizing delivered with
  | zero => exact Triple.pure fun _ h => h
  | succ fuel ih =>
      apply Triple.bind (onEnv_shows _)
      intro stop
      cases stop with
      | true => exact Triple.pure fun _ h => h
      | false =>
      apply Triple.bind (record_shows _)
      intro _
      apply Triple.bind (onEnv_shows _)
      intro stop
      cases stop with
      | true => exact Triple.pure fun _ h => h
      | false =>
      apply Triple.bind (onEnv_shows _)
      intro now
      apply Triple.bind (claim_shows now)
      intro claimed
      rcases claimed with e | _ | claim
      · exact Triple.pure fun _ h => h
      · exact Triple.pure fun _ h => h
      · apply Triple.bind (deliverClaim_shows claim)
        intro status
        cases status with
        | delivered => exact ih (delivered + 1)
        | queued attempts => exact ih delivered
        | dropped attempts => exact ih delivered
        | skipped => exact ih delivered
        | failed e => exact Triple.pure fun _ h => h

/-! ## The rest of a cycle -/

theorem goto_shows {E : ε → CycleContext ω σ → Prop} (p : CyclePhase) :
    Triple (Shows k l₀ point) (goto p) (fun _ => Shows k l₀ point) E := by
  intro c h
  unfold goto
  rw [exec_ofFun]
  cases c.state.transition p with
  | error e => exact h
  | ok state => exact h.congr rfl rfl

theorem mapErr_shows {ε' : Type} {f : ε' → ε} (result : Except ε' α) :
    Triple (Shows k l₀ point) (mapErr f result : Cycle ω σ ε α) (fun _ => Shows k l₀ point)
      (fun _ => Shows k l₀ point) :=
  mapErr_rule (fun _ _ h _ => h) (fun _ _ h _ => h)

theorem gotoPhase_shows (p : CyclePhase) :
    Triple (Shows k l₀ point) (gotoPhase p) (fun _ => Shows k l₀ point)
      (fun _ => Shows k l₀ point) :=
  Triple.bind (goto_shows p) mapErr_shows

theorem phase_shows {E : ε → CycleContext ω σ → Prop} (call : BleCall)
    (op : Duration → ω → Timed α × ω) :
    Triple (Shows k l₀ point) (phase k call op) (fun _ => Shows k l₀ point) E :=
  phase_rule fun _ _ _ h => h.congr rfl rfl

theorem updateHealth_shows {E : ε → CycleContext ω σ → Prop} {f : HealthSnapshot → HealthSnapshot}
    (hf : ∀ h, (f h).tally = h.tally) :
    Triple (Shows k l₀ point) (updateHealth f) (fun _ => Shows k l₀ point) E :=
  updateHealth_rule fun _ h => h.congr rfl (hf _)

theorem read_shows {E : ε → CycleContext ω σ → Prop} {f : σ → α × σ}
    (hf : ∀ store, ReadStep k.ports.storage store (f store).2) :
    Triple (Shows k l₀ .between) (onStore f) (fun _ => Shows k l₀ .between) E := by
  apply onStore_rule
  rintro c ⟨l, hsteps, hstore, htally, hpoint⟩
  exact ⟨_, hsteps.tail (.read _ hpoint (hstore ▸ hf c.store)), rfl, htally, hpoint⟩

theorem acquire_shows : Triple (Shows k l₀ point) (acquire k) (fun _ => Shows k l₀ point)
    (fun _ => Shows k l₀ point) := by
  unfold acquire
  refine Triple.bind (gotoPhase_shows _) fun _ => ?_
  refine Triple.bind (phase_shows _ _) fun _ => Triple.bind (mapErr_shows _) fun _ => ?_
  refine Triple.bind (gotoPhase_shows _) fun _ => ?_
  refine Triple.bind (phase_shows _ _) fun _ => Triple.bind (mapErr_shows _) fun _ => ?_
  refine Triple.bind (gotoPhase_shows _) fun _ => ?_
  refine Triple.bind (onEnv_shows _) fun _ => ?_
  refine Triple.bind (onEnv_shows _) fun _ => Triple.bind (mapErr_shows _) fun plan => ?_
  refine Triple.bind (phase_shows _ _) fun _ => Triple.bind (mapErr_shows _) fun _ => ?_
  refine Triple.bind (gotoPhase_shows _) fun _ => ?_
  refine Triple.bind (phase_shows _ _) fun _ => Triple.bind (mapErr_shows _) fun _ => ?_
  refine Triple.bind (gotoPhase_shows _) fun _ => ?_
  refine Triple.bind (phase_shows _ _) fun _ => Triple.bind (mapErr_shows _) fun raw => ?_
  refine Triple.bind (gotoPhase_shows _) fun _ => ?_
  refine Triple.bind (onEnv_shows _) fun _ => Triple.bind (mapErr_shows _) fun values => ?_
  refine Triple.bind (onEnv_shows _) fun _ => Triple.bind (mapErr_shows _) fun sample => ?_
  split
  · exact Triple.throw fun _ h => h
  · exact Triple.pure fun _ h => h

theorem commitSample_shows (sample : Sample) (prev : Option EnergyState) (energy : EnergyOutcome) :
    Triple (Shows k l₀ .between) (commitSample k sample prev energy)
      (fun _ => Shows k l₀ .between) (fun _ => Shows k l₀ .between) := by
  unfold commitSample
  refine Triple.bind (onEnv_shows _) fun now => ?_
  refine Triple.bind (read_shows fun store => .spoolHealth now) fun _ =>
    Triple.bind (mapErr_shows _) fun spool => ?_
  refine Triple.bind (onEnv_shows _) fun now' => ?_
  apply Triple.getThen
  intro c hc
  refine Triple.conseq (P := Shows k l₀ .between) ?_ (by rintro _ rfl; exact hc)
    (fun _ _ h => h) (fun _ _ h => h)
  refine Triple.bind (onEnv_shows _) fun _ => Triple.bind (mapErr_shows _) fun payload => ?_
  apply Triple.bind (Q := fun _ => Shows k l₀ .between)
  · apply onStore_rule
    rintro c ⟨l, hsteps, hstore, htally, hpoint⟩
    exact ⟨_, hsteps.tail (.commit _ hpoint), by rw [hstore], htally, hpoint⟩
  intro result
  refine Triple.bind (record_shows _) fun _ => Triple.bind (mapErr_shows _) fun outcome => ?_
  cases outcome with
  | alreadyCommitted => exact Triple.pure fun _ h => h
  | committed =>
      refine Triple.bind (updateHealth_shows fun h => ?_) fun _ => Triple.pure fun _ h => h
      cases energy.skippedGapSeconds <;> rfl

theorem persist_shows (sample : Sample) :
    Triple (Shows k l₀ .between) (persist k sample) (fun _ => Shows k l₀ .between)
      (fun _ => Shows k l₀ .between) := by
  unfold persist
  refine Triple.bind (gotoPhase_shows _) fun _ => ?_
  split
  · exact Triple.throw fun _ h => h
  refine Triple.bind (read_shows fun _ => .energyState) fun _ =>
    Triple.bind (mapErr_shows _) fun prev => ?_
  refine Triple.bind (read_shows fun _ => .lastSuccess) fun _ =>
    Triple.bind (mapErr_shows _) fun lastSuccess => ?_
  split
  · exact Triple.pure fun _ h => h
  · exact commitSample_shows sample prev _

theorem deliverFresh_shows (duplicate : Bool) :
    Triple (Shows k l₀ .between) (deliverFresh k duplicate) (fun _ => Shows k l₀ .between)
      (fun _ => Shows k l₀ .between) := by
  unfold deliverFresh
  split
  · exact Triple.pure fun _ h => h
  refine Triple.bind (gotoPhase_shows _) fun _ => Triple.bind (onEnv_shows _) fun now => ?_
  refine Triple.bind (claim_shows now) fun claimed => ?_
  rcases claimed with e | _ | claim
  · exact Triple.pure fun _ h => h
  · exact Triple.pure fun _ h => h
  · exact deliverClaim_shows claim

theorem cycleStates_shows :
    Triple (Shows k l₀ .between) (cycleStates k) (fun _ => Shows k l₀ .between)
      (fun _ => Shows k l₀ .between) := by
  unfold cycleStates
  refine Triple.bind acquire_shows fun sample => Triple.bind (persist_shows sample) fun done => ?_
  refine Triple.bind (onEnv_shows _) fun stop => ?_
  cases stop with
  | true => exact Triple.pure fun _ h => h
  | false =>
      refine Triple.bind (deliverFresh_shows _) fun delivery => ?_
      apply Triple.bind (Q := fun _ => Shows k l₀ .between)
      · unfold release
        refine Triple.bind (gotoPhase_shows _) fun _ => ?_
        exact Triple.bind (phase_shows _ _) fun _ => Triple.bind (mapErr_shows _) fun _ =>
          gotoPhase_shows _
      · intro _
        exact Triple.pure fun _ h => h

theorem disconnect_shows {E : ε → CycleContext ω σ → Prop} :
    Triple (Shows k l₀ point) (callBle k .disconnect k.ports.ble.disconnect)
      (fun _ => Shows k l₀ point) E :=
  callBle_rule fun _ _ _ h => h.congr rfl rfl

/-- A teardown is attempted, and its failure is an outcome. -/
theorem attempt_shows {ε' : Type} {E : ε' → CycleContext ω σ → Prop} {x : Cycle ω σ ε α}
    (hx : Triple (Shows k l₀ point) x (fun _ => Shows k l₀ point) (fun _ => Shows k l₀ point)) :
    Triple (Shows k l₀ point) (attempt x) (fun _ => Shows k l₀ point) E :=
  hx.attempt.conseq (fun _ h => h) (fun r _ h => by cases r <;> exact h) (fun _ _ h => h)

theorem runCycle_shows {E : ε → CycleContext ω σ → Prop} :
    Triple (Shows k l₀ .between) (runCycle k) (fun _ => Shows k l₀ .between) E := by
  have hteardown : ∀ p, Triple (Shows k l₀ .between) (do
      let _ ← callBle k .disconnect k.ports.ble.disconnect
      mapErr CycleError.state (← goto p)) (fun _ => Shows k l₀ .between)
      (fun _ => Shows k l₀ .between) := by
    intro p
    exact Triple.bind disconnect_shows fun _ => Triple.bind (goto_shows p) mapErr_shows
  apply Triple.bind (attempt_shows cycleStates_shows)
  intro walked
  rcases walked with ⟨p, e⟩ | result | ⟨p, sample⟩
  · -- a failure, torn down through `Disconnecting`
    apply Triple.bind (updateHealth_shows (f := recordFailureHealth e) fun h => by cases e <;> rfl)
    intro _
    apply Triple.bind
    · apply attempt_shows
      unfold teardownAfterFailure
      apply Triple.getThen
      intro c hc
      refine Triple.conseq (P := Shows k l₀ .between) ?_ (by rintro _ rfl; exact hc)
        (fun _ _ h => h) (fun _ _ h => h)
      split
      · exact Triple.bind (goto_shows _) fun _ =>
          Triple.bind (mapErr_shows _) fun _ => hteardown .backoff
      · exact hteardown .backoff
    · intro down
      cases down <;> exact Triple.pure fun _ h => h
  · exact Triple.pure fun _ h => h
  · apply Triple.bind
    · apply attempt_shows
      unfold teardownToShutdown
      exact Triple.bind (goto_shows _) fun _ =>
        Triple.bind (mapErr_shows _) fun _ => hteardown .shuttingDown
    · intro down
      cases down <;> exact Triple.pure fun _ h => h

/-- The two uses of the spool. -/
inductive SpoolProgram where
  | drain (fuel : Nat)
  | cycle

def SpoolProgram.exec (k : Collector ω σ) (c : CycleContext ω σ) :
    SpoolProgram → CycleContext ω σ
  | .drain fuel => (Lib.exec (drainSpool k fuel 0 : Cycle ω σ RunError _) c).2
  | .cycle => (Lib.exec (runCycle k : Cycle ω σ RunError _) c).2

/-- **A drain and a cycle are runs of await steps.** -/
theorem SpoolProgram.lives (program : SpoolProgram) (h : Shows k l₀ .between c) :
    Shows k l₀ .between (program.exec k c) := by
  have hend : ∀ {α : Type} {x : Cycle ω σ RunError α}, Triple (Shows k l₀ .between) x
      (fun _ => Shows k l₀ .between) (fun _ => Shows k l₀ .between) →
      Shows k l₀ .between (Lib.exec x c).2 :=
    fun hx => hx.to_exec (S := fun _ => Shows k l₀ .between) h
  cases program with
  | drain fuel => exact hend (drainSpool_shows fuel 0)
  | cycle => exact hend runCycle_shows

/-! ## What a delivery met -/

/-- A life, and the environment that the answer in hand came from. -/
structure Met (ω σ : Type) where
  life : Life σ
  met : Option ω

/-- A step of the life that notes the environment of a delivery. -/
inductive MetStep (k : Collector ω σ) (m : Met ω σ) : Met ω σ → Prop
  | deliver (claim : ClaimedBatch) (env : ω) (hpoint : m.life.point = .claimed claim) :
      MetStep k m ⟨{ m.life with
        point := .answered claim (k.ports.deliver claim.payload env).1
        calls := m.life.calls + 1 }, some env⟩
  | other (life : Life σ) (hstep : LifeStep k m.life life)
      (hquiet : ∀ claim result, life.point ≠ .answered claim result) : MetStep k m ⟨life, none⟩

/-- The answer in hand is what the environment answered to the claimed payload. -/
def Met.Truthful (k : Collector ω σ) (m : Met ω σ) : Prop :=
  ∀ claim result, m.life.point = .answered claim result →
    ∃ env, m.met = some env ∧ result = (k.ports.deliver claim.payload env).1

theorem MetStep.lifeStep {m m' : Met ω σ} (h : MetStep k m m') : LifeStep k m.life m'.life := by
  cases h with
  | deliver claim env hpoint => exact .deliver claim env hpoint
  | other life hstep _ => exact hstep

theorem MetStep.truthful {m m' : Met ω σ} (h : MetStep k m m') : m'.Truthful k := by
  intro claim result hpoint
  cases h with
  | deliver claim' env _ =>
      cases hpoint
      exact ⟨env, rfl, rfl⟩
  | other life _ hquiet => exact absurd hpoint (hquiet claim result)

/-- Every step can be noted: an answer comes from a delivery only. -/
theorem LifeStep.noted {l l' : Life σ} (h : LifeStep k l l') (met : Option ω) :
    ∃ met', MetStep k ⟨l, met⟩ ⟨l', met'⟩ := by
  have hother : (∀ claim result, l'.point ≠ .answered claim result) →
      ∃ met', MetStep k ⟨l, met⟩ ⟨l', met'⟩ :=
    fun hquiet => ⟨none, .other l' h hquiet⟩
  cases h with
  | deliver claim env hpoint => exact ⟨some env, .deliver claim env hpoint⟩
  | read _ hpoint _ | commit _ hpoint =>
      apply hother
      intro claim result hanswered
      cases hpoint.symm.trans hanswered
  | claim now _ =>
      apply hother
      intro claim result
      dsimp only
      unfold SpoolPoint.ofClaim
      split <;> exact SpoolPoint.noConfusion
  | complete | drop | retry | crash =>
      exact hother fun _ _ hanswered => nomatch hanswered

theorem lives_noted {l l' : Life σ} (h : Relation.ReflTransGen (LifeStep k) l l')
    (met : Option ω) : ∃ met', Relation.ReflTransGen (MetStep k) ⟨l, met⟩ ⟨l', met'⟩ := by
  induction h with
  | refl => exact ⟨met, .refl⟩
  | tail _ hstep ih =>
      obtain ⟨met₁, hsteps⟩ := ih
      obtain ⟨met₂, hnext⟩ := hstep.noted met₁
      exact ⟨met₂, hsteps.tail hnext⟩

end

end VeSmart.Service
