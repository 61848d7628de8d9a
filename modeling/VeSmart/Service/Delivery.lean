import VeSmart.Service.Context

set_option autoImplicit false

/-! # Delivery-spool coordination (`victron-service/src/delivery.rs`)

Batches are claimed one at a time, delivered, then completed, retried or dropped. What holds of
a context before and after such work is a `SpoolInvariant`: a property that no step of it can
break. -/

namespace VeSmart.Service

open VeSmart.Lib VeSmart.Domain

/-- Result of delivering one batch. -/
inductive DeliveryStatus where
  | delivered
  | queued (attempts : UInt32)
  | dropped (attempts : UInt32)
  | skipped
  | failed (error : StorageError)

/-- Result of one drain pass. -/
inductive DrainResult where
  | empty
  | delivered (count : UInt32)
  | stoppedGracefully
  | error (error : StorageError)

section

variable {ω σ ε : Type}

/-- Remove a claimed batch from the spool and count the bounded drop. -/
def dropClaim (k : Collector ω σ) (claim : ClaimedBatch) : Cycle ω σ ε DeliveryStatus := do
  match ← onStore (k.ports.storage.spoolDrop claim) with
  | .ok () => do
      updateHealth HealthSnapshot.recordSpoolDropped
      pure (.dropped claim.attempts)
  | .error e => pure (.failed e)

/-- Deliver one claimed batch and update spool ownership accordingly. -/
def deliverClaim (k : Collector ω σ) (claim : ClaimedBatch) : Cycle ω σ ε DeliveryStatus := do
  record (.progress .delivering)
  record (.deliver claim.payload)
  let result ← onEnv (k.ports.deliver claim.payload)
  record (.progress .delivering)
  match result with
  | .ok () => do
      match ← onStore (k.ports.storage.spoolComplete claim) with
      | .ok () => do
          updateHealth (fun h => h.recordDelivery true)
          pure .delivered
      | .error e => do
          -- delivered, but not completed: the batch will be claimed again
          updateHealth (fun h => h.recordDelivery true)
          pure (.failed e)
  | .error e => do
      updateHealth (fun h => h.recordDelivery false)
      if e.retryable then
        if k.config.spoolMaxAttempts ≤ claim.attempts then dropClaim k claim
        else do
          let now ← onEnv k.ports.now
          match ← onStore (k.ports.storage.spoolRetry claim now) with
          | .ok (.retried attempts) => pure (.queued attempts)
          | .ok (.dropped attempts) => do
              updateHealth HealthSnapshot.recordSpoolDropped
              pure (.dropped attempts)
          | .error e => pure (.failed e)
      else dropClaim k claim

/-- Replay queued batches oldest-first until the spool is empty, storage fails, or shutdown is
requested. Nothing is returned when `fuel` passes were not enough. -/
def drainSpool (k : Collector ω σ) : Nat → UInt32 → Cycle ω σ ε (Option DrainResult)
  | 0, _ => pure none
  | fuel + 1, delivered => do
      if ← onEnv k.ports.shutdownRequested then pure (some .stoppedGracefully)
      else do
        record (.progress .delivering)
        if ← onEnv k.ports.shutdownRequested then pure (some .stoppedGracefully)
        else do
          let now ← onEnv k.ports.now
          match ← onStore (k.ports.storage.spoolClaimNext k.config.spoolClaimTtl now) with
          | .ok none => pure (some (if 0 < delivered then .delivered delivered else .empty))
          | .ok (some claim) => do
              match ← deliverClaim k claim with
              | .delivered => drainSpool k fuel (delivered + 1)
              | .queued _ => drainSpool k fuel delivered
              | .dropped _ => drainSpool k fuel delivered
              | .skipped => drainSpool k fuel delivered
              | .failed e => pure (some (.error e))
          | .error e => pure (some (.error e))

/-! ## What spool work cannot break -/

/-- A storage operation of the delivery spool, run on a storage. -/
inductive SpoolCallStep (port : StoragePort σ) (store : σ) : σ → Prop
  | claim (ttl : Duration) (now : SystemTime) :
      SpoolCallStep port store (port.spoolClaimNext ttl now store).2
  | complete (claim : ClaimedBatch) : SpoolCallStep port store (port.spoolComplete claim store).2
  | retry (claim : ClaimedBatch) (now : SystemTime) :
      SpoolCallStep port store (port.spoolRetry claim now store).2
  | drop (claim : ClaimedBatch) : SpoolCallStep port store (port.spoolDrop claim store).2

/-- A property of contexts that the steps of spool work keep. -/
structure SpoolInvariant (k : Collector ω σ) (I : CycleContext ω σ → Prop) : Prop where
  env : ∀ c env, I c → I { c with env := env }
  store : ∀ c store, I c → SpoolCallStep k.ports.storage c.store store → I { c with store := store }
  delivery : ∀ c ok, I c → I { c with health := c.health.recordDelivery ok }
  dropped : ∀ c, I c → I { c with health := c.health.recordSpoolDropped }
  progress : ∀ c, I c → I { c with trace := c.trace ++ [.progress .delivering] }
  deliver : ∀ c payload, I c → I { c with trace := c.trace ++ [.deliver payload] }

variable {k : Collector ω σ} {I : CycleContext ω σ → Prop} {E : ε → CycleContext ω σ → Prop}

theorem SpoolInvariant.dropClaim (h : SpoolInvariant k I) (claim : ClaimedBatch) :
    Triple I (dropClaim k claim) (fun _ => I) E := by
  apply Triple.bind (Q := fun _ => I)
  · exact onStore_rule fun c hI => h.store c _ hI (.drop claim)
  · intro result
    cases result with
    | ok u =>
        apply Triple.bind (Q := fun _ => I)
        · exact updateHealth_rule fun c hI => h.dropped c hI
        · intro _
          exact Triple.pure fun _ hI => hI
    | error e => exact Triple.pure fun _ hI => hI

theorem SpoolInvariant.retry (h : SpoolInvariant k I) (claim : ClaimedBatch) :
    Triple I (do
      let now ← onEnv k.ports.now
      match ← onStore (k.ports.storage.spoolRetry claim now) with
      | .ok (.retried attempts) => pure (DeliveryStatus.queued attempts)
      | .ok (.dropped attempts) => do
          updateHealth HealthSnapshot.recordSpoolDropped
          pure (.dropped attempts)
      | .error e => pure (.failed e)) (fun _ => I) E := by
  apply Triple.bind (Q := fun _ => I)
  · exact onEnv_rule fun c _ env hI => h.env c env hI
  intro now
  apply Triple.bind (Q := fun _ => I)
  · exact onStore_rule fun c hI => h.store c _ hI (.retry claim now)
  intro result
  rcases result with e | attempts | attempts
  · exact Triple.pure fun _ hI => hI
  · exact Triple.pure fun _ hI => hI
  · apply Triple.bind (Q := fun _ => I)
    · exact updateHealth_rule fun c hI => h.dropped c hI
    · intro _
      exact Triple.pure fun _ hI => hI

theorem SpoolInvariant.deliverClaim (h : SpoolInvariant k I) (claim : ClaimedBatch) :
    Triple I (deliverClaim k claim) (fun _ => I) E := by
  have hcount : ∀ {status : DeliveryStatus} (ok : Bool), Triple I (do
      updateHealth (fun health => health.recordDelivery ok)
      pure status) (fun _ => I) E := by
    intro status ok
    apply Triple.bind (Q := fun _ => I)
    · exact updateHealth_rule fun c hI => h.delivery c ok hI
    · intro _
      exact Triple.pure fun _ hI => hI
  apply Triple.bind (Q := fun _ => I)
  · exact record_rule fun c hI => h.progress c hI
  intro _
  apply Triple.bind (Q := fun _ => I)
  · exact record_rule fun c hI => h.deliver c _ hI
  intro _
  apply Triple.bind (Q := fun _ => I)
  · exact onEnv_rule fun c _ env hI => h.env c env hI
  intro result
  apply Triple.bind (Q := fun _ => I)
  · exact record_rule fun c hI => h.progress c hI
  intro _
  cases result with
  | ok u =>
      apply Triple.bind (Q := fun _ => I)
      · exact onStore_rule fun c hI => h.store c _ hI (.complete claim)
      · intro completed
        cases completed with
        | ok u => exact hcount true
        | error e => exact hcount true
  | error e =>
      apply Triple.bind (Q := fun _ => I)
      · exact updateHealth_rule fun c hI => h.delivery c false hI
      intro _
      show Triple I (ite _ _ _) _ E
      split
      · show Triple I (ite _ _ _) _ E
        split
        · exact h.dropClaim claim
        · exact h.retry claim
      · exact h.dropClaim claim

/-- A drain of any number of passes, by induction on the passes. -/
theorem SpoolInvariant.drainSpool (h : SpoolInvariant k I) (fuel : Nat) (delivered : UInt32) :
    Triple I (drainSpool k fuel delivered) (fun _ => I) E := by
  induction fuel generalizing delivered with
  | zero => exact Triple.pure fun _ hI => hI
  | succ fuel ih =>
      have hshut : Triple I (onEnv k.ports.shutdownRequested) (fun _ => I) E :=
        onEnv_rule fun c _ env hI => h.env c env hI
      apply Triple.bind (Q := fun _ => I) hshut
      intro stop
      cases stop with
      | true => exact Triple.pure fun _ hI => hI
      | false =>
      apply Triple.bind (Q := fun _ => I)
      · exact record_rule fun c hI => h.progress c hI
      intro _
      apply Triple.bind (Q := fun _ => I) hshut
      intro stop
      cases stop with
      | true => exact Triple.pure fun _ hI => hI
      | false =>
      apply Triple.bind (Q := fun _ => I)
      · exact onEnv_rule fun c _ env hI => h.env c env hI
      intro now
      apply Triple.bind (Q := fun _ => I)
      · exact onStore_rule fun c hI => h.store c _ hI (.claim _ now)
      intro claimed
      rcases claimed with e | _ | claim
      · exact Triple.pure fun _ hI => hI
      · exact Triple.pure fun _ hI => hI
      · apply Triple.bind (Q := fun _ => I) (h.deliverClaim claim)
        intro status
        cases status with
        | delivered => exact ih (delivered + 1)
        | queued attempts => exact ih delivered
        | dropped attempts => exact ih delivered
        | skipped => exact ih delivered
        | failed e => exact Triple.pure fun _ hI => hI

end

end VeSmart.Service
