import VeSmart.Service.Delivery

set_option autoImplicit false

/-! # A storage that remembers its claims

`StoragePort.logged` is a storage that also writes down every batch that it hands out. Nothing
reads the log, so a drain over it is a drain over the storage itself (`drainSpool_logged`), and what
the log says at the end is what the drain has claimed. -/

namespace VeSmart.Service

open VeSmart.Lib VeSmart.Domain

section

variable {ω σ ε α : Type}

/-- The batch that a claim has handed out. -/
def claimedNow : Except StorageError (Option ClaimedBatch) → List ClaimedBatch
  | .ok (some claim) => [claim]
  | _ => []

/-- The operation on a storage with a log. -/
def unlogged (f : σ → α × σ) (w : σ × List ClaimedBatch) : α × (σ × List ClaimedBatch) :=
  ((f w.1).1, (f w.1).2, w.2)

/-- The storage with the log of its claims. -/
def StoragePort.logged (port : StoragePort σ) : StoragePort (σ × List ClaimedBatch) where
  lastSuccess := unlogged port.lastSuccess
  energyState := unlogged port.energyState
  commitAcquisition commit := unlogged (port.commitAcquisition commit)
  spoolHealth now := unlogged (port.spoolHealth now)
  spoolClaimNext ttl now w :=
    ((port.spoolClaimNext ttl now w.1).1, (port.spoolClaimNext ttl now w.1).2,
      w.2 ++ claimedNow (port.spoolClaimNext ttl now w.1).1)
  spoolComplete claim := unlogged (port.spoolComplete claim)
  spoolRetry claim now := unlogged (port.spoolRetry claim now)
  spoolDrop claim := unlogged (port.spoolDrop claim)

/-- The collector with the log of its claims. -/
def Collector.logged (k : Collector ω σ) : Collector ω (σ × List ClaimedBatch) where
  config := k.config
  device := k.device
  resolves := k.resolves
  ports := {
    ble := k.ports.ble
    protocol := k.ports.protocol
    storage := k.ports.storage.logged
    deliver := k.ports.deliver
    render := k.ports.render
    now := k.ports.now
    shutdownRequested := k.ports.shutdownRequested
    wait := k.ports.wait }
  energy := k.energy
  backoff := k.backoff
  interval := k.interval

def Event.mapStore {τ : Type} (f : σ → τ) : Event σ → Event τ
  | .phase p store => .phase p (f store)
  | .progress p => .progress p
  | .ble call => .ble call
  | .commit energy c result => .commit energy c result
  | .deliver payload => .deliver payload

def CycleContext.mapStore {τ : Type} (f : σ → τ) (c : CycleContext ω σ) : CycleContext ω τ where
  env := c.env
  store := f c.store
  state := c.state
  health := c.health
  trace := c.trace.map (Event.mapStore f)

/-- The context with a log. -/
def CycleContext.withLog (c : CycleContext ω σ) (log : List ClaimedBatch) :
    CycleContext ω (σ × List ClaimedBatch) := c.mapStore fun store => (store, log)

/-- The context without the log. -/
def CycleContext.unlogged (c : CycleContext ω (σ × List ClaimedBatch)) : CycleContext ω σ :=
  c.mapStore Prod.fst

/-- The batches that have been handed out. -/
def CycleContext.claims (c : CycleContext ω (σ × List ClaimedBatch)) : List ClaimedBatch :=
  c.store.2

@[simp] theorem CycleContext.unlogged_withLog (c : CycleContext ω σ) (log : List ClaimedBatch) :
    (c.withLog log).unlogged = c := by
  have htrace : (c.trace.map (Event.mapStore fun store => (store, log))).map
      (Event.mapStore Prod.fst) = c.trace := by
    rw [List.map_map]
    calc c.trace.map (Event.mapStore Prod.fst ∘ Event.mapStore fun store => (store, log))
        = c.trace.map id := List.map_congr_left fun e _ => by cases e <;> rfl
      _ = c.trace := List.map_id _
  unfold withLog unlogged mapStore
  rw [htrace]

/-! ## The log decides nothing -/

variable {k : Collector ω σ}

/-- A program of the logged collector is the program of the collector itself. -/
def Unlogs (x : Cycle ω (σ × List ClaimedBatch) ε α) (y : Cycle ω σ ε α) : Prop :=
  Projects CycleContext.unlogged x y

theorem onEnv_unlogs (f : ω → α × ω) :
    Unlogs (onEnv f : Cycle ω (σ × List ClaimedBatch) ε α) (onEnv f) := fun _ => rfl

theorem onStore_unlogs {f : σ × List ClaimedBatch → α × (σ × List ClaimedBatch)} {h : σ → α × σ}
    (hf : ∀ w, h w.1 = ((f w).1, (f w).2.1)) :
    Unlogs (onStore f : Cycle ω (σ × List ClaimedBatch) ε α) (onStore h) := by
  intro c
  have hstore : h c.unlogged.store = ((f c.store).1, (f c.store).2.1) := hf c.store
  rw [exec_onStore, exec_onStore, hstore]
  rfl

theorem record_unlogs {e : Event (σ × List ClaimedBatch)} :
    Unlogs (record e : Cycle ω (σ × List ClaimedBatch) ε Unit) (record (e.mapStore Prod.fst)) := by
  intro c
  unfold CycleContext.unlogged CycleContext.mapStore record
  simp

theorem updateHealth_unlogs (f : HealthSnapshot → HealthSnapshot) :
    Unlogs (updateHealth f : Cycle ω (σ × List ClaimedBatch) ε Unit) (updateHealth f) :=
  fun _ => rfl

theorem dropClaim_unlogs (claim : ClaimedBatch) :
    Unlogs (dropClaim k.logged claim : Cycle _ _ ε _) (dropClaim k claim) := by
  refine Projects.bind (onStore_unlogs fun _ => rfl) fun result => ?_
  cases result with
  | ok u => exact Projects.bind (updateHealth_unlogs _) fun _ => Projects.pure _
  | error e => exact Projects.pure _

theorem deliverClaim_unlogs (claim : ClaimedBatch) :
    Unlogs (deliverClaim k.logged claim : Cycle _ _ ε _) (deliverClaim k claim) := by
  refine Projects.bind record_unlogs fun _ => ?_
  refine Projects.bind record_unlogs fun _ => ?_
  refine Projects.bind (onEnv_unlogs _) fun result => ?_
  refine Projects.bind record_unlogs fun _ => ?_
  cases result with
  | ok u =>
      refine Projects.bind (onStore_unlogs fun _ => rfl) fun completed => ?_
      cases completed <;> exact Projects.bind (updateHealth_unlogs _) fun _ => Projects.pure _
  | error e =>
      refine Projects.bind (updateHealth_unlogs _) fun _ => ?_
      refine Projects.ite (Projects.ite (dropClaim_unlogs claim) ?_) (dropClaim_unlogs claim)
      refine Projects.bind (onEnv_unlogs _) fun now => ?_
      refine Projects.bind (onStore_unlogs fun _ => rfl) fun retried => ?_
      rcases retried with e | attempts | attempts
      · exact Projects.pure _
      · exact Projects.pure _
      · exact Projects.bind (updateHealth_unlogs _) fun _ => Projects.pure _

/-- **The log is not in the way of a drain**, by induction on the passes. -/
theorem drainSpool_unlogs (fuel : Nat) (delivered : UInt32) :
    Unlogs (drainSpool k.logged fuel delivered : Cycle _ _ ε _) (drainSpool k fuel delivered) := by
  induction fuel generalizing delivered with
  | zero => exact Projects.pure _
  | succ fuel ih =>
      refine Projects.bind (onEnv_unlogs _) fun stop => Projects.ite (Projects.pure _) ?_
      refine Projects.bind record_unlogs fun _ => ?_
      refine Projects.bind (onEnv_unlogs _) fun stop => Projects.ite (Projects.pure _) ?_
      refine Projects.bind (onEnv_unlogs _) fun now => ?_
      refine Projects.bind (onStore_unlogs fun _ => rfl) fun claimed => ?_
      rcases claimed with e | _ | claim
      · exact Projects.pure _
      · exact Projects.pure _
      · refine Projects.bind (deliverClaim_unlogs claim) fun status => ?_
        cases status with
        | delivered => exact ih (delivered + 1)
        | queued attempts => exact ih delivered
        | dropped attempts => exact ih delivered
        | skipped => exact ih delivered
        | failed e => exact Projects.pure _

/-! ## One pass of a drain -/

def Event.delivered? : Event σ → Option (List UInt8)
  | .deliver payload => some payload
  | _ => none

/-- The payloads that have been delivered, in their order. -/
def CycleContext.deliveries (c : CycleContext ω σ) : List (List UInt8) :=
  c.trace.filterMap Event.delivered?

@[simp] theorem deliveries_unlogged (c : CycleContext ω (σ × List ClaimedBatch)) :
    c.unlogged.deliveries = c.deliveries := by
  unfold CycleContext.deliveries CycleContext.unlogged CycleContext.mapStore
  rw [List.filterMap_map]
  apply List.filterMap_congr
  intro e _
  cases e <;> rfl

theorem deliveries_record (c : CycleContext ω σ) (e : Event σ) :
    ({ c with trace := c.trace ++ [e] } : CycleContext ω σ).deliveries =
      c.deliveries ++ e.delivered?.toList := by
  unfold CycleContext.deliveries
  cases he : e.delivered? with
  | none => simp [he]
  | some payload => simp [he]

/-- What the bookkeeping of a delivered batch reports, and the storage that it leaves. -/
inductive ClaimEnds (port : StoragePort σ) (claim : ClaimedBatch) (store : σ) :
    DeliveryStatus → σ → Prop
  | delivered (h : (port.spoolComplete claim store).1 = .ok ()) :
      ClaimEnds port claim store .delivered (port.spoolComplete claim store).2
  | incomplete (e : StorageError) (h : (port.spoolComplete claim store).1 = .error e) :
      ClaimEnds port claim store (.failed e) (port.spoolComplete claim store).2
  | dropped (h : (port.spoolDrop claim store).1 = .ok ()) :
      ClaimEnds port claim store (.dropped claim.attempts) (port.spoolDrop claim store).2
  | undropped (e : StorageError) (h : (port.spoolDrop claim store).1 = .error e) :
      ClaimEnds port claim store (.failed e) (port.spoolDrop claim store).2
  | retried (now : SystemTime) (attempts : UInt32)
      (h : (port.spoolRetry claim now store).1 = .ok (.retried attempts)) :
      ClaimEnds port claim store (.queued attempts) (port.spoolRetry claim now store).2
  | spent (now : SystemTime) (attempts : UInt32)
      (h : (port.spoolRetry claim now store).1 = .ok (.dropped attempts)) :
      ClaimEnds port claim store (.dropped attempts) (port.spoolRetry claim now store).2
  | unretried (now : SystemTime) (e : StorageError)
      (h : (port.spoolRetry claim now store).1 = .error e) :
      ClaimEnds port claim store (.failed e) (port.spoolRetry claim now store).2

/-- The bookkeeping of a logged storage is that of the storage, and claims nothing. -/
theorem ClaimEnds.unlogged {port : StoragePort σ} {claim : ClaimedBatch}
    {w w' : σ × List ClaimedBatch} {status : DeliveryStatus}
    (h : ClaimEnds port.logged claim w status w') :
    ClaimEnds port claim w.1 status w'.1 ∧ w'.2 = w.2 := by
  cases h with
  | delivered h => exact ⟨.delivered h, rfl⟩
  | incomplete e h => exact ⟨.incomplete e h, rfl⟩
  | dropped h => exact ⟨.dropped h, rfl⟩
  | undropped e h => exact ⟨.undropped e h, rfl⟩
  | retried now attempts h => exact ⟨.retried now attempts h, rfl⟩
  | spent now attempts h => exact ⟨.spent now attempts h, rfl⟩
  | unretried now e h => exact ⟨.unretried now e h, rfl⟩

/-- The claim has been delivered once since `c₀`, and the storage does not know it yet. -/
def Underway (claim : ClaimedBatch) (c₀ c : CycleContext ω σ) : Prop :=
  c.store = c₀.store ∧ c.deliveries = c₀.deliveries ++ [claim.payload]

/-- The claim has been delivered once since `c₀`, and settled with the status that is reported. -/
def DeliveredOnce (k : Collector ω σ) (claim : ClaimedBatch) (c₀ : CycleContext ω σ)
    (status : DeliveryStatus) (c : CycleContext ω σ) : Prop :=
  ClaimEnds k.ports.storage claim c₀.store status c.store ∧
    c.deliveries = c₀.deliveries ++ [claim.payload]

/-- A bookkeeping call, and what is counted after it. -/
theorem settle_once {claim : ClaimedBatch} {c₀ : CycleContext ω σ} {f : σ → α × σ}
    {rest : α → Cycle ω σ ε DeliveryStatus}
    (hrest : ∀ a c, ∃ status health, exec (rest a) c = (.ok status, { c with health := health }) ∧
      ∀ store, (f store).1 = a → ClaimEnds k.ports.storage claim store status (f store).2) :
    Triple (Underway claim c₀) (onStore f >>= rest) (DeliveredOnce k claim c₀)
      (fun _ _ => False) := by
  rintro c ⟨hstore, hdeliveries⟩
  obtain ⟨status, health, hexec, hends⟩ := hrest (f c.store).1 { c with store := (f c.store).2 }
  rw [exec_bind_ok (exec_onStore _ _), hexec]
  exact ⟨hstore ▸ hends c.store rfl, hdeliveries⟩

theorem deliverClaim_once (claim : ClaimedBatch) (c₀ : CycleContext ω σ) :
    Triple (fun c => c = c₀) (deliverClaim k claim : Cycle ω σ ε DeliveryStatus)
      (DeliveredOnce k claim c₀) (fun _ _ => False) := by
  have hdrop : Triple (Underway claim c₀) (dropClaim k claim : Cycle ω σ ε DeliveryStatus)
      (DeliveredOnce k claim c₀) (fun _ _ => False) := by
    refine settle_once fun result c => ?_
    cases result with
    | ok u => exact ⟨_, _, rfl, fun _ h => .dropped h⟩
    | error e => exact ⟨_, _, rfl, fun _ h => .undropped e h⟩
  refine Triple.bind (Q := fun _ c => c.store = c₀.store ∧ c.deliveries = c₀.deliveries) ?_
    fun _ => ?_
  · apply record_rule
    rintro c rfl
    exact ⟨rfl, by rw [deliveries_record]; exact List.append_nil _⟩
  refine Triple.bind (Q := fun _ => Underway claim c₀) ?_ fun _ => ?_
  · apply record_rule
    rintro c ⟨hstore, hdeliveries⟩
    exact ⟨hstore, by rw [deliveries_record, hdeliveries]; rfl⟩
  refine Triple.bind (onEnv_rule (Q := fun _ => Underway claim c₀) fun _ _ _ h => h)
    fun result => ?_
  refine Triple.bind (Q := fun _ => Underway claim c₀) ?_ fun _ => ?_
  · apply record_rule
    rintro c ⟨hstore, hdeliveries⟩
    exact ⟨hstore, by rw [deliveries_record, hdeliveries]; exact List.append_nil _⟩
  cases result with
  | ok u =>
      refine settle_once fun completed c => ?_
      cases completed with
      | ok u => exact ⟨_, _, rfl, fun _ h => .delivered h⟩
      | error e => exact ⟨_, _, rfl, fun _ h => .incomplete e h⟩
  | error e =>
      refine Triple.bind (updateHealth_rule (Q := fun _ => Underway claim c₀) fun _ h => h)
        fun _ => ?_
      show Triple _ (ite _ _ _) _ _
      split
      · show Triple _ (ite _ _ _) _ _
        split
        · exact hdrop
        · refine Triple.bind (onEnv_rule (Q := fun _ => Underway claim c₀) fun _ _ _ h => h)
            fun now => ?_
          refine settle_once fun retried c => ?_
          rcases retried with e | attempts | attempts
          · exact ⟨_, _, rfl, fun _ h => .unretried now e h⟩
          · exact ⟨_, _, rfl, fun _ h => .retried now attempts h⟩
          · exact ⟨_, _, rfl, fun _ h => .spent now attempts h⟩
      · exact hdrop

/-- How a pass leaves the drain: it is over, or it goes on with a new count. -/
inductive PassEnd where
  | ended (result : DrainResult)
  | again (delivered : UInt32)

/-- What the drain does after the pass. -/
def PassEnd.rest (k : Collector ω σ) (fuel : Nat) : PassEnd → Cycle ω σ ε (Option DrainResult)
  | .ended result => pure (some result)
  | .again delivered => drainSpool k fuel delivered

/-- One pass: it stops before it claims, it is handed out nothing, or it delivers one claim. -/
inductive Pass (k : Collector ω σ) (c : CycleContext ω σ) :
    PassEnd → List ClaimedBatch → CycleContext ω σ → Prop
  | stopped {c' : CycleContext ω σ} {result : DrainResult} (hstore : c'.store = c.store)
      (hdeliveries : c'.deliveries = c.deliveries) : Pass k c (.ended result) [] c'
  | unclaimed {c' : CycleContext ω σ} {result : DrainResult} {now : SystemTime}
      (hclaim : claimedNow
        (k.ports.storage.spoolClaimNext k.config.spoolClaimTtl now c.store).1 = [])
      (hstore : c'.store = (k.ports.storage.spoolClaimNext k.config.spoolClaimTtl now c.store).2)
      (hdeliveries : c'.deliveries = c.deliveries) : Pass k c (.ended result) [] c'
  | delivered {c' : CycleContext ω σ} {claim : ClaimedBatch} {now : SystemTime} (next : PassEnd)
      {status : DeliveryStatus}
      (hclaim : (k.ports.storage.spoolClaimNext k.config.spoolClaimTtl now c.store).1 =
        .ok (some claim))
      (hends : ClaimEnds k.ports.storage claim
        (k.ports.storage.spoolClaimNext k.config.spoolClaimTtl now c.store).2 status c'.store)
      (hdeliveries : c'.deliveries = c.deliveries ++ [claim.payload]) :
      Pass k c next [claim] c'

/-- The end of a pass that has delivered a claim. -/
def DeliveryStatus.next (delivered : UInt32) : DeliveryStatus → PassEnd
  | .delivered => .again (delivered + 1)
  | .queued _ => .again delivered
  | .dropped _ => .again delivered
  | .skipped => .again delivered
  | .failed e => .ended (.error e)

/-- **A drain is one pass and the rest of the drain.** -/
theorem drainSpool_pass (k : Collector ω σ) (delivered : UInt32) (c : CycleContext ω σ) :
    ∃ next claims c', Pass k c next claims c' ∧ ∀ fuel,
      exec (drainSpool k (fuel + 1) delivered : Cycle ω σ ε _) c = exec (next.rest k fuel) c' := by
  -- the contexts after the first test, the progress report, the second test and the clock
  let c₁ : CycleContext ω σ := { c with env := (k.ports.shutdownRequested c.env).2 }
  let c₂ : CycleContext ω σ := { c₁ with trace := c₁.trace ++ [.progress .delivering] }
  let c₃ : CycleContext ω σ := { c₂ with env := (k.ports.shutdownRequested c₂.env).2 }
  let c₄ : CycleContext ω σ := { c₃ with env := (k.ports.now c₃.env).2 }
  have hreported : c₂.deliveries = c.deliveries :=
    (deliveries_record c₁ _).trans (List.append_nil _)
  have hrecord : exec (record (.progress .delivering) : Cycle ω σ ε Unit) c₁ = (.ok (), c₂) := rfl
  by_cases hstop : (k.ports.shutdownRequested c.env).1 = true
  · refine ⟨.ended .stoppedGracefully, [], c₁, .stopped rfl rfl, fun fuel => ?_⟩
    rw [drainSpool, exec_bind_ok (exec_onEnv _ _), if_pos hstop]
    rfl
  by_cases hstop' : (k.ports.shutdownRequested c₂.env).1 = true
  · refine ⟨.ended .stoppedGracefully, [], c₃, .stopped rfl hreported, fun fuel => ?_⟩
    rw [drainSpool, exec_bind_ok (exec_onEnv _ _), if_neg hstop, exec_bind_ok hrecord,
      exec_bind_ok (exec_onEnv _ _), if_pos hstop']
    rfl
  let claim := k.ports.storage.spoolClaimNext k.config.spoolClaimTtl (k.ports.now c₃.env).1
  let c₅ : CycleContext ω σ := { c₄ with store := (claim c.store).2 }
  rcases hclaim : (claim c.store).1 with e | _ | batch
  · refine ⟨.ended (.error e), [], c₅, .unclaimed (congrArg claimedNow hclaim) rfl hreported,
      fun fuel => ?_⟩
    rw [drainSpool, exec_bind_ok (exec_onEnv _ _), if_neg hstop, exec_bind_ok hrecord,
      exec_bind_ok (exec_onEnv _ _), if_neg hstop', exec_bind_ok (exec_onEnv _ _),
      exec_bind_ok (exec_onStore _ _), hclaim]
    rfl
  · refine ⟨.ended (if 0 < delivered then .delivered delivered else .empty), [], c₅,
      .unclaimed (congrArg claimedNow hclaim) rfl hreported, fun fuel => ?_⟩
    rw [drainSpool, exec_bind_ok (exec_onEnv _ _), if_neg hstop, exec_bind_ok hrecord,
      exec_bind_ok (exec_onEnv _ _), if_neg hstop', exec_bind_ok (exec_onEnv _ _),
      exec_bind_ok (exec_onStore _ _), hclaim]
    rfl
  · rcases hdeliver : exec (deliverClaim k batch : Cycle ω σ ε _) c₅ with ⟨e | status, c₆⟩
    · exact ((deliverClaim_once batch c₅).error rfl hdeliver).elim
    obtain ⟨hends, hdeliveries⟩ := (deliverClaim_once batch c₅).ok rfl hdeliver
    have hpayload : c₆.deliveries = c.deliveries ++ [batch.payload] :=
      hdeliveries.trans (congrArg (· ++ _) hreported)
    refine ⟨status.next delivered, [batch], c₆, .delivered _ hclaim hends hpayload,
      fun fuel => ?_⟩
    rw [drainSpool, exec_bind_ok (exec_onEnv _ _), if_neg hstop, exec_bind_ok hrecord,
      exec_bind_ok (exec_onEnv _ _), if_neg hstop', exec_bind_ok (exec_onEnv _ _),
      exec_bind_ok (exec_onStore _ _), hclaim]
    refine (exec_bind_ok hdeliver).trans ?_
    cases status <;> rfl

end

end VeSmart.Service
