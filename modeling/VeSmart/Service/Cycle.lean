import VeSmart.Service.Delivery

set_option autoImplicit false

/-! # One acquisition cycle (`victron-service/src/cycle.rs`)

`cycleStates` walks the state machine: `acquire` up to the sample, `persist` the one durable
step, then delivery and the release of the link. `runCycle` adds the teardown of a failed or
interrupted walk. -/

namespace VeSmart.Service

open VeSmart.Lib VeSmart.Domain

/-- Phase-level failure of one cycle. -/
inductive CycleError where
  | discover (error : BleError)
  | connect (error : BleError)
  | plan (error : ProtocolError)
  | negotiate (error : BleError)
  | subscribe (error : BleError)
  | request (error : BleError)
  | parse (error : ProtocolError)
  | persist (error : StorageError)
  | render (error : RenderError)
  | disconnect (error : BleError)
  | state (error : StateTransitionError)

/-- Everything the cycle produced for reporting. -/
structure CycleResult where
  device : DeviceIdentity
  sample : Sample
  resolvedYieldKwh : F64
  energy : EnergyOutcome
  delivery : DeliveryStatus
  duplicate : Bool

/-- Outcome of one cycle. -/
inductive CycleOutcome where
  | success (result : CycleResult)
  | failure (phase : CyclePhase) (error : CycleError)
  | shutdownGraceful (phase : CyclePhase) (sample : Sample)

inductive Step where
  | done (result : CycleResult)
  | shutdown (phase : CyclePhase) (sample : Sample)

section

variable {ω σ ε : Type}

/-- `goto` mapped onto the cycle-step error type. -/
def gotoPhase (phase : CyclePhase) : Cycle ω σ (CyclePhase × CycleError) Unit := do
  mapErr (fun e => (phase, .state e)) (← goto phase)

/-! ## The walk -/

/-- From `Idle` to a sample with at least one field. -/
def acquire (k : Collector ω σ) : Cycle ω σ (CyclePhase × CycleError) Sample := do
  gotoPhase .discovering
  mapErr (fun e => (.discovering, .discover e)) (← phase k .discover k.ports.ble.discover)
  gotoPhase .connecting
  mapErr (fun e => (.connecting, .connect e)) (← phase k .connect k.ports.ble.connect)
  gotoPhase .negotiating
  let vregs ← onEnv k.ports.protocol.vregs
  let plan ← mapErr (fun e => (.negotiating, .plan e))
    (← onEnv (k.ports.protocol.acquirePlan k.config.inst vregs))
  mapErr (fun e => (.negotiating, .negotiate e))
    (← phase k (.negotiate plan.negotiationFrames)
      (k.ports.ble.negotiate plan.negotiationFrames))
  gotoPhase .subscribing
  mapErr (fun e => (.subscribing, .subscribe e))
    (← phase k (.subscribe k.config.inst plan.subscribePayload)
      (k.ports.ble.subscribe k.config.inst plan.subscribePayload))
  gotoPhase .requesting
  let raw ← mapErr (fun e => (.requesting, .request e))
    (← phase k (.requestValues plan.valuesPayload k.config.responseTimeout)
      (k.ports.ble.requestValues plan.valuesPayload k.config.responseTimeout))
  gotoPhase .collecting
  let values ← mapErr (fun e => (.collecting, .parse e))
    (← onEnv (k.ports.protocol.parseResponse k.config.inst raw))
  let sample ← mapErr (fun e => (.collecting, .parse e))
    (← onEnv (k.ports.protocol.translate k.config.inst values))
  if sample.isEmpty then throw (.collecting, .parse .emptyResponse) else pure sample

/-- What the renderer is told about a sample that is about to be committed: the new batch and
the skipped gap are already counted in. -/
def renderContext (k : Collector ω σ) (sample : Sample) (energy : EnergyOutcome)
    (spool : SpoolHealth) (now : SystemTime) (health : HealthSnapshot) : RenderContext where
  device := k.device.device
  sample := sample
  resolvedYieldKwh := energy.totalKwh
  energyKind := energy.kind
  bleUp := sample.connectionHealth.map (fun h => h = .up)
  bleRssiDbm := sample.bleRssiDbm.map (fun m => m.value.truncate)
  lastSuccess := some sample.observedAt
  sampleAge := now.durationSince sample.observedAt
  health := health
  spoolDepth := spool.depth + 1
  spoolOldestAge := spool.oldestAge.or (some 0)
  energyGapSkippedSeconds := health.energyGapSkippedSeconds +
    UInt64.ofNat ((energy.skippedGapSeconds.map Duration.asSecs).getD 0)

def acquisitionCommit (k : Collector ω σ) (sample : Sample) (prev : Option EnergyState)
    (energy : EnergyOutcome) (payload : List UInt8) : AcquisitionCommit where
  device := k.device.device
  observedAt := sample.observedAt
  expectedEnergy := prev
  nextEnergy := energy.nextState
  payload := payload

/-- A storage failure while persisting. -/
def persistError (e : StorageError) : CyclePhase × CycleError := (.persisting, .persist e)

/-- Render and commit a sample that is newer than the last committed one. The second component
says that the sample turned out to be a duplicate. -/
def commitSample (k : Collector ω σ) (sample : Sample) (prev : Option EnergyState)
    (energy : EnergyOutcome) : Cycle ω σ (CyclePhase × CycleError) (EnergyOutcome × Bool) := do
  let spool ← mapErr persistError
    (← onStore (k.ports.storage.spoolHealth (← onEnv k.ports.now)))
  let now ← onEnv k.ports.now
  let health := (← get).health
  let payload ← mapErr (fun e => (.persisting, .render e))
    (← onEnv (k.ports.render (renderContext k sample energy spool now health)))
  let commit := acquisitionCommit k sample prev energy payload
  let result ← onStore (k.ports.storage.commitAcquisition commit)
  record (.commit energy commit result)
  match ← mapErr persistError result with
  | .committed => do
      -- the gap is durable now
      updateHealth fun h => energy.skippedGapSeconds.elim h h.recordEnergyGap
      pure (energy, false)
  | .alreadyCommitted => pure (energy, true)

/-- Make the sample durable, once. -/
def persist (k : Collector ω σ) (sample : Sample) :
    Cycle ω σ (CyclePhase × CycleError) (EnergyOutcome × Bool) := do
  gotoPhase .persisting
  if sample.observedAt ≤ SystemTime.unixEpoch then
    throw (persistError (.invalidTimestamp sample.observedAt))
  else do
    let prev ← mapErr persistError (← onStore k.ports.storage.energyState)
    let energy := k.energy.apply prev sample
    let lastSuccess ← mapErr persistError (← onStore k.ports.storage.lastSuccess)
    if lastSuccess.any (fun ls => sample.observedAt ≤ ls) then pure (energy, true)
    else commitSample k sample prev energy

/-- Deliver the oldest due batch, unless nothing was enqueued. -/
def deliverFresh (k : Collector ω σ) (duplicate : Bool) :
    Cycle ω σ (CyclePhase × CycleError) DeliveryStatus := do
  if duplicate then pure .skipped
  else do
    gotoPhase .delivering
    let now ← onEnv k.ports.now
    match ← onStore (k.ports.storage.spoolClaimNext k.config.spoolClaimTtl now) with
    | .ok (some claim) => deliverClaim k claim
    | .ok none => pure (.queued 0)
    | .error e => pure (.failed e)

/-- Release the link and go back to `Idle`. -/
def release (k : Collector ω σ) : Cycle ω σ (CyclePhase × CycleError) Unit := do
  gotoPhase .disconnecting
  mapErr (fun e => (.disconnecting, .disconnect e))
    (← phase k .finishCycle k.ports.ble.finishCycle)
  gotoPhase .idle

def cycleStates (k : Collector ω σ) : Cycle ω σ (CyclePhase × CycleError) Step := do
  let sample ← acquire k
  let (energy, duplicate) ← persist k sample
  if ← onEnv k.ports.shutdownRequested then pure (.shutdown .delivering sample)
  else do
    let delivery ← deliverFresh k duplicate
    release k
    pure (.done {
      device := k.device
      sample := sample
      resolvedYieldKwh := energy.totalKwh
      energy := energy
      delivery := delivery
      duplicate := duplicate })

/-! ## Teardown -/

def recordFailureHealth (error : CycleError) (h : HealthSnapshot) : HealthSnapshot :=
  match error with
  | .discover _ => h.recordBleDiscoverFailure
  | .connect _ => h.recordBleConnectFailure
  | .negotiate _ => h.recordBleSessionFailure
  | .subscribe _ => h.recordBleSessionFailure
  | .request _ => h.recordBleSessionFailure
  | .disconnect _ => h.recordBleSessionFailure
  | .plan _ => h.recordProtocolError
  | .parse _ => h.recordProtocolError
  | .persist _ => h.recordSampleDropped
  | .render _ => h.recordSampleDropped
  | .state _ => h

/-- Best-effort teardown after a failed phase, through `Disconnecting` to `Backoff`. -/
def teardownAfterFailure (k : Collector ω σ) : Cycle ω σ CycleError Unit := do
  if (← get).state.current ≠ .disconnecting then mapErr .state (← goto .disconnecting)
  let _ ← callBle k .disconnect k.ports.ble.disconnect
  mapErr .state (← goto .backoff)

def teardownToShutdown (k : Collector ω σ) : Cycle ω σ CycleError Unit := do
  mapErr .state (← goto .disconnecting)
  let _ ← callBle k .disconnect k.ports.ble.disconnect
  mapErr .state (← goto .shuttingDown)

def finishGracefully (k : Collector ω σ) (interruptedAt : CyclePhase) (sample : Sample) :
    Cycle ω σ ε CycleOutcome := do
  match ← attempt (teardownToShutdown k) with
  | .ok () => pure (.shutdownGraceful interruptedAt sample)
  | .error e => pure (.failure interruptedAt e)

def finishFailed (k : Collector ω σ) (phase : CyclePhase) (error : CycleError) :
    Cycle ω σ ε CycleOutcome := do
  updateHealth (recordFailureHealth error)
  match ← attempt (teardownAfterFailure k) with
  | .ok () => pure (.failure phase error)
  | .error stateError => pure (.failure phase stateError)

/-- Run one acquisition cycle from `Idle` back to `Idle` (or `Backoff`, or `ShuttingDown`). -/
def runCycle (k : Collector ω σ) : Cycle ω σ ε CycleOutcome := do
  match ← attempt (cycleStates k) with
  | .ok (.done result) => pure (.success result)
  | .ok (.shutdown phase sample) => finishGracefully k phase sample
  | .error (phase, error) => finishFailed k phase error

end

end VeSmart.Service
