import VeSmart.Service.State
import VeSmart.Service.Energy
import VeSmart.Service.Health

set_option autoImplicit false

/-! # Ports (`victron-service/src/ports`)

Every external capability of a cycle is a function on a world: the environment `ω` (the BLE
session, the network, the clock, the renderer, the shutdown channel) or the storage `σ`. A port
may return anything and change its world in any way, so a statement about all ports is about
every behaviour of them. -/

namespace VeSmart.Service

open VeSmart.Lib VeSmart.Domain

/-! ## Errors -/

inductive BleError where
  | notFound
  | outOfRange
  | contention
  | peerControl (code : UInt16)
  | authentication
  | timeout (operation : String)
  | disconnected
  | transport (message : String)
  | other (message : String)
  | notWired (what : String)
  deriving DecidableEq

inductive ProtocolError where
  | malformed
  | truncated
  | bufferExceeded
  | emptyResponse
  | unsupportedOpcode (opcode : UInt8)
  | unknownVreg (vreg : UInt16)
  | invalidValue (vreg : UInt16)
  | notSubscribed
  | contentionResponse (code : Int)
  | notWired (what : String)
  deriving DecidableEq

inductive StorageError where
  | open (message : String)
  | io (message : String)
  | schema (message : String)
  | corrupt
  | poisoned
  | invalidTimestamp (time : SystemTime)
  | energyAnchorConflict
  | notWired (what : String)
  deriving DecidableEq

inductive DeliveryError where
  | transport (message : String)
  | timeout
  | http (status : UInt16)
  | malformedResponse (message : String)
  | rejected (message : String)
  | notWired (what : String)
  deriving DecidableEq

inductive RenderError where
  | metric (message : String)
  | notWired (what : String)
  deriving DecidableEq

/-- Network errors, timeouts, malformed responses and HTTP 408, 429 and 5xx are retried. -/
def DeliveryError.retryable : DeliveryError → Bool
  | .transport _ => true
  | .timeout => true
  | .http status => status = 408 || status = 429 || (500 ≤ status && status ≤ 599)
  | .malformedResponse _ => true
  | .rejected _ => false
  | .notWired _ => false

/-! ## Data exchanged with the ports -/

/-- Byte payloads a session needs for one acquisition. -/
structure AcquirePlan where
  negotiationFrames : List (List UInt8)
  subscribePayload : List UInt8
  valuesPayload : List UInt8

/-- A single decoded register record before normalization. -/
structure RawValue where
  vreg : UInt16
  raw : List UInt8

/-- A batch claimed for delivery. -/
structure ClaimedBatch where
  id : UInt64
  payload : List UInt8
  attempts : UInt32
  deriving DecidableEq

/-- All durable writes produced by one acquisition. -/
structure AcquisitionCommit where
  device : DeviceId
  observedAt : SystemTime
  expectedEnergy : Option EnergyState
  nextEnergy : EnergyState
  payload : List UInt8

inductive AcquisitionCommitOutcome where
  | committed
  | alreadyCommitted
  deriving DecidableEq

structure SpoolHealth where
  depth : Nat
  oldestAge : Option Duration

inductive RetryOutcome where
  | retried (attempts : UInt32)
  | dropped (attempts : UInt32)
  deriving DecidableEq

/-- The device label with the instance to subscribe to. -/
structure DeviceIdentity where
  device : DeviceId
  inst : UInt16

/-- Everything the renderer needs to produce one truthful batch. -/
structure RenderContext where
  device : DeviceId
  sample : Sample
  resolvedYieldKwh : F64
  energyKind : EnergyKind
  bleUp : Option Bool
  bleRssiDbm : Option Int
  lastSuccess : Option SystemTime
  sampleAge : Option Duration
  health : HealthSnapshot
  spoolDepth : Nat
  spoolOldestAge : Option Duration
  energyGapSkippedSeconds : UInt64

/-! ## The ports -/

/-- The result of a call awaited up to a deadline: nothing if the deadline came first. -/
abbrev Timed (α : Type) := Option (Except BleError α)

/-- A BLE session. The first argument of each operation is the deadline it is awaited for. -/
structure BleSession (ω : Type) where
  discover : Duration → ω → Timed Unit × ω
  connect : Duration → ω → Timed Unit × ω
  negotiate : List (List UInt8) → Duration → ω → Timed Unit × ω
  subscribe : UInt16 → List UInt8 → Duration → ω → Timed Unit × ω
  requestValues : List UInt8 → Duration → Duration → ω → Timed (List UInt8) × ω
  finishCycle : Duration → ω → Timed Unit × ω
  disconnect : Duration → ω → Timed Unit × ω

structure ProtocolAdapter (ω : Type) where
  vregs : ω → List UInt16 × ω
  acquirePlan : UInt16 → List UInt16 → ω → Except ProtocolError AcquirePlan × ω
  parseResponse : UInt16 → List UInt8 → ω → Except ProtocolError (List RawValue) × ω
  translate : UInt16 → List RawValue → ω → Except ProtocolError Sample × ω

/-- Durable state and the bounded delivery spool. -/
structure StoragePort (σ : Type) where
  lastSuccess : σ → Except StorageError (Option SystemTime) × σ
  energyState : σ → Except StorageError (Option EnergyState) × σ
  commitAcquisition : AcquisitionCommit → σ → Except StorageError AcquisitionCommitOutcome × σ
  spoolHealth : SystemTime → σ → Except StorageError SpoolHealth × σ
  spoolClaimNext : Duration → SystemTime → σ → Except StorageError (Option ClaimedBatch) × σ
  spoolComplete : ClaimedBatch → σ → Except StorageError Unit × σ
  spoolRetry : ClaimedBatch → SystemTime → σ → Except StorageError RetryOutcome × σ
  spoolDrop : ClaimedBatch → σ → Except StorageError Unit × σ

/-- All external ports of one collector instance, with its clock and its shutdown channel.
`shutdownRequested` is the test of the channel: the flag, or a dropped sender. `wait` sleeps
until the time is over or the channel changes. -/
structure CyclePorts (ω σ : Type) where
  ble : BleSession ω
  protocol : ProtocolAdapter ω
  storage : StoragePort σ
  deliver : List UInt8 → ω → Except DeliveryError Unit × ω
  render : RenderContext → ω → Except RenderError (List UInt8) × ω
  now : ω → SystemTime × ω
  shutdownRequested : ω → Bool × ω
  wait : Duration → ω → ω

end VeSmart.Service
