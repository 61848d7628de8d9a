import VeSmart.Bluez.Open
import VeSmart.Lib.Prog
import VeSmart.Client.Flow

set_option autoImplicit false

/-! # The VE.Smart session (`victron-client/src/session.rs`)

A call of the session is a program over a `Life`: the session, and a script of what happens at
its await points. The device sends notifications at any time; each characteristic's queue in
order. At an await point the next event that is no `sends` ends the call that is awaited, or
its timeout elapses; where the script ends, the future is dropped. Timeouts may elapse at any
time, so the script stands for every timing. -/

namespace VeSmart.Client

open VeSmart.Lib VeSmart.Bluez VeSmart.Protocol

/-! ## The world of a session -/

/-- A notification, and how many the device had sent before it. -/
structure Delivered where
  notification : Notification
  sent : Nat

/-- A completed payload. `sent` is that of the notification that completed it, which the code
does not see. -/
structure Completed where
  payload : List UInt8
  sent : Nat

inductive Event where
  /-- The device sends a notification. -/
  | sends (n : Notification)
  /-- The awaited call of the transport ends. -/
  | reply (r : Except Bluez.BleError (List UInt8))
  /-- The next notification is taken from a characteristic's stream. -/
  | take (source : NotificationSource)
  /-- The awaited timeout or sleep elapses. -/
  | elapsed

/-- What the transport has done. -/
inductive Entry where
  | wrote (target : NotificationSource) (bytes : List UInt8)
  | took (d : Delivered)

/-- The notification streams; each queue in the order sent. -/
abbrev Streams := NotificationSource → List Delivered

structure BluezTransport where
  state : SessionState
  streams : Option Streams

structure VeSmartBleSession where
  transport : BluezTransport
  opened : Bool
  negotiated : Bool
  subscribedInstance : Option UInt16
  pending : Reassembler
  receiveCredit : ReceiveCredit
  fallbackValues : Option Completed
  reusable : Bool

def VeSmartBleSession.new : VeSmartBleSession where
  transport := ⟨.cleared, none⟩
  opened := false
  negotiated := false
  subscribedInstance := none
  pending := .new
  receiveCredit := .zero
  fallbackValues := none
  reusable := false

structure Life where
  session : VeSmartBleSession
  /-- How many notifications the device has sent. -/
  sent : Nat
  log : List Entry
  script : List Event
  /-- How many control writes have not been answered with success. -/
  unanswered : Nat

/-- How a call ends without a result. -/
inductive Halt where
  | failed (e : Service.BleError)
  /-- The future is dropped, or has not ended. -/
  | dropped
  | panicked

abbrev Call (α : Type) := Prog Life Halt α

def setSession (f : VeSmartBleSession → VeSmartBleSession) : Call Unit :=
  modify fun l => { l with session := f l.session }

def setTransport (f : BluezTransport → BluezTransport) : Call Unit :=
  setSession fun s => { s with transport := f s.transport }

/-! ## Await points -/

/-- Put a notification at the end of its stream. -/
def Streams.push (q : Streams) (d : Delivered) : Streams := fun source =>
  if source = d.notification.source then q source ++ [d] else q source

/-- The device sends a notification; without a subscription nobody receives it. -/
def Life.arrive (l : Life) (n : Notification) : Life :=
  let t := l.session.transport
  { l with
    sent := l.sent + 1
    session := { l.session with
      transport := { t with streams := t.streams.map fun q => q.push ⟨n, l.sent⟩ } } }

/-- What the device sends before the next event of the script. -/
def absorb : List Event → Life → Life
  | .sends n :: es, l => absorb es (l.arrive n)
  | es, l => { l with script := es }

def awaitEvent : Call Event := ofFun fun l =>
  let l := absorb l.script l
  match l.script with
  | [] => (.error .dropped, l)
  | e :: es => (.ok e, { l with script := es })

/-- The end of the awaited call; no other event can come before it. -/
def awaitReply : Call (Except Bluez.BleError (List UInt8)) := do
  match ← awaitEvent with
  | .reply r => pure r
  | _ => throw .dropped

/-- Whether a deadline has passed. -/
def deadlinePassed : Call Bool := ofFun fun l =>
  let l := absorb l.script l
  match l.script with
  | .elapsed :: es => (.ok true, { l with script := es })
  | _ => (.ok false, l)

def sleep : Call Unit := do
  match ← awaitEvent with
  | .elapsed => pure ()
  | _ => throw .dropped

/-! ## The transport (`victron-bluez/src/session.rs`) -/

def requireOpen : Call (Except Bluez.BleError Unit) := do
  if (← get).session.transport.state.isOpen then pure (.ok ())
  else pure (.error (.invalidState "transport"))

/-- `open`: only its commit changes the transport. -/
def transportOpen : Call (Except Bluez.BleError Unit) := do
  if (← get).session.transport.state.isOpen then pure (.ok ())
  else match ← awaitReply with
    | .ok _ => do
        setTransport fun _ => ⟨.committed, some fun _ => []⟩
        pure (.ok ())
    | .error e => pure (.error e)

/-- A call to BlueZ over an open transport. -/
def awaitOpen : Call (Except Bluez.BleError (List UInt8)) := do
  match ← requireOpen with
  | .error e => pure (.error e)
  | .ok () => awaitReply

def readControl : Call (Except Bluez.BleError (List UInt8)) := awaitOpen

/-- Take note of a write that is not answered with success. -/
def refuse (target : NotificationSource) : Call Unit :=
  modify fun l => { l with
    unanswered := if target = .control then l.unanswered + 1 else l.unanswered }

/-- A write to a characteristic. What is noted of it decides nothing. -/
def write (target : NotificationSource) (bytes : List UInt8) :
    Call (Except Bluez.BleError Unit) := do
  match ← attempt awaitOpen with
  | .ok (.ok _) => do
      modify fun l => { l with log := l.log ++ [.wrote target bytes] }
      pure (.ok ())
  | .ok (.error e) => do
      refuse target
      pure (.error e)
  | .error halt => do
      refuse target
      throw halt

/-- The head of a stream leaves it. -/
def takeFrom (source : NotificationSource) : Call Delivered := ofFun fun l =>
  match l.session.transport.streams with
  | none => (.error .dropped, l)
  | some q =>
      match q source with
      | [] => (.error .dropped, l)
      | d :: rest =>
          (.ok d,
            { l with
              session := { l.session with transport := { l.session.transport with
                streams := some fun s => if s = source then rest else q s } }
              log := l.log ++ [.took d] })

/-- `next_notification` under a timeout; nothing if it elapses. -/
def nextNotification : Call (Option (Except Bluez.BleError Delivered)) := do
  match ← requireOpen with
  | .error e => pure (some (.error e))
  | .ok () =>
      if (← get).session.transport.streams.isNone then throw .panicked
      else match ← awaitEvent with
        | .take source => do
            let d ← takeFrom source
            pure (some (.ok d))
        | .reply (.error e) => pure (some (.error e))
        | .elapsed => pure none
        | _ => throw .dropped

/-- `close`: the streams are dropped at once, the state only after the disconnect. -/
def transportClose : Call Unit := do
  let state := (← get).session.transport.state
  setTransport fun t => { t with streams := none, state := { t.state with device := false } }
  if state.device && state.connectedByUs then
    let _ ← awaitReply
  setTransport fun t => { t with state := .cleared }

/-! ## Calls inside the session -/

def mapTransportError (error : Bluez.BleError) : Service.BleError :=
  match error.class with
  | .timeout =>
      match error with
      | .timeout operation => .timeout operation
      | _ => .timeout "transport"
  | .auth => .authentication
  | .contention => .contention
  | .notFound => .notFound
  | .dbus => .transport error.display
  | .other =>
      match error with
      | .notificationStopped => .disconnected
      | _ => .other error.display

def fail {α : Type} (e : Service.BleError) : Call α := throw (.failed e)

/-- An error of the transport as one of the session. -/
def orFail {α : Type} : Except Bluez.BleError α → Call α
  | .ok a => pure a
  | .error e => fail (mapTransportError e)

def chunkTarget : OutboundTarget → NotificationSource
  | .data => .data
  | .lastData => .lastData

def writeChunks : List OutboundChunk → Call Unit
  | [] => pure ()
  | chunk :: chunks => do
      orFail (← write (chunkTarget chunk.target) chunk.bytes)
      writeChunks chunks

def writeRequest (payload : List UInt8) : Call Unit :=
  match splitRequest payload 20 with
  | .ok chunks => writeChunks chunks
  | .error e => fail (mapProtocolError e)

def replenishReceiveCredit (source : NotificationSource) : Call Unit := do
  let (credit, counted) := (← get).session.receiveCredit.record source
  setSession fun s => { s with receiveCredit := counted }
  match credit with
  | some credit => orFail (← write .control credit)
  | none => pure ()

def pushData (chunk : List UInt8) : Call Unit := do
  let (result, pending) := (← get).session.pending.pushData chunk
  setSession fun s => { s with pending := pending }
  match result with
  | .ok () => pure ()
  | .error e => fail (mapReassemblyError e)

def pushLastData (d : Delivered) : Call (Option Completed) := do
  let (result, pending) := (← get).session.pending.pushLastData d.notification.value
  setSession fun s => { s with pending := pending }
  match result with
  | .ok payload => pure (payload.map fun payload => ⟨payload, d.sent⟩)
  | .error e => fail (mapReassemblyError e)

def clearPending : Call Unit := setSession fun s => { s with pending := s.pending.clear }

/-- What a notification does to a payload that is waited for. -/
def receiveNotification (d : Delivered) : Call (Option Completed) := do
  replenishReceiveCredit d.notification.source
  match d.notification.source with
  | .control =>
      match ControlMessage.parse d.notification.value with
      | .ok (.error code) => fail (.peerControl code)
      | .ok .clearBuffer => do
          clearPending
          pure none
      | _ => pure none
  | .data => do
      pushData d.notification.value
      pure none
  | .lastData => pushLastData d

/-- One turn of `next_payload`. -/
def payloadTurn : Call (Option Completed) := do
  if ← deadlinePassed then fail (.timeout "response-deadline")
  else match ← nextNotification with
    | none => fail (.timeout "response-deadline")
    | some (.error e) => fail (mapTransportError e)
    | some (.ok d) => receiveNotification d

/-- A loop whose every turn takes an event of the script. -/
def loop {α : Type} (turn : Call (Option α)) : Call α := do
  repeatUntil .dropped turn ((← get).script.length + 1)

def nextPayload : Call Completed := loop payloadTurn

section

variable (decodeStream : List UInt8 → Except Protocol.ProtocolError (List Item))

/-- What a notification does while completed payloads are drained. -/
def drainNotification (instanceId : UInt16) (d : Delivered) : Call Unit := do
  replenishReceiveCredit d.notification.source
  match d.notification.source with
  | .control =>
      match ControlMessage.parse d.notification.value with
      | .ok .clearBuffer => clearPending
      | _ => pure ()
  | .data => pushData d.notification.value
  | .lastData =>
      match ← pushLastData d with
      | none => pure ()
      | some completed =>
          -- a payload that does not parse is not correlated
          match payloadHasValues decodeStream completed.payload instanceId with
          | .ok true => setSession fun s => { s with fallbackValues := some completed }
          | _ => pure ()

/-- One turn of the drain; it ends at its budget and at a quiet period. -/
def drainTurn (instanceId : UInt16) : Call (Option Unit) := do
  if ← deadlinePassed then pure (some ())
  else match ← nextNotification with
    | none => pure (some ())
    | some (.error (.timeout _)) => pure (some ())
    | some (.error e) => fail (mapTransportError e)
    | some (.ok d) => do
        drainNotification decodeStream instanceId d
        pure none

def drainCompletedPayloads (instanceId : UInt16) : Call Unit := do
  setSession fun s => { s with pending := s.pending.clear, fallbackValues := none }
  loop (drainTurn decodeStream instanceId)

/-- One turn of `wait_for_values`: an uncorrelated payload is passed over. -/
def waitTurn (instanceId : UInt16) : Call (Option Completed) := do
  let completed ← nextPayload
  match payloadHasValues decodeStream completed.payload instanceId with
  | .error e => fail e
  | .ok true => pure (some completed)
  | .ok false => pure none

def waitForValues (instanceId : UInt16) : Call Completed :=
  loop (waitTurn decodeStream instanceId)

/-! ## The calls of the service -/

def discover : Call Unit := do
  orFail (← transportOpen)
  setSession fun s => { s with opened := true }

def connect : Call Unit := do
  if (← get).session.opened then pure () else fail .disconnected

def writeFrames : List (List UInt8) → Call Unit
  | [] => pure ()
  | frame :: frames => do
      orFail (← write .control frame)
      writeFrames frames

def negotiate (frames : List (List UInt8)) : Call Unit := do
  if (← get).session.negotiated then pure ()
  else do
    let control ← orFail (← readControl)
    match ControlInfo.parse control with
    | none => fail (.other "invalid control info")
    | some _ => do
        writeFrames frames
        setSession fun s => { s with negotiated := true, reusable := false }

def subscribe (instanceId : UInt16) (payload : List UInt8) : Call Unit := do
  if !(← get).session.negotiated then fail (.other "protocol not negotiated")
  else if (← get).session.subscribedInstance = some instanceId then
    -- the reused subscription: what has come while the runner slept is drained
    drainCompletedPayloads decodeStream instanceId
  else do
    writeRequest payload
    drainCompletedPayloads decodeStream instanceId
    setSession fun s => { s with subscribedInstance := some instanceId }

/-- A first attempt that has timed out is repeated after a sleep. -/
def secondAttempt (first : Bool) (error : Service.BleError) : Call (Option Completed) :=
  match first, error with
  | true, .timeout _ => do
      sleep
      pure none
  | _, _ => fail error

/-- The answer to a request whose wait has failed: the fallback, or nothing if there is to be a
second attempt. -/
def fallBack (first : Bool) (error : Service.BleError) : Call (Option Completed) := do
  match (← get).session.fallbackValues with
  | some values => do
      setSession fun s => { s with fallbackValues := none, reusable := true }
      pure (some values)
  | none => secondAttempt first error

/-- One attempt of `request_values`, for a timeout whose end an `Instant` can hold. -/
def requestAttempt (instanceId : UInt16) (payload : List UInt8) (first : Bool) :
    Call (Option Completed) := do
  clearPending
  writeRequest payload
  match ← attempt (waitForValues decodeStream instanceId) with
  | .ok values => do
      setSession fun s => { s with reusable := true }
      pure (some values)
  | .error (.failed error) => fallBack first error
  | .error halt => throw halt

def requestValues (payload : List UInt8) : Call Completed := do
  match (← get).session.subscribedInstance with
  | none => fail (.other "device is not subscribed")
  | some instanceId => do
      setSession fun s => { s with reusable := false }
      match ← requestAttempt decodeStream instanceId payload true with
      | some values => pure values
      | none =>
          match ← requestAttempt decodeStream instanceId payload false with
          | some values => pure values
          | none => throw .panicked

def disconnect : Call Unit := do
  transportClose
  setSession fun s => { s with
    opened := false
    negotiated := false
    subscribedInstance := none
    pending := s.pending.clear
    receiveCredit := .zero
    fallbackValues := none
    reusable := false }

def finishCycle : Call Unit := do
  if (← get).session.reusable then pure () else disconnect

end

end VeSmart.Client
