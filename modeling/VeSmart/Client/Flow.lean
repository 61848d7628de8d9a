import VeSmart.Bluez.Transport
import VeSmart.Protocol.Frame
import VeSmart.Protocol.Response
import VeSmart.Service.Ports

set_option autoImplicit false

/-! # Receive credit and correlation (`victron-client/src/flow.rs`) -/

namespace VeSmart.Client

open VeSmart.Bluez VeSmart.Protocol

def receiveCreditThreshold : UInt8 := 0x41

/-- Chunks received since credit was last given. -/
structure ReceiveCredit where
  pendingChunks : UInt8
  deriving DecidableEq

def ReceiveCredit.zero : ReceiveCredit := ⟨0⟩

/-- The byte after `n`; the largest stays. -/
def saturatingSucc (n : UInt8) : UInt8 := if n = 255 then 255 else n + 1

/-- Count a notification; at the threshold, the message that gives the credit back. -/
def ReceiveCredit.record (c : ReceiveCredit) (source : NotificationSource) :
    Option (List UInt8) × ReceiveCredit :=
  let pending :=
    if source = .data ∨ source = .lastData then saturatingSucc c.pendingChunks else c.pendingChunks
  if receiveCreditThreshold ≤ pending then (some [0xf9, pending], .zero) else (none, ⟨pending⟩)

def mapProtocolError (_ : Protocol.ProtocolError) : Service.BleError :=
  .other "protocol decode failed"

def mapReassemblyError (_ : ReassemblyError) : Service.BleError :=
  .other "response reassembly failed"

/-- A value record of an instance. -/
def isValueOf (instanceId : UInt16) : Response → Bool
  | .value inst _ _ => inst = instanceId.toUInt64
  | _ => false

/-- Whether a payload has a value record of an instance. -/
def payloadHasValues (decodeStream : List UInt8 → Except Protocol.ProtocolError (List Item))
    (payload : List UInt8) (instanceId : UInt16) : Except Service.BleError Bool :=
  match Response.parseStream decodeStream payload with
  | .ok responses => .ok (responses.any (isValueOf instanceId))
  | .error e => .error (mapProtocolError e)

end VeSmart.Client
