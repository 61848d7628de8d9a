import Mathlib.Tactic

set_option autoImplicit false

/-! # Control messages (`victron-protocol/src/control.rs`)

The control characteristic carries single messages: an opcode byte and a few bytes after it. -/

namespace VeSmart.Protocol

/-- Errors of the protocol crate. -/
inductive ProtocolError where
  | cbor (message : String)
  | truncated
  | depthLimit
  | itemLimit
  | registerOutOfRange (value : UInt64)
  | malformed (what : String)
  | bufferLimit (capacity needed : Nat)
  | requestLimit (what : String)
  | invalidOutbound (what : String)
  deriving DecidableEq

inductive ControlMessage where
  | error (code : UInt16)
  | clearBuffer
  | readyToReceive (freeChunks : UInt8)
  | chunkSize (a b : UInt8)
  | unknown (opcode : UInt8) (len : Nat)
  deriving DecidableEq

/-- The 16-bit number of two bytes, the low one first. -/
def u16OfLeBytes (lo hi : UInt8) : UInt16 := lo.toUInt16 ||| (hi.toUInt16 <<< 8)

/-- Parse exactly one message; a known opcode accepts exactly its own lengths. -/
def ControlMessage.parse : List UInt8 → Except ProtocolError ControlMessage
  | [] => .error .truncated
  | 0xf7 :: rest =>
      match rest with
      | [code] => .ok (.error code.toUInt16)
      | [lo, hi] => .ok (.error (u16OfLeBytes lo hi))
      | _ => .error (.malformed "f7 must be exactly 2 or 3 bytes")
  | 0xf8 :: rest =>
      if rest = [] then .ok .clearBuffer else .error (.malformed "f8 must be exactly 1 byte")
  | 0xf9 :: rest =>
      match rest with
      | [freeChunks] => .ok (.readyToReceive freeChunks)
      | _ => .error (.malformed "f9 must be exactly 2 bytes")
  | 0xfa :: rest =>
      match rest with
      | [a, b] => .ok (.chunkSize a b)
      | _ => .error (.malformed "fa must be exactly 3 bytes")
  | opcode :: rest => .ok (.unknown opcode (rest.length + 1))

/-- The payload read from the control characteristic before the negotiation. -/
structure ControlInfo where
  protocolByte : UInt8
  fieldU16 : UInt16
  payloadSizeLimit : UInt8
  fieldByte : UInt8
  freeChunks : UInt8
  tail : UInt8

/-- Only a payload of exactly seven bytes is accepted. -/
def ControlInfo.parse : List UInt8 → Option ControlInfo
  | [b0, b1, b2, b3, b4, b5, b6] => some ⟨b0, u16OfLeBytes b1 b2, b3, b4, b5, b6⟩
  | _ => none

end VeSmart.Protocol
