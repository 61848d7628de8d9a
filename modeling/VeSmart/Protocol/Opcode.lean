import Mathlib.Tactic

set_option autoImplicit false

/-! # Opcodes (`victron-protocol/src/opcode.rs`)

The opcodes that write settings, `0x06` and `0x0c`, are not among the outbound ones. -/

namespace VeSmart.Protocol

/-- Outbound opcodes. -/
inductive OutOpcode where
  | getDevices
  | subscribe
  | unsubscribe
  | getValues
  | getPathList
  | getPathValues
  deriving DecidableEq

def OutOpcode.asU8 : OutOpcode → UInt8
  | .getDevices => 0x01
  | .subscribe => 0x03
  | .unsubscribe => 0x04
  | .getValues => 0x05
  | .getPathList => 0x0a
  | .getPathValues => 0x0b

/-- Inbound opcodes. -/
inductive InOpcode where
  | deviceList
  | response
  | value
  | valueResponse
  | pathList
  | newPath
  | pathValue
  | pathResponse
  deriving DecidableEq

def InOpcode.asU8 : InOpcode → UInt8
  | .deviceList => 0x02
  | .response => 0x07
  | .value => 0x08
  | .valueResponse => 0x09
  | .pathList => 0x0d
  | .newPath => 0x0e
  | .pathValue => 0x0f
  | .pathResponse => 0x10

end VeSmart.Protocol
