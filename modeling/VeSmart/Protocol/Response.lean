import VeSmart.Lib.F64
import VeSmart.Protocol.Control

set_option autoImplicit false

/-! # Response records (`victron-protocol/src/response.rs`)

A complete payload is a sequence of CBOR items, in which a sliding window recognizes the records
of the known opcodes. -/

namespace VeSmart.Protocol

open VeSmart.Lib

/-- A decoded CBOR value (`victron-protocol/src/cbor.rs`). -/
inductive Item where
  | uint (n : UInt64)
  | int (n : Int64)
  | bytes (data : List UInt8)
  | text (s : String)
  | array (items : List Item)
  | map (entries : List (Item × Item))
  | tag (tag : UInt64) (item : Item)
  | bool (b : Bool)
  | null
  | undefined
  | simple (n : UInt8)
  | float (x : F64)

/-- A signed integer; non-negative ones may arrive as unsigned. -/
def asI64 : Option Item → Option Int64
  | some (.int n) => some n
  | some (.uint n) => if n.toNat < 2 ^ 63 then some n.toInt64 else none
  | _ => none

/-- A response code: a number that fits in a byte. -/
def asResponseCode (item : Option Item) : Option UInt8 :=
  match asI64 item with
  | some code => if 0 ≤ code ∧ code ≤ 255 then some code.toInt.toNat.toUInt8 else none
  | none => none

inductive ResponseCode where
  | ok
  | unknown1
  | rejected
  | other (code : UInt8)
  deriving DecidableEq

def ResponseCode.fromU8 (v : UInt8) : ResponseCode :=
  if v = 0 then .ok else if v = 1 then .unknown1 else if v = 2 then .rejected else .other v

/-- A typed inbound record. -/
inductive Response where
  | deviceList (devices : List (UInt64 × UInt64))
  | response (instanceId opcode : UInt64) (code : ResponseCode)
  | value (instanceId : UInt64) (register : UInt16) (data : List UInt8)
  | valueResponse (instanceId : UInt64) (register : UInt16) (code : ResponseCode)
  | pathList (instanceId : UInt64) (compressed : List UInt8)
  | newPath (instanceId : UInt64) (pathIndex : Int64) (path : String)
  | pathValue (instanceId : UInt64) (pathIndex : Int64) (value : Item)
  | pathResponse (instanceId : UInt64) (pathIndex : Int64) (code : ResponseCode)
  | unknown (opcode : UInt64)

/-- The pairs of a device list; nothing if an entry is no number or has no partner. -/
def unsignedPairs : List Item → Option (List (UInt64 × UInt64))
  | [] => some []
  | .uint a :: .uint b :: entries => (unsignedPairs entries).map ((a, b) :: ·)
  | _ => none

/-- A register that fits in 16 bits. -/
def registerOf (reg : UInt64) : Except ProtocolError UInt16 :=
  if reg.toNat < 2 ^ 16 then .ok reg.toUInt16 else .error (.registerOutOfRange reg)

/-- The record that an opcode starts, and how many items it takes; `rest` are the items after
the opcode. A malformed record takes its full width. -/
def recordAt (opcode : UInt64) (rest : List Item) :
    Except ProtocolError (Option Response × Nat) :=
  let item (i : Nat) : Option Item := rest[i]?
  if opcode = 0x02 then
    match item 0 with
    | some (.array entries) =>
        match unsignedPairs entries with
        | some devices => .ok (some (.deviceList devices), 2)
        | none => .ok (some (.unknown opcode), 2)
    | _ => .ok (some (.unknown opcode), 2)
  else if opcode = 0x07 then
    match item 0, item 1, asResponseCode (item 2) with
    | some (.uint inst), some (.uint req), some code =>
        .ok (some (.response inst req (.fromU8 code)), 4)
    | _, _, _ => .ok (some (.unknown opcode), 4)
  else if opcode = 0x08 then
    match item 0, item 1, item 2 with
    | some (.uint inst), some (.uint reg), some (.bytes data) => do
        let register ← registerOf reg
        .ok (some (.value inst register data), 4)
    | _, _, _ => .ok (some (.unknown opcode), 4)
  else if opcode = 0x09 then
    match item 0, item 1, asResponseCode (item 2) with
    | some (.uint inst), some (.uint reg), some code => do
        let register ← registerOf reg
        .ok (some (.valueResponse inst register (.fromU8 code)), 4)
    | _, _, _ => .ok (some (.unknown opcode), 4)
  else if opcode = 0x0d then
    match item 0, item 1 with
    | some (.uint inst), some (.bytes blob) => .ok (some (.pathList inst blob), 3)
    | _, _ => .ok (some (.unknown opcode), 3)
  else if opcode = 0x0e then
    match item 0, asI64 (item 1), item 2 with
    | some (.uint inst), some idx, some (.text path) => .ok (some (.newPath inst idx path), 4)
    | _, _, _ => .ok (some (.unknown opcode), 4)
  else if opcode = 0x0f then
    match item 0, asI64 (item 1), item 2 with
    | some (.uint inst), some idx, some value => .ok (some (.pathValue inst idx value), 4)
    | _, _, _ => .ok (some (.unknown opcode), 4)
  else if opcode = 0x10 then
    match item 0, asI64 (item 1), asResponseCode (item 2) with
    | some (.uint inst), some idx, some code =>
        .ok (some (.pathResponse inst idx (.fromU8 code)), 4)
    | _, _, _ => .ok (some (.unknown opcode), 4)
  else .ok (none, 1)

/-- The scan, past `skip` items that belong to the record before. -/
def parseItemsFrom : Nat → List Item → Except ProtocolError (List Response)
  | _, [] => .ok []
  | skip + 1, _ :: rest => parseItemsFrom skip rest
  | 0, .uint opcode :: rest => do
      let (record, consumed) ← recordAt opcode rest
      let others ← parseItemsFrom (consumed - 1) rest
      .ok (record.toList ++ others)
  | 0, _ :: rest => parseItemsFrom 0 rest

def Response.parseItems (items : List Item) : Except ProtocolError (List Response) :=
  parseItemsFrom 0 items

/-- The records of a complete payload; `decodeStream` reads its CBOR items. -/
def Response.parseStream (decodeStream : List UInt8 → Except ProtocolError (List Item))
    (payload : List UInt8) : Except ProtocolError (List Response) := do
  let items ← decodeStream payload
  Response.parseItems items

end VeSmart.Protocol
