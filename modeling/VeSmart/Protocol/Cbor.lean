import VeSmart.Lib.Cbor
import VeSmart.Lib.Reader
import VeSmart.Protocol.Response

set_option autoImplicit false

/-! # The CBOR decoder (`victron-protocol/src/cbor.rs`)

The low-level parser `minicbor` is not part of the repository: it is a parameter here, with what
its documentation says of each function (`Minicbor.Conforms`). -/

namespace VeSmart.Protocol

open VeSmart.Lib

/-! ## The low-level parser -/

/-- The type of a CBOR item, as its first bytes tell. -/
inductive DataType where
  | bool
  | null
  | undefined
  | u8
  | u16
  | u32
  | u64
  | i8
  | i16
  | i32
  | i64
  | int
  | f16
  | f32
  | f64
  | simple
  | bytes
  | bytesIndef
  | string
  | stringIndef
  | array
  | arrayIndef
  | map
  | mapIndef
  | tag
  | brk
  | unknown (b : UInt8)
  deriving DecidableEq

inductive DecodeError where
  | endOfInput
  | other (message : String)

/-- A function of the parser: it takes something off the input. -/
abbrev Parse (α : Type) := List UInt8 → Except DecodeError (α × List UInt8)

/-- The parser and the encoder. An iterator over the pieces of a string is the pieces that it
yields, and then the input that it leaves or the error that it ends with. -/
structure Minicbor where
  datatype : List UInt8 → Except DecodeError DataType
  u64 : Parse UInt64
  i64 : Parse Int64
  f64 : Parse F64
  bool : Parse Bool
  null : Parse Unit
  undefined : Parse Unit
  simple : Parse UInt8
  bytesIter : List UInt8 →
    Except DecodeError (List (List UInt8) × Except DecodeError (List UInt8))
  strIter : List UInt8 → Except DecodeError (List String × Except DecodeError (List UInt8))
  array : Parse (Option UInt64)
  map : Parse (Option UInt64)
  tag : Parse UInt64
  skip : Parse Unit
  encU64 : UInt64 → List UInt8
  encI64 : Int64 → List UInt8
  encArray : UInt64 → List UInt8
  encBytes : List UInt8 → List UInt8
  encStr : String → List UInt8

def ProtocolError.ofDecode : DecodeError → ProtocolError
  | .endOfInput => .truncated
  | .other message => .cbor message

/-! ## The decoder -/

/-- How many containers may be around an item. -/
def maxDepth : Nat := 16

/-- How many items a stream may have, nested ones included. -/
def maxItems : Nat := 4096

def maxStringBytes : Nat := 64 * 1024

def maxArrayLen : Nat := 65536

/-- The bytes that are left to decode, and the items that may still come. -/
abbrev StreamDecoder := Source UInt8

def StreamDecoder.new (data : List UInt8) : StreamDecoder := ⟨data, maxItems⟩

/-- A call of the parser. -/
def StreamDecoder.call {α : Type} (parse : Parse α) (d : StreamDecoder) :
    Except ProtocolError (α × StreamDecoder) :=
  match parse d.input with
  | .error e => .error (.ofDecode e)
  | .ok (x, rest) => .ok (x, ⟨rest, d.budget⟩)

/-- The pieces of a string, put together up to the limit. -/
def joinChunks {α : Type} [Append α] (size : α → Nat) (limit : String) :
    α → List α → Except DecodeError (List UInt8) → Except ProtocolError (α × List UInt8)
  | buf, [], .ok rest => .ok (buf, rest)
  | _, [], .error e => .error (.ofDecode e)
  | buf, c :: chunks, last =>
      if size buf + size c > maxStringBytes then .error (.cbor limit)
      else joinChunks size limit (buf ++ c) chunks last

/-- A string of the iterator `iter`. -/
def StreamDecoder.string {α : Type} [Append α] (size : α → Nat) (limit : String) (empty : α)
    (iter : List UInt8 → Except DecodeError (List α × Except DecodeError (List UInt8)))
    (d : StreamDecoder) : Except ProtocolError (α × StreamDecoder) :=
  match iter d.input with
  | .error e => .error (.ofDecode e)
  | .ok (chunks, last) => do
      let (s, rest) ← joinChunks size limit empty chunks last
      .ok (s, ⟨rest, d.budget⟩)

/-- The two hexadecimal digits of a byte. -/
def hexByte (b : UInt8) : String :=
  String.ofList [Nat.digitChar (b.toNat / 16), Nat.digitChar (b.toNat % 16)]

namespace Minicbor

section

variable (m : Minicbor)

/-- The end of a container of indefinite length. -/
def atBreak (d : StreamDecoder) : Except ProtocolError (Option StreamDecoder) :=
  match m.datatype d.input with
  | .error e => .error (.ofDecode e)
  | .ok ty =>
      if ty = .brk then do
        let (_, d) ← d.call m.skip
        .ok (some d)
      else .ok none

/-- The elements of a container of the length `len`, or up to a break. -/
def elements {α : Type} (limit : String)
    (element : StreamDecoder → Except ProtocolError (α × StreamDecoder)) :
    Option UInt64 → StreamDecoder → Except ProtocolError (List α × StreamDecoder)
  | some n, d =>
      if n.toNat > maxArrayLen then .error (.cbor limit) else readTimes element n.toNat d
  | none, d => readUntil m.atBreak (.cbor limit) element maxArrayLen d

/-- A map entry. -/
def entry (item : StreamDecoder → Except ProtocolError (Item × StreamDecoder))
    (d : StreamDecoder) : Except ProtocolError ((Item × Item) × StreamDecoder) := do
  let (k, d) ← item d
  let (v, d) ← item d
  .ok ((k, v), d)

/-- The item of the type `ty`; `nested` decodes the items inside it. -/
def itemOf (nested : StreamDecoder → Except ProtocolError (Item × StreamDecoder)) :
    DataType → StreamDecoder → Except ProtocolError (Item × StreamDecoder)
  | .u8, d | .u16, d | .u32, d | .u64, d => do
      let (n, d) ← d.call m.u64
      .ok (.uint n, d)
  | .i8, d | .i16, d | .i32, d | .i64, d | .int, d => do
      let (n, d) ← d.call m.i64
      .ok (.int n, d)
  | .f16, d | .f32, d | .f64, d => do
      let (x, d) ← d.call m.f64
      .ok (.float x, d)
  | .bool, d => do
      let (b, d) ← d.call m.bool
      .ok (.bool b, d)
  | .null, d => do
      let (_, d) ← d.call m.null
      .ok (.null, d)
  | .undefined, d => do
      let (_, d) ← d.call m.undefined
      .ok (.undefined, d)
  | .simple, d => do
      let (n, d) ← d.call m.simple
      .ok (.simple n, d)
  | .bytes, d | .bytesIndef, d => do
      let (data, d) ← d.string List.length "byte string exceeds limit" [] m.bytesIter
      .ok (.bytes data, d)
  | .string, d | .stringIndef, d => do
      let (s, d) ← d.string String.utf8ByteSize "text string exceeds limit" "" m.strIter
      .ok (.text s, d)
  | .array, d | .arrayIndef, d => do
      let (len, d) ← d.call m.array
      let (items, d) ← m.elements "array exceeds length limit" nested len d
      .ok (.array items, d)
  | .map, d | .mapIndef, d => do
      let (len, d) ← d.call m.map
      let (entries, d) ← m.elements "map exceeds length limit" (entry nested) len d
      .ok (.map entries, d)
  | .tag, d => do
      let (tag, d) ← d.call m.tag
      let (inner, d) ← nested d
      .ok (.tag tag inner, d)
  | .brk, _ => .error (.malformed "unexpected CBOR break at top level")
  | .unknown b, _ => .error (.cbor ("unsupported CBOR byte 0x" ++ hexByte b))

/-- An item at the depth `maxDepth + 1 - levels`. -/
def itemAt : Nat → StreamDecoder → Except ProtocolError (Item × StreamDecoder)
  | 0, _ => .error .depthLimit
  | levels + 1, d =>
      if d.budget = 0 then .error .itemLimit
      else
        match m.datatype d.input with
        | .error e => .error (.ofDecode e)
        | .ok ty => m.itemOf (itemAt levels) ty ⟨d.input, d.budget - 1⟩

def nextItem (d : StreamDecoder) : Except ProtocolError (Item × StreamDecoder) :=
  if d.input = [] then .error .truncated else m.itemAt (maxDepth + 1) d

/-! ## A stream

A turn of the loop takes an item, and an item takes a unit of the budget: this ends the loop. -/

theorem call_spends {α : Type} (parse : Parse α) : Spends (StreamDecoder.call parse) := by
  intro d x d' hcall
  unfold StreamDecoder.call at hcall
  split at hcall
  · cases hcall
  · cases hcall
    exact Nat.le_refl _

theorem string_spends {α : Type} [Append α] (size : α → Nat) (limit : String) (empty : α)
    (iter : List UInt8 → Except DecodeError (List α × Except DecodeError (List UInt8))) :
    Spends (StreamDecoder.string size limit empty iter) := by
  intro d x d' hrun
  unfold StreamDecoder.string at hrun
  split at hrun
  · cases hrun
  · obtain ⟨r, -, hval⟩ := bind_eq_ok.mp hrun
    cases hval
    exact Nat.le_refl _

theorem elements_spends {α : Type} (limit : String)
    {element : StreamDecoder → Except ProtocolError (α × StreamDecoder)} (h : Spends element)
    (len : Option UInt64) : Spends (m.elements limit element len) := by
  cases len with
  | some n =>
      intro d xs d' hrun
      change (if n.toNat > maxArrayLen then .error (.cbor limit)
        else readTimes element n.toNat d) = _ at hrun
      split_ifs at hrun
      exact h.times n.toNat d xs d' hrun
  | none =>
      refine h.until ?_ maxArrayLen
      intro d d' hstop
      unfold atBreak at hstop
      split at hstop
      · cases hstop
      · split_ifs at hstop
        · obtain ⟨⟨u, dskip⟩, hskip, hval⟩ := bind_eq_ok.mp hstop
          cases hval
          exact call_spends m.skip d u d' hskip
        · cases hstop

theorem entry_spends {item : StreamDecoder → Except ProtocolError (Item × StreamDecoder)}
    (h : Spends item) : Spends (entry item) :=
  h.bind fun k => h.map fun v => (k, v)

theorem itemOf_spends {nested : StreamDecoder → Except ProtocolError (Item × StreamDecoder)}
    (h : Spends nested) (ty : DataType) : Spends (m.itemOf nested ty) := by
  cases ty with
  | u8 | u16 | u32 | u64 => exact (call_spends m.u64).map Item.uint
  | i8 | i16 | i32 | i64 | int => exact (call_spends m.i64).map Item.int
  | f16 | f32 | f64 => exact (call_spends m.f64).map Item.float
  | bool => exact (call_spends m.bool).map Item.bool
  | null => exact (call_spends m.null).map fun _ => Item.null
  | undefined => exact (call_spends m.undefined).map fun _ => Item.undefined
  | simple => exact (call_spends m.simple).map Item.simple
  | bytes | bytesIndef => exact (string_spends _ _ _ m.bytesIter).map Item.bytes
  | string | stringIndef => exact (string_spends _ _ _ m.strIter).map Item.text
  | array | arrayIndef =>
      exact (call_spends m.array).bind fun len => (m.elements_spends _ h len).map Item.array
  | map | mapIndef =>
      exact (call_spends m.map).bind fun len =>
        (m.elements_spends _ (entry_spends h) len).map Item.map
  | tag => exact (call_spends m.tag).bind fun tag => h.map fun inner => Item.tag tag inner
  | brk => nofun
  | unknown b => nofun

/-- An item costs one unit at least. -/
theorem itemAt_spends (levels : Nat) {d d' : StreamDecoder} {item : Item}
    (h : m.itemAt levels d = .ok (item, d')) : d'.budget < d.budget := by
  induction levels generalizing d d' item with
  | zero => cases h
  | succ levels ih =>
      unfold itemAt at h
      split_ifs at h with hzero
      split at h
      · cases h
      · rename_i ty hty
        have hnested : Spends (m.itemAt levels) := fun d x d' hrun => (ih hrun).le
        have hle := m.itemOf_spends hnested ty _ _ _ h
        have hlt : d.budget - 1 < d.budget := by omega
        exact Nat.lt_of_le_of_lt hle hlt

theorem nextItem_spends {d d' : StreamDecoder} {item : Item}
    (h : m.nextItem d = .ok (item, d')) : d'.budget < d.budget := by
  unfold nextItem at h
  split_ifs at h
  exact m.itemAt_spends _ h

/-- The items up to the end of the input. -/
def decodeFrom (d : StreamDecoder) : Except ProtocolError (List Item) :=
  if d.input = [] then .ok []
  else
    match _h : m.nextItem d with
    | .error e => .error e
    | .ok (item, d') => do
        let items ← decodeFrom d'
        .ok (item :: items)
termination_by d.budget
decreasing_by exact m.nextItem_spends _h

def decodeStream (data : List UInt8) : Except ProtocolError (List Item) :=
  m.decodeFrom (.new data)

/-! ## The encoders -/

def encodeUint (n : UInt64) : List UInt8 := m.encU64 n

def encodeInt (n : Int64) : List UInt8 := m.encI64 n

def encodeArrayLen (len : Nat) : List UInt8 := m.encArray (UInt64.ofNat len)

def encodeBytes (data : List UInt8) : List UInt8 := m.encBytes data

def encodeText (text : String) : List UInt8 := m.encStr text

end

end Minicbor

end VeSmart.Protocol
