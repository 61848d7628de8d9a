import VeSmart.Protocol.Cbor

set_option autoImplicit false

/-! # Items and their encodings

`Encodes` is the encoding of an item in the sense of RFC 8949, with every choice of widths and
lengths that it leaves. `Item.nested` lists the items of an item with their depths, so that the
bounds of the decoder can be stated, and `Minicbor.Conforms` says what the low-level parser is
taken to do. -/

namespace VeSmart.Protocol

open VeSmart.Lib VeSmart.Lib.Cbor

/-! ## Encodings -/

/-- The bytes of a text. -/
def utf8 (s : String) : List UInt8 := s.toByteArray.data.toList

/-- The keys and values of a map, in order. -/
def members (entries : List (Item × Item)) : List Item := entries.flatMap fun e => [e.1, e.2]

/-- `s` is an encoding of the item. -/
inductive Encodes : Item → List UInt8 → Prop
  | uint (n : UInt64) (s : List UInt8) (h : IsHead 0 n.toNat s) : Encodes (.uint n) s
  | int (v : Int64) (n : Nat) (s : List UInt8) (h : IsHead 1 n s) (hv : v.toInt = -1 - n) :
      Encodes (.int v) s
  | bytes (chunks : List (List UInt8)) (s : List UInt8) (h : IsString 2 id chunks s) :
      Encodes (.bytes (chunks.flatMap id)) s
  | text (text : String) (chunks : List String) (s : List UInt8) (h : IsString 3 utf8 chunks s)
      (htext : chunks.flatMap utf8 = utf8 text) : Encodes (.text text) s
  | array (items : List Item) (parts : List (List UInt8)) (s : List UInt8)
      (hitems : List.Forall₂ Encodes items parts)
      (h : IsContainer 4 items.length parts.flatten s) : Encodes (.array items) s
  | map (entries : List (Item × Item)) (parts : List (List UInt8)) (s : List UInt8)
      (hmembers : List.Forall₂ Encodes (members entries) parts)
      (h : IsContainer 5 entries.length parts.flatten s) : Encodes (.map entries) s
  | tag (tag : UInt64) (item : Item) (h s : List UInt8) (hhead : IsHead 6 tag.toNat h)
      (hitem : Encodes item s) : Encodes (.tag tag item) (h ++ s)
  | bool (b : Bool) : Encodes (.bool b) (head 7 .immediate (20 + b.toNat))
  | null : Encodes .null (head 7 .immediate 22)
  | undefined : Encodes .undefined (head 7 .immediate 23)
  | simple (n : UInt8) (s : List UInt8) (h : IsSimple n s) : Encodes (.simple n) s
  | float (x : F64) (s : List UInt8) (h : IsFloat x s) : Encodes (.float x) s

/-- The encodings of the items, one after the other. -/
def EncodesAll (items : List Item) (s : List UInt8) : Prop :=
  ∃ parts, List.Forall₂ Encodes items parts ∧ s = parts.flatten

/-! ## Depth, number and size -/

mutual

/-- The item and every item inside it, each with the number of containers around it. -/
def Item.nested (depth : Nat) : Item → List (Nat × Item)
  | .array items => (depth, .array items) :: nestedAll (depth + 1) items
  | .map entries => (depth, .map entries) :: nestedEntries (depth + 1) entries
  | .tag tag item => (depth, .tag tag item) :: item.nested (depth + 1)
  | item => [(depth, item)]

def nestedAll (depth : Nat) : List Item → List (Nat × Item)
  | [] => []
  | item :: items => item.nested depth ++ nestedAll depth items

def nestedEntries (depth : Nat) : List (Item × Item) → List (Nat × Item)
  | [] => []
  | (k, v) :: entries => k.nested depth ++ v.nested depth ++ nestedEntries depth entries

end

/-- The number of bytes of a byte or text string. -/
def Item.stringBytes : Item → Nat
  | .bytes data => data.length
  | .text s => s.utf8ByteSize
  | _ => 0

/-- The number of members of an array or map. -/
def Item.members : Item → Nat
  | .array items => items.length
  | .map entries => entries.length
  | _ => 0

/-- The bounds of the decoder: depth, number of items, and bytes in a string. -/
structure Bounded (items : List Item) : Prop where
  depth : ∀ p ∈ nestedAll 0 items, p.1 ≤ maxDepth
  count : (nestedAll 0 items).length ≤ maxItems
  strings : ∀ p ∈ nestedAll 0 items, p.2.stringBytes ≤ maxStringBytes

/-! ## The parser -/

/-- What kind of item is in front. -/
inductive ItemKind where
  | uint
  | int
  | bytes
  | text
  | array
  | map
  | tag
  | bool
  | null
  | undefined
  | simple
  | float
  deriving DecidableEq

def Item.kind : Item → ItemKind
  | .uint _ => .uint
  | .int _ => .int
  | .bytes _ => .bytes
  | .text _ => .text
  | .array _ => .array
  | .map _ => .map
  | .tag _ _ => .tag
  | .bool _ => .bool
  | .null => .null
  | .undefined => .undefined
  | .simple _ => .simple
  | .float _ => .float

def DataType.kind : DataType → Option ItemKind
  | .u8 | .u16 | .u32 | .u64 => some .uint
  | .i8 | .i16 | .i32 | .i64 | .int => some .int
  | .f16 | .f32 | .f64 => some .float
  | .bool => some .bool
  | .null => some .null
  | .undefined => some .undefined
  | .simple => some .simple
  | .bytes | .bytesIndef => some .bytes
  | .string | .stringIndef => some .text
  | .array | .arrayIndef => some .array
  | .map | .mapIndef => some .map
  | .tag => some .tag
  | .brk => none
  | .unknown _ => none

/-- The first bytes of the items of a kind. -/
def ItemKind.Starts (b : UInt8) : ItemKind → Prop
  | .uint => major b = 0 ∧ info b < 28
  | .int => major b = 1 ∧ info b < 28
  | .bytes => major b = 2 ∧ (info b < 28 ∨ info b = 31)
  | .text => major b = 3 ∧ (info b < 28 ∨ info b = 31)
  | .array => major b = 4 ∧ (info b < 28 ∨ info b = 31)
  | .map => major b = 5 ∧ (info b < 28 ∨ info b = 31)
  | .tag => major b = 6 ∧ info b < 28
  | .bool => major b = 7 ∧ (info b = 20 ∨ info b = 21)
  | .null => major b = 7 ∧ info b = 22
  | .undefined => major b = 7 ∧ info b = 23
  | .simple => major b = 7 ∧ (info b < 20 ∨ info b = 24)
  | .float => major b = 7 ∧ 25 ≤ info b ∧ info b < 28

/-- The function takes the values of the grammar off the input, and no others. -/
def Parses {α : Type} (parse : Parse α) (G : α → List UInt8 → Prop) : Prop :=
  ∀ input x rest, parse input = .ok (x, rest) ↔ ∃ s, G x s ∧ input = s ++ rest

/-- The iterator goes over the strings of the major type `k`. It may cut them its own way. -/
def Iterates {α : Type} (k : Nat) (bytesOf : α → List UInt8)
    (iter : List UInt8 → Except DecodeError (List α × Except DecodeError (List UInt8))) : Prop :=
  ∀ input data rest,
    (∃ chunks, iter input = .ok (chunks, .ok rest) ∧ chunks.flatMap bytesOf = data) ↔
      ∃ chunks s, IsString k bytesOf chunks s ∧ chunks.flatMap bytesOf = data ∧
        input = s ++ rest

/-- The head of a container: its length, or nothing for one up to a break. -/
def IsLength (k : Nat) : Option UInt64 → List UInt8 → Prop
  | some n, s => IsHead k n.toNat s
  | none, s => s = [initial k 31]

/-- The low-level parser and encoder do what RFC 8949 says of the heads of items. -/
structure Minicbor.Conforms (m : Minicbor) : Prop where
  datatype : ∀ input ty, m.datatype input = .ok ty → ∃ b rest, input = b :: rest ∧
    (∀ kind, ty.kind = some kind ↔ kind.Starts b) ∧ (ty = .brk ↔ b = 0xff)
  datatype_head : ∀ (k : Nat) (w : Width) (n : Nat) (rest : List UInt8), k < 8 → w.Fits n →
    ∃ ty, m.datatype (head k w n ++ rest) = .ok ty
  datatype_indefinite : ∀ (k : Nat) (rest : List UInt8), k ∈ [2, 3, 4, 5, 7] →
    ∃ ty, m.datatype (initial k 31 :: rest) = .ok ty
  u64 : Parses m.u64 fun n s => IsHead 0 n.toNat s
  i64 : Parses m.i64 fun v s => (∃ n : Nat, IsHead 0 n s ∧ v.toInt = n) ∨
    ∃ n : Nat, IsHead 1 n s ∧ v.toInt = -1 - n
  f64 : Parses m.f64 IsFloat
  bool : Parses m.bool fun b s => s = head 7 .immediate (20 + b.toNat)
  null : Parses m.null fun _ s => s = head 7 .immediate 22
  undefined : Parses m.undefined fun _ s => s = head 7 .immediate 23
  simple : Parses m.simple IsSimple
  bytesIter : Iterates 2 id m.bytesIter
  strIter : Iterates 3 utf8 m.strIter
  array : Parses m.array (IsLength 4)
  map : Parses m.map (IsLength 5)
  tag : Parses m.tag fun n s => IsHead 6 n.toNat s
  skip_break : ∀ rest, m.skip (0xff :: rest) = .ok ((), rest)
  encU64 : ∀ n, m.encU64 n = head 0 (.least n.toNat) n.toNat
  encI64_nonneg : ∀ v : Int64, 0 ≤ v.toInt →
    m.encI64 v = head 0 (.least v.toInt.toNat) v.toInt.toNat
  encI64_neg : ∀ v : Int64, v.toInt < 0 →
    m.encI64 v = head 1 (.least (-1 - v.toInt).toNat) (-1 - v.toInt).toNat
  encArray : ∀ n, m.encArray n = head 4 (.least n.toNat) n.toNat
  encBytes : ∀ data, m.encBytes data = head 2 (.least data.length) data.length ++ data
  encStr : ∀ text, m.encStr text = head 3 (.least (utf8 text).length) (utf8 text).length ++ utf8 text

end VeSmart.Protocol
