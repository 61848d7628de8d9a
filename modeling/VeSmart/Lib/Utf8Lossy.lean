import Mathlib.Data.List.Basic

set_option autoImplicit false

/-! # Lossy UTF-8 decoding

Every longest beginning of a sequence that cannot be completed becomes one replacement
character. -/

namespace VeSmart.Lib

namespace Utf8

def replacement : Char := '\uFFFD'

/-- An unfinished sequence: how many bytes are missing, the bounds of the next one, and the value
of the bits so far. -/
structure Sequence where
  missing : Nat
  low : UInt8
  high : UInt8
  value : Nat

/-- The first byte of a sequence. -/
def start (b : UInt8) : List Char × Option Sequence :=
  if b ≤ 0x7f then ([Char.ofNat b.toNat], none)
  else if 0xc2 ≤ b ∧ b ≤ 0xdf then ([], some ⟨1, 0x80, 0xbf, b.toNat % 0x20⟩)
  -- Overlong sequences, surrogates and values above the last character are cut at their first byte.
  else if b = 0xe0 then ([], some ⟨2, 0xa0, 0xbf, 0x0⟩)
  else if b = 0xed then ([], some ⟨2, 0x80, 0x9f, 0xd⟩)
  else if 0xe1 ≤ b ∧ b ≤ 0xef then ([], some ⟨2, 0x80, 0xbf, b.toNat % 0x10⟩)
  else if b = 0xf0 then ([], some ⟨3, 0x90, 0xbf, 0x0⟩)
  else if b = 0xf4 then ([], some ⟨3, 0x80, 0x8f, 0x4⟩)
  else if 0xf1 ≤ b ∧ b ≤ 0xf3 then ([], some ⟨3, 0x80, 0xbf, b.toNat % 0x8⟩)
  else ([replacement], none)

/-- A further byte; one that does not continue the sequence starts the next. -/
def next (p : Sequence) (b : UInt8) : List Char × Option Sequence :=
  if p.low ≤ b ∧ b ≤ p.high then
    let value := p.value * 0x40 + b.toNat % 0x40
    if p.missing = 1 then ([Char.ofNat value], none)
    else ([], some ⟨p.missing - 1, 0x80, 0xbf, value⟩)
  else (replacement :: (start b).1, (start b).2)

def decode : Option Sequence → List UInt8 → List Char
  | none, [] => []
  | some _, [] => [replacement]
  | none, b :: s => (start b).1 ++ decode (start b).2 s
  | some p, b :: s => (next p b).1 ++ decode (next p b).2 s

end Utf8

def fromUtf8Lossy (s : List UInt8) : String := String.ofList (Utf8.decode none s)

end VeSmart.Lib
