import VeSmart.Lib.Binary64
import VeSmart.Protocol.Control

set_option autoImplicit false

/-! # Register payloads (`victron-protocol/src/vreg.rs`, `vreg/types.rs`, `vreg/round.rs`) -/

namespace VeSmart.Protocol

open VeSmart.Lib

/-! ## Values -/

/-- Whether the scaling of a decoder was confirmed against the manufacturer's display. -/
inductive Confidence where
  | confirmed
  | candidate
  deriving DecidableEq

/-- Why a decoded value is absent. -/
inductive Invalid where
  | sentinel (value : String)
  | shortPayload (need have' : Nat)
  | lengthMismatch (expected have' : Nat)
  | notAligned (multiple have' : Nat)
  deriving DecidableEq

/-- One 8-byte slot of the block of available registers. -/
structure Slot where
  offset : Nat
  register : Option UInt16
  raw : List UInt8
  deriving DecidableEq

/-- A decoded value. -/
inductive Scaled where
  | number (x : F64)
  | integer (n : Int)
  | state (code : UInt8) (name : String)
  | slots (slots : List Slot)
  | block (wordsLe wordsBe : List UInt16)
  deriving DecidableEq

structure DecodedVreg where
  register : UInt16
  name : Option String
  unit : Option String
  decoder : String
  confidence : Confidence
  value : Option Scaled
  invalid : Option Invalid

def chargerStates : List (UInt8 × String) :=
  [(0, "Off"), (2, "Fault"), (3, "Bulk"), (4, "Absorption"), (5, "Float"), (6, "Storage"),
    (7, "Equalize"), (245, "Starting-up"), (247, "Auto equalize/Recondition"),
    (252, "External control")]

def loadStates : List (UInt8 × String) := [(0, "Off"), (1, "On")]

def stateName (states : List (UInt8 × String)) (code : UInt8) : String :=
  match states.find? fun s => s.1 = code with
  | some s => s.2
  | none => "Unknown(" ++ toString code.toNat ++ ")"

def chargerStateName (code : UInt8) : String := stateName chargerStates code

def loadStateName (code : UInt8) : String := stateName loadStates code

/-- The nearest integer to `v / 100`, the even one of two. -/
def roundHundredthsTiesEven (v : Int) : Int :=
  let q := v.tdiv 100
  let r := v.tmod 100
  if r = 0 then q
  else if r.natAbs < 50 then q
  else if 50 < r.natAbs then q + v.sign
  else if q % 2 = 0 then q
  else q + v.sign

theorem floor_hundredths (v : Int) : ⌊(v / 100 : ℚ)⌋ = v / 100 := by
  have h := Rat.floor_intCast_div_natCast v 100
  exact_mod_cast h

theorem fract_hundredths (v : Int) :
    (v / 100 : ℚ) - ⌊(v / 100 : ℚ)⌋ = ((v % 100 : Int) : ℚ) / 100 := by
  rw [floor_hundredths]
  have hdiv : ((v / 100 : Int) : ℚ) * 100 + ((v % 100 : Int) : ℚ) = v := by
    exact_mod_cast Int.ediv_mul_add_emod v 100
  linarith

/-- The rounding is that of the number of hundredths. -/
theorem roundHundredthsTiesEven_eq (v : Int) : roundHundredthsTiesEven v = roundEven (v / 100) := by
  have hless : ((v % 100 : Int) : ℚ) / 100 < 1 / 2 ↔ v % 100 < 50 := by
    rw [div_lt_iff₀ (by norm_num)]
    norm_num
    exact_mod_cast Iff.rfl
  have hmore : (1 : ℚ) / 2 < ((v % 100 : Int) : ℚ) / 100 ↔ 50 < v % 100 := by
    rw [lt_div_iff₀ (by norm_num)]
    norm_num
    exact_mod_cast Iff.rfl
  unfold roundEven roundHundredthsTiesEven
  rw [fract_hundredths, floor_hundredths]
  simp only [hless, hmore]
  rcases lt_trichotomy v 0 with hneg | rfl | hpos
  · -- the quotient is taken of the absolute value
    have hdiv : v.tdiv 100 = -(-v / 100) := by
      rw [← Int.tdiv_eq_ediv_of_nonneg (by omega), Int.neg_tdiv, neg_neg]
    have hmod : v.tmod 100 = -(-v % 100) := by
      rw [← Int.tmod_eq_emod_of_nonneg (by omega), Int.neg_tmod, neg_neg]
    rw [Int.sign_eq_neg_one_of_neg hneg, hdiv, hmod]
    split_ifs <;> omega
  · rfl
  · have hdiv : v.tdiv 100 = v / 100 := Int.tdiv_eq_ediv_of_nonneg (by omega)
    have hmod : v.tmod 100 = v % 100 := Int.tmod_eq_emod_of_nonneg (by omega)
    rw [Int.sign_eq_one_of_pos hpos, hdiv, hmod]
    split_ifs <;> omega

/-! ## Little-endian numbers -/

def leNat : List UInt8 → Nat
  | [] => 0
  | b :: rest => b.toNat + 256 * leNat rest

/-- The number in the first `k` bytes, if there are so many. -/
def unsignedLe (k : Nat) (raw : List UInt8) : Option Nat :=
  if k ≤ raw.length then some (leNat (raw.take k)) else none

/-- Two's complement of `k` bytes. -/
def signedOf (k : Nat) (n : Nat) : Int := if n < 2 ^ (8 * k - 1) then n else n - 2 ^ (8 * k)

def u16le (raw : List UInt8) : Option Nat := unsignedLe 2 raw
def s16le (raw : List UInt8) : Option Int := (unsignedLe 2 raw).map (signedOf 2)
def u32le (raw : List UInt8) : Option Nat := unsignedLe 4 raw
def s32le (raw : List UInt8) : Option Int := (unsignedLe 4 raw).map (signedOf 4)

def invalidU16 (v : Nat) : Option Invalid :=
  if v = 0xffff then some (.sentinel "0xffff") else none

def invalidU32 (v : Nat) : Option Invalid :=
  if v = 0xffffffff then some (.sentinel "0xffffffff") else none

def invalidS16 (v : Int) : Option Invalid :=
  if v = 0x7fff then some (.sentinel "0x7fff")
  else if v = -0x8000 then some (.sentinel "0x8000") else none

def invalidS32 (v : Int) : Option Invalid :=
  if v = 0x7fffffff then some (.sentinel "0x7fffffff")
  else if v = -0x80000000 then some (.sentinel "0x80000000") else none

/-- A payload of fewer bytes than needed. -/
def short (need : Nat) (raw : List UInt8) : Option Invalid :=
  if raw.length < need then some (.shortPayload need raw.length) else none

/-! ## Decoders -/

/-- `v as f64 / d`. -/
def scaledBy (d : Int) (v : Int) : Scaled := .number (.div (.ofInt v) (.ofInt d))

/-- A number of `need` bytes, read by `read`; a sentinel is no value. -/
def numeric {α : Type} (register : UInt16) (name : String) (unit : Option String)
    (decoder : String) (confidence : Confidence) (need : Nat)
    (read : List UInt8 → Option α) (invalid : α → Option Invalid) (scale : α → Scaled)
    (raw : List UInt8) : DecodedVreg where
  register := register
  name := some name
  unit := unit
  decoder := decoder
  confidence := confidence
  value := (read raw).bind fun v => if (invalid v).isNone then some (scale v) else none
  invalid := ((read raw).bind invalid).or (short need raw)

/-- A state code. -/
def stateCandidate (register : UInt16) (name decoder : String) (lookup : UInt8 → String)
    (raw : List UInt8) : DecodedVreg where
  register := register
  name := some name
  unit := none
  decoder := decoder
  confidence := .candidate
  value := raw.head?.map fun c => .state c (lookup c)
  invalid := short 1 raw

/-- The list in pieces of `n + 1` elements; what is left over at the end is not a piece. -/
def chunksExact {α : Type} (n : Nat) : Nat → List α → List (List α)
  | 0, _ => []
  | fuel + 1, xs =>
      if xs.length < n + 1 then [] else xs.take (n + 1) :: chunksExact n fuel (xs.drop (n + 1))

/-- The number of two bytes, the low one first. -/
def wordLe (bytes : List UInt8) : UInt16 := .ofNat (leNat bytes)

def slotsOf (raw : List UInt8) : List Slot :=
  (chunksExact 7 raw.length raw).zipIdx.map fun chunk =>
    let reg := wordLe (chunk.1.take 2)
    ⟨chunk.2 * 8, if reg ≠ 0xffff then some reg else none, chunk.1⟩

def wordsLe (raw : List UInt8) : List UInt16 := (chunksExact 1 raw.length raw).map wordLe

def wordsBe (raw : List UInt8) : List UInt16 :=
  (chunksExact 1 raw.length raw).map fun word => wordLe word.reverse

/-- A block without numbers. -/
def blockCandidate (register : UInt16) (name decoder : String) (value : Option Scaled)
    (invalid : Option Invalid) : DecodedVreg :=
  ⟨register, some name, none, decoder, .candidate, value, invalid⟩

/-- A register without a decoder of its own. -/
def fallback (register : UInt16) (decoder : String) (value : Option Scaled)
    (invalid : Option Invalid) : DecodedVreg :=
  ⟨register, none, none, decoder, .candidate, value, invalid⟩

def decodeRegister (register : UInt16) (raw : List UInt8) : DecodedVreg :=
  if register = 0xedbb then
    numeric register "Solar voltage" (some "V") "u16_le/100" .confirmed 2 u16le invalidU16
      (fun v => scaledBy 100 v) raw
  else if register = 0xedbc then
    numeric register "Solar power" (some "W") "u32_le/100 rounded" .confirmed 4 u32le invalidU32
      (fun v => .integer (roundHundredthsTiesEven v)) raw
  else if register = 0xed8d then
    numeric register "Battery voltage" (some "V") "u16_le/100" .candidate 2 u16le invalidU16
      (fun v => scaledBy 100 v) raw
  else if register = 0xed8c ∨ register = 0x2013 then
    numeric register
      (if register = 0xed8c then "Battery current" else "Trend/current-like value")
      (some "A") "s32_le/1000" .candidate 4 s32le invalidS32 (scaledBy 1000) raw
  else if register = 0xed8f then
    numeric register "Current flag/legacy current" none "s16_le" .candidate 2 s16le invalidS16
      .integer raw
  else if register = 0xeda9 then
    numeric register "Load/output voltage-like value" (some "V") "u16_le/10" .candidate 2 u16le
      invalidU16 (fun v => scaledBy 10 v) raw
  else if register = 0xedbd then
    numeric register "Solar current" (some "A") "u16_le/10" .candidate 2 u16le invalidU16
      (fun v => scaledBy 10 v) raw
  else if register = 0x0201 then
    stateCandidate register "Battery state" "u8 state enum" chargerStateName raw
  else if register = 0xeda8 then
    stateCandidate register "Load output state" "u8 load state enum" loadStateName raw
  else if register = 0xedad then
    numeric register "Load output current" (some "A") "u16_le/10" .candidate 2 u16le invalidU16
      (fun v => scaledBy 10 v) raw
  else if register = 0xedaa then
    numeric register "Load output power" (some "W") "u16_le" .candidate 2 u16le invalidU16
      (fun v => .integer v) raw
  else if register = 0x2027 then
    numeric register "Power-like trend value" (some "W") "s32_le/100" .candidate 4 s32le
      invalidS32 (fun v => .integer (roundHundredthsTiesEven v)) raw
  else if register = 0xec20 then
    if raw.length % 8 = 0 ∧ raw ≠ [] then
      blockCandidate register "Trend available-vregs block" "8-byte slots, first u16 register"
        (some (.slots (slotsOf raw))) none
    else
      blockCandidate register "Trend available-vregs block" "8-byte slots, first u16 register"
        none (some (.notAligned 8 raw.length))
  else if register = 0x104f ∨ register = 0x1050 then
    if raw.length = 34 then
      blockCandidate register "MPPT history/trend block"
        "raw 34-byte block; field layout pending" (some (.block (wordsLe raw) (wordsBe raw))) none
    else
      blockCandidate register "MPPT history/trend block"
        "raw 34-byte block; field layout pending" none (some (.lengthMismatch 34 raw.length))
  else if raw.length = 1 then
    fallback register "u8" (some (.integer (leNat raw))) none
  else if raw.length = 2 then
    fallback register "raw_u16_le"
      (if (invalidU16 (leNat raw)).isNone then some (.integer (leNat raw)) else none)
      (invalidU16 (leNat raw))
  else if raw.length = 4 then
    let v := signedOf 4 (leNat raw)
    let sentinel :=
      if raw = [0xff, 0xff, 0xff, 0xff] then some (.sentinel "0xffffffff") else invalidS32 v
    fallback register "raw_s32_le" (if sentinel.isNone then some (.integer v) else none) sentinel
  else fallback register "raw" none none

end VeSmart.Protocol
