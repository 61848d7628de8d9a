import VeSmart.Lib.Int64
import VeSmart.Protocol.Vreg

set_option autoImplicit false

/-! # Rounding to whole watts (`victron-protocol/src/vreg/round.rs`)

The rounding is computed in 64-bit integers. `roundHundredthsChecked` is the computation with
every result checked; it never leaves the range, and what it computes is `roundEven` of the
hundredths, with everything that `roundEven` promises. -/

namespace VeSmart.Protocol

open VeSmart.Lib

/-- The result of an operation on 64-bit integers; nothing if it overflows. -/
def fitI64 (x : Int) : Option Int := if InI64 x then some x else none

/-- `round_hundredths_ties_even` operation by operation. -/
def roundHundredthsChecked (v : Int) : Option Int := do
  let q ← fitI64 (v.tdiv 100)
  let r ← fitI64 (v.tmod 100)
  if r = 0 then some q
  else
    let size ← fitI64 |r|
    if size < 50 then some q
    else if 50 < size then fitI64 (q + v.sign)
    else
      let parity ← fitI64 (q.tmod 2)
      if parity = 0 then some q else fitI64 (q + v.sign)

theorem fitI64_eq {x : Int} (h : InI64 x) : fitI64 x = some x := if_pos h

/-- The quotient and the remainder are small. -/
theorem hundredths_bounds {v : Int} (h : InI64 v) :
    -92233720368547759 ≤ v.tdiv 100 ∧ v.tdiv 100 ≤ 92233720368547759 ∧
      -100 < v.tmod 100 ∧ v.tmod 100 < 100 ∧ -1 ≤ v.sign ∧ v.sign ≤ 1 := by
  simp only [InI64, i64Min, i64Max] at h
  have hdecomp := Int.tmod_add_mul_tdiv v 100
  have hsize := Int.tmod_lt_of_pos v (by omega : (0 : Int) < 100)
  have hsize' : -100 < v.tmod 100 := by
    have hneg := Int.tmod_lt_of_pos (-v) (by omega : (0 : Int) < 100)
    rw [Int.neg_tmod] at hneg
    omega
  rcases lt_trichotomy v 0 with hneg | rfl | hpos
  · rw [Int.sign_eq_neg_one_of_neg hneg]
    omega
  · rw [Int.sign_zero]
    omega
  · rw [Int.sign_eq_one_of_pos hpos]
    omega

/-- **No operation overflows.** -/
theorem roundHundredthsChecked_eq {v : Int} (h : InI64 v) :
    roundHundredthsChecked v = some (roundHundredthsTiesEven v) := by
  obtain ⟨hqlo, hqhi, hrlo, hrhi, hslo, hshi⟩ := hundredths_bounds h
  have hq : InI64 (v.tdiv 100) := by
    simp only [InI64, i64Min, i64Max]
    omega
  have hr : InI64 (v.tmod 100) := by
    simp only [InI64, i64Min, i64Max]
    omega
  have hsize : InI64 |v.tmod 100| := by
    have hlt : |v.tmod 100| < 100 := abs_lt.mpr ⟨hrlo, hrhi⟩
    have hnonneg := abs_nonneg (v.tmod 100)
    simp only [InI64, i64Min, i64Max]
    omega
  have hsum : InI64 (v.tdiv 100 + v.sign) := by
    simp only [InI64, i64Min, i64Max]
    omega
  have hparity : InI64 ((v.tdiv 100).tmod 2) := by
    have hlt := Int.tmod_lt_of_pos (v.tdiv 100) (by omega : (0 : Int) < 2)
    have hgt := Int.tmod_lt_of_pos (-v.tdiv 100) (by omega : (0 : Int) < 2)
    rw [Int.neg_tmod] at hgt
    simp only [InI64, i64Min, i64Max]
    omega
  have habs : |v.tmod 100| = ((v.tmod 100).natAbs : Int) := Int.abs_eq_natAbs _
  have heven : (v.tdiv 100).tmod 2 = 0 ↔ v.tdiv 100 % 2 = 0 := by
    rw [← Int.dvd_iff_tmod_eq_zero, Int.dvd_iff_emod_eq_zero]
  simp only [roundHundredthsChecked, roundHundredthsTiesEven, fitI64_eq hq, fitI64_eq hr,
    fitI64_eq hsize, fitI64_eq hsum, fitI64_eq hparity, Option.bind_eq_bind, Option.bind_some]
  rw [habs]
  simp only [heven, Nat.cast_lt_ofNat, Nat.ofNat_lt_cast]
  split_ifs <;> rfl

/-! ## The power register -/

/-- The value of a payload of four bytes that is no sentinel. -/
theorem decodePower_value {raw : List UInt8} {v : Nat} (hraw : u32le raw = some v)
    (hv : v ≠ 0xffffffff) :
    (decodeRegister 0xedbc raw).value = some (.integer (roundHundredthsTiesEven v)) := by
  have hdecode : decodeRegister 0xedbc raw =
      numeric 0xedbc "Solar power" (some "W") "u32_le/100 rounded" .confirmed 4 u32le invalidU32
        (fun v => .integer (roundHundredthsTiesEven v)) raw := by
    rfl
  have hinvalid : invalidU32 v = none := if_neg hv
  rw [hdecode]
  simp [numeric, hraw, hinvalid]

theorem roundHundredths_mono {v w : Int} (h : v ≤ w) :
    roundHundredthsTiesEven v ≤ roundHundredthsTiesEven w := by
  rw [roundHundredthsTiesEven_eq, roundHundredthsTiesEven_eq]
  apply roundEven_mono
  have hcast : (v : ℚ) ≤ w := by exact_mod_cast h
  linarith

/-- **The rounding to hundredths**: the nearest integer, of two the even one, without an overflow;
odd and monotone. The power of a panel is within half a watt of the raw value, in the same
order. -/
theorem roundHundredths_nearest :
    (∀ v, InI64 v → roundHundredthsChecked v = some (roundHundredthsTiesEven v) ∧
      (∀ k : Int, |(roundHundredthsTiesEven v : ℚ) - v / 100| ≤ |(k : ℚ) - v / 100|) ∧
      ∀ k : Int, k ≠ roundHundredthsTiesEven v →
        |(k : ℚ) - v / 100| = |(roundHundredthsTiesEven v : ℚ) - v / 100| →
        roundHundredthsTiesEven v % 2 = 0) ∧
    (∀ v, InI64 v → v ≠ i64Min → roundHundredthsTiesEven (-v) = -roundHundredthsTiesEven v) ∧
    (∀ v w, InI64 v → InI64 w → v ≤ w →
      roundHundredthsTiesEven v ≤ roundHundredthsTiesEven w) ∧
    (∀ raw v, u32le raw = some v → v ≠ 0xffffffff → ∃ n,
      (decodeRegister 0xedbc raw).value = some (.integer n) ∧ |(n : ℚ) - v / 100| ≤ 1 / 2) ∧
    ∀ raw raw' v v', u32le raw = some v → u32le raw' = some v' → v ≠ 0xffffffff →
      v' ≠ 0xffffffff → v ≤ v' → ∃ n n', (decodeRegister 0xedbc raw).value = some (.integer n) ∧
        (decodeRegister 0xedbc raw').value = some (.integer n') ∧ n ≤ n' := by
  refine ⟨?_, ?_, fun v w _ _ h => roundHundredths_mono h, ?_, ?_⟩
  · intro v hv
    rw [roundHundredthsChecked_eq hv, roundHundredthsTiesEven_eq]
    exact ⟨rfl, roundEven_nearest _, fun k hne h => roundEven_even hne h⟩
  · intro v _ _
    rw [roundHundredthsTiesEven_eq, roundHundredthsTiesEven_eq, ← roundEven_neg]
    congr 1
    push_cast
    ring
  · intro raw v hraw hv
    refine ⟨_, decodePower_value hraw hv, ?_⟩
    have herror := roundEven_error (((v : Int) : ℚ) / 100)
    rw [← roundHundredthsTiesEven_eq, Int.cast_natCast] at herror
    exact herror
  · intro raw raw' v v' hraw hraw' hv hv' hle
    exact ⟨_, _, decodePower_value hraw hv, decodePower_value hraw' hv',
      roundHundredths_mono (by exact_mod_cast hle)⟩

end VeSmart.Protocol
