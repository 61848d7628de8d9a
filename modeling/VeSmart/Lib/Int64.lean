import Mathlib.Tactic

set_option autoImplicit false

/-! # 64-bit integers inside the integers

A signed 64-bit value is an `Int` satisfying `InI64`. `wrapI64` and `satI64` are the two ways
in which a sum leaves the range: an addition wraps around, a saturating operation stops at
the bound. The second half is the decimal text of a 64-bit integer and its parser, with the
round trip `parseI64_toString`. -/

namespace VeSmart.Lib

def i64Min : Int := -9223372036854775808
def i64Max : Int := 9223372036854775807
def u64Max : Nat := 18446744073709551615

/-- `x` is the value of a signed 64-bit integer. -/
def InI64 (x : Int) : Prop := i64Min ≤ x ∧ x ≤ i64Max

instance (x : Int) : Decidable (InI64 x) := inferInstanceAs (Decidable (_ ∧ _))

/-- The signed 64-bit integers. -/
abbrev I64 := { x : Int // InI64 x }

/-- A literal of milliseconds. -/
def ms (x : Int) (h : decide (InI64 x) = true := by exact Eq.refl true) : I64 :=
  ⟨x, of_decide_eq_true h⟩

/-- Two's complement wrap-around. -/
def wrapI64 (x : Int) : Int := (x + 9223372036854775808) % 18446744073709551616 - 9223372036854775808

/-- Saturation at the bounds. -/
def satI64 (x : Int) : Int := max i64Min (min i64Max x)

theorem inI64_wrapI64 (x : Int) : InI64 (wrapI64 x) := by
  simp only [InI64, wrapI64, i64Min, i64Max]
  omega

theorem wrapI64_of_inI64 {x : Int} (h : InI64 x) : wrapI64 x = x := by
  simp only [InI64, i64Min, i64Max] at h
  simp only [wrapI64]
  omega

/-- The sum of two positive 64-bit integers that does not fit is negative after wrapping. -/
theorem wrapI64_neg {x y : Int} (hx : InI64 x) (hy : InI64 y) (h : i64Max < x + y) :
    wrapI64 (x + y) < 0 := by
  simp only [InI64, i64Min, i64Max] at hx hy h
  simp only [wrapI64]
  omega

theorem satI64_of_inI64 {x : Int} (h : InI64 x) : satI64 x = x := by
  simp only [InI64, satI64, i64Min, i64Max] at h ⊢
  omega

theorem satI64_mono {x y : Int} (h : x ≤ y) : satI64 x ≤ satI64 y := by
  simp only [satI64, i64Min, i64Max]
  omega

/-! ## Decimal text -/

/-- The value of a nonempty list of decimal digits. -/
def parseDigits (cs : List Char) : Option Nat :=
  if cs ≠ [] ∧ cs.all Char.isDigit then some (Nat.ofDigitChars 10 cs 0) else none

/-- An optional sign and a nonempty list of digits, within the range. -/
def parseI64 (s : String) : Option Int :=
  let value : Option Int :=
    match s.toList with
    | '-' :: cs => (parseDigits cs).map (fun n => -(n : Int))
    | '+' :: cs => (parseDigits cs).map (fun n => (n : Int))
    | cs => (parseDigits cs).map (fun n => (n : Int))
  value.filter (fun x => InI64 x)

theorem parseDigits_toDigits (n : Nat) : parseDigits (Nat.toDigits 10 n) = some n := by
  have hne : Nat.toDigits 10 n ≠ [] := Nat.toDigits_ne_nil
  have hall : (Nat.toDigits 10 n).all Char.isDigit = true := by
    rw [List.all_eq_true]
    intro c hc
    exact Nat.isDigit_of_mem_toDigits (by decide) (by decide) hc
  rw [parseDigits, if_pos ⟨hne, hall⟩, Nat.ofDigitChars_ten_toDigits]

/-- The digits of a number start with a digit, so they are not taken for a sign. -/
theorem toDigits_head (n : Nat) :
    ∃ c cs, Nat.toDigits 10 n = c :: cs ∧ c ≠ '-' ∧ c ≠ '+' := by
  cases h : Nat.toDigits 10 n with
  | nil => exact absurd h Nat.toDigits_ne_nil
  | cons c cs =>
      have hc : c.isDigit = true :=
        Nat.isDigit_of_mem_toDigits (by decide) (by decide) (h ▸ List.mem_cons_self)
      refine ⟨c, cs, rfl, ?_, ?_⟩
      · rintro rfl; exact absurd hc (by decide)
      · rintro rfl; exact absurd hc (by decide)

theorem parseI64_ofNat {n : Nat} (h : InI64 n) : parseI64 (toString (n : Int)) = some (n : Int) := by
  have hs : (toString (n : Int)).toList = Nat.toDigits 10 n := Nat.toList_repr
  obtain ⟨c, cs, hd, hminus, hplus⟩ := toDigits_head n
  have hp : parseDigits (c :: cs) = some n := by rw [← hd]; exact parseDigits_toDigits n
  rw [parseI64, hs, hd]
  have hm : (match c :: cs with
      | '-' :: cs => (parseDigits cs).map (fun n => -(n : Int))
      | '+' :: cs => (parseDigits cs).map (fun n => (n : Int))
      | cs => (parseDigits cs).map (fun n => (n : Int))) = some (n : Int) := by
    split
    · rename_i heq; exact absurd (List.cons.inj heq).1 hminus
    · rename_i heq; exact absurd (List.cons.inj heq).1 hplus
    · rw [hp]; rfl
  rw [hm]
  simp [h]

theorem parseI64_neg {n : Nat} (h : InI64 (-(n + 1 : Nat) : Int)) :
    parseI64 (toString (Int.negSucc n)) = some (Int.negSucc n) := by
  have hs : (toString (Int.negSucc n)).toList = '-' :: Nat.toDigits 10 (n + 1) := by
    show ("-" ++ Nat.repr (n + 1)).toList = _
    rw [String.toList_append, Nat.toList_repr]
    rfl
  rw [parseI64, hs]
  show ((parseDigits (Nat.toDigits 10 (n + 1))).map (fun n => -(n : Int))).filter _ = _
  rw [parseDigits_toDigits]
  have hx : InI64 (Int.negSucc n) := h
  show Option.filter (fun x => decide (InI64 x)) (some (Int.negSucc n)) = _
  rw [Option.filter_some, if_pos (by simpa using hx)]

/-- **Round trip**: the decimal text of a 64-bit integer parses to it. -/
theorem parseI64_toString {x : Int} (h : InI64 x) : parseI64 (toString x) = some x := by
  cases x with
  | ofNat n => exact parseI64_ofNat h
  | negSucc n => exact parseI64_neg h

end VeSmart.Lib
