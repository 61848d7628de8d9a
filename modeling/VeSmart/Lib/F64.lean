import Mathlib.Tactic

set_option autoImplicit false

/-! # Floating-point values with exact arithmetic

An `F64` is the value of a 64-bit float: a finite number (an exact rational), the negative
zero, an infinity or a NaN. Only what programs ask of such a value before they compute with
it is defined here: whether it is finite, its rational value, and bitwise equality, which is
equality of `F64`. Sums and products are exact, in the rationals: they do not round and do not
overflow. -/

namespace VeSmart.Lib

inductive F64 where
  | finite (q : ℚ)
  | negZero
  | infinite (negative : Bool)
  | nan
  deriving DecidableEq

/-- The rational value of a finite float. -/
def F64.toRat? : F64 → Option ℚ
  | .finite q => some q
  | .negZero => some 0
  | .infinite _ => none
  | .nan => none

def F64.isFinite (x : F64) : Bool := x.toRat?.isSome

/-- `x` is a number between `lo` and `hi`. -/
def F64.between (lo hi : ℚ) (x : F64) : Bool :=
  match x.toRat? with
  | none => false
  | some q => lo ≤ q && q ≤ hi

/-- The order of the floats; nothing is comparable to a NaN. -/
def F64.le : F64 → F64 → Bool
  | .nan, _ => false
  | _, .nan => false
  | .infinite negative, y => negative || y = .infinite false
  | x, .infinite negative => !negative && x ≠ .nan
  | x, y => (x.toRat?.getD 0) ≤ (y.toRat?.getD 0)

/-- The strict order of the floats. -/
def F64.lt (x y : F64) : Bool := x.le y && !(y.le x)

/-- The integer next to the float in the direction of zero. -/
def F64.truncate (x : F64) : Int :=
  match x.toRat? with
  | none => 0
  | some q => if 0 ≤ q then ⌊q⌋ else ⌈q⌉

/-- The sum. Infinities of opposite sign have none. -/
def F64.add : F64 → F64 → F64
  | .nan, _ => .nan
  | _, .nan => .nan
  | .infinite a, .infinite b => if a = b then .infinite a else .nan
  | .infinite a, _ => .infinite a
  | _, .infinite b => .infinite b
  | .finite p, .finite q => .finite (p + q)
  | .finite p, .negZero => .finite p
  | .negZero, .finite q => .finite q
  | .negZero, .negZero => .negZero

/-- The product with a positive number. -/
def F64.scale (r : ℚ) : F64 → F64
  | .finite q => .finite (q * r)
  | x => x

theorem F64.toRat?_add {x y : F64} {p q : ℚ} (hx : x.toRat? = some p) (hy : y.toRat? = some q) :
    (x.add y).toRat? = some (p + q) := by
  cases x with
  | nan => cases hx
  | infinite a => cases hx
  | finite a =>
      cases hx
      cases y with
      | nan => cases hy
      | infinite b => cases hy
      | finite b => cases hy; rfl
      | negZero => cases hy; simp [F64.add, F64.toRat?]
  | negZero =>
      cases hx
      cases y with
      | nan => cases hy
      | infinite b => cases hy
      | finite b => cases hy; simp [F64.add, F64.toRat?]
      | negZero => cases hy; simp [F64.add, F64.toRat?]

theorem F64.toRat?_scale {x : F64} {p : ℚ} (r : ℚ) (hx : x.toRat? = some p) :
    (x.scale r).toRat? = some (p * r) := by
  cases x with
  | nan => cases hx
  | infinite a => cases hx
  | finite a => cases hx; rfl
  | negZero => cases hx; simp [F64.scale, F64.toRat?]

@[simp] theorem F64.toRat?_finite (q : ℚ) : (F64.finite q).toRat? = some q := rfl

@[simp] theorem F64.isFinite_finite (q : ℚ) : (F64.finite q).isFinite = true := rfl

/-- On numbers the order of the floats is the order of the rationals. -/
theorem F64.le_iff {x y : F64} {p q : ℚ} (hx : x.toRat? = some p) (hy : y.toRat? = some q) :
    x.le y = true ↔ p ≤ q := by
  cases x with
  | nan => cases hx
  | infinite a => cases hx
  | finite a =>
      cases y with
      | nan => cases hy
      | infinite b => cases hy
      | finite b => cases hx; cases hy; exact decide_eq_true_iff
      | negZero => cases hx; cases hy; exact decide_eq_true_iff
  | negZero =>
      cases y with
      | nan => cases hy
      | infinite b => cases hy
      | finite b => cases hx; cases hy; exact decide_eq_true_iff
      | negZero =>
          cases hx
          cases hy
          exact iff_of_true rfl (le_refl 0)

theorem F64.lt_iff {x y : F64} {p q : ℚ} (hx : x.toRat? = some p) (hy : y.toRat? = some q) :
    x.lt y = true ↔ p < q := by
  have hxy := F64.le_iff hx hy
  have hyx := F64.le_iff hy hx
  rw [F64.lt, Bool.and_eq_true, Bool.not_eq_true', hxy, ← Bool.not_eq_true, hyx, not_le]
  exact ⟨fun h => h.2, fun h => ⟨le_of_lt h, h⟩⟩

theorem F64.between_iff {lo hi : ℚ} {x : F64} :
    x.between lo hi = true ↔ ∃ q, x.toRat? = some q ∧ lo ≤ q ∧ q ≤ hi := by
  unfold F64.between
  cases x.toRat? with
  | none => simp
  | some q => simp

@[simp] theorem F64.between_finite {lo hi q : ℚ} :
    (F64.finite q).between lo hi = true ↔ lo ≤ q ∧ q ≤ hi := by
  simp [F64.between_iff]

end VeSmart.Lib
