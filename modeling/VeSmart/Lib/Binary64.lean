import Mathlib.Data.Int.Log
import VeSmart.Lib.F64

set_option autoImplicit false

/-! # Rounding to binary64

The conversion of integers and the division round to the nearest 64-bit float, and to the even
one of two (`roundBinary64`). `roundBinary64_nearest` is what the proofs use of it: no float is
closer. -/

namespace VeSmart.Lib

/-- The nearest integer, the even one of two. -/
def roundEven (q : ℚ) : Int :=
  if q - ⌊q⌋ < 1 / 2 then ⌊q⌋
  else if 1 / 2 < q - ⌊q⌋ then ⌊q⌋ + 1
  else if ⌊q⌋ % 2 = 0 then ⌊q⌋ else ⌊q⌋ + 1

/-- A 64-bit float has 53 bits of significand. -/
def IsBinary64 (y : ℚ) : Prop :=
  ∃ k e : Int, |k| < 2 ^ 53 ∧ -1074 ≤ e ∧ e ≤ 971 ∧ y = k * (2 : ℚ) ^ e

/-- The exponent of the last bit of the floats next to `q`. -/
def lastPlace (q : ℚ) : Int := max (Int.log 2 |q| - 52) (-1074)

def roundBinary64 (q : ℚ) : ℚ := roundEven (q / 2 ^ lastPlace q) * 2 ^ lastPlace q

/-- The float of a number. -/
def F64.ofRat (q : ℚ) : F64 :=
  if 2 ^ 1024 ≤ |roundBinary64 q| then .infinite (decide (q < 0))
  else if roundBinary64 q = 0 ∧ q < 0 then .negZero
  else .finite (roundBinary64 q)

/-- The float of an integer. -/
def F64.ofInt (n : Int) : F64 := .ofRat n

/-- The quotient. -/
def F64.div : F64 → F64 → F64
  | .nan, _ => .nan
  | _, .nan => .nan
  | .infinite _, .infinite _ => .nan
  | .infinite a, .finite q => .infinite (a ^^ decide (q < 0))
  | .infinite a, .negZero => .infinite !a
  | .finite p, .infinite b => if b = decide (p < 0) then .finite 0 else .negZero
  | .negZero, .infinite b => if b then .finite 0 else .negZero
  | .finite p, .finite q =>
      if q = 0 then if p = 0 then .nan else .infinite (decide (p < 0))
      else if p = 0 then if q < 0 then .negZero else .finite 0
      else .ofRat (p / q)
  | .finite p, .negZero => if p = 0 then .nan else .infinite (decide (0 < p))
  | .negZero, .finite q =>
      if q = 0 then .nan else if q < 0 then .finite 0 else .negZero
  | .negZero, .negZero => .nan

/-- The exact value as a float. -/
def F64.round : F64 → F64
  | .finite q => .ofRat q
  | x => x

/-- The sum of two floats as a float. -/
def F64.plus (x y : F64) : F64 := (x.add y).round

/-! ## The nearest integer -/

theorem roundEven_nearest (q : ℚ) (k : Int) : |(roundEven q : ℚ) - q| ≤ |(k : ℚ) - q| := by
  have hlo : (⌊q⌋ : ℚ) ≤ q := Int.floor_le q
  have hhi : q < ⌊q⌋ + 1 := Int.lt_floor_add_one q
  -- an integer is at the floor or below, or above it
  have hside : q - ⌊q⌋ ≤ |(k : ℚ) - q| ∨ ⌊q⌋ + 1 - q ≤ |(k : ℚ) - q| := by
    rcases le_or_gt k ⌊q⌋ with hk | hk
    · have hcast : (k : ℚ) ≤ ⌊q⌋ := by exact_mod_cast hk
      left
      rw [abs_of_nonpos (by linarith)]
      linarith
    · have hcast : (⌊q⌋ : ℚ) + 1 ≤ k := by exact_mod_cast hk
      right
      rw [abs_of_nonneg (by linarith)]
      linarith
  have hdown : |((⌊q⌋ : Int) : ℚ) - q| = q - ⌊q⌋ := by
    rw [abs_of_nonpos (by linarith)]
    ring
  have hup : |((⌊q⌋ + 1 : Int) : ℚ) - q| = ⌊q⌋ + 1 - q := by
    push_cast
    rw [abs_of_nonneg (by linarith)]
  unfold roundEven
  split_ifs with hless hmore heven
  · rw [hdown]
    rcases hside with h | h <;> linarith
  · rw [hup]
    rcases hside with h | h <;> linarith
  · rw [hdown]
    rcases hside with h | h <;> linarith
  · rw [hup]
    rcases hside with h | h <;> linarith

theorem abs_roundEven_le (q : ℚ) : |(roundEven q : ℚ)| ≤ 2 * |q| := by
  have hnearest := roundEven_nearest q 0
  have htriangle := abs_sub_abs_le_abs_sub (roundEven q : ℚ) q
  simp only [Int.cast_zero, zero_sub, abs_neg] at hnearest
  linarith

theorem roundEven_error (q : ℚ) : |(roundEven q : ℚ) - q| ≤ 1 / 2 := by
  have hlo : (⌊q⌋ : ℚ) ≤ q := Int.floor_le q
  have hhi : q < ⌊q⌋ + 1 := Int.lt_floor_add_one q
  unfold roundEven
  rw [abs_le]
  split_ifs with hless hmore heven <;> push_cast <;> constructor <;> linarith

/-- Halfway between two integers the even one is taken. -/
theorem roundEven_tie {q : ℚ} (h : |(roundEven q : ℚ) - q| = 1 / 2) : roundEven q % 2 = 0 := by
  have hlo : (⌊q⌋ : ℚ) ≤ q := Int.floor_le q
  have hhi : q < ⌊q⌋ + 1 := Int.lt_floor_add_one q
  unfold roundEven at h ⊢
  split_ifs at h ⊢ with hless hmore heven
  · rw [abs_of_nonpos (by linarith)] at h
    linarith
  · push_cast at h
    rw [abs_of_nonneg (by linarith)] at h
    linarith
  · exact heven
  · omega

/-- Two integers that are not further than a half from a number are the same, or both are as far
as that. -/
theorem near_integers {q : ℚ} {m n : Int} (hm : |(m : ℚ) - q| ≤ 1 / 2) (hn : |(n : ℚ) - q| ≤ 1 / 2)
    (hne : m ≠ n) : |(m : ℚ) - q| = 1 / 2 ∧ |(n : ℚ) - q| = 1 / 2 ∧ |m - n| = 1 := by
  have hdist : (1 : ℚ) ≤ |(m : ℚ) - n| := by
    have hint : 1 ≤ |m - n| := Int.one_le_abs (sub_ne_zero.mpr hne)
    exact_mod_cast hint
  have htriangle : |(m : ℚ) - n| ≤ |(m : ℚ) - q| + |(n : ℚ) - q| := by
    rw [abs_sub_comm (n : ℚ) q]
    exact abs_sub_le _ _ _
  have hone : |(m : ℚ) - n| = 1 := by linarith
  exact ⟨by linarith, by linarith, by exact_mod_cast hone⟩

/-- What the rounding is, without how it is computed. -/
theorem roundEven_eq_of {q : ℚ} {n : Int} (hn : |(n : ℚ) - q| ≤ 1 / 2)
    (heven : |(n : ℚ) - q| = 1 / 2 → n % 2 = 0) : roundEven q = n := by
  by_contra hne
  obtain ⟨htie, htie', hdist⟩ := near_integers (roundEven_error q) hn hne
  have h := roundEven_tie htie
  have h' := heven htie'
  -- two neighbours are not both even
  rcases abs_eq (by norm_num) |>.mp hdist with hd | hd <;> omega

/-- An integer that is as near as the rounded one, but is not it, leaves it even. -/
theorem roundEven_even {q : ℚ} {k : Int} (hne : k ≠ roundEven q)
    (h : |(k : ℚ) - q| = |(roundEven q : ℚ) - q|) : roundEven q % 2 = 0 := by
  have herror := roundEven_error q
  exact roundEven_tie (near_integers (h ▸ herror) herror hne).2.1

theorem roundEven_neg (q : ℚ) : roundEven (-q) = -roundEven q := by
  have habs : |((-roundEven q : Int) : ℚ) - -q| = |(roundEven q : ℚ) - q| := by
    rw [← abs_neg]
    congr 1
    push_cast
    ring
  apply roundEven_eq_of
  · rw [habs]
    exact roundEven_error q
  · intro htie
    rw [habs] at htie
    have heven := roundEven_tie htie
    omega

theorem roundEven_mono {p q : ℚ} (h : p ≤ q) : roundEven p ≤ roundEven q := by
  by_contra hlt
  have hle : (roundEven q : ℚ) + 1 ≤ roundEven p := by exact_mod_cast not_le.mp hlt
  have hp := (abs_le.mp (roundEven_error p)).2
  have hq := (abs_le.mp (roundEven_error q)).1
  have heq : p = q := by linarith
  rw [heq] at hlt
  exact hlt (le_refl _)

/-! ## The nearest float -/

theorem lastPlace_ge (q : ℚ) : -1074 ≤ lastPlace q := le_max_right _ _

/-- No float is closer to a number than the one it is rounded to. -/
theorem roundBinary64_nearest (q : ℚ) {z : ℚ} (hz : IsBinary64 z) :
    |roundBinary64 q - q| ≤ |z - q| := by
  set e := lastPlace q with he
  have hpos : (0 : ℚ) < 2 ^ e := by positivity
  have hscale : ∀ k : Int, |(k : ℚ) * 2 ^ e - q| = |(k : ℚ) - q / 2 ^ e| * 2 ^ e := by
    intro k
    rw [← abs_of_pos hpos, ← abs_mul, abs_of_pos hpos, sub_mul, div_mul_cancel₀ q hpos.ne']
  have hgrid : ∀ k : Int, |roundBinary64 q - q| ≤ |(k : ℚ) * 2 ^ e - q| := by
    intro k
    rw [roundBinary64, ← he, hscale, hscale]
    exact mul_le_mul_of_nonneg_right (roundEven_nearest _ k) hpos.le
  obtain ⟨k, e', hk, hmin, -, rfl⟩ := hz
  rcases le_or_gt e e' with hle | hlt
  · -- a float of the same or a coarser place is on the grid
    have hmul : (k : ℚ) * 2 ^ e' = ((k * 2 ^ (e' - e).toNat : Int) : ℚ) * 2 ^ e := by
      push_cast
      rw [mul_assoc, ← zpow_natCast, Int.toNat_of_nonneg (by omega),
        ← zpow_add₀ (by norm_num : (2 : ℚ) ≠ 0)]
      congr 2
      omega
    rw [hmul]
    exact hgrid _
  · -- a finer one is smaller than the power of two below `q`, which is on the grid
    have hlog : e = Int.log 2 |q| - 52 := by
      rcases max_choice (Int.log 2 |q| - 52) (-1074) with hmax | hmax
      · exact he.trans hmax
      · have : e = -1074 := he.trans hmax
        omega
    rcases eq_or_ne q 0 with rfl | hq
    · have hzero := hgrid 0
      simp only [Int.cast_zero, zero_mul, sub_zero, abs_zero] at hzero ⊢
      exact hzero.trans (abs_nonneg _)
    have hbelow : (2 : ℚ) ^ (e + 52) ≤ |q| := by
      have hself := Int.zpow_log_le_self (b := 2) (by omega) (abs_pos.mpr hq)
      rwa [show e + 52 = Int.log 2 |q| by omega]
    have hsmall : |(k : ℚ) * 2 ^ e'| ≤ 2 ^ (e + 52) := by
      have hcast : |(k : ℚ)| ≤ 2 ^ (53 : Int) := by
        have : |(k : ℚ)| < 2 ^ 53 := by exact_mod_cast hk
        exact this.le
      calc |(k : ℚ) * 2 ^ e'| = |(k : ℚ)| * 2 ^ e' := by
            rw [abs_mul, abs_of_pos (by positivity : (0 : ℚ) < 2 ^ e')]
        _ ≤ 2 ^ (53 : Int) * 2 ^ e' := mul_le_mul_of_nonneg_right hcast (by positivity)
        _ = 2 ^ (53 + e') := (zpow_add₀ (by norm_num) _ _).symm
        _ ≤ 2 ^ (e + 52) := zpow_le_zpow_right₀ (by norm_num) (by omega)
    have hsplit : (2 : ℚ) ^ (e + 52) = 2 ^ 52 * 2 ^ e := by
      rw [zpow_add₀ (by norm_num), mul_comm]
      norm_num
    obtain ⟨hlo, hhi⟩ := abs_le.mp hsmall
    rcases lt_or_gt_of_ne hq with hneg | hpos'
    · rw [abs_of_neg hneg] at hbelow
      have hpoint := hgrid (-2 ^ 52)
      have hcast : ((-2 ^ 52 : Int) : ℚ) * 2 ^ e = -2 ^ (e + 52) := by
        rw [hsplit]
        norm_num
      rw [hcast, abs_of_nonneg (by linarith : (0 : ℚ) ≤ -2 ^ (e + 52) - q)] at hpoint
      have hfar : -2 ^ (e + 52) - q ≤ |(k : ℚ) * 2 ^ e' - q| :=
        (by linarith : -2 ^ (e + 52) - q ≤ (k : ℚ) * 2 ^ e' - q).trans (le_abs_self _)
      exact hpoint.trans hfar
    · rw [abs_of_pos hpos'] at hbelow
      have hpoint := hgrid (2 ^ 52)
      have hcast : ((2 ^ 52 : Int) : ℚ) * 2 ^ e = 2 ^ (e + 52) := by
        rw [hsplit]
        norm_num
      rw [hcast, abs_sub_comm ((2 : ℚ) ^ (e + 52)),
        abs_of_nonneg (by linarith : (0 : ℚ) ≤ q - 2 ^ (e + 52))] at hpoint
      have hfar : q - 2 ^ (e + 52) ≤ |(k : ℚ) * 2 ^ e' - q| := by
        rw [abs_sub_comm]
        exact (by linarith : q - 2 ^ (e + 52) ≤ q - (k : ℚ) * 2 ^ e').trans (le_abs_self _)
      exact hpoint.trans hfar

/-- A float is rounded to itself. -/
theorem roundBinary64_self {q : ℚ} (h : IsBinary64 q) : roundBinary64 q = q := by
  have hnearest := roundBinary64_nearest q h
  rw [sub_self, abs_zero] at hnearest
  exact sub_eq_zero.mp (abs_nonpos_iff.mp hnearest)

theorem isBinary64_int {n : Int} (h : |n| < 2 ^ 53) : IsBinary64 n :=
  ⟨n, 0, h, by omega, by omega, by simp⟩

theorem roundBinary64_isBinary64 {q : ℚ} (hq : |q| < 2 ^ 1000) :
    IsBinary64 (roundBinary64 q) := by
  set e := lastPlace q with he
  have hpos : (0 : ℚ) < 2 ^ e := by positivity
  have hmin : -1074 ≤ e := lastPlace_ge q
  have hlog : Int.log 2 |q| < 1000 := by
    rcases eq_or_ne q 0 with rfl | hne
    · simp
    · have hself := Int.zpow_log_le_self (b := 2) (by omega) (abs_pos.mpr hne)
      have hlt : (2 : ℚ) ^ Int.log 2 |q| < 2 ^ (1000 : Int) := hself.trans_lt (by exact_mod_cast hq)
      exact (zpow_lt_zpow_iff_right₀ (by norm_num)).mp hlt
  have hmax : e ≤ 947 := by
    rw [he, lastPlace]
    omega
  have hwide : |q / 2 ^ e| ≤ 2 ^ 53 := by
    have hplace : Int.log 2 |q| + 1 ≤ 53 + e := by
      rw [he, lastPlace]
      omega
    have hlt : |q| < (2 : ℚ) ^ (Int.log 2 |q| + 1) := by
      exact_mod_cast Int.lt_zpow_succ_log_self (b := 2) (by omega) |q|
    have hle : (2 : ℚ) ^ (Int.log 2 |q| + 1) ≤ 2 ^ (53 + e) :=
      zpow_le_zpow_right₀ (by norm_num) hplace
    rw [abs_div, abs_of_pos hpos, div_le_iff₀ hpos]
    calc |q| ≤ 2 ^ (53 + e) := hlt.le.trans hle
      _ = 2 ^ 53 * 2 ^ e := by
        rw [zpow_add₀ (by norm_num)]
        norm_num
  have hround : |roundEven (q / 2 ^ e)| ≤ 2 ^ 53 := by
    -- the bound is an integer itself, and rounding does not go past it
    obtain ⟨hlo, hhi⟩ := abs_le.mp hwide
    have hup := roundEven_nearest (q / 2 ^ e) (2 ^ 53)
    have hdown := roundEven_nearest (q / 2 ^ e) (-2 ^ 53)
    have hcast : ((2 ^ 53 : Int) : ℚ) = 2 ^ 53 := by norm_num
    have hcast' : ((-2 ^ 53 : Int) : ℚ) = -2 ^ 53 := by norm_num
    rw [hcast, abs_of_nonneg (by linarith : (0 : ℚ) ≤ 2 ^ 53 - q / 2 ^ e)] at hup
    rw [hcast', abs_of_nonpos (by linarith : -2 ^ 53 - q / 2 ^ e ≤ (0 : ℚ))] at hdown
    have hle := (abs_le.mp hup).2
    have hge := (abs_le.mp hdown).1
    rw [abs_le]
    constructor
    · have : (-2 ^ 53 : ℚ) ≤ roundEven (q / 2 ^ e) := by linarith
      exact_mod_cast this
    · have : (roundEven (q / 2 ^ e) : ℚ) ≤ 2 ^ 53 := by linarith
      exact_mod_cast this
  rcases lt_or_eq_of_le hround with hlt | heq
  · exact ⟨_, e, hlt, hmin, by omega, rfl⟩
  · -- a significand of 54 bits is a power of two
    rcases (abs_eq (by norm_num)).mp heq with h | h
    · refine ⟨2 ^ 52, e + 1, by norm_num, by omega, by omega, ?_⟩
      rw [roundBinary64, ← he, h, zpow_add₀ (by norm_num)]
      push_cast
      ring
    · refine ⟨-2 ^ 52, e + 1, by norm_num, by omega, by omega, ?_⟩
      rw [roundBinary64, ← he, h, zpow_add₀ (by norm_num)]
      push_cast
      ring

/-- The float next to a number; of two, any one. -/
def IsNearest (q : ℚ) (x : F64) : Prop :=
  ∃ y, x.toRat? = some y ∧ IsBinary64 y ∧ ∀ z, IsBinary64 z → |y - q| ≤ |z - q|

theorem F64.ofRat_nearest {q : ℚ} (hq : |q| < 2 ^ 1000) : IsNearest q (.ofRat q) := by
  have hbin := roundBinary64_isBinary64 hq
  have hle : |roundBinary64 q - q| ≤ |q| := by
    have hzero := roundBinary64_nearest q (isBinary64_int (n := 0) (by norm_num))
    simpa using hzero
  have hbig : ¬ 2 ^ 1024 ≤ |roundBinary64 q| := by
    have habs := abs_sub_abs_le_abs_sub (roundBinary64 q) q
    refine not_le.mpr ?_
    calc |roundBinary64 q| ≤ |q| + |q| := by linarith
      _ < 2 ^ 1000 + 2 ^ 1000 := add_lt_add hq hq
      _ = 2 ^ 1001 := by rw [← mul_two, ← pow_succ]
      _ ≤ 2 ^ 1024 := pow_le_pow_right₀ (by norm_num) (by omega)
  refine ⟨roundBinary64 q, ?_, hbin, fun z hz => roundBinary64_nearest q hz⟩
  unfold F64.ofRat
  rw [if_neg hbig]
  split_ifs with hzero
  · rw [hzero.1]
    rfl
  · rfl

theorem IsNearest.isFinite {q : ℚ} {x : F64} (h : IsNearest q x) : x.isFinite = true := by
  obtain ⟨y, hy, -⟩ := h
  rw [F64.isFinite, hy]
  rfl

/-- The nearest float is at most twice as large, as zero is a float. -/
theorem IsNearest.abs_le {q : ℚ} {x : F64} (h : IsNearest q x) :
    ∃ y, x.toRat? = some y ∧ |y| ≤ 2 * |q| := by
  obtain ⟨y, hy, -, hnearest⟩ := h
  have hzero := hnearest 0 (by exact_mod_cast isBinary64_int (n := 0) (by norm_num))
  rw [zero_sub, abs_neg] at hzero
  have htriangle := abs_sub_abs_le_abs_sub y q
  exact ⟨y, hy, by linarith⟩

theorem F64.round_isFinite {x : F64} {q : ℚ} (hx : x.toRat? = some q) (hq : |q| < 2 ^ 1000) :
    x.round.isFinite = true := by
  cases x with
  | nan => cases hx
  | infinite negative => cases hx
  | negZero => rfl
  | finite p =>
      cases hx
      exact (F64.ofRat_nearest hq).isFinite

/-- Small integers are floats. -/
theorem F64.ofInt_eq {n : Int} (h : |n| < 2 ^ 53) : F64.ofInt n = .finite n := by
  have hself := roundBinary64_self (isBinary64_int h)
  have habs : |(n : ℚ)| < 2 ^ 53 := by exact_mod_cast h
  have hbig : ¬ (2 : ℚ) ^ 1024 ≤ |(n : ℚ)| := by
    have hpow : (2 : ℚ) ^ 53 ≤ 2 ^ 1024 := pow_le_pow_right₀ (by norm_num) (by omega)
    exact not_le.mpr (habs.trans_le hpow)
  unfold F64.ofInt F64.ofRat
  rw [hself, if_neg hbig]
  split_ifs with hzero
  · exfalso
    rw [hzero.1] at hzero
    exact lt_irrefl _ hzero.2
  · rfl

theorem F64.ofRat_zero : F64.ofRat 0 = .finite 0 := by
  have hint := F64.ofInt_eq (n := 0) (by norm_num)
  simpa [F64.ofInt] using hint

/-- The quotient of two small integers. -/
theorem F64.div_ofInt {n d : Int} (hn : |n| < 2 ^ 53) (hd : |d| < 2 ^ 53) (hpos : 0 < d) :
    F64.div (.ofInt n) (.ofInt d) = .ofRat (n / d) := by
  have hne : (d : ℚ) ≠ 0 := by exact_mod_cast hpos.ne'
  have hnonneg : ¬ (d : ℚ) < 0 := by
    rw [not_lt]
    exact_mod_cast hpos.le
  rw [F64.ofInt_eq hn, F64.ofInt_eq hd]
  simp only [F64.div, if_neg hne, if_neg hnonneg]
  split_ifs with hzero
  · rw [hzero, zero_div, F64.ofRat_zero]
  · rfl

example : F64.div (.ofInt 2803) (.finite 100) = .finite (986217949649961 / 2 ^ 45) := by
  decide +kernel

end VeSmart.Lib
