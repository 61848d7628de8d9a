import VeSmart.Service.Config

set_option autoImplicit false

/-! # The law of the backoff

`delay` replaces each operation of `min(cap, base * factor^(n-1))` by one that saturates: the
exponent is capped, the power is one of 32-bit words, and the product is a duration.
`delay_law` says what is left of the formula. -/

namespace VeSmart.Service

open VeSmart.Lib

/-- Powers that saturate at `2 ^ e - 1` do not see exponents beyond `e`. -/
theorem min_pow_min {f : Nat} (hf : 1 ≤ f) (k e : Nat) :
    min (f ^ min k e) (2 ^ e - 1) = min (f ^ k) (2 ^ e - 1) := by
  by_cases hk : k ≤ e
  · rw [min_eq_left hk]
  · rw [min_eq_right (Nat.le_of_not_le hk)]
    by_cases hone : f = 1
    · simp [hone]
    · -- both powers have saturated
      have hlow : 2 ^ e ≤ f ^ e := Nat.pow_le_pow_left (by omega) e
      have hhigh : f ^ e ≤ f ^ k := Nat.pow_le_pow_right hf (by omega)
      omega

namespace ExponentialBackoff

/-- A backoff whose fields are in order; `cap` is a duration of the source. -/
structure Ordered (b : ExponentialBackoff) : Prop where
  factor_pos : 1 ≤ b.factor.toNat
  base_le_cap : b.base ≤ b.cap
  cap_le_maximum : b.cap ≤ Duration.maximum

/-- The saturated power of the factor. -/
def multiplier (b : ExponentialBackoff) (failures : UInt32) : Nat :=
  min (b.factor.toNat ^ min (failures.toNat - 1) 32) (2 ^ 32 - 1)

/-- What is left of the formula. -/
structure Law (b : ExponentialBackoff) : Prop where
  zero : b.delay 0 = 0
  base_le : ∀ n, n ≠ 0 → b.base ≤ b.delay n
  le_cap : ∀ n, b.delay n ≤ b.cap
  monotone : ∀ m n, m ≤ n → b.delay m ≤ b.delay n
  /-- The power is a 32-bit word, and the product a duration. -/
  fits : ∀ n, b.multiplier n < 2 ^ 32 ∧ b.delay n ≤ Duration.maximum
  exact : b.cap ≤ b.base * (2 ^ 32 - 1) → ∀ n, n ≠ 0 →
    b.delay n = min b.cap (b.base * b.factor.toNat ^ (n.toNat - 1))

variable {b : ExponentialBackoff} {m n : UInt32}

theorem delay_zero (b : ExponentialBackoff) : b.delay 0 = 0 := by
  rw [delay, if_pos rfl]

theorem delay_eq (b : ExponentialBackoff) (hn : n ≠ 0) :
    b.delay n = min (min Duration.maximum (b.base * b.multiplier n)) b.cap := by
  rw [delay, if_neg hn]
  rfl

theorem multiplier_pos (h : b.Ordered) (n : UInt32) : 1 ≤ b.multiplier n := by
  have hpow : 1 ≤ b.factor.toNat ^ min (n.toNat - 1) 32 := Nat.one_le_pow _ _ h.factor_pos
  rw [multiplier]
  omega

theorem multiplier_mono (h : b.Ordered) (hmn : m ≤ n) : b.multiplier m ≤ b.multiplier n := by
  have hle : m.toNat ≤ n.toNat := UInt32.le_iff_toNat_le.mp hmn
  have hpow : b.factor.toNat ^ min (m.toNat - 1) 32 ≤ b.factor.toNat ^ min (n.toNat - 1) 32 :=
    Nat.pow_le_pow_right h.factor_pos (by omega)
  rw [multiplier, multiplier]
  omega

/-- The cap of the exponent decides nothing. -/
theorem multiplier_eq (h : b.Ordered) (n : UInt32) :
    b.multiplier n = min (b.factor.toNat ^ (n.toNat - 1)) (2 ^ 32 - 1) :=
  min_pow_min h.factor_pos _ 32

theorem base_le_delay (h : b.Ordered) (hn : n ≠ 0) : b.base ≤ b.delay n := by
  have hmaximum : b.base ≤ Duration.maximum := h.base_le_cap.trans h.cap_le_maximum
  have hproduct : b.base ≤ b.base * b.multiplier n :=
    Nat.le_mul_of_pos_right _ (multiplier_pos h n)
  rw [delay_eq b hn]
  exact le_min (le_min hmaximum hproduct) h.base_le_cap

theorem delay_mono (h : b.Ordered) (hmn : m ≤ n) : b.delay m ≤ b.delay n := by
  by_cases hm : m = 0
  · rw [hm, delay_zero]
    exact Nat.zero_le _
  · have hn : n ≠ 0 := by
      rintro rfl
      exact hm (UInt32.le_zero_iff.mp hmn)
    have hproduct : b.base * b.multiplier m ≤ b.base * b.multiplier n :=
      Nat.mul_le_mul_left _ (multiplier_mono h hmn)
    rw [delay_eq b hm, delay_eq b hn]
    exact min_le_min (min_le_min le_rfl hproduct) le_rfl

/-- A cap that the saturated power can reach hides the saturation. -/
theorem delay_exact (h : b.Ordered) (hreach : b.cap ≤ b.base * (2 ^ 32 - 1)) (hn : n ≠ 0) :
    b.delay n = min b.cap (b.base * b.factor.toNat ^ (n.toNat - 1)) := by
  have hproduct : b.base * b.multiplier n =
      min (b.base * b.factor.toNat ^ (n.toNat - 1)) (b.base * (2 ^ 32 - 1)) := by
    rw [multiplier_eq h, Nat.mul_min_mul_left]
  have hreached : ∀ maximum product power cap : Nat, cap ≤ power → cap ≤ maximum →
      min (min maximum (min product power)) cap = min cap product := by
    omega
  rw [delay_eq b hn, hproduct]
  exact hreached _ _ _ _ hreach h.cap_le_maximum

/-- **The backoff law**, for every count of failures. -/
theorem delay_law (b : ExponentialBackoff) (h : b.Ordered) : b.Law where
  zero := delay_zero b
  base_le _ hn := base_le_delay h hn
  le_cap n := delay_le_cap b n
  monotone _ _ hmn := delay_mono h hmn
  fits n := ⟨by rw [multiplier]; omega, (delay_le_cap b n).trans h.cap_le_maximum⟩
  exact hreach _ hn := delay_exact h hreach hn

end ExponentialBackoff

/-- The policy of a validated configuration is in order. -/
theorem ServiceConfig.backoff_ordered {config : ServiceConfig} (h : config.validate = .ok ())
    (hcap : config.backoffCap ≤ Duration.maximum) : config.backoff.Ordered where
  factor_pos := by
    unfold ServiceConfig.validate at h
    simp only [except_check_ok] at h
    obtain ⟨-, -, -, -, -, -, -, -, -, -, -, -, -, hfactor, -⟩ := h
    have hne : config.backoffFactor.toNat ≠ 0 := fun hzero =>
      hfactor (UInt32.toNat_inj.mp hzero)
    exact Nat.one_le_iff_ne_zero.mpr hne
  base_le_cap := (ServiceConfig.bounds_of_validate h).base_le_cap
  cap_le_maximum := hcap

/-- The policy of the defaults obeys the law. -/
theorem default_backoff_law : ServiceConfig.default.backoff.Law :=
  ExponentialBackoff.delay_law _
    (ServiceConfig.backoff_ordered ServiceConfig.default_valid (by decide))

end VeSmart.Service
