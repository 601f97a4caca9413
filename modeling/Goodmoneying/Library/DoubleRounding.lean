import Goodmoneying.Library.DecimalRounding

/-!
# Rounding to a double

What a float operation makes of its exact result: the nearest number with 53 significant binary
digits, a tie going to the even one. A rounding does not pass an integer that is itself a double
(`roundDouble_le`), keeps the order and the sign (`roundDouble_mono`, `roundDouble_pos`), and adds
at most `2 ^ (-53)` of a number to it (`roundDouble_le_mul`). The exponents of the numbers met here
are far inside of the range of a double, which is not part of the definition.
-/

namespace Goodmoneying.Library

variable {x : ℚ}

/-- The exponent of the last of the 53 significant bits of `x`. -/
def doubleUnit (x : ℚ) : ℤ := Int.log 2 |x| - 52

/-- `x` rounded to 53 significant bits, ties to even. -/
def roundDouble (x : ℚ) : ℚ :=
  if x = 0 then 0 else nearestEven (x / 2 ^ doubleUnit x) * 2 ^ doubleUnit x

@[simp] theorem roundDouble_zero : roundDouble 0 = 0 := if_pos rfl

/-- Below `2 ^ 53` the last bit of a double is worth at most one. -/
theorem doubleUnit_nonpos (hx : 0 < x) (h : x < 2 ^ 53) : doubleUnit x ≤ 0 := by
  have hlog : (2 : ℚ) ^ Int.log 2 x ≤ x := by
    simpa using Int.zpow_log_le_self (b := 2) (by norm_num) hx
  have hlt : (2 : ℚ) ^ Int.log 2 x < 2 ^ (53 : ℤ) := hlog.trans_lt (by exact_mod_cast h)
  have := (zpow_lt_zpow_iff_right₀ (by norm_num : (1 : ℚ) < 2)).mp hlt
  rw [doubleUnit, abs_of_pos hx]
  omega

theorem roundDouble_nonpos (hx : x ≤ 0) : roundDouble x ≤ 0 := by
  unfold roundDouble
  split_ifs
  · exact le_rfl
  · have hscaled : x / 2 ^ doubleUnit x ≤ ((0 : ℤ) : ℚ) := by
      push_cast
      exact div_nonpos_of_nonpos_of_nonneg hx (by positivity)
    have hnearest : (nearestEven (x / 2 ^ doubleUnit x) : ℚ) ≤ 0 := by
      exact_mod_cast nearestEven_le hscaled
    exact mul_nonpos_of_nonpos_of_nonneg hnearest (by positivity)

/-- Rounding does not pass an integer upper bound of at most 53 bits. -/
theorem roundDouble_le {n : ℕ} (hn : n < 2 ^ 53) (h : x ≤ n) : roundDouble x ≤ n := by
  obtain hx | hx := le_or_gt x 0
  · exact (roundDouble_nonpos hx).trans n.cast_nonneg
  have hlt : x < 2 ^ 53 := h.trans_lt (by exact_mod_cast hn)
  obtain ⟨k, hk⟩ := Int.eq_ofNat_of_zero_le (neg_nonneg.mpr (doubleUnit_nonpos hx hlt))
  have hunit : doubleUnit x = -(k : ℤ) := by omega
  have hpow : (0 : ℚ) < 2 ^ k := by positivity
  have hscaled : x / 2 ^ doubleUnit x ≤ ((n * 2 ^ k : ℤ) : ℚ) := by
    rw [hunit, zpow_neg, zpow_natCast, div_inv_eq_mul]
    push_cast
    exact mul_le_mul_of_nonneg_right h hpow.le
  have hnearest : (nearestEven (x / 2 ^ doubleUnit x) : ℚ) ≤ n * 2 ^ k := by
    exact_mod_cast nearestEven_le hscaled
  calc roundDouble x = nearestEven (x / 2 ^ doubleUnit x) * 2 ^ doubleUnit x := if_neg hx.ne'
    _ ≤ n * 2 ^ k * 2 ^ doubleUnit x := mul_le_mul_of_nonneg_right hnearest (by positivity)
    _ = n := by
        rw [hunit, zpow_neg, zpow_natCast, mul_assoc, mul_inv_cancel₀ hpow.ne', mul_one]

/-! ## Order and error -/

/-- The powers of two around a positive number, counted in units of its last bit. -/
theorem zpow_log_eq (hx : 0 < x) : (2 : ℚ) ^ Int.log 2 x = 2 ^ 52 * 2 ^ doubleUnit x ∧
      (2 : ℚ) ^ (Int.log 2 x + 1) = 2 ^ 53 * 2 ^ doubleUnit x := by
  rw [doubleUnit, abs_of_pos hx, ← zpow_natCast, ← zpow_natCast, ← zpow_add₀ (by norm_num),
    ← zpow_add₀ (by norm_num)]
  constructor <;> congr 1 <;> push_cast <;> ring

/-- A positive number counted in units of its last bit. -/
theorem doubleUnit_bounds (hx : 0 < x) :
    2 ^ 52 ≤ x / 2 ^ doubleUnit x ∧ x / 2 ^ doubleUnit x ≤ 2 ^ 53 := by
  obtain ⟨hlow, hhigh⟩ := zpow_log_eq hx
  rw [le_div_iff₀ (by positivity), div_le_iff₀ (by positivity), ← hlow, ← hhigh]
  constructor
  · simpa using Int.zpow_log_le_self (b := 2) (by norm_num) hx
  · simpa using (Int.lt_zpow_succ_log_self (b := 2) (by norm_num) x).le

/-- A positive number is rounded to one between the powers of two around it. -/
theorem roundDouble_bounds (hx : 0 < x) :
    (2 : ℚ) ^ Int.log 2 x ≤ roundDouble x ∧ roundDouble x ≤ (2 : ℚ) ^ (Int.log 2 x + 1) := by
  obtain ⟨hlow, hhigh⟩ := doubleUnit_bounds hx
  have hunit : (0 : ℚ) < 2 ^ doubleUnit x := by positivity
  have hlow' : 2 ^ 52 ≤ nearestEven (x / 2 ^ doubleUnit x) :=
    le_nearestEven (by push_cast; exact hlow)
  have hhigh' : nearestEven (x / 2 ^ doubleUnit x) ≤ 2 ^ 53 :=
    nearestEven_le (by push_cast; exact hhigh)
  rw [roundDouble, if_neg hx.ne', (zpow_log_eq hx).1, (zpow_log_eq hx).2]
  constructor
  · exact mul_le_mul_of_nonneg_right (by exact_mod_cast hlow') hunit.le
  · exact mul_le_mul_of_nonneg_right (by exact_mod_cast hhigh') hunit.le

theorem roundDouble_pos (hx : 0 < x) : 0 < roundDouble x :=
  lt_of_lt_of_le (by positivity) (roundDouble_bounds hx).1

theorem roundDouble_neg (x : ℚ) : roundDouble (-x) = -roundDouble x := by
  unfold roundDouble doubleUnit
  rw [abs_neg, neg_div, nearestEven_neg]
  split_ifs with hneg hx hx
  · rfl
  · exact absurd (neg_eq_zero.mp hneg) hx
  · exact absurd (neg_eq_zero.mpr hx) hneg
  · push_cast
    ring

theorem roundDouble_le_of_pos {y : ℚ} (hx : 0 < x) (h : x ≤ y) : roundDouble x ≤ roundDouble y := by
  have hy := hx.trans_le h
  rcases (Int.log_mono_right hx h : Int.log 2 x ≤ Int.log 2 y).eq_or_lt with heq | hlt
  · have hunit : doubleUnit x = doubleUnit y := by
      rw [doubleUnit, doubleUnit, abs_of_pos hx, abs_of_pos hy, heq]
    have hpos : (0 : ℚ) < 2 ^ doubleUnit y := by positivity
    rw [roundDouble, roundDouble, if_neg hx.ne', if_neg hy.ne', hunit]
    refine mul_le_mul_of_nonneg_right ?_ hpos.le
    exact_mod_cast nearestEven_mono (div_le_div_of_nonneg_right h hpos.le)
  · calc roundDouble x ≤ (2 : ℚ) ^ (Int.log 2 x + 1) := (roundDouble_bounds hx).2
      _ ≤ 2 ^ Int.log 2 y := zpow_le_zpow_right₀ (by norm_num) hlt
      _ ≤ roundDouble y := (roundDouble_bounds hy).1

/-- Rounding keeps the order. -/
theorem roundDouble_mono : Monotone roundDouble := by
  intro x y h
  rcases lt_or_ge 0 x with hx | hx
  · exact roundDouble_le_of_pos hx h
  rcases lt_or_ge y 0 with hy | hy
  · have hneg := roundDouble_le_of_pos (neg_pos.mpr hy) (neg_le_neg h)
    rw [roundDouble_neg, roundDouble_neg] at hneg
    exact neg_le_neg_iff.mp hneg
  · refine (roundDouble_nonpos hx).trans ?_
    rcases hy.eq_or_lt with rfl | hy
    · exact roundDouble_zero.ge
    · exact (roundDouble_pos hy).le

/-- Rounding adds at most `2 ^ (-53)` of a positive number to it. -/
theorem roundDouble_le_mul (hx : 0 < x) : roundDouble x ≤ x * (1 + 1 / 2 ^ 53) := by
  have hunit : (0 : ℚ) < 2 ^ doubleUnit x := by positivity
  have herror := (abs_le.mp (abs_nearestEven_sub_le (x / 2 ^ doubleUnit x))).2
  have hhalf : (1 : ℚ) / 2 ≤ x / 2 ^ doubleUnit x * (1 / 2 ^ 53) := by
    have hlow := (doubleUnit_bounds hx).1
    linarith
  calc roundDouble x = nearestEven (x / 2 ^ doubleUnit x) * 2 ^ doubleUnit x := if_neg hx.ne'
    _ ≤ (x / 2 ^ doubleUnit x * (1 + 1 / 2 ^ 53)) * 2 ^ doubleUnit x :=
      mul_le_mul_of_nonneg_right (by linarith) hunit.le
    _ = x * (1 + 1 / 2 ^ 53) := by
      rw [mul_right_comm, div_mul_cancel₀ _ hunit.ne']

end Goodmoneying.Library
