import Goodmoneying.Library.DecimalRounding

/-!
# Decimal rounding and the order

`roundSignificant` is odd (`roundSignificant_neg`) and monotone (`roundSignificant_mono`): within
a decade the unit of the last digit is the same for both numbers, and between two decades a power
of ten separates the results. A number that needs no rounding is therefore a bound of the rounded
results as soon as it is one of the exact ones (`roundSignificant_le`, `le_roundSignificant`).
-/

namespace Goodmoneying.Library

variable {p : ℕ} {x y : ℚ}

/-! ## Significant digits -/

@[simp] theorem unitExponent_neg (p : ℕ) (x : ℚ) : unitExponent p (-x) = unitExponent p x := by
  rw [unitExponent, unitExponent, abs_neg]

theorem roundSignificant_neg (p : ℕ) (x : ℚ) : roundSignificant p (-x) = -roundSignificant p x := by
  by_cases hx : x = 0
  · rw [hx, neg_zero, roundSignificant_zero, neg_zero]
  · rw [roundSignificant, roundSignificant, if_neg hx, if_neg (neg_ne_zero.mpr hx), coefficient,
      coefficient, unitExponent_neg, neg_div, nearestEven_neg, Int.cast_neg, neg_mul]

/-- Rounding does not pass the power of ten below a number. -/
theorem zpow_le_roundSignificant (hp : 0 < p) (hx : 0 < x) :
    (10 : ℚ) ^ Int.log 10 |x| ≤ roundSignificant p x := by
  have hunit : (0 : ℚ) < 10 ^ unitExponent p x := by positivity
  have hdecade : (10 : ℚ) ^ Int.log 10 |x| =
      ((10 ^ (p - 1) : ℤ) : ℚ) * 10 ^ unitExponent p x := by
    push_cast
    rw [← zpow_natCast, ← zpow_add₀ (by norm_num), unitExponent]
    congr 1
    omega
  have hcoeff : (10 ^ (p - 1) : ℤ) ≤ coefficient p x := by
    apply le_nearestEven
    rw [le_div_iff₀ hunit, ← hdecade, ← abs_of_pos hx, abs_abs]
    exact (decade_bounds hx.ne').1
  have hcast : ((10 ^ (p - 1) : ℤ) : ℚ) ≤ coefficient p x := Int.cast_le.mpr hcoeff
  rw [roundSignificant, if_neg hx.ne', hdecade]
  exact mul_le_mul_of_nonneg_right hcast hunit.le

/-- Between positive numbers: in one decade the coefficients decide, else a power of ten. -/
theorem roundSignificant_mono_of_pos (hp : 0 < p) (hx : 0 < x) (h : x ≤ y) :
    roundSignificant p x ≤ roundSignificant p y := by
  have hy : 0 < y := hx.trans_le h
  have hlog : Int.log 10 |x| ≤ Int.log 10 |y| := by
    rw [abs_of_pos hx, abs_of_pos hy]
    exact Int.log_mono_right hx h
  rcases hlog.eq_or_lt with heq | hlt
  · have hunit : unitExponent p x = unitExponent p y := by rw [unitExponent, heq, unitExponent]
    have hcoeff : coefficient p x ≤ coefficient p y := by
      rw [coefficient, coefficient, hunit]
      exact nearestEven_mono (div_le_div_of_nonneg_right h (by positivity))
    rw [roundSignificant, roundSignificant, if_neg hx.ne', if_neg hy.ne', hunit]
    exact mul_le_mul_of_nonneg_right (Int.cast_le.mpr hcoeff) (by positivity)
  · have hdecade : x ≤ (10 : ℚ) ^ (Int.log 10 |x| + 1) := by
      have := (decade_bounds hx.ne').2
      rw [abs_of_pos hx] at this ⊢
      exact this.le
    calc roundSignificant p x
        ≤ (10 : ℚ) ^ (Int.log 10 |x| + 1) := roundSignificant_le_zpow hx.le hdecade hp
      _ ≤ (10 : ℚ) ^ Int.log 10 |y| := zpow_le_zpow_right₀ (by norm_num) hlt
      _ ≤ roundSignificant p y := zpow_le_roundSignificant hp hy

theorem roundSignificant_nonpos (h : x ≤ 0) : roundSignificant p x ≤ 0 := by
  have := roundSignificant_nonneg (p := p) (neg_nonneg.mpr h)
  rw [roundSignificant_neg] at this
  linarith

/-- Rounding keeps the order. -/
theorem roundSignificant_mono (hp : 0 < p) (h : x ≤ y) :
    roundSignificant p x ≤ roundSignificant p y := by
  rcases lt_or_ge 0 x with hx | hx
  · exact roundSignificant_mono_of_pos hp hx h
  · rcases lt_or_ge y 0 with hy | hy
    · have := roundSignificant_mono_of_pos hp (neg_pos.mpr hy) (neg_le_neg h)
      rw [roundSignificant_neg, roundSignificant_neg] at this
      linarith
    · exact (roundSignificant_nonpos hx).trans (roundSignificant_nonneg hy)

/-- A number that needs no rounding bounds the rounded results from above … -/
theorem roundSignificant_le (hp : 0 < p) (hy : Fits p y) (h : x ≤ y) : roundSignificant p x ≤ y :=
  (roundSignificant_mono hp h).trans_eq (roundSignificant_eq_self hy)

/-- … and from below. -/
theorem le_roundSignificant (hp : 0 < p) (hx : Fits p x) (h : x ≤ y) : x ≤ roundSignificant p y :=
  (roundSignificant_eq_self hx).symm.trans_le (roundSignificant_mono hp h)

/-- An integer of at most `p` digits needs no rounding. -/
theorem fits_intCast {n : ℤ} (h : |n| < 10 ^ p) : Fits p n :=
  ⟨n, 0, h, by rw [zpow_zero, mul_one]⟩

theorem sqrtSignificant_nonneg (p : ℕ) (x : ℚ) : 0 ≤ sqrtSignificant p x := by
  unfold sqrtSignificant
  split_ifs
  · exact le_rfl
  all_goals
    dsimp only
    positivity

end Goodmoneying.Library
