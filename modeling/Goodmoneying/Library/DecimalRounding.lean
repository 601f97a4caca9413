import Mathlib.Algebra.Order.Field.Power
import Mathlib.Data.Int.Log
import Mathlib.Data.Rat.Floor
import Mathlib.Tactic.Linarith
import Mathlib.Tactic.Positivity
import Mathlib.Tactic.Ring
import Mathlib.Tactic.FieldSimp
import Mathlib.Tactic.NormNum

/-!
# Decimal rounding of rationals

`roundSignificant p` rounds to `p` significant digits, ties to even, as a decimal floating-point
context with an unbounded exponent range does. `roundPlaces s` rounds to `s` decimal places, ties
away from zero, as a fixed-scale column does; `numericColumn` adds the bound on the integer part.
The fixed points are the numbers with at most `p` significant digits (`Fits`,
`roundSignificant_eq_self`, `fits_roundSignificant`) and the multiples of `10 ^ (-s)`
(`roundPlaces_eq_self_iff`).
-/

namespace Goodmoneying.Library

variable {x y : ℚ} {n : ℤ} {p s : ℕ}

/-! ## Nearest integers -/

/-- The integer nearest to `x`, a tie going to the even one. -/
def nearestEven (x : ℚ) : ℤ :=
  if x - ⌊x⌋ < 1 / 2 then ⌊x⌋
  else if 1 / 2 < x - ⌊x⌋ then ⌊x⌋ + 1
  else if ⌊x⌋ % 2 = 0 then ⌊x⌋
  else ⌊x⌋ + 1

/-- The integer nearest to `x`, a tie going away from zero. -/
def nearestAway (x : ℚ) : ℤ :=
  if 0 ≤ x then ⌊x + 1 / 2⌋ else -⌊-x + 1 / 2⌋

@[simp] theorem nearestEven_intCast (n : ℤ) : nearestEven (n : ℚ) = n := by
  simp [nearestEven]

/-- Rounding to the nearest integer does not pass an integer upper bound. -/
theorem nearestEven_le (h : x ≤ n) : nearestEven x ≤ n := by
  have hfloor : ⌊x⌋ ≤ n := Int.floor_le_iff.mpr (by linarith)
  by_cases heq : ⌊x⌋ = n
  · have hx : x = n := le_antisymm h (by rw [← heq]; exact Int.floor_le x)
    rw [hx, nearestEven_intCast]
  · have hlt : ⌊x⌋ + 1 ≤ n := by omega
    unfold nearestEven
    split_ifs <;> omega

theorem le_nearestEven (h : (n : ℚ) ≤ x) : n ≤ nearestEven x := by
  have hfloor : n ≤ ⌊x⌋ := Int.le_floor.mpr h
  unfold nearestEven
  split_ifs <;> omega

theorem nearestEven_mono (h : x ≤ y) : nearestEven x ≤ nearestEven y := by
  rcases (Int.floor_mono h).eq_or_lt with heq | hlt
  · unfold nearestEven
    rw [heq]
    split_ifs <;> first | omega | linarith
  · refine (nearestEven_le ?_).trans ((Int.add_one_le_of_lt hlt).trans (le_nearestEven ?_))
    · exact_mod_cast (Int.lt_floor_add_one x).le
    · exact Int.floor_le y

/-- Ties to even are the same on both sides of zero. -/
theorem nearestEven_neg (x : ℚ) : nearestEven (-x) = -nearestEven x := by
  by_cases hint : (⌊x⌋ : ℚ) = x
  · rw [← hint, ← Int.cast_neg, nearestEven_intCast, nearestEven_intCast]
  · have hlow := lt_of_le_of_ne (Int.floor_le x) hint
    have hhigh := Int.lt_floor_add_one x
    have hfloor : ⌊-x⌋ = -⌊x⌋ - 1 := by
      rw [Int.floor_eq_iff]
      push_cast
      constructor <;> linarith
    unfold nearestEven
    rw [hfloor]
    push_cast
    split_ifs <;> first | omega | (exfalso; linarith)

/-- Rounding to the nearest integer moves a number by half a unit at most. -/
theorem abs_nearestEven_sub_le (x : ℚ) : |nearestEven x - x| ≤ 1 / 2 := by
  have hlow := Int.floor_le x
  have hhigh := Int.lt_floor_add_one x
  rw [abs_le]
  unfold nearestEven
  split_ifs <;> push_cast <;> constructor <;> linarith

/-- The nearest integer of a quotient, by the quotient and the rest of the division. -/
theorem nearestEven_div (n d : ℕ) (hd : 0 < d) : nearestEven ((n : ℚ) / d) =
    ((if 2 * (n % d) < d then n / d else if d < 2 * (n % d) then n / d + 1
      else if n / d % 2 = 0 then n / d else n / d + 1 : ℕ) : ℤ) := by
  have hd' : (0 : ℚ) < d := by exact_mod_cast hd
  have hfloor : ⌊(n : ℚ) / d⌋ = ((n / d : ℕ) : ℤ) := Rat.floor_natCast_div_natCast n d
  have hrest : (n : ℚ) / d - ((n / d : ℕ) : ℤ) = ((n % d : ℕ) : ℚ) / d := by
    have hsplit : (n : ℚ) = d * (n / d : ℕ) + (n % d : ℕ) := by
      exact_mod_cast (Nat.div_add_mod n d).symm
    rw [Int.cast_natCast, sub_eq_iff_eq_add, div_eq_iff hd'.ne', add_mul, div_mul_cancel₀ _ hd'.ne']
    linarith
  have hlow : ((n % d : ℕ) : ℚ) / d < 1 / 2 ↔ 2 * (n % d) < d := by
    rw [div_lt_div_iff₀ hd' (by norm_num), one_mul, mul_comm]
    exact_mod_cast Iff.rfl
  have hhigh : 1 / 2 < ((n % d : ℕ) : ℚ) / d ↔ d < 2 * (n % d) := by
    rw [div_lt_div_iff₀ (by norm_num) hd', one_mul, mul_comm]
    exact_mod_cast Iff.rfl
  have heven : ((n / d : ℕ) : ℤ) % 2 = 0 ↔ n / d % 2 = 0 := by omega
  simp only [nearestEven, hfloor, hrest, hlow, hhigh, heven]
  split_ifs <;> push_cast <;> rfl

theorem nearestAway_of_nonneg (h : 0 ≤ x) : nearestAway x = ⌊x + 1 / 2⌋ :=
  if_pos h

/-- An integer is its own nearest integer, ties away from zero. -/
@[simp] theorem nearestAway_intCast (n : ℤ) : nearestAway (n : ℚ) = n := by
  have hfloor : ∀ m : ℤ, ⌊(m : ℚ) + 1 / 2⌋ = m := by
    intro m
    rw [Int.floor_intCast_add]
    norm_num
  unfold nearestAway
  split_ifs
  · exact hfloor n
  · rw [show (-(n : ℚ)) = ((-n : ℤ) : ℚ) by push_cast; ring, hfloor, neg_neg]

theorem nearestAway_nonneg (h : 0 ≤ x) : 0 ≤ nearestAway x := by
  rw [nearestAway_of_nonneg h, Int.floor_nonneg]
  linarith

/-- An integer is the nearest one of a nonnegative number exactly when it is within half a
unit, the upper half excluded. -/
theorem nearestAway_eq_iff (h : 0 ≤ x) : nearestAway x = n ↔ -(1 / 2) ≤ x - n ∧ x - n < 1 / 2 := by
  rw [nearestAway_of_nonneg h, Int.floor_eq_iff]
  constructor <;> rintro ⟨h₁, h₂⟩ <;> constructor <;> linarith

/-! ## Significant digits -/

/-- `x` is an integer of at most `p` digits, scaled by a power of ten. -/
def Fits (p : ℕ) (x : ℚ) : Prop :=
  ∃ m k : ℤ, |m| < 10 ^ p ∧ x = m * 10 ^ k

/-- The exponent of the last of the `p` significant digits of `x`. -/
def unitExponent (p : ℕ) (x : ℚ) : ℤ := Int.log 10 |x| + 1 - p

/-- The `p`-digit coefficient of `x`, counted in units of `10 ^ unitExponent p x`. -/
def coefficient (p : ℕ) (x : ℚ) : ℤ := nearestEven (x / 10 ^ unitExponent p x)

/-- `x` rounded to `p` significant digits, ties to even. -/
def roundSignificant (p : ℕ) (x : ℚ) : ℚ :=
  if x = 0 then 0 else coefficient p x * 10 ^ unitExponent p x

@[simp] theorem roundSignificant_zero (p : ℕ) : roundSignificant p 0 = 0 := if_pos rfl

theorem decade_bounds (hx : x ≠ 0) :
    (10 : ℚ) ^ Int.log 10 |x| ≤ |x| ∧ |x| < (10 : ℚ) ^ (Int.log 10 |x| + 1) := by
  refine ⟨?_, ?_⟩
  · simpa using Int.zpow_log_le_self (b := 10) (by norm_num) (abs_pos.mpr hx)
  · simpa using Int.lt_zpow_succ_log_self (b := 10) (by norm_num) |x|

/-- Counted in units of its last digit, a number stays below `10 ^ p`. -/
theorem scaled_lt (hx : x ≠ 0) (p : ℕ) :
    |x / 10 ^ unitExponent p x| < ((10 ^ p : ℤ) : ℚ) := by
  have hpos : (0 : ℚ) < 10 ^ unitExponent p x := by positivity
  rw [abs_div, abs_of_pos hpos, div_lt_iff₀ hpos]
  calc |x| < (10 : ℚ) ^ (Int.log 10 |x| + 1) := (decade_bounds hx).2
    _ = ((10 ^ p : ℤ) : ℚ) * 10 ^ unitExponent p x := by
      unfold unitExponent
      push_cast
      rw [← zpow_natCast, ← zpow_add₀ (by norm_num)]
      congr 1
      ring

theorem abs_coefficient_le (hx : x ≠ 0) (p : ℕ) : |coefficient p x| ≤ 10 ^ p := by
  have hlt := scaled_lt hx p
  rw [abs_lt] at hlt
  rw [abs_le]
  exact ⟨le_nearestEven (by push_cast at hlt ⊢; linarith), nearestEven_le hlt.2.le⟩

/-- A number written with at most `p` significant digits is not rounded. -/
theorem roundSignificant_eq_self (h : Fits p x) : roundSignificant p x = x := by
  by_cases hx : x = 0
  · simp [hx]
  obtain ⟨m, k, hm, hxk⟩ := h
  have hle : unitExponent p x ≤ k := by
    by_contra hlt
    push Not at hlt
    -- the coefficient would be too short to reach the decade of `x`
    have hk : k + p ≤ Int.log 10 |x| := by unfold unitExponent at hlt; omega
    have hsmall : |x| < (10 : ℚ) ^ (k + p) := by
      rw [hxk, abs_mul, abs_of_pos (by positivity : (0 : ℚ) < 10 ^ k), zpow_add₀ (by norm_num),
        mul_comm]
      have : ((|m| : ℤ) : ℚ) < ((10 ^ p : ℤ) : ℚ) := by exact_mod_cast hm
      push_cast at this
      rw [zpow_natCast]
      exact mul_lt_mul_of_pos_left this (by positivity)
    have hmono : (10 : ℚ) ^ (k + p) ≤ 10 ^ Int.log 10 |x| := zpow_le_zpow_right₀ (by norm_num) hk
    linarith [(decade_bounds hx).1]
  have hscaled : x / 10 ^ unitExponent p x = ((m * 10 ^ (k - unitExponent p x).toNat : ℤ) : ℚ) := by
    have hsplit : (10 : ℚ) ^ k = 10 ^ (k - unitExponent p x).toNat * 10 ^ unitExponent p x := by
      rw [← zpow_natCast, ← zpow_add₀ (by norm_num)]
      congr 1
      omega
    rw [div_eq_iff (by positivity)]
    push_cast
    rw [mul_assoc, ← hsplit]
    exact hxk
  rw [roundSignificant, if_neg hx, coefficient, hscaled, nearestEven_intCast, ← hscaled,
    div_mul_cancel₀ _ (by positivity)]

/-- Rounding to `p` digits gives a number of at most `p` significant digits. -/
theorem fits_roundSignificant (hp : 0 < p) (x : ℚ) : Fits p (roundSignificant p x) := by
  by_cases hx : x = 0
  · exact ⟨0, 0, by positivity, by simp [hx]⟩
  have hle := abs_coefficient_le hx p
  rw [roundSignificant, if_neg hx]
  by_cases hcarry : |coefficient p x| = 10 ^ p
  · have hone : (1 : ℤ) < 10 ^ p := one_lt_pow₀ (by norm_num) hp.ne'
    rcases abs_eq (by positivity) |>.mp hcarry with h | h
    · refine ⟨1, p + unitExponent p x, by simpa using hone, ?_⟩
      rw [h, zpow_add₀ (by norm_num)]
      push_cast
      simp
    · refine ⟨-1, p + unitExponent p x, by simpa using hone, ?_⟩
      rw [h, zpow_add₀ (by norm_num)]
      push_cast
      simp
  · exact ⟨_, _, lt_of_le_of_ne hle hcarry, rfl⟩

/-- Rounding keeps the sign of a nonnegative number. -/
theorem roundSignificant_nonneg (h : 0 ≤ x) : 0 ≤ roundSignificant p x := by
  by_cases hx : x = 0
  · simp [hx]
  rw [roundSignificant, if_neg hx]
  have hcoeff : 0 ≤ coefficient p x := le_nearestEven (by push_cast; positivity)
  have : (0 : ℚ) ≤ coefficient p x := by exact_mod_cast hcoeff
  positivity

/-- A number other than zero is at least one unit of its last digit. -/
theorem zpow_unitExponent_le (hp : 0 < p) (hx : x ≠ 0) : (10 : ℚ) ^ unitExponent p x ≤ |x| := by
  apply le_trans _ (decade_bounds hx).1
  apply zpow_le_zpow_right₀ (by norm_num)
  unfold unitExponent
  omega

/-- Rounding keeps the sign. -/
theorem roundSignificant_nonneg_iff (hp : 0 < p) : 0 ≤ roundSignificant p x ↔ 0 ≤ x := by
  constructor
  · intro h
    by_contra hneg
    push Not at hneg
    have hpos : (0 : ℚ) < 10 ^ unitExponent p x := by positivity
    have hunit := zpow_unitExponent_le hp hneg.ne
    rw [abs_of_neg hneg] at hunit
    have hcoeff : coefficient p x ≤ -1 := by
      apply nearestEven_le
      rw [div_le_iff₀ hpos]
      push_cast
      linarith
    have hcast : (coefficient p x : ℚ) ≤ -1 := by exact_mod_cast hcoeff
    rw [roundSignificant, if_neg hneg.ne] at h
    nlinarith
  · exact roundSignificant_nonneg

/-- Rounding does not pass a power of ten. -/
theorem roundSignificant_le_zpow (hx0 : 0 ≤ x) {k : ℤ} (h : x ≤ (10 : ℚ) ^ k) (hp : 0 < p) :
    roundSignificant p x ≤ (10 : ℚ) ^ k := by
  rcases h.eq_or_lt with heq | hlt
  · rw [heq]
    refine (roundSignificant_eq_self ⟨1, k, ?_, by simp⟩).le
    simpa using one_lt_pow₀ (by norm_num : (1 : ℤ) < 10) hp.ne'
  by_cases hx : x = 0
  · rw [hx, roundSignificant_zero]; positivity
  have hpos : 0 < x := lt_of_le_of_ne hx0 (Ne.symm hx)
  have hlog : Int.log 10 |x| + 1 ≤ k := by
    have := (Int.lt_zpow_iff_log_lt (b := 10) (by norm_num) (abs_pos.mpr hx)).mp
      (by rw [abs_of_pos hpos]; exact_mod_cast hlt)
    omega
  rw [roundSignificant, if_neg hx]
  have hcoeff : (coefficient p x : ℚ) ≤ 10 ^ p := by
    exact_mod_cast (abs_le.mp (abs_coefficient_le hx p)).2
  calc (coefficient p x : ℚ) * 10 ^ unitExponent p x
      ≤ 10 ^ p * 10 ^ unitExponent p x := mul_le_mul_of_nonneg_right hcoeff (by positivity)
    _ = 10 ^ (Int.log 10 |x| + 1) := by
      rw [← zpow_natCast, ← zpow_add₀ (by norm_num)]
      unfold unitExponent
      congr 1
      ring
    _ ≤ 10 ^ k := zpow_le_zpow_right₀ (by norm_num) hlog

/-- The square root of `x` to `p` significant digits, ties to even; zero for `x ≤ 0`.
The integer root is taken at a scale where it has exactly `p` digits. -/
def sqrtSignificant (p : ℕ) (x : ℚ) : ℚ :=
  if x ≤ 0 then 0
  else
    let k : ℤ := p - 1 - Int.log 10 x / 2
    let y := x * 10 ^ (2 * k)
    let s := Nat.sqrt ⌊y⌋₊
    let half : ℚ := s + 1 / 2
    let root := if y < half ^ 2 then s else if half ^ 2 < y then s + 1
      else if s % 2 = 0 then s else s + 1
    root / 10 ^ k

/-! ## Decimal places -/

/-- `x` rounded to `s` decimal places, ties away from zero. -/
def roundPlaces (s : ℕ) (x : ℚ) : ℚ := nearestAway (x * 10 ^ s) / 10 ^ s

theorem roundPlaces_nonneg (h : 0 ≤ x) : 0 ≤ roundPlaces s x := by
  have : (0 : ℚ) ≤ nearestAway (x * 10 ^ s) := by
    exact_mod_cast nearestAway_nonneg (by positivity)
  unfold roundPlaces
  positivity

/-- The numbers that `s` decimal places hold exactly are the multiples of `10 ^ (-s)`. -/
theorem roundPlaces_eq_self_iff : roundPlaces s x = x ↔ ∃ n : ℤ, x * 10 ^ s = n := by
  unfold roundPlaces
  constructor
  · intro h
    exact ⟨nearestAway (x * 10 ^ s), by rw [div_eq_iff (by positivity)] at h; exact h.symm⟩
  · rintro ⟨n, hn⟩
    rw [hn, nearestAway_intCast, div_eq_iff (by positivity), hn]

/-- A multiple of `10 ^ (-s)` is what a nonnegative number is rounded to exactly when it is
within half a unit, the upper half excluded. -/
theorem roundPlaces_eq_iff {v : ℚ} (hx : 0 ≤ x) (hv : roundPlaces s v = v) :
    roundPlaces s x = v ↔ -(1 / 2) ≤ (x - v) * 10 ^ s ∧ (x - v) * 10 ^ s < 1 / 2 := by
  obtain ⟨n, hn⟩ := roundPlaces_eq_self_iff.mp hv
  have hscaled : (0 : ℚ) ≤ x * 10 ^ s := by positivity
  rw [sub_mul, hn, ← nearestAway_eq_iff hscaled, roundPlaces, div_eq_iff (by positivity), hn]
  exact Int.cast_inj

theorem roundPlaces_add_eq_self (hx : roundPlaces s x = x) (hy : roundPlaces s y = y) :
    roundPlaces s (x + y) = x + y := by
  obtain ⟨m, hm⟩ := roundPlaces_eq_self_iff.mp hx
  obtain ⟨n, hn⟩ := roundPlaces_eq_self_iff.mp hy
  exact roundPlaces_eq_self_iff.mpr ⟨m + n, by rw [add_mul, hm, hn]; push_cast; ring⟩

theorem roundPlaces_idem (s : ℕ) (x : ℚ) : roundPlaces s (roundPlaces s x) = roundPlaces s x := by
  rw [roundPlaces_eq_self_iff]
  exact ⟨nearestAway (x * 10 ^ s), div_mul_cancel₀ _ (by positivity)⟩

/-- A column of `precision` digits, `scale` of them after the point: it keeps the value
rounded to `scale` places, and refuses one whose integer part is too long. -/
def numericColumn (precision scale : ℕ) (x : ℚ) : Option ℚ :=
  if |roundPlaces scale x| < 10 ^ (precision - scale) then some (roundPlaces scale x) else none

theorem numericColumn_eq_some {precision scale : ℕ} (h : numericColumn precision scale x = some y) :
    y = roundPlaces scale x := by
  unfold numericColumn at h
  split_ifs at h
  exact (Option.some.inj h).symm

end Goodmoneying.Library
