import Goodmoneying.Library.DecimalOrder
import Goodmoneying.Program.Values

/-!
# Arithmetic of a decimal context

Signs and bounds that survive the rounding of every single operation, and sums that need none: a
sum of numbers of `s` decimal places is exact as long as the total has at most `p` digits
(`decimal_sum_exact`).
-/

namespace Goodmoneying.Analysis

open Library Program

variable {p : ℕ}
variable {x : ℚ} {values : List ℚ} {s : ℕ}

theorem decimal_nonneg (h : 0 ≤ x) : 0 ≤ (Arithmetic.decimal p).context x :=
  roundSignificant_nonneg h

theorem decimal_pos (hp : 0 < p) (h : 0 < x) : 0 < (Arithmetic.decimal p).context x :=
  (zpow_pos (by norm_num) _).trans_le (zpow_le_roundSignificant hp h)

theorem decimal_neg (x : ℚ) :
    (Arithmetic.decimal p).context (-x) = -(Arithmetic.decimal p).context x :=
  roundSignificant_neg p x

theorem decimal_sum_nonneg (h : ∀ value ∈ values, 0 ≤ value) :
    0 ≤ (Arithmetic.decimal p).sum values := by
  refine List.foldlRecOn values (Arithmetic.decimal p).add le_rfl ?_
  intro total htotal value hvalue
  exact decimal_nonneg (add_nonneg htotal (h value hvalue))

theorem fits_one (hp : 0 < p) : Fits p 1 := by
  have hone : |(1 : ℤ)| < 10 ^ p := by simpa using one_lt_pow₀ (by norm_num : (1 : ℤ) < 10) hp.ne'
  exact_mod_cast fits_intCast hone

/-- The difference of two nonnegative numbers is at most their sum, rounded or not. -/
theorem abs_decimal_sub_le (hp : 0 < p) {y : ℚ} (hx : 0 ≤ x) (hy : 0 ≤ y) :
    |(Arithmetic.decimal p).sub x y| ≤ (Arithmetic.decimal p).add x y := by
  refine abs_le.mpr ⟨?_, roundSignificant_mono hp (by linarith)⟩
  rw [Arithmetic.add, ← decimal_neg]
  exact roundSignificant_mono hp (by linarith)

/-- An imbalance `(x - y) / (x + y)` stays within -1 and 1. -/
theorem abs_decimal_imbalance_le (hp : 0 < p) {y : ℚ} (hx : 0 ≤ x) (hy : 0 ≤ y) :
    |(Arithmetic.decimal p).div ((Arithmetic.decimal p).sub x y)
      ((Arithmetic.decimal p).add x y)| ≤ 1 := by
  have hsub := abs_decimal_sub_le hp hx hy
  have hquotient : |(Arithmetic.decimal p).sub x y / (Arithmetic.decimal p).add x y| ≤ 1 := by
    rw [abs_div, abs_of_nonneg ((abs_nonneg _).trans hsub)]
    exact div_le_one_of_le₀ hsub ((abs_nonneg _).trans hsub)
  obtain ⟨hlow, hhigh⟩ := abs_le.mp hquotient
  refine abs_le.mpr ⟨?_, roundSignificant_le hp (fits_one hp) hhigh⟩
  rw [neg_le, Arithmetic.div, ← decimal_neg]
  exact roundSignificant_le hp (fits_one hp) (by linarith)

/-- A number of `s` decimal places and at most `p` digits needs no rounding. -/
theorem fits_of_places (hx : 0 ≤ x) (hplaces : roundPlaces s x = x) (h : x * 10 ^ s < 10 ^ p) :
    Fits p x := by
  obtain ⟨n, hn⟩ := roundPlaces_eq_self_iff.mp hplaces
  have hnonneg : 0 ≤ n := by
    have : (0 : ℚ) ≤ n := by
      rw [← hn]
      positivity
    exact_mod_cast this
  refine ⟨n, -s, ?_, ?_⟩
  · rw [abs_of_nonneg hnonneg]
    rw [hn] at h
    exact_mod_cast h
  · rw [← hn, mul_assoc, zpow_neg, zpow_natCast, mul_inv_cancel₀ (by positivity), mul_one]

theorem decimal_foldl_exact (hnonneg : ∀ value ∈ values, 0 ≤ value)
    (hplaces : ∀ value ∈ values, roundPlaces s value = value) {start : ℚ} (hstart : 0 ≤ start)
    (hstart' : roundPlaces s start = start) (h : (start + values.sum) * 10 ^ s < 10 ^ p) :
    values.foldl (Arithmetic.decimal p).add start = start + values.sum := by
  induction values generalizing start with
  | nil => simp
  | cons value values ih =>
    obtain ⟨hvalue, hnonneg⟩ := List.forall_mem_cons.mp hnonneg
    obtain ⟨hvalue', hplaces⟩ := List.forall_mem_cons.mp hplaces
    have hsum : 0 ≤ start + value := add_nonneg hstart hvalue
    have hsum' : roundPlaces s (start + value) = start + value :=
      roundPlaces_add_eq_self hstart' hvalue'
    rw [List.sum_cons, ← add_assoc] at h ⊢
    have hle : (start + value) * 10 ^ s ≤ (start + value + values.sum) * 10 ^ s :=
      mul_le_mul_of_nonneg_right (le_add_of_nonneg_right (List.sum_nonneg hnonneg))
        (by positivity)
    have hadd : (Arithmetic.decimal p).add start value = start + value :=
      roundSignificant_eq_self (fits_of_places hsum hsum' (hle.trans_lt h))
    rw [List.foldl_cons, hadd]
    exact ih hnonneg hplaces hsum hsum' h

/-- A sum of numbers of `s` decimal places whose total has at most `p` digits is exact. -/
theorem decimal_sum_exact (hnonneg : ∀ value ∈ values, 0 ≤ value)
    (hplaces : ∀ value ∈ values, roundPlaces s value = value) (h : values.sum * 10 ^ s < 10 ^ p) :
    (Arithmetic.decimal p).sum values = values.sum := by
  have hzero : roundPlaces s 0 = 0 := roundPlaces_eq_self_iff.mpr ⟨0, by simp⟩
  rw [Arithmetic.sum, decimal_foldl_exact hnonneg hplaces le_rfl hzero (by rwa [zero_add]),
    zero_add]

end Goodmoneying.Analysis
