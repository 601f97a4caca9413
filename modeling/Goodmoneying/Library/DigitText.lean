import Goodmoneying.Library.DecimalRounding
import Mathlib.Data.List.TakeWhile
import Mathlib.Data.Nat.Cast.Field
import Mathlib.Data.Nat.Prime.Basic

/-!
# Numbers written in decimal digits

Two texts of numbers, as lists of characters, each with the reader that inverts it: `fixedDigits`, a
field of digits with leading zeros (`readDigits_fixedDigits`), and `plainText`, an exact decimal
without an exponent, which reads back for every number with a finite decimal expansion
(`readPlain_plainText`).
-/

namespace Goodmoneying.Library

open List

variable {t : ℕ} {x : ℚ}

/-! ## Fields of digits -/

/-- The last `width` decimal digits of `n`, with leading zeros. -/
def fixedDigits : ℕ → ℕ → List Char
  | 0, _ => []
  | width + 1, n => fixedDigits width (n / 10) ++ [Nat.digitChar (n % 10)]

@[simp] theorem length_fixedDigits (width n : ℕ) : (fixedDigits width n).length = width := by
  induction width generalizing n with
  | zero => rfl
  | succ width ih => simp [fixedDigits, ih]

/-- A field holds digits only. -/
theorem isDigit_of_mem_fixedDigits {width n : ℕ} {c : Char} (hc : c ∈ fixedDigits width n) :
    c.isDigit := by
  induction width generalizing n with
  | zero => simp [fixedDigits] at hc
  | succ width ih =>
    rcases mem_append.mp hc with hc | hc
    · exact ih hc
    · obtain rfl := mem_singleton.mp hc
      simp [Nat.mod_lt n (show 0 < 10 by norm_num)]

/-- The value of a field. -/
theorem ofDigitChars_fixedDigits (width n init : ℕ) :
    Nat.ofDigitChars 10 (fixedDigits width n) init = 10 ^ width * init + n % 10 ^ width := by
  induction width generalizing n with
  | zero => simp [fixedDigits, Nat.mod_one]
  | succ width ih =>
    have hsplit : n % 10 ^ (width + 1) = 10 * (n / 10 % 10 ^ width) + n % 10 := by
      rw [pow_succ', Nat.mod_mul, add_comm]
    rw [fixedDigits, Nat.ofDigitChars_append, ih,
      Nat.ofDigitChars_cons_digitChar_of_lt_ten (Nat.mod_lt n (by norm_num)),
      Nat.ofDigitChars_nil, hsplit, pow_succ]
    ring

/-- Read a field of `width` digits off the front of a text. -/
def readDigits (width : ℕ) (text : List Char) : Option (ℕ × List Char) :=
  if (text.take width).length = width ∧ (text.take width).all Char.isDigit then
    some (Nat.ofDigitChars 10 (text.take width) 0, text.drop width)
  else none

/-- Read one given character off the front of a text. -/
def readChar (c : Char) : List Char → Option (List Char)
  | [] => none
  | d :: text => if d = c then some text else none

@[simp] theorem readChar_cons (c : Char) (text : List Char) :
    readChar c (c :: text) = some text := if_pos rfl

/-- A written field reads back as its number. -/
theorem readDigits_fixedDigits {width n : ℕ} (hn : n < 10 ^ width) (text : List Char) :
    readDigits width (fixedDigits width n ++ text) = some (n, text) := by
  have htake : (fixedDigits width n ++ text).take width = fixedDigits width n := by
    rw [take_left' (length_fixedDigits width n)]
  have hdrop : (fixedDigits width n ++ text).drop width = text := by
    rw [drop_left' (length_fixedDigits width n)]
  have hall : (fixedDigits width n).all Char.isDigit :=
    all_eq_true.mpr fun c hc => isDigit_of_mem_fixedDigits hc
  rw [readDigits, htake, hdrop, if_pos ⟨length_fixedDigits width n, hall⟩,
    ofDigitChars_fixedDigits, Nat.mod_eq_of_lt hn, mul_zero, zero_add]

/-! ## Finite decimal expansions -/

/-- The number of digits after the point of the exact decimal text of `x`. -/
def decimalPlaces (x : ℚ) : ℕ :=
  ((List.range (x.den.log2 + 1)).find? fun s => 10 ^ s % x.den = 0).getD 0

/-- A divisor of a power of ten divides a power of ten that its size bounds. -/
theorem exists_dvd_pow_le_log2 {d : ℕ} (h : d ∣ 10 ^ t) : ∃ s ≤ d.log2, d ∣ 10 ^ s := by
  have hd : d ≠ 0 := by
    rintro rfl
    simp at h
  rw [show 10 = 2 * 5 by norm_num, mul_pow] at h
  obtain ⟨u, v, hu, hv, rfl⟩ := Nat.dvd_mul.mp h
  obtain ⟨a, -, rfl⟩ := (Nat.dvd_prime_pow Nat.prime_two).mp hu
  obtain ⟨b, -, rfl⟩ := (Nat.dvd_prime_pow Nat.prime_five).mp hv
  refine ⟨max a b, ?_, ?_⟩
  · rw [Nat.le_log2 hd]
    rcases le_total a b with hab | hab
    · rw [max_eq_right hab]
      calc 2 ^ b ≤ 5 ^ b := Nat.pow_le_pow_left (by norm_num) b
        _ ≤ 2 ^ a * 5 ^ b := Nat.le_mul_of_pos_left _ (by positivity)
    · rw [max_eq_left hab]
      exact Nat.le_mul_of_pos_right _ (by positivity)
  · rw [show 10 = 2 * 5 by norm_num, mul_pow]
    exact mul_dvd_mul (pow_dvd_pow 2 (le_max_left a b)) (pow_dvd_pow 5 (le_max_right a b))

/-- The decimal places of a number with a finite expansion make it an integer. -/
theorem den_dvd_pow_decimalPlaces (h : x.den ∣ 10 ^ t) : x.den ∣ 10 ^ decimalPlaces x := by
  obtain ⟨s, hs, hdvd⟩ := exists_dvd_pow_le_log2 h
  have hsome : ((List.range (x.den.log2 + 1)).find? fun s => 10 ^ s % x.den = 0).isSome := by
    rw [List.find?_isSome]
    exact ⟨s, mem_range.mpr (by omega), by simpa using Nat.mod_eq_zero_of_dvd hdvd⟩
  obtain ⟨r, hr⟩ := Option.isSome_iff_exists.mp hsome
  have hmod := List.find?_some hr
  rw [decimalPlaces, hr, Option.getD_some]
  exact Nat.dvd_of_mod_eq_zero (by simpa using hmod)

/-- A number of finitely many significant digits has a finite decimal expansion. -/
theorem Fits.den_dvd_pow {p : ℕ} (h : Fits p x) : ∃ t : ℕ, x.den ∣ 10 ^ t := by
  obtain ⟨m, k, -, rfl⟩ := h
  refine ⟨(-k).toNat, ?_⟩
  have hk : (10 : ℚ) ^ k = ((10 ^ k.toNat : ℤ) : ℚ) / ((10 ^ (-k).toNat : ℕ) : ℚ) := by
    push_cast
    rw [eq_div_iff (by positivity), ← zpow_natCast, ← zpow_natCast, ← zpow_add₀ (by norm_num)]
    congr 1
    omega
  rw [hk, ← mul_div_assoc, ← Int.cast_mul]
  have := Rat.den_dvd (m * 10 ^ k.toNat) ((10 ^ (-k).toNat : ℕ) : ℤ)
  rw [Rat.divInt_eq_div] at this
  exact_mod_cast this

/-! ## Plain decimal texts -/

/-- The digits of `x` without its sign, counted in units of its last decimal place. -/
def scaledNumerator (x : ℚ) : ℕ := x.num.natAbs * (10 ^ decimalPlaces x / x.den)

/-- `x` as a decimal text without an exponent. -/
def plainText (x : ℚ) : List Char :=
  let places := decimalPlaces x
  (if x < 0 then ['-'] else []) ++ Nat.toDigits 10 (scaledNumerator x / 10 ^ places) ++
    if places = 0 then [] else '.' :: fixedDigits places (scaledNumerator x % 10 ^ places)

/-- Read an unsigned decimal text: digits, and perhaps a point and more digits. -/
def readUnsigned (text : List Char) : Option ℚ :=
  let whole := text.takeWhile Char.isDigit
  match text.dropWhile Char.isDigit with
  | [] => if whole = [] then none else some (Nat.ofDigitChars 10 whole 0 : ℕ)
  | c :: fraction =>
    if c = '.' ∧ fraction.all Char.isDigit ∧ whole ++ fraction ≠ [] then
      some (Nat.ofDigitChars 10 (whole ++ fraction) 0 / 10 ^ fraction.length)
    else none

/-- Read a decimal text without an exponent. -/
def readPlain : List Char → Option ℚ
  | '-' :: text => (readUnsigned text).map fun value => -value
  | text => readUnsigned text

/-- The scaled numerator over its power of ten is the absolute value. -/
theorem scaledNumerator_div (h : x.den ∣ 10 ^ t) :
    (scaledNumerator x : ℚ) / 10 ^ decimalPlaces x = |x| := by
  have hden : (x.den : ℚ) ≠ 0 := by exact_mod_cast x.den_nz
  rw [scaledNumerator, Nat.cast_mul, Nat.cast_div (den_dvd_pow_decimalPlaces h) hden,
    Nat.cast_natAbs]
  push_cast
  conv_rhs => rw [← Rat.num_div_den x, abs_div, Nat.abs_cast]
  field_simp

/-- The text of a number splits at its point. -/
theorem readUnsigned_digits (a s b : ℕ) (hb : b < 10 ^ s) :
    readUnsigned (Nat.toDigits 10 a ++ '.' :: fixedDigits s b) =
      some (((10 ^ s * a + b : ℕ) : ℚ) / 10 ^ s) := by
  have hdigits : ∀ c ∈ Nat.toDigits 10 a, c.isDigit :=
    fun c hc => Nat.isDigit_of_mem_toDigits (by norm_num) (by norm_num) hc
  have hall : (fixedDigits s b).all Char.isDigit :=
    all_eq_true.mpr fun c hc => isDigit_of_mem_fixedDigits hc
  have hpoint : ¬ ('.' : Char).isDigit := by decide
  rw [readUnsigned, takeWhile_append_of_pos hdigits, dropWhile_append_of_pos hdigits,
    takeWhile_cons_of_neg hpoint, dropWhile_cons_of_neg hpoint, append_nil]
  simp [hall, Nat.ofDigitChars_append, ofDigitChars_fixedDigits, Nat.mod_eq_of_lt hb]

theorem readUnsigned_toDigits (a : ℕ) : readUnsigned (Nat.toDigits 10 a) = some (a : ℚ) := by
  have hdigits : ∀ c ∈ Nat.toDigits 10 a, c.isDigit :=
    fun c hc => Nat.isDigit_of_mem_toDigits (by norm_num) (by norm_num) hc
  rw [readUnsigned, takeWhile_eq_self_iff.mpr hdigits, dropWhile_eq_nil_iff.mpr hdigits]
  simp

/-- A text that starts with a digit has no sign. -/
theorem readPlain_toDigits_append (a : ℕ) (text : List Char) :
    readPlain (Nat.toDigits 10 a ++ text) = readUnsigned (Nat.toDigits 10 a ++ text) := by
  obtain ⟨c, cs, hcs⟩ := exists_cons_of_ne_nil (Nat.toDigits_ne_nil (n := a) (b := 10))
  have hc : c.isDigit := Nat.isDigit_of_mem_toDigits (b := 10) (n := a) (by norm_num)
    (by norm_num) (by simp [hcs])
  rw [hcs, cons_append, readPlain]
  intro rest hrest
  obtain ⟨rfl, -⟩ := List.cons.inj hrest
  exact absurd hc (by decide)

/-- The text of a number with a finite decimal expansion reads back as the number. -/
theorem readPlain_plainText (h : x.den ∣ 10 ^ t) : readPlain (plainText x) = some x := by
  have habs := scaledNumerator_div h
  have hunsigned : readUnsigned (Nat.toDigits 10 (scaledNumerator x / 10 ^ decimalPlaces x) ++
      if decimalPlaces x = 0 then []
      else '.' :: fixedDigits (decimalPlaces x) (scaledNumerator x % 10 ^ decimalPlaces x)) =
        some |x| := by
    by_cases hs : decimalPlaces x = 0
    · rw [if_pos hs, append_nil, readUnsigned_toDigits, ← habs, hs]
      simp
    · rw [if_neg hs, readUnsigned_digits _ _ _ (Nat.mod_lt _ (by positivity)),
        Nat.div_add_mod, habs]
  rw [plainText]
  by_cases hneg : x < 0
  · rw [if_pos hneg, append_assoc, singleton_append, readPlain, hunsigned,
      Option.map_some, abs_of_neg hneg, neg_neg]
  · rw [if_neg hneg, nil_append, readPlain_toDigits_append, hunsigned,
      abs_of_nonneg (not_lt.mp hneg)]

example : String.ofList (plainText (-1 / 8)) = "-0.125" := by decide +kernel

end Goodmoneying.Library
