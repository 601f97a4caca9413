import Goodmoneying.Analysis.BacktestRunIdentity
import Goodmoneying.Program.CanonicalDecimals

/-!
# When canonical decimals are faithful

The canonical text of a decimal is determined by its sign and by its absolute value rounded to the
default context (`normalize_spec`, `formatFixed_eq_iff`), and the text of a normalized decimal reads
back. So two decimals share their bytes without being equal when they round to the same number, and
equal ones differ when they are zeros of different sign.
-/

namespace Goodmoneying.Analysis

open Library Program
open Program.DefaultContext

variable {d e : FiniteDecimal}

/-! ## Rounding to the context -/

/-- The exponent of the last digit that the context keeps of a number. -/
def lastExponent (x : ℚ) : ℤ := max (unitExponent precision x) etiny

/-- A number rounded to 28 significant digits, ties to even, and never beyond the place
`10 ^ -1000026`. -/
def contextRound (x : ℚ) : ℚ := nearestEven (x / 10 ^ lastExponent x) * 10 ^ lastExponent x

theorem emax_eq : emax + 1 = etop + precision := by decide

theorem etiny_le_etop : etiny ≤ etop := by decide

theorem precision_pred : ((precision - 1 : ℕ) : ℤ) = precision - 1 := by decide

theorem magnitude_pos (h : d.coefficient ≠ 0) : 0 < d.magnitude := by
  have hpos : (0 : ℚ) < d.coefficient := by exact_mod_cast Nat.pos_of_ne_zero h
  unfold FiniteDecimal.magnitude
  positivity

theorem magnitude_nonneg (d : FiniteDecimal) : 0 ≤ d.magnitude := by
  unfold FiniteDecimal.magnitude
  positivity

theorem magnitude_eq_zero_iff : d.magnitude = 0 ↔ d.coefficient = 0 := by
  unfold FiniteDecimal.magnitude
  rw [mul_eq_zero, or_iff_left (by positivity)]
  exact_mod_cast Iff.rfl

/-- The decade of a decimal, from its digits and its exponent. -/
theorem log_magnitude (h : d.coefficient ≠ 0) :
    Int.log 10 d.magnitude = Nat.log 10 d.coefficient + d.exponent := by
  have hpos := magnitude_pos h
  have hlow : ((10 ^ Nat.log 10 d.coefficient : ℕ) : ℚ) ≤ d.coefficient := by
    exact_mod_cast Nat.pow_log_le_self 10 h
  have hhigh : (d.coefficient : ℚ) < ((10 ^ (Nat.log 10 d.coefficient + 1) : ℕ) : ℚ) := by
    exact_mod_cast Nat.lt_pow_succ_log_self (by norm_num) d.coefficient
  have hscale : (0 : ℚ) < 10 ^ d.exponent := by positivity
  apply le_antisymm
  · rw [← Int.lt_add_one_iff]
    refine (Int.lt_zpow_iff_log_lt (b := 10) (by norm_num) hpos).mp ?_
    push_cast
    rw [show (Nat.log 10 d.coefficient : ℤ) + d.exponent + 1 =
      ((Nat.log 10 d.coefficient + 1 : ℕ) : ℤ) + d.exponent by push_cast; ring,
      zpow_add₀ (by norm_num), zpow_natCast]
    push_cast at hhigh
    exact mul_lt_mul_of_pos_right hhigh hscale
  · refine (Int.zpow_le_iff_le_log (b := 10) (by norm_num) hpos).mp ?_
    push_cast
    rw [zpow_add₀ (by norm_num), zpow_natCast]
    push_cast at hlow
    exact mul_le_mul_of_nonneg_right hlow hscale.le

theorem lastExponent_magnitude (h : d.coefficient ≠ 0) :
    lastExponent d.magnitude = max (digitCount d.coefficient + d.exponent - precision) etiny := by
  rw [lastExponent, unitExponent, abs_of_pos (magnitude_pos h), log_magnitude h, digitCount]
  congr 1
  push_cast
  ring

@[simp] theorem contextRound_zero : contextRound 0 = 0 := by
  simp [contextRound, show nearestEven 0 = 0 from nearestEven_intCast 0]

/-- A coefficient rounded to the context. -/
theorem contextRound_of_lt (h : d.coefficient ≠ 0) (hlt : d.exponent < lastExponent d.magnitude) :
    contextRound d.magnitude =
      roundHalfEven d.coefficient (lastExponent d.magnitude - d.exponent).toNat *
        10 ^ lastExponent d.magnitude := by
  obtain ⟨dropped, hdropped⟩ := Int.eq_ofNat_of_zero_le (sub_nonneg.mpr hlt.le)
  have hscaled : d.magnitude / 10 ^ lastExponent d.magnitude =
      (d.coefficient : ℚ) / ((10 ^ dropped : ℕ) : ℚ) := by
    have hexponent : lastExponent d.magnitude = d.exponent + dropped := by omega
    rw [hexponent, zpow_add₀ (by norm_num), zpow_natCast, FiniteDecimal.magnitude]
    push_cast
    field_simp
  rw [contextRound, hscaled, nearestEven_div _ _ (by positivity), hdropped, Int.toNat_natCast]
  push_cast [roundHalfEven]
  rfl

/-- A coefficient that the context keeps whole. -/
theorem contextRound_of_le (hle : lastExponent d.magnitude ≤ d.exponent) :
    contextRound d.magnitude = d.magnitude := by
  rw [contextRound]
  generalize lastExponent d.magnitude = last at hle
  obtain ⟨kept, hkept⟩ := Int.eq_ofNat_of_zero_le (sub_nonneg.mpr hle)
  have hscaled : d.magnitude / 10 ^ last = ((d.coefficient * 10 ^ kept : ℤ) : ℚ) := by
    have hexponent : d.exponent = last + kept := by omega
    rw [div_eq_iff (by positivity), FiniteDecimal.magnitude, hexponent,
      zpow_add₀ (by norm_num), zpow_natCast]
    push_cast
    ring
  rw [hscaled, nearestEven_intCast, ← hscaled, div_mul_cancel₀ _ (by positivity)]

/-- Where the digits of a number lie. -/
theorem magnitude_bounds (h : d.coefficient ≠ 0) :
    (10 : ℚ) ^ (digitCount d.coefficient + d.exponent - 1) ≤ d.magnitude ∧
      d.magnitude < (10 : ℚ) ^ (digitCount d.coefficient + d.exponent) := by
  obtain ⟨hlow, hhigh⟩ := decade_bounds (magnitude_pos h).ne'
  rw [abs_of_pos (magnitude_pos h), log_magnitude h] at hlow hhigh
  refine ⟨le_trans (le_of_eq ?_) hlow, lt_of_lt_of_eq hhigh ?_⟩
  all_goals
    congr 1
    unfold digitCount
    push_cast
    ring

theorem digitCount_le_iff {coefficient : ℕ} : digitCount coefficient ≤ precision ↔
    coefficient < 10 ^ precision := by
  unfold digitCount
  rcases Nat.eq_zero_or_pos coefficient with rfl | hpos
  · simp [precision]
  · rw [← Nat.log_lt_iff_lt_pow (by norm_num) hpos.ne']
    exact Nat.succ_le_iff

/-- The rounded coefficient has at most one digit too many. -/
theorem roundHalfEven_le (h : d.coefficient ≠ 0) (hlt : d.exponent < lastExponent d.magnitude) :
    roundHalfEven d.coefficient (lastExponent d.magnitude - d.exponent).toNat ≤ 10 ^ precision := by
  have hround := contextRound_of_lt h hlt
  have hscaled : d.magnitude / 10 ^ lastExponent d.magnitude ≤ ((10 ^ precision : ℤ) : ℚ) := by
    rw [div_le_iff₀ (by positivity)]
    refine (magnitude_bounds h).2.le.trans ?_
    push_cast
    rw [← zpow_natCast, ← zpow_add₀ (by norm_num)]
    apply zpow_le_zpow_right₀ (by norm_num)
    rw [lastExponent_magnitude h]
    omega
  have hle := nearestEven_le hscaled
  rw [contextRound] at hround
  have heq := mul_right_cancel₀ (by positivity) hround
  have hcast : nearestEven (d.magnitude / 10 ^ lastExponent d.magnitude) =
      (roundHalfEven d.coefficient (lastExponent d.magnitude - d.exponent).toNat : ℤ) := by
    exact_mod_cast heq
  rw [hcast] at hle
  exact_mod_cast hle

/-- A coefficient that was rounded up to one digit more, with its last zero moved to the
exponent. -/
theorem magnitude_carried (sign : Bool) (e : ℤ) :
    FiniteDecimal.magnitude ⟨sign, 10 ^ precision / 10, e + 1⟩ = 10 ^ (precision + e) := by
  have htenth : 10 ^ precision / 10 = 10 ^ (precision - 1) := by decide
  have hexponent : (precision : ℤ) + e = (precision - 1 : ℕ) + (e + 1) := by
    rw [precision_pred]
    ring
  rw [hexponent, zpow_add₀ (show (10 : ℚ) ≠ 0 by norm_num) ((precision - 1 : ℕ) : ℤ) (e + 1),
    zpow_natCast, FiniteDecimal.magnitude, htenth, Nat.cast_pow, Nat.cast_ofNat]

/-- `_fix` rounds to the context, and signals an overflow exactly when the result is out of its
range. -/
theorem fix_spec (h : d.coefficient ≠ 0) :
    (fix d = .error .overflow ∧ (10 : ℚ) ^ (emax + 1) ≤ contextRound d.magnitude) ∨
    ∃ fixed, fix d = .ok fixed ∧ fixed.magnitude = contextRound d.magnitude ∧
      contextRound d.magnitude < (10 : ℚ) ^ (emax + 1) := by
  have hlast := lastExponent_magnitude h
  obtain ⟨hlow, hhigh⟩ := magnitude_bounds h
  unfold fix
  by_cases hleading : etop < digitCount d.coefficient + d.exponent - precision
  · -- the leading digit is out of range already
    left
    simp only [hleading, ↓reduceIte, true_and]
    have hexponent : lastExponent d.magnitude =
        digitCount d.coefficient + d.exponent - precision := by
      rw [hlast]
      exact max_eq_left (etiny_le_etop.trans hleading.le)
    have hscaled : ((10 ^ (precision - 1) : ℤ) : ℚ) ≤
        d.magnitude / 10 ^ lastExponent d.magnitude := by
      rw [le_div_iff₀ (by positivity)]
      refine le_trans (le_of_eq ?_) hlow
      rw [Int.cast_pow, Int.cast_ofNat, ← zpow_natCast, ← zpow_add₀ (by norm_num), hexponent,
        precision_pred]
      congr 1
      ring
    have hge : ((10 ^ (precision - 1) : ℤ) : ℚ) ≤
        nearestEven (d.magnitude / 10 ^ lastExponent d.magnitude) := by
      exact_mod_cast le_nearestEven hscaled
    calc (10 : ℚ) ^ (emax + 1) ≤ 10 ^ (((precision - 1 : ℕ) : ℤ) + lastExponent d.magnitude) := by
          apply zpow_le_zpow_right₀ (by norm_num)
          rw [hexponent, emax_eq, precision_pred]
          omega
      _ = ((10 ^ (precision - 1) : ℤ) : ℚ) * 10 ^ lastExponent d.magnitude := by
          rw [zpow_add₀ (by norm_num), zpow_natCast, Int.cast_pow, Int.cast_ofNat]
      _ ≤ contextRound d.magnitude := mul_le_mul_of_nonneg_right hge (by positivity)
  simp only [hleading, ↓reduceIte]
  have hlast_le : lastExponent d.magnitude ≤ etop := by
    rw [hlast]
    exact max_le (not_lt.mp hleading) etiny_le_etop
  have hroom : (10 : ℚ) ^ (precision + lastExponent d.magnitude) ≤ 10 ^ (emax + 1) := by
    apply zpow_le_zpow_right₀ (by norm_num)
    rw [emax_eq]
    omega
  rw [← hlast]
  by_cases hlt : d.exponent < lastExponent d.magnitude
  · simp only [hlt, ↓reduceIte]
    have hround := contextRound_of_lt h hlt
    have hle := roundHalfEven_le h hlt
    generalize roundHalfEven d.coefficient (lastExponent d.magnitude - d.exponent).toNat = c
      at hround hle ⊢
    by_cases hcarry : digitCount c ≤ precision
    · right
      simp only [hcarry, ↓reduceIte, Except.ok.injEq, exists_eq_left']
      refine ⟨hround.symm, ?_⟩
      have hc : (c : ℚ) < ((10 ^ precision : ℕ) : ℚ) := by
        exact_mod_cast digitCount_le_iff.mp hcarry
      rw [hround]
      refine lt_of_lt_of_le (mul_lt_mul_of_pos_right hc (by positivity)) ?_
      rw [Nat.cast_pow, Nat.cast_ofNat, ← zpow_natCast, ← zpow_add₀ (by norm_num)]
      exact hroom
    · -- rounding up gave the next power of ten
      have hfull : c = 10 ^ precision :=
        le_antisymm hle (not_lt.mp (mt digitCount_le_iff.mpr hcarry))
      have hvalue : contextRound d.magnitude = 10 ^ (precision + lastExponent d.magnitude) := by
        rw [hround, hfull, zpow_add₀ (by norm_num), zpow_natCast, Nat.cast_pow, Nat.cast_ofNat]
      simp only [hcarry, ↓reduceIte]
      by_cases hover : etop < lastExponent d.magnitude + 1
      · left
        simp only [hover, ↓reduceIte, true_and]
        rw [hvalue]
        apply zpow_le_zpow_right₀ (by norm_num)
        rw [emax_eq]
        omega
      · right
        simp only [hover, ↓reduceIte, Except.ok.injEq, exists_eq_left']
        rw [hvalue]
        constructor
        · rw [hfull]
          exact magnitude_carried d.sign (lastExponent d.magnitude)
        · apply zpow_lt_zpow_right₀ (by norm_num)
          rw [emax_eq]
          omega
  · right
    have hsame := contextRound_of_le (not_lt.mp hlt)
    simp only [hlt, ↓reduceIte, Except.ok.injEq, exists_eq_left']
    refine ⟨hsame.symm, ?_⟩
    rw [hsame]
    refine lt_of_lt_of_le hhigh (le_trans ?_ hroom)
    apply zpow_le_zpow_right₀ (by norm_num)
    rw [hlast]
    omega

/-! ## Normalized decimals -/

/-- No zero ends the coefficient; a zero has the exponent zero. -/
def Stripped (d : FiniteDecimal) : Prop :=
  d.coefficient % 10 ≠ 0 ∨ d.coefficient = 0 ∧ d.exponent = 0

/-- Stripping keeps the number. -/
theorem stripZeros_spec {count coefficient : ℕ} {exponent : ℤ} (hne : coefficient ≠ 0)
    (hlt : coefficient < 10 ^ count) : ((stripZeros count coefficient exponent).1 : ℚ) *
        10 ^ (stripZeros count coefficient exponent).2 = coefficient * 10 ^ exponent ∧
      (stripZeros count coefficient exponent).1 % 10 ≠ 0 := by
  induction count generalizing coefficient exponent with
  | zero => omega
  | succ count ih =>
    unfold stripZeros
    by_cases hzero : coefficient % 10 = 0
    · obtain ⟨rest, rfl⟩ := Nat.dvd_of_mod_eq_zero hzero
      have hrest : rest ≠ 0 := right_ne_zero_of_mul hne
      have hbound : rest < 10 ^ count := by
        rw [pow_succ] at hlt
        omega
      rw [if_pos hzero, Nat.mul_div_cancel_left _ (by norm_num)]
      obtain ⟨hvalue, hlast⟩ := @ih rest (exponent + 1) hrest hbound
      refine ⟨?_, hlast⟩
      rw [hvalue, zpow_add_one₀ (by norm_num)]
      push_cast
      ring
    · rw [if_neg hzero]
      exact ⟨rfl, hzero⟩

/-- The rounded number is one that the context can hold. -/
def InRange (x : ℚ) : Prop := contextRound |x| < (10 : ℚ) ^ (emax + 1)

@[simp] theorem abs_value (d : FiniteDecimal) : |d.value| = d.magnitude := by
  unfold FiniteDecimal.value
  split_ifs
  · rw [abs_neg, abs_of_nonneg (magnitude_nonneg d)]
  · exact abs_of_nonneg (magnitude_nonneg d)

theorem inRange_zero (h : d.coefficient = 0) : InRange d.value := by
  unfold InRange
  rw [abs_value, magnitude_eq_zero_iff.mpr h, contextRound_zero]
  exact zpow_pos (by norm_num) _

/-- What `normalize` makes of a decimal. -/
theorem normalize_spec (d : FiniteDecimal) :
    (DefaultContext.normalize d = .error .overflow ∧ ¬ InRange d.value) ∨
    ∃ normalized, DefaultContext.normalize d = .ok normalized ∧ InRange d.value ∧
      normalized.sign = d.sign ∧ normalized.magnitude = contextRound d.magnitude ∧
      Stripped normalized := by
  unfold DefaultContext.normalize
  by_cases hzero : d.coefficient = 0
  · right
    rw [if_pos hzero]
    refine ⟨_, rfl, inRange_zero hzero, rfl, ?_, Or.inr ⟨rfl, rfl⟩⟩
    rw [magnitude_eq_zero_iff.mpr hzero, contextRound_zero]
    exact magnitude_eq_zero_iff.mpr rfl
  rw [if_neg hzero]
  have hrange : InRange d.value ↔ contextRound d.magnitude < (10 : ℚ) ^ (emax + 1) := by
    rw [InRange, abs_value]
  rcases fix_spec hzero with ⟨hfix, hout⟩ | ⟨fixed, hfix, hvalue, hin⟩
  · left
    rw [hfix, hrange]
    exact ⟨rfl, not_lt.mpr hout⟩
  · right
    rw [hfix]
    by_cases hrounded : fixed.coefficient = 0
    · refine ⟨⟨d.sign, 0, 0⟩, if_pos hrounded, hrange.mpr hin, rfl, ?_, Or.inr ⟨rfl, rfl⟩⟩
      rw [← hvalue, magnitude_eq_zero_iff.mpr hrounded]
      exact magnitude_eq_zero_iff.mpr rfl
    · obtain ⟨hkept, hlast⟩ := @stripZeros_spec _ _ fixed.exponent hrounded
        (Nat.lt_pow_succ_log_self (by norm_num) fixed.coefficient)
      exact ⟨_, if_neg hrounded, hrange.mpr hin, rfl, hkept.trans hvalue, Or.inl hlast⟩

/-- A number has one stripped coefficient and one exponent. -/
theorem stripped_unique (hd : Stripped d) (he : Stripped e) (h : d.magnitude = e.magnitude) :
    d.coefficient = e.coefficient ∧ d.exponent = e.exponent := by
  wlog hle : d.exponent ≤ e.exponent generalizing d e
  · obtain ⟨hcoefficient, hexponent⟩ := this he hd h.symm (le_of_not_ge hle)
    exact ⟨hcoefficient.symm, hexponent.symm⟩
  obtain ⟨gap, hgap⟩ := Int.eq_ofNat_of_zero_le (sub_nonneg.mpr hle)
  have hcoefficient : d.coefficient = e.coefficient * 10 ^ gap := by
    have hexponent : e.exponent = gap + d.exponent := by omega
    rw [FiniteDecimal.magnitude, FiniteDecimal.magnitude, hexponent, zpow_add₀ (by norm_num),
      zpow_natCast, ← mul_assoc] at h
    exact_mod_cast mul_right_cancel₀ (zpow_ne_zero _ (by norm_num)) h
  rcases hd with hlast | ⟨hzero, hexponent⟩
  · have hgap' : gap = 0 := by
      by_contra hne
      obtain ⟨rest, rfl⟩ := Nat.exists_eq_succ_of_ne_zero hne
      apply hlast
      rw [hcoefficient, pow_succ, ← mul_assoc]
      exact Nat.mul_mod_left _ _
    subst hgap'
    exact ⟨by simpa using hcoefficient, by omega⟩
  · have hother : e.coefficient = 0 := by
      rw [hzero] at hcoefficient
      exact (mul_eq_zero.mp hcoefficient.symm).resolve_right (by positivity)
    rcases he with hlast | ⟨-, hexponent'⟩
    · rw [hother] at hlast
      exact absurd rfl hlast
    · rw [hzero, hother, hexponent, hexponent']
      exact ⟨rfl, rfl⟩

/-! ## Texts -/

/-- The text reads back as the absolute value. -/
theorem readUnsigned_fixedText (d : FiniteDecimal) :
    readUnsigned (fixedText d) = some d.magnitude := by
  unfold fixedText FiniteDecimal.magnitude
  by_cases hneg : d.exponent < 0
  · obtain ⟨places, hplaces⟩ := Int.eq_ofNat_of_zero_le (neg_nonneg.mpr hneg.le)
    have hexponent : d.exponent = -(places : ℤ) := by omega
    rw [if_pos hneg, hplaces]
    dsimp only
    rw [Int.toNat_natCast, readUnsigned_digits _ _ _ (Nat.mod_lt _ (by positivity)),
      Nat.div_add_mod, hexponent, zpow_neg, zpow_natCast, div_eq_mul_inv]
  · obtain ⟨zeros, hzeros⟩ := Int.eq_ofNat_of_zero_le (not_lt.mp hneg)
    rw [if_neg hneg, hzeros, Int.toNat_natCast, readUnsigned_toDigits, zpow_natCast]
    push_cast
    rfl

/-- The text starts with a digit, so the minus sign is the decimal's sign. -/
theorem fixedText_head (d : FiniteDecimal) (text : List Char) : fixedText d ≠ '-' :: text := by
  have hdigits : ∀ n rest, Nat.toDigits 10 n ++ rest ≠ '-' :: text := by
    intro n rest h
    obtain ⟨c, cs, hcs⟩ := List.exists_cons_of_ne_nil (Nat.toDigits_ne_nil (n := n) (b := 10))
    have hc : c.isDigit := Nat.isDigit_of_mem_toDigits (b := 10) (n := n) (by norm_num)
      (by norm_num) (by simp [hcs])
    rw [hcs, List.cons_append] at h
    rw [(List.cons.inj h).1] at hc
    exact absurd hc (by decide)
  unfold fixedText
  split_ifs
  · exact hdigits _ _
  · simpa using hdigits (d.coefficient * 10 ^ d.exponent.toNat) []

/-- The text of a stripped decimal is its sign and its absolute value. -/
theorem formatFixed_eq_iff (hd : Stripped d) (he : Stripped e) :
    formatFixed d = formatFixed e ↔ d.sign = e.sign ∧ d.magnitude = e.magnitude := by
  constructor
  · intro h
    have hparts : d.sign = e.sign ∧ fixedText d = fixedText e := by
      unfold formatFixed at h
      cases hsign : d.sign <;> cases hsign' : e.sign <;> rw [hsign, hsign'] at h
      · exact ⟨rfl, h⟩
      · exact absurd h (fixedText_head d _)
      · exact absurd h.symm (fixedText_head e _)
      · exact ⟨rfl, List.append_cancel_left h⟩
    refine ⟨hparts.1, Option.some.inj ?_⟩
    rw [← readUnsigned_fixedText, ← readUnsigned_fixedText, hparts.2]
  · rintro ⟨hsign, hmagnitude⟩
    obtain ⟨hcoefficient, hexponent⟩ := stripped_unique hd he hmagnitude
    rw [formatFixed, formatFixed, fixedText, fixedText, hsign, hcoefficient, hexponent]

/-! ## Faithfulness -/

/-- What the bytes of a payload say of a decimal in it. -/
theorem decimalJsonBytes_spec (context : JsonContext) (d : FiniteDecimal) :
    (decimalJsonBytes context d = .error .overflow ∧ ¬ InRange d.value) ∨
    ∃ normalized, InRange d.value ∧ normalized.sign = d.sign ∧
      normalized.magnitude = contextRound d.magnitude ∧ Stripped normalized ∧
      decimalJsonBytes context d =
        .ok (canonicalJsonBytes (context.fill (.text (.ofList (formatFixed normalized))))) := by
  unfold decimalJsonBytes canonicalFiniteDecimal
  rcases normalize_spec d with ⟨herror, hout⟩ | ⟨normalized, hok, hin, hsign, hvalue, hstripped⟩
  · left
    rw [herror]
    exact ⟨rfl, hout⟩
  · right
    rw [hok]
    exact ⟨normalized, hin, hsign, hvalue, hstripped, rfl⟩

/-- Payloads that differ in one text share their bytes only where the texts are the same. -/
theorem canonicalJsonBytes_text_inj {context : JsonContext} {text other : List Char} :
    canonicalJsonBytes (context.fill (.text (.ofList text))) =
      canonicalJsonBytes (context.fill (.text (.ofList other))) ↔ text = other := by
  constructor
  · intro h
    have htexts := dumps_text_inj (dumps_fill_inj (canonicalJsonBytes_inj h))
    simpa using congrArg String.toList htexts
  · rintro rfl
    rfl

/-- Both decimals have bytes in this payload, and these are the same exactly when the numbers
are. -/
def Faithful (context : JsonContext) (d e : FiniteDecimal) : Prop :=
  ∃ bytes other, decimalJsonBytes context d = .ok bytes ∧ decimalJsonBytes context e = .ok other ∧
    (bytes = other ↔ d.value = e.value)

/-- Decimals whose sign and rounded value say whether they are equal: zeros have the same sign,
and different numbers of one sign round to different ones. -/
structure Distinguished (d e : FiniteDecimal) : Prop where
  left : InRange d.value
  right : InRange e.value
  zeros : d.value = 0 → e.value = 0 → d.sign = e.sign
  rounded : d.sign = e.sign → contextRound d.magnitude = contextRound e.magnitude →
    d.value = e.value

/-- Numbers other than zero show their sign. -/
theorem sign_eq_of_value (h : d.value = e.value) (hne : d.value ≠ 0) : d.sign = e.sign := by
  have hpos : 0 < d.magnitude := by
    rw [← abs_value]
    exact abs_pos.mpr hne
  have hpos' : 0 < e.magnitude := by
    rw [← abs_value, ← h]
    exact abs_pos.mpr hne
  by_contra hsigns
  unfold FiniteDecimal.value at h
  cases hd : d.sign <;> cases he : e.sign <;> simp_all
  all_goals linarith

/-- Which decimals share their bytes, where both have some. -/
theorem faithful_iff_of_inRange {context : JsonContext} :
    Faithful context d e ↔ InRange d.value ∧ InRange e.value ∧
      (d.sign = e.sign ∧ contextRound d.magnitude = contextRound e.magnitude ↔
        d.value = e.value) := by
  unfold Faithful
  rcases decimalJsonBytes_spec context d with ⟨herror, hout⟩ | ⟨n, hin, hsign, hvalue, hn, hbytes⟩
  · rw [herror]
    constructor
    · rintro ⟨_, _, ⟨⟩, -⟩
    · rintro ⟨hin, -⟩
      exact absurd hin hout
  rcases decimalJsonBytes_spec context e with
    ⟨herror, hout⟩ | ⟨m, hin', hsign', hvalue', hm, hbytes'⟩
  · rw [herror]
    constructor
    · rintro ⟨_, _, -, ⟨⟩, -⟩
    · rintro ⟨-, hin, -⟩
      exact absurd hin hout
  have hshared : canonicalJsonBytes (context.fill (.text (.ofList (formatFixed n)))) =
      canonicalJsonBytes (context.fill (.text (.ofList (formatFixed m)))) ↔
      d.sign = e.sign ∧ contextRound d.magnitude = contextRound e.magnitude := by
    rw [canonicalJsonBytes_text_inj, formatFixed_eq_iff hn hm, hsign, hsign', hvalue, hvalue']
  rw [hbytes, hbytes']
  constructor
  · rintro ⟨_, _, ⟨⟩, ⟨⟩, hiff⟩
    exact ⟨hin, hin', hshared.symm.trans hiff⟩
  · rintro ⟨-, -, hiff⟩
    exact ⟨_, _, rfl, rfl, hshared.trans hiff⟩

/-- Canonical bytes are faithful to two decimals exactly when their sign and rounded value tell
whether they are equal.
SOURCE: dataset_versions.py:118-130, 502-512; backtest_engine.py:410-422 -/
theorem decimalJsonBytes_faithful_iff (context : JsonContext) (d e : FiniteDecimal) :
    Faithful context d e ↔ Distinguished d e := by
  rw [faithful_iff_of_inRange]
  constructor
  · rintro ⟨hin, hin', hiff⟩
    exact {
      left := hin
      right := hin'
      zeros := fun hzero hzero' => (hiff.mpr (hzero.trans hzero'.symm)).1
      rounded := fun hsign hrounded => hiff.mp ⟨hsign, hrounded⟩ }
  · rintro ⟨hin, hin', hzeros, hrounded⟩
    refine ⟨hin, hin', fun ⟨hsign, hsame⟩ => hrounded hsign hsame, fun hvalue => ⟨?_, ?_⟩⟩
    · by_cases hzero : d.value = 0
      · exact hzeros hzero (hvalue.symm.trans hzero)
      · exact sign_eq_of_value hvalue hzero
    · rw [← abs_value, ← abs_value, hvalue]

/-- A number of thirty digits that is rounded to one, and the two zeros. -/
theorem decimalJsonBytes_not_faithful : ¬ Faithful .here ⟨false, 10 ^ 29 + 1, -29⟩ ⟨false, 1, 0⟩ ∧
      ¬ Faithful .here ⟨true, 0, 0⟩ ⟨false, 0, 0⟩ := by
  constructor
  · rintro ⟨bytes, other, hbytes, hother, hiff⟩
    have hsame : DefaultContext.normalize ⟨false, 10 ^ 29 + 1, -29⟩ =
        DefaultContext.normalize ⟨false, 1, 0⟩ := by decide +kernel
    rw [decimalJsonBytes, canonicalFiniteDecimal, hsame] at hbytes
    have hvalue := hiff.mp (Except.ok.inj (hbytes.symm.trans hother))
    norm_num [FiniteDecimal.value, FiniteDecimal.magnitude] at hvalue
  · intro h
    obtain ⟨-, -, hiff⟩ := faithful_iff_of_inRange.mp h
    have hvalue : FiniteDecimal.value ⟨true, 0, 0⟩ = FiniteDecimal.value ⟨false, 0, 0⟩ := by
      norm_num [FiniteDecimal.value, FiniteDecimal.magnitude]
    exact absurd (hiff.mpr hvalue).1 (by decide)

end Goodmoneying.Analysis
