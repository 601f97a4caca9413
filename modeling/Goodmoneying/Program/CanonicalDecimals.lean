import Goodmoneying.Program.DatasetVersions

/-!
# Canonical texts of decimals

What `_canonical_value` and `canonical_json_bytes` of `dataset_versions.py` make of a `Decimal`:
`format(value.normalize(), "f")`, written as a JSON string. A finite decimal is a sign, a
coefficient and an exponent; normalizing rounds it to the default context and strips the
trailing zeros of its coefficient. The sign of a zero stays.
-/

namespace Goodmoneying.Program

open Library

/-- A finite `Decimal`; `sign` is set where it is negative. -/
structure FiniteDecimal where
  sign : Bool
  coefficient : ℕ
  exponent : ℤ
  deriving DecidableEq, Repr

variable (d : FiniteDecimal)

namespace FiniteDecimal

/-- The absolute value. -/
def magnitude : ℚ := d.coefficient * 10 ^ d.exponent

/-- The number a decimal stands for. -/
def value : ℚ := if d.sign then -d.magnitude else d.magnitude

end FiniteDecimal

/-- The signals of a decimal context that are raised. -/
inductive DecimalSignal where
  | overflow
  deriving DecidableEq, Repr

namespace DefaultContext

/-- `prec`, `Emax` and `Emin` of the default context. -/
def precision : ℕ := 28
def emax : ℤ := 999999
def emin : ℤ := -999999

/-- The greatest exponent of a full coefficient. -/
def etop : ℤ := emax - precision + 1

/-- The least exponent of a result. -/
def etiny : ℤ := emin - precision + 1

/-- The number of digits of a coefficient. -/
def digitCount (coefficient : ℕ) : ℕ := Nat.log 10 coefficient + 1

/-- A coefficient without its last `dropped` digits, `ROUND_HALF_EVEN`. -/
def roundHalfEven (coefficient dropped : ℕ) : ℕ :=
  let quotient := coefficient / 10 ^ dropped
  let rest := coefficient % 10 ^ dropped
  if 2 * rest < 10 ^ dropped then quotient
  else if 10 ^ dropped < 2 * rest then quotient + 1
  else if quotient % 2 = 0 then quotient
  else quotient + 1

/-- A decimal that is not zero, rounded to the context. -/
def fix : Except DecimalSignal FiniteDecimal :=
  let leading := digitCount d.coefficient + d.exponent - precision
  if etop < leading then .error .overflow
  else
    let expMin := max leading etiny
    if d.exponent < expMin then
      let coefficient := roundHalfEven d.coefficient (expMin - d.exponent).toNat
      if digitCount coefficient ≤ precision then .ok ⟨d.sign, coefficient, expMin⟩
      -- Rounding up gave one more digit.
      else if etop < expMin + 1 then .error .overflow
      else .ok ⟨d.sign, coefficient / 10, expMin + 1⟩
    else .ok d

/-- A coefficient without its trailing zeros, at most `count` of them. -/
def stripZeros : ℕ → ℕ → ℤ → ℕ × ℤ
  | 0, coefficient, exponent => (coefficient, exponent)
  | count + 1, coefficient, exponent =>
    if coefficient % 10 = 0 then stripZeros count (coefficient / 10) (exponent + 1)
    else (coefficient, exponent)

/-- `Decimal.normalize`. -/
def normalize : Except DecimalSignal FiniteDecimal :=
  if d.coefficient = 0 then .ok ⟨d.sign, 0, 0⟩
  else do
    let fixed ← fix d
    if fixed.coefficient = 0 then pure ⟨d.sign, 0, 0⟩
    else
      let (coefficient, exponent) :=
        stripZeros (digitCount fixed.coefficient) fixed.coefficient fixed.exponent
      pure ⟨d.sign, coefficient, exponent⟩

end DefaultContext

/-- The digits of a decimal without its sign, and without an exponent. -/
def fixedText : List Char :=
  if d.exponent < 0 then
    let places := (-d.exponent).toNat
    Nat.toDigits 10 (d.coefficient / 10 ^ places) ++
      '.' :: fixedDigits places (d.coefficient % 10 ^ places)
  else Nat.toDigits 10 (d.coefficient * 10 ^ d.exponent.toNat)

/-- `format(d, "f")` of a normalized decimal. -/
def formatFixed : List Char :=
  (if d.sign then ['-'] else []) ++ fixedText d

/-- `_canonical_value` of a decimal. -/
def canonicalFiniteDecimal : Except DecimalSignal JsonValue := do
  let normalized ← DefaultContext.normalize d
  pure (.text (.ofList (formatFixed normalized)))

/-- `canonical_json_bytes` of a payload with a decimal in it: `context` is what the rest of the
payload is as a JSON value. -/
def decimalJsonBytes (context : JsonContext) (d : FiniteDecimal) :
    Except DecimalSignal (List ℕ) := do
  let json ← canonicalFiniteDecimal d
  pure (canonicalJsonBytes (context.fill json))

end Goodmoneying.Program
