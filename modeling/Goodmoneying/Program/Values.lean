import Goodmoneying.Library.DecimalRounding

/-!
# Values of the program: times, decimals, payloads

A time is the number of microseconds since `0001-01-01T00:00:00Z`, the resolution of
Python's `datetime` and of a `TIMESTAMPTZ` column; all times of the program are UTC.

A `Decimal` is taken by its value, a rational. Every operation of a decimal context is
the exact result rounded once, so an arithmetic is given by its rounding. The exponent
range of a context (about a million digits either way) and the sign of zero are not
modelled; non-finite values never reach the functions modelled here. The second half of
an arithmetic is what a `NUMERIC(38,18)` column keeps of a value.
-/

namespace Goodmoneying.Program

open Library

/-- Microseconds since `0001-01-01T00:00:00Z`. -/
abbrev Instant := ℤ

/-- `value + timedelta(seconds=seconds)`. -/
def Instant.addSeconds (value : Instant) (seconds : ℤ) : Instant := value + seconds * 1000000

/-- `CanonicalValue` of `dataset_versions.py`: what a payload hash is computed of. -/
inductive CanonicalValue where
  | null
  | bool (value : Bool)
  | int (value : ℤ)
  | text (value : String)
  | decimal (value : ℚ)
  | datetime (value : Instant)
  | list (items : List CanonicalValue)
  | mapping (entries : List (String × CanonicalValue))

/-- `BacktestSide`, and the side of order intents and fills. -/
inductive Side where
  | buy | sell
  deriving DecidableEq, Repr

/-- The text the side is written as. -/
def Side.text : Side → String
  | buy => "buy"
  | sell => "sell"

/-- The rounding of a decimal context, and the storage of a `NUMERIC(38,18)` column,
which refuses a value with more than 20 integer digits. -/
structure Arithmetic where
  context : ℚ → ℚ
  column : ℚ → Option ℚ

namespace Arithmetic

/-- Arithmetic without rounding, neither in the context nor in the columns. -/
def exact : Arithmetic where
  context := id
  column := some

/-- A context of `precision` digits, ties to even, over `NUMERIC(38,18)` columns. -/
def decimal (precision : ℕ) : Arithmetic where
  context := roundSignificant precision
  column := numericColumn 38 18

/-- Python's default decimal context. -/
abbrev default : Arithmetic := .decimal 28

variable (ar : Arithmetic)

/-- `x + y` in the context. -/
def add (x y : ℚ) : ℚ := ar.context (x + y)

/-- `x - y` in the context. -/
def sub (x y : ℚ) : ℚ := ar.context (x - y)

/-- `x * y` in the context. -/
def mul (x y : ℚ) : ℚ := ar.context (x * y)

/-- `x / y` in the context, for `y ≠ 0`. -/
def div (x y : ℚ) : ℚ := ar.context (x / y)

/-- `sum(values, Decimal("0"))` in the context. -/
def sum (values : List ℚ) : ℚ := values.foldl ar.add 0

@[simp] theorem exact_add (x y : ℚ) : exact.add x y = x + y := rfl
@[simp] theorem exact_sub (x y : ℚ) : exact.sub x y = x - y := rfl
@[simp] theorem exact_mul (x y : ℚ) : exact.mul x y = x * y := rfl
@[simp] theorem exact_div (x y : ℚ) : exact.div x y = x / y := rfl
end Arithmetic

end Goodmoneying.Program
