import Goodmoneying.Program.Aggregation

/-!
# Expected bucket counts

`_expected_bucket_count` of `dataset_version_store.py`: how many buckets of a unit a range of
time should hold, as the difference of two ceilings on the grid of the unit. The grids are
anchored at the beginning and at the first Monday of 1970; months are counted by their number.
-/

namespace Goodmoneying.Program.Aggregation

open Library
open Goodmoneying.Program.VersionedIndicators (minutes)

/-- `datetime(year, month, day, tzinfo=UTC)`, in microseconds since the calendar began. -/
def midnightOf (year month day : ℕ) : ℤ :=
  days (daysBeforeYear year + daysBeforeMonth year month + (day - 1) : ℕ)

/-- `_fixed_grid_ceiling`. -/
def fixedGridCeiling (value : UtcTime) (anchor step : ℤ) : ℤ :=
  let quotient := (value.microseconds - anchor) / step
  let remainder := (value.microseconds - anchor) % step
  if remainder = 0 then quotient else quotient + 1

/-- `_month_grid_ceiling`. -/
def monthGridCeiling (value : UtcTime) : ℤ :=
  let monthIndex : ℤ := yearOf value.day * 12 + monthOfDay value.day - 1
  if value = value.firstOfMonth then monthIndex else monthIndex + 1

/-- `minutes` of `_expected_bucket_count`. -/
def gridMinutes : List (String × ℤ) :=
  [("1m", 1), ("3m", 3), ("5m", 5), ("10m", 10), ("15m", 15), ("30m", 30), ("1h", 60),
    ("4h", 240), ("1d", 1440)]

/-- `_expected_bucket_count`. -/
def expectedBucketCount (startAt endAt : UtcTime) (unit : String) : Except PythonError ℤ :=
  if unit = "1M" then .ok (max 0 (monthGridCeiling endAt - monthGridCeiling startAt))
  else if unit = "1w" then
    let anchor := midnightOf 1970 1 5
    .ok (max 0 (fixedGridCeiling endAt anchor (days 7) -
      fixedGridCeiling startAt anchor (days 7)))
  else
    match gridMinutes.lookup unit with
    | none => .error .keyError
    | some size =>
      let anchor := midnightOf 1970 1 1
      .ok (max 0 (fixedGridCeiling endAt anchor (minutes size) -
        fixedGridCeiling startAt anchor (minutes size)))

end Goodmoneying.Program.Aggregation
