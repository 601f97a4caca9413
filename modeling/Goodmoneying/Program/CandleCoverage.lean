import Goodmoneying.Library.DoubleRounding
import Goodmoneying.Program.RealtimeSessions
import Goodmoneying.Program.UtcTimes

/-!
# Coverage of the source candles

The two computations of an instrument's coverage status in `postgres_repository.py`.
`_source_candle_coverage_status` scans the 1m candles of the plan's range for gaps;
`_source_candle_coverage_status_from_summary`, which the dashboard uses, has a number of rows
and the first and the last 1m candle only.

A candle begins more than a minute before the end of the calendar and the clock is past the
first year, so that no sum or difference of times leaves the calendar. The number of an
instrument's rows has at most nineteen digits: the percentage with two decimals always fits
the 28 digits of the decimal context, and `quantize` raises nothing.
-/

namespace Goodmoneying.Program

open Library

/-! ## Stored candles -/

/-- The units that the `CHECK` of `source_candles` admits. -/
inductive SourceUnit where
  | oneMinute | oneDay
  deriving DecidableEq

/-- What of a row of `source_candles` is read. -/
structure StoredCandle where
  instrumentId : ℤ
  candleUnit : SourceUnit
  candleStartAt : UtcTime
  deriving DecidableEq

/-- The columns of `source_candles_uk`; every source is Upbit. -/
def StoredCandle.key (row : StoredCandle) : ℤ × SourceUnit × UtcTime :=
  (row.instrumentId, row.candleUnit, row.candleStartAt)

/-- The time as a number of microseconds. -/
def UtcTime.instant (t : UtcTime) : Instant := t.microseconds

/-- `source_candles`: the 1m candles begin on whole minutes. -/
structure SourceCandleTable extends KeyedTable StoredCandle.key where
  aligned : ∀ row ∈ rows, row.candleUnit = .oneMinute → minute ∣ row.candleStartAt.instant

namespace SourceCandleTable

variable (table : SourceCandleTable) (instrumentId : ℤ)

/-- `_table_counts_by_instrument` of `source_candles`: rows of both units. -/
def tableCount : ℕ := (table.rows.filter fun row => row.instrumentId = instrumentId).length

/-- The starts of the 1m candles of the instrument. -/
def minuteCandles : List Instant :=
  (table.rows.filter fun row =>
    row.instrumentId = instrumentId ∧ row.candleUnit = .oneMinute).map fun row =>
      row.candleStartAt.instant

/-- `_source_candle_ranges_by_instrument`. -/
def candleRange : Option Instant × Option Instant :=
  ((table.minuteCandles instrumentId).min?, (table.minuteCandles instrumentId).max?)

/-- The 1m candles that begin in the range, in order: the common table of the query. -/
def orderedCandles (startAt endAt : Instant) : List Instant :=
  sortedBy id ((table.minuteCandles instrumentId).filter fun t => startAt ≤ t ∧ t < endAt)

end SourceCandleTable

/-- `gap_count`: the starts more than a minute after the start before, which `lag` gives. -/
def gapCount : Option Instant → List Instant → ℕ
  | _, [] => 0
  | previous, start :: rest =>
    (if ∃ p ∈ previous, p + minute < start then 1 else 0) + gapCount (some start) rest

/-- `_source_candle_coverage_summary`: the number of candles, of missing segments, and the
last candle. -/
def sourceCandleCoverageSummary (table : SourceCandleTable) (instrumentId : ℤ)
    (startAt endAt : Instant) : ℕ × ℕ × Option Instant :=
  let ordered := table.orderedCandles instrumentId startAt endAt
  match ordered.min?, ordered.max? with
  | some first, some latest =>
    (ordered.length,
      gapCount none ordered + (if startAt < first then 1 else 0) +
        (if latest + minute < endAt then 1 else 0),
      some latest)
  | _, _ => (0, 1, none)

/-! ## Statuses -/

/-- What of `CollectionPlan` is read. -/
structure CollectionPlan where
  rangeStartAt : UtcTime
  rangeEndAt : Option UtcTime

inductive CoverageLevel where
  | normal | warning | incident
  deriving DecidableEq

structure CoverageStatus where
  instrumentId : ℤ
  dataType : String
  status : CoverageLevel
  progressPercent : ℚ
  lastSuccessfulAt : Instant
  missingSegmentCount : ℕ
  deriving DecidableEq

/-- `_coverage_range_end`. -/
def coverageRangeEnd (plan : CollectionPlan) (now : UtcTime) : Instant :=
  match plan.rangeEndAt with
  | some rangeEndAt => rangeEndAt.instant
  | none => minuteBucket now.instant

/-- `total_seconds()` of a `timedelta`, which is a float. -/
def totalSeconds (delta : ℤ) : ℚ := roundDouble (delta / 1000000)

/-- `_expected_minutes`. -/
def expectedMinutes (startAt endAt : Instant) : ℕ :=
  (max 1 ⌊totalSeconds (endAt - startAt) / 60⌋).toNat

/-- `progress`: `quantize(Decimal("0.01"))` of a percentage. -/
def progressPercent (storedCount expected : ℕ) : ℚ :=
  (nearestEven (100 * Arithmetic.default.div (Arithmetic.default.mul storedCount 100) expected) : ℚ)
    / 100

/-- `timedelta(days=365)`. -/
def yearOfDays : ℤ := 365 * dayMicroseconds

/-- `_source_candle_coverage_status`. -/
def sourceCandleCoverageStatus (table : SourceCandleTable) (instrumentId : ℤ)
    (plan : CollectionPlan) (now : UtcTime) : CoverageStatus :=
  let startAt := plan.rangeStartAt.instant
  let rangeEnd := coverageRangeEnd plan now
  let expected := expectedMinutes startAt rangeEnd
  let (storedCount, missingSegments, latestAt) :=
    sourceCandleCoverageSummary table instrumentId startAt rangeEnd
  let progress := progressPercent storedCount expected
  let (status, lastSuccessfulAt) := match latestAt with
    | none => (CoverageLevel.incident, now.instant - yearOfDays)
    | some latest =>
      (if missingSegments = 0 ∧ progress = 100 then .normal else .warning, latest)
  { instrumentId := instrumentId
    dataType := "source_candle"
    status := status
    progressPercent := progress
    lastSuccessfulAt := lastSuccessfulAt
    missingSegmentCount := missingSegments }

/-- The missing segments that a number of rows and the ends of the 1m candles tell of. -/
def summaryMissingSegments (storedCount expected : ℕ) (startAt endAt : Instant)
    (first : Option Instant) (latest : Instant) : ℕ :=
  let ends := (if ∃ f ∈ first, startAt < f then 1 else 0) +
    (if latest + minute < endAt then 1 else 0)
  if storedCount < expected ∧ ends = 0 then 1 else ends

/-- `_source_candle_coverage_status_from_summary`. -/
def sourceCandleCoverageStatusFromSummary (instrumentId : ℤ) (plan : CollectionPlan)
    (storedCount : ℕ) (range : Option Instant × Option Instant) (now : UtcTime) :
    CoverageStatus :=
  let startAt := plan.rangeStartAt.instant
  let rangeEnd := coverageRangeEnd plan now
  let expected := expectedMinutes startAt rangeEnd
  let progress := progressPercent storedCount expected
  match range.2 with
  | none =>
    { instrumentId := instrumentId
      dataType := "source_candle"
      status := .incident
      progressPercent := 0
      lastSuccessfulAt := now.instant - yearOfDays
      missingSegmentCount := 1 }
  | some latest =>
    let missingSegments :=
      summaryMissingSegments storedCount expected startAt rangeEnd range.1 latest
    { instrumentId := instrumentId
      dataType := "source_candle"
      status := if missingSegments = 0 ∧ progress = 100 then .normal else .warning
      progressPercent := progress
      lastSuccessfulAt := latest
      missingSegmentCount := missingSegments }

/-- The status of a target of `collection_dashboard_targets`: from the number of all rows of
the instrument and the range of its 1m candles. -/
def dashboardCoverageStatus (table : SourceCandleTable) (instrumentId : ℤ)
    (plan : CollectionPlan) (now : UtcTime) : CoverageStatus :=
  sourceCandleCoverageStatusFromSummary instrumentId plan (table.tableCount instrumentId)
    (table.candleRange instrumentId) now

end Goodmoneying.Program
