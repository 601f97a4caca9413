import Goodmoneying.Library.Tiling
import Goodmoneying.Program.CandleCoverage
import Goodmoneying.Program.DeadLetters

/-!
# What one page of candles is evidence of

The starts of the candles of a page say which ranges of time the source has rows for
(`_contiguous_candle_ranges` of `postgres_repository.py`) and, between two rows of a successful
page, for which ranges it has none (`internal_minute_candle_gaps` of `data_foundation.py`). The
first ranges become available coverage, the second ones, with `_record_confirmed_no_trade_gaps`,
coverage without trades.

A `UtcTime` is what `_require_utc` admits. How an item of the payload of a response is read
(`datetime.fromisoformat` of one of two entries) is a parameter, as is the clock of the calls of
`replace_coverage_with_classification`.
-/

namespace Goodmoneying.Program.PageEvidence

open Library
open Goodmoneying.Program.Aggregation (days)
open Goodmoneying.Program.Backfill (classifyCoverage)
open Goodmoneying.Program.VersionedIndicators (minutes)

/-! ## Ranges of rows -/

/-- A range of candles that follow each other, and their number. -/
structure CandleRange where
  rangeStartAt : UtcTime
  rangeEndAt : UtcTime
  rowCount : ℕ

def CandleRange.interval (range : CandleRange) : UtcTime × UtcTime :=
  (range.rangeStartAt, range.rangeEndAt)

/-- `_candle_interval`. -/
def candleInterval (candleUnit : String) : ℤ := if candleUnit = "1m" then minutes 1 else days 1

/-- The loop of `_contiguous_candle_ranges` over the later starts, and the range after it. -/
def contiguousFrom (interval : ℤ) (rangeStart previous : UtcTime) (rowCount : ℕ) :
    List UtcTime → Except PythonError (List CandleRange)
  | [] => do
    let rangeEnd ← previous.addTimedelta interval
    pure [⟨rangeStart, rangeEnd, rowCount⟩]
  | current :: starts => do
    let following ← previous.addTimedelta interval
    if current = following then contiguousFrom interval rangeStart current (rowCount + 1) starts
    else do
      let ranges ← contiguousFrom interval current current 1 starts
      pure (⟨rangeStart, following, rowCount⟩ :: ranges)

/-- `_contiguous_candle_ranges`. -/
def contiguousCandleRanges (starts : List UtcTime) (candleUnit : String) :
    Except PythonError (List CandleRange) :=
  match sortedBy id starts.dedup with
  | [] => pure []
  | first :: later => contiguousFrom (candleInterval candleUnit) first first 1 later

/-! ## Ranges without rows -/

/-- The loop of `internal_minute_candle_gaps` over the pairs of neighbours. -/
def minuteGaps : List (UtcTime × UtcTime) → Except PythonError (List (UtcTime × UtcTime))
  | [] => pure []
  | (previous, following) :: neighbours => do
    let gapStart ← previous.addTimedelta (minutes 1)
    let gaps ← minuteGaps neighbours
    pure (if gapStart < following then (gapStart, following) :: gaps else gaps)

/-- `bounded_starts`. -/
def boundedStarts (requestedStartAt requestedEndAt : UtcTime) (candleStarts : List UtcTime) :
    List UtcTime :=
  sortedBy id (candleStarts.filter fun startedAt =>
    requestedStartAt ≤ startedAt ∧ startedAt < requestedEndAt).dedup

/-- `internal_minute_candle_gaps`. -/
def internalMinuteCandleGaps (requestedStartAt requestedEndAt : UtcTime)
    (candleStarts : List UtcTime) : Except PythonError (List (UtcTime × UtcTime)) :=
  if requestedStartAt ≥ requestedEndAt then
    .error (.valueError "분 캔들 요청 종료 시각은 시작 시각보다 뒤여야 한다.")
  else minuteGaps (pieces (boundedStarts requestedStartAt requestedEndAt candleStarts))

/-! ## The coverage that they give -/

/-- What `_replace_coverage_with_observed` gives `replace_coverage_with_classification` for a range
of the candles that `_upsert_candles` has stored. -/
def observedCall (targetSpecId manifestId : ℤ) (candleUnit : String)
    (clock : UtcTime × UtcTime → Instant) (range : CandleRange) : CoverageCall where
  targetSpecId := targetSpecId
  rangeStartAt := range.rangeStartAt.instant
  rangeEndAt := range.rangeEndAt.instant
  status := classifyCoverage { sourceRowCount := 1, manifestChecksum := some (toString manifestId) }
  reasonCode := "source_row_observed"
  manifestId := some manifestId
  evidence := [
    ("classification", .text "source_natural_key_with_checksum_manifest"),
    ("naturalKey", .mapping [
      ("candleUnit", .text candleUnit),
      ("firstCandleStartAt", .datetime range.rangeStartAt.instant),
      ("lastCandleStartAt", .datetime (range.rangeEndAt.instant - candleInterval candleUnit)),
      ("rowCount", .int range.rowCount)]),
    ("responseChecksumVerified", .bool true)]
  assessedAt := clock range.interval

/-- The loop of `_upsert_candles` over the ranges of the stored starts of a target and unit. -/
def recordObservedRanges (checksum : CanonicalValue → String) (sha256 : String → String)
    (targetSpecId manifestId : ℤ) (candleUnit : String) (clock : UtcTime × UtcTime → Instant)
    (starts : List UtcTime) (db : CoverageTables) : Except CoverageException CoverageTables := do
  let ranges ← (contiguousCandleRanges starts candleUnit).mapError .python
  (ranges.map (observedCall targetSpecId manifestId candleUnit clock)).foldlM
    (replaceCoverageWithClassification checksum sha256) db

/-- What is read of a `FetchEvidence`; a payload that is no list is `none`. -/
structure FetchEvidence (Item : Type) where
  responseStatus : Option ℤ
  responsePayload : Option (List Item)
  requestedRangeStartAt : Option UtcTime
  requestedRangeEndAt : Option UtcTime

/-- What `_record_confirmed_no_trade_gaps` gives `replace_coverage_with_classification` for a
gap. -/
def noTradeCall (targetSpecId manifestId : ℤ) (requestedStartAt requestedEndAt : UtcTime)
    (clock : UtcTime × UtcTime → Instant) (gap : UtcTime × UtcTime) : CoverageCall where
  targetSpecId := targetSpecId
  rangeStartAt := gap.1.instant
  rangeEndAt := gap.2.instant
  status := classifyCoverage { requestSucceeded := true, noTradeCorroborated := true }
  reasonCode := "upbit_minute_candle_internal_gap"
  manifestId := some manifestId
  evidence := [
    ("classification", .text "fully_bounded_successful_upbit_minute_page_gap"),
    ("requestedRangeStartAt", .datetime requestedStartAt.instant),
    ("requestedRangeEndAt", .datetime requestedEndAt.instant)]
  assessedAt := clock gap

/-- The calls of `_record_confirmed_no_trade_gaps`; `startedAt` reads the start of an item of the
payload, or passes the item over. -/
def confirmedNoTradeCalls {Item : Type} (startedAt : Item → Except PythonError (Option UtcTime))
    (targetSpecId manifestId : ℤ) (clock : UtcTime × UtcTime → Instant)
    (evidence : FetchEvidence Item) : Except PythonError (List CoverageCall) :=
  match evidence.responseStatus, evidence.requestedRangeStartAt, evidence.requestedRangeEndAt,
    evidence.responsePayload with
  | some 200, some requestedStartAt, some requestedEndAt, some payload => do
    let candleStarts ← payload.mapM startedAt
    let gaps ← internalMinuteCandleGaps requestedStartAt requestedEndAt candleStarts.reduceOption
    pure (gaps.map (noTradeCall targetSpecId manifestId requestedStartAt requestedEndAt clock))
  | _, _, _, _ => pure []

/-- `_record_confirmed_no_trade_gaps`: the gaps are all known before the first call. -/
def recordConfirmedNoTradeGaps {Item : Type}
    (startedAt : Item → Except PythonError (Option UtcTime)) (checksum : CanonicalValue → String)
    (sha256 : String → String) (targetSpecId manifestId : ℤ)
    (clock : UtcTime × UtcTime → Instant) (evidence : FetchEvidence Item) (db : CoverageTables) :
    Except CoverageException CoverageTables := do
  let calls ← (confirmedNoTradeCalls startedAt targetSpecId manifestId clock
    evidence).mapError .python
  calls.foldlM (replaceCoverageWithClassification checksum sha256) db

end Goodmoneying.Program.PageEvidence
