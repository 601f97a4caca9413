import Goodmoneying.Library.SeriesPages
import Goodmoneying.Program.CandleLedger

/-!
# Pages of candles

`candle_page` of `postgres_repository.py`: a page of the candles of an instrument. Candles of a
minute are rows of `source_candles`. Those of any other unit are derived of such rows, of no more
than the page can need, and the rollups that are stored replace what is derived of their buckets.

The tables hold the rows of one instrument; `source_candles` has one source. A source candle is
what `_candle` reads of its row, with the revision that the query joins. `sha256` stands for the
hexadecimal digest of a text.
-/

namespace Goodmoneying.Program.CandleSeries

open Library
open Program.Aggregation
open Goodmoneying.Program.CandleLedger (CandleValues sourceCandleContentHash)
open Goodmoneying.Program.VersionedIndicators (CandleQuality Completeness minutes)

/-! ## Data -/

/-- `CandleView`, with what only a rollup has. -/
structure PageCandle extends CandleView where
  calculationVersion : String := Aggregation.calculationVersion
  rollupId : Option ℤ := none
  qualityEventThroughId : Option ℤ := none
  coverageSnapshotHash : String := ""

/-- A row of `candle_rollups`. -/
structure RollupRow where
  id : ℤ
  candleUnit : String
  candleStartAt : UtcTime
  openPrice : ℚ
  highPrice : ℚ
  lowPrice : ℚ
  closePrice : ℚ
  tradeVolume : ℚ
  tradeAmount : ℚ
  completeness : Completeness
  calculationVersion : String
  sourceAsOf : UtcTime
  knowledgeAt : UtcTime
  inputContentHash : String
  inputRevisionIds : List ℤ
  quality : CandleQuality
  sourceRevisionThroughId : ℤ
  qualityEventThroughId : Option ℤ
  coverageSnapshotHash : String

/-- The candles and the rollups of an instrument. -/
structure CandleTables where
  sourceCandles : List SourceCandle
  rollups : List RollupRow

/-- `_rollup_candle`. -/
def rollupCandle (row : RollupRow) : PageCandle where
  startedAt := row.candleStartAt
  open_ := row.openPrice
  high := row.highPrice
  low := row.lowPrice
  close := row.closePrice
  volume := row.tradeVolume
  tradeAmount := row.tradeAmount
  completeness := row.completeness
  calculationVersion := row.calculationVersion
  sourceAsOf := some row.sourceAsOf
  knowledgeAt := some row.knowledgeAt
  inputContentHash := row.inputContentHash
  quality := row.quality
  inputRevisionIds := row.inputRevisionIds
  rollupId := some row.id
  sourceRevisionThroughId := row.sourceRevisionThroughId
  qualityEventThroughId := row.qualityEventThroughId
  coverageSnapshotHash := row.coverageSnapshotHash

/-! ## Limits -/

/-- `rows_per_output` of `_source_page_limit`. -/
def rowsPerOutput : List (String × ℕ) :=
  [("3m", 3), ("5m", 5), ("10m", 10), ("15m", 15), ("30m", 30), ("1h", 60), ("4h", 240),
    ("1d", 24 * 60), ("1w", 7 * 24 * 60), ("1M", 31 * 24 * 60)]

/-- `_source_page_limit`. -/
def sourcePageLimit (unit : String) (pageSize : ℕ) (sourceUnit : String) :
    Except PythonError ℕ :=
  if sourceUnit = "1d" then .ok (pageSize + 1)
  else
    match rowsPerOutput.lookup unit with
    | some rows => .ok (pageSize * rows + 1)
    | none => .error .keyError

/-- `minutes` of `_next_candle_bucket_start`. -/
def bucketMinutes : List (String × ℤ) :=
  [("3m", 3), ("5m", 5), ("10m", 10), ("15m", 15), ("30m", 30), ("1h", 60), ("4h", 240)]

/-- `_next_candle_bucket_start`. -/
def nextCandleBucketStart (startedAt : UtcTime) (unit : String) : Except PythonError UtcTime :=
  if unit = "1M" then
    if monthOfDay startedAt.day = 12 then startedAt.replace (yearOf startedAt.day + 1) 1
    else startedAt.replace (yearOf startedAt.day) (monthOfDay startedAt.day + 1)
  else if unit = "1w" then startedAt.addTimedelta (days 7)
  else if unit = "1d" then startedAt.addTimedelta (days 1)
  else
    match bucketMinutes.lookup unit with
    | some count => startedAt.addTimedelta (minutes count)
    | none => .error .keyError

/-! ## Queries -/

/-- `candle_start_at {comparator} lower_bound`. -/
def fromBound (cursor : Option UtcTime) (lowerBound t : UtcTime) : Bool :=
  match cursor with
  | some _ => lowerBound < t
  | none => lowerBound ≤ t

/-- The order of `projection_rank`: `source_revision_through_id DESC, quality_event_through_id DESC
NULLS LAST, knowledge_at DESC, id DESC`. -/
def projectionOrder (row : RollupRow) : ℤ ×ₗ WithTop ℤ ×ₗ ℤ ×ₗ ℤ :=
  toLex (-row.sourceRevisionThroughId,
    toLex (row.qualityEventThroughId.elim ⊤ fun id => ((-id : ℤ) : WithTop ℤ),
      toLex (-(row.knowledgeAt.microseconds : ℤ), -row.id)))

/-- The rollups that the query projects: of every start the one of `projection_rank` 1. -/
def projectedRollups (db : CandleTables) (unit : String) (p : UtcTime → Bool) : List RollupRow :=
  sortedBy RollupRow.candleStartAt (distinctOn RollupRow.candleStartAt
    (sortedBy projectionOrder (db.rollups.filter fun row =>
      row.candleUnit = unit ∧ row.calculationVersion = calculationVersion ∧
        p row.candleStartAt)))

/-- `source_filter`: days and longer units take the candles of days, and those of minutes on the
days that have no candle. -/
def sourceFilter (db : CandleTables) (unit : String) (candle : SourceCandle) : Bool :=
  if unit ∈ ["1d", "1w", "1M"] then
    candle.candleUnit = "1d" ∨ candle.candleUnit = "1m" ∧
      ¬ ∃ daily ∈ db.sourceCandles, daily.candleUnit = "1d" ∧
        daily.candleStartAt = midnight candle.candleStartAt
  else candle.candleUnit = "1m"

/-- The source rows of a range, in the order of time. -/
def sourceRows (db : CandleTables) (unit : String) (startAt endAt : UtcTime) : List SourceCandle :=
  sortedBy SourceCandle.candleStartAt (db.sourceCandles.filter fun candle =>
    sourceFilter db unit candle ∧ startAt ≤ candle.candleStartAt ∧ candle.candleStartAt < endAt)

/-! ## Pages -/

section Pages

variable (ar : Arithmetic) (sha256 : String → String)

/-- `_candle_view`. -/
def candleView (item : SourceCandle) : PageCandle where
  startedAt := item.candleStartAt
  open_ := item.openPrice
  high := item.highPrice
  low := item.lowPrice
  close := item.closePrice
  volume := item.tradeVolume
  tradeAmount := item.tradeAmount
  completeness := .complete
  sourceAsOf := some item.collectedAt
  knowledgeAt := some (item.knowledgeAt.getD item.collectedAt)
  inputContentHash := (Item.source item).inputContentHash.getD
    (sourceCandleContentHash ar sha256 ⟨item.openPrice, item.highPrice, item.lowPrice,
      item.closePrice, item.tradeVolume, item.tradeAmount⟩)
  inputRevisionIds := item.revisionId.toList
  sourceRevisionThroughId := item.revisionId.getD 0

/-- The candles that the source rows give. -/
def derivedCandles (unit : String) (rows : List SourceCandle) :
    Except PythonError (List PageCandle) := do
  let views ← aggregateCandles ar sha256 unit rows []
  pure (views.map fun view => { toCandleView := view })

/-- `candles_by_start`. -/
def candlesByStart (derived materialized : List PageCandle) : List (UtcTime × PageCandle) :=
  setItems (setItems [] (derived.map fun item => (item.startedAt, item)))
    (materialized.map fun item => (item.startedAt, item))

/-- `page` and `next_cursor` of the candles read. -/
def pageOfCandles (pageSize : ℕ) (sourceLimitHit : Bool) (candles : List PageCandle) :
    Page PageCandle UtcTime where
  items := candles.take pageSize
  nextCursor :=
    if pageSize < candles.length ∨ sourceLimitHit = true then
      ((candles.take pageSize).map fun item => item.startedAt).getLast?
    else none

/-- `candle_page`. -/
def candlePage (db : CandleTables) (unit : String) (startAt endAt : UtcTime) (pageSize : ℕ)
    (cursor : Option UtcTime) : Except PythonError (Page PageCandle UtcTime) :=
  let lowerBound := cursor.elim startAt (max startAt)
  if unit = "1m" then
    let rows := (sortedBy SourceCandle.candleStartAt (db.sourceCandles.filter fun candle =>
      candle.candleUnit = "1m" ∧ fromBound cursor lowerBound candle.candleStartAt ∧
        candle.candleStartAt < endAt)).take (pageSize + 1)
    pure (pageOfCandles pageSize false (rows.map (candleView ar sha256)))
  else do
    let materialized := ((projectedRollups db unit fun t =>
      fromBound cursor lowerBound t && t < endAt).take (pageSize + 1)).map rollupCandle
    let sourceLowerBound ← cursor.elim (pure startAt) fun c => nextCandleBucketStart c unit
    let sourceLimit ← sourcePageLimit unit pageSize "1m"
    let rows := (sourceRows db unit sourceLowerBound endAt).take sourceLimit
    let derived ← derivedCandles ar sha256 unit rows
    let candles := ((sortedBy Prod.fst (candlesByStart derived materialized)).filter fun entry =>
      entry.1 < endAt ∧ fromBound cursor lowerBound entry.1).map Prod.snd
    pure (pageOfCandles pageSize (rows.length = sourceLimit) candles)

end Pages

end Goodmoneying.Program.CandleSeries
