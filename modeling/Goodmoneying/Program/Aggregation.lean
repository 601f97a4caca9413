import Goodmoneying.Library.Grouping
import Goodmoneying.Program.UtcTimes
import Goodmoneying.Program.VersionedIndicators

/-!
# Aggregation of candles

`aggregation.py`: candles of a minute or a day are grouped by the bucket that their start
lies in, and every bucket gives one candle. Weeks and months are aggregated from the daily
candles. A bucket is complete when every slot of it is taken, or when every other slot is
known to be without trade.

Times are read in UTC, so the conversions to UTC are left out; an error of the calendar (its
last slots end after year 9999) is kept. `sha256` stands for the hexadecimal digest of a text.
-/

namespace Goodmoneying.Program.Aggregation

open Library
open Goodmoneying.Program.VersionedIndicators (CandleQuality Completeness jsonMapping jsonText minutes)

/-! ## Data -/

/-- `CoverageQuality`: the values of `CandleView.quality`. -/
abbrev CoverageQuality := CandleQuality

structure CoverageSlice where
  startAt : UtcTime
  endAt : UtcTime
  status : CoverageQuality

/-- `SourceCandle`, without the instrument. -/
structure SourceCandle where
  candleUnit : String
  candleStartAt : UtcTime
  openPrice : ℚ
  highPrice : ℚ
  lowPrice : ℚ
  closePrice : ℚ
  tradeVolume : ℚ
  tradeAmount : ℚ
  collectedAt : UtcTime
  revisionId : Option ℤ := none
  inputContentHash : Option String := none
  knowledgeAt : Option UtcTime := none

structure CandleView where
  startedAt : UtcTime
  open_ : ℚ
  high : ℚ
  low : ℚ
  close : ℚ
  volume : ℚ
  tradeAmount : ℚ
  completeness : Completeness
  sourceAsOf : Option UtcTime := none
  knowledgeAt : Option UtcTime := none
  inputContentHash : String := ""
  quality : CandleQuality := .available
  inputRevisionIds : List ℤ := []
  sourceRevisionThroughId : ℤ := 0

/-- `SourceCandle | CandleView`. -/
inductive Item where
  | source (candle : SourceCandle)
  | view (candle : CandleView)

/-- `AGGREGATION_UNITS`. -/
def aggregationUnits : List String :=
  ["1m", "3m", "5m", "10m", "15m", "30m", "1h", "4h", "1d", "1w", "1M"]

/-- `MATERIALIZED_AGGREGATION_UNITS`. -/
def materializedAggregationUnits : List String := aggregationUnits.drop 1

/-- `CALCULATION_VERSION`. -/
def calculationVersion : String := "candle-rollup-v2"

/-! ## Buckets -/

/-- `timedelta(days=n)`, in microseconds. -/
def days (n : ℤ) : ℤ := n * (dayMicroseconds : ℕ)

/-- The units that divide an hour, in minutes. -/
def hourUnits : List (String × ℕ) :=
  [("1m", 1), ("3m", 3), ("5m", 5), ("10m", 10), ("15m", 15), ("30m", 30), ("1h", 60)]

/-- `t.replace(hour=0, minute=0, second=0, microsecond=0)`. -/
def midnight (t : UtcTime) : UtcTime := t.replaceClock 0 0

/-- `(t - timedelta(days=t.weekday())).replace(hour=0, minute=0, second=0, microsecond=0)`. -/
def weekStart (t : UtcTime) : Except PythonError UtcTime := do
  let monday ← t.addTimedelta (days (-t.weekday))
  pure (midnight monday)

/-- `rollup_bucket_start`. -/
def rollupBucketStart (unit : String) (sourceAt : UtcTime) : Except PythonError UtcTime :=
  match hourUnits.lookup unit with
  | some size =>
    let minute := sourceAt.minute
    pure (sourceAt.replaceClock sourceAt.hour
      ⟨minute - minute % size, (Nat.sub_le _ _).trans_lt minute.isLt⟩)
  | none =>
    if unit = "4h" then
      let hour := sourceAt.hour
      pure (sourceAt.replaceClock ⟨hour - hour % 4, (Nat.sub_le _ _).trans_lt hour.isLt⟩ 0)
    else if unit = "1d" then pure (midnight sourceAt)
    else if unit = "1w" then weekStart sourceAt
    else if unit = "1M" then pure sourceAt.firstOfMonth
    else .error (.valueError ("지원하지 않는 집계 단위다: " ++ unit))

/-- `minutes` of `_bucket_end`. -/
def bucketEndMinutes : List (String × ℤ) :=
  [("3m", 3), ("5m", 5), ("10m", 10), ("15m", 15), ("30m", 30), ("1h", 60), ("4h", 240)]

/-- `_bucket_end`. -/
def bucketEnd (bucket : UtcTime) (unit : String) : Except PythonError UtcTime :=
  if unit = "1M" then
    if monthOfDay bucket.day = 12 then bucket.replace (yearOf bucket.day + 1) 1
    else bucket.replace (yearOf bucket.day) (monthOfDay bucket.day + 1)
  else if unit = "1w" then bucket.addTimedelta (days 7)
  else if unit = "1d" then bucket.addTimedelta (days 1)
  else
    match bucketEndMinutes.lookup unit with
    | some count => bucket.addTimedelta (minutes count)
    | none => .error .keyError

/-! ## What candles and views have in common -/

namespace Item

def startedAt : Item → UtcTime
  | source candle => candle.candleStartAt
  | view candle => candle.startedAt

def open_ : Item → ℚ
  | source candle => candle.openPrice
  | view candle => candle.open_

def high : Item → ℚ
  | source candle => candle.highPrice
  | view candle => candle.high

def low : Item → ℚ
  | source candle => candle.lowPrice
  | view candle => candle.low

def close : Item → ℚ
  | source candle => candle.closePrice
  | view candle => candle.close

def volume : Item → ℚ
  | source candle => candle.tradeVolume
  | view candle => candle.volume

def tradeAmount : Item → ℚ
  | source candle => candle.tradeAmount
  | view candle => candle.tradeAmount

def sourceAsOf : Item → Option UtcTime
  | source candle => some candle.collectedAt
  | view candle => candle.sourceAsOf

def knowledgeAt : Item → Option UtcTime
  | source candle => some (candle.knowledgeAt.getD candle.collectedAt)
  | view candle => candle.knowledgeAt

def revisionIds : Item → List ℤ
  | source candle => candle.revisionId.toList
  | view candle => candle.inputRevisionIds

/-- `item.input_content_hash or None`. -/
def inputContentHash : Item → Option String
  | source candle => candle.inputContentHash.filter (· ≠ "")
  | view candle => if candle.inputContentHash = "" then none else some candle.inputContentHash

end Item

/-! ## Slots -/

/-- `_slot_quality`. -/
def slotQuality (statuses : List CoverageQuality) : CoverageQuality :=
  ([.missing, .unavailable, .unverified, .available, .noTrade].find?
    (· ∈ statuses)).getD .unverified

/-- `_worst_quality`. -/
def worstQuality (statuses : List CoverageQuality) : CoverageQuality :=
  match [CandleQuality.missing, .unavailable, .unverified].find? (· ∈ statuses) with
  | some status => status
  | none => if CandleQuality.available ∈ statuses then .missing else .available

/-- The statuses of the segments that cover a slot. -/
def matches_ (coverage : List CoverageSlice) (slotStart slotEnd : UtcTime) :
    List CoverageQuality :=
  (coverage.filter fun segment => segment.startAt ≤ slotStart ∧ slotEnd ≤ segment.endAt).map
    CoverageSlice.status

/-- `slot_delta` of `_missing_slot_statuses`. -/
def slotDelta (unit : String) : ℤ := if unit ∈ ["1w", "1M"] then days 1 else minutes 1

/-- The status of the slot `offset` slots after the bucket begins, if no item takes it. -/
def slotStatus (bucket : UtcTime) (items : List Item) (coverage : List CoverageSlice)
    (unit : String) (offset : ℕ) : Except PythonError (Option CoverageQuality) := do
  let slotStart ← bucket.addTimedelta (slotDelta unit * offset)
  if slotStart ∈ items.map Item.startedAt then pure none
  else
    let slotEnd ← slotStart.addTimedelta (slotDelta unit)
    let matched := matches_ coverage slotStart slotEnd
    pure (some (if matched = [] then .unverified else slotQuality matched))

/-- `_missing_slot_statuses`. -/
def missingSlotStatuses (bucket : UtcTime) (requiredSize : ℕ) (items : List Item)
    (coverage : List CoverageSlice) (unit : String) : Except PythonError (List CoverageQuality) := do
  let statuses ← (List.range requiredSize).mapM (slotStatus bucket items coverage unit)
  pure (statuses.filterMap id)

/-! ## Candles of buckets -/

section Arithmetic

variable (ar : Arithmetic) (sha256 : String → String)

/-- `_canonical_decimal`. -/
def canonicalDecimal (value : ℚ) : String := .ofList (plainText (ar.context value))

/-- `_hash_inputs`. -/
def hashInputs (items : List Item) : String :=
  let canonical := (sortedBy Item.startedAt items).map fun item => jsonMapping
    [("at", jsonText item.startedAt.datetime.isoformat),
      ("close", jsonText (canonicalDecimal ar item.close)),
      ("high", jsonText (canonicalDecimal ar item.high)),
      ("low", jsonText (canonicalDecimal ar item.low)),
      ("open", jsonText (canonicalDecimal ar item.open_)),
      ("sourceContentHash", (item.inputContentHash.map jsonText).getD "null"),
      ("tradeAmount", jsonText (canonicalDecimal ar item.tradeAmount)),
      ("volume", jsonText (canonicalDecimal ar item.volume))]
  sha256 (jsonMapping
    [("calculationVersion", jsonText calculationVersion),
      ("inputs", "[" ++ ",".intercalate canonical ++ "]")])

/-- `_to_candle_view`. -/
def toCandleView (item : SourceCandle) : CandleView where
  startedAt := item.candleStartAt
  open_ := item.openPrice
  high := item.highPrice
  low := item.lowPrice
  close := item.closePrice
  volume := item.tradeVolume
  tradeAmount := item.tradeAmount
  completeness := .complete
  sourceAsOf := some item.collectedAt
  knowledgeAt := some (item.knowledgeAt.getD item.collectedAt)
  inputContentHash := (Item.source item).inputContentHash.getD (hashInputs ar sha256 [.source item])
  inputRevisionIds := item.revisionId.toList
  sourceRevisionThroughId := item.revisionId.getD 0

/-- The candle of a bucket: `first` and `rest` are its items in the order of time, and
`missingStatuses` the statuses of the slots that none of them takes. -/
def bucketView (bucket : UtcTime) (requiredSize : ℕ) (first : Item) (rest : List Item)
    (missingStatuses : List CoverageQuality) : CandleView :=
  let ordered := first :: rest
  let isComplete := ordered.length = requiredSize ∨
    ordered.length < requiredSize ∧ missingStatuses ≠ [] ∧
      ∀ status ∈ missingStatuses, status = .noTrade
  { startedAt := bucket
    open_ := first.open_
    high := (rest.map Item.high).foldl max first.high
    low := (rest.map Item.low).foldl min first.low
    close := (rest.getLastD first).close
    volume := ar.sum (ordered.map Item.volume)
    tradeAmount := ar.sum (ordered.map Item.tradeAmount)
    completeness := if isComplete then .complete else .partial_
    sourceAsOf := (ordered.filterMap Item.sourceAsOf).max?
    knowledgeAt := (ordered.filterMap Item.knowledgeAt).max?
    inputContentHash := hashInputs ar sha256 ordered
    quality := worstQuality missingStatuses
    inputRevisionIds := sortedBy id (ordered.flatMap Item.revisionIds).dedup }

/-- `required_size` of `_aggregate_groups`. -/
def requiredSlots (expectedSize : ℕ) (bucket : UtcTime) : ℕ :=
  if expectedSize = 0 then daysInMonth (yearOf bucket.day) (monthOfDay bucket.day)
  else expectedSize

/-- One round of `_aggregate_groups`. -/
def aggregateGroup (expectedSize : ℕ) (coverage : List CoverageSlice) (unit : String)
    (group : Group UtcTime Item) : Except PythonError CandleView := do
  let requiredSize := requiredSlots expectedSize group.key
  let ordered := sortedBy Item.startedAt group.items
  let missingStatuses ← missingSlotStatuses group.key requiredSize ordered coverage unit
  have hne : ordered ≠ [] := by
    rw [← List.length_pos_iff, (sortedBy_perm _ _).length_eq, List.length_pos_iff]
    exact group.items_ne_nil
  pure (bucketView ar sha256 group.key requiredSize (ordered.head hne) ordered.tail missingStatuses)

/-- `_aggregate_groups`. -/
def aggregateGroups (groups : List (Group UtcTime Item)) (expectedSize : ℕ)
    (coverage : List CoverageSlice) (unit : String) : Except PythonError (List CandleView) :=
  (sortedBy Group.key groups).mapM (aggregateGroup ar sha256 expectedSize coverage unit)

/-- The items under the buckets of their starts. -/
def groupByBucket (bucketOf : UtcTime → Except PythonError UtcTime) (items : List Item) :
    Except PythonError (List (Group UtcTime Item)) := do
  let keyed ← items.mapM fun item => (·, item) <$> bucketOf item.startedAt
  pure (grouped keyed)

/-- `aggregate_candles("1d", source, coverage=coverage)`: a daily source candle replaces what
the minutes of its day give. -/
def aggregateDaily (source : List SourceCandle) (coverage : List CoverageSlice) :
    Except PythonError (List CandleView) := do
  let source1m := source.filter (·.candleUnit = "1m")
  let source1d := source.filter (·.candleUnit = "1d")
  let groupedDaily ← groupByBucket (rollupBucketStart "1d") (source1m.map .source)
  let daily ← aggregateGroups ar sha256 groupedDaily (24 * 60) coverage "1d"
  let dailyByStart := setItems (setItems [] (daily.map fun item => (item.startedAt, item)))
    (source1d.map fun item => (item.candleStartAt, toCandleView ar sha256 item))
  pure ((sortedBy Prod.fst dailyByStart).map Prod.snd)

/-- `aliases` of `aggregate_candles`. -/
def aliases : List (String × String) := [("60m", "1h"), ("240m", "4h")]

/-- `minute_units` of `aggregate_candles`. -/
def minuteUnits : List (String × ℕ) := hourUnits ++ [("4h", 240)]

/-- `aggregate_candles`. -/
def aggregateCandles (unit : String) (source : List SourceCandle)
    (coverage : List CoverageSlice) : Except PythonError (List CandleView) :=
  let unit := (aliases.lookup unit).getD unit
  if unit ∉ aggregationUnits then .error (.valueError ("지원하지 않는 집계 단위다: " ++ unit))
  else
    let source1m := source.filter (·.candleUnit = "1m")
    if unit = "1m" then
      pure ((sortedBy SourceCandle.candleStartAt source1m).map (toCandleView ar sha256))
    else
      match minuteUnits.lookup unit with
      | some bucketSize => do
        let groups ← groupByBucket (rollupBucketStart unit) (source1m.map .source)
        aggregateGroups ar sha256 groups bucketSize coverage unit
      | none =>
        if unit = "1d" then aggregateDaily ar sha256 source coverage
        else do
          -- the unit is a week or a month
          let daily ← aggregateDaily ar sha256 source coverage
          let bucketOf := if unit = "1w" then weekStart else fun t => pure t.firstOfMonth
          let groups ← groupByBucket bucketOf (daily.map .view)
          aggregateGroups ar sha256 groups (if unit = "1w" then 7 else 0) coverage unit

end Arithmetic

end Goodmoneying.Program.Aggregation
