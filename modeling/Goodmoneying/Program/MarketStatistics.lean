import Goodmoneying.Program.VersionedIndicators

/-!
# Market statistics

`versioned_market_statistics.py`: the return of a candle over the previous one and the standard
deviation of the last twenty returns, in the decimal context of the indicators and over the same
buckets. Like theirs, a point carries the state of the loop as the texts of a checkpoint; its
content hash is that of a JSON text of its values and of the checkpoint.

`sha256` stands for the hexadecimal digest of a text.
-/

namespace Goodmoneying.Program.MarketStatistics

open Library
open Program.VersionedIndicators hiding CandleView CheckpointState IndicatorStatus point

/-- What the statistics read of a `CandleView`. -/
structure CandleView extends VersionedIndicators.CandleView where
  volume : ℚ
  tradeAmount : ℚ

/-- `StatisticStatus`. -/
inductive StatisticStatus where
  | warmingUp | ready | missing
  deriving DecidableEq, Repr

def StatisticStatus.text : StatisticStatus → String
  | warmingUp => "warming_up"
  | ready => "ready"
  | missing => "missing"

/-- The keys of `MarketStatisticPoint.checkpoint_state`. -/
structure CheckpointState where
  previousClose : Option String
  previousStartedAt : String
  recentReturns : List String
  sourceAsOf : Option String
  deriving DecidableEq

structure MarketStatisticPoint where
  startedAt : Datetime
  closeReturn1 : Option ℚ
  realizedVolatility20 : Option ℚ
  tradeVolume : Option ℚ
  tradeAmount : Option ℚ
  volatilitySampleCount : ℕ
  inputCompletenessRatio : ℚ
  returnStatus : StatisticStatus
  volatilityStatus : StatisticStatus
  tradeStatus : StatisticStatus
  currentInputId : Option ℤ
  currentInputIsRollup : Bool
  sourceRevisionThroughId : ℤ
  qualityEventThroughId : Option ℤ
  sourceAsOf : Option Datetime
  knowledgeAt : Option Datetime
  contentHash : String
  checkpointState : CheckpointState
  deriving DecidableEq

/-! ## The content hash -/

/-- `json.dumps` of a text or `None`. -/
def jsonNullable : Option String → String
  | none => "null"
  | some value => jsonText value

/-- `json.dumps` of a list of encoded values, without blanks. -/
def jsonList (values : List String) : String := "[" ++ ",".intercalate values ++ "]"

/-- `json.dumps` of a checkpoint, its keys sorted. -/
def CheckpointState.json (checkpoint : CheckpointState) : String :=
  jsonMapping
    [("previousClose", jsonNullable checkpoint.previousClose),
      ("previousStartedAt", jsonText checkpoint.previousStartedAt),
      ("recentReturns", jsonList (checkpoint.recentReturns.map jsonText)),
      ("sourceAsOf", jsonNullable checkpoint.sourceAsOf)]

/-- `json.dumps` of the `values` of a point, their keys sorted. -/
def valuesJson (closeReturn volatility tradeVolume tradeAmount : Option ℚ) (sample : ℕ)
    (statuses : List StatisticStatus) (checkpoint : CheckpointState) : String :=
  jsonMapping
    [("checkpoint", checkpoint.json),
      ("closeReturn1", jsonNullable (closeReturn.map canonical)),
      ("realizedVolatility20", jsonNullable (volatility.map canonical)),
      ("sample", toString sample),
      ("statuses", jsonList (statuses.map fun status => jsonText status.text)),
      ("tradeAmount", jsonNullable (tradeAmount.map canonical)),
      ("tradeVolume", jsonNullable (tradeVolume.map canonical))]

/-! ## The state of the loop -/

/-- The local variables of `calculate_market_statistics` that outlive a round. -/
structure SeriesState where
  previousClose : Option ℚ
  previousStartedAt : Option Datetime
  returns : List ℚ
  deriving DecidableEq

/-- The state read back from `initial_checkpoint`. -/
def SeriesState.ofCheckpoint : Option CheckpointState → Except PythonError SeriesState
  | none => pure ⟨none, none, []⟩
  | some checkpoint => do
    let previousClose ← VersionedIndicators.optionalDecimal checkpoint.previousClose
    let previousStartedAt ←
      if checkpoint.previousStartedAt = "" then pure none
      else some <$> Datetime.fromisoformat checkpoint.previousStartedAt
    let returns ← checkpoint.recentReturns.mapM decimalOfText
    pure ⟨previousClose, previousStartedAt, returns.rtake 20⟩

/-- `_checkpoint`. -/
def checkpoint (previousClose : Option ℚ) (previousStartedAt : Datetime) (returns : List ℚ)
    (sourceAsOf : Option Datetime) : CheckpointState where
  previousClose := previousClose.map canonical
  previousStartedAt := previousStartedAt.isoformat
  recentReturns := (returns.rtake 20).map canonical
  sourceAsOf := sourceAsOf.map Datetime.isoformat

/-- Whether a candle is outside of the bucket after the previous candle's. -/
def isGap (state : SeriesState) (unit : String) (candle : CandleView) :
    Except PythonError Bool :=
  match state.previousStartedAt with
  | none => pure false
  | some previousStartedAt => do
    let next ← nextBucket previousStartedAt unit
    pure (decide (candle.startedAt.instant ≠ next.instant))

/-- `quality == "available" and completeness == "complete"`. -/
def CandleView.valid (candle : CandleView) : Bool :=
  candle.quality = .available ∧ candle.completeness = .complete

/-- The return over the previous close, unless there is none to divide by. -/
def closeReturn (previousClose : Option ℚ) (close : ℚ) : Option ℚ :=
  match previousClose with
  | none => none
  | some previousClose =>
    if previousClose ≠ 0 then
      some (indicatorContext.sub (indicatorContext.div close previousClose) 1)
    else none

/-- The standard deviation of a window of twenty returns. -/
def realizedVolatility (window : List ℚ) : ℚ :=
  let mean := indicatorContext.div (indicatorContext.sum window) 20
  sqrtSignificant 50 (indicatorContext.div
    (indicatorContext.sum (window.map fun value => square (indicatorContext.sub value mean))) 20)

/-! ## Points -/

section Points

variable (sha256 : String → String)

/-- `_point`. -/
def point (candle : CandleView) (closeReturn volatility : Option ℚ) (sample : ℕ)
    (returnStatus volatilityStatus tradeStatus : StatisticStatus)
    (checkpointState : CheckpointState) : MarketStatisticPoint :=
  let tradeVolume := if tradeStatus = .ready then some candle.volume else none
  let tradeAmount := if tradeStatus = .ready then some candle.tradeAmount else none
  { startedAt := candle.startedAt
    closeReturn1 := closeReturn
    realizedVolatility20 := volatility
    tradeVolume := tradeVolume
    tradeAmount := tradeAmount
    volatilitySampleCount := sample
    inputCompletenessRatio := indicatorContext.div sample 20
    returnStatus := returnStatus
    volatilityStatus := volatilityStatus
    tradeStatus := tradeStatus
    -- an id of zero is passed over like a missing one
    currentInputId := (candle.rollupId.filter fun id => id ≠ 0).or candle.inputRevisionIds.max?
    currentInputIsRollup := candle.rollupId.isSome
    sourceRevisionThroughId := candle.sourceRevisionThroughId
    qualityEventThroughId := candle.qualityEventThroughId
    sourceAsOf := candle.sourceAsOf
    knowledgeAt := candle.knowledgeAt
    contentHash := sha256 (valuesJson closeReturn volatility tradeVolume tradeAmount sample
      [returnStatus, volatilityStatus, tradeStatus] checkpointState)
    checkpointState := checkpointState }

/-- The status of a value of a usable candle. -/
def valueStatus (value : Option ℚ) : StatisticStatus :=
  if value.isSome then .ready else .warmingUp

/-- One round of the loop: the next state and the candle's point. -/
def statisticStep (unit : String) (state : SeriesState) (candle : CandleView) :
    Except PythonError (SeriesState × MarketStatisticPoint) := do
  let gap ← isGap state unit candle
  let reset := gap || !candle.valid
  let previousClose := if reset then none else state.previousClose
  let returns := if reset then [] else state.returns
  if candle.valid then
    let change := closeReturn previousClose candle.close
    let returns := match change with
      | none => returns
      | some change => (returns ++ [change]).rtake 20
    let sample := min returns.length 20
    let volatility := if sample = 20 then some (realizedVolatility (returns.rtake 20)) else none
    pure (⟨some candle.close, some candle.startedAt, returns⟩,
      point sha256 candle change volatility sample (valueStatus change) (valueStatus volatility)
        .ready (checkpoint (some candle.close) candle.startedAt returns candle.sourceAsOf))
  else
    pure (⟨previousClose, some candle.startedAt, returns⟩,
      point sha256 candle none none 0 .missing .missing .missing
        (checkpoint none candle.startedAt [] candle.sourceAsOf))

/-- A round together with the results so far: points before `requested_from` are dropped. -/
def statisticRound (requestedFrom : Option Datetime) (unit : String)
    (acc : SeriesState × List MarketStatisticPoint) (candle : CandleView) :
    Except PythonError (SeriesState × List MarketStatisticPoint) := do
  let (state, point) ← statisticStep sha256 unit acc.1 candle
  let requested := match requestedFrom with
    | none => true
    | some start => decide (start.instant ≤ point.startedAt.instant)
  pure (state, if requested then acc.2 ++ [point] else acc.2)

/-- `calculate_market_statistics`. -/
def calculateMarketStatistics (candles : List CandleView) (unit : String)
    (requestedFrom : Option Datetime) (initialCheckpoint : Option CheckpointState) :
    Except PythonError (List MarketStatisticPoint) := do
  let ordered := sortedBy (fun item : CandleView => item.startedAt.instant) candles
  if (ordered.map fun item => item.startedAt.instant).dedup.length ≠ ordered.length then
    throw (.valueError "시장 통계 계산 전에 startedAt projection을 고정해야 한다.")
  let state ← SeriesState.ofCheckpoint initialCheckpoint
  let (_, result) ← ordered.foldlM (statisticRound sha256 requestedFrom unit) (state, [])
  pure result

end Points

end Goodmoneying.Program.MarketStatistics
