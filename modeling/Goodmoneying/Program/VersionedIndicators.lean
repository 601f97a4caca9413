import Mathlib.Data.List.DropRight
import Goodmoneying.Library.StableSort
import Goodmoneying.Program.Datetimes

/-!
# Versioned indicators

`versioned_indicators.py`: moving averages, Bollinger bands and the relative strength index
of a series of candles, in a decimal context of 50 digits. The loop of
`calculate_indicator_series` is a fold of `seriesStep`; its local variables are the fields of
`SeriesState`, and every point carries them as the texts of a checkpoint, from which a later
call goes on (`SeriesState.ofCheckpoint`).

`sha256` stands for the hexadecimal digest of a text.
-/

namespace Goodmoneying.Program.VersionedIndicators

open Library

/-! ## Candles and points -/

/-- `CandleView.completeness`. -/
inductive Completeness where
  | complete | partial_ | empty
  deriving DecidableEq, Repr

/-- `CandleView.quality`. -/
inductive CandleQuality where
  | available | noTrade | missing | unavailable | unverified
  deriving DecidableEq, Repr

/-- What the indicators read of a `CandleView`. -/
structure CandleView where
  startedAt : Datetime
  close : ℚ
  completeness : Completeness
  sourceAsOf : Option Datetime := none
  knowledgeAt : Option Datetime := none
  quality : CandleQuality := .available
  inputRevisionIds : List ℤ := []
  rollupId : Option ℤ := none
  sourceRevisionThroughId : ℤ := 0
  qualityEventThroughId : Option ℤ := none

/-- `IndicatorStatus`. -/
inductive IndicatorStatus where
  | warmingUp | ready | missing
  deriving DecidableEq, Repr

/-- The keys of `IndicatorPoint.values`. -/
structure IndicatorValues where
  sma20 : Option ℚ
  sma60 : Option ℚ
  ema20 : Option ℚ
  bollingerUpper : Option ℚ
  bollingerMiddle : Option ℚ
  bollingerLower : Option ℚ
  rsi14 : Option ℚ
  deriving DecidableEq

/-- The keys of `IndicatorPoint.statuses`. -/
structure IndicatorStatuses where
  sma20 : IndicatorStatus
  sma60 : IndicatorStatus
  ema20 : IndicatorStatus
  bollinger20 : IndicatorStatus
  rsi14 : IndicatorStatus
  deriving DecidableEq

/-- The keys of `IndicatorPoint.checkpoint_state`. -/
structure CheckpointState where
  recentCloses : List String
  consecutiveCount : ℤ
  ema20 : Option String
  rsiAverageGain : Option String
  rsiAverageLoss : Option String
  previousClose : Option String
  previousStartedAt : String
  sourceAsOf : Option String
  deriving DecidableEq

structure IndicatorPoint where
  startedAt : Datetime
  values : IndicatorValues
  statuses : IndicatorStatuses
  definitionVersionHashes : List (String × String)
  lineageByIndicator : List (String × List ℤ)
  rollupIds : List ℤ
  sourceRevisionThroughId : ℤ
  qualityEventThroughId : Option ℤ
  sourceAsOf : Option Datetime
  knowledgeAt : Option Datetime
  currentInputId : Option ℤ
  currentInputIsRollup : Bool
  checkpointState : CheckpointState
  deriving DecidableEq

/-! ## Definition versions -/

/-- A parameter of an indicator: `str | int`. -/
inductive ParameterValue where
  | text (value : String)
  | int (value : ℤ)

structure IndicatorDefinitionVersion where
  key : String
  algorithm : String
  parameters : List (String × ParameterValue)
  decimalPrecision : ℕ
  rounding : String
  implementationVersion : String
  definitionHash : String

/-- `json.dumps` of a text that needs no escape. -/
def jsonText (value : String) : String := "\"" ++ value ++ "\""

def ParameterValue.json : ParameterValue → String
  | text value => jsonText value
  | int value => toString value

/-- `json.dumps` of a mapping of encoded values, without blanks. -/
def jsonMapping (entries : List (String × String)) : String :=
  "\x7b" ++ ",".intercalate (entries.map fun entry => jsonText entry.1 ++ ":" ++ entry.2) ++ "\x7d"

/-- `_definition`: the hash is that of the JSON text with sorted keys. -/
def definition (sha256 : String → String) (key algorithm : String)
    (parameters : List (String × ParameterValue)) : IndicatorDefinitionVersion where
  key := key
  algorithm := algorithm
  parameters := parameters
  decimalPrecision := 50
  rounding := "ROUND_HALF_EVEN"
  implementationVersion := "indicator-engine-v1"
  definitionHash := sha256 (jsonMapping
    [("algorithm", jsonText algorithm),
      ("decimal", jsonMapping [("precision", "50"), ("rounding", jsonText "ROUND_HALF_EVEN")]),
      ("implementationVersion", jsonText "indicator-engine-v1"),
      ("key", jsonText key),
      ("parameters", jsonMapping ((sortedBy Prod.fst parameters).map fun entry =>
        (entry.1, entry.2.json)))])

/-- `INDICATOR_DEFINITION_VERSIONS`. -/
def indicatorDefinitionVersions (sha256 : String → String) :
    List (String × IndicatorDefinitionVersion) :=
  [("sma20", definition sha256 "sma20" "simple-moving-average" [("period", .int 20)]),
    ("sma60", definition sha256 "sma60" "simple-moving-average" [("period", .int 60)]),
    ("ema20", definition sha256 "ema20" "exponential-moving-average"
      [("period", .int 20), ("seed", .text "sma20")]),
    ("bollinger20", definition sha256 "bollinger20"
      "bollinger-bands-population-standard-deviation"
      [("period", .int 20), ("standardDeviations", .text "2")]),
    ("rsi14", definition sha256 "rsi14" "wilder-relative-strength-index"
      [("period", .int 14), ("flat", .text "50"), ("onlyGain", .text "100"),
        ("onlyLoss", .text "0")])]

/-! ## Buckets -/

/-- `timedelta(minutes=n)`, in microseconds. -/
def minutes (n : ℤ) : ℤ := n * 60000000

/-- `durations` of `_next_bucket`. -/
def durations : List (String × ℤ) :=
  [("1m", minutes 1), ("3m", minutes 3), ("5m", minutes 5), ("10m", minutes 10),
    ("15m", minutes 15), ("30m", minutes 30), ("1h", minutes 60), ("4h", minutes 240),
    ("1d", minutes 1440), ("1w", minutes 10080)]

/-- `_next_bucket`. -/
def nextBucket (startedAt : Datetime) (unit : String) : Except PythonError Datetime :=
  if unit = "1M" then
    if startedAt.date.month = 12 then startedAt.replace (startedAt.date.year + 1) 1
    else startedAt.replace startedAt.date.year (startedAt.date.month + 1)
  else
    match durations.lookup unit with
    | some duration => startedAt.addTimedelta duration
    | none => .error (.valueError ("지원하지 않는 지표 단위다: " ++ unit))

/-! ## Decimals -/

/-- The decimal context of the calculation. -/
abbrev indicatorContext : Arithmetic := .decimal 50

/-- `x / y`. -/
def divide (x y : ℚ) : Except PythonError ℚ :=
  if y = 0 then .error .divisionByZero else .ok (indicatorContext.div x y)

/-- `x ** 2`: an integer power is taken with three more digits and rounded again. -/
def square (x : ℚ) : ℚ := indicatorContext.context (roundSignificant 53 (x * x))

/-- `_canonical` of a number: its text without an exponent, rounded by `normalize`. -/
def canonical (value : ℚ) : String :=
  if value = 0 then "0" else .ofList (plainText (indicatorContext.context value))

/-- `Decimal(text)`, of a text without an exponent. -/
def decimalOfText (text : String) : Except PythonError ℚ :=
  match readPlain text.toList with
  | some value => .ok value
  | none => .error .invalidOperation

/-- `_optional_decimal`. -/
def optionalDecimal : Option String → Except PythonError (Option ℚ)
  | none => .ok none
  | some text => some <$> decimalOfText text

/-- `_average`. -/
def average (values : List ℚ) : Except PythonError ℚ :=
  divide (indicatorContext.sum values) values.length

/-- `_rsi`. -/
def rsi : Option ℚ → Option ℚ → Except PythonError (Option ℚ)
  | some averageGain, some averageLoss =>
    if averageGain = 0 ∧ averageLoss = 0 then pure (some 50)
    else if averageLoss = 0 then pure (some 100)
    else if averageGain = 0 then pure (some 0)
    else do
      let ratio ← divide averageGain averageLoss
      let share ← divide 100 (indicatorContext.add 1 ratio)
      pure (some (indicatorContext.sub 100 share))
  | _, _ => pure none

/-! ## The state of the loop -/

/-- The local variables of `calculate_indicator_series` that outlive a round. -/
structure SeriesState where
  closes : List ℚ
  consecutiveCount : ℤ
  ema : Option ℚ
  averageGain : Option ℚ
  averageLoss : Option ℚ
  previousClose : Option ℚ
  previousStartedAt : Option Datetime
  deriving DecidableEq

/-- The state read back from `initial_checkpoint`. -/
def SeriesState.ofCheckpoint : Option CheckpointState → Except PythonError SeriesState
  | none => pure ⟨[], 0, none, none, none, none, none⟩
  | some checkpoint => do
    let closes ← checkpoint.recentCloses.mapM decimalOfText
    let ema ← optionalDecimal checkpoint.ema20
    let averageGain ← optionalDecimal checkpoint.rsiAverageGain
    let averageLoss ← optionalDecimal checkpoint.rsiAverageLoss
    let previousClose ← optionalDecimal checkpoint.previousClose
    let previousStartedAt ←
      if checkpoint.previousStartedAt = "" then pure none
      else some <$> Datetime.fromisoformat checkpoint.previousStartedAt
    pure ⟨closes, checkpoint.consecutiveCount, ema, averageGain, averageLoss, previousClose,
      previousStartedAt⟩

/-- `_checkpoint`, of the state after a candle. -/
def SeriesState.checkpoint (state : SeriesState) (candle : CandleView) : CheckpointState where
  recentCloses := (state.closes.rtake 60).map canonical
  consecutiveCount := state.consecutiveCount
  ema20 := state.ema.map canonical
  rsiAverageGain := state.averageGain.map canonical
  rsiAverageLoss := state.averageLoss.map canonical
  previousClose := state.previousClose.map canonical
  previousStartedAt := candle.startedAt.isoformat
  sourceAsOf := candle.sourceAsOf.map Datetime.isoformat

/-- What a gap and an unusable candle do: only the time of the previous candle stays. -/
def SeriesState.reset (state : SeriesState) : SeriesState where
  closes := []
  consecutiveCount := 0
  ema := none
  averageGain := none
  averageLoss := none
  previousClose := none
  previousStartedAt := state.previousStartedAt

/-- The start of a round: the state is reset when the candle does not follow the previous
one in the next bucket. -/
def SeriesState.afterGap (state : SeriesState) (unit : String) (candle : CandleView) :
    Except PythonError SeriesState :=
  match state.previousStartedAt with
  | none => pure state
  | some previousStartedAt => do
    let next ← nextBucket previousStartedAt unit
    pure (if candle.startedAt.instant ≠ next.instant then state.reset else state)

/-- `sma` over `period` candles, once there are as many. -/
def movingAverage (period : ℕ) (consecutiveCount : ℤ) (closes : List ℚ) :
    Except PythonError (Option ℚ) :=
  if period ≤ consecutiveCount then some <$> average (closes.rtake period) else pure none

/-- The exponential average after a candle. -/
def nextEma (consecutiveCount : ℤ) (close : ℚ) (sma20 ema : Option ℚ) :
    Except PythonError (Option ℚ) :=
  if consecutiveCount = 20 then pure sma20
  else
    match ema with
    | none => pure none
    | some ema =>
      if 20 < consecutiveCount then do
        let change ← divide (indicatorContext.mul (indicatorContext.sub close ema) 2) 21
        pure (some (indicatorContext.add ema change))
      else pure (some ema)

/-- `changes`: `zip(closes[-15:-1], closes[-14:], strict=True)` and the differences. -/
def recentChanges (closes : List ℚ) : Except PythonError (List ℚ) :=
  let prior := (closes.rtake 15).dropLast
  let current := closes.rtake 14
  if prior.length < current.length then
    .error (.valueError "zip() argument 2 is longer than argument 1")
  else .ok ((prior.zip current).map fun pair => indicatorContext.sub pair.2 pair.1)

/-- One of the two Wilder averages after another candle. -/
def nextWilder (average change : ℚ) : Except PythonError ℚ :=
  divide (indicatorContext.add (indicatorContext.mul average 13) change) 14

/-- The Wilder averages of gain and loss after a candle. -/
def nextAverages (state : SeriesState) (consecutiveCount : ℤ) (close : ℚ) (closes : List ℚ) :
    Except PythonError (Option ℚ × Option ℚ) :=
  match state.previousClose with
  | none => pure (state.averageGain, state.averageLoss)
  | some previousClose =>
    if consecutiveCount = 15 then do
      let changes ← recentChanges closes
      let averageGain ← average (changes.map fun value => max 0 value)
      let averageLoss ← average (changes.map fun value => max 0 (indicatorContext.sub 0 value))
      pure (some averageGain, some averageLoss)
    else
      match state.averageGain, state.averageLoss with
      | some averageGain, some averageLoss =>
        if 15 < consecutiveCount then do
          let gain ← nextWilder averageGain (max 0 (indicatorContext.sub close previousClose))
          let loss ← nextWilder averageLoss (max 0 (indicatorContext.sub previousClose close))
          pure (some gain, some loss)
        else pure (some averageGain, some averageLoss)
      | averageGain, averageLoss => pure (averageGain, averageLoss)

/-- Upper, middle and lower Bollinger band. -/
def bollingerBands (closes : List ℚ) :
    Option ℚ → Except PythonError (Option ℚ × Option ℚ × Option ℚ)
  | none => pure (none, none, none)
  | some middle => do
    let variance ← average
      ((closes.rtake 20).map fun item => square (indicatorContext.sub item middle))
    let deviation := sqrtSignificant 50 variance
    let width := indicatorContext.mul 2 deviation
    pure (some (indicatorContext.add middle width), some middle,
      some (indicatorContext.sub middle width))

/-- The round of a usable candle: the next state and the values. -/
def SeriesState.advance (state : SeriesState) (candle : CandleView) :
    Except PythonError (SeriesState × IndicatorValues) := do
  let consecutiveCount := state.consecutiveCount + 1
  let close := candle.close
  let closes := (state.closes ++ [close]).rtake 60
  let sma20 ← movingAverage 20 consecutiveCount closes
  let sma60 ← movingAverage 60 consecutiveCount closes
  let ema ← nextEma consecutiveCount close sma20 state.ema
  let (averageGain, averageLoss) ← nextAverages state consecutiveCount close closes
  let rsi14 ← rsi averageGain averageLoss
  let (upper, middle, lower) ← bollingerBands closes sma20
  pure (⟨closes, consecutiveCount, ema, averageGain, averageLoss, some close,
    state.previousStartedAt⟩, ⟨sma20, sma60, ema, upper, middle, lower, rsi14⟩)

/-! ## Points -/

section Points

variable (sha256 : String → String)

/-- `_point`. -/
def point (candle : CandleView) (values : IndicatorValues) (statuses : IndicatorStatuses)
    (checkpointState : CheckpointState) : IndicatorPoint where
  startedAt := candle.startedAt
  values := values
  statuses := statuses
  definitionVersionHashes := (indicatorDefinitionVersions sha256).map fun entry =>
    (entry.1, entry.2.definitionHash)
  lineageByIndicator := []
  rollupIds := candle.rollupId.toList
  sourceRevisionThroughId := candle.sourceRevisionThroughId
  qualityEventThroughId := candle.qualityEventThroughId
  sourceAsOf := candle.sourceAsOf
  knowledgeAt := candle.knowledgeAt
  currentInputId := candle.rollupId.or candle.inputRevisionIds.max?
  currentInputIsRollup := candle.rollupId.isSome
  checkpointState := checkpointState

/-- `_missing_point`. -/
def missingPoint (candle : CandleView) (checkpointState : CheckpointState) : IndicatorPoint :=
  point sha256 candle ⟨none, none, none, none, none, none, none⟩
    ⟨.missing, .missing, .missing, .missing, .missing⟩ checkpointState

/-- The status of a usable candle's value. -/
def valueStatus (value : Option ℚ) : IndicatorStatus :=
  if value.isSome then .ready else .warmingUp

/-- `statuses` of a usable candle. -/
def IndicatorValues.statuses (values : IndicatorValues) : IndicatorStatuses where
  sma20 := valueStatus values.sma20
  sma60 := valueStatus values.sma60
  ema20 := valueStatus values.ema20
  bollinger20 := valueStatus values.bollingerMiddle
  rsi14 := valueStatus values.rsi14

/-- One round of the loop: the next state and the candle's point. -/
def seriesStep (unit : String) (state : SeriesState) (candle : CandleView) :
    Except PythonError (SeriesState × IndicatorPoint) := do
  let state ← state.afterGap unit candle
  if candle.quality ≠ .available ∨ candle.completeness ≠ .complete then
    let state := state.reset
    pure ({ state with previousStartedAt := some candle.startedAt },
      missingPoint sha256 candle (state.checkpoint candle))
  else
    let (state, values) ← state.advance candle
    pure ({ state with previousStartedAt := some candle.startedAt },
      point sha256 candle values values.statuses (state.checkpoint candle))

/-- A round together with the results so far: points before `requested_from` are dropped. -/
def seriesRound (requestedFrom : Option Datetime) (unit : String)
    (acc : SeriesState × List IndicatorPoint) (candle : CandleView) :
    Except PythonError (SeriesState × List IndicatorPoint) := do
  let (state, point) ← seriesStep sha256 unit acc.1 candle
  let requested := match requestedFrom with
    | none => true
    | some start => decide (start.instant ≤ point.startedAt.instant)
  pure (state, if requested then acc.2 ++ [point] else acc.2)

/-- `calculate_indicator_series`. -/
def calculateIndicatorSeries (candles : List CandleView) (requestedFrom : Option Datetime)
    (unit : String) (initialCheckpoint : Option CheckpointState) :
    Except PythonError (List IndicatorPoint) := do
  let ordered := sortedBy (fun item : CandleView => item.startedAt.instant) candles
  if (ordered.map fun item => item.startedAt.instant).dedup.length ≠ ordered.length then
    throw (.valueError
      "지표 계산 전에 startedAt별 불변 rollup projection을 하나로 고정해야 한다.")
  let state ← SeriesState.ofCheckpoint initialCheckpoint
  let (_, result) ← ordered.foldlM (seriesRound sha256 requestedFrom unit) (state, [])
  pure result

end Points

end Goodmoneying.Program.VersionedIndicators
