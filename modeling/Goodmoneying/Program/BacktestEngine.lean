import Mathlib.Data.String.Basic
import Goodmoneying.Library.StableSort
import Goodmoneying.Program.Values

/-!
# The candle backtest engine

`packages/shared/goodmoneying_shared/backtest_engine.py`: `run_candle_backtest` replays
precomputed signals against candle events. Signals are taken in the order of
`_signal_sort_key`; each is executed on the first available candle event known at or
after the signal's knowledge time plus the latency, and signals without such an event
are skipped.

The records' fields are `Decimal`s by type, so the check of `_decimal_validation_error`
is vacuous here. `canonical_payload_hash` is a parameter; the payloads it is applied to
are built in full.
-/

namespace Goodmoneying.Program

open Library

/-! ## Records -/

/-- `BacktestQuality`. -/
inductive BacktestQuality where
  | available | noTrade | missing | unavailable | unverified
  deriving DecidableEq, Repr

/-- The text the quality is written as. -/
def BacktestQuality.text : BacktestQuality → String
  | available => "available"
  | noTrade => "no_trade"
  | missing => "missing"
  | unavailable => "unavailable"
  | unverified => "unverified"

/-- `BacktestRunStatus`. -/
inductive BacktestRunStatus where
  | succeeded | failed
  deriving DecidableEq, Repr

/-- The text the run status is written as. -/
def BacktestRunStatus.text : BacktestRunStatus → String
  | succeeded => "succeeded"
  | failed => "failed"

/-- `BacktestTradeStatus`. -/
inductive BacktestTradeStatus where
  | filled | partiallyFilled | rejected
  deriving DecidableEq, Repr

/-- The text the trade status is written as. -/
def BacktestTradeStatus.text : BacktestTradeStatus → String
  | filled => "filled"
  | partiallyFilled => "partially_filled"
  | rejected => "rejected"

/-- `ExecutionModel`. -/
structure ExecutionModel where
  feeRate : ℚ
  slippageBps : ℚ
  latencySeconds : ℤ
  maxParticipationRate : ℚ
  deriving DecidableEq, Repr

/-- `BacktestEngineSpec`. -/
structure BacktestEngineSpec where
  datasetVersionId : ℤ
  datasetContentHash : String
  strategyVersionId : ℤ
  strategyGraphHash : String
  engineVersion : String
  parameterHash : String
  seed : ℤ
  initialCash : ℚ
  execution : ExecutionModel
  deriving DecidableEq, Repr

/-- `BacktestCandleEvent`. -/
structure BacktestCandleEvent where
  instrumentId : ℤ
  marketCode : String
  occurredAt : Instant
  knowledgeAt : Instant
  stableSequence : String
  openPrice : ℚ
  high : ℚ
  low : ℚ
  close : ℚ
  volume : ℚ
  quality : BacktestQuality
  contentHash : String
  sourcePriority : ℤ := 20
  deriving DecidableEq, Repr

/-- `BacktestSignal`. -/
structure BacktestSignal where
  occurredAt : Instant
  knowledgeAt : Instant
  side : Side
  baseQuantity : ℚ
  deriving DecidableEq, Repr

/-- `BacktestTrade`. -/
structure BacktestTrade where
  side : Side
  requestedQuantity : ℚ
  filledQuantity : ℚ
  remainingQuantity : ℚ
  fillPrice : ℚ
  feePaid : ℚ
  status : BacktestTradeStatus
  occurredAt : Instant
  knowledgeAt : Instant
  deriving DecidableEq, Repr

/-- `BacktestEquityPoint`. -/
structure BacktestEquityPoint where
  occurredAt : Instant
  knowledgeAt : Instant
  cash : ℚ
  basePosition : ℚ
  equity : ℚ
  deriving DecidableEq, Repr

/-- `BacktestResult`. -/
structure BacktestResult where
  status : BacktestRunStatus
  inputHash : String
  resultHash : String
  assumptions : List String
  replayEvents : List BacktestCandleEvent
  trades : List BacktestTrade
  equityPoints : List BacktestEquityPoint
  metrics : List (String × ℚ)
  goldenReplaySignals : List BacktestSignal
  errors : List String
  deriving DecidableEq, Repr

/-! ## Payloads of the hashes -/

/-- `_ORDERBOOK_ABSENT_ASSUMPTION` and `_PARTIAL_FILL_ASSUMPTION`. -/
def assumptions : List String :=
  ["orderbook_absent_uses_candle_close", "partial_fill_by_candle_volume_participation"]

/-- `_spec_payload`. -/
def specPayload (spec : BacktestEngineSpec) : CanonicalValue :=
  .mapping [
    ("datasetVersionId", .int spec.datasetVersionId),
    ("datasetContentHash", .text spec.datasetContentHash),
    ("strategyVersionId", .int spec.strategyVersionId),
    ("strategyGraphHash", .text spec.strategyGraphHash),
    ("engineVersion", .text spec.engineVersion),
    ("parameterHash", .text spec.parameterHash),
    ("seed", .int spec.seed),
    ("initialCash", .decimal spec.initialCash),
    ("execution", .mapping [
      ("fee_rate", .decimal spec.execution.feeRate),
      ("slippage_bps", .decimal spec.execution.slippageBps),
      ("latency_seconds", .int spec.execution.latencySeconds),
      ("max_participation_rate", .decimal spec.execution.maxParticipationRate)])]

/-- `_event_payload`. -/
def eventPayload (event : BacktestCandleEvent) : CanonicalValue :=
  .mapping [
    ("instrumentId", .int event.instrumentId),
    ("marketCode", .text event.marketCode),
    ("occurredAt", .datetime event.occurredAt),
    ("knowledgeAt", .datetime event.knowledgeAt),
    ("stableSequence", .text event.stableSequence),
    ("open", .decimal event.openPrice),
    ("high", .decimal event.high),
    ("low", .decimal event.low),
    ("close", .decimal event.close),
    ("volume", .decimal event.volume),
    ("quality", .text event.quality.text),
    ("contentHash", .text event.contentHash),
    ("sourcePriority", .int event.sourcePriority)]

/-- `_signal_payload`. -/
def signalPayload (index : ℕ) (signal : BacktestSignal) : CanonicalValue :=
  .mapping [
    ("sequence", .int index),
    ("occurredAt", .datetime signal.occurredAt),
    ("knowledgeAt", .datetime signal.knowledgeAt),
    ("side", .text signal.side.text),
    ("baseQuantity", .decimal signal.baseQuantity)]

/-- `_trade_payload`. -/
def tradePayload (index : ℕ) (trade : BacktestTrade) : CanonicalValue :=
  .mapping [
    ("sequence", .int index),
    ("side", .text trade.side.text),
    ("requestedQuantity", .decimal trade.requestedQuantity),
    ("filledQuantity", .decimal trade.filledQuantity),
    ("remainingQuantity", .decimal trade.remainingQuantity),
    ("fillPrice", .decimal trade.fillPrice),
    ("feePaid", .decimal trade.feePaid),
    ("status", .text trade.status.text),
    ("occurredAt", .datetime trade.occurredAt),
    ("knowledgeAt", .datetime trade.knowledgeAt)]

/-- `_equity_payload`. -/
def equityPayload (point : BacktestEquityPoint) : CanonicalValue :=
  .mapping [
    ("occurredAt", .datetime point.occurredAt),
    ("knowledgeAt", .datetime point.knowledgeAt),
    ("cash", .decimal point.cash),
    ("basePosition", .decimal point.basePosition),
    ("equity", .decimal point.equity)]

/-- `[_signal_payload(index, signal) for index, signal in enumerate(signals)]`. -/
def signalPayloads (signals : List BacktestSignal) : CanonicalValue :=
  .list (signals.zipIdx.map fun item => signalPayload item.2 item.1)

section Hashes

variable (canonicalPayloadHash : CanonicalValue → String)

/-- `_input_hash`. -/
def inputHash (spec : BacktestEngineSpec) (replayEvents : List BacktestCandleEvent)
    (signals : List BacktestSignal) : String :=
  canonicalPayloadHash (.mapping [
    ("spec", specPayload spec),
    ("events", .list (replayEvents.map eventPayload)),
    ("signals", signalPayloads signals),
    ("assumptions", .list (assumptions.map .text))])

/-- `_result_hash`. -/
def resultHash (status : BacktestRunStatus) (inputHash : String)
    (trades : List BacktestTrade) (equityPoints : List BacktestEquityPoint)
    (metrics : List (String × ℚ)) (goldenReplaySignals : List BacktestSignal)
    (errors : List String) : String :=
  canonicalPayloadHash (.mapping [
    ("status", .text status.text),
    ("inputHash", .text inputHash),
    ("assumptions", .list (assumptions.map .text)),
    ("trades", .list (trades.zipIdx.map fun item => tradePayload item.2 item.1)),
    ("equityPoints", .list (equityPoints.map equityPayload)),
    ("metrics", .mapping (metrics.map fun metric => (metric.1, .decimal metric.2))),
    ("goldenReplaySignals", signalPayloads goldenReplaySignals),
    ("errors", .list (errors.map .text))])

/-- `_result`. -/
def backtestResult (status : BacktestRunStatus) (inputHash : String)
    (replayEvents : List BacktestCandleEvent) (trades : List BacktestTrade)
    (equityPoints : List BacktestEquityPoint) (metrics : List (String × ℚ))
    (goldenReplaySignals : List BacktestSignal) (errors : List String) : BacktestResult where
  status := status
  inputHash := inputHash
  resultHash := resultHash canonicalPayloadHash status inputHash trades equityPoints metrics
    goldenReplaySignals errors
  assumptions := assumptions
  replayEvents := replayEvents
  trades := trades
  equityPoints := equityPoints
  metrics := metrics
  goldenReplaySignals := goldenReplaySignals
  errors := errors

end Hashes

/-! ## The replay -/

/-- `_event_sort_key`. -/
def eventSortKey (event : BacktestCandleEvent) : Instant ×ₗ (ℤ ×ₗ String) :=
  toLex (event.knowledgeAt, toLex (event.sourcePriority, event.stableSequence))

/-- The part of `_signal_sort_key` before the index. -/
def signalKey (signal : BacktestSignal) : Instant ×ₗ Instant :=
  toLex (signal.knowledgeAt, signal.occurredAt)

/-- `_signal_sort_key`. -/
def signalSortKey (item : BacktestSignal × ℕ) : (Instant ×ₗ Instant) ×ₗ ℕ :=
  toLex (signalKey item.1, item.2)

/-- `_is_look_ahead_signal`. -/
def isLookAheadSignal (signal : BacktestSignal) : Bool :=
  signal.knowledgeAt < signal.occurredAt

/-- `target_knowledge_at` of `_execution_event`. -/
def targetKnowledgeAt (spec : BacktestEngineSpec) (signal : BacktestSignal) : Instant :=
  Instant.addSeconds signal.knowledgeAt spec.execution.latencySeconds

/-- `_execution_event`. -/
def executionEvent (spec : BacktestEngineSpec) (replayEvents : List BacktestCandleEvent)
    (signal : BacktestSignal) : Option BacktestCandleEvent :=
  replayEvents.find? fun event =>
    event.quality = .available ∧ event.knowledgeAt ≥ targetKnowledgeAt spec signal

/-- `_fill_price`. -/
def fillPrice (ar : Arithmetic) (execution : ExecutionModel) (candleClose : ℚ) (side : Side) : ℚ :=
  let slippageRatio := ar.div execution.slippageBps 10000
  match side with
  | .buy => ar.mul candleClose (ar.add 1 slippageRatio)
  | .sell => ar.mul candleClose (ar.sub 1 slippageRatio)

/-- `_final_equity`. -/
def finalEquity (ar : Arithmetic) (spec : BacktestEngineSpec)
    (replayEvents : List BacktestCandleEvent) (cash basePosition : ℚ) : ℚ :=
  match replayEvents.getLast? with
  | none => spec.initialCash
  | some last => ar.add cash (ar.mul basePosition last.close)

/-- The variables of the execution loop. -/
structure ReplayState where
  cash : ℚ
  basePosition : ℚ
  trades : List BacktestTrade
  equityPoints : List BacktestEquityPoint
  deriving DecidableEq, Repr

/-- The trade of one executed signal. -/
def executedTrade (ar : Arithmetic) (spec : BacktestEngineSpec) (event : BacktestCandleEvent)
    (signal : BacktestSignal) : BacktestTrade :=
  let requestedQuantity := signal.baseQuantity
  let filledQuantity :=
    min requestedQuantity (ar.mul event.volume spec.execution.maxParticipationRate)
  let remainingQuantity := ar.sub requestedQuantity filledQuantity
  let fillPrice := fillPrice ar spec.execution event.close signal.side
  let notional := ar.mul fillPrice filledQuantity
  { side := signal.side
    requestedQuantity := requestedQuantity
    filledQuantity := filledQuantity
    remainingQuantity := remainingQuantity
    fillPrice := fillPrice
    feePaid := ar.mul notional spec.execution.feeRate
    status := if remainingQuantity = 0 then .filled else .partiallyFilled
    occurredAt := event.occurredAt
    knowledgeAt := event.knowledgeAt }

/-- The loop body for a signal executed on `event`. -/
def executeSignal (ar : Arithmetic) (spec : BacktestEngineSpec) (state : ReplayState)
    (event : BacktestCandleEvent) (signal : BacktestSignal) : ReplayState :=
  let trade := executedTrade ar spec event signal
  let notional := ar.mul trade.fillPrice trade.filledQuantity
  let cash := match signal.side with
    | .buy => ar.sub state.cash (ar.add notional trade.feePaid)
    | .sell => ar.add state.cash (ar.sub notional trade.feePaid)
  let basePosition := match signal.side with
    | .buy => ar.add state.basePosition trade.filledQuantity
    | .sell => ar.sub state.basePosition trade.filledQuantity
  { cash := cash
    basePosition := basePosition
    trades := state.trades ++ [trade]
    equityPoints := state.equityPoints ++ [{
      occurredAt := event.occurredAt
      knowledgeAt := event.knowledgeAt
      cash := cash
      basePosition := basePosition
      equity := ar.add cash (ar.mul basePosition event.close) }] }

/-- One round of the execution loop. -/
def replaySignal (ar : Arithmetic) (spec : BacktestEngineSpec)
    (replayEvents : List BacktestCandleEvent) (state : ReplayState)
    (signal : BacktestSignal) : ReplayState :=
  match executionEvent spec replayEvents signal with
  | none => state
  | some event => executeSignal ar spec state event signal

/-- The state before the execution loop. -/
def initialReplayState (spec : BacktestEngineSpec) : ReplayState where
  cash := spec.initialCash
  basePosition := 0
  trades := []
  equityPoints := []

/-- The state after the execution loop. -/
def replay (ar : Arithmetic) (spec : BacktestEngineSpec)
    (replayEvents : List BacktestCandleEvent) (signals : List BacktestSignal) : ReplayState :=
  (sortedBy signalSortKey signals.zipIdx).foldl
    (fun state item => replaySignal ar spec replayEvents state item.1)
    (initialReplayState spec)

/-- `run_candle_backtest`. -/
def runCandleBacktest (ar : Arithmetic) (canonicalPayloadHash : CanonicalValue → String)
    (spec : BacktestEngineSpec) (candles : List BacktestCandleEvent)
    (signals : List BacktestSignal) : BacktestResult :=
  let replayEvents := sortedBy eventSortKey candles
  let inputHash := inputHash canonicalPayloadHash spec replayEvents signals
  if signals.any isLookAheadSignal then
    backtestResult canonicalPayloadHash .failed inputHash replayEvents [] []
      [("finalEquity", spec.initialCash)] signals ["look_ahead_signal"]
  else
    let final := replay ar spec replayEvents signals
    backtestResult canonicalPayloadHash .succeeded inputHash replayEvents final.trades
      final.equityPoints
      [("finalEquity", finalEquity ar spec replayEvents final.cash final.basePosition)] signals []

/-- A succeeded run has replayed every signal. -/
theorem runCandleBacktest_succeeded {ar : Arithmetic} {hash : CanonicalValue → String}
    {spec : BacktestEngineSpec} {candles : List BacktestCandleEvent} {signals : List BacktestSignal}
    (h : (runCandleBacktest ar hash spec candles signals).status = .succeeded) :
    (∀ signal ∈ signals, signal.occurredAt ≤ signal.knowledgeAt) ∧
    (runCandleBacktest ar hash spec candles signals).trades =
      (replay ar spec (sortedBy eventSortKey candles) signals).trades ∧
    (runCandleBacktest ar hash spec candles signals).equityPoints =
      (replay ar spec (sortedBy eventSortKey candles) signals).equityPoints := by
  unfold runCandleBacktest at h ⊢
  by_cases hlook : signals.any isLookAheadSignal
  · simp [hlook, backtestResult] at h
  · refine ⟨?_, by simp [hlook, backtestResult], by simp [hlook, backtestResult]⟩
    simpa [isLookAheadSignal] using hlook

end Goodmoneying.Program
