import Goodmoneying.Program.BacktestEngine

/-!
# The fills of a backtest

A run is cut into its *fills*, the signals that are executed together with the event they
are executed on (`fills`, `runFills`), and the replay is the fold of `executeSignal` over them
(`replay_eq_runFills`). Every fill appends one trade (`executeFills_trades`) and one
equity point (`executeFills_equityPoints`), both stamped with the times of its event.
-/

namespace Goodmoneying.Analysis

open Library Program

variable (ar : Arithmetic) (spec : BacktestEngineSpec) (events : List BacktestCandleEvent)
  (signals : List BacktestSignal) (state : ReplayState)

/-- An executed signal and the candle event it is executed on. -/
abbrev Fill := BacktestCandleEvent × BacktestSignal

/-- The execution of one signal, if it has an execution event. -/
def signalFill (signal : BacktestSignal) : Option Fill :=
  (executionEvent spec events signal).map fun event => (event, signal)

/-- The executed signals of a run, in the order of execution. -/
def fills : List Fill :=
  signals.filterMap (signalFill spec events)

variable (executed : List Fill)

/-- The execution loop over signals whose execution events are already chosen. -/
def executeFills : ReplayState :=
  executed.foldl (fun state fill => executeSignal ar spec state fill.1 fill.2) state

/-- The fills of a whole run. -/
def runFills (candles : List BacktestCandleEvent) (signals : List BacktestSignal) : List Fill :=
  fills spec (sortedBy eventSortKey candles) (sortedBy signalKey signals)

/-- Rounds without an execution event change nothing, so the loop is a loop over the
fills. -/
theorem foldl_replaySignal : signals.foldl (replaySignal ar spec events) state =
      executeFills ar spec state (fills spec events signals) := by
  induction signals generalizing state with
  | nil => rfl
  | cons signal signals ih =>
    rw [List.foldl_cons, ih]
    cases hevent : executionEvent spec events signal with
    | none => simp [fills, signalFill, replaySignal, hevent]
    | some event => simp [fills, signalFill, replaySignal, executeFills, hevent]

/-- The replay executes the fills of the sorted signals.
SOURCE: backtest_engine.py:170-219 -/
theorem replay_eq_executeFills : replay ar spec events signals =
      executeFills ar spec (initialReplayState spec)
        (fills spec events (sortedBy signalKey signals)) := by
  rw [← foldl_replaySignal, ← map_fst_sortedBy_zipIdx signalKey signals 0, List.foldl_map]
  rfl

theorem executeFills_cons (fill : Fill) (executed : List Fill) :
    executeFills ar spec state (fill :: executed) =
      executeFills ar spec (executeSignal ar spec state fill.1 fill.2) executed := rfl

/-- The replay executes the fills of the run in their order. -/
theorem replay_eq_runFills (candles : List BacktestCandleEvent) (signals : List BacktestSignal) :
    replay ar spec (sortedBy eventSortKey candles) signals =
      executeFills ar spec (initialReplayState spec) (runFills spec candles signals) :=
  replay_eq_executeFills ar spec (sortedBy eventSortKey candles) signals

theorem executeFills_append (first second : List Fill) :
    executeFills ar spec state (first ++ second) =
      executeFills ar spec (executeFills ar spec state first) second :=
  List.foldl_append

/-- Every fill appends its trade, which does not depend on the state. -/
theorem executeFills_trades : (executeFills ar spec state executed).trades =
      state.trades ++ executed.map fun fill => executedTrade ar spec fill.1 fill.2 := by
  induction executed generalizing state with
  | nil => simp [executeFills]
  | cons fill executed ih =>
    rw [executeFills_cons, ih]
    simp [executeSignal]

/-- One fill appends one equity point, stamped with the times of its event. -/
theorem executeSignal_equityPoints (fill : Fill) : ∃ point : BacktestEquityPoint,
      (executeSignal ar spec state fill.1 fill.2).equityPoints = state.equityPoints ++ [point] ∧
      (point.occurredAt, point.knowledgeAt) = (fill.1.occurredAt, fill.1.knowledgeAt) :=
  ⟨_, rfl, rfl⟩

/-- Every fill appends one equity point, stamped with the times of its event. -/
theorem executeFills_equityPoints : ∃ points : List BacktestEquityPoint,
      (executeFills ar spec state executed).equityPoints = state.equityPoints ++ points ∧
      points.map (fun point => (point.occurredAt, point.knowledgeAt)) =
        executed.map fun fill => (fill.1.occurredAt, fill.1.knowledgeAt) := by
  induction executed generalizing state with
  | nil => exact ⟨[], by simp [executeFills], rfl⟩
  | cons fill executed ih =>
    obtain ⟨points, happend, htimes⟩ := ih (executeSignal ar spec state fill.1 fill.2)
    obtain ⟨point, hpoint, htime⟩ := executeSignal_equityPoints ar spec state fill
    refine ⟨point :: points, ?_, by simp [htime, htimes]⟩
    rw [executeFills_cons, happend, hpoint]
    simp

/-- The execution event is available and not known before the target time. -/
theorem executionEvent_some {spec : BacktestEngineSpec} {events : List BacktestCandleEvent}
    {signal : BacktestSignal} {event : BacktestCandleEvent}
    (h : executionEvent spec events signal = some event) :
    event ∈ events ∧ event.quality = .available ∧
      targetKnowledgeAt spec signal ≤ event.knowledgeAt := by
  have hp := List.find?_some h
  simp only [decide_eq_true_eq] at hp
  exact ⟨List.mem_of_find?_eq_some h, hp.1, hp.2⟩

/-- A spec with a latency of one second. -/
def delayedSpec : BacktestEngineSpec where
  datasetVersionId := 1
  datasetContentHash := "d"
  strategyVersionId := 1
  strategyGraphHash := "s"
  engineVersion := "1"
  parameterHash := "p"
  seed := 0
  initialCash := 1000
  execution :=
    { feeRate := 1 / 1000, slippageBps := 5, latencySeconds := 1, maxParticipationRate := 1 / 2 }

/-- An available candle known one second after it closed. -/
def candleAt (second : ℤ) (close : ℚ) : BacktestCandleEvent where
  instrumentId := 1
  marketCode := "KRW-BTC"
  occurredAt := Instant.addSeconds 0 second
  knowledgeAt := Instant.addSeconds 0 (second + 1)
  stableSequence := "a"
  openPrice := close
  high := close
  low := close
  close := close
  volume := 3
  quality := .available
  contentHash := "c"

/-- A buy signal known when it occurs. -/
def buyAt (second : ℤ) : BacktestSignal where
  occurredAt := Instant.addSeconds 0 second
  knowledgeAt := Instant.addSeconds 0 second
  side := .buy
  baseQuantity := 2

end Goodmoneying.Analysis
