import Goodmoneying.Analysis.BacktestStorage

/-!
# Where the equity of a backtest comes from

Marked at any price, what a fill adds to the equity is its quantity times the distance from the
close of its candle to that price, less its fee and the slippage (`executeSignal_marked`). So the
equity after any number of fills is the initial cash and the sum of what they add, and at its own
close a fill costs its fee and its slippage.
-/

namespace Goodmoneying.Analysis

open List Library Program

variable {spec : BacktestEngineSpec}
variable {k : ℕ} {fill : Fill} {hash : CanonicalValue → String} {candles : List BacktestCandleEvent}
  {signals : List BacktestSignal}

/-- `1` for a buy and `-1` for a sell. -/
def direction : Side → ℚ
  | .buy => 1
  | .sell => -1

/-- A trade with the event it was executed on. -/
abbrev Execution := BacktestTrade × BacktestCandleEvent

/-- What a trade gains when the base is marked at `mark` and not at the close it traded at. -/
def gain (mark : ℚ) (execution : Execution) : ℚ :=
  direction execution.1.side * execution.1.filledQuantity * (mark - execution.2.close)

/-- What a trade costs: its fee and its slippage. -/
def cost (spec : BacktestEngineSpec) (execution : Execution) : ℚ :=
  execution.1.feePaid +
    execution.1.filledQuantity * execution.2.close * spec.execution.slippageBps / 10000

/-- The initial cash with what the trades gain and cost. -/
def attributedEquity (spec : BacktestEngineSpec) (mark : ℚ) (executions : List Execution) : ℚ :=
  spec.initialCash + (executions.map (gain mark)).sum - (executions.map (cost spec)).sum

/-- The execution of a fill. -/
def executionOf (ar : Arithmetic) (spec : BacktestEngineSpec) (fill : Fill) : Execution :=
  (executedTrade ar spec fill.1 fill.2, fill.1)

/-- The equity of a state whose base is marked at a price. -/
def markedEquity (state : ReplayState) (mark : ℚ) : ℚ := state.cash + state.basePosition * mark

/-- What one fill adds, marked at any price. -/
theorem executeSignal_marked (spec : BacktestEngineSpec) (state : ReplayState) (fill : Fill)
    (mark : ℚ) : markedEquity (executeSignal Arithmetic.exact spec state fill.1 fill.2) mark =
      markedEquity state mark + gain mark (executionOf Arithmetic.exact spec fill) -
        cost spec (executionOf Arithmetic.exact spec fill) := by
  obtain ⟨event, signal⟩ := fill
  cases hside : signal.side with
  | buy =>
    simp only [markedEquity, executeSignal, gain, cost, executionOf, executedTrade, fillPrice,
      direction, hside, Arithmetic.exact_add, Arithmetic.exact_sub, Arithmetic.exact_mul,
      Arithmetic.exact_div]
    ring
  | sell =>
    simp only [markedEquity, executeSignal, gain, cost, executionOf, executedTrade, fillPrice,
      direction, hside, Arithmetic.exact_add, Arithmetic.exact_sub, Arithmetic.exact_mul,
      Arithmetic.exact_div]
    ring

/-- The equity point of a fill marks the state after it at the close of its candle. -/
theorem executeSignal_point (spec : BacktestEngineSpec) (state : ReplayState) (fill : Fill) :
    (executeSignal Arithmetic.exact spec state fill.1 fill.2).equityPoints =
      state.equityPoints ++ [{
        occurredAt := fill.1.occurredAt
        knowledgeAt := fill.1.knowledgeAt
        cash := (executeSignal Arithmetic.exact spec state fill.1 fill.2).cash
        basePosition := (executeSignal Arithmetic.exact spec state fill.1 fill.2).basePosition
        equity := markedEquity (executeSignal Arithmetic.exact spec state fill.1 fill.2)
          fill.1.close }] := rfl

theorem executeFills_marked (spec : BacktestEngineSpec) (executed : List Fill) (mark : ℚ) :
    markedEquity (executeFills Arithmetic.exact spec (initialReplayState spec) executed) mark =
      attributedEquity spec mark (executed.map (executionOf Arithmetic.exact spec)) := by
  induction executed using List.reverseRecOn with
  | nil => simp [executeFills, markedEquity, initialReplayState, attributedEquity]
  | append_singleton executed fill ih =>
    rw [executeFills_append, executeFills_cons]
    change markedEquity (executeSignal Arithmetic.exact spec _ fill.1 fill.2) mark = _
    rw [executeSignal_marked, ih]
    simp only [attributedEquity, map_append, map_cons, map_nil, sum_append, sum_cons, sum_nil]
    ring

/-- The fills up to one of them. -/
theorem take_succ_eq {α : Type} {l : List α} {a : α} (h : l[k]? = some a) :
    l.take (k + 1) = l.take k ++ [a] := by
  rw [take_add_one, h]
  rfl

/-- The equity point of a fill is that of the state after the fills up to it. -/
theorem executeFills_point {executed : List Fill} {point : BacktestEquityPoint}
    (hfill : executed[k]? = some fill) (hpoint : (executeFills Arithmetic.exact spec
      (initialReplayState spec) executed).equityPoints[k]? = some point) :
    let after := executeFills Arithmetic.exact spec (initialReplayState spec)
      (executed.take (k + 1))
    point.cash = after.cash ∧ point.basePosition = after.basePosition ∧
      point.equity = markedEquity after fill.1.close := by
  have hk : k < executed.length := (List.getElem?_eq_some_iff.mp hfill).1
  obtain ⟨before, hbefore, htimes⟩ := executeFills_equityPoints Arithmetic.exact spec
    (initialReplayState spec) (executed.take k)
  have hlength : before.length = k := by
    have hlength := congrArg List.length htimes
    simpa [Nat.min_eq_left hk.le] using hlength
  obtain ⟨later, hlater, -⟩ := executeFills_equityPoints Arithmetic.exact spec
    (executeFills Arithmetic.exact spec (initialReplayState spec) (executed.take (k + 1)))
    (executed.drop (k + 1))
  have hstep : executeFills Arithmetic.exact spec (initialReplayState spec)
      (executed.take (k + 1)) =
      executeSignal Arithmetic.exact spec
        (executeFills Arithmetic.exact spec (initialReplayState spec) (executed.take k))
        fill.1 fill.2 := by
    rw [take_succ_eq hfill, executeFills_append]
    rfl
  rw [← executeFills_append, take_append_drop] at hlater
  rw [hlater, hstep, executeSignal_point, hbefore] at hpoint
  simp only [initialReplayState, nil_append, append_assoc, singleton_append] at hpoint
  rw [List.getElem?_append_right hlength.le, hlength, Nat.sub_self, List.getElem?_cons_zero,
    Option.some.injEq] at hpoint
  subst hpoint
  exact ⟨congrArg ReplayState.cash hstep.symm, congrArg ReplayState.basePosition hstep.symm,
    congrArg (fun state => markedEquity state fill.1.close) hstep.symm⟩

/-- A fill at ordinary costs, with nothing negative, costs something. -/
theorem cost_nonneg (hslippage : 0 ≤ spec.execution.slippageBps) (hfee : 0 ≤ spec.execution.feeRate)
    (hcosts : spec.execution.slippageBps ≤ 10000 ∨ spec.execution.feeRate ≤ 1)
    (hrate : 0 ≤ spec.execution.maxParticipationRate) (hclose : 0 ≤ fill.1.close)
    (hvolume : 0 ≤ fill.1.volume) (hquantity : 0 ≤ fill.2.baseQuantity) :
    0 ≤ cost spec (executionOf Arithmetic.exact spec fill) := by
  obtain ⟨event, signal⟩ := fill
  dsimp only at hclose hvolume hquantity
  have hfilled : 0 ≤ min signal.baseQuantity
      (event.volume * spec.execution.maxParticipationRate) :=
    le_min hquantity (mul_nonneg hvolume hrate)
  have hvalue := mul_nonneg hfilled hclose
  have hratio : 0 ≤ spec.execution.slippageBps / 10000 := by positivity
  cases hside : signal.side with
  | buy =>
    have hcost : cost spec (executionOf Arithmetic.exact spec (event, signal)) =
        min signal.baseQuantity (event.volume * spec.execution.maxParticipationRate) *
          event.close * ((1 + spec.execution.slippageBps / 10000) * spec.execution.feeRate +
            spec.execution.slippageBps / 10000) := by
      simp only [cost, executionOf, executedTrade, fillPrice, hside, Arithmetic.exact_add,
        Arithmetic.exact_mul, Arithmetic.exact_div]
      ring
    rw [hcost]
    positivity
  | sell =>
    have hcost : cost spec (executionOf Arithmetic.exact spec (event, signal)) =
        min signal.baseQuantity (event.volume * spec.execution.maxParticipationRate) *
          event.close * ((1 - spec.execution.slippageBps / 10000) * spec.execution.feeRate +
            spec.execution.slippageBps / 10000) := by
      simp only [cost, executionOf, executedTrade, fillPrice, hside, Arithmetic.exact_sub,
        Arithmetic.exact_mul, Arithmetic.exact_div]
      ring
    rw [hcost]
    refine mul_nonneg hvalue ?_
    rcases hcosts with hslip | hfee'
    · have hprice : 0 ≤ 1 - spec.execution.slippageBps / 10000 := by
        rw [sub_nonneg, div_le_one (by norm_num)]
        exact hslip
      positivity
    · have hrest : 0 ≤ spec.execution.slippageBps / 10000 * (1 - spec.execution.feeRate) :=
        mul_nonneg hratio (sub_nonneg.mpr hfee')
      linarith

/-- The executions of a run: its trades with the events they were executed on. -/
def executionsOf (result : BacktestResult) (executed : List BacktestCandleEvent) :
    List Execution := result.trades.zip executed

/-- The executions of a succeeded run are those of its fills. -/
theorem executionsOf_succeeded
    (h : (runCandleBacktest Arithmetic.exact hash spec candles signals).status = .succeeded) :
    executionsOf (runCandleBacktest Arithmetic.exact hash spec candles signals)
        ((runFills spec candles signals).map Prod.fst) =
      (runFills spec candles signals).map (executionOf Arithmetic.exact spec) := by
  rw [executionsOf, (succeeded_entries h).1, zip_map']
  rfl

theorem metrics_succeeded {ar : Arithmetic}
    (h : (runCandleBacktest ar hash spec candles signals).status = .succeeded) :
    (runCandleBacktest ar hash spec candles signals).metrics =
      [("finalEquity", finalEquity ar spec (sortedBy eventSortKey candles)
        (replay ar spec (sortedBy eventSortKey candles) signals).cash
        (replay ar spec (sortedBy eventSortKey candles) signals).basePosition)] := by
  unfold runCandleBacktest at h ⊢
  by_cases hlook : signals.any isLookAheadSignal
  · simp [hlook, backtestResult] at h
  · simp [hlook, backtestResult]

/-- Equity attribution with exact arithmetic: final equity and every equity point are the
initial cash with what the trades so far gain and cost; and at ordinary costs, with nothing
negative, no fill raises the equity marked at its own close.
SOURCE: backtest_engine.py:176-236, 392-407 -/
theorem runCandleBacktest_equity (hash : CanonicalValue → String) (spec : BacktestEngineSpec)
    (candles : List BacktestCandleEvent) (signals : List BacktestSignal)
    (hsucceeded : (runCandleBacktest Arithmetic.exact hash spec candles signals).status =
      .succeeded) :
    let result := runCandleBacktest Arithmetic.exact hash spec candles signals
    let executed := (runFills spec candles signals).map Prod.fst
    (∀ last, (sortedBy eventSortKey candles).getLast? = some last →
      result.metrics = [("finalEquity",
        attributedEquity spec last.close (executionsOf result executed))]) ∧
    result.equityPoints.length = executed.length ∧
    (∀ k point event, result.equityPoints[k]? = some point → executed[k]? = some event →
      point.equity =
        attributedEquity spec event.close ((executionsOf result executed).take (k + 1))) ∧
    (0 ≤ spec.execution.slippageBps → 0 ≤ spec.execution.feeRate →
      spec.execution.slippageBps ≤ 10000 ∨ spec.execution.feeRate ≤ 1 →
      0 ≤ spec.execution.maxParticipationRate →
      (∀ event ∈ candles, 0 ≤ event.close ∧ 0 ≤ event.volume) →
      (∀ signal ∈ signals, 0 ≤ signal.baseQuantity) →
      ∀ k point event, result.equityPoints[k]? = some point → executed[k]? = some event →
        (k = 0 → point.equity ≤ spec.initialCash) ∧
        ∀ previous, 0 < k → result.equityPoints[k - 1]? = some previous →
          point.equity ≤ previous.cash + previous.basePosition * event.close) := by
  intro result executed
  have hexecutions := executionsOf_succeeded hsucceeded
  obtain ⟨-, -, hpoints⟩ := runCandleBacktest_succeeded hsucceeded
  rw [replay_eq_runFills] at hpoints
  have hat : ∀ {k point event}, result.equityPoints[k]? = some point → executed[k]? = some event →
      ∃ fill, fill.1 = event ∧ (runFills spec candles signals)[k]? = some fill ∧
        let after := executeFills Arithmetic.exact spec (initialReplayState spec)
          ((runFills spec candles signals).take (k + 1))
        point.cash = after.cash ∧ point.basePosition = after.basePosition ∧
          point.equity = markedEquity after event.close := by
    intro k point event hpoint hevent
    rw [List.getElem?_map, Option.map_eq_some_iff] at hevent
    obtain ⟨fill, hfill, rfl⟩ := hevent
    exact ⟨fill, rfl, hfill, executeFills_point hfill (hpoints ▸ hpoint)⟩
  refine ⟨?_, ?_, ?_, ?_⟩
  · intro last hlast
    rw [metrics_succeeded hsucceeded, finalEquity, hlast, replay_eq_runFills]
    change [("finalEquity", markedEquity _ last.close)] = _
    rw [executeFills_marked, hexecutions]
  · have hlength := congrArg List.length (succeeded_entries hsucceeded).2
    simpa [executed] using hlength
  · intro k point event hpoint hevent
    obtain ⟨fill, rfl, -, -, -, hequity⟩ := hat hpoint hevent
    rw [hequity, executeFills_marked, hexecutions, map_take]
  · intro hslippage hfee hcosts hrate hcandles hsignals k point event hpoint hevent
    obtain ⟨fill, rfl, hfill, -, -, hequity⟩ := hat hpoint hevent
    obtain ⟨hmem, hsignal⟩ := mem_runFills (mem_of_getElem? hfill)
    obtain ⟨hclose, hvolume⟩ := hcandles fill.1 hmem
    have hcost := cost_nonneg hslippage hfee hcosts hrate hclose hvolume (hsignals _ hsignal)
    -- at its own close a fill gains nothing
    have hgain : gain fill.1.close (executionOf Arithmetic.exact spec fill) = 0 := by
      simp [gain, executionOf]
    have hstep : point.equity = markedEquity (executeFills Arithmetic.exact spec
        (initialReplayState spec) ((runFills spec candles signals).take k)) fill.1.close -
          cost spec (executionOf Arithmetic.exact spec fill) := by
      rw [hequity, take_succ_eq hfill, executeFills_append]
      change markedEquity (executeSignal Arithmetic.exact spec _ fill.1 fill.2) _ = _
      rw [executeSignal_marked, hgain, add_zero]
    constructor
    · rintro rfl
      have hinitial : markedEquity (executeFills Arithmetic.exact spec (initialReplayState spec)
          ((runFills spec candles signals).take 0)) fill.1.close = spec.initialCash := by
        simp [executeFills, markedEquity, initialReplayState]
      linarith
    · intro previous hpos hprevious
      obtain ⟨k, rfl⟩ := Nat.exists_eq_add_of_lt hpos
      rw [Nat.zero_add, Nat.add_sub_cancel] at hprevious
      rw [Nat.zero_add] at hstep
      have hlt : k < (runFills spec candles signals).length := by
        have hlt := (List.getElem?_eq_some_iff.mp hfill).1
        omega
      have hbefore : executed[k]? = some (runFills spec candles signals)[k].1 := by
        simp [executed, hlt]
      obtain ⟨-, -, -, hcash, hbase, -⟩ := hat hprevious hbefore
      rw [hstep, markedEquity, ← hcash, ← hbase]
      linarith

/-- A sell signal known when it occurs. -/
def sellAt (second : ℤ) : BacktestSignal := { buyAt second with side := .sell }

/-- A buy and a sell on two candles. -/
theorem runCandleBacktest_equity_two_fills :
    let result := runCandleBacktest Arithmetic.exact (fun _ => "") delayedSpec
      [candleAt 60 100, candleAt 120 110] [buyAt 10, sellAt 80]
    let executed := (runFills delayedSpec [candleAt 60 100, candleAt 120 110]
      [buyAt 10, sellAt 80]).map Prod.fst
    executed.length = 2 ∧
    result.metrics = [("finalEquity",
      attributedEquity delayedSpec 110 (executionsOf result executed))] ∧
    ∀ k point event, result.equityPoints[k]? = some point → executed[k]? = some event →
      (k = 0 → point.equity ≤ delayedSpec.initialCash) ∧
      ∀ previous, 0 < k → result.equityPoints[k - 1]? = some previous →
        point.equity ≤ previous.cash + previous.basePosition * event.close := by
  have hequity := runCandleBacktest_equity (fun _ => "") delayedSpec
    [candleAt 60 100, candleAt 120 110] [buyAt 10, sellAt 80] (by decide +kernel)
  exact ⟨by decide +kernel, hequity.1 (candleAt 120 110) (by decide +kernel),
    hequity.2.2.2 (by decide +kernel) (by decide +kernel) (Or.inl (by decide +kernel))
      (by decide +kernel) (by decide +kernel) (by decide +kernel)⟩

/-- A fee of three times the notional and a slippage of twice the close. -/
def extremeSpec : BacktestEngineSpec :=
  { delayedSpec with
    execution := { delayedSpec.execution with feeRate := 3, slippageBps := 20000 } }

/-- A negative share of the volume. -/
def negativeRateSpec : BacktestEngineSpec :=
  { delayedSpec with
    execution := { delayedSpec.execution with maxParticipationRate := -1 / 2 } }

/-- A fill that raises the equity, though slippage, fee, closes, volumes and quantities are not
negative: a sale at more than twice its value in costs pays a negative fee, and so does a
fill of a negative share. -/
theorem equity_raised_by_fill :
    (∀ spec ∈ [extremeSpec, negativeRateSpec], 0 ≤ spec.execution.slippageBps ∧
      0 ≤ spec.execution.feeRate) ∧
    (∀ event ∈ [candleAt 60 100], 0 ≤ event.close ∧ 0 ≤ event.volume) ∧
    (∀ signal ∈ [sellAt 10], 0 ≤ signal.baseQuantity) ∧
    ∀ spec ∈ [extremeSpec, negativeRateSpec],
      (runCandleBacktest Arithmetic.exact (fun _ => "") spec [candleAt 60 100]
        [sellAt 10]).status = .succeeded ∧
      ¬ ∀ point ∈ (runCandleBacktest Arithmetic.exact (fun _ => "") spec [candleAt 60 100]
        [sellAt 10]).equityPoints, point.equity ≤ spec.initialCash := by
  decide +kernel

end Goodmoneying.Analysis
