import Goodmoneying.Analysis.BacktestStorage
import Goodmoneying.Library.CappedSum

/-!
# The share of a candle's volume that is filled

A fill is cut to the share of the candle's volume that the engine may use, but every signal is
cut by itself: signals that resolve to the same candle are each given the whole share. What they are
cut to is the product as the arithmetic rounds it, which may be above the share. Together they keep
within the share exactly when their quantities fit it.
-/

namespace Goodmoneying.Analysis

open List Library Program

/-- What the engine cuts a fill to: the share of the candle's volume, as the arithmetic rounds
it. -/
def usableVolume (ar : Arithmetic) (spec : BacktestEngineSpec) (event : BacktestCandleEvent) : ℚ :=
  ar.mul event.volume spec.execution.maxParticipationRate

/-- The share of a candle's volume that the engine may use. -/
def volumeShare (spec : BacktestEngineSpec) (event : BacktestCandleEvent) : ℚ :=
  event.volume * spec.execution.maxParticipationRate

/-- The quantities of the signals that resolve to a candle event. -/
def quantitiesFor (spec : BacktestEngineSpec) (candles : List BacktestCandleEvent)
    (signals : List BacktestSignal) (event : BacktestCandleEvent) : List ℚ :=
  (signals.filter fun signal =>
    executionEvent spec (sortedBy eventSortKey candles) signal = some event).map
      BacktestSignal.baseQuantity

/-- What the trades of a run fill against a candle event; `executed` are the events the trades
were executed on, in the order of the trades. -/
def filledAgainst (result : BacktestResult) (executed : List BacktestCandleEvent)
    (event : BacktestCandleEvent) : ℚ :=
  (((result.trades.zip executed).filter fun trade => trade.2 = event).map fun trade =>
    trade.1.filledQuantity).sum

/-- The fills on one event are the signals that resolve to it. -/
theorem filter_fills_event (spec : BacktestEngineSpec) (events : List BacktestCandleEvent)
    (signals : List BacktestSignal) (event : BacktestCandleEvent) :
    (fills spec events signals).filter (fun fill => fill.1 = event) =
      (signals.filter fun signal => executionEvent spec events signal = some event).map
        fun signal => (event, signal) := by
  induction signals with
  | nil => rfl
  | cons signal signals ih =>
    rw [fills] at ih ⊢
    cases hevent : executionEvent spec events signal with
    | none =>
      rw [filterMap_cons_none (by rw [signalFill, hevent]; rfl),
        filter_cons_of_neg (by simp [hevent]), ih]
    | some other =>
      rw [filterMap_cons_some (b := (other, signal)) (by rw [signalFill, hevent]; rfl)]
      by_cases heq : other = event
      · subst heq
        rw [filter_cons_of_pos (by simp), filter_cons_of_pos (by simp [hevent]), ih]
        rfl
      · rw [filter_cons_of_neg (by simpa using heq),
          filter_cons_of_neg (by simpa [hevent] using heq), ih]

/-- The total filled against an event cuts each quantity to the usable volume. -/
theorem filledAgainst_eq {ar : Arithmetic} {hash : CanonicalValue → String}
    {spec : BacktestEngineSpec} {candles : List BacktestCandleEvent} {signals : List BacktestSignal}
    (h : (runCandleBacktest ar hash spec candles signals).status = .succeeded)
    (event : BacktestCandleEvent) : filledAgainst (runCandleBacktest ar hash spec candles signals)
        ((runFills spec candles signals).map Prod.fst) event =
      ((quantitiesFor spec candles signals event).map
        (min · (usableVolume ar spec event))).sum := by
  have hperm : ((sortedBy signalKey signals).filter fun signal =>
      executionEvent spec (sortedBy eventSortKey candles) signal = some event).Perm
      (signals.filter fun signal =>
        executionEvent spec (sortedBy eventSortKey candles) signal = some event) :=
    (sortedBy_perm signalKey signals).filter _
  have hfills := filter_fills_event spec (sortedBy eventSortKey candles)
    (sortedBy signalKey signals) event
  rw [filledAgainst, (succeeded_entries h).1, zip_map', filter_map, map_map]
  change (((runFills spec candles signals).filter fun fill => fill.1 = event).map fun fill =>
    (executedTrade ar spec fill.1 fill.2).filledQuantity).sum = _
  rw [runFills, hfills, map_map, quantitiesFor, map_map]
  exact (hperm.map _).sum_eq

/-- The fills of a run keep within the share of the volume of every candle if and only if the
quantities of the signals that resolve to it fit that share. Where no quantity is negative and the
arithmetic does not round the share, this says that they fit it together, or at most one of them
takes anything, or none of the volume can be used.
SOURCE: backtest_engine.py:180-223,376-389 -/
theorem participation_capped_iff (ar : Arithmetic) (hash : CanonicalValue → String)
    (spec : BacktestEngineSpec) (candles : List BacktestCandleEvent)
    (signals : List BacktestSignal) :
    (((runCandleBacktest ar hash spec candles signals).status = .succeeded →
        ∀ event ∈ candles, filledAgainst (runCandleBacktest ar hash spec candles signals)
          ((runFills spec candles signals).map Prod.fst) event ≤ volumeShare spec event) ↔
      ((∀ signal ∈ signals, signal.occurredAt ≤ signal.knowledgeAt) →
        ∀ event ∈ candles, CappedSum.Fits (usableVolume ar spec event) (volumeShare spec event)
          (quantitiesFor spec candles signals event))) ∧
    ((∀ signal ∈ signals, 0 ≤ signal.baseQuantity) →
      ∀ event ∈ candles, 0 ≤ volumeShare spec event →
        usableVolume ar spec event = volumeShare spec event →
        (CappedSum.Fits (usableVolume ar spec event) (volumeShare spec event)
            (quantitiesFor spec candles signals event) ↔
          (quantitiesFor spec candles signals event).sum ≤ volumeShare spec event ∨
          ((quantitiesFor spec candles signals event).filter (0 < ·)).length ≤ 1 ∨
          volumeShare spec event = 0)) := by
  have hstatus : (runCandleBacktest ar hash spec candles signals).status = .succeeded ↔
      ∀ signal ∈ signals, signal.occurredAt ≤ signal.knowledgeAt := by
    constructor
    · exact fun h => (runCandleBacktest_succeeded h).1
    · intro h
      have hnone : ¬ signals.any isLookAheadSignal := by
        simpa [isLookAheadSignal] using h
      simp [runCandleBacktest, hnone, backtestResult]
  constructor
  · rw [← hstatus]
    refine forall_congr' fun h => forall₂_congr fun event _ => ?_
    rw [filledAgainst_eq h, CappedSum.fits_iff]
  · intro hquantities event _ hvolume hexact
    rw [hexact]
    refine CappedSum.fits_iff_of_nonneg hvolume fun q hq => ?_
    obtain ⟨signal, hsignal, rfl⟩ := mem_map.mp hq
    exact hquantities signal (mem_of_mem_filter hsignal)

/-- Two signals on two candles keep within the volume of each. -/
theorem participation_capped_two_candles : ∀ event ∈ [candleAt 60 100, candleAt 120 7],
      filledAgainst (runCandleBacktest Arithmetic.default (fun _ => "") delayedSpec
          [candleAt 60 100, candleAt 120 7] [buyAt 10, buyAt 80])
        ((runFills delayedSpec [candleAt 60 100, candleAt 120 7]
          [buyAt 10, buyAt 80]).map Prod.fst) event ≤ volumeShare delayedSpec event := by
  refine (participation_capped_iff Arithmetic.default (fun _ => "") delayedSpec _ _).1.mpr
    (fun _ event hevent => ?_) (by decide +kernel)
  unfold CappedSum.Fits
  revert event
  decide +kernel

/-- Two signals on one candle take its usable volume twice. -/
theorem participation_exceeded_shared_candle :
    (runCandleBacktest Arithmetic.default (fun _ => "") delayedSpec [candleAt 60 100]
      [buyAt 10, buyAt 20]).status = .succeeded ∧
    ¬ filledAgainst (runCandleBacktest Arithmetic.default (fun _ => "") delayedSpec
        [candleAt 60 100] [buyAt 10, buyAt 20])
      ((runFills delayedSpec [candleAt 60 100] [buyAt 10, buyAt 20]).map Prod.fst)
      (candleAt 60 100) ≤ volumeShare delayedSpec (candleAt 60 100) :=
  ⟨by decide +kernel, by decide +kernel⟩

end Goodmoneying.Analysis
