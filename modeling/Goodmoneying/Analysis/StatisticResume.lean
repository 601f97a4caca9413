import Goodmoneying.Analysis.IndicatorResume
import Goodmoneying.Program.MarketStatistics

/-!
# Market statistics resumed from a checkpoint

The market statistics are a resumable loop as the indicators are (`statisticStep_checkpointed`): a
point holds the previous close, the previous start and the window of returns as texts that read
back. The content hash of a point is computed of its values and of those texts.
-/

namespace Goodmoneying.Analysis

open List Library Program Program.VersionedIndicators
open Goodmoneying.Program.MarketStatistics (calculateMarketStatistics statisticStep statisticRound
  MarketStatisticPoint)

/-- A state whose decimals are numbers of the context and whose window fits the checkpoint. -/
structure SavableReturns (state : MarketStatistics.SeriesState) : Prop where
  window : state.returns.length ≤ 20
  returns : ∀ value ∈ state.returns, InContext value
  previousClose : ∀ value ∈ state.previousClose, InContext value

/-- A checkpoint holds the whole state. -/
theorem ofCheckpoint_statisticCheckpoint {state : MarketStatistics.SeriesState}
    {startedAt : Datetime} {sourceAsOf : Option Datetime} (h : SavableReturns state)
    (hprevious : state.previousStartedAt = some startedAt) :
    MarketStatistics.SeriesState.ofCheckpoint (some
      (MarketStatistics.checkpoint state.previousClose startedAt state.returns sourceAsOf)) =
      .ok state := by
  have hwindow : state.returns.rtake 20 = state.returns := rtake_of_length_le h.window
  unfold MarketStatistics.SeriesState.ofCheckpoint MarketStatistics.checkpoint
  simp only [hwindow, optionalDecimal_canonical h.previousClose,
    if_neg (isoformat_ne_empty startedAt), fromisoformat_isoformat,
    mapM_decimalOfText_canonical h.returns, ok_bind]
  show Except.ok (⟨_, some startedAt, _⟩ : MarketStatistics.SeriesState) = .ok state
  rw [← hprevious]

theorem inContext_closeReturn {previousClose : Option ℚ} {close : ℚ} :
    ∀ value ∈ MarketStatistics.closeReturn previousClose close, InContext value := by
  intro value hvalue
  unfold MarketStatistics.closeReturn at hvalue
  cases previousClose with
  | none => cases hvalue
  | some previousClose =>
    dsimp only at hvalue
    split_ifs at hvalue
    · obtain rfl := Option.some.inj hvalue
      exact inContext_context _
    · cases hvalue

/-- The window after another return, whether it starts anew or not. -/
theorem savable_window {returns : List ℚ} {change : Option ℚ} (hwindow : returns.length ≤ 20)
    (hreturns : ∀ value ∈ returns, InContext value) (hchange : ∀ value ∈ change, InContext value) :
    (match change with
      | none => returns
      | some change => (returns ++ [change]).rtake 20).length ≤ 20 ∧
    ∀ value ∈ (match change with
      | none => returns
      | some change => (returns ++ [change]).rtake 20), InContext value := by
  cases change with
  | none => exact ⟨hwindow, hreturns⟩
  | some change =>
    refine ⟨?_, fun value hvalue => ?_⟩
    · simp only [List.rtake, length_drop]
      omega
    · cases mem_append.mp (mem_of_mem_drop hvalue) with
      | inl hvalue => exact hreturns value hvalue
      | inr hvalue =>
        rw [mem_singleton.mp hvalue]
        exact hchange change rfl

/-- A round ends in a savable state, and its point holds it. -/
theorem statisticStep_eq_ok {sha256 : String → String} {unit : String}
    {state next : MarketStatistics.SeriesState} {candle : MarketStatistics.CandleView}
    {result : MarketStatisticPoint} (h : SavableReturns state) (hclose : InContext candle.close)
    (hstep : statisticStep sha256 unit state candle = .ok (next, result)) :
    SavableReturns next ∧ next.previousStartedAt = some candle.startedAt ∧
      result.checkpointState = MarketStatistics.checkpoint next.previousClose candle.startedAt
        next.returns candle.sourceAsOf := by
  unfold statisticStep at hstep
  obtain ⟨gap, -, hstep⟩ := bind_eq_ok.mp hstep
  dsimp only at hstep
  generalize hreset : (gap || !candle.valid) = reset at hstep
  have hreturns : (if reset then [] else state.returns).length ≤ 20 ∧
      ∀ value ∈ (if reset then [] else state.returns), InContext value := by
    cases reset with
    | false => exact ⟨h.window, h.returns⟩
    | true => simp
  by_cases hvalid : candle.valid = true
  · rw [if_pos hvalid] at hstep
    obtain ⟨rfl, rfl⟩ := Prod.mk.inj (pure_eq_ok.mp hstep)
    obtain ⟨hwindow, hvalues⟩ := savable_window hreturns.1 hreturns.2 inContext_closeReturn
    exact ⟨⟨hwindow, hvalues, by simpa using hclose⟩, rfl, rfl⟩
  · have hunusable : reset = true := by
      rw [← hreset, Bool.eq_false_iff.mpr hvalid, Bool.not_false, Bool.or_true]
    rw [if_neg hvalid, hunusable] at hstep
    obtain ⟨rfl, rfl⟩ := Prod.mk.inj (pure_eq_ok.mp hstep)
    exact ⟨⟨by simp, by simp, by simp⟩, rfl, rfl⟩

/-- The market statistics are a resumable loop. -/
theorem statisticStep_checkpointed (sha256 : String → String) (unit : String) :
    Checkpointed (statisticStep sha256 unit) (fun result => some result.checkpointState)
      MarketStatistics.SeriesState.ofCheckpoint SavableReturns
      (fun candle => InContext candle.close) where
  keeps _ _ _ _ h hclose hstep := (statisticStep_eq_ok h hclose hstep).1
  restores _ _ _ _ h hclose hstep := by
    obtain ⟨hnext, hprevious, hcheckpoint⟩ := statisticStep_eq_ok h hclose hstep
    rw [hcheckpoint]
    exact ofCheckpoint_statisticCheckpoint hnext hprevious

/-- On candles in order the points are the outputs of the loop. -/
theorem calculateMarketStatistics_eq_loadedRun {candles : List MarketStatistics.CandleView}
    (hsorted : candles.Pairwise fun a b => a.startedAt.instant ≤ b.startedAt.instant)
    (hdistinct : (candles.map fun item => item.startedAt.instant).Nodup)
    {sha256 : String → String} {unit : String}
    {initialCheckpoint : Option MarketStatistics.CheckpointState} :
    calculateMarketStatistics sha256 candles unit none initialCheckpoint =
      loadedRun (statisticStep sha256 unit) MarketStatistics.SeriesState.ofCheckpoint
        initialCheckpoint candles := by
  have hfold : ∀ state, candles.foldlM (statisticRound sha256 none unit) (state, []) =
      (fun result => (result.1, [] ++ result.2.filter fun _ => true)) <$>
        runLoop (statisticStep sha256 unit) state candles :=
    fun state => foldlM_append_eq (statisticStep sha256 unit) (fun _ => true) candles state []
  have hcount : (candles.map fun item => item.startedAt.instant).dedup.length =
      candles.length := by
    rw [hdistinct.dedup, length_map]
  unfold calculateMarketStatistics loadedRun
  simp only [sortedBy_eq_self hsorted, hcount, ne_eq, not_true_eq_false, if_false, hfold,
    map_eq_pure_bind, pure_bind, bind_assoc, nil_append, filter_true]

end Goodmoneying.Analysis
