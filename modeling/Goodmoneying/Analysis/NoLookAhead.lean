import Goodmoneying.Analysis.BacktestFills

/-!
# A backtest does not look ahead

What a succeeded run reports up to an instant `T` is a function of the candle events and signals
known up to `T` (`runCandleBacktest_no_look_ahead`). The fills are in ascending knowledge time
(`fills_pairwise`), those known at `T` are the fills of what is known at `T` (`filter_fills`), and
later fills only append to what a run reports (`replay_known`).
-/

namespace Goodmoneying.Analysis

open List Library Program

variable {spec : BacktestEngineSpec} {events : List BacktestCandleEvent}

/-- Known at `T`: the knowledge time of the fill is not after `T`. -/
def Fill.knownAt (T : Instant) (fill : Fill) : Bool := fill.1.knowledgeAt ≤ T

/-- Every available event from the target time on is not known before the execution
event. -/
theorem executionEvent_le (hsorted : events.Pairwise fun a b => a.knowledgeAt ≤ b.knowledgeAt)
    {signal : BacktestSignal} {event other : BacktestCandleEvent}
    (h : executionEvent spec events signal = some event) (hother : other ∈ events)
    (havailable : other.quality = .available)
    (htarget : targetKnowledgeAt spec signal ≤ other.knowledgeAt) :
    event.knowledgeAt ≤ other.knowledgeAt := by
  obtain ⟨-, before, after, rfl, hbefore⟩ := List.find?_eq_some_iff_append.mp h
  rcases mem_append.mp hother with hmem | hmem
  · have := hbefore other hmem
    simp [havailable, htarget] at this
  · rcases mem_cons.mp hmem with rfl | hmem
    · exact le_rfl
    · exact (pairwise_cons.mp (pairwise_append.mp hsorted).2.1).1 other hmem

/-- The replayed events are in ascending knowledge time. -/
theorem replayEvents_pairwise (candles : List BacktestCandleEvent) :
    (sortedBy eventSortKey candles).Pairwise fun a b => a.knowledgeAt ≤ b.knowledgeAt :=
  (sortedBy_pairwise eventSortKey candles).imp fun h => by
    rcases Prod.Lex.toLex_le_toLex.mp h with hlt | heq
    · exact hlt.le
    · exact heq.1.le

/-- The sorted signals are in ascending knowledge time. -/
theorem orderedSignals_pairwise (signals : List BacktestSignal) :
    (sortedBy signalKey signals).Pairwise fun a b => a.knowledgeAt ≤ b.knowledgeAt :=
  (sortedBy_pairwise signalKey signals).imp fun h => by
    rcases Prod.Lex.toLex_le_toLex.mp h with hlt | heq
    · exact hlt.le
    · exact heq.1.le

/-- The fills of signals in ascending knowledge time are in ascending knowledge time. -/
theorem fills_pairwise {signals : List BacktestSignal}
    (hevents : events.Pairwise fun a b => a.knowledgeAt ≤ b.knowledgeAt)
    (hsignals : signals.Pairwise fun a b => a.knowledgeAt ≤ b.knowledgeAt) :
    (fills spec events signals).Pairwise fun a b => a.1.knowledgeAt ≤ b.1.knowledgeAt := by
  refine List.Pairwise.filterMap _ (fun a b hab fa hfa fb hfb => ?_) hsignals
  obtain ⟨ea, hea, rfl⟩ := Option.map_eq_some_iff.mp hfa
  obtain ⟨eb, heb, rfl⟩ := Option.map_eq_some_iff.mp hfb
  obtain ⟨hmem, havailable, htarget⟩ := executionEvent_some heb
  refine executionEvent_le hevents hea hmem havailable (le_trans ?_ htarget)
  unfold targetKnowledgeAt Instant.addSeconds
  linarith

/-- The execution event among the events known at `T` is the execution event, when that is
known at `T`, and otherwise there is none. -/
theorem executionEvent_filter (hevents : events.Pairwise fun a b => a.knowledgeAt ≤ b.knowledgeAt)
    (signal : BacktestSignal) (T : Instant) :
    executionEvent spec (events.filter fun event => event.knowledgeAt ≤ T) signal =
      (executionEvent spec events signal).filter fun event => event.knowledgeAt ≤ T := by
  unfold executionEvent
  induction events with
  | nil => rfl
  | cons event events ih =>
    obtain ⟨hfirst, hrest⟩ := pairwise_cons.mp hevents
    by_cases hknown : event.knowledgeAt ≤ T
    · rw [filter_cons_of_pos (by simpa using hknown), List.find?_cons, List.find?_cons]
      split
      · rw [Option.filter_some_pos (by simpa using hknown)]
      · exact ih hrest
    · -- nothing from here on is known at `T`
      have hlate : ∀ other ∈ event :: events, ¬ other.knowledgeAt ≤ T := by
        intro other hother
        rcases mem_cons.mp hother with rfl | hother
        · exact hknown
        · exact fun hle => hknown ((hfirst other hother).trans hle)
      have hnone : (event :: events).filter (fun event => event.knowledgeAt ≤ T) = [] := by
        simpa [filter_eq_nil_iff] using hlate
      rw [hnone, List.find?_nil, eq_comm, Option.filter_eq_none_iff]
      intro other hother
      simpa using hlate other (mem_of_find?_eq_some hother)

/-- The fills known at `T` are the fills of what is known at `T`. -/
theorem filter_fills (hlatency : 0 ≤ spec.execution.latencySeconds)
    (hevents : events.Pairwise fun a b => a.knowledgeAt ≤ b.knowledgeAt)
    (signals : List BacktestSignal) (T : Instant) :
    (fills spec events signals).filter (Fill.knownAt T) =
      fills spec (events.filter fun event => event.knowledgeAt ≤ T)
        (signals.filter fun signal => signal.knowledgeAt ≤ T) := by
  have hsignal : ∀ signal, (signalFill spec events signal).filter (Fill.knownAt T) =
      signalFill spec (events.filter fun event => event.knowledgeAt ≤ T) signal := by
    intro signal
    unfold signalFill
    rw [executionEvent_filter hevents]
    cases executionEvent spec events signal with
    | none => rfl
    | some event =>
      by_cases h : event.knowledgeAt ≤ T <;> simp [Option.filter_some, Fill.knownAt, h]
  -- a signal not yet known at `T` has no fill known at `T`
  have hlate : ∀ signal, ¬ signal.knowledgeAt ≤ T →
      signalFill spec (events.filter fun event => event.knowledgeAt ≤ T) signal = none := by
    intro signal hlate
    unfold signalFill
    rw [Option.map_eq_none_iff, Option.eq_none_iff_forall_ne_some]
    intro event hevent
    obtain ⟨hmem, -, htarget⟩ := executionEvent_some hevent
    have hknown := (mem_filter.mp hmem).2
    simp only [decide_eq_true_eq] at hknown
    unfold targetKnowledgeAt Instant.addSeconds at htarget
    linarith
  induction signals with
  | nil => rfl
  | cons signal signals ih =>
    rw [fills, filterMap_cons]
    by_cases hknown : signal.knowledgeAt ≤ T
    · rw [filter_cons_of_pos (by simpa using hknown), fills, filterMap_cons, ← hsignal signal]
      cases hfill : signalFill spec events signal with
      | none => exact ih
      | some fill =>
        cases hat : Fill.knownAt T fill
        · simpa [Option.filter_some, hat, fills] using ih
        · simpa [Option.filter_some, hat, fills] using ih
    · rw [filter_cons_of_neg (by simpa using hknown), ← ih]
      have hnone := hlate signal hknown
      rw [← hsignal signal] at hnone
      cases hfill : signalFill spec events signal with
      | none => rfl
      | some fill =>
        have hat : Fill.knownAt T fill = false := by simpa [hfill] using hnone
        simp [fills, hat]

/-- The fills of a run known at `T` are a function of the inputs known at `T`. -/
theorem filter_runFills (hlatency : 0 ≤ spec.execution.latencySeconds)
    (candles : List BacktestCandleEvent) (signals : List BacktestSignal) (T : Instant) :
    (runFills spec candles signals).filter (Fill.knownAt T) =
      runFills spec (candles.filter fun event => event.knowledgeAt ≤ T)
        (signals.filter fun signal => signal.knowledgeAt ≤ T) := by
  rw [runFills, filter_fills hlatency (replayEvents_pairwise candles), filter_sortedBy,
    filter_sortedBy, runFills]

/-- The fills known at `T` come first, and no later fill is known at `T`. -/
theorem runFills_split (spec : BacktestEngineSpec) (candles : List BacktestCandleEvent)
    (signals : List BacktestSignal) (T : Instant) : ∃ later : List Fill,
      runFills spec candles signals =
        (runFills spec candles signals).filter (Fill.knownAt T) ++ later ∧
      ∀ fill ∈ later, Fill.knownAt T fill = false := by
  have hpairwise : (runFills spec candles signals).Pairwise
      fun a b => Fill.knownAt T b → Fill.knownAt T a :=
    (fills_pairwise (replayEvents_pairwise candles) (orderedSignals_pairwise signals)).imp
      fun hab => by simpa only [Fill.knownAt, decide_eq_true_eq] using hab.trans
  obtain ⟨later, hlater⟩ := filter_prefix_of_pairwise hpairwise
  refine ⟨later, hlater.symm, ?_⟩
  have hfilter := congrArg (List.filter (Fill.knownAt T)) hlater
  rw [filter_append, filter_filter] at hfilter
  simpa [filter_eq_nil_iff] using hfilter

/-- The entries known at `T` of two lists that belong to fills, the later ones to fills not
known at `T`. -/
theorem filter_entries_append {α : Type} {knowledgeAt : α → Instant} {T : Instant}
    {first second : List α} {before later : List Fill}
    (hfirst : first.map knowledgeAt = before.map fun fill => fill.1.knowledgeAt)
    (hsecond : second.map knowledgeAt = later.map fun fill => fill.1.knowledgeAt)
    (hbefore : ∀ fill ∈ before, Fill.knownAt T fill = true)
    (hlater : ∀ fill ∈ later, Fill.knownAt T fill = false) :
    (first ++ second).filter (fun entry => knowledgeAt entry ≤ T) = first := by
  have hearly : ∀ entry ∈ first, knowledgeAt entry ≤ T := by
    intro entry hentry
    have hmem := mem_map_of_mem (f := knowledgeAt) hentry
    rw [hfirst] at hmem
    obtain ⟨fill, hfill, heq⟩ := mem_map.mp hmem
    simpa [Fill.knownAt, heq] using hbefore fill hfill
  have hlate : ∀ entry ∈ second, ¬ knowledgeAt entry ≤ T := by
    intro entry hentry
    have hmem := mem_map_of_mem (f := knowledgeAt) hentry
    rw [hsecond] at hmem
    obtain ⟨fill, hfill, heq⟩ := mem_map.mp hmem
    simpa [Fill.knownAt, heq] using hlater fill hfill
  rw [filter_append, filter_eq_self.mpr (by simpa using hearly),
    filter_eq_nil_iff.mpr (by simpa using hlate), append_nil]

/-- A replay restricted to what is known at `T` is the execution of the fills known at `T`,
and what is restricted is a prefix.
SOURCE: backtest_engine.py:170-219 -/
theorem replay_known (ar : Arithmetic) (spec : BacktestEngineSpec)
    (candles : List BacktestCandleEvent) (signals : List BacktestSignal) (T : Instant) :
    let final := replay ar spec (sortedBy eventSortKey candles) signals
    let known := executeFills ar spec (initialReplayState spec)
      ((runFills spec candles signals).filter (Fill.knownAt T))
    final.trades.filter (fun trade => trade.knowledgeAt ≤ T) = known.trades ∧
    final.equityPoints.filter (fun point => point.knowledgeAt ≤ T) = known.equityPoints ∧
    known.trades <+: final.trades ∧
    known.equityPoints <+: final.equityPoints := by
  intro final known
  obtain ⟨later, hsplit, hlater⟩ := runFills_split spec candles signals T
  have hbefore : ∀ fill ∈ (runFills spec candles signals).filter (Fill.knownAt T),
      Fill.knownAt T fill = true := fun fill hfill => (mem_filter.mp hfill).2
  have hfinal : final = executeFills ar spec known later := by
    rw [← executeFills_append, ← hsplit]
    exact replay_eq_runFills ar spec candles signals
  have htrades := executeFills_trades ar spec known later
  have hknownTrades := executeFills_trades ar spec (initialReplayState spec)
    ((runFills spec candles signals).filter (Fill.knownAt T))
  obtain ⟨points, hpoints, htimes⟩ := executeFills_equityPoints ar spec known later
  obtain ⟨knownPoints, hknownPoints, hknownTimes⟩ := executeFills_equityPoints ar spec
    (initialReplayState spec) ((runFills spec candles signals).filter (Fill.knownAt T))
  have hstamps : ∀ {points : List BacktestEquityPoint} {executed : List Fill},
      points.map (fun point => (point.occurredAt, point.knowledgeAt)) =
        executed.map (fun fill => (fill.1.occurredAt, fill.1.knowledgeAt)) →
      points.map BacktestEquityPoint.knowledgeAt =
        executed.map fun fill => fill.1.knowledgeAt := by
    intro points executed h
    simpa [Function.comp_def] using congrArg (List.map Prod.snd) h
  rw [hfinal]
  refine ⟨?_, ?_, ?_, ?_⟩
  · rw [htrades]
    refine filter_entries_append ?_ (by simp [Function.comp_def, executedTrade]) hbefore hlater
    rw [hknownTrades]
    simp [Function.comp_def, executedTrade, initialReplayState]
  · rw [hpoints]
    refine filter_entries_append ?_ (hstamps htimes) hbefore hlater
    rw [hknownPoints]
    simpa [initialReplayState] using hstamps hknownTimes
  · rw [htrades]
    exact prefix_append _ _
  · rw [hpoints]
    exact prefix_append _ _

/-- Two succeeded runs whose inputs agree on what is known at `T` report the same trades and
equity points known at `T`, at the front of their lists.
SOURCE: backtest_engine.py:130-236, 333-343, 376-389 -/
theorem runCandleBacktest_no_look_ahead (ar : Arithmetic) (hash : CanonicalValue → String)
    (spec : BacktestEngineSpec) (hlatency : 0 ≤ spec.execution.latencySeconds) (T : Instant)
    (candles₁ candles₂ : List BacktestCandleEvent) (signals₁ signals₂ : List BacktestSignal)
    (hcandles : candles₁.filter (fun event => event.knowledgeAt ≤ T) =
      candles₂.filter (fun event => event.knowledgeAt ≤ T))
    (hsignals : signals₁.filter (fun signal => signal.knowledgeAt ≤ T) =
      signals₂.filter (fun signal => signal.knowledgeAt ≤ T))
    (hsucceeded₁ : (runCandleBacktest ar hash spec candles₁ signals₁).status = .succeeded)
    (hsucceeded₂ : (runCandleBacktest ar hash spec candles₂ signals₂).status = .succeeded) :
    let run₁ := runCandleBacktest ar hash spec candles₁ signals₁
    let run₂ := runCandleBacktest ar hash spec candles₂ signals₂
    run₁.trades.filter (fun trade => trade.knowledgeAt ≤ T) =
      run₂.trades.filter (fun trade => trade.knowledgeAt ≤ T) ∧
    run₁.equityPoints.filter (fun point => point.knowledgeAt ≤ T) =
      run₂.equityPoints.filter (fun point => point.knowledgeAt ≤ T) ∧
    run₁.trades.filter (fun trade => trade.knowledgeAt ≤ T) <+: run₁.trades ∧
    run₁.equityPoints.filter (fun point => point.knowledgeAt ≤ T) <+: run₁.equityPoints ∧
    run₂.trades.filter (fun trade => trade.knowledgeAt ≤ T) <+: run₂.trades ∧
    run₂.equityPoints.filter (fun point => point.knowledgeAt ≤ T) <+: run₂.equityPoints := by
  intro run₁ run₂
  obtain ⟨-, htrades₁, hpoints₁⟩ := runCandleBacktest_succeeded hsucceeded₁
  obtain ⟨-, htrades₂, hpoints₂⟩ := runCandleBacktest_succeeded hsucceeded₂
  have hfills : (runFills spec candles₁ signals₁).filter (Fill.knownAt T) =
      (runFills spec candles₂ signals₂).filter (Fill.knownAt T) := by
    rw [filter_runFills hlatency, filter_runFills hlatency, hcandles, hsignals]
  obtain ⟨ht₁, he₁, hpt₁, hpe₁⟩ := replay_known ar spec candles₁ signals₁ T
  obtain ⟨ht₂, he₂, hpt₂, hpe₂⟩ := replay_known ar spec candles₂ signals₂ T
  rw [← hfills] at ht₂ he₂ hpt₂ hpe₂
  rw [htrades₁, htrades₂, hpoints₁, hpoints₂, ht₁, ht₂, he₁, he₂]
  exact ⟨rfl, rfl, hpt₁, hpe₁, hpt₂, hpe₂⟩

/-- Two runs that agree up to second 70: one more candle and one other signal later on leave
the trade and the equity point known by then as they are. -/
theorem runCandleBacktest_no_look_ahead_parting :
    let run₁ := runCandleBacktest (.decimal 28) (fun _ => "") delayedSpec
      [candleAt 60 100, candleAt 120 7] [buyAt 10, buyAt 80]
    let run₂ := runCandleBacktest (.decimal 28) (fun _ => "") delayedSpec
      [candleAt 90 5, candleAt 60 100] [buyAt 85, buyAt 10]
    let T := Instant.addSeconds 0 70
    run₁.trades.length = 2 ∧ run₂.trades.length = 2 ∧
    (run₁.trades.filter fun trade => trade.knowledgeAt ≤ T).length = 1 ∧
    run₁.trades.filter (fun trade => trade.knowledgeAt ≤ T) =
      run₂.trades.filter (fun trade => trade.knowledgeAt ≤ T) ∧
    run₁.equityPoints.filter (fun point => point.knowledgeAt ≤ T) =
      run₂.equityPoints.filter (fun point => point.knowledgeAt ≤ T) := by
  intro run₁ run₂ T
  have hagree := runCandleBacktest_no_look_ahead (.decimal 28) (fun _ => "") delayedSpec
    (by decide) T [candleAt 60 100, candleAt 120 7] [candleAt 90 5, candleAt 60 100]
    [buyAt 10, buyAt 80] [buyAt 85, buyAt 10] (by decide) (by decide) (by decide +kernel)
    (by decide +kernel)
  exact ⟨by decide +kernel, by decide +kernel, by decide +kernel, hagree.1, hagree.2.1⟩

end Goodmoneying.Analysis
