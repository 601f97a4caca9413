import Goodmoneying.Library.CurrentRun
import Goodmoneying.Library.ResumableLoop
import Goodmoneying.Program.VersionedIndicators

/-!
# Indicators resumed from a checkpoint

The series of indicators is a resumable loop (`seriesStep_checkpointed`): every point holds the
whole state of the loop as texts, which read back, since `canonical` writes the decimals of the
50-digit context exactly (`decimalOfText_canonical`) and the window of closes is never longer than
what the checkpoint keeps of it. So a calculation may be cut anywhere, also in a warm-up, after a
gap or on an unusable candle.
-/

namespace Goodmoneying.Analysis

open List Library Program Program.VersionedIndicators

variable {closes : List ℚ} {state next : SeriesState} {candle : CandleView} {unit : String}
  {count : ℤ}
variable {x z close : ℚ} {sma : Option ℚ} {sha256 : String → String} {candles : List CandleView}

/-- A number of the 50-digit context. -/
abbrev InContext (x : ℚ) : Prop := Fits 50 x

theorem inContext_context (x : ℚ) : InContext (indicatorContext.context x) :=
  fits_roundSignificant (by norm_num) x

theorem inContext_add (x y : ℚ) : InContext (indicatorContext.add x y) := inContext_context _

theorem inContext_divide {y : ℚ} (h : divide x y = .ok z) : InContext z := by
  unfold divide at h
  split_ifs at h
  obtain rfl := Except.ok.inj h
  exact inContext_context _

theorem inContext_average {values : List ℚ} (h : average values = .ok z) : InContext z :=
  inContext_divide h

/-- A number of the context is written exactly. -/
theorem decimalOfText_canonical (h : InContext x) : decimalOfText (canonical x) = .ok x := by
  unfold canonical
  by_cases hx : x = 0
  · subst hx
    rfl
  · obtain ⟨t, ht⟩ := h.den_dvd_pow
    have hround : indicatorContext.context x = x := roundSignificant_eq_self h
    rw [if_neg hx, decimalOfText, String.toList_ofList, hround, readPlain_plainText ht]

theorem optionalDecimal_canonical {x : Option ℚ} (h : ∀ v ∈ x, InContext v) :
    VersionedIndicators.optionalDecimal (x.map canonical) = .ok x := by
  cases x with
  | none => rfl
  | some x =>
    rw [Option.map_some, VersionedIndicators.optionalDecimal, decimalOfText_canonical (h x rfl)]
    rfl

/-- A window of closes is written exactly. -/
theorem mapM_decimalOfText_canonical (h : ∀ c ∈ closes, InContext c) :
    (closes.map canonical).mapM decimalOfText = .ok closes := by
  induction closes with
  | nil => rfl
  | cons c closes ih =>
    rw [map_cons, mapM_cons, decimalOfText_canonical (h c (by simp)),
      ih fun c hc => h c (mem_cons_of_mem _ hc)]
    rfl

/-- A state whose decimals are numbers of the context and whose window fits the checkpoint. -/
structure Savable (state : SeriesState) : Prop where
  window : state.closes.length ≤ 60
  closes : ∀ c ∈ state.closes, InContext c
  ema : ∀ v ∈ state.ema, InContext v
  averageGain : ∀ v ∈ state.averageGain, InContext v
  averageLoss : ∀ v ∈ state.averageLoss, InContext v
  previousClose : ∀ v ∈ state.previousClose, InContext v

/-- A reset state holds no decimal. -/
theorem savable_reset (state : SeriesState) : Savable state.reset where
  window := by simp [SeriesState.reset]
  closes := by simp [SeriesState.reset]
  ema := by simp [SeriesState.reset]
  averageGain := by simp [SeriesState.reset]
  averageLoss := by simp [SeriesState.reset]
  previousClose := by simp [SeriesState.reset]

theorem isoformat_ne_empty (value : Datetime) : value.isoformat ≠ "" := by
  intro h
  have hread := fromisoformat_isoformat value
  rw [h] at hread
  exact absurd hread (by simp [Datetime.fromisoformat, readDatetime, readDigits])

/-- A checkpoint holds the whole state. -/
theorem ofCheckpoint_checkpoint (h : Savable state)
    (hprevious : state.previousStartedAt = some candle.startedAt) :
    SeriesState.ofCheckpoint (some (state.checkpoint candle)) = .ok state := by
  have hwindow : state.closes.rtake 60 = state.closes := rtake_of_length_le h.window
  unfold SeriesState.ofCheckpoint SeriesState.checkpoint
  simp only [hwindow, mapM_decimalOfText_canonical h.closes, optionalDecimal_canonical h.ema,
    optionalDecimal_canonical h.averageGain, optionalDecimal_canonical h.averageLoss,
    optionalDecimal_canonical h.previousClose, if_neg (isoformat_ne_empty candle.startedAt),
    fromisoformat_isoformat, ok_bind]
  show Except.ok (⟨_, _, _, _, _, _, some candle.startedAt⟩ : SeriesState) = .ok state
  rw [← hprevious]

theorem savable_afterGap (hnext : state.afterGap unit candle = .ok next) (h : Savable state) :
    Savable next := by
  unfold SeriesState.afterGap at hnext
  cases hprevious : state.previousStartedAt with
  | none =>
    rw [hprevious] at hnext
    exact pure_eq_ok.mp hnext ▸ h
  | some previous =>
    rw [hprevious] at hnext
    obtain ⟨bucket, -, hnext⟩ := bind_eq_ok.mp hnext
    obtain rfl := pure_eq_ok.mp hnext
    split_ifs
    · exact savable_reset state
    · exact h

theorem inContext_movingAverage {period : ℕ} (h : movingAverage period count closes = .ok sma) :
    ∀ v ∈ sma, InContext v := by
  unfold movingAverage at h
  split_ifs at h
  · obtain ⟨v, hv, rfl⟩ := map_eq_ok.mp h
    simpa using inContext_average hv
  · obtain rfl := pure_eq_ok.mp h
    simp

theorem inContext_nextEma {ema next : Option ℚ} (h : nextEma count close sma ema = .ok next)
    (hsma : ∀ v ∈ sma, InContext v) (hema : ∀ v ∈ ema, InContext v) : ∀ v ∈ next, InContext v := by
  unfold nextEma at h
  by_cases hseed : count = 20
  · rw [if_pos hseed] at h
    exact pure_eq_ok.mp h ▸ hsma
  · rw [if_neg hseed] at h
    cases ema with
    | none =>
      obtain rfl := pure_eq_ok.mp h
      simp
    | some ema =>
      dsimp only at h
      split_ifs at h
      · obtain ⟨change, -, h⟩ := bind_eq_ok.mp h
        obtain rfl := pure_eq_ok.mp h
        simpa using inContext_add ema change
      · exact pure_eq_ok.mp h ▸ hema

/-- Whether the Wilder averages are seeded, updated or left alone, they stay numbers of the
context. -/
theorem inContext_nextAverages {gain loss : Option ℚ}
    (h : nextAverages state count close closes = .ok (gain, loss)) (hstate : Savable state) :
    (∀ v ∈ gain, InContext v) ∧ ∀ v ∈ loss, InContext v := by
  have hsame : (state.averageGain, state.averageLoss) = (gain, loss) →
      (∀ v ∈ gain, InContext v) ∧ ∀ v ∈ loss, InContext v := by
    intro heq
    obtain ⟨rfl, rfl⟩ := Prod.mk.inj heq
    exact ⟨hstate.averageGain, hstate.averageLoss⟩
  have hpair : ∀ {x y : Except PythonError ℚ},
      (∀ z, x = .ok z → InContext z) → (∀ z, y = .ok z → InContext z) →
      (do let a ← x; let b ← y; pure (some a, some b)) = .ok (gain, loss) →
      (∀ v ∈ gain, InContext v) ∧ ∀ v ∈ loss, InContext v := by
    intro x y hx hy h
    obtain ⟨a, ha, h⟩ := bind_eq_ok.mp h
    obtain ⟨b, hb, h⟩ := bind_eq_ok.mp h
    obtain ⟨rfl, rfl⟩ := Prod.mk.inj (pure_eq_ok.mp h)
    simpa using And.intro (hx a ha) (hy b hb)
  unfold nextAverages at h
  cases hprevious : state.previousClose with
  | none =>
    rw [hprevious] at h
    exact hsame (pure_eq_ok.mp h)
  | some previous =>
    rw [hprevious] at h
    dsimp only at h
    by_cases hseed : count = 15
    · rw [if_pos hseed] at h
      obtain ⟨changes, -, h⟩ := bind_eq_ok.mp h
      exact hpair (fun _ => inContext_average) (fun _ => inContext_average) h
    · rw [if_neg hseed] at h
      split at h
      · split_ifs at h
        · exact hpair (fun _ => inContext_divide) (fun _ => inContext_divide) h
        · rename_i hgain hloss _
          exact hsame (by rw [hgain, hloss]; exact pure_eq_ok.mp h)
      · exact hsame (pure_eq_ok.mp h)

theorem savable_advance {values : IndicatorValues}
    (hnext : state.advance candle = .ok (next, values)) (h : Savable state)
    (hclose : InContext candle.close) : Savable next := by
  unfold SeriesState.advance at hnext
  obtain ⟨sma20, hsma20, hnext⟩ := bind_eq_ok.mp hnext
  obtain ⟨sma60, -, hnext⟩ := bind_eq_ok.mp hnext
  obtain ⟨ema, hema, hnext⟩ := bind_eq_ok.mp hnext
  obtain ⟨⟨gain, loss⟩, haverages, hnext⟩ := bind_eq_ok.mp hnext
  obtain ⟨rsi14, -, hnext⟩ := bind_eq_ok.mp hnext
  obtain ⟨bands, -, hnext⟩ := bind_eq_ok.mp hnext
  obtain ⟨rfl, -⟩ := Prod.mk.inj (pure_eq_ok.mp hnext)
  obtain ⟨hgain, hloss⟩ := inContext_nextAverages haverages h
  refine ⟨?_, ?_, ?_, hgain, hloss, ?_⟩
  · simp only [List.rtake, length_drop]
    omega
  · intro c hc
    rcases mem_append.mp (mem_of_mem_drop hc) with hc | hc
    · exact h.closes c hc
    · rw [mem_singleton.mp hc]
      exact hclose
  · exact inContext_nextEma hema (inContext_movingAverage hsma20) h.ema
  · simpa using hclose

/-- A round ends in a savable state, and its point holds it. -/
theorem seriesStep_eq_ok {result : IndicatorPoint} (h : Savable state)
    (hclose : InContext candle.close)
    (hstep : seriesStep sha256 unit state candle = .ok (next, result)) :
    Savable next ∧ next.previousStartedAt = some candle.startedAt ∧
      result.checkpointState = next.checkpoint candle := by
  unfold seriesStep at hstep
  obtain ⟨current, hcurrent, hstep⟩ := bind_eq_ok.mp hstep
  have hsavable := savable_afterGap hcurrent h
  have hdated : ∀ {s : SeriesState}, Savable s →
      Savable { s with previousStartedAt := some candle.startedAt } :=
    fun hs => ⟨hs.window, hs.closes, hs.ema, hs.averageGain, hs.averageLoss, hs.previousClose⟩
  split_ifs at hstep
  · obtain ⟨rfl, rfl⟩ := Prod.mk.inj (pure_eq_ok.mp hstep)
    exact ⟨hdated (savable_reset current), rfl, rfl⟩
  · obtain ⟨⟨advanced, values⟩, hadvance, hstep⟩ := bind_eq_ok.mp hstep
    obtain ⟨rfl, rfl⟩ := Prod.mk.inj (pure_eq_ok.mp hstep)
    exact ⟨hdated (savable_advance hadvance hsavable hclose), rfl, rfl⟩

/-- The series of indicators is a resumable loop. -/
theorem seriesStep_checkpointed (sha256 : String → String) (unit : String) :
    Checkpointed (seriesStep sha256 unit) (fun result => some result.checkpointState)
      SeriesState.ofCheckpoint Savable (fun candle => InContext candle.close) where
  keeps _ _ _ _ h hclose hstep := (seriesStep_eq_ok h hclose hstep).1
  restores _ _ _ _ h hclose hstep := by
    obtain ⟨hnext, hprevious, hcheckpoint⟩ := seriesStep_eq_ok h hclose hstep
    rw [hcheckpoint]
    exact ofCheckpoint_checkpoint hnext hprevious

/-- Whether a point is at or after `requested_from`. -/
def requested (requestedFrom : Option Datetime) (result : IndicatorPoint) : Bool :=
  match requestedFrom with
  | none => true
  | some start => decide (start.instant ≤ result.startedAt.instant)

/-- On candles in order the series is the loop, started from the checkpoint; the request only
selects among its points. -/
theorem calculateIndicatorSeries_eq
    (hsorted : candles.Pairwise fun a b => a.startedAt.instant ≤ b.startedAt.instant)
    (hdistinct : (candles.map fun item => item.startedAt.instant).Nodup) (sha256 : String → String)
    (requestedFrom : Option Datetime) (unit : String) (initialCheckpoint : Option CheckpointState) :
    calculateIndicatorSeries sha256 candles requestedFrom unit initialCheckpoint = (do
      let state ← SeriesState.ofCheckpoint initialCheckpoint
      let result ← runLoop (seriesStep sha256 unit) state candles
      pure (result.2.filter (requested requestedFrom))) := by
  have hfold : ∀ state, candles.foldlM (seriesRound sha256 requestedFrom unit) (state, []) =
      (fun result => (result.1, [] ++ result.2.filter (requested requestedFrom))) <$>
        runLoop (seriesStep sha256 unit) state candles :=
    fun state =>
      foldlM_append_eq (seriesStep sha256 unit) (requested requestedFrom) candles state []
  have hcount : (candles.map fun item => item.startedAt.instant).dedup.length =
      candles.length := by
    rw [hdistinct.dedup, length_map]
  unfold calculateIndicatorSeries
  simp only [sortedBy_eq_self hsorted, hcount, ne_eq, not_true_eq_false, if_false, hfold,
    map_eq_pure_bind, pure_bind, bind_assoc, nil_append]

/-- Without a request the points are all outputs of the loop. -/
theorem calculateIndicatorSeries_eq_loadedRun
    (hsorted : candles.Pairwise fun a b => a.startedAt.instant ≤ b.startedAt.instant)
    (hdistinct : (candles.map fun item => item.startedAt.instant).Nodup)
    {initialCheckpoint : Option CheckpointState} :
    calculateIndicatorSeries sha256 candles none unit initialCheckpoint =
      loadedRun (seriesStep sha256 unit) SeriesState.ofCheckpoint initialCheckpoint candles := by
  have hall : ∀ points : List IndicatorPoint, points.filter (requested none) = points :=
    fun points => filter_eq_self.mpr fun _ _ => rfl
  rw [calculateIndicatorSeries_eq hsorted hdistinct]
  simp only [hall, loadedRun]

/-- A candle of the first minutes of 2026, in the offset of KST. -/
def minuteCandle (minute : Fin 60) (close : ℚ) : CandleView where
  startedAt :=
    { date := ⟨2026, 1, 1, by decide, by decide, by decide⟩
      timeOfDay := ⟨minute * 60000000, by unfold dayMicroseconds; omega⟩
      utcoffset := ⟨32400000000, by decide⟩ }
  close := close
  completeness := .complete

end Goodmoneying.Analysis
