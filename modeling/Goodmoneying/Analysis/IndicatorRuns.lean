import Goodmoneying.Analysis.DecimalArithmetic
import Goodmoneying.Analysis.IndicatorResume

/-!
# Indicators of the current run

What an indicator point shows is a function of the closes of the current run: the longest chain of
consecutive buckets, all available and complete, that ends at its candle (`CurrentRun`). The
invariant `StateAt` says that the window, the counter and the averages of the loop are those of the
run: moving averages are means of its last closes (`lastMean`), the others seeded folds over it
(`emaOf`, `averageGainOf`, `averageLossOf`). Every operation is rounded to 50 digits, which keeps
the order, so the bands enclose their middle.
-/

namespace Goodmoneying.Analysis

open List Library Program Program.VersionedIndicators

variable {closes values : List ℚ} {state : SeriesState}
variable {period : ℕ} {gain loss : ℚ} {result : IndicatorPoint} {sha256 : String → String}
  {unit : String} {seen run : List CandleView}

/-! ## Indicators of a list of closes -/

/-- A candle that enters the indicators. -/
def Usable (candle : CandleView) : Prop :=
  candle.quality = .available ∧ candle.completeness = .complete

/-- `candle` starts with the bucket after that of `previous`. -/
def InNextBucket (unit : String) (previous candle : CandleView) : Prop :=
  ∃ next, nextBucket previous.startedAt unit = .ok next ∧
    candle.startedAt.instant = next.instant

/-- The mean, each operation rounded. -/
def mean (values : List ℚ) : ℚ := indicatorContext.div (indicatorContext.sum values) values.length

/-- The mean of the last `period` closes, once there are as many. -/
def lastMean (period : ℕ) (closes : List ℚ) : Option ℚ :=
  if period ≤ closes.length then some (mean (closes.rtake period)) else none

/-- The exponential average: seeded with the mean of the first 20 closes, then
`ema + (close - ema) * 2 / 21`. -/
def emaOf (closes : List ℚ) : Option ℚ :=
  seededFold 20 mean (fun ema close => indicatorContext.add ema
    (indicatorContext.div (indicatorContext.mul (indicatorContext.sub close ema) 2) 21)) closes

/-- The changes from one close to the next. -/
def changesOf (closes : List ℚ) : List ℚ :=
  (closes.dropLast.zip closes.tail).map fun pair => indicatorContext.sub pair.2 pair.1

/-- Wilder's average: seeded with the mean of the first 14 values, then
`(average * 13 + value) / 14`. -/
def wilderAverage (values : List ℚ) : Option ℚ :=
  seededFold 14 mean (fun average value => indicatorContext.div
    (indicatorContext.add (indicatorContext.mul average 13) value) 14) values

def averageGainOf (closes : List ℚ) : Option ℚ :=
  wilderAverage ((changesOf closes).map fun change => max 0 change)

def averageLossOf (closes : List ℚ) : Option ℚ :=
  wilderAverage ((changesOf closes).map fun change => max 0 (-change))

/-- The relative strength index of an average gain and an average loss. -/
def relativeStrength (gain loss : ℚ) : ℚ :=
  if gain = 0 ∧ loss = 0 then 50
  else if loss = 0 then 100
  else if gain = 0 then 0
  else indicatorContext.sub 100
    (indicatorContext.div 100 (indicatorContext.add 1 (indicatorContext.div gain loss)))

/-- Wilder's relative strength index of the closes. -/
def rsiOf (closes : List ℚ) : Option ℚ :=
  Option.map₂ relativeStrength (averageGainOf closes) (averageLossOf closes)

/-- Twice the population standard deviation of the last 20 closes about `middle`. -/
def bandWidth (closes : List ℚ) (middle : ℚ) : ℚ :=
  indicatorContext.mul 2 (sqrtSignificant 50
    (mean ((closes.rtake 20).map fun item => square (indicatorContext.sub item middle))))

/-- The values of a usable candle at the end of a run. -/
def valuesOf (closes : List ℚ) : IndicatorValues where
  sma20 := lastMean 20 closes
  sma60 := lastMean 60 closes
  ema20 := emaOf closes
  bollingerUpper := (lastMean 20 closes).map fun middle =>
    indicatorContext.add middle (bandWidth closes middle)
  bollingerMiddle := lastMean 20 closes
  bollingerLower := (lastMean 20 closes).map fun middle =>
    indicatorContext.sub middle (bandWidth closes middle)
  rsi14 := rsiOf closes

/-! ## When there are values -/

theorem changesOf_concat (front : List ℚ) (previous close : ℚ) :
    changesOf (front ++ [previous] ++ [close]) =
      changesOf (front ++ [previous]) ++ [indicatorContext.sub close previous] := by
  have htail : (front ++ [previous] ++ [close]).tail = (front ++ [previous]).tail ++ [close] :=
    tail_append_of_ne_nil (by simp)
  have hlength : front.length = (front ++ [previous]).tail.length := by simp
  unfold changesOf
  rw [dropLast_concat, htail, dropLast_concat, zip_append hlength, map_append]
  rfl

theorem length_changesOf (closes : List ℚ) : (changesOf closes).length = closes.length - 1 := by
  simp [changesOf]

theorem lastMean_eq_none_iff : lastMean period closes = none ↔ closes.length < period := by
  unfold lastMean
  split_ifs <;> simp_all

theorem emaOf_eq_none_iff : emaOf closes = none ↔ closes.length < 20 :=
  seededFold_eq_none_iff

theorem averageGainOf_eq_none_iff : averageGainOf closes = none ↔ closes.length < 15 := by
  rw [averageGainOf, wilderAverage, seededFold_eq_none_iff, length_map, length_changesOf]
  omega

theorem averageLossOf_eq_none_iff : averageLossOf closes = none ↔ closes.length < 15 := by
  rw [averageLossOf, wilderAverage, seededFold_eq_none_iff, length_map, length_changesOf]
  omega

theorem rsiOf_eq_none_iff : rsiOf closes = none ↔ closes.length < 15 := by
  rw [rsiOf, Option.map₂_eq_none_iff, averageGainOf_eq_none_iff, averageLossOf_eq_none_iff, or_self]

/-! ## Bounds -/

theorem mean_nonneg (h : ∀ value ∈ values, 0 ≤ value) : 0 ≤ mean values :=
  decimal_nonneg (div_nonneg (decimal_sum_nonneg h) (Nat.cast_nonneg _))

theorem wilderAverage_nonneg (h : ∀ value ∈ values, 0 ≤ value) :
    ∀ average ∈ wilderAverage values, 0 ≤ average := by
  apply seededFold_induction
  · intro first hfirst
    exact mean_nonneg fun value hvalue => h value (hfirst value hvalue)
  · intro average value hvalue haverage
    have hweighted : 0 ≤ indicatorContext.mul average 13 :=
      decimal_nonneg (mul_nonneg haverage (by norm_num))
    have hsum : 0 ≤ indicatorContext.add (indicatorContext.mul average 13) value :=
      decimal_nonneg (add_nonneg hweighted (h value hvalue))
    exact decimal_nonneg (div_nonneg hsum (by norm_num))

theorem averageGainOf_nonneg (closes : List ℚ) : ∀ gain ∈ averageGainOf closes, 0 ≤ gain := by
  apply wilderAverage_nonneg
  simp

theorem averageLossOf_nonneg (closes : List ℚ) : ∀ loss ∈ averageLossOf closes, 0 ≤ loss := by
  apply wilderAverage_nonneg
  simp

theorem one_le_add_ratio (hgain : 0 ≤ gain) (hloss : 0 ≤ loss) :
    1 ≤ indicatorContext.add 1 (indicatorContext.div gain loss) := by
  have hratio : 0 ≤ indicatorContext.div gain loss := decimal_nonneg (div_nonneg hgain hloss)
  exact le_roundSignificant (by norm_num) (fits_one (by norm_num)) (by linarith)

theorem relativeStrength_range (hgain : 0 ≤ gain) (hloss : 0 ≤ loss) :
    0 ≤ relativeStrength gain loss ∧ relativeStrength gain loss ≤ 100 := by
  have hhundred : Fits 50 100 := by
    exact_mod_cast fits_intCast (by norm_num : |(100 : ℤ)| < 10 ^ 50)
  have hdenominator := one_le_add_ratio hgain hloss
  set share := indicatorContext.div 100
    (indicatorContext.add 1 (indicatorContext.div gain loss)) with hshare
  have hlow : 0 ≤ share := decimal_nonneg (div_nonneg (by norm_num) (by linarith))
  have hhigh : share ≤ 100 :=
    roundSignificant_le (by norm_num) hhundred (div_le_self (by norm_num) hdenominator)
  unfold relativeStrength
  split_ifs
  · norm_num
  · norm_num
  · norm_num
  · exact ⟨decimal_nonneg (by linarith),
      roundSignificant_le (by norm_num) hhundred (by linarith)⟩

theorem rsiOf_range (closes : List ℚ) : ∀ value ∈ rsiOf closes, 0 ≤ value ∧ value ≤ 100 := by
  intro value hvalue
  obtain ⟨gain, loss, hgain, hloss, rfl⟩ := Option.mem_map₂_iff.mp hvalue
  exact relativeStrength_range (averageGainOf_nonneg closes gain hgain)
    (averageLossOf_nonneg closes loss hloss)

theorem bandWidth_nonneg (closes : List ℚ) (middle : ℚ) : 0 ≤ bandWidth closes middle :=
  decimal_nonneg (mul_nonneg (by norm_num) (sqrtSignificant_nonneg 50 _))

theorem inContext_lastMean (period : ℕ) (closes : List ℚ) :
    ∀ middle ∈ lastMean period closes, InContext middle := by
  intro middle hmiddle
  unfold lastMean at hmiddle
  split_ifs at hmiddle
  · rw [← Option.mem_some.mp hmiddle]
    exact inContext_context _
  · simp at hmiddle

/-- The bands enclose their middle. -/
theorem bands_ordered {middle : ℚ} (h : middle ∈ lastMean 20 closes) :
    indicatorContext.sub middle (bandWidth closes middle) ≤ middle ∧
      middle ≤ indicatorContext.add middle (bandWidth closes middle) := by
  have hfits := inContext_lastMean 20 closes middle h
  have hwidth := bandWidth_nonneg closes middle
  exact ⟨roundSignificant_le (by norm_num) hfits (by linarith),
    le_roundSignificant (by norm_num) hfits (by linarith)⟩

/-! ## What a round computes -/

theorem divide_eq {x y : ℚ} (h : y ≠ 0) : divide x y = .ok (indicatorContext.div x y) := if_neg h

theorem average_eq_mean (h : values ≠ []) : average values = .ok (mean values) :=
  divide_eq (Nat.cast_ne_zero.mpr (mt eq_nil_of_length_eq_zero h))

/-- The moving average of the window is that of all closes. -/
theorem movingAverage_eq (hpos : 0 < period) (hperiod : period ≤ 60) (closes : List ℚ) :
    movingAverage period closes.length (closes.rtake 60) = .ok (lastMean period closes) := by
  unfold movingAverage lastMean
  simp only [Nat.cast_le]
  split_ifs with hlength
  · have hne : closes.rtake period ≠ [] := by
      apply ne_nil_of_length_pos
      rw [length_rtake]
      omega
    rw [rtake_rtake hperiod, average_eq_mean hne]
    rfl
  · rfl

theorem emaOf_concat (closes : List ℚ) (close : ℚ) :
    emaOf (closes ++ [close]) =
      if closes.length + 1 = 20 then some (mean (closes ++ [close]))
      else (emaOf closes).map fun ema => indicatorContext.add ema
        (indicatorContext.div (indicatorContext.mul (indicatorContext.sub close ema) 2) 21) :=
  seededFold_concat closes close

theorem nextEma_eq (closes : List ℚ) (close : ℚ) :
    nextEma (closes.length + 1) close (lastMean 20 (closes ++ [close])) (emaOf closes) =
      .ok (emaOf (closes ++ [close])) := by
  rw [emaOf_concat]
  unfold nextEma
  by_cases hseed : closes.length + 1 = 20
  · have hlength : (closes ++ [close]).length = 20 := by simpa using hseed
    rw [if_pos (by exact_mod_cast hseed), if_pos hseed, lastMean, hlength, if_pos le_rfl,
      rtake_of_length_le hlength.le]
    rfl
  · rw [if_neg (by exact_mod_cast hseed), if_neg hseed]
    cases hema : emaOf closes with
    | none => rfl
    | some ema =>
      have hlong : ¬ closes.length < 20 := by
        rw [← emaOf_eq_none_iff, hema]
        simp
      dsimp only
      rw [if_pos (by omega), divide_eq (by norm_num)]
      rfl

theorem wilderAverage_concat (values : List ℚ) (value : ℚ) :
    wilderAverage (values ++ [value]) =
      if values.length + 1 = 14 then some (mean (values ++ [value]))
      else (wilderAverage values).map fun average => indicatorContext.div
        (indicatorContext.add (indicatorContext.mul average 13) value) 14 :=
  seededFold_concat values value

theorem nextWilder_eq (average change : ℚ) : nextWilder average change = .ok (indicatorContext.div
      (indicatorContext.add (indicatorContext.mul average 13) change) 14) :=
  divide_eq (by norm_num)

/-- The loss of a change is the gain of the opposite one. -/
theorem sub_swap (x y : ℚ) : indicatorContext.sub x y = -indicatorContext.sub y x := by
  rw [Arithmetic.sub, ← neg_sub, decimal_neg]
  rfl

theorem zero_sub_change (x y : ℚ) :
    indicatorContext.sub 0 (indicatorContext.sub x y) = -indicatorContext.sub x y := by
  rw [sub_swap 0, Arithmetic.sub, sub_zero]
  exact congrArg Neg.neg (roundSignificant_eq_self (inContext_context _))

/-- The changes between the last 15 closes of the window, when there are no others. -/
theorem recentChanges_eq (h : closes.length = 15) :
    recentChanges (closes.rtake 60) = .ok (changesOf closes) := by
  have hwindow : closes.rtake 60 = closes := rtake_of_length_le (by omega)
  have hprior : closes.rtake 15 = closes := rtake_of_length_le h.le
  have hcurrent : closes.rtake 14 = closes.tail := by
    rw [List.rtake, h, drop_one]
  unfold recentChanges changesOf
  simp only [hwindow, hprior, hcurrent]
  exact if_neg (by simp)

theorem map_loss_changesOf (closes : List ℚ) :
    ((changesOf closes).map fun value => max 0 (indicatorContext.sub 0 value)) =
      (changesOf closes).map fun change => max 0 (-change) := by
  apply map_congr_left
  intro change hchange
  obtain ⟨pair, -, rfl⟩ := mem_map.mp hchange
  rw [zero_sub_change]

theorem averageGainOf_concat (front : List ℚ) (previous close : ℚ) :
    averageGainOf (front ++ [previous] ++ [close]) =
      if front.length + 2 = 15 then
        some (mean ((changesOf (front ++ [previous] ++ [close])).map fun change => max 0 change))
      else (averageGainOf (front ++ [previous])).map fun average => indicatorContext.div
        (indicatorContext.add (indicatorContext.mul average 13)
          (max 0 (indicatorContext.sub close previous))) 14 := by
  unfold averageGainOf
  rw [changesOf_concat, map_append, map_singleton, wilderAverage_concat]
  simp [length_changesOf]

theorem averageLossOf_concat (front : List ℚ) (previous close : ℚ) :
    averageLossOf (front ++ [previous] ++ [close]) =
      if front.length + 2 = 15 then
        some (mean ((changesOf (front ++ [previous] ++ [close])).map fun change => max 0 (-change)))
      else (averageLossOf (front ++ [previous])).map fun average => indicatorContext.div
        (indicatorContext.add (indicatorContext.mul average 13)
          (max 0 (indicatorContext.sub previous close))) 14 := by
  unfold averageLossOf
  rw [changesOf_concat, map_append, map_singleton, wilderAverage_concat, sub_swap previous]
  simp [length_changesOf]

/-- The averages of gain and loss are those of all changes of the run. -/
theorem nextAverages_eq (hgain : state.averageGain = averageGainOf closes)
    (hloss : state.averageLoss = averageLossOf closes)
    (hprevious : state.previousClose = closes.getLast?) (close : ℚ) :
    nextAverages state (closes.length + 1) close ((closes ++ [close]).rtake 60) =
      .ok (averageGainOf (closes ++ [close]), averageLossOf (closes ++ [close])) := by
  unfold nextAverages
  rcases closes.eq_nil_or_concat' with rfl | ⟨front, previous, rfl⟩
  · have hshort : ([] ++ [close] : List ℚ).length < 15 := by simp
    rw [hprevious, hgain, hloss, averageGainOf_eq_none_iff.mpr hshort,
      averageLossOf_eq_none_iff.mpr hshort]
    rfl
  rw [hprevious, List.getLast?_concat, averageGainOf_concat, averageLossOf_concat]
  have hlength : (front ++ [previous]).length = front.length + 1 := by simp
  dsimp only
  by_cases hseed : front.length + 2 = 15
  · have hall : (front ++ [previous] ++ [close]).length = 15 := by simpa using hseed
    have hne : changesOf (front ++ [previous] ++ [close]) ≠ [] := by
      apply ne_nil_of_length_pos
      rw [length_changesOf, hall]
      norm_num
    rw [if_pos (by omega), if_pos hseed, if_pos hseed, recentChanges_eq hall, ok_bind,
      map_loss_changesOf, average_eq_mean (by simpa using hne), ok_bind,
      average_eq_mean (by simpa using hne)]
    rfl
  · rw [if_neg (by omega), if_neg hseed, if_neg hseed, hgain, hloss]
    cases hgain' : averageGainOf (front ++ [previous]) with
    | none =>
      have hnone : averageLossOf (front ++ [previous]) = none :=
        averageLossOf_eq_none_iff.mpr (averageGainOf_eq_none_iff.mp hgain')
      rw [hnone]
      rfl
    | some gain =>
      have hlong : ¬ (front ++ [previous]).length < 15 := by
        rw [← averageGainOf_eq_none_iff, hgain']
        simp
      obtain ⟨loss, hloss'⟩ := Option.ne_none_iff_exists'.mp (mt averageLossOf_eq_none_iff.mp hlong)
      rw [hloss']
      dsimp only
      rw [if_pos (by omega), nextWilder_eq, ok_bind, nextWilder_eq]
      rfl

theorem rsi_eq (closes : List ℚ) :
    rsi (averageGainOf closes) (averageLossOf closes) = .ok (rsiOf closes) := by
  unfold rsiOf
  cases hgain : averageGainOf closes with
  | none => rfl
  | some gain =>
    cases hloss : averageLossOf closes with
    | none => rfl
    | some loss =>
      have hdenominator := one_le_add_ratio (averageGainOf_nonneg closes gain hgain)
        (averageLossOf_nonneg closes loss hloss)
      unfold rsi
      simp only [Option.map₂_some_some, relativeStrength]
      split_ifs with hboth hzero
      · rfl
      · rfl
      · rfl
      · rw [divide_eq hzero, ok_bind, divide_eq (by linarith)]
        rfl

theorem bollingerBands_eq (closes : List ℚ) :
    bollingerBands (closes.rtake 60) (lastMean 20 closes) = .ok ((valuesOf closes).bollingerUpper,
      (valuesOf closes).bollingerMiddle, (valuesOf closes).bollingerLower) := by
  unfold valuesOf bollingerBands
  cases hmiddle : lastMean 20 closes with
  | none => rfl
  | some middle =>
    have hlong : ¬ closes.length < 20 := by
      rw [← lastMean_eq_none_iff, hmiddle]
      simp
    have hne : closes.rtake 20 ≠ [] := by
      apply ne_nil_of_length_pos
      rw [length_rtake]
      omega
    simp only [rtake_rtake (by norm_num : 20 ≤ 60)]
    rw [average_eq_mean (by simpa using hne)]
    rfl

/-! ## The state of the loop -/

/-- The variables of the loop are those of a run with these closes. -/
structure HoldsRun (state : SeriesState) (closes : List ℚ) : Prop where
  window : state.closes = closes.rtake 60
  consecutiveCount : state.consecutiveCount = closes.length
  ema : state.ema = emaOf closes
  averageGain : state.averageGain = averageGainOf closes
  averageLoss : state.averageLoss = averageLossOf closes
  previousClose : state.previousClose = closes.getLast?

theorem holdsRun_reset (state : SeriesState) : HoldsRun state.reset [] where
  window := rfl
  consecutiveCount := rfl
  ema := (emaOf_eq_none_iff.mpr (by simp)).symm
  averageGain := (averageGainOf_eq_none_iff.mpr (by simp)).symm
  averageLoss := (averageLossOf_eq_none_iff.mpr (by simp)).symm
  previousClose := rfl

/-- A usable candle extends the run by its close. -/
theorem advance_eq (h : HoldsRun state closes) (candle : CandleView) :
    ∃ next, state.advance candle = .ok (next, valuesOf (closes ++ [candle.close])) ∧
      HoldsRun next (closes ++ [candle.close]) := by
  have hcount : state.consecutiveCount + 1 = ((closes ++ [candle.close]).length : ℤ) := by
    rw [h.consecutiveCount]
    simp
  have hcount' : state.consecutiveCount + 1 = (closes.length : ℤ) + 1 := by
    rw [h.consecutiveCount]
  have hwindow : (state.closes ++ [candle.close]).rtake 60 =
      (closes ++ [candle.close]).rtake 60 := by
    rw [h.window, rtake_window_concat]
  have hema := nextEma_eq closes candle.close
  have haverages := nextAverages_eq h.averageGain h.averageLoss h.previousClose candle.close
  rw [← hcount'] at hema haverages
  rw [← h.ema] at hema
  have hsma20 := movingAverage_eq (by norm_num) (by norm_num : 20 ≤ 60) (closes ++ [candle.close])
  have hsma60 := movingAverage_eq (by norm_num) le_rfl (closes ++ [candle.close])
  rw [← hcount] at hsma20 hsma60
  unfold SeriesState.advance
  simp only [hwindow, hsma20, hsma60, hema, haverages, rsi_eq, bollingerBands_eq, ok_bind]
  refine ⟨_, rfl, rfl, hcount, rfl, rfl, rfl, ?_⟩
  rw [List.getLast?_concat]

/-! ## Points of a run -/

/-- The status of a value at the end of a run. -/
def seenStatus (closes : List ℚ) (value : Option ℚ) : IndicatorStatus :=
  if closes = [] then .missing else if value.isSome then .ready else .warmingUp

/-- A point shows the indicators of the run with these closes, none of them when it is empty. -/
structure SeesRun (closes : List ℚ) (result : IndicatorPoint) : Prop where
  sma20 : result.values.sma20 = lastMean 20 closes
  sma60 : result.values.sma60 = lastMean 60 closes
  ema20 : result.values.ema20 = emaOf closes
  emaAbsent : result.values.ema20 = none ↔ closes.length < 20
  bollingerMiddle : result.values.bollingerMiddle = result.values.sma20
  bollingerAbsent : result.values.bollingerMiddle = none →
    result.values.bollingerLower = none ∧ result.values.bollingerUpper = none
  bollingerOrder : ∀ middle ∈ result.values.bollingerMiddle,
    ∃ lower upper, result.values.bollingerLower = some lower ∧
      result.values.bollingerUpper = some upper ∧ lower ≤ middle ∧ middle ≤ upper
  rsi14 : result.values.rsi14 = rsiOf closes
  rsiAbsent : result.values.rsi14 = none ↔ closes.length < 15
  rsiRange : ∀ value ∈ result.values.rsi14, 0 ≤ value ∧ value ≤ 100
  statuses : result.statuses = ⟨seenStatus closes result.values.sma20,
    seenStatus closes result.values.sma60, seenStatus closes result.values.ema20,
    seenStatus closes result.values.bollingerMiddle, seenStatus closes result.values.rsi14⟩

/-- Values of the run under their statuses see the run. -/
theorem seesRun_of_values (hvalues : result.values = valuesOf closes) (hstatuses : result.statuses =
      ⟨seenStatus closes result.values.sma20, seenStatus closes result.values.sma60, seenStatus
      closes result.values.ema20, seenStatus closes result.values.bollingerMiddle, seenStatus closes
      result.values.rsi14⟩) : SeesRun closes result where
  sma20 := by rw [hvalues]; rfl
  sma60 := by rw [hvalues]; rfl
  ema20 := by rw [hvalues]; rfl
  emaAbsent := by
    rw [hvalues]
    exact emaOf_eq_none_iff
  bollingerMiddle := by rw [hvalues]; rfl
  bollingerAbsent := by
    rw [hvalues]
    intro hmiddle
    have hnone : lastMean 20 closes = none := hmiddle
    simp [valuesOf, hnone]
  bollingerOrder := by
    rw [hvalues]
    intro middle hmiddle
    have hsome : lastMean 20 closes = some middle := hmiddle
    obtain ⟨hlower, hupper⟩ := bands_ordered hmiddle
    exact ⟨_, _, by simp [valuesOf, hsome], by simp [valuesOf, hsome], hlower, hupper⟩
  rsi14 := by rw [hvalues]; rfl
  rsiAbsent := by
    rw [hvalues]
    exact rsiOf_eq_none_iff
  rsiRange := by
    rw [hvalues]
    exact rsiOf_range closes
  statuses := hstatuses

/-- Without a run there are no values. -/
theorem valuesOf_nil : valuesOf [] = ⟨none, none, none, none, none, none, none⟩ := by
  have hsma : ∀ {period : ℕ}, 0 < period → lastMean period [] = none :=
    fun h => lastMean_eq_none_iff.mpr h
  have hema : emaOf [] = none := emaOf_eq_none_iff.mpr (by simp)
  have hrsi : rsiOf [] = none := rsiOf_eq_none_iff.mpr (by simp)
  simp [valuesOf, hsma, hema, hrsi]

theorem seesRun_missingPoint (sha256 : String → String) (candle : CandleView)
    (checkpointState : CheckpointState) : SeesRun [] (missingPoint sha256 candle checkpointState) :=
  seesRun_of_values valuesOf_nil.symm rfl

theorem seesRun_point (sha256 : String → String) (candle : CandleView) (hne : closes ≠ [])
    (checkpointState : CheckpointState) :
    SeesRun closes (point sha256 candle (valuesOf closes) (valuesOf closes).statuses
      checkpointState) := by
  have hstatus : ∀ value, seenStatus closes value = valueStatus value := fun _ => if_neg hne
  refine seesRun_of_values rfl ?_
  simp only [hstatus]
  rfl

/-! ## One round -/

/-- After the candles in `seen` the loop holds the run that ends with the last of them. -/
structure StateAt (unit : String) (seen run : List CandleView) (state : SeriesState) : Prop where
  current : CurrentRun Usable (InNextBucket unit) seen run
  holds : HoldsRun state (run.map CandleView.close)
  previousStartedAt : state.previousStartedAt = seen.getLast?.map CandleView.startedAt

section Round

variable {unit : String} {seen run : List CandleView} {state : SeriesState} {candle : CandleView}

theorem stateAt_initial (unit : String) :
    StateAt unit [] [] ⟨[], 0, none, none, none, none, none⟩ where
  current := .nil
  holds := holdsRun_reset ⟨[], 0, none, none, none, none, none⟩
  previousStartedAt := rfl

/-- The gap check needs the bucket after the previous candle. -/
theorem StateAt.afterGap_ok_iff (h : StateAt unit seen run state) (candle : CandleView) :
    (∃ current, state.afterGap unit candle = .ok current) ↔
      ∀ previous ∈ seen.getLast?, ∃ next, nextBucket previous.startedAt unit = .ok next := by
  unfold SeriesState.afterGap
  rw [h.previousStartedAt]
  cases seen.getLast? with
  | none => exact iff_of_true ⟨state, rfl⟩ (by simp)
  | some previous =>
    simp only [Option.map_some, Option.mem_some, forall_eq', bind_eq_ok]
    constructor
    · rintro ⟨-, next, hnext, -⟩
      exact ⟨next, hnext⟩
    · rintro ⟨next, hnext⟩
      exact ⟨_, next, hnext, rfl⟩

/-- What is left after the gap check is the run that a usable candle continues. -/
theorem StateAt.afterGap (h : StateAt unit seen run state) {current : SeriesState}
    (hcurrent : state.afterGap unit candle = .ok current) (husable : Usable candle) :
    ∃ kept, CurrentRun Usable (InNextBucket unit) (seen ++ [candle]) (kept ++ [candle]) ∧
      HoldsRun current (kept.map CandleView.close) := by
  unfold SeriesState.afterGap at hcurrent
  rw [h.previousStartedAt] at hcurrent
  cases hlast : seen.getLast? with
  | none =>
    rw [hlast] at hcurrent
    obtain rfl := pure_eq_ok.mp hcurrent
    refine ⟨run, h.current.extend husable ?_, h.holds⟩
    intro previous hprevious
    have := h.current.mem_getLast? hprevious
    simp [hlast] at this
  | some previous =>
    rw [hlast] at hcurrent
    obtain ⟨next, hnext, hcurrent⟩ := bind_eq_ok.mp hcurrent
    obtain rfl := pure_eq_ok.mp hcurrent
    split_ifs with hgap
    · refine ⟨[], .restart husable ?_, holdsRun_reset state⟩
      intro other hother
      rw [hlast, Option.mem_some] at hother
      subst hother
      rintro ⟨next', hnext', hfollows⟩
      obtain rfl := Except.ok.inj (hnext.symm.trans hnext')
      exact hgap hfollows
    · refine ⟨run, h.current.extend husable ?_, h.holds⟩
      intro other hother
      have hsame := h.current.mem_getLast? hother
      rw [hlast, Option.mem_some] at hsame
      subst hsame
      exact ⟨next, hnext, not_not.mp hgap⟩

/-- A round succeeds when the gap check does; it never divides by zero. -/
theorem StateAt.seriesStep_ok_iff (h : StateAt unit seen run state) (sha256 : String → String)
    (candle : CandleView) : (∃ result, seriesStep sha256 unit state candle = .ok result) ↔
      ∀ previous ∈ seen.getLast?, ∃ next, nextBucket previous.startedAt unit = .ok next := by
  rw [← h.afterGap_ok_iff candle]
  constructor
  · rintro ⟨result, hresult⟩
    obtain ⟨current, hcurrent, -⟩ := bind_eq_ok.mp hresult
    exact ⟨current, hcurrent⟩
  · rintro ⟨current, hcurrent⟩
    unfold seriesStep
    rw [hcurrent, ok_bind]
    split_ifs with hunusable
    · exact ⟨_, rfl⟩
    · obtain ⟨kept, -, hholds⟩ := h.afterGap hcurrent (by simpa [Usable] using hunusable)
      obtain ⟨next, hadvance, -⟩ := advance_eq hholds candle
      rw [hadvance]
      exact ⟨_, rfl⟩

/-- A round sees the run that ends with its candle, and leaves it in the state. -/
theorem StateAt.seriesStep (h : StateAt unit seen run state) {next : SeriesState}
    (hstep : seriesStep sha256 unit state candle = .ok (next, result)) :
    ∃ run', StateAt unit (seen ++ [candle]) run' next ∧
      result.startedAt = candle.startedAt ∧ SeesRun (run'.map CandleView.close) result := by
  have hdated : ∀ {s : SeriesState} {closes : List ℚ}, HoldsRun s closes →
      HoldsRun { s with previousStartedAt := some candle.startedAt } closes :=
    fun hs => ⟨hs.window, hs.consecutiveCount, hs.ema, hs.averageGain, hs.averageLoss,
      hs.previousClose⟩
  have hlast : some candle.startedAt =
      (seen ++ [candle]).getLast?.map CandleView.startedAt := by
    rw [List.getLast?_concat]
    rfl
  obtain ⟨current, hcurrent, hstep⟩ := bind_eq_ok.mp hstep
  split_ifs at hstep with hunusable
  · obtain ⟨rfl, rfl⟩ := Prod.mk.inj (pure_eq_ok.mp hstep)
    have hnot : ¬ Usable candle := by
      rintro ⟨havailable, hcomplete⟩
      exact hunusable.elim (absurd havailable) (absurd hcomplete)
    exact ⟨[], ⟨.unusable hnot, hdated (holdsRun_reset current), hlast⟩, rfl,
      seesRun_missingPoint sha256 candle _⟩
  · obtain ⟨kept, hkept, hholds⟩ := h.afterGap hcurrent (by simpa [Usable] using hunusable)
    obtain ⟨advanced, hadvance, hadvanced⟩ := advance_eq hholds candle
    rw [hadvance, ok_bind] at hstep
    obtain ⟨rfl, rfl⟩ := Prod.mk.inj (pure_eq_ok.mp hstep)
    have hcloses : kept.map CandleView.close ++ [candle.close] =
        (kept ++ [candle]).map CandleView.close := by
      rw [map_append]
      rfl
    rw [hcloses] at hadvanced ⊢
    exact ⟨kept ++ [candle], ⟨hkept, hdated hadvanced, hlast⟩, rfl,
      seesRun_point sha256 candle (by simp) _⟩

end Round

/-! ## Whole series -/

/-- Every output of the loop sees the run that ends with its candle. -/
theorem runLoop_seesRun {last : SeriesState} {candles : List CandleView}
    {points : List IndicatorPoint} (h : StateAt unit seen run state)
    (hrun : runLoop (seriesStep sha256 unit) state candles = .ok (last, points))
    {front back : List CandleView} {candle : CandleView}
    (hcut : candles = front ++ candle :: back) :
    ∃ run' result, CurrentRun Usable (InNextBucket unit) (seen ++ front ++ [candle]) run' ∧
      points[front.length]? = some result ∧ result.startedAt = candle.startedAt ∧
      SeesRun (run'.map CandleView.close) result := by
  induction candles generalizing seen run state last points front with
  | nil => simp at hcut
  | cons first candles ih =>
    rw [runLoop] at hrun
    obtain ⟨⟨next, result⟩, hstep, hrun⟩ := bind_eq_ok.mp hrun
    obtain ⟨⟨last', results⟩, hrest, hrun⟩ := bind_eq_ok.mp hrun
    obtain ⟨rfl, rfl⟩ := Prod.mk.inj (pure_eq_ok.mp hrun)
    obtain ⟨run', hnext, hstarted, hsees⟩ := h.seriesStep hstep
    cases front with
    | nil =>
      obtain ⟨rfl, -⟩ := List.cons.inj hcut
      refine ⟨run', result, ?_, rfl, hstarted, hsees⟩
      rw [append_nil]
      exact hnext.current
    | cons head front =>
      obtain ⟨rfl, hrest_cut⟩ := List.cons.inj hcut
      obtain ⟨run'', result', hcurrent, hresult, hfound⟩ := ih hnext hrest hrest_cut
      exact ⟨run'', result', by simpa using hcurrent, hresult, hfound⟩

/-- The loop succeeds exactly when there is a next bucket after every candle it goes on from. -/
theorem runLoop_ok_iff (sha256 : String → String) (h : StateAt unit seen run state)
    (candles : List CandleView) :
    (∃ result, runLoop (seriesStep sha256 unit) state candles = .ok result) ↔
      ∀ candle ∈ (seen.getLast?.toList ++ candles).dropLast,
        ∃ next, nextBucket candle.startedAt unit = .ok next := by
  induction candles generalizing seen run state with
  | nil =>
    refine iff_of_true ⟨_, rfl⟩ ?_
    cases seen.getLast? <;> simp
  | cons candle candles ih =>
    have hsplit : (seen.getLast?.toList ++ candle :: candles).dropLast =
        seen.getLast?.toList ++ (candle :: candles).dropLast :=
      dropLast_append_of_ne_nil (by simp)
    have hround := h.seriesStep_ok_iff sha256 candle
    rw [hsplit, forall_mem_append]
    simp only [Option.mem_def, Option.mem_toList] at hround ⊢
    rw [← hround]
    constructor
    · rintro ⟨result, hresult⟩
      rw [runLoop] at hresult
      obtain ⟨⟨next, result⟩, hstep, hresult⟩ := bind_eq_ok.mp hresult
      obtain ⟨rest, hrest, -⟩ := bind_eq_ok.mp hresult
      obtain ⟨run', hnext, -⟩ := h.seriesStep hstep
      have hrest' := (ih hnext).mp ⟨rest, hrest⟩
      rw [List.getLast?_concat] at hrest'
      exact ⟨⟨_, hstep⟩, hrest'⟩
    · rintro ⟨⟨⟨next, result⟩, hstep⟩, hcandles⟩
      obtain ⟨run', hnext, -⟩ := h.seriesStep hstep
      obtain ⟨rest, hrest⟩ := (ih hnext).mpr (by rw [List.getLast?_concat]; exact hcandles)
      rw [runLoop, hstep, ok_bind]
      dsimp only
      rw [hrest]
      exact ⟨_, rfl⟩

/-- The indicators of a series see exactly the current run. The series is calculated when every
candle but the last has a next bucket in the calendar; there is then a point for each candle, and
it shows the indicators of the longest chain of consecutive usable buckets that ends there. A
request selects among the points.
SOURCE: versioned_indicators.py:88-228 -/
theorem calculateIndicatorSeries_seesRun (sha256 : String → String) (unit : String)
    {candles : List CandleView} (hdistinct : (candles.map fun item => item.startedAt.instant).Nodup)
    (requestedFrom : Option Datetime) :
    let ordered := sortedBy (fun item : CandleView => item.startedAt.instant) candles
    ((∃ points, calculateIndicatorSeries sha256 candles requestedFrom unit none = .ok points) ↔
      ∀ candle ∈ ordered.dropLast, ∃ next, nextBucket candle.startedAt unit = .ok next) ∧
    ∀ points, calculateIndicatorSeries sha256 candles requestedFrom unit none = .ok points →
      ∃ results : List IndicatorPoint, points = results.filter (requested requestedFrom) ∧
        results.length = candles.length ∧
        ∀ front candle back, ordered = front ++ candle :: back →
          ∃ run result, CurrentRun Usable (InNextBucket unit) (front ++ [candle]) run ∧
            results[front.length]? = some result ∧ result.startedAt = candle.startedAt ∧
            SeesRun (run.map CandleView.close) result := by
  intro ordered
  have hperm : ordered.Perm candles := sortedBy_perm _ candles
  have hsorted := sortedBy_pairwise (fun item : CandleView => item.startedAt.instant) candles
  have hdistinct' : (ordered.map fun item => item.startedAt.instant).Nodup :=
    (hperm.map _).nodup_iff.mpr hdistinct
  have hseries : calculateIndicatorSeries sha256 candles requestedFrom unit none = (do
      let result ← runLoop (seriesStep sha256 unit) ⟨[], 0, none, none, none, none, none⟩ ordered
      pure (result.2.filter (requested requestedFrom))) := by
    have hordered := calculateIndicatorSeries_eq hsorted hdistinct' sha256 requestedFrom unit none
    unfold calculateIndicatorSeries at hordered ⊢
    rw [sortedBy_eq_self hsorted] at hordered
    exact hordered
  have hinitial := stateAt_initial unit
  rw [hseries]
  constructor
  · have hok := runLoop_ok_iff sha256 hinitial ordered
    rw [List.getLast?_nil, Option.toList_none, nil_append] at hok
    rw [← hok]
    constructor
    · rintro ⟨points, hpoints⟩
      obtain ⟨result, hresult, -⟩ := bind_eq_ok.mp hpoints
      exact ⟨result, hresult⟩
    · rintro ⟨result, hresult⟩
      rw [hresult]
      exact ⟨_, rfl⟩
  · intro points hpoints
    obtain ⟨⟨last, results⟩, hresult, hpoints⟩ := bind_eq_ok.mp hpoints
    refine ⟨results, (pure_eq_ok.mp hpoints).symm, ?_, ?_⟩
    · rw [length_runLoop hresult, hperm.length_eq]
    · intro front candle back hcut
      exact runLoop_seesRun hinitial hresult hcut

/-- The second of two minutes sees the run of both. -/
theorem calculateIndicatorSeries_seesRun_second_minute : ∃ points run result,
      calculateIndicatorSeries id [minuteCandle 0 100, minuteCandle 1 (1005 / 10)] none "1m" none =
        .ok points ∧ points[1]? = some result ∧
      CurrentRun Usable (InNextBucket "1m") [minuteCandle 0 100, minuteCandle 1 (1005 / 10)] run ∧
      SeesRun (run.map CandleView.close) result := by
  have hordered : sortedBy (fun item : CandleView => item.startedAt.instant)
      [minuteCandle 0 100, minuteCandle 1 (1005 / 10)] =
      [minuteCandle 0 100] ++ [minuteCandle 1 (1005 / 10)] :=
    sortedBy_eq_self (by decide +kernel)
  obtain ⟨points, hpoints⟩ := exists_ok_of_isOk
    (show (calculateIndicatorSeries id [minuteCandle 0 100, minuteCandle 1 (1005 / 10)] none "1m"
      none).isOk = true by decide +kernel)
  have hsees := (calculateIndicatorSeries_seesRun id "1m" (by decide +kernel) none).2 points hpoints
  obtain ⟨results, rfl, -, hsees⟩ := hsees
  obtain ⟨run, result, hrun, hresult, -, hsees⟩ := hsees _ _ _ hordered
  have hall : results.filter (requested none) = results := filter_eq_self.mpr fun _ _ => rfl
  refine ⟨_, run, result, hpoints, ?_, hrun, hsees⟩
  rw [hall]
  exact hresult

end Goodmoneying.Analysis
