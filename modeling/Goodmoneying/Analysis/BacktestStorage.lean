import Goodmoneying.Analysis.BacktestFills
import Goodmoneying.Program.BacktestTables

/-!
# Storing a succeeded backtest

The amounts of a succeeded run are never negative and no fill is known before it occurs
(`executedTrade_nonneg`), so two things decide whether its rows meet the constraints of their tables
(`runCandleBacktest_storable_iff`): whether two fills fall on events of one occurrence time, and
whether the two parts of a split quantity still add up at 18 decimals (`SplitsEvenly`). For numbers
that fit their columns `Storable` is what the two insertions test (`storable_iff_inserted`).
-/

namespace Goodmoneying.Analysis

open List Library Program

variable {n : ℕ} {spec : BacktestEngineSpec} {event : BacktestCandleEvent} {signal : BacktestSignal}
variable {trade : BacktestTrade} {candles : List BacktestCandleEvent}
  {signals : List BacktestSignal}

/-- The row of a trade, every number at 18 decimals. -/
def storedTrade (trade : BacktestTrade) (tradeSequence : ℤ) : BacktestTradeRow where
  tradeSequence := tradeSequence
  side := trade.side
  requestedQuantity := roundPlaces 18 trade.requestedQuantity
  filledQuantity := roundPlaces 18 trade.filledQuantity
  remainingQuantity := roundPlaces 18 trade.remainingQuantity
  fillPrice := roundPlaces 18 trade.fillPrice
  feePaid := roundPlaces 18 trade.feePaid
  status := trade.status
  occurredAt := trade.occurredAt
  knowledgeAt := trade.knowledgeAt

/-- The entries of a run meet the constraints of their tables. -/
structure Storable (result : BacktestResult) : Prop where
  trades : ∀ trade ∈ result.trades, ∀ tradeSequence, (storedTrade trade tradeSequence).Checks
  points : ∀ point ∈ result.equityPoints, point.occurredAt ≤ point.knowledgeAt
  unique : (result.equityPoints.map fun point => point.occurredAt).Nodup

/-- The inputs the engine is meant for. -/
structure AdmissibleSpec (spec : BacktestEngineSpec) : Prop where
  fee_nonneg : 0 ≤ spec.execution.feeRate
  slippage_nonneg : 0 ≤ spec.execution.slippageBps
  slippage_le : spec.execution.slippageBps ≤ 10000
  participation_nonneg : 0 ≤ spec.execution.maxParticipationRate
  participation_le : spec.execution.maxParticipationRate ≤ 1
  latency_nonneg : 0 ≤ spec.execution.latencySeconds

/-- The candle events the engine is meant for. -/
structure AdmissibleCandle (event : BacktestCandleEvent) : Prop where
  close_nonneg : 0 ≤ event.close
  volume_nonneg : 0 ≤ event.volume
  known_after : event.occurredAt ≤ event.knowledgeAt

/-- A number fits a `NUMERIC(38,18)` column. -/
def FitsColumn (value : ℚ) : Prop := |roundPlaces 18 value| < 10 ^ 20

theorem store_of_fitsColumn {value : ℚ} (h : FitsColumn value) :
    Arithmetic.default.store value = .ok (roundPlaces 18 value) := by
  have hkept : numericColumn 38 18 value = some (roundPlaces 18 value) := if_pos h
  simp [Arithmetic.store, Arithmetic.decimal, hkept]

theorem integerColumn_natCast (h : n ≤ 2147483647) : integerColumn (n : ℤ) = .ok (n : ℤ) :=
  if_pos ⟨by omega, by omega⟩

/-- The numbers of a trade fit their columns. -/
structure TradeFits (trade : BacktestTrade) : Prop where
  requested : FitsColumn trade.requestedQuantity
  filled : FitsColumn trade.filledQuantity
  remaining : FitsColumn trade.remainingQuantity
  price : FitsColumn trade.fillPrice
  fee : FitsColumn trade.feePaid

/-- The numbers of an equity point fit their columns. -/
structure PointFits (point : BacktestEquityPoint) : Prop where
  cash : FitsColumn point.cash
  position : FitsColumn point.basePosition
  equity : FitsColumn point.equity

/-- The entries of a run fit their columns. -/
structure ResultFits (result : BacktestResult) : Prop where
  trades : ∀ trade ∈ result.trades, TradeFits trade
  points : ∀ point ∈ result.equityPoints, PointFits point
  tradeCount : result.trades.length ≤ 2147483647
  pointCount : result.equityPoints.length ≤ 2147483647

/-- A trade that fits is inserted exactly when its row passes the constraints. -/
theorem insertTrade_eq_ok_iff (hn : n ≤ 2147483647) (hfits : TradeFits trade)
    {row : BacktestTradeRow} : insertTrade Arithmetic.default n trade = .ok row ↔
      storedTrade trade n = row ∧ (storedTrade trade n).Checks := by
  unfold insertTrade
  rw [integerColumn_natCast hn, store_of_fitsColumn hfits.requested,
    store_of_fitsColumn hfits.filled, store_of_fitsColumn hfits.remaining,
    store_of_fitsColumn hfits.price, store_of_fitsColumn hfits.fee]
  simp only [ok_bind]
  change ((check (decide (storedTrade trade n).Checks)) >>= fun _ =>
    pure (storedTrade trade n)) = Except.ok row ↔ _
  by_cases hchecks : (storedTrade trade n).Checks
  · simp [check, hchecks]
  · simp [check, hchecks]

/-- An equity point that fits is inserted exactly when it is not known before it occurs and no
row has its occurrence time; its row carries that time. -/
theorem insertEquityPoint_spec (hn : n ≤ 2147483647) {point : BacktestEquityPoint}
    (hfits : PointFits point) (rows : List BacktestEquityPointRow) :
    (∃ row, insertEquityPoint Arithmetic.default rows n point = .ok row ∧
        row.occurredAt = point.occurredAt) ∧
      point.occurredAt ≤ point.knowledgeAt ∧
      point.occurredAt ∉ rows.map (fun row => row.occurredAt) ∨
    (∃ error, insertEquityPoint Arithmetic.default rows n point = .error error) ∧
      ¬ (point.occurredAt ≤ point.knowledgeAt ∧
        point.occurredAt ∉ rows.map fun row => row.occurredAt) := by
  unfold insertEquityPoint
  rw [integerColumn_natCast hn, store_of_fitsColumn hfits.cash,
    store_of_fitsColumn hfits.position, store_of_fitsColumn hfits.equity]
  simp only [ok_bind]
  by_cases hknown : point.occurredAt ≤ point.knowledgeAt
  · by_cases hused : rows.any fun other => other.occurredAt = point.occurredAt
    · right
      refine ⟨⟨.uniqueViolation, by simp [check, hknown, hused, throw, throwThe,
        MonadExceptOf.throw]⟩, ?_⟩
      simpa [hknown] using hused
    · left
      refine ⟨⟨_, by simp only [check, hknown, hused, decide_true, if_true, ok_bind]; rfl, rfl⟩,
        hknown, ?_⟩
      simpa using hused
  · right
    exact ⟨⟨.checkViolation, by simp [check, hknown]⟩, fun h => hknown h.1⟩

/-- The equity points are inserted exactly when none is known before it occurs and no two
share an occurrence time. -/
theorem insertEquityPoints_isOk_iff {points : List BacktestEquityPoint}
    (hfits : ∀ point ∈ points, PointFits point) (hcount : points.length ≤ 2147483647) :
    (∃ rows, insertEquityPoints Arithmetic.default points = .ok rows) ↔
      (∀ point ∈ points, point.occurredAt ≤ point.knowledgeAt) ∧
      (points.map fun point => point.occurredAt).Nodup := by
  -- with `rows` inserted before, their times are taken as well
  suffices hrun : ∀ (n : ℕ) (rows : List BacktestEquityPointRow),
      n + points.length ≤ 2147483648 →
      (rows.map fun row => row.occurredAt).Nodup →
      ((∃ final, (points.zipIdx n).foldlM
          (fun rows item => do
            let row ← insertEquityPoint Arithmetic.default rows item.2 item.1
            pure (rows ++ [row])) rows = .ok final) ↔
        (∀ point ∈ points, point.occurredAt ≤ point.knowledgeAt) ∧
        ((rows.map fun row => row.occurredAt) ++
          points.map fun point => point.occurredAt).Nodup) by
    simpa [insertEquityPoints] using hrun 1 [] (by omega) (by simp)
  induction points with
  | nil =>
    intro n rows _ hrows
    simpa [pure, Except.pure] using hrows
  | cons point points ih =>
    intro n rows hn hrows
    simp only [length_cons] at hn hcount
    have hspec := insertEquityPoint_spec (n := n) (by omega) (hfits point (by simp)) rows
    rw [zipIdx_cons, foldlM_cons]
    rcases hspec with ⟨⟨row, hok, htime⟩, hknown, hfresh⟩ | ⟨⟨error, herror⟩, hbad⟩
    · have hnext := ih (fun other hother => hfits other (by simp [hother])) (by omega) (n + 1)
        (rows ++ [row]) (by omega)
        (by simpa [htime, nodup_append] using ⟨hrows, by simpa using hfresh⟩)
      simp only [hok, ok_bind]
      refine hnext.trans ?_
      simp [htime, hknown]
    · simp only [herror, error_bind]
      constructor
      · rintro ⟨final, hfinal⟩
        cases hfinal
      · rintro ⟨hall, hnodup⟩
        refine absurd ⟨hall point (by simp), ?_⟩ hbad
        intro hmem
        exact (nodup_append.mp hnodup).2.2 _ hmem _ (by simp) rfl

/-- The trades are inserted exactly when every row passes the constraints. -/
theorem insertTrades_isOk_iff {trades : List BacktestTrade}
    (hfits : ∀ trade ∈ trades, TradeFits trade) (hcount : trades.length ≤ 2147483647) :
    (∃ rows, insertTrades Arithmetic.default trades = .ok rows) ↔
      ∀ trade ∈ trades, ∀ tradeSequence, (storedTrade trade tradeSequence).Checks := by
  have hround : ∀ item ∈ trades.zipIdx 1,
      (∃ row, insertTrade Arithmetic.default item.2 item.1 = .ok row) ↔
        (storedTrade item.1 item.2).Checks := by
    intro item hmem
    have hbound := snd_lt_of_mem_zipIdx hmem
    have hn : item.2 ≤ 2147483647 := by omega
    have htrade := hfits item.1 (fst_mem_of_mem_zipIdx hmem)
    constructor
    · rintro ⟨row, hrow⟩
      exact ((insertTrade_eq_ok_iff hn htrade).mp hrow).2
    · intro hchecks
      exact ⟨_, (insertTrade_eq_ok_iff hn htrade).mpr ⟨rfl, hchecks⟩⟩
  rw [insertTrades, mapM_isOk_iff]
  constructor
  · intro hall trade hmem tradeSequence
    obtain ⟨k, hk, rfl⟩ := getElem_of_mem hmem
    have hitem : (trades[k], k + 1) ∈ trades.zipIdx 1 := by
      rw [mk_mem_zipIdx_iff_le_and_getElem?_sub]
      simp [hk]
    have hchecks := (hround _ hitem).mp (hall _ hitem)
    -- no constraint reads the sequence number
    exact ⟨hchecks.1, hchecks.2, hchecks.3, hchecks.4, hchecks.5, hchecks.6, hchecks.7⟩
  · intro hall item hmem
    exact (hround item hmem).mpr (hall _ (fst_mem_of_mem_zipIdx hmem) _)

/-- A run whose numbers fit their columns can be stored exactly when both insertions
succeed.
SOURCE: backtest_store.py:877-922 -/
theorem storable_iff_inserted {result : BacktestResult} (hfits : ResultFits result) :
    Storable result ↔ (∃ rows, insertTrades Arithmetic.default result.trades = .ok rows) ∧
      ∃ rows, insertEquityPoints Arithmetic.default result.equityPoints = .ok rows := by
  rw [insertTrades_isOk_iff hfits.trades hfits.tradeCount,
    insertEquityPoints_isOk_iff hfits.points hfits.pointCount]
  exact ⟨fun h => ⟨h.trades, h.points, h.unique⟩, fun h => ⟨h.1, h.2.1, h.2.2⟩⟩

/-- The largest quantity one signal fills on `event`. -/
def fillCap (spec : BacktestEngineSpec) (event : BacktestCandleEvent) : ℚ :=
  Arithmetic.default.mul event.volume spec.execution.maxParticipationRate

/-- The part of `quantity`, in units of the 18th decimal, that is in neither of its two parts
once `cap` and `quantity - cap` are cut to 18 decimals. -/
def unstored (quantity cap : ℚ) : ℚ :=
  (quantity - (roundPlaces 18 cap + roundPlaces 18 (Arithmetic.default.sub quantity cap))) * 10 ^ 18

/-- Cutting the two parts of a split quantity loses less than half a unit. -/
def SplitsEvenly (quantity cap : ℚ) : Prop :=
  cap < quantity → -(1 / 2) ≤ unstored quantity cap ∧ unstored quantity cap < 1 / 2

/-- No two executed signals share the occurrence time of their events, and every split
quantity splits evenly. -/
structure SeparateFills (spec : BacktestEngineSpec) (candles : List BacktestCandleEvent)
    (signals : List BacktestSignal) : Prop where
  times : ((runFills spec candles signals).map fun fill => fill.1.occurredAt).Nodup
  splits : ∀ fill ∈ runFills spec candles signals,
    SplitsEvenly fill.2.baseQuantity (fillCap spec fill.1)

/-- The fill price of an admissible candle is not negative. -/
theorem fillPrice_nonneg (hspec : AdmissibleSpec spec) {close : ℚ} (hclose : 0 ≤ close)
    (side : Side) : 0 ≤ fillPrice Arithmetic.default spec.execution close side := by
  have hratio : 0 ≤ Arithmetic.default.div spec.execution.slippageBps 10000 :=
    roundSignificant_nonneg (div_nonneg hspec.slippage_nonneg (by norm_num))
  have hratio_le : Arithmetic.default.div spec.execution.slippageBps 10000 ≤ 1 := by
    have hle : spec.execution.slippageBps / 10000 ≤ (10 : ℚ) ^ (0 : ℤ) := by
      have := hspec.slippage_le
      rw [zpow_zero, div_le_one (by norm_num)]
      exact this
    have hround := roundSignificant_le_zpow (p := 28)
      (div_nonneg hspec.slippage_nonneg (by norm_num)) hle (by norm_num)
    rwa [zpow_zero] at hround
  cases side with
  | buy =>
    exact roundSignificant_nonneg (mul_nonneg hclose (roundSignificant_nonneg (by linarith)))
  | sell =>
    exact roundSignificant_nonneg (mul_nonneg hclose (roundSignificant_nonneg (by linarith)))

/-- No amount of an executed trade is negative. -/
theorem executedTrade_nonneg (hspec : AdmissibleSpec spec) (hevent : AdmissibleCandle event)
    (hsignal : 0 ≤ signal.baseQuantity) :
    let trade := executedTrade Arithmetic.default spec event signal
    0 ≤ trade.filledQuantity ∧ 0 ≤ trade.remainingQuantity ∧ 0 ≤ trade.fillPrice ∧
      0 ≤ trade.feePaid := by
  intro trade
  have hcap : 0 ≤ fillCap spec event :=
    roundSignificant_nonneg (mul_nonneg hevent.volume_nonneg hspec.participation_nonneg)
  have hfilled : 0 ≤ trade.filledQuantity := le_min hsignal hcap
  have hprice : 0 ≤ trade.fillPrice := fillPrice_nonneg hspec hevent.close_nonneg signal.side
  refine ⟨hfilled, ?_, hprice, ?_⟩
  · exact roundSignificant_nonneg (sub_nonneg.mpr (min_le_left _ _))
  · exact roundSignificant_nonneg
      (mul_nonneg (roundSignificant_nonneg (mul_nonneg hprice hfilled)) hspec.fee_nonneg)

/-- The stored parts of a quantity add up exactly when it splits evenly. -/
theorem stored_split_iff (hsignal : 0 ≤ signal.baseQuantity)
    (htrade : executedTrade Arithmetic.default spec event signal = trade) :
    roundPlaces 18 trade.filledQuantity + roundPlaces 18 trade.remainingQuantity =
        roundPlaces 18 trade.requestedQuantity ↔
      SplitsEvenly signal.baseQuantity (fillCap spec event) := by
  subst htrade
  set trade := executedTrade Arithmetic.default spec event signal
  have hfilled : trade.filledQuantity = min signal.baseQuantity (fillCap spec event) := rfl
  have hremaining : trade.remainingQuantity =
      Arithmetic.default.sub signal.baseQuantity trade.filledQuantity := rfl
  have hrequested : trade.requestedQuantity = signal.baseQuantity := rfl
  rw [hremaining, hrequested, hfilled]
  rcases le_or_gt signal.baseQuantity (fillCap spec event) with hle | hlt
  · -- filled in one piece: nothing is left over
    have hrest : roundPlaces 18 (Arithmetic.default.sub signal.baseQuantity
        signal.baseQuantity) = 0 := by
      have hzero : Arithmetic.default.sub signal.baseQuantity signal.baseQuantity = 0 := by
        simp [Arithmetic.sub, Arithmetic.decimal]
      rw [hzero]
      exact roundPlaces_eq_self_iff.mpr ⟨0, by norm_num⟩
    rw [min_eq_left hle, hrest, add_zero]
    exact ⟨fun _ hlt => absurd hlt (not_lt.mpr hle), fun _ => rfl⟩
  · rw [min_eq_right hlt.le, eq_comm,
      roundPlaces_eq_iff hsignal (roundPlaces_add_eq_self (roundPlaces_idem 18 _)
        (roundPlaces_idem 18 _))]
    exact ⟨fun h _ => h, fun h => h hlt⟩

/-- The row of a fill's trade passes its constraints exactly when the quantity splits
evenly. -/
theorem storedTrade_checks_iff (hspec : AdmissibleSpec spec) (hevent : AdmissibleCandle event)
    (hsignal : 0 ≤ signal.baseQuantity) (tradeSequence : ℤ) :
    (storedTrade (executedTrade Arithmetic.default spec event signal) tradeSequence).Checks ↔
      SplitsEvenly signal.baseQuantity (fillCap spec event) := by
  obtain ⟨hfilled, hremaining, hprice, hfee⟩ := executedTrade_nonneg hspec hevent hsignal
  rw [← stored_split_iff hsignal rfl]
  constructor
  · exact fun h => h.split
  · intro h
    exact ⟨roundPlaces_nonneg hsignal, roundPlaces_nonneg hfilled, roundPlaces_nonneg hremaining,
      roundPlaces_nonneg hprice, roundPlaces_nonneg hfee, h, hevent.known_after⟩

/-- Both parts of a fill are inputs of the run. -/
theorem mem_runFills {fill : Fill} (h : fill ∈ runFills spec candles signals) :
    fill.1 ∈ candles ∧ fill.2 ∈ signals := by
  obtain ⟨signal, hsignal, hfill⟩ := mem_filterMap.mp h
  obtain ⟨event, hevent, rfl⟩ := Option.map_eq_some_iff.mp hfill
  exact ⟨mem_sortedBy.mp (executionEvent_some hevent).1, mem_sortedBy.mp hsignal⟩

/-- The trades of a succeeded run are the trades of its fills, and its equity points carry
their times. -/
theorem succeeded_entries {ar : Arithmetic} {hash : CanonicalValue → String}
    (h : (runCandleBacktest ar hash spec candles signals).status = .succeeded) :
    (runCandleBacktest ar hash spec candles signals).trades =
      (runFills spec candles signals).map (fun fill => executedTrade ar spec fill.1 fill.2) ∧
    (runCandleBacktest ar hash spec candles signals).equityPoints.map
        (fun point => (point.occurredAt, point.knowledgeAt)) = (runFills spec candles signals).map
        fun fill => (fill.1.occurredAt, fill.1.knowledgeAt) := by
  obtain ⟨-, htrades, hpoints⟩ := runCandleBacktest_succeeded h
  obtain ⟨points, happend, htimes⟩ := executeFills_equityPoints ar spec
    (initialReplayState spec) (runFills spec candles signals)
  rw [htrades, hpoints, replay_eq_runFills]
  refine ⟨executeFills_trades ar spec (initialReplayState spec) _, ?_⟩
  rw [← htimes]
  simpa [initialReplayState] using
    congrArg (List.map fun point => (point.occurredAt, point.knowledgeAt)) happend

/-- A succeeded run can be stored exactly when its fills are separate.
SOURCE: backtest_engine.py:173-217, backtest_store.py:877-922 -/
theorem runCandleBacktest_storable_iff (hash : CanonicalValue → String)
    (spec : BacktestEngineSpec) (hspec : AdmissibleSpec spec)
    (candles : List BacktestCandleEvent) (hcandles : ∀ event ∈ candles, AdmissibleCandle event)
    (signals : List BacktestSignal) (hsignals : ∀ signal ∈ signals, 0 ≤ signal.baseQuantity)
    (hsucceeded : (runCandleBacktest Arithmetic.default hash spec candles signals).status =
      .succeeded) : Storable (runCandleBacktest Arithmetic.default hash spec candles signals) ↔
      SeparateFills spec candles signals := by
  obtain ⟨htrades, htimes⟩ := succeeded_entries hsucceeded
  have hoccurred : (runCandleBacktest Arithmetic.default hash spec candles signals).equityPoints.map
      (fun point => point.occurredAt) =
        (runFills spec candles signals).map fun fill => fill.1.occurredAt := by
    simpa [Function.comp_def] using congrArg (List.map Prod.fst) htimes
  have hchecks : ∀ fill ∈ runFills spec candles signals, ∀ tradeSequence,
      (storedTrade (executedTrade Arithmetic.default spec fill.1 fill.2) tradeSequence).Checks ↔
        SplitsEvenly fill.2.baseQuantity (fillCap spec fill.1) := by
    intro fill hfill tradeSequence
    obtain ⟨hevent, hsignal⟩ := mem_runFills hfill
    exact storedTrade_checks_iff hspec (hcandles _ hevent) (hsignals _ hsignal) tradeSequence
  constructor
  · rintro ⟨hstored, -, hunique⟩
    refine ⟨hoccurred ▸ hunique, fun fill hfill => ?_⟩
    exact (hchecks fill hfill 1).mp
      (hstored _ (htrades ▸ mem_map_of_mem hfill) 1)
  · rintro ⟨hnodup, hsplits⟩
    refine ⟨?_, ?_, hoccurred ▸ hnodup⟩
    · intro trade htrade tradeSequence
      rw [htrades] at htrade
      obtain ⟨fill, hfill, rfl⟩ := mem_map.mp htrade
      exact (hchecks fill hfill tradeSequence).mpr (hsplits fill hfill)
    · intro point hpoint
      have hmem := mem_map_of_mem
        (f := fun point : BacktestEquityPoint => (point.occurredAt, point.knowledgeAt)) hpoint
      rw [htimes] at hmem
      obtain ⟨fill, hfill, heq⟩ := mem_map.mp hmem
      obtain ⟨hoccurred, hknown⟩ := Prod.mk.inj heq
      rw [← hoccurred, ← hknown]
      exact (hcandles _ (mem_runFills hfill).1).known_after

/-- Two signals, one of them filled only in part, on two candles: the run can be stored. -/
theorem runCandleBacktest_storable_two_candles :
    Storable (runCandleBacktest Arithmetic.default (fun _ => "") delayedSpec
      [candleAt 60 100, candleAt 120 7] [buyAt 10, buyAt 80]) := by
  refine (runCandleBacktest_storable_iff (fun _ => "") delayedSpec ?_
    [candleAt 60 100, candleAt 120 7] ?_ [buyAt 10, buyAt 80] ?_ (by decide +kernel)).mpr ⟨?_, ?_⟩
  · constructor <;> norm_num [delayedSpec]
  · simp only [forall_mem_cons, not_mem_nil, false_imp_iff, implies_true, and_true]
    refine ⟨?_, ?_⟩ <;> constructor <;> norm_num [candleAt, Instant.addSeconds]
  · norm_num [buyAt]
  · decide +kernel
  · unfold SplitsEvenly
    decide +kernel

/-- The run of two candles can be stored exactly when its entries are inserted. -/
theorem storable_iff_inserted_two_candles :
    let result := runCandleBacktest Arithmetic.default (fun _ => "") delayedSpec
      [candleAt 60 100, candleAt 120 7] [buyAt 10, buyAt 80]
    result.trades.length = 2 ∧ (Storable result ↔
      (∃ rows, insertTrades Arithmetic.default result.trades = .ok rows) ∧
      ∃ rows, insertEquityPoints Arithmetic.default result.equityPoints = .ok rows) := by
  refine ⟨by decide +kernel, storable_iff_inserted ⟨?_, ?_, by decide +kernel, by decide +kernel⟩⟩
  · refine fun trade htrade => ⟨?_, ?_, ?_, ?_, ?_⟩ <;> unfold FitsColumn <;> revert trade <;>
      decide +kernel
  · refine fun point hpoint => ⟨?_, ?_, ?_⟩ <;> unfold FitsColumn <;> revert point <;>
      decide +kernel

/-- Two signals executed on one candle: the run succeeds and its equity points share an
occurrence time. -/
theorem runCandleBacktest_shared_candle_not_storable :
    AdmissibleSpec delayedSpec ∧ AdmissibleCandle (candleAt 60 100) ∧
    (∀ signal ∈ [buyAt 10, buyAt 20], 0 ≤ signal.baseQuantity) ∧
    (runCandleBacktest Arithmetic.default (fun _ => "") delayedSpec [candleAt 60 100]
      [buyAt 10, buyAt 20]).status = .succeeded ∧
    ¬ Storable (runCandleBacktest Arithmetic.default (fun _ => "") delayedSpec [candleAt 60 100]
      [buyAt 10, buyAt 20]) := by
  refine ⟨?_, ?_, ?_, by decide +kernel, ?_⟩
  · constructor <;> norm_num [delayedSpec]
  · constructor <;> norm_num [candleAt, Instant.addSeconds]
  · norm_num [buyAt]
  · intro h
    exact absurd h.unique (by decide +kernel)

/-- A cap of half a unit of the 18th decimal: both parts are rounded up. -/
example : ¬ SplitsEvenly (10 / 10 ^ 18) (5 / 10 ^ 19) := by
  unfold SplitsEvenly
  decide +kernel

end Goodmoneying.Analysis
