import Goodmoneying.Analysis.DecimalArithmetic
import Goodmoneying.Analysis.MicrostructureInputs
import Goodmoneying.Program.MicrostructureDivisions

/-!
# Coherence of a microstructure bucket

`calculate_microstructure_bucket` guards every division, shows the values of an order book or of the
trades exactly where their status is ready, and depends on no order of its inputs. The trades are
compared with the candle outside of the context of 50 digits: a bucket is coherent exactly when the
rounding of the default context loses nothing (`coherentCalculation_iff`), and a large trade hides
the smallest one (`calculateMicrostructureBucket_loses_trade`).
-/

namespace Goodmoneying.Analysis

open List Library Program

variable {x : ℚ}
variable {status : MicrostructureStatus} {trades : List MicrostructureTradeInput}

/-! ## Divisors -/

theorem microstructureDivide_eq {y : ℚ} (h : y ≠ 0) :
    microstructureDivide x y = .ok (microstructureContext.div x y) := if_neg h

/-- Every division of the order book values is guarded. -/
theorem orderbookValuesDividing_eq (snapshot : Option MicrostructureOrderbookInput) :
    orderbookValuesDividing snapshot = .ok (orderbookValues snapshot) := by
  unfold orderbookValuesDividing orderbookValues
  cases snapshot with
  | none => rfl
  | some snapshot =>
    dsimp only
    generalize (sortedBy MicrostructureOrderbookLevel.levelIndex snapshot.levels).take 10 = firstTen
    cases firstTen with
    | nil => split_ifs <;> rfl
    | cons best rest =>
      have hhalf : ∀ x, microstructureDivide x 2 = .ok (microstructureContext.div x 2) :=
        fun x => microstructureDivide_eq two_ne_zero
      simp only [hhalf, ok_bind]
      split_ifs with hpartial hinvalid hcrossed hmidpoint hdenominator
      · rfl
      · rfl
      · rfl
      · rfl
      · rfl
      · rw [microstructureDivide_eq (not_le.mp hmidpoint).ne', microstructureDivide_eq hdenominator]
        rfl

/-- Every division of the trade values is guarded. -/
theorem tradeValuesDividing_eq (trades : List MicrostructureTradeInput)
    (sourceCandle : Option MicrostructureCandleInput) (resolvedQuality : SourceQuality) :
    tradeValuesDividing trades sourceCandle resolvedQuality =
      .ok (tradeValues trades sourceCandle resolvedQuality) := by
  have hshare : ∀ x y : ℚ,
      (if 0 < y then some <$> microstructureDivide x y else pure none) =
        .ok (if 0 < y then some (microstructureContext.div x y) else none) := by
    intro x y
    split_ifs with hpos
    · rw [microstructureDivide_eq hpos.ne']
      rfl
    · rfl
  have hpercent : ∀ x y : ℚ,
      (if 0 < y then do
        let ratio ← microstructureDivide x y
        pure (some (microstructureContext.mul ratio 100))
      else pure none) =
        .ok (if 0 < y then some (microstructureContext.mul (microstructureContext.div x y) 100)
          else none) := by
    intro x y
    split_ifs with hpos
    · rw [microstructureDivide_eq hpos.ne']
      rfl
    · rfl
  unfold tradeValuesDividing tradeValues
  cases sourceCandle with
  | none => rfl
  | some candle =>
    simp only [hshare, hpercent, ok_bind]
    split_ifs <;> rfl

/-! ## Order books -/

/-- The values of a ready order book. -/
structure OrderbookReady (values : OrderbookValues) : Prop where
  spread : ∃ spread, values.spread = some spread ∧ 0 < spread
  spreadBps : ∃ spreadBps, values.spreadBps = some spreadBps ∧ 0 < spreadBps
  depths : ∃ bidDepth askDepth, values.bidDepth = some bidDepth ∧
    values.askDepth = some askDepth ∧ 0 ≤ bidDepth ∧ 0 ≤ askDepth ∧
    ¬ (bidDepth = 0 ∧ askDepth = 0)
  imbalance : ∃ imbalance, values.imbalance = some imbalance ∧ |imbalance| ≤ 1

/-- An order book that is not ready shows nothing. -/
def OrderbookBlank (values : OrderbookValues) : Prop :=
  values.spread = none ∧ values.spreadBps = none ∧ values.bidDepth = none ∧
    values.askDepth = none ∧ values.imbalance = none

/-- The values are there exactly when the order book is ready. -/
def OrderbookCoherent (values : OrderbookValues) : Prop :=
  (values.status = .ready → OrderbookReady values) ∧
    (values.status ≠ .ready → OrderbookBlank values)

theorem orderbookCoherent_blank (h : status ≠ .ready) : OrderbookCoherent { status := status } :=
  ⟨fun hready => absurd hready h, fun _ => ⟨rfl, rfl, rfl, rfl, rfl⟩⟩

/-- The values of an order book are shown exactly where it is ready. -/
theorem orderbookValues_coherent (snapshot : Option MicrostructureOrderbookInput) :
    OrderbookCoherent (orderbookValues snapshot) := by
  unfold orderbookValues
  cases snapshot with
  | none => exact orderbookCoherent_blank (by simp)
  | some snapshot =>
    dsimp only
    generalize (sortedBy MicrostructureOrderbookLevel.levelIndex snapshot.levels).take 10 = firstTen
    cases firstTen with
    | nil => split_ifs <;> exact orderbookCoherent_blank (by simp)
    | cons best rest =>
      dsimp only
      split_ifs with hpartial hinvalid hcrossed hmidpoint hdenominator
      · exact orderbookCoherent_blank (by simp)
      · exact orderbookCoherent_blank (by simp)
      · exact orderbookCoherent_blank (by simp)
      · exact orderbookCoherent_blank (by simp)
      · exact orderbookCoherent_blank (by simp)
      · refine ⟨fun _ => ?_, fun h => absurd rfl h⟩
        have hvalid := not_or.mp hinvalid |>.2
        simp only [any_eq_true, not_exists, not_and, Bool.or_eq_true, decide_eq_true_eq,
          not_or, not_le, not_lt] at hvalid
        have hspread : 0 < microstructureContext.sub best.askPrice best.bidPrice :=
          decimal_pos (by norm_num) (by linarith)
        have hbid : 0 ≤ microstructureContext.sum
            ((best :: rest).map MicrostructureOrderbookLevel.bidSize) := by
          apply decimal_sum_nonneg
          intro size hsize
          obtain ⟨item, hitem, rfl⟩ := mem_map.mp hsize
          exact (hvalid item hitem).2
        have hask : 0 ≤ microstructureContext.sum
            ((best :: rest).map MicrostructureOrderbookLevel.askSize) := by
          apply decimal_sum_nonneg
          intro size hsize
          obtain ⟨item, hitem, rfl⟩ := mem_map.mp hsize
          exact (hvalid item hitem).1.2
        constructor
        case spread => exact ⟨_, rfl, hspread⟩
        case spreadBps =>
          refine ⟨_, rfl, decimal_pos (by norm_num) (mul_pos ?_ (by norm_num))⟩
          exact decimal_pos (by norm_num) (div_pos hspread (not_le.mp hmidpoint))
        case depths =>
          refine ⟨_, _, rfl, rfl, hbid, hask, ?_⟩
          rintro ⟨hbid', hask'⟩
          apply hdenominator
          rw [hbid', hask', Arithmetic.add, add_zero]
          exact roundSignificant_zero 50
        case imbalance => exact ⟨_, rfl, abs_decimal_imbalance_le (by norm_num) hbid hask⟩

/-! ## Trades -/

/-- A trade that can be counted: a side, and a positive volume and amount. -/
def ValidTrade (item : MicrostructureTradeInput) : Prop :=
  (item.direction = "BID" ∨ item.direction = "ASK") ∧ 0 < item.volume ∧ 0 < item.amount

/-- The trades agree with the candle, as the code compares them: the sums are those of the
default context. -/
structure Reconciled (trades : List MicrostructureTradeInput)
    (candle : MicrostructureCandleInput) : Prop where
  nonempty : trades ≠ []
  valid : ∀ item ∈ trades, ValidTrade item
  volume : Arithmetic.default.sum (trades.map MicrostructureTradeInput.volume) = candle.volume
  amount : Arithmetic.default.sum (trades.map MicrostructureTradeInput.amount) = candle.amount

/-- No trade, and a candle without volume. -/
structure NoTrade (trades : List MicrostructureTradeInput)
    (candle : MicrostructureCandleInput) : Prop where
  trades : trades = []
  volume : candle.volume = 0
  amount : candle.amount = 0

/-- The volumes of one side. -/
def volumesOf (direction : String) (trades : List MicrostructureTradeInput) : List ℚ :=
  (trades.filter fun item => item.direction = direction).map MicrostructureTradeInput.volume

/-- Trades that are not ready show nothing. -/
def TradesBlank (values : TradeValues) : Prop :=
  values.count = none ∧ values.intensity = none ∧ values.buyCount = none ∧
    values.sellCount = none ∧ values.buyVolume = none ∧ values.sellVolume = none ∧
    values.imbalance = none ∧ values.strength = none

/-- The values of ready trades, as far as the comparison with the candle does not matter. -/
structure TradesReady (trades : List MicrostructureTradeInput) (values : TradeValues) : Prop where
  counts : ∃ count buyCount sellCount, values.count = some count ∧
    values.buyCount = some buyCount ∧ values.sellCount = some sellCount ∧
    buyCount + sellCount = count
  buyVolume : values.buyVolume = some (microstructureContext.sum (volumesOf "BID" trades))
  sellVolume : values.sellVolume = some (microstructureContext.sum (volumesOf "ASK" trades))
  imbalance : ∀ imbalance ∈ values.imbalance, |imbalance| ≤ 1
  strength : values.strength.isSome = true ↔
    0 < microstructureContext.sum (volumesOf "ASK" trades)

/-- Every trade has exactly one side. -/
theorem length_sides (h : ∀ item ∈ trades, ValidTrade item) :
    (trades.filter fun item => item.direction = "BID").length +
      (trades.filter fun item => item.direction = "ASK").length = trades.length := by
  have hask : (trades.filter fun item => item.direction = "ASK") =
      trades.filter fun item => !decide (item.direction = "BID") := by
    apply filter_congr
    intro item hitem
    rcases (h item hitem).1 with hside | hside <;> simp [hside]
  rw [hask, ← length_append]
  exact (filter_append_perm _ trades).length_eq

theorem volumesOf_pos (h : ∀ item ∈ trades, ValidTrade item) (direction : String) :
    ∀ volume ∈ volumesOf direction trades, 0 < volume := by
  intro volume hvolume
  obtain ⟨item, hitem, rfl⟩ := mem_map.mp hvolume
  exact (h item (mem_of_mem_filter hitem)).2.1

/-- The trades are ready when there is nothing to count, or they agree with the candle. -/
def CountsTrades (trades : List MicrostructureTradeInput)
    (sourceCandle : Option MicrostructureCandleInput) (quality : SourceQuality) : Prop :=
  ∃ candle, sourceCandle = some candle ∧ (quality = .noTrade ∧ NoTrade trades candle ∨
    quality = .available ∧ Reconciled trades candle)

/-- The values are there exactly when the trades are ready. -/
structure TradesCoherent (trades : List MicrostructureTradeInput)
    (sourceCandle : Option MicrostructureCandleInput) (quality : SourceQuality)
    (values : TradeValues) : Prop where
  status : values.status = .ready ↔ CountsTrades trades sourceCandle quality
  ready : values.status = .ready → TradesReady trades values
  blank : values.status ≠ .ready → TradesBlank values

section TradeValues

variable {trades : List MicrostructureTradeInput}
  {sourceCandle : Option MicrostructureCandleInput} {quality : SourceQuality}
variable {strengthStatus : MicrostructureStatus}

theorem tradesCoherent_blank (hstatus : status ≠ .ready)
    (hcounts : ¬ CountsTrades trades sourceCandle quality) :
    TradesCoherent trades sourceCandle quality
      { status := status, strengthStatus := strengthStatus } where
  status := iff_of_false hstatus hcounts
  ready h := absurd h hstatus
  blank _ := ⟨rfl, rfl, rfl, rfl, rfl, rfl, rfl, rfl⟩

/-- Nothing is counted of an official minute without trades. -/
theorem tradesReady_noTrade (strengthStatus : MicrostructureStatus) :
    TradesReady []
      { count := some 0, intensity := some 0, buyCount := some 0, sellCount := some 0,
        buyVolume := some 0, sellVolume := some 0, status := .ready,
        strengthStatus := strengthStatus } where
  counts := ⟨0, 0, 0, rfl, rfl, rfl, rfl⟩
  buyVolume := rfl
  sellVolume := rfl
  imbalance := by simp
  strength := iff_of_false (by simp) (lt_irrefl 0)

/-- The check for invalid trades. -/
theorem any_invalid_iff (trades : List MicrostructureTradeInput) :
    (trades.any fun item => (item.direction ≠ "BID" && item.direction ≠ "ASK") ||
      item.volume ≤ 0 || item.amount ≤ 0) = true ↔ ¬ ∀ item ∈ trades, ValidTrade item := by
  simp only [any_eq_true, Bool.or_eq_true, Bool.and_eq_true, decide_eq_true_eq, not_forall,
    exists_prop, ValidTrade, not_and_or, not_or, not_lt, or_assoc]

/-- What is shown of valid trades. -/
theorem tradesReady_traded (hvalid : ∀ item ∈ trades, ValidTrade item)
    {imbalance strength : Option ℚ} (himbalance : ∀ share ∈ imbalance, |share| ≤ 1)
    (hstrength : strength.isSome = true ↔ 0 < microstructureContext.sum (volumesOf "ASK" trades)) :
    TradesReady trades
      { count := some trades.length
        intensity := some trades.length
        buyCount := some (trades.filter fun item => item.direction = "BID").length
        sellCount := some (trades.filter fun item => item.direction = "ASK").length
        buyVolume := some (microstructureContext.sum (volumesOf "BID" trades))
        sellVolume := some (microstructureContext.sum (volumesOf "ASK" trades))
        imbalance := imbalance
        strength := strength
        status := .ready
        strengthStatus := strengthStatus } where
  counts := ⟨_, _, _, rfl, rfl, rfl, by exact_mod_cast length_sides hvalid⟩
  buyVolume := rfl
  sellVolume := rfl
  imbalance := himbalance
  strength := hstrength

/-- The values of trades are shown exactly where they are ready. -/
theorem tradeValues_coherent (trades : List MicrostructureTradeInput)
    (sourceCandle : Option MicrostructureCandleInput) (quality : SourceQuality) :
    TradesCoherent trades sourceCandle quality (tradeValues trades sourceCandle quality) := by
  unfold tradeValues
  cases sourceCandle with
  | none => exact tradesCoherent_blank (by simp) (by simp [CountsTrades])
  | some candle =>
    have hcounts : CountsTrades trades (some candle) quality ↔
        quality = .noTrade ∧ NoTrade trades candle ∨
          quality = .available ∧ Reconciled trades candle := by
      simp [CountsTrades]
    dsimp only
    by_cases hno : quality = .noTrade
    · rw [if_pos hno]
      by_cases hsome : trades ≠ [] ∨ candle.volume ≠ 0 ∨ candle.amount ≠ 0
      · rw [if_pos hsome]
        refine tradesCoherent_blank (by simp) ?_
        rw [hcounts, hno]
        rintro (⟨-, htrades, hvolume, hamount⟩ | ⟨havailable, -⟩)
        · exact hsome.elim (absurd htrades) fun h => h.elim (absurd hvolume) (absurd hamount)
        · simp at havailable
      · rw [if_neg hsome]
        simp only [not_or, not_not] at hsome
        obtain ⟨rfl, hvolume, hamount⟩ := hsome
        exact ⟨iff_of_true rfl (hcounts.mpr (Or.inl ⟨hno, rfl, hvolume, hamount⟩)),
          fun _ => tradesReady_noTrade _, fun h => absurd rfl h⟩
    · rw [if_neg hno]
      have hcounts' : CountsTrades trades (some candle) quality ↔
          quality = .available ∧ Reconciled trades candle := by
        rw [hcounts, or_iff_right fun h => hno h.1]
      by_cases hnone : quality ≠ .available ∨ trades = []
      · rw [if_pos hnone]
        refine tradesCoherent_blank (by simp) ?_
        rw [hcounts']
        rintro ⟨havailable, hreconciled⟩
        exact hnone.elim (absurd havailable) hreconciled.nonempty
      · rw [if_neg hnone]
        simp only [not_or, not_not] at hnone
        by_cases hinvalid : (trades.any fun item =>
            (item.direction ≠ "BID" && item.direction ≠ "ASK") || item.volume ≤ 0 ||
              item.amount ≤ 0) = true
        · rw [if_pos hinvalid]
          refine tradesCoherent_blank (by simp) ?_
          rw [hcounts']
          rintro ⟨-, hreconciled⟩
          exact (any_invalid_iff trades).mp hinvalid hreconciled.valid
        · rw [if_neg hinvalid]
          have hvalid := not_not.mp (mt (any_invalid_iff trades).mpr hinvalid)
          by_cases hdiffers :
              Arithmetic.default.sum (trades.map MicrostructureTradeInput.volume) ≠
                candle.volume ∨
              Arithmetic.default.sum (trades.map MicrostructureTradeInput.amount) ≠ candle.amount
          · rw [if_pos hdiffers]
            refine tradesCoherent_blank (by simp) ?_
            rw [hcounts']
            rintro ⟨-, hreconciled⟩
            exact hdiffers.elim (absurd hreconciled.volume) (absurd hreconciled.amount)
          · rw [if_neg hdiffers]
            simp only [not_or, not_not] at hdiffers
            have hnonneg : ∀ direction,
                0 ≤ microstructureContext.sum (volumesOf direction trades) := fun direction =>
              decimal_sum_nonneg fun volume hvolume =>
                (volumesOf_pos hvalid direction volume hvolume).le
            refine ⟨iff_of_true rfl (hcounts'.mpr
                ⟨hnone.1, hnone.2, hvalid, hdiffers.1, hdiffers.2⟩),
              fun _ => tradesReady_traded hvalid ?_ ?_, fun h => absurd rfl h⟩
            · intro share hshare
              split_ifs at hshare
              · rw [← Option.mem_some.mp hshare]
                exact abs_decimal_imbalance_le (by norm_num) (hnonneg "BID") (hnonneg "ASK")
              · simp at hshare
            · unfold volumesOf
              split_ifs with hsell
              · exact iff_of_true rfl hsell
              · exact iff_of_false (by simp) hsell

/-! ## Exact sums -/

/-- The volumes and amounts are numbers of `NUMERIC(38,18)` columns. -/
structure AdmittedNumbers (trades : List MicrostructureTradeInput)
    (evidence : MicrostructureEvidence) : Prop where
  volume : ∀ item ∈ trades, numericColumn 38 18 item.volume = some item.volume
  amount : ∀ item ∈ trades, numericColumn 38 18 item.amount = some item.amount
  candle : ∀ candle, evidence.sourceCandle = some candle →
    numericColumn 38 18 candle.volume = some candle.volume ∧
      numericColumn 38 18 candle.amount = some candle.amount

/-- Adding up in the default context loses no digit of the volumes and amounts. -/
def SumsExact (trades : List MicrostructureTradeInput) : Prop :=
  Arithmetic.default.sum (trades.map MicrostructureTradeInput.volume) =
      (trades.map MicrostructureTradeInput.volume).sum ∧
    Arithmetic.default.sum (trades.map MicrostructureTradeInput.amount) =
      (trades.map MicrostructureTradeInput.amount).sum

theorem places_of_column (h : numericColumn 38 18 x = some x) : roundPlaces 18 x = x :=
  (numericColumn_eq_some h).symm

theorem abs_lt_of_column (h : numericColumn 38 18 x = some x) : |x| < 10 ^ 20 := by
  have hplaces := places_of_column h
  unfold numericColumn at h
  split_ifs at h with hlt
  rwa [hplaces] at hlt

theorem sum_volumesOf_le (hvalid : ∀ item ∈ trades, ValidTrade item) (direction : String) :
    (volumesOf direction trades).sum ≤ (trades.map MicrostructureTradeInput.volume).sum := by
  apply List.Sublist.sum_le_sum (filter_sublist.map _)
  intro volume hvolume
  obtain ⟨item, hitem, rfl⟩ := mem_map.mp hvolume
  exact (hvalid item hitem).2.1.le

/-- The published sums are exact, as long as all volumes together fit the column of the candle. -/
theorem volumesOf_sum_exact (hvalid : ∀ item ∈ trades, ValidTrade item)
    (hcolumn : ∀ item ∈ trades, numericColumn 38 18 item.volume = some item.volume)
    (htotal : (trades.map MicrostructureTradeInput.volume).sum < 10 ^ 20) (direction : String) :
    microstructureContext.sum (volumesOf direction trades) = (volumesOf direction trades).sum := by
  have hplaces : ∀ volume ∈ volumesOf direction trades, roundPlaces 18 volume = volume := by
    intro volume hvolume
    obtain ⟨item, hitem, rfl⟩ := mem_map.mp hvolume
    exact places_of_column (hcolumn item (mem_of_mem_filter hitem))
  have hnonneg : ∀ volume ∈ volumesOf direction trades, 0 ≤ volume :=
    fun volume hvolume => (volumesOf_pos hvalid direction volume hvolume).le
  refine decimal_sum_exact hnonneg hplaces ?_
  calc (volumesOf direction trades).sum * 10 ^ 18
      ≤ (trades.map MicrostructureTradeInput.volume).sum * 10 ^ 18 :=
        mul_le_mul_of_nonneg_right (sum_volumesOf_le hvalid direction) (by positivity)
    _ < 10 ^ 20 * 10 ^ 18 := mul_lt_mul_of_pos_right htotal (by positivity)
    _ ≤ 10 ^ 50 := by norm_num

/-! ## Points -/

/-- The quality of the trades, from that of the connections and of the candle. -/
def resolvedTradeQuality (evidence : MicrostructureEvidence) : SourceQuality :=
  let candleQuality :=
    (evidence.sourceCandle.map MicrostructureCandleInput.quality).getD .unverified
  match evidence.tradeQuality with
  | some quality => if quality ≠ .available then quality else candleQuality
  | none => candleQuality

/-- The order book that closes the bucket: the last one of the default level, else the last one,
and none when the quality of the order books is not resolved as available. -/
def closingOrderbook (orderbooks : List MicrostructureOrderbookInput)
    (evidence : MicrostructureEvidence) : Option MicrostructureOrderbookInput :=
  let candidate :=
    ((orderbooks.filter fun item => item.level = some 0).getLast?).or orderbooks.getLast?
  if evidence.orderbookQuality.getD (if candidate.isSome then .available else .unverified) =
    .available then candidate else none

/-- The values of ready trades: they agree with the candle to the last digit. -/
structure ReadyTrades (trades : List MicrostructureTradeInput)
    (sourceCandle : Option MicrostructureCandleInput) (point : MicrostructurePoint) : Prop where
  counts : ∃ count buyCount sellCount, point.tradeCount = some count ∧
    point.buyCount = some buyCount ∧ point.sellCount = some sellCount ∧
    buyCount + sellCount = count
  candle : ∃ candle, sourceCandle = some candle ∧
    (trades.map MicrostructureTradeInput.volume).sum = candle.volume ∧
    (trades.map MicrostructureTradeInput.amount).sum = candle.amount
  buyVolume : point.buyVolume = some (volumesOf "BID" trades).sum
  sellVolume : point.sellVolume = some (volumesOf "ASK" trades).sum
  imbalance : ∀ imbalance ∈ point.buySellImbalance, |imbalance| ≤ 1
  strength : point.executionStrength.isSome = true ↔ 0 < (volumesOf "ASK" trades).sum

/-- The times at which the inputs of a bucket were known. -/
def knownTimes (orderbooks : List MicrostructureOrderbookInput)
    (trades : List MicrostructureTradeInput) (evidence : MicrostructureEvidence) : List Instant :=
  orderbooks.map MicrostructureOrderbookInput.knowledgeAt ++
    trades.map MicrostructureTradeInput.knowledgeAt ++
    (evidence.sourceCandle.map MicrostructureCandleInput.knowledgeAt).toList ++
    evidence.connectionQualityKnowledgeAt.toList

/-- A coherent point of these orders and trades. -/
structure CoherentPoint (orderbooks : List MicrostructureOrderbookInput)
    (trades : List MicrostructureTradeInput) (evidence : MicrostructureEvidence)
    (point : MicrostructurePoint) : Prop where
  orderbookReady : point.orderbookStatus = .ready →
    ∃ spread spreadBps bidDepth askDepth imbalance, point.spread = some spread ∧
      point.spreadBps = some spreadBps ∧ point.bidDepth10 = some bidDepth ∧
      point.askDepth10 = some askDepth ∧ point.orderbookImbalance10 = some imbalance ∧
      0 < spread ∧ 0 < spreadBps ∧ 0 ≤ bidDepth ∧ 0 ≤ askDepth ∧
      ¬ (bidDepth = 0 ∧ askDepth = 0) ∧ |imbalance| ≤ 1
  orderbookAbsent : point.orderbookStatus ≠ .ready →
    point.spread = none ∧ point.spreadBps = none ∧ point.bidDepth10 = none ∧
      point.askDepth10 = none ∧ point.orderbookImbalance10 = none
  tradesReady : point.tradeStatus = .ready → ReadyTrades trades evidence.sourceCandle point
  tradesAbsent : point.tradeStatus ≠ .ready →
    point.tradeCount = none ∧ point.tradeIntensityPerMinute = none ∧
      point.volumeIntensityPerMinute = none ∧ point.buyCount = none ∧ point.sellCount = none ∧
      point.buyVolume = none ∧ point.sellVolume = none ∧ point.buySellImbalance = none ∧
      point.executionStrength = none
  known : ∀ time ∈ knownTimes orderbooks trades evidence,
    ∃ knowledgeAt, point.knowledgeAt = some knowledgeAt ∧ time ≤ knowledgeAt

end TradeValues

section Points

variable {sha256 : List ℕ → String} {startedAt endedAt : Instant}
  {orderbooks : List MicrostructureOrderbookInput} {trades : List MicrostructureTradeInput}
  {frontier : MicrostructureFrontier} {evidence : MicrostructureEvidence}
  {point : MicrostructurePoint}
variable {orderbook : OrderbookValues} {trade : TradeValues}

/-- A point shows these values. -/
structure ShowsValues (point : MicrostructurePoint) (orderbook : OrderbookValues)
    (trade : TradeValues) : Prop where
  orderbookStatus : point.orderbookStatus = orderbook.status
  spread : point.spread = orderbook.spread
  spreadBps : point.spreadBps = orderbook.spreadBps
  bidDepth10 : point.bidDepth10 = orderbook.bidDepth
  askDepth10 : point.askDepth10 = orderbook.askDepth
  orderbookImbalance10 : point.orderbookImbalance10 = orderbook.imbalance
  tradeStatus : point.tradeStatus = trade.status
  tradeCount : point.tradeCount = trade.count
  tradeIntensityPerMinute : point.tradeIntensityPerMinute = trade.intensity
  volumeIntensityPerMinute : trade.buyVolume = none → point.volumeIntensityPerMinute = none
  buyCount : point.buyCount = trade.buyCount
  sellCount : point.sellCount = trade.sellCount
  buyVolume : point.buyVolume = trade.buyVolume
  sellVolume : point.sellVolume = trade.sellVolume
  buySellImbalance : point.buySellImbalance = trade.imbalance
  executionStrength : point.executionStrength = trade.strength

/-- A minute within frontiers has a point, which shows the values of the closing order book and
those of the selected trades. -/
theorem exists_point (hbucket : endedAt - startedAt = minute)
    (hfrontier : 0 ≤ frontier.orderbookSnapshotThroughId ∧ 0 ≤ frontier.tradeEventThroughId ∧
      0 ≤ frontier.sourceReceiptThroughId) :
    ∃ point, calculateMicrostructureBucket sha256 startedAt endedAt orderbooks trades
        frontier evidence = .ok point ∧
      ShowsValues point (orderbookValues (closingOrderbook
          (selectedOrderbooks startedAt endedAt frontier orderbooks) evidence))
        (tradeValues (selectedTrades startedAt endedAt frontier trades) evidence.sourceCandle
          (resolvedTradeQuality evidence)) ∧
      point.knowledgeAt = (knownTimes (selectedOrderbooks startedAt endedAt frontier orderbooks)
        (selectedTrades startedAt endedAt frontier trades) evidence).max? := by
  unfold calculateMicrostructureBucket
  rw [if_neg (not_not.mpr hbucket), if_neg (by omega)]
  refine ⟨_, rfl, ?_, rfl⟩
  constructor
  case volumeIntensityPerMinute =>
    intro hnone
    dsimp only
    split
    next buyVolume sellVolume hbuy hsell =>
      have hsome : none = some buyVolume := hnone.symm.trans hbuy
      simp at hsome
    next => rfl
  all_goals rfl

theorem coherent_orderbook (hshows : ShowsValues point orderbook trade)
    (h : OrderbookCoherent orderbook) :
    (point.orderbookStatus = .ready →
      ∃ spread spreadBps bidDepth askDepth imbalance, point.spread = some spread ∧
        point.spreadBps = some spreadBps ∧ point.bidDepth10 = some bidDepth ∧
        point.askDepth10 = some askDepth ∧ point.orderbookImbalance10 = some imbalance ∧
        0 < spread ∧ 0 < spreadBps ∧ 0 ≤ bidDepth ∧ 0 ≤ askDepth ∧
        ¬ (bidDepth = 0 ∧ askDepth = 0) ∧ |imbalance| ≤ 1) ∧
    (point.orderbookStatus ≠ .ready →
      point.spread = none ∧ point.spreadBps = none ∧ point.bidDepth10 = none ∧
        point.askDepth10 = none ∧ point.orderbookImbalance10 = none) := by
  rw [hshows.orderbookStatus, hshows.spread, hshows.spreadBps, hshows.bidDepth10,
    hshows.askDepth10, hshows.orderbookImbalance10]
  refine ⟨fun hready => ?_, h.2⟩
  obtain ⟨⟨spread, hspread, hspread_pos⟩, ⟨spreadBps, hbps, hbps_pos⟩,
    ⟨bidDepth, askDepth, hbid, hask, hbid_nonneg, hask_nonneg, hdepths⟩,
    ⟨imbalance, himbalance, hshare⟩⟩ := h.1 hready
  exact ⟨spread, spreadBps, bidDepth, askDepth, imbalance, hspread, hbps, hbid, hask, himbalance,
    hspread_pos, hbps_pos, hbid_nonneg, hask_nonneg, hdepths, hshare⟩

/-- Whenever valid trades agree with an available candle, adding them up has lost no digit. -/
def KeepsSums (trades : List MicrostructureTradeInput) (evidence : MicrostructureEvidence) :
    Prop :=
  ∀ candle, evidence.sourceCandle = some candle → resolvedTradeQuality evidence = .available →
    Reconciled trades candle → SumsExact trades

theorem AdmittedNumbers.selected (h : AdmittedNumbers trades evidence) :
    AdmittedNumbers (selectedTrades startedAt endedAt frontier trades) evidence where
  volume item hitem := h.volume item (mem_of_mem_filter (mem_sortedBy.mp hitem))
  amount item hitem := h.amount item (mem_of_mem_filter (mem_sortedBy.mp hitem))
  candle := h.candle

/-- Trades that agree with the candle to the last digit are published exactly. -/
theorem readyTrades_of_keepsSums (hadmitted : AdmittedNumbers trades evidence)
    (hkeeps : KeepsSums trades evidence) (hshows : ShowsValues point orderbook trade)
    (hcoherent : TradesCoherent trades evidence.sourceCandle (resolvedTradeQuality evidence) trade)
    (hready : point.tradeStatus = .ready) : ReadyTrades trades evidence.sourceCandle point := by
  have hstatus : trade.status = .ready := hshows.tradeStatus ▸ hready
  have hvalues := hcoherent.ready hstatus
  obtain ⟨candle, hcandle, hcounted⟩ := hcoherent.status.mp hstatus
  -- the volumes of the two sides are exact, and the totals are those of the candle
  have hsums : (∀ direction, microstructureContext.sum (volumesOf direction trades) =
      (volumesOf direction trades).sum) ∧
      (trades.map MicrostructureTradeInput.volume).sum = candle.volume ∧
      (trades.map MicrostructureTradeInput.amount).sum = candle.amount := by
    rcases hcounted with ⟨-, rfl, hvolume, hamount⟩ | ⟨havailable, hreconciled⟩
    · exact ⟨fun _ => rfl, hvolume.symm, hamount.symm⟩
    · obtain ⟨hvolume, hamount⟩ := hkeeps candle hcandle havailable hreconciled
      have htotal := hvolume.symm.trans hreconciled.volume
      refine ⟨volumesOf_sum_exact hreconciled.valid hadmitted.volume ?_, htotal,
        hamount.symm.trans hreconciled.amount⟩
      rw [htotal]
      exact (le_abs_self _).trans_lt (abs_lt_of_column (hadmitted.candle candle hcandle).1)
  obtain ⟨hexact, htotals⟩ := hsums
  constructor
  case counts =>
    rw [hshows.tradeCount, hshows.buyCount, hshows.sellCount]
    exact hvalues.counts
  case candle => exact ⟨candle, hcandle, htotals⟩
  case buyVolume => rw [hshows.buyVolume, hvalues.buyVolume, hexact]
  case sellVolume => rw [hshows.sellVolume, hvalues.sellVolume, hexact]
  case imbalance =>
    rw [hshows.buySellImbalance]
    exact hvalues.imbalance
  case strength => rw [hshows.executionStrength, hvalues.strength, hexact]

/-- A coherent point has lost no digit: its sums are the candle's, exactly and as compared. -/
theorem keepsSums_of_readyTrades (hshows : ShowsValues point orderbook trade)
    (hcoherent : TradesCoherent trades evidence.sourceCandle (resolvedTradeQuality evidence) trade)
    (hready : point.tradeStatus = .ready → ReadyTrades trades evidence.sourceCandle point) :
    KeepsSums trades evidence := by
  intro candle hcandle havailable hreconciled
  have hstatus : point.tradeStatus = .ready := by
    rw [hshows.tradeStatus]
    exact hcoherent.status.mpr ⟨candle, hcandle, Or.inr ⟨havailable, hreconciled⟩⟩
  obtain ⟨other, hother, hvolume, hamount⟩ := (hready hstatus).candle
  obtain rfl := Option.some.inj (hcandle.symm.trans hother)
  exact ⟨hreconciled.volume.trans hvolume.symm, hreconciled.amount.trans hamount.symm⟩

/-- A point is coherent exactly when the sum of its trades keeps. -/
theorem coherentPoint_iff (hadmitted : AdmittedNumbers trades evidence)
    {selected : List MicrostructureOrderbookInput} {closing : Option MicrostructureOrderbookInput}
    (hshows : ShowsValues point (orderbookValues closing)
      (tradeValues trades evidence.sourceCandle (resolvedTradeQuality evidence)))
    (hknown : point.knowledgeAt = (knownTimes selected trades evidence).max?) :
    CoherentPoint selected trades evidence point ↔ KeepsSums trades evidence := by
  have hcoherent := tradeValues_coherent trades evidence.sourceCandle
    (resolvedTradeQuality evidence)
  constructor
  · intro h
    exact keepsSums_of_readyTrades hshows hcoherent h.tradesReady
  · intro hkeeps
    obtain ⟨hbookReady, hbookAbsent⟩ := coherent_orderbook hshows (orderbookValues_coherent closing)
    refine ⟨hbookReady, hbookAbsent,
      readyTrades_of_keepsSums hadmitted hkeeps hshows hcoherent, ?_, ?_⟩
    · intro hnot
      rw [hshows.tradeStatus] at hnot
      obtain ⟨hcount, hintensity, hbuys, hsells, hbuyVolume, hsellVolume, himbalance, hstrength⟩ :=
        hcoherent.blank hnot
      exact ⟨hshows.tradeCount.trans hcount, hshows.tradeIntensityPerMinute.trans hintensity,
        hshows.volumeIntensityPerMinute hbuyVolume, hshows.buyCount.trans hbuys,
        hshows.sellCount.trans hsells, hshows.buyVolume.trans hbuyVolume,
        hshows.sellVolume.trans hsellVolume, hshows.buySellImbalance.trans himbalance,
        hshows.executionStrength.trans hstrength⟩
    · intro time htime
      obtain ⟨latest, hlatest⟩ := Option.isSome_iff_exists.mp
        (isSome_max?_of_mem htime)
      exact ⟨latest, hknown.trans hlatest, le_of_max?_eq_some hlatest htime⟩

/-! ## The order of the inputs -/

/-- Whether an order book counts for the bucket. -/
def countsOrderbook (startedAt endedAt : Instant) (frontier : MicrostructureFrontier)
    (item : MicrostructureOrderbookInput) : Bool :=
  startedAt ≤ item.occurredAt && item.occurredAt < endedAt &&
    item.snapshotId ≤ frontier.orderbookSnapshotThroughId &&
    item.sourceReceiptId ≤ frontier.sourceReceiptThroughId

/-- Whether a trade counts for the bucket. -/
def countsTrade (startedAt endedAt : Instant) (frontier : MicrostructureFrontier)
    (item : MicrostructureTradeInput) : Bool :=
  startedAt ≤ item.occurredAt && item.occurredAt < endedAt &&
    item.tradeEventId ≤ frontier.tradeEventThroughId &&
    item.sourceReceiptId ≤ frontier.sourceReceiptThroughId

/-- Sorting by time and a distinct identifier forgets the order of the list. -/
theorem sortedBy_time_id_eq {α : Type} {occurredAt : α → Instant} {id : α → ℤ} {l m : List α}
    (hperm : m.Perm l) (hdistinct : (l.map id).Nodup) :
    sortedBy (fun item => toLex (occurredAt item, id item)) m =
      sortedBy (fun item => toLex (occurredAt item, id item)) l := by
  have hsame := (sortedBy_perm (fun item => toLex (occurredAt item, id item)) m).trans
    (hperm.trans (sortedBy_perm (fun item => toLex (occurredAt item, id item)) l).symm)
  refine eq_of_pairwise_le hsame (sortedBy_pairwise _ m) (sortedBy_pairwise _ l) ?_
  apply List.Nodup.of_map (fun key => (ofLex key).2)
  rw [map_map]
  exact (nodup_map_sortedBy _).mpr hdistinct

theorem calculateMicrostructureBucket_congr
    {orderbooks' : List MicrostructureOrderbookInput} {trades' : List MicrostructureTradeInput}
    (horderbooks : selectedOrderbooks startedAt endedAt frontier orderbooks' =
      selectedOrderbooks startedAt endedAt frontier orderbooks)
    (htrades : selectedTrades startedAt endedAt frontier trades' =
      selectedTrades startedAt endedAt frontier trades) :
    calculateMicrostructureBucket sha256 startedAt endedAt orderbooks' trades' frontier evidence =
      calculateMicrostructureBucket sha256 startedAt endedAt orderbooks trades frontier
        evidence := by
  unfold calculateMicrostructureBucket
  rw [horderbooks, htrades]

end Points

/-! ## Coherence -/

/-- What is expected of a calculation: no division by zero, a coherent point, and the same result
for the same inputs of the bucket, in whatever order and among whatever others. -/
structure CoherentCalculation (sha256 : List ℕ → String) (startedAt endedAt : Instant)
    (orderbooks : List MicrostructureOrderbookInput) (trades : List MicrostructureTradeInput)
    (frontier : MicrostructureFrontier) (evidence : MicrostructureEvidence) : Prop where
  orderbookDivisions : ∀ snapshot,
    orderbookValuesDividing snapshot = .ok (orderbookValues snapshot)
  tradeDivisions : ∀ selected sourceCandle quality,
    tradeValuesDividing selected sourceCandle quality =
      .ok (tradeValues selected sourceCandle quality)
  coherent : ∃ point, calculateMicrostructureBucket sha256 startedAt endedAt orderbooks trades
      frontier evidence = .ok point ∧
    CoherentPoint (selectedOrderbooks startedAt endedAt frontier orderbooks)
      (selectedTrades startedAt endedAt frontier trades) evidence point
  independent : ∀ orderbooks' trades',
    (orderbooks'.filter (countsOrderbook startedAt endedAt frontier)).Perm
      (orderbooks.filter (countsOrderbook startedAt endedAt frontier)) →
    (trades'.filter (countsTrade startedAt endedAt frontier)).Perm
      (trades.filter (countsTrade startedAt endedAt frontier)) →
    calculateMicrostructureBucket sha256 startedAt endedAt orderbooks' trades' frontier evidence =
      calculateMicrostructureBucket sha256 startedAt endedAt orderbooks trades frontier evidence

section Coherence

variable {startedAt endedAt : Instant} {orderbooks : List MicrostructureOrderbookInput}
  {trades : List MicrostructureTradeInput} {frontier : MicrostructureFrontier}
  {evidence : MicrostructureEvidence}

/-- A coherent calculation has lost no digit of the selected trades. -/
theorem CoherentCalculation.keepsSums {sha256 : List ℕ → String}
    (h : CoherentCalculation sha256 startedAt endedAt orderbooks trades frontier evidence)
    (hbucket : endedAt - startedAt = minute)
    (hfrontier : 0 ≤ frontier.orderbookSnapshotThroughId ∧ 0 ≤ frontier.tradeEventThroughId ∧
      0 ≤ frontier.sourceReceiptThroughId) (hadmitted : AdmittedNumbers trades evidence) :
    KeepsSums (selectedTrades startedAt endedAt frontier trades) evidence := by
  obtain ⟨point, hpoint, hcoherent⟩ := h.coherent
  obtain ⟨shown, hshown, hshows, hknown⟩ := exists_point hbucket hfrontier
  obtain rfl := Except.ok.inj (hpoint.symm.trans hshown)
  exact (coherentPoint_iff hadmitted.selected hshows hknown).mp hcoherent

/-- The calculation of a minute is coherent exactly when adding up its trades in the default
context loses no digit, wherever valid trades are published because their sums in that context
are those of an available candle.
SOURCE: versioned_microstructure.py:107-300, 303-412 -/
theorem coherentCalculation_iff (sha256 : List ℕ → String) (hbucket : endedAt - startedAt = minute)
    (hfrontier : 0 ≤ frontier.orderbookSnapshotThroughId ∧ 0 ≤ frontier.tradeEventThroughId ∧
      0 ≤ frontier.sourceReceiptThroughId)
    (horderbooks : (orderbooks.map MicrostructureOrderbookInput.snapshotId).Nodup)
    (htrades : (trades.map MicrostructureTradeInput.tradeEventId).Nodup)
    (hadmitted : AdmittedNumbers trades evidence) :
    CoherentCalculation sha256 startedAt endedAt orderbooks trades frontier evidence ↔
      KeepsSums (selectedTrades startedAt endedAt frontier trades) evidence := by
  constructor
  · intro h
    exact h.keepsSums hbucket hfrontier hadmitted
  · intro hkeeps
    refine ⟨orderbookValuesDividing_eq, tradeValuesDividing_eq, ?_, ?_⟩
    · obtain ⟨point, hpoint, hshows, hknown⟩ := exists_point hbucket hfrontier
      exact ⟨point, hpoint, (coherentPoint_iff hadmitted.selected hshows hknown).mpr hkeeps⟩
    · intro orderbooks' trades' hbooks hothers
      exact calculateMicrostructureBucket_congr
        (sortedBy_time_id_eq hbooks (horderbooks.sublist (filter_sublist.map _)))
        (sortedBy_time_id_eq hothers (htrades.sublist (filter_sublist.map _)))

end Coherence

/-! ## Two trades -/

/-- A trade of the first minute of 1970. -/
def minuteTrade (id : ℤ) (direction : String) (volume : ℚ) : MicrostructureTradeInput where
  tradeEventId := id
  occurredAt := 0
  knowledgeAt := 0
  direction := direction
  volume := volume
  amount := 1
  sourceReceiptId := id

/-- An available candle of that minute. -/
def minuteEvidence (volume : ℚ) : MicrostructureEvidence where
  sourceCandle := some {
    sourceCandleRevisionId := some 1
    startedAt := 0
    knowledgeAt := minute
    sourceAsOf := minute
    quality := .available
    volume := volume
    amount := 2
    qualityEventThroughId := none }

/-- Small trades are added up exactly. -/
theorem coherentCalculation_two_trades :
    CoherentCalculation (fun _ => "") 0 minute [] [minuteTrade 1 "BID" 3, minuteTrade 2 "ASK" 1]
      ⟨0, 2, 2⟩ (minuteEvidence 4) := by
  have hfrontier : (0 : ℤ) ≤ 0 ∧ (0 : ℤ) ≤ 2 ∧ (0 : ℤ) ≤ 2 := by norm_num
  have hadmitted : AdmittedNumbers [minuteTrade 1 "BID" 3, minuteTrade 2 "ASK" 1]
      (minuteEvidence 4) := by
    refine ⟨by decide +kernel, by decide +kernel, ?_⟩
    intro candle hcandle
    obtain rfl := Option.some.inj hcandle
    exact ⟨by decide +kernel, by decide +kernel⟩
  have hselected : selectedTrades 0 minute ⟨0, 2, 2⟩
      [minuteTrade 1 "BID" 3, minuteTrade 2 "ASK" 1] =
      [minuteTrade 1 "BID" 3, minuteTrade 2 "ASK" 1] := by
    decide +kernel
  refine (coherentCalculation_iff (fun _ => "") (sub_zero minute) hfrontier (by simp)
    (by decide) hadmitted).mpr ?_
  rw [hselected]
  intro candle _ _ _
  exact ⟨by decide +kernel, by decide +kernel⟩

/-- A large trade, and the smallest one of the column. -/
def unevenTrades : List MicrostructureTradeInput :=
  [minuteTrade 1 "BID" (10 ^ 19), minuteTrade 2 "ASK" (1 / 10 ^ 18)]

theorem unevenTrades_admitted : AdmittedNumbers unevenTrades (minuteEvidence (10 ^ 19)) where
  volume := by decide +kernel
  amount := by decide +kernel
  candle := by
    intro candle hcandle
    obtain rfl := Option.some.inj hcandle
    exact ⟨by decide +kernel, by decide +kernel⟩

theorem unevenTrades_reconciled : ∃ candle, (minuteEvidence (10 ^ 19)).sourceCandle = some candle ∧
      Reconciled unevenTrades candle := by
  refine ⟨_, rfl, ?_⟩
  constructor
  case nonempty => simp [unevenTrades]
  case valid =>
    intro item hitem
    simp only [unevenTrades, mem_cons, not_mem_nil, or_false] at hitem
    rcases hitem with rfl | rfl <;> norm_num [ValidTrade, minuteTrade]
  case volume => decide +kernel
  case amount => decide +kernel

/-- The small trade vanishes in the sum of 28 digits: the trades are published as those of a candle
that has only the large one. -/
theorem calculateMicrostructureBucket_loses_trade :
    ¬ ∀ (sha256 : List ℕ → String) (startedAt endedAt : Instant)
      (orderbooks : List MicrostructureOrderbookInput) (trades : List MicrostructureTradeInput)
      (frontier : MicrostructureFrontier) (evidence : MicrostructureEvidence),
      endedAt - startedAt = minute →
      (0 ≤ frontier.orderbookSnapshotThroughId ∧ 0 ≤ frontier.tradeEventThroughId ∧
        0 ≤ frontier.sourceReceiptThroughId) →
      (orderbooks.map MicrostructureOrderbookInput.snapshotId).Nodup →
      (trades.map MicrostructureTradeInput.tradeEventId).Nodup →
      AdmittedNumbers trades evidence →
      CoherentCalculation sha256 startedAt endedAt orderbooks trades frontier evidence := by
  intro h
  have hfrontier : (0 : ℤ) ≤ 0 ∧ (0 : ℤ) ≤ 2 ∧ (0 : ℤ) ≤ 2 := by norm_num
  have hcoherent := h (fun _ => "") 0 minute [] unevenTrades ⟨0, 2, 2⟩ (minuteEvidence (10 ^ 19))
    (sub_zero minute) hfrontier (by simp) (by decide) unevenTrades_admitted
  have hselected : selectedTrades 0 minute ⟨0, 2, 2⟩ unevenTrades = unevenTrades := by
    decide +kernel
  have hkeeps := hcoherent.keepsSums (sub_zero minute) hfrontier unevenTrades_admitted
  rw [hselected] at hkeeps
  obtain ⟨candle, hcandle, hreconciled⟩ := unevenTrades_reconciled
  have hexact := (hkeeps candle hcandle rfl hreconciled).1.symm.trans hreconciled.volume
  obtain rfl := Option.some.inj hcandle
  norm_num [unevenTrades, minuteTrade] at hexact

end Goodmoneying.Analysis
