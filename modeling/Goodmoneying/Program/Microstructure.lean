import Goodmoneying.Program.BacktestRuns
import Goodmoneying.Program.RealtimeSessions

/-!
# Microstructure of a minute

`versioned_microstructure.py`: the statistics of the order book and of the trades of one minute,
in a decimal context of 50 digits, with the hashes of their inputs and of their content. What
stands outside of the context (the sums that are compared with the candle, the volume of both
sides, the canonical texts) is computed in the default one.
-/

namespace Goodmoneying.Program

open Library

/-- `MicrostructureStatus`. -/
inductive MicrostructureStatus where
  | ready | missing | partial_ | invalid | undefined
  deriving DecidableEq, Repr

def MicrostructureStatus.text : MicrostructureStatus → String
  | ready => "ready"
  | missing => "missing"
  | partial_ => "partial"
  | invalid => "invalid"
  | undefined => "undefined"

/-! ## Inputs -/

structure MicrostructureOrderbookLevel where
  levelIndex : ℤ
  askPrice : ℚ
  askSize : ℚ
  bidPrice : ℚ
  bidSize : ℚ
  deriving DecidableEq

structure MicrostructureOrderbookInput where
  snapshotId : ℤ
  occurredAt : Instant
  knowledgeAt : Instant
  level : Option ℚ
  levels : List MicrostructureOrderbookLevel
  sourceReceiptId : ℤ
  deriving DecidableEq

structure MicrostructureTradeInput where
  tradeEventId : ℤ
  occurredAt : Instant
  knowledgeAt : Instant
  direction : String
  volume : ℚ
  amount : ℚ
  sourceReceiptId : ℤ
  deriving DecidableEq

structure MicrostructureCandleInput where
  sourceCandleRevisionId : Option ℤ
  startedAt : Instant
  knowledgeAt : Instant
  sourceAsOf : Instant
  quality : SourceQuality
  volume : ℚ
  amount : ℚ
  qualityEventThroughId : Option ℤ
  deriving DecidableEq

/-- `MicrostructureCandleInput(...)` with its `__post_init__`. -/
def MicrostructureCandleInput.create (candle : MicrostructureCandleInput) :
    Except String MicrostructureCandleInput :=
  if candle.quality = .available ∧ candle.sourceCandleRevisionId = none then
    .error "available 품질에는 source candle revision이 필요하다."
  else if candle.quality = .noTrade ∧
      (candle.sourceCandleRevisionId ≠ none ∨ candle.qualityEventThroughId = none) then
    .error "no_trade 품질은 candle revision 없이 quality event로만 증명해야 한다."
  else if candle.volume < 0 ∨ candle.amount < 0 then
    .error "캔들 거래량과 거래대금은 0 이상이어야 한다."
  else .ok candle

/-! ## Results -/

structure MicrostructurePoint where
  startedAt : Instant
  calculationVersion : String
  closingOrderbookSnapshotId : Option ℤ
  closingOrderbookSourceReceiptId : Option ℤ
  spread : Option ℚ
  spreadBps : Option ℚ
  bidDepth10 : Option ℚ
  askDepth10 : Option ℚ
  orderbookImbalance10 : Option ℚ
  tradeCount : Option ℤ
  tradeIntensityPerMinute : Option ℚ
  volumeIntensityPerMinute : Option ℚ
  buyCount : Option ℤ
  sellCount : Option ℤ
  buyVolume : Option ℚ
  sellVolume : Option ℚ
  buySellImbalance : Option ℚ
  executionStrength : Option ℚ
  orderbookStatus : MicrostructureStatus
  orderbookQuality : SourceQuality
  tradeStatus : MicrostructureStatus
  tradeQuality : SourceQuality
  executionStrengthStatus : MicrostructureStatus
  orderbookSnapshotThroughId : ℤ
  tradeEventThroughId : ℤ
  sourceReceiptThroughId : ℤ
  sourceCandleRevisionId : Option ℤ
  qualityEventThroughId : Option ℤ
  connectionQualityThroughId : ℤ
  sourceAsOf : Option Instant
  knowledgeAt : Option Instant
  inputLineageHash : String
  contentHash : String
  deriving DecidableEq

/-- `CALCULATION_VERSION`. -/
def microstructureCalculationVersion : String := "microstructure-v1"

/-- The context of 50 digits. -/
abbrev microstructureContext : Arithmetic := .decimal 50

/-- What `_orderbook_values` returns. -/
structure OrderbookValues where
  spread : Option ℚ := none
  spreadBps : Option ℚ := none
  bidDepth : Option ℚ := none
  askDepth : Option ℚ := none
  imbalance : Option ℚ := none
  status : MicrostructureStatus

/-- `_orderbook_values`. -/
def orderbookValues (snapshot : Option MicrostructureOrderbookInput) : OrderbookValues :=
  let ar := microstructureContext
  match snapshot with
  | none => { status := .missing }
  | some snapshot =>
    let ordered := sortedBy MicrostructureOrderbookLevel.levelIndex snapshot.levels
    if snapshot.level ≠ some 0 ∨ ordered.length < 10 then { status := .partial_ }
    else
      let firstTen := ordered.take 10
      if firstTen.map MicrostructureOrderbookLevel.levelIndex ≠ (List.range 10).map Int.ofNat ∨
          firstTen.any fun item =>
            item.askPrice ≤ 0 || item.bidPrice ≤ 0 || item.askSize < 0 || item.bidSize < 0 then
        { status := .invalid }
      else
        match firstTen with
        | [] => { status := .invalid }
        | best :: _ =>
          if best.askPrice ≤ best.bidPrice then { status := .invalid }
          else
            let spread := ar.sub best.askPrice best.bidPrice
            let midpoint := ar.div (ar.add best.askPrice best.bidPrice) 2
            if midpoint ≤ 0 then { status := .invalid }
            else
              let bidDepth := ar.sum (firstTen.map MicrostructureOrderbookLevel.bidSize)
              let askDepth := ar.sum (firstTen.map MicrostructureOrderbookLevel.askSize)
              let denominator := ar.add bidDepth askDepth
              if denominator = 0 then { status := .undefined }
              else {
                spread := spread
                spreadBps := ar.mul (ar.div spread midpoint) 10000
                bidDepth := bidDepth
                askDepth := askDepth
                imbalance := ar.div (ar.sub bidDepth askDepth) denominator
                status := .ready }

/-- What `_trade_values` returns. -/
structure TradeValues where
  count : Option ℤ := none
  intensity : Option ℚ := none
  buyCount : Option ℤ := none
  sellCount : Option ℤ := none
  buyVolume : Option ℚ := none
  sellVolume : Option ℚ := none
  imbalance : Option ℚ := none
  strength : Option ℚ := none
  status : MicrostructureStatus
  strengthStatus : MicrostructureStatus

/-- `_trade_values`. -/
def tradeValues (trades : List MicrostructureTradeInput)
    (sourceCandle : Option MicrostructureCandleInput) (resolvedQuality : SourceQuality) :
    TradeValues :=
  let ar := microstructureContext
  match sourceCandle with
  | none => { status := .missing, strengthStatus := .missing }
  | some candle =>
    if resolvedQuality = .noTrade then
      if trades ≠ [] ∨ candle.volume ≠ 0 ∨ candle.amount ≠ 0 then
        { status := .missing, strengthStatus := .missing }
      else {
        count := some 0
        intensity := some 0
        buyCount := some 0
        sellCount := some 0
        buyVolume := some 0
        sellVolume := some 0
        status := .ready
        strengthStatus := .undefined }
    else if resolvedQuality ≠ .available ∨ trades = [] then
      { status := .missing, strengthStatus := .missing }
    else if trades.any fun item =>
        (item.direction ≠ "BID" && item.direction ≠ "ASK") || item.volume ≤ 0 ||
          item.amount ≤ 0 then
      { status := .invalid, strengthStatus := .invalid }
    else if Arithmetic.default.sum (trades.map MicrostructureTradeInput.volume) ≠ candle.volume ∨
        Arithmetic.default.sum (trades.map MicrostructureTradeInput.amount) ≠ candle.amount then
      { status := .missing, strengthStatus := .missing }
    else
      let buys := trades.filter fun item => item.direction = "BID"
      let sells := trades.filter fun item => item.direction = "ASK"
      let buyVolume := ar.sum (buys.map MicrostructureTradeInput.volume)
      let sellVolume := ar.sum (sells.map MicrostructureTradeInput.volume)
      let totalVolume := ar.add buyVolume sellVolume
      let imbalance :=
        if 0 < totalVolume then some (ar.div (ar.sub buyVolume sellVolume) totalVolume) else none
      let strength :=
        if 0 < sellVolume then some (ar.mul (ar.div buyVolume sellVolume) 100) else none
      { count := some trades.length
        intensity := some trades.length
        buyCount := some buys.length
        sellCount := some sells.length
        buyVolume := buyVolume
        sellVolume := sellVolume
        imbalance := imbalance
        strength := strength
        status := .ready
        strengthStatus := if strength.isSome then .ready else .undefined }

/-! ## Hashes -/

/-- `_canonical`. -/
def microstructureCanonical : Option ℚ → JsonValue
  | none => .null
  | some value => if value = 0 then .text "0" else canonicalDecimal .default value

def jsonOfInt : Option ℤ → JsonValue
  | none => .null
  | some value => .int value

/-- `started_at.isoformat()` of a datetime read in UTC. -/
def utcIsoformat (value : Instant) : JsonValue :=
  if h : 0 ≤ value ∧ value.toNat < maxOrdinal * dayMicroseconds then
    .text (UtcTime.datetime ⟨value.toNat, UtcTime.toNat_in_calendar h⟩).isoformat
  else .null

/-- The identifiers up to which the sources were read. -/
structure MicrostructureFrontier where
  orderbookSnapshotThroughId : ℤ
  tradeEventThroughId : ℤ
  sourceReceiptThroughId : ℤ
  deriving DecidableEq, Repr

/-- `lineage_payload`. -/
def lineagePayload (orderbooks : List MicrostructureOrderbookInput)
    (trades : List MicrostructureTradeInput) (sourceCandle : Option MicrostructureCandleInput)
    (connectionQualityThroughId : ℤ) (frontier : MicrostructureFrontier) : JsonValue :=
  .mapping [
    ("orderbookSnapshotIds", .list (orderbooks.map fun item => .int item.snapshotId)),
    ("tradeEventIds", .list (trades.map fun item => .int item.tradeEventId)),
    ("sourceReceiptIds", .list ((sortedBy id
      (orderbooks.map MicrostructureOrderbookInput.sourceReceiptId ++
        trades.map MicrostructureTradeInput.sourceReceiptId)).map JsonValue.int)),
    ("sourceCandleRevisionId",
      jsonOfInt (sourceCandle.bind MicrostructureCandleInput.sourceCandleRevisionId)),
    ("qualityEventThroughId",
      jsonOfInt (sourceCandle.bind MicrostructureCandleInput.qualityEventThroughId)),
    ("connectionQualityThroughId", .int connectionQualityThroughId),
    ("frontiers", .mapping [
      ("orderbookSnapshotThroughId", .int frontier.orderbookSnapshotThroughId),
      ("tradeEventThroughId", .int frontier.tradeEventThroughId),
      ("sourceReceiptThroughId", .int frontier.sourceReceiptThroughId)])]

/-- The payload of `content_hash`. -/
def contentPayload (startedAt : Instant) (closingOrderbookSnapshotId : Option ℤ)
    (orderbook : OrderbookValues) (trade : TradeValues) (volumeIntensity : Option ℚ)
    (orderbookQuality tradeQuality : SourceQuality) (inputLineageHash : String) : JsonValue :=
  .mapping [
    ("startedAt", utcIsoformat startedAt),
    ("calculationVersion", .text microstructureCalculationVersion),
    ("closingOrderbookSnapshotId", jsonOfInt closingOrderbookSnapshotId),
    ("values", .mapping [
      ("spread", microstructureCanonical orderbook.spread),
      ("spreadBps", microstructureCanonical orderbook.spreadBps),
      ("bidDepth10", microstructureCanonical orderbook.bidDepth),
      ("askDepth10", microstructureCanonical orderbook.askDepth),
      ("orderbookImbalance10", microstructureCanonical orderbook.imbalance),
      ("tradeCount", jsonOfInt trade.count),
      ("tradeIntensityPerMinute", microstructureCanonical trade.intensity),
      ("volumeIntensityPerMinute", microstructureCanonical volumeIntensity),
      ("buyCount", jsonOfInt trade.buyCount),
      ("sellCount", jsonOfInt trade.sellCount),
      ("buyVolume", microstructureCanonical trade.buyVolume),
      ("sellVolume", microstructureCanonical trade.sellVolume),
      ("buySellImbalance", microstructureCanonical trade.imbalance),
      ("executionStrength", microstructureCanonical trade.strength)]),
    ("statuses", .list [.text orderbook.status.text, .text trade.status.text,
      .text trade.strengthStatus.text]),
    ("qualities", .list [.text orderbookQuality.text, .text tradeQuality.text]),
    ("inputLineageHash", .text inputLineageHash)]

/-! ## The statistics of a bucket -/

/-- The order books of the bucket within the frontier, in order. -/
def selectedOrderbooks (startedAt endedAt : Instant) (frontier : MicrostructureFrontier)
    (orderbooks : List MicrostructureOrderbookInput) : List MicrostructureOrderbookInput :=
  sortedBy (fun item => toLex (item.occurredAt, item.snapshotId)) (orderbooks.filter fun item =>
    startedAt ≤ item.occurredAt && item.occurredAt < endedAt &&
    item.snapshotId ≤ frontier.orderbookSnapshotThroughId &&
    item.sourceReceiptId ≤ frontier.sourceReceiptThroughId)

/-- The trades of the bucket within the frontier, in order. -/
def selectedTrades (startedAt endedAt : Instant) (frontier : MicrostructureFrontier)
    (trades : List MicrostructureTradeInput) : List MicrostructureTradeInput :=
  sortedBy (fun item => toLex (item.occurredAt, item.tradeEventId)) (trades.filter fun item =>
    startedAt ≤ item.occurredAt && item.occurredAt < endedAt &&
    item.tradeEventId ≤ frontier.tradeEventThroughId &&
    item.sourceReceiptId ≤ frontier.sourceReceiptThroughId)

/-- The evidence of a bucket besides its orders and trades: the candle, and the quality of the
connections. -/
structure MicrostructureEvidence where
  sourceCandle : Option MicrostructureCandleInput := none
  orderbookQuality : Option SourceQuality := none
  tradeQuality : Option SourceQuality := none
  connectionQualityThroughId : ℤ := 0
  connectionQualitySourceAsOf : Option Instant := none
  connectionQualityKnowledgeAt : Option Instant := none
  deriving DecidableEq

/-- `calculate_microstructure_bucket`. -/
def calculateMicrostructureBucket (sha256 : List ℕ → String) (startedAt endedAt : Instant)
    (orderbooks : List MicrostructureOrderbookInput) (trades : List MicrostructureTradeInput)
    (frontier : MicrostructureFrontier) (evidence : MicrostructureEvidence) :
    Except String MicrostructurePoint :=
  if endedAt - startedAt ≠ minute then .error "지원하지 않는 미시구조 버킷 길이다."
  else if frontier.orderbookSnapshotThroughId < 0 ∨ frontier.tradeEventThroughId < 0 ∨
      frontier.sourceReceiptThroughId < 0 then
    .error "미시구조 원천 프런티어는 0 이상이어야 한다."
  else
    let orderbooks := selectedOrderbooks startedAt endedAt frontier orderbooks
    let trades := selectedTrades startedAt endedAt frontier trades
    let candidate :=
      ((orderbooks.filter fun item => item.level = some 0).getLast?).or orderbooks.getLast?
    let orderbookQuality :=
      evidence.orderbookQuality.getD (if candidate.isSome then .available else .unverified)
    let closing := if orderbookQuality = .available then candidate else none
    let candleQuality :=
      (evidence.sourceCandle.map MicrostructureCandleInput.quality).getD .unverified
    let tradeQuality :=
      match evidence.tradeQuality with
      | some quality => if quality ≠ .available then quality else candleQuality
      | none => candleQuality
    let orderbook := orderbookValues closing
    let trade := tradeValues trades evidence.sourceCandle tradeQuality
    let volumeIntensity :=
      match trade.buyVolume, trade.sellVolume with
      | some buyVolume, some sellVolume => some (Arithmetic.default.add buyVolume sellVolume)
      | _, _ => none
    let sourceAsOf := orderbooks.map MicrostructureOrderbookInput.occurredAt ++
      trades.map MicrostructureTradeInput.occurredAt ++
      (evidence.sourceCandle.map MicrostructureCandleInput.sourceAsOf).toList ++
      evidence.connectionQualitySourceAsOf.toList
    let knowledge := orderbooks.map MicrostructureOrderbookInput.knowledgeAt ++
      trades.map MicrostructureTradeInput.knowledgeAt ++
      (evidence.sourceCandle.map MicrostructureCandleInput.knowledgeAt).toList ++
      evidence.connectionQualityKnowledgeAt.toList
    let inputLineageHash := canonicalPayloadHash sha256 (lineagePayload orderbooks trades
      evidence.sourceCandle evidence.connectionQualityThroughId frontier)
    let contentHash := canonicalPayloadHash sha256 (contentPayload startedAt
      (closing.map MicrostructureOrderbookInput.snapshotId) orderbook trade volumeIntensity
      orderbookQuality tradeQuality inputLineageHash)
    .ok {
      startedAt := startedAt
      calculationVersion := microstructureCalculationVersion
      closingOrderbookSnapshotId := closing.map MicrostructureOrderbookInput.snapshotId
      closingOrderbookSourceReceiptId := closing.map MicrostructureOrderbookInput.sourceReceiptId
      spread := orderbook.spread
      spreadBps := orderbook.spreadBps
      bidDepth10 := orderbook.bidDepth
      askDepth10 := orderbook.askDepth
      orderbookImbalance10 := orderbook.imbalance
      tradeCount := trade.count
      tradeIntensityPerMinute := trade.intensity
      volumeIntensityPerMinute := volumeIntensity
      buyCount := trade.buyCount
      sellCount := trade.sellCount
      buyVolume := trade.buyVolume
      sellVolume := trade.sellVolume
      buySellImbalance := trade.imbalance
      executionStrength := trade.strength
      orderbookStatus := orderbook.status
      orderbookQuality := orderbookQuality
      tradeStatus := trade.status
      tradeQuality := tradeQuality
      executionStrengthStatus := trade.strengthStatus
      orderbookSnapshotThroughId := frontier.orderbookSnapshotThroughId
      tradeEventThroughId := frontier.tradeEventThroughId
      sourceReceiptThroughId := frontier.sourceReceiptThroughId
      sourceCandleRevisionId :=
        evidence.sourceCandle.bind MicrostructureCandleInput.sourceCandleRevisionId
      qualityEventThroughId :=
        evidence.sourceCandle.bind MicrostructureCandleInput.qualityEventThroughId
      connectionQualityThroughId := evidence.connectionQualityThroughId
      sourceAsOf := sourceAsOf.max?
      knowledgeAt := knowledge.max?
      inputLineageHash := inputLineageHash
      contentHash := contentHash }

end Goodmoneying.Program
