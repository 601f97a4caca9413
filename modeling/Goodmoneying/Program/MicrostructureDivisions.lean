import Goodmoneying.Program.Microstructure

/-!
# The divisions of the microstructure

`_orderbook_values` and `_trade_values` of `versioned_microstructure.py` once more, this time
with divisions that raise on a zero divisor. `orderbookValues` and `tradeValues` divide without
that check.
-/

namespace Goodmoneying.Program

open Library

/-- `x / y`. -/
def microstructureDivide (x y : ℚ) : Except PythonError ℚ :=
  if y = 0 then .error .divisionByZero else .ok (microstructureContext.div x y)

/-- `_orderbook_values`. -/
def orderbookValuesDividing (snapshot : Option MicrostructureOrderbookInput) :
    Except PythonError OrderbookValues :=
  let ar := microstructureContext
  match snapshot with
  | none => pure { status := .missing }
  | some snapshot =>
    let ordered := sortedBy MicrostructureOrderbookLevel.levelIndex snapshot.levels
    if snapshot.level ≠ some 0 ∨ ordered.length < 10 then pure { status := .partial_ }
    else
      let firstTen := ordered.take 10
      if firstTen.map MicrostructureOrderbookLevel.levelIndex ≠ (List.range 10).map Int.ofNat ∨
          firstTen.any fun item =>
            item.askPrice ≤ 0 || item.bidPrice ≤ 0 || item.askSize < 0 || item.bidSize < 0 then
        pure { status := .invalid }
      else
        match firstTen with
        | [] => pure { status := .invalid }
        | best :: _ =>
          if best.askPrice ≤ best.bidPrice then pure { status := .invalid }
          else do
            let spread := ar.sub best.askPrice best.bidPrice
            let midpoint ← microstructureDivide (ar.add best.askPrice best.bidPrice) 2
            if midpoint ≤ 0 then pure { status := .invalid }
            else
              let bidDepth := ar.sum (firstTen.map MicrostructureOrderbookLevel.bidSize)
              let askDepth := ar.sum (firstTen.map MicrostructureOrderbookLevel.askSize)
              let denominator := ar.add bidDepth askDepth
              if denominator = 0 then pure { status := .undefined }
              else
                let share ← microstructureDivide spread midpoint
                let imbalance ← microstructureDivide (ar.sub bidDepth askDepth) denominator
                pure {
                  spread := spread
                  spreadBps := ar.mul share 10000
                  bidDepth := bidDepth
                  askDepth := askDepth
                  imbalance := imbalance
                  status := .ready }

/-- `_trade_values`. -/
def tradeValuesDividing (trades : List MicrostructureTradeInput)
    (sourceCandle : Option MicrostructureCandleInput) (resolvedQuality : SourceQuality) :
    Except PythonError TradeValues :=
  let ar := microstructureContext
  match sourceCandle with
  | none => pure { status := .missing, strengthStatus := .missing }
  | some candle =>
    if resolvedQuality = .noTrade then
      if trades ≠ [] ∨ candle.volume ≠ 0 ∨ candle.amount ≠ 0 then
        pure { status := .missing, strengthStatus := .missing }
      else pure {
        count := some 0
        intensity := some 0
        buyCount := some 0
        sellCount := some 0
        buyVolume := some 0
        sellVolume := some 0
        status := .ready
        strengthStatus := .undefined }
    else if resolvedQuality ≠ .available ∨ trades = [] then
      pure { status := .missing, strengthStatus := .missing }
    else if trades.any fun item =>
        (item.direction ≠ "BID" && item.direction ≠ "ASK") || item.volume ≤ 0 ||
          item.amount ≤ 0 then
      pure { status := .invalid, strengthStatus := .invalid }
    else if Arithmetic.default.sum (trades.map MicrostructureTradeInput.volume) ≠ candle.volume ∨
        Arithmetic.default.sum (trades.map MicrostructureTradeInput.amount) ≠ candle.amount then
      pure { status := .missing, strengthStatus := .missing }
    else do
      let buys := trades.filter fun item => item.direction = "BID"
      let sells := trades.filter fun item => item.direction = "ASK"
      let buyVolume := ar.sum (buys.map MicrostructureTradeInput.volume)
      let sellVolume := ar.sum (sells.map MicrostructureTradeInput.volume)
      let totalVolume := ar.add buyVolume sellVolume
      let imbalance ←
        (if 0 < totalVolume then
          some <$> microstructureDivide (ar.sub buyVolume sellVolume) totalVolume
        else pure none)
      let strength ←
        (if 0 < sellVolume then do
          let ratio ← microstructureDivide buyVolume sellVolume
          pure (some (ar.mul ratio 100))
        else pure none)
      pure {
        count := some trades.length
        intensity := some trades.length
        buyCount := some buys.length
        sellCount := some sells.length
        buyVolume := buyVolume
        sellVolume := sellVolume
        imbalance := imbalance
        strength := strength
        status := .ready
        strengthStatus := if strength.isSome then .ready else .undefined }

end Goodmoneying.Program
