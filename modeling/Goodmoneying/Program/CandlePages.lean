import Goodmoneying.Library.Grouping
import Goodmoneying.Program.Datetimes

/-!
# Candle pages

`fetch_minute_candle_pages` of `upbit_client.py`: minute candles are fetched page by page, each
request for those before the oldest candle of the last answer, until the beginning of the range is
reached. Times are UTC. What the exchange answers is a parameter; a request that fails ends the
loop and is left out, as are the times of the evidence.
-/

namespace Goodmoneying.Program.CandlePages

open Library

/-- A candle of the exchange: its start, and the texts of its numbers. -/
structure UpbitCandle where
  candleDateTimeUtc : Instant
  openingPrice : String
  highPrice : String
  lowPrice : String
  tradePrice : String
  candleAccTradeVolume : String
  candleAccTradePrice : String
  deriving DecidableEq, Repr

/-- A row of a page; its `candle_unit` is `"1m"`. -/
structure CandleRow where
  market : String
  candleStartAt : Instant
  openPrice : String
  highPrice : String
  lowPrice : String
  closePrice : String
  tradeVolume : String
  tradeAmount : String
  deriving DecidableEq, Repr

/-- `_upbit_candle_to_row`. -/
def upbitCandleToRow (market : String) (item : UpbitCandle) : CandleRow where
  market := market
  candleStartAt := item.candleDateTimeUtc
  openPrice := item.openingPrice
  highPrice := item.highPrice
  lowPrice := item.lowPrice
  closePrice := item.tradePrice
  tradeVolume := item.candleAccTradeVolume
  tradeAmount := item.candleAccTradePrice

/-- The parameters of a request. -/
structure CandleRequest where
  market : String
  to_ : Instant
  count : ℕ
  deriving DecidableEq, Repr

/-- `FetchedCandlePage`, with its request, the requested range and the answer as its evidence. -/
structure FetchedCandlePage where
  rows : List CandleRow
  request : CandleRequest
  requestedRangeStartAt : Instant
  requestedRangeEndAt : Instant
  responsePayload : List UpbitCandle
  deriving DecidableEq, Repr

/-- `page_rows_by_started_at`. -/
def pageRowsByStartedAt (market : String) (startAt endAt : Instant) (payload : List UpbitCandle) :
    List (Instant × CandleRow) :=
  payload.foldl (fun entries item =>
    if startAt ≤ item.candleDateTimeUtc ∧ item.candleDateTimeUtc < endAt then
      setItem item.candleDateTimeUtc (upbitCandleToRow market item) entries
    else entries) []

/-- The rows of a page, in the order of their starts. -/
def pageRows (market : String) (startAt endAt : Instant) (payload : List UpbitCandle) :
    List CandleRow :=
  (sortedBy Prod.fst (pageRowsByStartedAt market startAt endAt payload)).map Prod.snd

/-- `min(page_times)`. -/
def oldestTime (first : UpbitCandle) (rest : List UpbitCandle) : Instant :=
  rest.foldl (fun oldest item => min oldest item.candleDateTimeUtc) first.candleDateTimeUtc

section Loop

variable (exchange : ℕ → CandleRequest → List UpbitCandle) (market : String)
  (startAt endAt : Instant)

/-- The loop of `fetch_minute_candle_pages`, from the `n`-th request on; `exchange` answers it. -/
def fetchPagesFrom (n : ℕ) (cursor : Instant) : List FetchedCandlePage :=
  if startAt < cursor then
    let request : CandleRequest := ⟨market, cursor, 200⟩
    let payload := exchange n request
    let page : FetchedCandlePage :=
      ⟨pageRows market startAt endAt payload, request, startAt, cursor, payload⟩
    match payload with
    | [] => [page]
    | first :: rest =>
      if oldestTime first rest ≤ startAt then [page]
      else if cursor ≤ oldestTime first rest then [page]
      else page :: fetchPagesFrom (n + 1) (oldestTime first rest)
  else []
termination_by (cursor - startAt).toNat
decreasing_by
  simp only [Instant] at *
  omega

/-- `fetch_minute_candle_pages`. -/
def fetchMinuteCandlePages : Except PythonError (List FetchedCandlePage) :=
  if endAt ≤ startAt then .error (.valueError "캔들 조회 종료 시각은 시작 시각보다 뒤여야 한다.")
  else .ok (fetchPagesFrom exchange market startAt endAt 0 endAt)

/-- The rows of all pages: `fetch_minute_candles`. -/
def fetchMinuteCandles : Except PythonError (List CandleRow) :=
  (fetchMinuteCandlePages exchange market startAt endAt).map fun pages =>
    (sortedBy Prod.fst (setItems [] ((pages.flatMap FetchedCandlePage.rows).map fun row =>
      (row.candleStartAt, row)))).map Prod.snd

end Loop

end Goodmoneying.Program.CandlePages
