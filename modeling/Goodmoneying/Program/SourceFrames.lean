import Goodmoneying.Library.SourcedTable
import Goodmoneying.Program.BackfillJobs
import Goodmoneying.Program.RealtimeSessions

/-!
# Source frames and the rows taken from them

`record_realtime_source_frames`, `record_incremental_collection` and `record_backfill_candles` of
`postgres_repository.py`, on `source_receipts`, `ticker_snapshots` and `source_candles` with their
columns `source_receipt_id`. A batch of frames gets its receipts first; then the newest ticker of a
minute and the newest candle of a start are written, and last the receipts of their rows are set.
The other two write rows without receipts.

A receipt stands with its frame, and a raw payload as the text of its object with sorted keys.
All rows are of one source. The change rates of a ticker, which nothing compares, and the trades
and books of a frame are left out.
-/

namespace Goodmoneying.Program.SourceFrames

open Library
open CandleLedger (CandleKey CandleValues InstrumentCandle)
open Backfill (BackfillError)

/-! ## Frames -/

/-- `SourceReceipt`, with what is compared of it. -/
structure SourceReceipt where
  dataType : String
  instrumentId : ℤ
  connectionId : String
  frameSequence : ℤ
  payloadChecksum : String
  rawPayload : String
  deriving DecidableEq, Repr

structure TickerSnapshot where
  instrumentId : ℤ
  bucketAt : Instant
  tradePrice : ℚ
  accTradePrice24h : ℚ
  receivedAt : Instant
  deriving DecidableEq, Repr

/-- `UNIQUE (instrument_id, source, bucket_at)`. -/
structure TickerKey where
  instrumentId : ℤ
  bucketAt : Instant
  deriving DecidableEq, Repr

/-- The values of a row of `ticker_snapshots`. -/
structure TickerContent where
  tradePrice : ℚ
  accTradePrice24h : ℚ
  collectedAt : Instant
  deriving DecidableEq, Repr

/-- The values of a row of `source_candles`. -/
structure CandleContent where
  values : CandleValues
  collectedAt : UtcTime
  deriving DecidableEq

def TickerSnapshot.key (ticker : TickerSnapshot) : TickerKey :=
  ⟨ticker.instrumentId, minuteBucket ticker.bucketAt⟩

def TickerSnapshot.content (ticker : TickerSnapshot) : TickerContent :=
  ⟨ticker.tradePrice, ticker.accTradePrice24h, ticker.receivedAt⟩

def candleContent (item : InstrumentCandle) : CandleContent :=
  ⟨item.values, item.collectedAt⟩

/-- `RealtimeSourceFrame`. -/
structure RealtimeSourceFrame where
  receipt : SourceReceipt
  ticker : Option TickerSnapshot := none
  candle : Option InstrumentCandle := none

/-! ## Tables -/

/-- A row of `source_receipts`, with the frame that it was inserted for. -/
structure ReceivedFrame where
  id : ℤ
  frame : RealtimeSourceFrame

structure SourceDatabase where
  sourceReceipts : IdentityTable ReceivedFrame.id
  tickerSnapshots : SourcedTable TickerKey TickerContent
  sourceCandles : SourcedTable CandleKey CandleContent

/-- The database before any frame. -/
def SourceDatabase.empty : SourceDatabase := ⟨.empty _, fun _ => none, fun _ => none⟩

inductive SourceFrameError where
  | valueError (message : String)
  | runtimeError (message : String)
  | backfill (error : BackfillError)
  deriving DecidableEq, Repr

/-! ## Receipts -/

/-- `WHERE connection_id = %s AND frame_sequence = %s`. -/
def SourceReceipt.sameFrame (receipt other : SourceReceipt) : Bool :=
  other.connectionId = receipt.connectionId && other.frameSequence = receipt.frameSequence

/-- Whether the stored receipt is what has come again. -/
def SourceReceipt.agrees (existing receipt : SourceReceipt) : Bool :=
  existing.dataType = receipt.dataType && existing.instrumentId = receipt.instrumentId &&
    existing.payloadChecksum = receipt.payloadChecksum && existing.rawPayload = receipt.rawPayload

theorem newReceipt_id (frame : RealtimeSourceFrame) (id : ℤ) :
    ReceivedFrame.id ⟨id, frame⟩ = id := rfl

/-- The receipt of a frame: a new row, or none where the frame has come before. -/
def insertReceipt (markets : List ℤ) (receipts : IdentityTable ReceivedFrame.id)
    (frame : RealtimeSourceFrame) :
    Except SourceFrameError (IdentityTable ReceivedFrame.id × Option ReceivedFrame) :=
  if frame.receipt.instrumentId ∉ markets then
    .error (.runtimeError "PostgreSQL query did not return a required row.")
  else
    match receipts.rows.find? fun row => frame.receipt.sameFrame row.frame.receipt with
    | none =>
      .ok (receipts.insert (fun id => ⟨id, frame⟩) (newReceipt_id frame),
        some ⟨receipts.last + 1, frame⟩)
    | some existing =>
      if existing.frame.receipt.agrees frame.receipt then .ok (receipts, none)
      else .error (.valueError "source receipt connection_id/frame_sequence payload 불일치")

/-- The receipts of a batch, with the rows that are new. -/
def insertReceipts (markets : List ℤ) :
    IdentityTable ReceivedFrame.id → List RealtimeSourceFrame →
      Except SourceFrameError (IdentityTable ReceivedFrame.id × List ReceivedFrame)
  | receipts, [] => .ok (receipts, [])
  | receipts, frame :: frames => do
    let (receipts, row) ← insertReceipt markets receipts frame
    let (receipts, rows) ← insertReceipts markets receipts frames
    pure (receipts, row.toList ++ rows)

/-! ## Values -/

/-- `WHERE excluded.collected_at > ticker_snapshots.collected_at`. -/
def tickerReplaces (content stored : TickerContent) : Bool :=
  stored.collectedAt < content.collectedAt

/-- `WHERE excluded.collected_at >= source_candles.collected_at`. -/
def candleReplaces (content stored : CandleContent) : Bool :=
  stored.collectedAt ≤ content.collectedAt

/-- The rows of `_upsert_tickers`. -/
def upsertTickers (table : SourcedTable TickerKey TickerContent) (tickers : List TickerSnapshot) :
    SourcedTable TickerKey TickerContent :=
  table.upsertAll tickerReplaces (tickers.map fun ticker => (ticker.key, ticker.content))

/-- The rows of `_upsert_candles`. -/
def upsertCandleRows (table : SourcedTable CandleKey CandleContent)
    (candles : List InstrumentCandle) : SourcedTable CandleKey CandleContent :=
  table.upsertAll candleReplaces (candles.map fun item => (item.key, candleContent item))

/-! ## Frames of a batch -/

/-- The ticker of a frame, with its receipt. -/
def ReceivedFrame.tickerRecord (row : ReceivedFrame) :
    Option (SourceRecord TickerKey TickerContent) :=
  row.frame.ticker.map fun ticker => ⟨ticker.key, ticker.content, row.id⟩

/-- The candle of a frame, with its receipt. -/
def ReceivedFrame.candleRecord (row : ReceivedFrame) :
    Option (SourceRecord CandleKey CandleContent) :=
  row.frame.candle.map fun item => ⟨item.key, candleContent item, row.id⟩

/-- `tickers_by_key`. -/
def tickersByKey (rows : List ReceivedFrame) : List (SourceRecord TickerKey TickerContent) :=
  latestOf SourceRecord.key (fun record => record.content.collectedAt)
    (rows.filterMap ReceivedFrame.tickerRecord)

/-- `candles_by_key`. -/
def candlesByKey (rows : List ReceivedFrame) : List (SourceRecord CandleKey CandleContent) :=
  latestOf SourceRecord.key (fun record => record.content.collectedAt)
    (rows.filterMap ReceivedFrame.candleRecord)

/-- What is known outside of these tables: the instruments that have a market, and the connections
that have a session. -/
structure FrameContext where
  markets : List ℤ
  sessions : List String

/-- `record_realtime_source_frames`. -/
def recordRealtimeSourceFrames (context : FrameContext) (db : SourceDatabase)
    (frames : List RealtimeSourceFrame) : Except SourceFrameError SourceDatabase :=
  if frames.any fun frame => frame.receipt.connectionId ∉ context.sessions then
    .error (.runtimeError "실시간 원문 receipt에 대응하는 연결 세션이 없다.")
  else do
    let (receipts, rows) ← insertReceipts context.markets db.sourceReceipts frames
    pure {
      sourceReceipts := receipts
      tickerSnapshots := db.tickerSnapshots.record tickerReplaces (tickersByKey rows)
      sourceCandles := db.sourceCandles.record candleReplaces (candlesByKey rows) }

/-! ## Rows without receipts -/

/-- `record_incremental_collection`. -/
def recordIncrementalCollection (db : SourceDatabase) (tickers : List TickerSnapshot)
    (candles : List InstrumentCandle) : SourceDatabase :=
  { db with
    tickerSnapshots := upsertTickers db.tickerSnapshots tickers
    sourceCandles := upsertCandleRows db.sourceCandles candles }

/-- `record_backfill_candles`; `lease` is what `_assert_backfill_write_lease` says. -/
def recordBackfillCandles (lease : Except BackfillError Unit) (db : SourceDatabase)
    (instrumentId : ℤ) (candles : List InstrumentCandle) :
    Except SourceFrameError SourceDatabase :=
  if candles.any fun item => item.instrumentId ≠ instrumentId then
    .error (.valueError "백필 캔들 대상 instrument_id가 작업 대상과 다르다.")
  else
    match lease with
    | .error error => .error (.backfill error)
    | .ok () => .ok { db with sourceCandles := upsertCandleRows db.sourceCandles candles }

/-! ## Runs -/

inductive SourceCall where
  | recordRealtimeSourceFrames (context : FrameContext) (frames : List RealtimeSourceFrame)
  | recordIncrementalCollection (tickers : List TickerSnapshot) (candles : List InstrumentCandle)
  | recordBackfillCandles (lease : Except BackfillError Unit) (instrumentId : ℤ)
      (candles : List InstrumentCandle)

/-- One call, in a transaction of its own. -/
def SourceCall.run (db : SourceDatabase) : SourceCall → Except SourceFrameError SourceDatabase
  | .recordRealtimeSourceFrames context frames =>
    SourceFrames.recordRealtimeSourceFrames context db frames
  | .recordIncrementalCollection tickers candles =>
    .ok (SourceFrames.recordIncrementalCollection db tickers candles)
  | .recordBackfillCandles lease instrumentId candles =>
    SourceFrames.recordBackfillCandles lease db instrumentId candles

/-- The database after a call: one that raises leaves it. -/
def SourceCall.after (db : SourceDatabase) (call : SourceCall) : SourceDatabase :=
  (call.run db).toOption.getD db

/-- The database after a sequence of calls. -/
def afterSourceCalls (db : SourceDatabase) (calls : List SourceCall) : SourceDatabase :=
  calls.foldl SourceCall.after db

end Goodmoneying.Program.SourceFrames
