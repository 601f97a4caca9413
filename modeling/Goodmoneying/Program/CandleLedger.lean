import Goodmoneying.Library.IdentityTable
import Goodmoneying.Program.Aggregation

/-!
# Source candles and their revisions

`_upsert_candles` of `postgres_repository.py`, without coverage and rollups: every fetched candle
replaces the row of its start unless that row was collected later, and is appended to
`source_candle_revisions` unless the last revision of the row has the same content.

There is at most one row of an instrument, a unit and a start, and rows are never deleted, so this
key stands for `source_candle_id`. `sha256` stands for the hexadecimal digest of a text.
-/

namespace Goodmoneying.Program.CandleLedger

open Library
open Goodmoneying.Program.Aggregation (SourceCandle)

/-- `UNIQUE (instrument_id, source, candle_unit, candle_start_at)`. -/
structure CandleKey where
  instrumentId : ℤ
  candleUnit : String
  candleStartAt : UtcTime
  deriving DecidableEq

/-- Prices, volume and amount of a candle. -/
structure CandleValues where
  openPrice : ℚ
  highPrice : ℚ
  lowPrice : ℚ
  closePrice : ℚ
  tradeVolume : ℚ
  tradeAmount : ℚ
  deriving DecidableEq, Repr

/-- `SourceCandle`, with its instrument. -/
structure InstrumentCandle where
  instrumentId : ℤ
  candle : SourceCandle

namespace InstrumentCandle

def key (item : InstrumentCandle) : CandleKey :=
  ⟨item.instrumentId, item.candle.candleUnit, item.candle.candleStartAt⟩

def values (item : InstrumentCandle) : CandleValues where
  openPrice := item.candle.openPrice
  highPrice := item.candle.highPrice
  lowPrice := item.candle.lowPrice
  closePrice := item.candle.closePrice
  tradeVolume := item.candle.tradeVolume
  tradeAmount := item.candle.tradeAmount

def collectedAt (item : InstrumentCandle) : UtcTime := item.candle.collectedAt

end InstrumentCandle

/-- A row of `source_candles`. -/
structure SourceCandleRow where
  values : CandleValues
  collectedAt : UtcTime
  marketId : Option ℤ
  deriving DecidableEq

/-- A row of `source_candle_revisions`. -/
structure CandleRevision where
  id : ℤ
  key : CandleKey
  revisionNumber : ℤ
  marketId : ℤ
  values : CandleValues
  sourceAsOf : UtcTime
  knowledgeAt : UtcTime
  inputContentHash : String
  deriving DecidableEq

structure CandleDatabase where
  sourceCandles : CandleKey → Option SourceCandleRow
  revisions : IdentityTable CandleRevision.id

/-- The database before any candle. -/
def CandleDatabase.empty : CandleDatabase := ⟨fun _ => none, .empty _⟩

/-- The revisions of a candle, in the order of their ids. -/
def CandleDatabase.revisionsOf (db : CandleDatabase) (key : CandleKey) : List CandleRevision :=
  db.revisions.rows.filter fun revision => revision.key = key

section Writing

variable (ar : Arithmetic) (sha256 : String → String)

/-- `_source_candle_content_hash`. -/
def sourceCandleContentHash (values : CandleValues) : String :=
  sha256 ("|".intercalate ([values.openPrice, values.highPrice, values.lowPrice,
    values.closePrice, values.tradeVolume, values.tradeAmount].map (Aggregation.canonicalDecimal ar)))

/-- `INSERT INTO source_candles … ON CONFLICT … DO UPDATE … WHERE excluded.collected_at >=
source_candles.collected_at`. -/
def insertSourceCandle (db : CandleDatabase) (marketId : Option ℤ) (item : InstrumentCandle) :
    CandleDatabase :=
  let replaced := match db.sourceCandles item.key with
    | none => true
    | some row => decide (row.collectedAt ≤ item.collectedAt)
  if replaced then
    { db with
      sourceCandles := Function.update db.sourceCandles item.key
        (some ⟨item.values, item.collectedAt, marketId⟩) }
  else db

/-- The revision of the greatest number of a candle. -/
def lastRevision (db : CandleDatabase) (key : CandleKey) : Option CandleRevision :=
  maxBy CandleRevision.revisionNumber (db.revisionsOf key)

/-- `_append_source_candle_revisions` of one candle, with the revision that it created. -/
def appendSourceCandleRevision (db : CandleDatabase) (item : InstrumentCandle) :
    Option CandleRevision × CandleDatabase :=
  match (db.sourceCandles item.key).bind SourceCandleRow.marketId with
  | none => (none, db)
  | some marketId =>
    let contentHash := sourceCandleContentHash ar sha256 item.values
    let latest := lastRevision db item.key
    if latest.any fun revision => revision.inputContentHash = contentHash then (none, db)
    else
      let revision (id : ℤ) : CandleRevision := {
        id := id
        key := item.key
        revisionNumber := latest.elim 1 fun revision => revision.revisionNumber + 1
        marketId := marketId
        values := item.values
        sourceAsOf := item.collectedAt
        knowledgeAt := item.candle.knowledgeAt.getD item.collectedAt
        inputContentHash := contentHash }
      (some (revision (db.revisions.last + 1)),
        { db with revisions := db.revisions.insert revision fun _ => rfl })

/-- One round of the loop over the candles. -/
def upsertSourceCandle (db : CandleDatabase) (marketId : Option ℤ) (item : InstrumentCandle) :
    Option CandleRevision × CandleDatabase :=
  appendSourceCandleRevision ar sha256 (insertSourceCandle db marketId item) item

/-- `UPDATE source_candles SET market_id = COALESCE(market_id, %s)`. -/
def fillMarket (db : CandleDatabase) (marketId : Option ℤ) (key : CandleKey) : CandleDatabase :=
  { db with
    sourceCandles := Function.update db.sourceCandles key
      ((db.sourceCandles key).map fun row => { row with marketId := row.marketId <|> marketId }) }

/-- The arguments of `_upsert_candles`: the candles, and the markets of the manifests. -/
structure UpsertCall where
  candles : List InstrumentCandle
  marketId : ℤ → String → Option ℤ

/-- The market that the call knows of a candle. -/
def UpsertCall.market (call : UpsertCall) (item : InstrumentCandle) : Option ℤ :=
  call.marketId item.instrumentId item.candle.candleUnit

/-- The first loop of `_upsert_candles`, with the revisions that it created. -/
def upsertLoop (call : UpsertCall) (db : CandleDatabase) :
    List InstrumentCandle → List CandleRevision × CandleDatabase
  | [] => ([], db)
  | item :: items =>
    let (revision, db) := upsertSourceCandle ar sha256 db (call.market item) item
    let (revisions, db) := upsertLoop call db items
    (revision.toList ++ revisions, db)

/-- `_upsert_candles`: the created revisions and the tables. -/
def upsertCandles (db : CandleDatabase) (call : UpsertCall) :
    List CandleRevision × CandleDatabase :=
  let (revisions, db) := upsertLoop ar sha256 call db call.candles
  (revisions, call.candles.foldl (fun db item => fillMarket db (call.market item) item.key) db)

/-- The database after a sequence of calls. -/
def afterCalls (db : CandleDatabase) (calls : List UpsertCall) : CandleDatabase :=
  calls.foldl (fun db call => (upsertCandles ar sha256 db call).2) db

end Writing

/-- The revision that the readers take: `ORDER BY source_as_of DESC, revision_number DESC, id
DESC`. -/
def currentRevision (db : CandleDatabase) (key : CandleKey) : Option CandleRevision :=
  maxBy (fun revision => toLex (revision.sourceAsOf, toLex (revision.revisionNumber, revision.id)))
    (db.revisionsOf key)

end Goodmoneying.Program.CandleLedger
