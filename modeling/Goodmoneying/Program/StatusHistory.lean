import Goodmoneying.Library.JsonReader
import Goodmoneying.Library.Succession
import Goodmoneying.Program.MarketCatalog

/-!
# Market status history

The half of `sync_market_catalog` of `data_foundation_repository.py` that writes `markets` and
`market_status_history`; what the sync does to the targets of a market is in
`Program/MarketCatalog`, and reads no row of the history but the open one.

A call that raises is rolled back. Texts hold no NUL character, which the columns refuse.
Instruments, manifests, the counts of the result and the columns of a market that nothing here
reads are left out.
-/

namespace Goodmoneying.Program.StatusHistory

open Library
open Goodmoneying.Program.MarketCatalog (TradingStatus itemStatus partitionCode)

/-! ## Tables -/

/-- `market_event`: a JSON value; the order of its keys is not part of it. -/
@[ext]
structure MarketEvent where
  value : JsonValue
  canonical : value.Canonical

/-- The default of `market_event`. -/
def MarketEvent.empty : MarketEvent := ⟨.mapping [], .mapping [] List.Pairwise.nil (by simp)⟩

/-- `MarketCatalogItem`. -/
structure CatalogItem where
  marketCode : String
  koreanName : String
  englishName : String
  marketWarning : String
  tradable : Bool
  marketEvent : MarketEvent := .empty

/-- What a row of the history says of its market. -/
@[ext]
structure MarketStatus where
  tradingStatus : TradingStatus
  marketWarning : String
  marketEvent : MarketEvent

/-- What an item of the catalog says of its market. -/
def CatalogItem.status (item : CatalogItem) : MarketStatus where
  tradingStatus := itemStatus item.tradable
  marketWarning := item.marketWarning
  marketEvent := item.marketEvent

/-- A row of `market_status_history`. -/
structure StatusRow where
  id : ℤ
  marketId : ℤ
  status : MarketStatus
  sourcePayloadChecksum : String
  validFrom : Instant
  validTo : Option Instant := none
  observedAt : Instant

/-- A row of `markets`. -/
structure MarketRow where
  id : ℤ
  marketCode : String
  koreanName : String
  englishName : String

/-- `markets`: one row for a market code. -/
structure MarketTable extends IdentityTable MarketRow.id where
  codes : (rows.map MarketRow.marketCode).Nodup

structure HistoryDatabase where
  markets : MarketTable
  history : IdentityTable StatusRow.id

def HistoryDatabase.empty : HistoryDatabase where
  markets := { IdentityTable.empty MarketRow.id with codes := List.nodup_nil }
  history := IdentityTable.empty StatusRow.id

inductive HistoryError where
  | valueError (message : String)
  | checkViolation
  | exclusionViolation
  deriving DecidableEq, Repr

/-! ## Markets -/

def MarketTable.find (markets : MarketTable) (marketCode : String) : Option MarketRow :=
  markets.rows.find? fun market => market.marketCode = marketCode

/-- The update of a market that is listed again. -/
def MarketRow.rename (item : CatalogItem) (market : MarketRow) : MarketRow :=
  { market with
    koreanName := item.koreanName
    englishName := item.englishName }

theorem MarketRow.rename_id (item : CatalogItem) (market : MarketRow) :
    (market.rename item).id = market.id := rfl

theorem MarketTable.codes_rename (markets : MarketTable) (item : CatalogItem) :
    ((markets.update (fun market => market.marketCode = item.marketCode) (MarketRow.rename item)
      (MarketRow.rename_id item)).rows.map MarketRow.marketCode).Nodup := by
  have hcodes : ∀ row : MarketRow, (if row.marketCode = item.marketCode then row.rename item
      else row).marketCode = row.marketCode := by
    intro row
    split_ifs <;> rfl
  simpa [IdentityTable.update_rows, Function.comp_def, hcodes] using markets.codes

/-- The row of a market that is listed for the first time. -/
def listedMarket (item : CatalogItem) (id : ℤ) : MarketRow where
  id := id
  marketCode := item.marketCode
  koreanName := item.koreanName
  englishName := item.englishName

theorem listedMarket_id (item : CatalogItem) (id : ℤ) : (listedMarket item id).id = id := rfl

theorem MarketTable.codes_insert {markets : MarketTable} {item : CatalogItem}
    (h : markets.find item.marketCode = none) :
    ((markets.insert (listedMarket item) (listedMarket_id item)).rows.map
      MarketRow.marketCode).Nodup := by
  have hnew : item.marketCode ∉ markets.rows.map MarketRow.marketCode := by
    intro hmem
    obtain ⟨row, hrow, hcode⟩ := List.mem_map.mp hmem
    simpa [hcode] using List.find?_eq_none.mp h row hrow
  rw [IdentityTable.insert_rows, List.map_append, List.map_singleton]
  exact markets.codes.append (List.nodup_singleton _) (by simpa [listedMarket] using hnew)

/-- `INSERT INTO markets … ON CONFLICT (exchange, market_code) DO UPDATE … RETURNING id`. -/
def MarketTable.upsert (markets : MarketTable) (item : CatalogItem) : MarketTable × ℤ :=
  match h : markets.find item.marketCode with
  | some market =>
    ({ markets.update (fun market => market.marketCode = item.marketCode)
        (MarketRow.rename item) (MarketRow.rename_id item) with
      codes := markets.codes_rename item },
      market.id)
  | none =>
    ({ markets.insert (listedMarket item) (listedMarket_id item) with
      codes := MarketTable.codes_insert h },
      markets.last + 1)

/-! ## Revisions of a status -/

/-- The text of a trading status. -/
def TradingStatus.text : TradingStatus → String
  | .active => "active"
  | .inactive => "inactive"

/-- `canonical` of `_status_fingerprint`. -/
def MarketStatus.canonical (status : MarketStatus) : String :=
  (JsonValue.mapping [("trading_status", .text (TradingStatus.text status.tradingStatus)),
    ("market_warning", .text status.marketWarning),
    ("market_event", status.marketEvent.value)]).dumps

section Revisions

variable (sha256 : String → String)

/-- The checksum of `_status_fingerprint`. -/
def MarketStatus.fingerprint (status : MarketStatus) : String := sha256 status.canonical

/-- The rows of a market. -/
def HistoryDatabase.rowsOf (db : HistoryDatabase) (marketId : ℤ) : List StatusRow :=
  db.history.rows.filter fun row => row.marketId = marketId

/-- The open row of a market, `FOR UPDATE`. -/
def HistoryDatabase.currentRow (db : HistoryDatabase) (marketId : ℤ) : Option StatusRow :=
  maxBy StatusRow.validFrom ((db.rowsOf marketId).filter fun row => row.validTo = none)

/-- The row, closed. -/
def StatusRow.close (observedAt : Instant) (row : StatusRow) : StatusRow :=
  { row with validTo := some observedAt }

theorem StatusRow.close_id (observedAt : Instant) (row : StatusRow) :
    (row.close observedAt).id = row.id := rfl

theorem StatusRow.close_validFrom (observedAt : Instant) (row : StatusRow) :
    (row.close observedAt).validFrom = row.validFrom := rfl

theorem StatusRow.close_validTo (observedAt : Instant) (row : StatusRow) :
    (row.close observedAt).validTo = some observedAt := rfl

/-- `UPDATE market_status_history SET valid_to`, with the `CHECK` that a range is not empty. -/
def HistoryDatabase.closeRow (db : HistoryDatabase) (current : StatusRow) (observedAt : Instant) :
    Except HistoryError HistoryDatabase :=
  if current.validFrom < observedAt then
    .ok { db with
      history := db.history.update (fun row => row.id = current.id) (StatusRow.close observedAt)
        (StatusRow.close_id observedAt) }
  else .error .checkViolation

/-- The row of a new revision. -/
def newRow (marketId : ℤ) (status : MarketStatus) (observedAt : Instant) (id : ℤ) : StatusRow where
  id := id
  marketId := marketId
  status := status
  sourcePayloadChecksum := status.fingerprint sha256
  validFrom := observedAt
  observedAt := observedAt

theorem newRow_id (marketId : ℤ) (status : MarketStatus) (observedAt : Instant) (id : ℤ) :
    (newRow sha256 marketId status observedAt id).id = id := rfl

/-- `INSERT INTO market_status_history`, with the constraint that excludes ranges of one market
that overlap. -/
def HistoryDatabase.insertRow (db : HistoryDatabase) (marketId : ℤ) (status : MarketStatus)
    (observedAt : Instant) : Except HistoryError HistoryDatabase :=
  if (db.rowsOf marketId).any fun row => decide (∀ e ∈ row.validTo, observedAt < e) then
    .error .exclusionViolation
  else .ok { db with
    history := db.history.insert (newRow sha256 marketId status observedAt)
      (newRow_id sha256 marketId status observedAt) }

/-- `_record_status_revision`. -/
def recordStatusRevision (db : HistoryDatabase) (marketId : ℤ) (status : MarketStatus)
    (observedAt : Instant) : Except HistoryError HistoryDatabase :=
  match db.currentRow marketId with
  | none => db.insertRow sha256 marketId status observedAt
  | some current =>
    if current.sourcePayloadChecksum = status.fingerprint sha256 then .ok db
    else do
      let closed ← db.closeRow current observedAt
      closed.insertRow sha256 marketId status observedAt

/-! ## The catalog -/

/-- The check of a market code. -/
def validCode (marketCode : String) : Bool :=
  let parts := partitionCode marketCode
  parts.2.1 && parts.1 ≠ "" && parts.2.2 ≠ ""

/-- One round of the loop over the catalog, with the ids of the markets observed so far. -/
def syncItem (observedAt : Instant) (state : HistoryDatabase × List ℤ) (item : CatalogItem) :
    Except HistoryError (HistoryDatabase × List ℤ) :=
  if validCode item.marketCode then do
    let (markets, marketId) := state.1.markets.upsert item
    let recorded ← recordStatusRevision sha256 { state.1 with markets := markets } marketId
      item.status observedAt
    pure (recorded, marketId :: state.2)
  else .error (.valueError ("잘못된 Upbit market_code다: " ++ item.marketCode))

/-- The status of a market that the catalog does not list. -/
def missingStatus : MarketStatus where
  tradingStatus := .inactive
  marketWarning := "NONE"
  marketEvent := .empty

/-- The markets joined with their open rows, those that are active and not observed. -/
def missingMarkets (db : HistoryDatabase) (observedMarketIds : List ℤ) : List MarketRow :=
  db.markets.rows.flatMap fun market =>
    ((db.rowsOf market.id).filter fun row =>
      row.validTo = none ∧ row.status.tradingStatus = .active ∧
        market.id ∉ observedMarketIds).map fun _ => market

/-- `_mark_missing_markets_inactive`. -/
def markMissingMarketsInactive (db : HistoryDatabase) (observedMarketIds : List ℤ)
    (observedAt : Instant) : Except HistoryError HistoryDatabase :=
  (if observedMarketIds = [] then [] else missingMarkets db observedMarketIds).foldlM
    (fun db market => recordStatusRevision sha256 db market.id missingStatus observedAt) db

/-- `sync_market_catalog`. -/
def syncMarketCatalog (db : HistoryDatabase) (catalog : List CatalogItem) (observedAt : Instant) :
    Except HistoryError HistoryDatabase :=
  if catalog = [] then
    .error (.valueError "빈 시장 카탈로그로 기존 시장 상태를 변경할 수 없다.")
  else if ¬ (catalog.map CatalogItem.marketCode).Nodup then
    .error (.valueError "시장 카탈로그에 중복 market_code가 있다.")
  else do
    let (synced, observedMarketIds) ← catalog.foldlM (syncItem sha256 observedAt) (db, [])
    markMissingMarketsInactive sha256 synced observedMarketIds observedAt

/-- A call of `sync_market_catalog`. -/
structure CatalogCall where
  catalog : List CatalogItem
  observedAt : Instant

namespace HistoryDatabase

/-- The tables after a call; one that raises is rolled back. -/
def after (db : HistoryDatabase) (call : CatalogCall) : HistoryDatabase :=
  (syncMarketCatalog sha256 db call.catalog call.observedAt).toOption.getD db

/-- The tables after a sequence of calls. -/
def afterCalls (db : HistoryDatabase) (calls : List CatalogCall) : HistoryDatabase :=
  calls.foldl (after sha256) db

/-- The rows of the market of a code. -/
def rowsOfCode (db : HistoryDatabase) (marketCode : String) : List StatusRow :=
  (db.markets.find marketCode).elim [] fun market => db.rowsOf market.id

end HistoryDatabase

end Revisions

end Goodmoneying.Program.StatusHistory
