import Goodmoneying.Library.IdentityTable
import Goodmoneying.Program.Listings
import Goodmoneying.Program.Microstructure

/-!
# Microstructure of the market events

Migration `20260717001200_p2_microstructure.sql` and `microstructure_store.py`: every order book
and trade that is inserted adds an invalidation of its minute, or is merged into one that still
waits; `run_next_microstructure_invalidation` claims an invalidation, computes the statistics of
the minute from the events that it covers, and stores them as a materialization;
`read_microstructure_statistics` shows the materialization of a minute that ranks first.

The candles, their quality and the quality of the connections are a parameter
(`EvidenceTables`). A statement reads the clock once.
-/

namespace Goodmoneying.Program

open Library

/-! ## Tables -/

/-- A row of `source_candle_revisions` of a candle of one minute. -/
structure MinuteCandleRevision where
  id : ℤ
  instrumentId : ℤ
  candleStartAt : Instant
  revisionNumber : ℤ
  tradeVolume : ℚ
  tradeAmount : ℚ
  knowledgeAt : Instant
  sourceAsOf : Instant

/-- A row of `data_quality_events` of a target of the candles of one minute of a market. -/
structure CandleQualityEvent where
  id : ℤ
  marketId : ℤ
  newStatus : SourceQuality
  detectedAt : Instant
  rangeStartAt : Instant
  rangeEndAt : Instant

structure EvidenceTables where
  candleRevisions : List MinuteCandleRevision
  qualityEvents : List CandleQualityEvent
  realtime : RealtimeDatabase

/-- A row of `source_receipts`. -/
structure SourceReceiptRow where
  id : ℤ
  instrumentId : ℤ

/-- A row of `orderbook_snapshots` with its `orderbook_snapshot_levels`. -/
structure OrderbookSnapshotRow where
  id : ℤ
  marketId : ℤ
  instrumentId : ℤ
  occurredAt : Instant
  knowledgeAt : Instant
  level : Option ℚ
  levels : List MicrostructureOrderbookLevel
  sourceReceiptId : ℤ

/-- A row of `trade_events`. -/
structure TradeEventRow where
  id : ℤ
  marketId : ℤ
  instrumentId : ℤ
  occurredAt : Instant
  knowledgeAt : Instant
  askBid : String
  tradeVolume : ℚ
  tradeAmount : ℚ
  sourceReceiptId : ℤ

/-- `microstructure_invalidations.status`. -/
inductive InvalidationStatus where
  | pending | running | succeeded | retryWait | deadLetter
  deriving DecidableEq, Repr

/-- The columns of `microstructure_invalidations_pending_bucket_uk`; nulls are not distinct. -/
structure InvalidationKey where
  instrumentId : ℤ
  bucketStartAt : Instant
  sourceCandleRevisionId : Option ℤ
  qualityEventThroughId : Option ℤ
  connectionQualityThroughId : ℤ
  deriving DecidableEq, Repr

/-- A row of `microstructure_invalidations`. -/
structure MicrostructureInvalidation where
  id : ℤ
  key : InvalidationKey
  marketId : ℤ
  changedOrderbookSnapshotId : Option ℤ
  changedTradeEventId : Option ℤ
  frontier : MicrostructureFrontier
  knowledgeAt : Instant
  sourceAsOf : Instant
  status : InvalidationStatus := .pending
  attemptCount : ℤ := 0
  maxAttempts : ℤ := 5
  nextRetryAt : Instant
  leaseOwner : Option String := none
  leaseExpiresAt : Option Instant := none
  leaseGeneration : ℤ := 0
  lastErrorCode : Option String := none
  finishedAt : Option Instant := none
  deriving DecidableEq

/-- `status IN ('pending','retry_wait')`. -/
def MicrostructureInvalidation.waits (row : MicrostructureInvalidation) : Bool :=
  row.status = .pending || row.status = .retryWait

/-- `status IN ('pending','retry_wait','running')`. -/
def MicrostructureInvalidation.isActive (row : MicrostructureInvalidation) : Bool :=
  row.waits || row.status = .running

/-- Whether the invalidation is of the minute. -/
def MicrostructureInvalidation.isOf (row : MicrostructureInvalidation) (instrumentId : ℤ)
    (bucketStartAt : Instant) : Bool :=
  row.key.instrumentId = instrumentId && row.key.bucketStartAt = bucketStartAt

/-- A row of `microstructure_materializations` with its statistic and the order books and trades
it was computed of, each with its receipt. -/
structure MicrostructureMaterialization where
  id : ℤ
  instrumentId : ℤ
  marketId : ℤ
  parentMaterializationId : Option ℤ
  point : MicrostructurePoint
  knowledgeAt : Instant
  sourceAsOf : Instant
  orderbooks : List (ℤ × ℤ)
  trades : List (ℤ × ℤ)
  deriving DecidableEq

structure MicrostructureDatabase where
  receipts : List SourceReceiptRow
  orderbookSnapshots : List OrderbookSnapshotRow
  tradeEvents : List TradeEventRow
  invalidations : IdentityTable MicrostructureInvalidation.id
  materializations : IdentityTable MicrostructureMaterialization.id

/-- What ends the work on an invalidation, with the name of its type. -/
inductive MicrostructureException where
  | valueError (message : String)
  | uniqueViolation
  | other (name : String)
  deriving DecidableEq, Repr

def MicrostructureException.name : MicrostructureException → String
  | valueError _ => "ValueError"
  | uniqueViolation => "UniqueViolation"
  | other name => name

/-! ## The trigger -/

/-- The market of an instrument. -/
def marketOf (evidence : EvidenceTables) (instrumentId : ℤ) : Option ℤ :=
  (evidence.realtime.markets.find? fun market =>
    market.legacyInstrumentId = some instrumentId).map MarketRow.id

/-- What the trigger reads of a new order book or trade. -/
structure MarketEvent where
  marketId : ℤ
  instrumentId : ℤ
  occurredAt : Instant
  knowledgeAt : Instant
  sourceReceiptId : ℤ
  changedOrderbookSnapshotId : Option ℤ
  changedTradeEventId : Option ℤ

def OrderbookSnapshotRow.event (row : OrderbookSnapshotRow) : MarketEvent :=
  ⟨row.marketId, row.instrumentId, row.occurredAt, row.knowledgeAt, row.sourceReceiptId,
    some row.id, none⟩

def TradeEventRow.event (row : TradeEventRow) : MarketEvent :=
  ⟨row.marketId, row.instrumentId, row.occurredAt, row.knowledgeAt, row.sourceReceiptId,
    none, some row.id⟩

/-- The key of the invalidation of an event: what is known of its minute with it. -/
def MarketEvent.key (evidence : EvidenceTables) (event : MarketEvent) : InvalidationKey where
  instrumentId := event.instrumentId
  bucketStartAt := minuteBucket event.occurredAt
  sourceCandleRevisionId :=
    (maxBy (fun row : MinuteCandleRevision =>
      toLex (row.knowledgeAt, toLex (row.revisionNumber, row.id)))
      (evidence.candleRevisions.filter fun row =>
        row.instrumentId = event.instrumentId &&
        row.candleStartAt = minuteBucket event.occurredAt &&
        row.knowledgeAt ≤ event.knowledgeAt)).map MinuteCandleRevision.id
  qualityEventThroughId :=
    ((evidence.qualityEvents.filter fun row =>
      row.marketId = event.marketId && row.detectedAt ≤ event.knowledgeAt &&
      row.rangeStartAt ≤ minuteBucket event.occurredAt &&
      minuteBucket event.occurredAt < row.rangeEndAt).map CandleQualityEvent.id).max?
  connectionQualityThroughId :=
    coalesceMax ((evidence.realtime.intervals.filter fun row =>
      row.detectedAt ≤ event.knowledgeAt).map fun row => row.id)

/-- The frontier of an event: the largest ids of its instrument. -/
def MarketEvent.frontier (db : MicrostructureDatabase) (event : MarketEvent) :
    MicrostructureFrontier where
  orderbookSnapshotThroughId := coalesceMax ((db.orderbookSnapshots.filter fun row =>
    row.instrumentId = event.instrumentId).map OrderbookSnapshotRow.id)
  tradeEventThroughId := coalesceMax ((db.tradeEvents.filter fun row =>
    row.instrumentId = event.instrumentId).map TradeEventRow.id)
  sourceReceiptThroughId := max (coalesceMax ((db.receipts.filter fun row =>
    row.instrumentId = event.instrumentId).map SourceReceiptRow.id)) event.sourceReceiptId

/-- The row that the trigger inserts. -/
def MarketEvent.invalidation (evidence : EvidenceTables) (db : MicrostructureDatabase)
    (now : Instant) (event : MarketEvent) (id : ℤ) : MicrostructureInvalidation where
  id := id
  key := event.key evidence
  marketId := event.marketId
  changedOrderbookSnapshotId := event.changedOrderbookSnapshotId
  changedTradeEventId := event.changedTradeEventId
  frontier := event.frontier db
  knowledgeAt := event.knowledgeAt
  sourceAsOf := event.occurredAt
  nextRetryAt := now

/-- `ON CONFLICT … DO UPDATE SET`. -/
def MicrostructureInvalidation.merge (db : MicrostructureDatabase) (now : Instant)
    (event : MarketEvent) (row : MicrostructureInvalidation) : MicrostructureInvalidation :=
  { row with
    changedOrderbookSnapshotId := event.changedOrderbookSnapshotId.or row.changedOrderbookSnapshotId
    changedTradeEventId := event.changedTradeEventId.or row.changedTradeEventId
    frontier := {
      orderbookSnapshotThroughId := max row.frontier.orderbookSnapshotThroughId
        (event.frontier db).orderbookSnapshotThroughId
      tradeEventThroughId := max row.frontier.tradeEventThroughId
        (event.frontier db).tradeEventThroughId
      sourceReceiptThroughId := max row.frontier.sourceReceiptThroughId
        (event.frontier db).sourceReceiptThroughId }
    knowledgeAt := max row.knowledgeAt event.knowledgeAt
    sourceAsOf := max row.sourceAsOf event.occurredAt
    status := .pending
    nextRetryAt := now }

theorem MicrostructureInvalidation.merge_id (db : MicrostructureDatabase) (now : Instant)
    (event : MarketEvent) (row : MicrostructureInvalidation) :
    (row.merge db now event).id = row.id := rfl

/-- `enqueue_microstructure_invalidation`: the invalidation that waits with the key of the event
takes it, or a new one does. -/
def enqueueMicrostructureInvalidation (evidence : EvidenceTables) (now : Instant)
    (db : MicrostructureDatabase) (event : MarketEvent) : MicrostructureDatabase :=
  let conflicts : MicrostructureInvalidation → Bool := fun row =>
    row.waits && row.key = event.key evidence
  { db with
    invalidations :=
      if db.invalidations.rows.any conflicts then
        db.invalidations.update conflicts (fun row => row.merge db now event)
          (MicrostructureInvalidation.merge_id db now event)
      else db.invalidations.insert (event.invalidation evidence db now) fun _ => rfl }

/-! ## Claims and leases -/

/-- The conditions of the claim. -/
def MicrostructureInvalidation.claimable (now : Instant) (rows : List MicrostructureInvalidation)
    (row : MicrostructureInvalidation) : Bool :=
  ((row.waits && row.nextRetryAt ≤ now) ||
    (row.status = .running && row.leaseExpiresAt.any (· ≤ now))) &&
  row.key.bucketStartAt + minute ≤ now &&
  !(rows.any fun predecessor =>
    predecessor.isOf row.key.instrumentId row.key.bucketStartAt && predecessor.id < row.id &&
    predecessor.isActive) &&
  !(rows.any fun other =>
    other.isOf row.key.instrumentId row.key.bucketStartAt && other.status = .running &&
    other.leaseExpiresAt.any (now < ·))

/-- What a claim returns: the row as it is after it, and its status before. -/
structure ClaimedInvalidation where
  row : MicrostructureInvalidation
  previousStatus : InvalidationStatus
  workerId : String

/-- The row after a claim. -/
def MicrostructureInvalidation.claim (now : Instant) (workerId : String)
    (row : MicrostructureInvalidation) : MicrostructureInvalidation :=
  { row with
    status := .running
    attemptCount := row.attemptCount + 1
    leaseOwner := some workerId
    leaseExpiresAt := some (now.addSeconds 120)
    leaseGeneration := row.leaseGeneration + 1 }

theorem MicrostructureInvalidation.claim_id (now : Instant) (workerId : String)
    (row : MicrostructureInvalidation) : (row.claim now workerId).id = row.id := rfl

/-- The claim: the first row of those that can be claimed and are not locked. -/
def claimMicrostructureInvalidation (now : Instant) (locked : ℤ → Bool)
    (db : MicrostructureDatabase) (workerId : String) :
    Option ClaimedInvalidation × MicrostructureDatabase :=
  match db.invalidations.rows.find? fun row =>
      row.claimable now db.invalidations.rows && !locked row.id with
  | none => (none, db)
  | some row => (some ⟨row.claim now workerId, row.status, workerId⟩,
    { db with
      invalidations := db.invalidations.update (fun other => other.id = row.id)
        (fun row => row.claim now workerId)
        (MicrostructureInvalidation.claim_id now workerId) })

/-- `id=%s AND lease_owner=%s AND lease_generation=%s`. -/
def MicrostructureInvalidation.leasedTo (claimed : ClaimedInvalidation)
    (row : MicrostructureInvalidation) : Bool :=
  row.id = claimed.row.id && row.leaseOwner = some claimed.workerId &&
  row.leaseGeneration = claimed.row.leaseGeneration

/-- The same with a lease that lasts. -/
def MicrostructureInvalidation.live (now : Instant) (claimed : ClaimedInvalidation)
    (row : MicrostructureInvalidation) : Bool :=
  row.leasedTo claimed && row.status = .running && row.leaseExpiresAt.any (now < ·)

/-- `microstructure_invalidations_pending_bucket_uk`. -/
def WaitingKeysUnique (rows : List MicrostructureInvalidation) : Prop :=
  ((rows.filter MicrostructureInvalidation.waits).map MicrostructureInvalidation.key).Nodup

instance (rows : List MicrostructureInvalidation) : Decidable (WaitingKeysUnique rows) :=
  inferInstanceAs (Decidable (List.Nodup _))

/-- An `UPDATE` of the invalidations; the index refuses two that wait with one key. -/
def updateInvalidations (db : MicrostructureDatabase) (p : MicrostructureInvalidation → Bool)
    (change : MicrostructureInvalidation → MicrostructureInvalidation)
    (hkey : ∀ row, (change row).id = row.id) :
    Except MicrostructureException MicrostructureDatabase :=
  let invalidations := db.invalidations.update p change hkey
  if WaitingKeysUnique invalidations.rows then .ok { db with invalidations := invalidations }
  else .error .uniqueViolation

/-- `CASE WHEN attempt_count >= max_attempts THEN 'dead_letter' ELSE 'retry_wait' END`. -/
def MicrostructureInvalidation.statusAfterFailure (row : MicrostructureInvalidation) :
    InvalidationStatus :=
  if row.maxAttempts ≤ row.attemptCount then .deadLetter else .retryWait

/-- The row after `_release_for_retry`. -/
def MicrostructureInvalidation.release (now : Instant) (error : String)
    (row : MicrostructureInvalidation) : MicrostructureInvalidation :=
  { row with
    status := row.statusAfterFailure
    nextRetryAt := now.addSeconds 5
    leaseOwner := none
    leaseExpiresAt := none
    lastErrorCode := some error
    finishedAt := if row.maxAttempts ≤ row.attemptCount then some now else none }

theorem MicrostructureInvalidation.release_id (now : Instant) (error : String)
    (row : MicrostructureInvalidation) : (row.release now error).id = row.id := rfl

/-- `_release_for_retry`. -/
def releaseForRetry (now : Instant) (db : MicrostructureDatabase) (claimed : ClaimedInvalidation)
    (error : String) : Except MicrostructureException MicrostructureDatabase :=
  updateInvalidations db (fun row => row.leasedTo claimed) (fun row => row.release now error)
    (MicrostructureInvalidation.release_id now error)

/-- The row after `_release_preceding_frontier`. -/
def MicrostructureInvalidation.restore (previousStatus : InvalidationStatus)
    (row : MicrostructureInvalidation) : MicrostructureInvalidation :=
  { row with
    status := if previousStatus = .pending ∨ previousStatus = .retryWait then previousStatus
      else .retryWait
    attemptCount := max (row.attemptCount - 1) 0
    leaseOwner := none
    leaseExpiresAt := none
    lastErrorCode := some "preceding_frontier" }

theorem MicrostructureInvalidation.restore_id (previousStatus : InvalidationStatus)
    (row : MicrostructureInvalidation) : (row.restore previousStatus).id = row.id := rfl

/-- `_release_preceding_frontier`. -/
def releasePrecedingFrontier (db : MicrostructureDatabase) (claimed : ClaimedInvalidation) :
    Except MicrostructureException MicrostructureDatabase :=
  updateInvalidations db (fun row => row.leasedTo claimed)
    (fun row => row.restore claimed.previousStatus)
    (MicrostructureInvalidation.restore_id claimed.previousStatus)

/-- The row after the update of the exception handler. -/
def MicrostructureInvalidation.fail (now : Instant) (exc : MicrostructureException)
    (row : MicrostructureInvalidation) : MicrostructureInvalidation :=
  { row with
    status := row.statusAfterFailure
    nextRetryAt := now.addSeconds 5
    leaseOwner := none
    leaseExpiresAt := none
    lastErrorCode := some exc.name }

theorem MicrostructureInvalidation.fail_id (now : Instant) (exc : MicrostructureException)
    (row : MicrostructureInvalidation) : (row.fail now exc).id = row.id := rfl

/-- The update of the exception handler. -/
def failInvalidation (now : Instant) (db : MicrostructureDatabase) (claimed : ClaimedInvalidation)
    (exc : MicrostructureException) : Except MicrostructureException MicrostructureDatabase :=
  updateInvalidations db (fun row => row.leasedTo claimed) (fun row => row.fail now exc)
    (MicrostructureInvalidation.fail_id now exc)

/-! ## Inputs -/

/-- `_source_candle_input`. -/
def sourceCandleInput (evidence : EvidenceTables) (live : MicrostructureInvalidation) :
    Except MicrostructureException (Option MicrostructureCandleInput) :=
  let startedAt := live.key.bucketStartAt
  let create (candle : MicrostructureCandleInput) :
      Except MicrostructureException (Option MicrostructureCandleInput) :=
    match candle.create with
    | .ok candle => .ok (some candle)
    | .error message => .error (.valueError message)
  let qualityRow := maxBy CandleQualityEvent.id (evidence.qualityEvents.filter fun row =>
    row.marketId = live.marketId && row.detectedAt ≤ live.knowledgeAt &&
    live.key.qualityEventThroughId.all (row.id ≤ ·) &&
    row.rangeStartAt ≤ startedAt && startedAt < row.rangeEndAt)
  let quality := (qualityRow.map CandleQualityEvent.newStatus).getD .unverified
  let revision := live.key.sourceCandleRevisionId.bind fun ceiling =>
    maxBy (fun row : MinuteCandleRevision =>
      toLex (row.sourceAsOf, toLex (row.revisionNumber, row.id)))
      (evidence.candleRevisions.filter fun row =>
        row.instrumentId = live.key.instrumentId && row.candleStartAt = startedAt &&
        row.knowledgeAt ≤ live.knowledgeAt && row.id ≤ ceiling)
  if quality = .noTrade then
    match qualityRow with
    | none => .ok none
    | some row => create ⟨none, startedAt, row.detectedAt, row.detectedAt, .noTrade, 0, 0,
      some row.id⟩
  else
    match revision with
    | none =>
      match qualityRow with
      | none => .ok none
      | some row => create ⟨none, startedAt, row.detectedAt, row.detectedAt, quality, 0, 0,
        some row.id⟩
    | some revision => create ⟨some revision.id, startedAt, revision.knowledgeAt,
      revision.sourceAsOf, if quality = .unverified then .available else quality,
      revision.tradeVolume, revision.tradeAmount, qualityRow.map CandleQualityEvent.id⟩

/-- The input of a snapshot. -/
def OrderbookSnapshotRow.input (row : OrderbookSnapshotRow) : MicrostructureOrderbookInput where
  snapshotId := row.id
  occurredAt := row.occurredAt
  knowledgeAt := row.knowledgeAt
  level := row.level
  levels := sortedBy MicrostructureOrderbookLevel.levelIndex row.levels
  sourceReceiptId := row.sourceReceiptId

/-- The input of a trade. -/
def TradeEventRow.input (row : TradeEventRow) : MicrostructureTradeInput where
  tradeEventId := row.id
  occurredAt := row.occurredAt
  knowledgeAt := row.knowledgeAt
  direction := row.askBid
  volume := row.tradeVolume
  amount := row.tradeAmount
  sourceReceiptId := row.sourceReceiptId

/-- Whether the table of receipts has the receipt, up to a ceiling. -/
def hasReceipt (db : MicrostructureDatabase) (id ceiling : ℤ) : Bool :=
  db.receipts.any fun receipt => receipt.id = id && receipt.id ≤ ceiling

/-- `_orderbook_inputs`. -/
def orderbookInputs (db : MicrostructureDatabase) (live : MicrostructureInvalidation) :
    List MicrostructureOrderbookInput :=
  (sortedBy (fun row => toLex (row.occurredAt, row.id)) (db.orderbookSnapshots.filter fun row =>
    row.instrumentId = live.key.instrumentId && live.key.bucketStartAt ≤ row.occurredAt &&
    row.occurredAt < live.key.bucketStartAt + minute &&
    row.id ≤ live.frontier.orderbookSnapshotThroughId &&
    hasReceipt db row.sourceReceiptId live.frontier.sourceReceiptThroughId &&
    row.knowledgeAt ≤ live.knowledgeAt)).map OrderbookSnapshotRow.input

/-- `_trade_inputs`. -/
def tradeInputs (db : MicrostructureDatabase) (live : MicrostructureInvalidation) :
    List MicrostructureTradeInput :=
  (sortedBy (fun row => toLex (row.occurredAt, row.id)) (db.tradeEvents.filter fun row =>
    row.instrumentId = live.key.instrumentId && live.key.bucketStartAt ≤ row.occurredAt &&
    row.occurredAt < live.key.bucketStartAt + minute &&
    row.id ≤ live.frontier.tradeEventThroughId &&
    hasReceipt db row.sourceReceiptId live.frontier.sourceReceiptThroughId &&
    row.knowledgeAt ≤ live.knowledgeAt)).map TradeEventRow.input

/-! ## Materializations -/

/-- The columns of the unique key of `microstructure_materializations`, besides the definition. -/
def MicrostructureMaterialization.sameContent (instrumentId : ℤ) (point : MicrostructurePoint)
    (row : MicrostructureMaterialization) : Bool :=
  row.instrumentId = instrumentId && row.point.calculationVersion = point.calculationVersion &&
  row.point.startedAt = point.startedAt &&
  row.point.orderbookSnapshotThroughId = point.orderbookSnapshotThroughId &&
  row.point.tradeEventThroughId = point.tradeEventThroughId &&
  row.point.sourceReceiptThroughId = point.sourceReceiptThroughId &&
  row.point.sourceCandleRevisionId = point.sourceCandleRevisionId &&
  row.point.qualityEventThroughId = point.qualityEventThroughId &&
  row.point.connectionQualityThroughId = point.connectionQualityThroughId &&
  row.point.contentHash = point.contentHash

/-- The query for the parent. -/
def parentMaterialization (rows : List MicrostructureMaterialization) (instrumentId : ℤ)
    (point : MicrostructurePoint) (knowledgeAt : Instant) : Option MicrostructureMaterialization :=
  maxBy (fun row => toLex (row.knowledgeAt, row.id)) (rows.filter fun row =>
    row.instrumentId = instrumentId && row.point.startedAt = point.startedAt &&
    row.point.calculationVersion = point.calculationVersion && row.knowledgeAt ≤ knowledgeAt &&
    row.point.orderbookSnapshotThroughId ≤ point.orderbookSnapshotThroughId &&
    row.point.tradeEventThroughId ≤ point.tradeEventThroughId &&
    row.point.sourceReceiptThroughId ≤ point.sourceReceiptThroughId &&
    row.point.connectionQualityThroughId ≤ point.connectionQualityThroughId &&
    row.point.qualityEventThroughId.getD 0 ≤ point.qualityEventThroughId.getD 0 &&
    point.sourceCandleRevisionId.all fun revision =>
      row.point.sourceCandleRevisionId.all (· ≤ revision))

/-- The row that `_insert_materialization` inserts. -/
def newMaterialization (rows : List MicrostructureMaterialization) (instrumentId marketId : ℤ)
    (point : MicrostructurePoint) (knowledgeAt sourceAsOf : Instant)
    (orderbooks : List MicrostructureOrderbookInput) (trades : List MicrostructureTradeInput)
    (id : ℤ) : MicrostructureMaterialization where
  id := id
  instrumentId := instrumentId
  marketId := marketId
  parentMaterializationId := (parentMaterialization rows instrumentId point knowledgeAt).map
    MicrostructureMaterialization.id
  point := point
  knowledgeAt := knowledgeAt
  sourceAsOf := sourceAsOf
  orderbooks := orderbooks.map fun item => (item.snapshotId, item.sourceReceiptId)
  trades := trades.map fun item => (item.tradeEventId, item.sourceReceiptId)

/-- `_insert_materialization`: the row of the same content stays. -/
def insertMaterialization (db : MicrostructureDatabase) (instrumentId marketId : ℤ)
    (point : MicrostructurePoint) (knowledgeAt sourceAsOf : Instant)
    (orderbooks : List MicrostructureOrderbookInput) (trades : List MicrostructureTradeInput) :
    MicrostructureDatabase :=
  if db.materializations.rows.any fun row => row.sameContent instrumentId point then db
  else { db with
    materializations := db.materializations.insert (newMaterialization db.materializations.rows
      instrumentId marketId point knowledgeAt sourceAsOf orderbooks trades) fun _ => rfl }

/-! ## The worker -/

/-- The row after the work has succeeded. -/
def MicrostructureInvalidation.succeed (now : Instant) (row : MicrostructureInvalidation) :
    MicrostructureInvalidation :=
  { row with
    status := .succeeded
    leaseOwner := none
    leaseExpiresAt := none
    finishedAt := some now }

theorem MicrostructureInvalidation.succeed_id (now : Instant) (row : MicrostructureInvalidation) :
    (row.succeed now).id = row.id := rfl

/-- Readings of the clock in the transaction of the work. -/
structure WorkClock where
  leasedAt : Instant
  releasedAt : Instant
  completedAt : Instant

/-- The evidence of the bucket besides its events. -/
def bucketEvidence (qualities : List (String × ConnectionQualityEvidence))
    (tradeQuality : ConnectionQualityEvidence) (candle : MicrostructureCandleInput) :
    MicrostructureEvidence where
  sourceCandle := some candle
  orderbookQuality :=
    some (((qualities.lookup "orderbook_snapshot").map ConnectionQualityEvidence.quality).getD
      .unverified)
  tradeQuality := some tradeQuality.quality
  connectionQualityThroughId := ((qualities.map fun item => item.2.intervalId).max?).getD 0
  connectionQualitySourceAsOf := (qualities.map fun item => item.2.sourceAsOf).max?
  connectionQualityKnowledgeAt := (qualities.map fun item => item.2.knowledgeAt).max?

/-- The transaction of the work: it is rolled back where the lease is lost, and it leaves the row
to a later claim where its evidence is not there yet. -/
def workInvalidation (sha256 : List ℕ → String) (evidence : EvidenceTables) (clock : WorkClock)
    (db : MicrostructureDatabase) (claimed : ClaimedInvalidation) :
    Except MicrostructureException MicrostructureDatabase := do
  match db.invalidations.rows.find? (fun row => row.live clock.leasedAt claimed) with
  | none => pure db
  | some live =>
    let startedAt := live.key.bucketStartAt
    if db.invalidations.rows.any fun row =>
        row.isOf live.key.instrumentId startedAt && row.id < live.id && row.isActive then
      releasePrecedingFrontier db claimed
    else
      let qualities := connectionQualities evidence.realtime live.marketId startedAt
        (startedAt + minute) live.knowledgeAt live.key.connectionQualityThroughId
      match qualities.lookup "trade_event" with
      | none => releaseForRetry clock.releasedAt db claimed "trade_gap"
      | some tradeQuality =>
        match ← sourceCandleInput evidence live with
        | none => releaseForRetry clock.releasedAt db claimed "candle_unverified"
        | some candle =>
          let orderbooks := orderbookInputs db live
          let trades := tradeInputs db live
          match calculateMicrostructureBucket sha256 startedAt (startedAt + minute) orderbooks
              trades live.frontier (bucketEvidence qualities tradeQuality candle) with
          | .error message => throw (.valueError message)
          | .ok point =>
            match point.sourceAsOf, point.knowledgeAt with
            | some sourceAsOf, some knowledgeAt =>
              let inserted := insertMaterialization db live.key.instrumentId live.marketId point
                knowledgeAt sourceAsOf orderbooks trades
              if db.invalidations.rows.any fun row => row.live clock.completedAt claimed then
                pure { inserted with
                  invalidations := inserted.invalidations.update
                    (fun row => row.live clock.completedAt claimed)
                    (fun row => row.succeed clock.completedAt)
                    (MicrostructureInvalidation.succeed_id clock.completedAt) }
              else pure db
            | _, _ => releaseForRetry clock.releasedAt db claimed "missing_evidence"

/-- The work with its exception handler: an exception of the database or of the connection can be
raised anywhere in it, and where the update of the handler is refused nothing is changed. -/
def runClaimedInvalidation (sha256 : List ℕ → String) (evidence : EvidenceTables)
    (clock : WorkClock) (failedAt : Instant) (db : MicrostructureDatabase)
    (claimed : ClaimedInvalidation) (raised : Option MicrostructureException) :
    MicrostructureDatabase :=
  let worked : Except MicrostructureException MicrostructureDatabase :=
    match raised with
    | some exc => .error exc
    | none => workInvalidation sha256 evidence clock db claimed
  match worked with
  | .ok db => db
  | .error exc =>
    match failInvalidation failedAt db claimed exc with
    | .ok db => db
    | .error _ => db

/-! ## The reader -/

/-- `StoredMicrostructureStatistic`. -/
structure StoredMicrostructureStatistic where
  materializationId : ℤ
  point : MicrostructurePoint
  deriving DecidableEq

/-- `microstructure_projection_ceiling`. -/
def microstructureProjectionCeiling (db : MicrostructureDatabase) (instrumentId : ℤ)
    (asOf : Instant) : ℤ :=
  coalesceMax ((db.materializations.rows.filter fun row =>
    row.instrumentId = instrumentId && row.knowledgeAt ≤ asOf).map MicrostructureMaterialization.id)

/-- The rows that are ranked. -/
def projectedRows (db : MicrostructureDatabase) (instrumentId : ℤ) (startAt endAt asOf : Instant)
    (afterAt : Option Instant) (ceilingId : ℤ) (calculationVersion : Option String) :
    List MicrostructureMaterialization :=
  db.materializations.rows.filter fun row =>
    row.instrumentId = instrumentId && startAt ≤ row.point.startedAt &&
    row.point.startedAt < endAt && afterAt.all (· < row.point.startedAt) &&
    row.knowledgeAt ≤ asOf && row.id ≤ ceilingId &&
    calculationVersion.all (row.point.calculationVersion = ·)

/-- `projection_rank=1`: no row of the bucket is known later, or has a later id. -/
def ranksFirst (rows : List MicrostructureMaterialization) (row : MicrostructureMaterialization) :
    Bool :=
  rows.all fun other => other.point.startedAt = row.point.startedAt →
    toLex (other.knowledgeAt, other.id) ≤ toLex (row.knowledgeAt, row.id)

/-- `read_microstructure_statistics`. -/
def readMicrostructureStatistics (db : MicrostructureDatabase) (instrumentId : ℤ)
    (startAt endAt asOf : Instant) (afterAt : Option Instant) (ceilingId : Option ℤ) (limit : ℕ)
    (calculationVersion : Option String) : List StoredMicrostructureStatistic :=
  let ceiling := ceilingId.getD (microstructureProjectionCeiling db instrumentId asOf)
  let rows := projectedRows db instrumentId startAt endAt asOf afterAt ceiling calculationVersion
  ((sortedBy (fun row => toLex (row.point.startedAt, row.id))
    (rows.filter (ranksFirst rows))).take limit).map fun row => ⟨row.id, row.point⟩

/-! ## Runs -/

/-- The database and the workers that have claimed an invalidation. -/
structure MicrostructureState where
  db : MicrostructureDatabase
  workers : List ClaimedInvalidation

/-- What happens to the database. -/
inductive QueueEvent where
  | snapshotInserted (row : OrderbookSnapshotRow)
  | tradeInserted (row : TradeEventRow)
  | claimed (workerId : String)
  | worked (claimed : ClaimedInvalidation)

/-- One transaction. The receipt of an order book or a trade is inserted with it, and ids are
drawn from sequences. -/
inductive MicrostructureStep (sha256 : List ℕ → String) (evidence : EvidenceTables) :
    MicrostructureState → QueueEvent → MicrostructureState → Prop
  | insertsSnapshot (state : MicrostructureState) (row : OrderbookSnapshotRow) (now : Instant)
      (hmarket : marketOf evidence row.instrumentId = some row.marketId)
      (hid : 0 < row.id ∧ ∀ other ∈ state.db.orderbookSnapshots, other.id < row.id)
      (hreceipt : 0 < row.sourceReceiptId ∧
        ∀ receipt ∈ state.db.receipts, receipt.id < row.sourceReceiptId) :
      MicrostructureStep sha256 evidence state (.snapshotInserted row) {
        state with
        db := enqueueMicrostructureInvalidation evidence now { state.db with
          receipts := state.db.receipts ++ [⟨row.sourceReceiptId, row.instrumentId⟩]
          orderbookSnapshots := state.db.orderbookSnapshots ++ [row] } row.event }
  | insertsTrade (state : MicrostructureState) (row : TradeEventRow) (now : Instant)
      (hmarket : marketOf evidence row.instrumentId = some row.marketId)
      (hid : 0 < row.id ∧ ∀ other ∈ state.db.tradeEvents, other.id < row.id)
      (hreceipt : 0 < row.sourceReceiptId ∧
        ∀ receipt ∈ state.db.receipts, receipt.id < row.sourceReceiptId) :
      MicrostructureStep sha256 evidence state (.tradeInserted row) {
        state with
        db := enqueueMicrostructureInvalidation evidence now { state.db with
          receipts := state.db.receipts ++ [⟨row.sourceReceiptId, row.instrumentId⟩]
          tradeEvents := state.db.tradeEvents ++ [row] } row.event }
  | claims (state : MicrostructureState) (workerId : String) (now : Instant) (locked : ℤ → Bool)
      (claimed : Option ClaimedInvalidation) (db : MicrostructureDatabase)
      (hclaim : claimMicrostructureInvalidation now locked state.db workerId = (claimed, db)) :
      MicrostructureStep sha256 evidence state (.claimed workerId)
        ⟨db, state.workers ++ claimed.toList⟩
  | works (state : MicrostructureState) (i : ℕ) (claimed : ClaimedInvalidation) (clock : WorkClock)
      (failedAt : Instant) (raised : Option MicrostructureException)
      (hworker : state.workers[i]? = some claimed) :
      MicrostructureStep sha256 evidence state (.worked claimed)
        ⟨runClaimedInvalidation sha256 evidence clock failedAt state.db claimed raised,
          state.workers.eraseIdx i⟩

end Goodmoneying.Program
