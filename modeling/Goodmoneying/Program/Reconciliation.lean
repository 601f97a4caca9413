import Goodmoneying.Library.StableSort
import Goodmoneying.Program.PositionProjection

/-!
# Reconciling an exchange order

`reconcile_exchange_order` of `portfolio_bot_store.py`: what the exchange reports of an
order, its status and its fills, is compared with the fills on record. A contradiction is
recorded as a `mismatch`; otherwise the fills that are not on record yet are inserted and
carried into the position projection.

A function of the database returns the database after its transaction; an exception rolls the
transaction back, so it carries no database. The deferred triggers on live orders are
evaluated when the caller commits and are not part of these functions.
-/

namespace Goodmoneying.Program

open Library

/-! ## Observations -/

/-- The allowed values of `observedStatus`. -/
inductive ObservedStatus where
  | done | cancel | prevented | rejected | outcomeUnknown | missing
  deriving DecidableEq, Repr

/-- The text the status is written as. -/
def ObservedStatus.text : ObservedStatus → String
  | done => "done"
  | cancel => "cancel"
  | prevented => "prevented"
  | rejected => "rejected"
  | outcomeUnknown => "outcome_unknown"
  | missing => "missing"

/-- `_observed_reconciliation_status`. -/
def observedReconciliationStatus (value : String) : Except StoreError ObservedStatus := do
  let status ← nonBlank value "observedStatus"
  match [ObservedStatus.done, .cancel, .prevented, .rejected, .outcomeUnknown, .missing].find?
      fun allowed => allowed.text = status with
  | some allowed => pure allowed
  | none => throw (.valueError "observedStatus는 지원하는 대사 상태여야 한다.")

/-- One element of the argument `fills`. -/
structure ObservedFill where
  fillSequence : ℤ
  side : String
  filledQuantity : ℚ
  fillPrice : ℚ
  feePaid : Option ℚ := none
  occurredAt : Instant
  knowledgeAt : Instant
  evidence : List (String × CanonicalValue) := []

/-- A valid fill: what `_reconciliation_fill_payload` returns. -/
structure FillPayload where
  fillSequence : ℤ
  side : Side
  filledQuantity : ℚ
  fillPrice : ℚ
  feePaid : ℚ
  occurredAt : Instant
  knowledgeAt : Instant
  evidence : List (String × CanonicalValue)
  sequence_pos : 1 ≤ fillSequence
  quantity_pos : 0 < filledQuantity
  price_pos : 0 < fillPrice
  fee_nonneg : 0 ≤ feePaid
  known_after : occurredAt ≤ knowledgeAt

/-- `_reconciliation_fill_payload`. -/
def reconciliationFillPayload (fill : ObservedFill) : Except StoreError FillPayload :=
  if hsequence : fill.fillSequence < 1 then
    .error (.valueError "fillSequence는 1 이상이어야 한다.")
  else
    match sideOf fill.side with
    | .error error => .error error
    | .ok side =>
      if hknown : fill.knowledgeAt < fill.occurredAt then
        .error (.valueError "knowledgeAt은 occurredAt보다 빠를 수 없다.")
      else if hquantity : fill.filledQuantity ≤ 0 then .error (notPositive "filledQuantity")
      else if hprice : fill.fillPrice ≤ 0 then .error (notPositive "fillPrice")
      else if hfee : fill.feePaid.getD 0 < 0 then .error (isNegative "feePaid")
      else .ok {
        fillSequence := fill.fillSequence
        side := side
        filledQuantity := fill.filledQuantity
        fillPrice := fill.fillPrice
        feePaid := fill.feePaid.getD 0
        occurredAt := fill.occurredAt
        knowledgeAt := fill.knowledgeAt
        evidence := fill.evidence
        sequence_pos := not_lt.mp hsequence
        quantity_pos := not_le.mp hquantity
        price_pos := not_le.mp hprice
        fee_nonneg := not_lt.mp hfee
        known_after := not_lt.mp hknown }

/-- `_reconciliation_fill_hash_payload`; a decimal's text is taken by its value. -/
def reconciliationFillHashPayload (fill : FillPayload) : CanonicalValue :=
  .mapping [
    ("fillSequence", .int fill.fillSequence),
    ("side", .text fill.side.text),
    ("filledQuantity", .decimal fill.filledQuantity),
    ("fillPrice", .decimal fill.fillPrice),
    ("feePaid", .decimal fill.feePaid),
    ("occurredAt", .datetime fill.occurredAt),
    ("knowledgeAt", .datetime fill.knowledgeAt),
    ("evidence", .mapping fill.evidence)]

/-! ## Runs and risk events -/

/-- `reconciliation_runs.status`. -/
inductive RunStatus where
  | succeeded | mismatch | outcomeUnknown
  deriving DecidableEq, Repr

/-- A row of `reconciliation_runs`, and `_reconciliation_run_summary` of it. -/
structure ReconciliationRun where
  id : ℤ
  exchangeOrderId : ℤ
  runKey : String
  status : RunStatus
  observedStatus : ObservedStatus
  observedFillCount : ℕ
  requestHash : String
  actorId : String
  reason : String
  evidence : List (String × CanonicalValue)
  completedAt : Instant

/-- A row of `risk_events` with the scope of a bot. -/
structure RiskEvent where
  orderIntentId : ℤ
  botInstanceId : ℤ
  scopeKey : String
  eventType : String
  severity : String
  fingerprint : String
  message : String
  evidence : List (String × CanonicalValue)

/-- The tables a reconciliation reads and writes. -/
structure OrderDatabase where
  orderIntents : ℤ → Option OrderIntent
  botInstances : ℤ → Option BotInstance
  exchangeOrders : OrderTable
  orderFills : FillTable
  positionProjections : PositionTable
  reconciliationRuns : List ReconciliationRun
  nextRunId : ℤ
  riskEvents : List RiskEvent

/-- The row of `_locked_exchange_order_for_reconciliation`. -/
structure LockedOrder where
  id : ℤ
  orderIntentId : ℤ
  instrumentId : ℤ
  botInstanceId : ℤ
  portfolioId : ℤ
  deriving DecidableEq, Repr

/-- The join of `_locked_exchange_order_for_reconciliation`. -/
def lockedOrder? (db : OrderDatabase) (exchangeOrderId : ℤ) : Option LockedOrder := do
  let exchange ← db.exchangeOrders.find exchangeOrderId
  let intent ← db.orderIntents exchange.orderIntentId
  let botInstance ← db.botInstances intent.botInstanceId
  pure {
    id := exchangeOrderId
    orderIntentId := exchange.orderIntentId
    instrumentId := intent.instrumentId
    botInstanceId := intent.botInstanceId
    portfolioId := botInstance.portfolioId }

/-- `_locked_exchange_order_for_reconciliation`. -/
def lockedExchangeOrderForReconciliation (db : OrderDatabase) (exchangeOrderId : ℤ) :
    Except StoreError LockedOrder :=
  match lockedOrder? db exchangeOrderId with
  | some order => .ok order
  | none => .error (.leaseLost "대사 가능한 exchange order가 없다.")

/-- `{**entries, key: value}`. -/
def withEntry (entries : List (String × CanonicalValue)) (key : String)
    (value : CanonicalValue) : List (String × CanonicalValue) :=
  if entries.any fun entry => entry.1 = key then
    entries.map fun entry => if entry.1 = key then (key, value) else entry
  else entries ++ [(key, value)]

/-- What identifies a reconciliation and is recorded with it. -/
structure RunRequest where
  key : String
  actor : String
  runReason : String
  observed : ObservedStatus
  fillPayloads : List FillPayload
  evidencePayload : List (String × CanonicalValue)
  requestHash : String

/-- The row of `_insert_reconciliation_run`. -/
def reconciliationRun (db : OrderDatabase) (now : Instant) (orderId : ℤ) (request : RunRequest)
    (status : RunStatus) (evidence : List (String × CanonicalValue)) : ReconciliationRun where
  id := db.nextRunId
  exchangeOrderId := orderId
  runKey := request.key
  status := status
  observedStatus := request.observed
  observedFillCount := request.fillPayloads.length
  requestHash := request.requestHash
  actorId := request.actor
  reason := request.runReason
  evidence := evidence
  completedAt := now

/-- `_insert_reconciliation_run`. -/
def insertReconciliationRun (db : OrderDatabase) (run : ReconciliationRun) : OrderDatabase :=
  { db with
    reconciliationRuns := db.reconciliationRuns ++ [run]
    nextRunId := db.nextRunId + 1 }

/-- `_insert_reconciliation_risk_event`, skipped when its fingerprint is on record. -/
def insertReconciliationRiskEvent (db : OrderDatabase) (order : LockedOrder)
    (run : ReconciliationRun) (eventType severity message : String) : OrderDatabase :=
  let event : RiskEvent := {
    orderIntentId := order.orderIntentId
    botInstanceId := order.botInstanceId
    scopeKey := toString order.botInstanceId
    eventType := eventType
    severity := severity
    fingerprint :=
      "reconciliation-v1:" ++ toString order.id ++ ":" ++ run.runKey ++ ":" ++ eventType
    message := message
    evidence := [
      ("reconciliationRunId", .int run.id),
      ("exchangeOrderId", .int order.id),
      ("runKey", .text run.runKey),
      ("observedStatus", .text run.observedStatus.text)] }
  if db.riskEvents.any fun other =>
      other.scopeKey = event.scopeKey ∧ other.fingerprint = event.fingerprint then db
  else { db with riskEvents := db.riskEvents ++ [event] }

/-! ## The comparison -/

/-- `_same_fill`. -/
def sameFill (existing : OrderFill) (observed : FillPayload) : Bool :=
  existing.side = observed.side ∧ existing.filledQuantity = observed.filledQuantity ∧
  existing.fillPrice = observed.fillPrice ∧ existing.feePaid = observed.feePaid

/-- The comparison loop: the first contradiction, if any. `seen` holds the sequences of the
rounds before. -/
def findMismatch (existingFills : List OrderFill) :
    List ℤ → List FillPayload → Option (List (String × CanonicalValue))
  | _, [] => none
  | seen, fill :: fills =>
    if fill.fillSequence ∈ seen then
      some [("fillSequence", .int fill.fillSequence),
        ("reason", .text "duplicate observed fill")]
    else
      match existingFills.find? fun row => row.fillSequence = fill.fillSequence with
      | some existing =>
        if sameFill existing fill then
          findMismatch existingFills (fill.fillSequence :: seen) fills
        else
          some [("fillSequence", .int fill.fillSequence), ("existingFillId", .int existing.id)]
      | none =>
        if existingFills.any fun row => row.fillSequence > fill.fillSequence then
          some [("fillSequence", .int fill.fillSequence),
            ("reason", .text "late fill before existing higher sequence")]
        else findMismatch existingFills (fill.fillSequence :: seen) fills

/-! ## The insertion of new fills -/

/-- The tables and the count that the insertion loop changes. -/
structure InsertionState where
  orderFills : FillTable
  positionProjections : PositionTable
  insertedFillCount : ℕ

/-- The values inserted for a reported fill. -/
def reconciliationFillValues (orderId : ℤ) (fill : FillPayload) : FillValues where
  exchangeOrderId := orderId
  fillSequence := fill.fillSequence
  fillSource := .reconciliation
  side := fill.side
  filledQuantity := fill.filledQuantity
  fillPrice := fill.fillPrice
  feePaid := fill.feePaid
  occurredAt := fill.occurredAt
  knowledgeAt := fill.knowledgeAt
  evidence := fill.evidence

/-- One round of the insertion loop. -/
def insertNewFill (ar : Arithmetic) (order : LockedOrder) (existingFills : List OrderFill)
    (state : InsertionState) (fill : FillPayload) : Except StoreError InsertionState :=
  if existingFills.any fun row => row.fillSequence = fill.fillSequence then .ok state
  else do
    let (inserted, orderFills) ←
      state.orderFills.insert ar (reconciliationFillValues order.id fill)
    let positionProjections ← state.positionProjections.upsert ar order.portfolioId
      order.instrumentId fill.side fill.filledQuantity fill.fillPrice inserted.id
    pure {
      orderFills := orderFills
      positionProjections := positionProjections
      insertedFillCount := state.insertedFillCount + 1 }

/-- The insertion loop. -/
def insertNewFills (ar : Arithmetic) (order : LockedOrder) (existingFills : List OrderFill)
    (state : InsertionState) (fillPayloads : List FillPayload) :
    Except StoreError InsertionState :=
  fillPayloads.foldlM (insertNewFill ar order existingFills) state

/-! ## The reconciliation -/

/-- `exchange_orders` and `order_intents` after the order got a reconciled status. -/
def markOrder (db : OrderDatabase) (now : Instant) (order : LockedOrder)
    (orderStatus : OrderStatus) (intentStatus : IntentStatus) : OrderDatabase :=
  { db with
    exchangeOrders := db.exchangeOrders.reconcile order.id orderStatus now
    orderIntents := setIntentStatus db.orderIntents order.orderIntentId intentStatus }

/-- `observed in {"outcome_unknown", "missing"} and not fill_payloads`. -/
def RunRequest.nothingObserved (request : RunRequest) : Bool :=
  (request.observed = .outcomeUnknown || request.observed = .missing) &&
    request.fillPayloads.isEmpty

/-- The branch for an order the exchange does not know. -/
def recordOutcomeUnknown (db : OrderDatabase) (now : Instant) (order : LockedOrder)
    (request : RunRequest) : ReconciliationRun × OrderDatabase :=
  let run := reconciliationRun db now order.id request .outcomeUnknown request.evidencePayload
  let db := markOrder (insertReconciliationRun db run) now order .outcomeUnknown .outcomeUnknown
  (run, insertReconciliationRiskEvent db order run "outcome_unknown" "warning"
    "대사 결과 주문 결과가 불명확하다.")

/-- The branch for a contradiction. -/
def recordMismatch (db : OrderDatabase) (now : Instant) (order : LockedOrder)
    (request : RunRequest) (mismatch : List (String × CanonicalValue)) :
    ReconciliationRun × OrderDatabase :=
  let run := reconciliationRun db now order.id request .mismatch
    (withEntry request.evidencePayload "mismatch" (.mapping mismatch))
  (run, insertReconciliationRiskEvent (insertReconciliationRun db run) order run
    "reconciliation_mismatch" "critical" "대사 결과 기존 체결과 관측 체결이 불일치한다.")

/-- The branch after the insertion of the new fills. -/
def recordSucceeded (db : OrderDatabase) (now : Instant) (order : LockedOrder)
    (request : RunRequest) (inserted : InsertionState) : ReconciliationRun × OrderDatabase :=
  let db := markOrder
    { db with
      orderFills := inserted.orderFills
      positionProjections := inserted.positionProjections } now order .reconciled .reconciled
  let run := reconciliationRun db now order.id request .succeeded
    (withEntry request.evidencePayload "insertedFillCount" (.int inserted.insertedFillCount))
  (run, insertReconciliationRun db run)

/-- The tables before the insertion loop. -/
def insertionStart (db : OrderDatabase) : InsertionState where
  orderFills := db.orderFills
  positionProjections := db.positionProjections
  insertedFillCount := 0

/-- The run on record under a key, if any. -/
def existingRun? (db : OrderDatabase) (orderId : ℤ) (key : String) : Option ReconciliationRun :=
  db.reconciliationRuns.find? fun run => run.exchangeOrderId = orderId ∧ run.runKey = key

/-- `_reconcile_exchange_order_in_connection`. -/
def reconcileExchangeOrderInConnection (ar : Arithmetic) (now : Instant) (db : OrderDatabase)
    (orderId : ℤ) (request : RunRequest) :
    Except StoreError (ReconciliationRun × OrderDatabase) :=
  match existingRun? db orderId request.key with
  | some existingRun =>
    if existingRun.requestHash ≠ request.requestHash then
      .error (.idempotencyConflict "같은 대사 run key가 다른 관측 payload로 재사용됐다.")
    else .ok (existingRun, db)
  | none => do
    let order ← lockedExchangeOrderForReconciliation db orderId
    if request.nothingObserved then
      pure (recordOutcomeUnknown db now order request)
    else
      let existingFills := db.orderFills.ofOrder orderId
      match findMismatch existingFills [] request.fillPayloads with
      | some mismatch => pure (recordMismatch db now order request mismatch)
      | none =>
        let inserted ← insertNewFills ar order existingFills (insertionStart db)
          request.fillPayloads
        pure (recordSucceeded db now order request inserted)

/-- The reconciliation of valid arguments, with the hash of the whole request. -/
def runRequest (hash : CanonicalValue → String) (exchangeOrderId : ℤ)
    (key actor runReason : String) (observed : ObservedStatus) (fillPayloads : List FillPayload)
    (evidence : List (String × CanonicalValue)) : RunRequest where
  key := key
  actor := actor
  runReason := runReason
  observed := observed
  fillPayloads := fillPayloads
  evidencePayload := evidence
  requestHash := hash (.mapping [
    ("exchangeOrderId", .int exchangeOrderId),
    ("runKey", .text key),
    ("observedStatus", .text observed.text),
    ("fills", .list (fillPayloads.map reconciliationFillHashPayload)),
    ("evidence", .mapping evidence)])

/-- The arguments of `reconcile_exchange_order`, validated; the fills are sorted by their
sequence. -/
def reconciliationRequest (hash : CanonicalValue → String) (exchangeOrderId : ℤ)
    (runKey actorId reason observedStatus : String) (fills : List ObservedFill)
    (evidence : List (String × CanonicalValue)) : Except StoreError RunRequest := do
  let key ← nonBlank runKey "runKey"
  let actor ← nonBlank actorId "actorId"
  let runReason ← nonBlank reason "reason"
  let observed ← observedReconciliationStatus observedStatus
  let payloads ← fills.mapM reconciliationFillPayload
  pure (runRequest hash exchangeOrderId key actor runReason observed
    (sortedBy FillPayload.fillSequence payloads) evidence)

/-- `reconcile_exchange_order`. -/
def reconcileExchangeOrder (ar : Arithmetic) (hash : CanonicalValue → String) (now : Instant)
    (db : OrderDatabase) (exchangeOrderId : ℤ) (runKey actorId reason observedStatus : String)
    (fills : List ObservedFill) (evidence : List (String × CanonicalValue)) :
    Except StoreError (ReconciliationRun × OrderDatabase) := do
  let request ← reconciliationRequest hash exchangeOrderId runKey actorId reason observedStatus
    fills evidence
  reconcileExchangeOrderInConnection ar now db exchangeOrderId request

end Goodmoneying.Program
