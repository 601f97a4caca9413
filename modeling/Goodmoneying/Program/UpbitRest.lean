import Mathlib.Data.String.Basic
import Goodmoneying.Program.Reconciliation

/-!
# Applying an Upbit REST order snapshot

`upbit_rest_reconciliation.py`: the answer of an order query is parsed into a snapshot, its
trades sorted; a terminal snapshot becomes a reconciliation request in which the paid fee is
shared out over the trades in proportion to their funds.

The payload is a record of the fields the parser reads, absent ones `none`, with numbers and
times already converted from their texts; the checks on the converted values are the
parser's.
-/

namespace Goodmoneying.Program

open Library

/-! ## Payloads and snapshots -/

/-- One element of `trades` of an order payload. -/
structure RestTradePayload where
  uuid : Option String := none
  side : Option String := none
  price : Option ℚ := none
  volume : Option ℚ := none
  funds : Option ℚ := none
  createdAt : Option Instant := none
  deriving DecidableEq, Repr

/-- The payload of an order query. -/
structure RestOrderPayload where
  market : Option String := none
  uuid : Option String := none
  identifier : Option String := none
  side : Option String := none
  state : Option String := none
  createdAt : Option Instant := none
  remainingVolume : Option ℚ := none
  executedVolume : Option ℚ := none
  paidFee : Option ℚ := none
  smpType : Option String := none
  preventedVolume : Option ℚ := none
  preventedLocked : Option ℚ := none
  tradesCount : Option ℤ := none
  trades : Option (List RestTradePayload) := none
  deriving DecidableEq, Repr

/-- `UpbitRestOrderState`. -/
inductive RestOrderState where
  | wait | watch | trade | done | cancel | prevented | rejected
  deriving DecidableEq, Repr

/-- The text the state is written as. -/
def RestOrderState.text : RestOrderState → String
  | wait => "wait"
  | watch => "watch"
  | trade => "trade"
  | done => "done"
  | cancel => "cancel"
  | prevented => "prevented"
  | rejected => "rejected"

/-- `UpbitRestTradeSnapshot`. -/
structure UpbitRestTradeSnapshot where
  uuid : Option String
  side : Side
  price : ℚ
  volume : ℚ
  funds : Option ℚ
  occurredAt : Instant
  deriving DecidableEq, Repr

/-- `UpbitRestOrderSnapshot`. -/
structure UpbitRestOrderSnapshot where
  market : String
  uuid : String
  identifier : Option String
  side : Side
  state : RestOrderState
  createdAt : Option Instant
  remainingVolume : Option ℚ
  executedVolume : Option ℚ
  paidFee : ℚ
  smpType : Option String
  preventedVolume : ℚ
  preventedLocked : ℚ
  tradesCount : ℤ
  trades : List UpbitRestTradeSnapshot
  knowledgeAt : Instant
  sourceEndpoint : String
  deriving DecidableEq, Repr

/-! ## The parser -/

/-- `_side`. -/
def restSide : Option String → Except StoreError Side
  | some "bid" => .ok .buy
  | some "ask" => .ok .sell
  | _ => .error (.invalidSnapshot "REST order side는 bid 또는 ask여야 한다.")

/-- `_optional_str`. -/
def optionalStr : Option String → Except StoreError (Option String)
  | some "" => .error (.invalidSnapshot "REST 문자열 필드가 비어 있거나 문자열이 아니다.")
  | value => .ok value

/-- `_non_blank` of this module. -/
def restNonBlank (value : Option String) (fieldName : String) : Except StoreError String :=
  match value with
  | none | some "" =>
    .error (.invalidSnapshot (fieldName ++ "은 비어 있지 않은 문자열이어야 한다."))
  | some text => .ok text

/-- `_optional_decimal`. -/
def optionalDecimal (value : Option ℚ) : Except StoreError (Option ℚ) :=
  if value.any fun decimal => decimal < 0 then
    .error (.invalidSnapshot "REST 숫자 필드는 음수일 수 없다.")
  else .ok value

/-- `_positive_decimal` of this module. -/
def restPositiveDecimal (value : Option ℚ) (fieldName : String) : Except StoreError ℚ := do
  match ← optionalDecimal value with
  | none => throw (.invalidSnapshot (fieldName ++ "은 0보다 커야 한다."))
  | some decimal =>
    if decimal ≤ 0 then throw (.invalidSnapshot (fieldName ++ "은 0보다 커야 한다."))
    else pure decimal

/-- `_non_negative_int`. -/
def nonNegativeInt (value : ℤ) (fieldName : String) : Except StoreError ℤ :=
  if value < 0 then .error (.invalidSnapshot (fieldName ++ "은 음수일 수 없다.")) else .ok value

/-- `_state`. -/
def restState : Option String → Except StoreError RestOrderState
  | none => .error (.invalidSnapshot "REST order state는 문자열이어야 한다.")
  | some value =>
    match [RestOrderState.wait, .watch, .trade, .done, .cancel, .prevented, .rejected].find?
        fun state => state.text = value with
    | some state => .ok state
    | none => .error (.invalidSnapshot ("지원하지 않는 REST order state: " ++ value))

/-- `_optional_smp_type`. -/
def optionalSmpType : Option String → Except StoreError (Option String)
  | none => .ok none
  | some value =>
    if value ∈ ["reduce", "cancel_maker", "cancel_taker"] then .ok (some value)
    else .error (.invalidSnapshot
      "REST smp_type은 reduce, cancel_maker, cancel_taker 중 하나여야 한다.")

/-- `ALLOWED_SOURCE_ENDPOINTS`. -/
def allowedSourceEndpoints : List String :=
  ["GET /v1/order", "GET /v1/orders/open", "GET /v1/orders/closed", "GET /v1/orders/uuids"]

/-- `_source_endpoint`. -/
def sourceEndpoint (value : String) : Except StoreError String := do
  let endpoint ← restNonBlank (some value) "source_endpoint"
  if endpoint ∈ allowedSourceEndpoints then pure endpoint
  else throw (.invalidSnapshot "허용되지 않은 Upbit 주문조회 endpoint다.")

/-- `_trade_snapshot`. -/
def tradeSnapshot (fallbackSide : Side) (fallbackOccurredAt : Option Instant)
    (payload : RestTradePayload) : Except StoreError UpbitRestTradeSnapshot := do
  match payload.createdAt.or fallbackOccurredAt with
  | none => throw (.invalidSnapshot "REST trade created_at이 없다.")
  | some occurredAt =>
    let uuid ← optionalStr payload.uuid
    let side ← if payload.side.isSome then restSide payload.side else .ok fallbackSide
    let price ← restPositiveDecimal payload.price "trades.price"
    let volume ← restPositiveDecimal payload.volume "trades.volume"
    let funds ← optionalDecimal payload.funds
    pure {
      uuid := uuid
      side := side
      price := price
      volume := volume
      funds := funds
      occurredAt := occurredAt }

/-- The sort key of the trades. -/
def tradeSortKey (trade : UpbitRestTradeSnapshot) : Instant ×ₗ (String ×ₗ (ℚ ×ₗ ℚ)) :=
  toLex (trade.occurredAt, toLex (trade.uuid.getD "", toLex (trade.price, trade.volume)))

/-- `parse_upbit_rest_order_snapshot`. -/
def parseUpbitRestOrderSnapshot (payload : RestOrderPayload) (knowledgeAt : Instant)
    (endpoint : String) : Except StoreError UpbitRestOrderSnapshot := do
  let endpoint ← sourceEndpoint endpoint
  let fallbackSide ← restSide payload.side
  let unsorted ← (payload.trades.getD []).mapM (tradeSnapshot fallbackSide payload.createdAt)
  let trades := sortedBy tradeSortKey unsorted
  let tradesCount ← nonNegativeInt (payload.tradesCount.getD trades.length) "trades_count"
  if tradesCount ≠ trades.length then
    throw (.invalidSnapshot "Upbit REST trades_count와 trades 개수가 다르다.")
  let market ← restNonBlank payload.market "market"
  let uuid ← restNonBlank payload.uuid "uuid"
  let identifier ← optionalStr payload.identifier
  let state ← restState payload.state
  let remainingVolume ← optionalDecimal payload.remainingVolume
  let executedVolume ← optionalDecimal payload.executedVolume
  let paidFee ← optionalDecimal payload.paidFee
  let smpType ← optionalSmpType payload.smpType
  let preventedVolume ← optionalDecimal payload.preventedVolume
  let preventedLocked ← optionalDecimal payload.preventedLocked
  if (state = .done ∨ state = .cancel) ∧ executedVolume.getD 0 > 0 ∧ trades = [] then
    throw (.invalidSnapshot "체결량이 있는 terminal REST snapshot은 trades를 포함해야 한다.")
  pure {
    market := market
    uuid := uuid
    identifier := identifier
    side := fallbackSide
    state := state
    createdAt := payload.createdAt
    remainingVolume := remainingVolume
    executedVolume := executedVolume
    paidFee := paidFee.getD 0
    smpType := smpType
    preventedVolume := preventedVolume.getD 0
    preventedLocked := preventedLocked.getD 0
    tradesCount := tradesCount
    trades := trades
    knowledgeAt := knowledgeAt
    sourceEndpoint := endpoint }

/-! ## The plan -/

/-- `UpbitRestObservedStatus`. -/
inductive RestObservedStatus where
  | working | partialFill | done | cancel | prevented | rejected
  deriving DecidableEq, Repr

/-- The text the status is written as. -/
def RestObservedStatus.text : RestObservedStatus → String
  | working => "working"
  | partialFill => "partial_fill"
  | done => "done"
  | cancel => "cancel"
  | prevented => "prevented"
  | rejected => "rejected"

/-- `_observed_status`. -/
def observedStatus (snapshot : UpbitRestOrderSnapshot) : RestObservedStatus :=
  match snapshot.state with
  | .wait | .watch => .working
  | .trade => if snapshot.remainingVolume.getD 0 > 0 then .partialFill else .working
  | .done => .done
  | .cancel => .cancel
  | .prevented => .prevented
  | .rejected => .rejected

/-- `UpbitRestLedgerAction`. -/
inductive LedgerAction where
  | apply | observeOnly
  deriving DecidableEq, Repr

/-- `UpbitRestReconciliationPlan`. -/
structure UpbitRestReconciliationPlan where
  observedStatus : RestObservedStatus
  ledgerAction : LedgerAction
  canResubmit : Bool
  reason : String
  deriving DecidableEq, Repr

/-- `plan_upbit_rest_snapshot_reconciliation`. -/
def planUpbitRestSnapshotReconciliation (snapshot : UpbitRestOrderSnapshot) :
    UpbitRestReconciliationPlan :=
  let status := observedStatus snapshot
  let action : LedgerAction :=
    if status ∈ [.done, .cancel, .prevented, .rejected] then .apply else .observeOnly
  { observedStatus := status
    ledgerAction := action
    canResubmit := false
    reason :=
      if action = .apply then "upbit_rest_terminal_snapshot"
      else "upbit_rest_working_snapshot_observe_only" }

/-! ## The request -/

/-- The shares of the loop of `_distributed_fees`: `assigned` is shared out already, and the
last trade gets what is left. -/
def feeShares (ar : Arithmetic) (paidFee totalFunds : ℚ) : ℚ → List ℚ → List ℚ
  | _, [] => []
  | assigned, [_] => [ar.sub paidFee assigned]
  | assigned, fund :: funds =>
    let fee := ar.div (ar.mul paidFee fund) totalFunds
    fee :: feeShares ar paidFee totalFunds (ar.add assigned fee) funds

/-- `_distributed_fees`. -/
def distributedFees (ar : Arithmetic) (snapshot : UpbitRestOrderSnapshot) :
    Except StoreError (List ℚ) :=
  if snapshot.trades = [] then .ok []
  else if snapshot.paidFee = 0 then .ok (snapshot.trades.map fun _ => 0)
  else if snapshot.trades.length = 1 then .ok [snapshot.paidFee]
  else
    let funds := snapshot.trades.map UpbitRestTradeSnapshot.funds
    if funds.any Option.isNone then
      .error (.invalidSnapshot "다중 체결 fee 분배에는 각 trade funds가 필요하다.")
    else
      let funds := funds.map fun fund => fund.getD 0
      let totalFunds := ar.sum funds
      if totalFunds ≤ 0 then
        .error (.invalidSnapshot "다중 체결 funds 합계는 0보다 커야 한다.")
      else .ok (feeShares ar snapshot.paidFee totalFunds 0 funds)

/-- An optional text of an evidence payload. -/
def optionalText : Option String → CanonicalValue
  | some text => .text text
  | none => .null

/-- The entries that the evidence of a fill and of a request share after their first ones;
a decimal's text is taken by its value. -/
def snapshotEvidence (snapshot : UpbitRestOrderSnapshot) : List (String × CanonicalValue) :=
  [("state", .text snapshot.state.text),
    ("paidFee", .decimal snapshot.paidFee),
    ("smpType", optionalText snapshot.smpType),
    ("preventedVolume", .decimal snapshot.preventedVolume),
    ("preventedLocked", .decimal snapshot.preventedLocked),
    ("tradesCount", .int snapshot.tradesCount)]

/-- One element of `_reconciliation_fills`. -/
def reconciliationFill (snapshot : UpbitRestOrderSnapshot) (trade : UpbitRestTradeSnapshot)
    (fee : ℚ) (index : ℕ) : ObservedFill where
  fillSequence := index
  side := trade.side.text
  filledQuantity := trade.volume
  fillPrice := trade.price
  feePaid := some fee
  occurredAt := trade.occurredAt
  knowledgeAt := snapshot.knowledgeAt
  evidence := [
    ("source", .text "upbit-rest-order-snapshot"),
    ("sourceEndpoint", .text snapshot.sourceEndpoint),
    ("orderUuid", .text snapshot.uuid),
    ("identifier", optionalText snapshot.identifier),
    ("tradeUuid", optionalText trade.uuid),
    ("market", .text snapshot.market)] ++ snapshotEvidence snapshot

/-- `_reconciliation_fills`. -/
def reconciliationFills (ar : Arithmetic) (snapshot : UpbitRestOrderSnapshot) :
    Except StoreError (List ObservedFill) := do
  let fees ← distributedFees ar snapshot
  pure (((snapshot.trades.zip fees).zipIdx 1).map fun item =>
    reconciliationFill snapshot item.1.1 item.1.2 item.2)

/-- What `build_upbit_rest_reconciliation_request` returns. -/
structure RestReconciliationRequest where
  observedStatus : RestObservedStatus
  fills : List ObservedFill
  evidence : List (String × CanonicalValue)

/-- `build_upbit_rest_reconciliation_request`. -/
def buildUpbitRestReconciliationRequest (ar : Arithmetic) (snapshot : UpbitRestOrderSnapshot) :
    Except StoreError RestReconciliationRequest := do
  let plan := planUpbitRestSnapshotReconciliation snapshot
  if plan.ledgerAction ≠ .apply then
    throw (.invalidSnapshot "진행 중 REST snapshot은 기존 terminal 대사 원장에 적용하지 않는다.")
  let fills ← reconciliationFills ar snapshot
  pure {
    observedStatus := plan.observedStatus
    fills := fills
    evidence := [
      ("source", .text "upbit-rest-order-snapshot"),
      ("sourceEndpoint", .text snapshot.sourceEndpoint),
      ("market", .text snapshot.market),
      ("orderUuid", .text snapshot.uuid),
      ("identifier", optionalText snapshot.identifier)] ++ snapshotEvidence snapshot ++
      [("canResubmit", .bool false)] }

/-- What `apply_upbit_rest_order_snapshot` returns: an observation of a working order, or the
run of the reconciliation. -/
inductive SnapshotApplication where
  | observed (exchangeOrderId : ℤ) (status : RestObservedStatus) (sourceEndpoint : String)
  | reconciled (run : ReconciliationRun)

/-- `apply_upbit_rest_order_snapshot`, on the store of `reconcileExchangeOrder`. -/
def applyUpbitRestOrderSnapshot (ar : Arithmetic) (hash : CanonicalValue → String)
    (now : Instant) (db : OrderDatabase) (exchangeOrderId : ℤ) (runKey actorId reason : String)
    (payload : RestOrderPayload) (knowledgeAt : Instant) (endpoint : String) :
    Except StoreError (SnapshotApplication × OrderDatabase) := do
  let snapshot ← parseUpbitRestOrderSnapshot payload knowledgeAt endpoint
  let plan := planUpbitRestSnapshotReconciliation snapshot
  if plan.ledgerAction = .observeOnly then
    pure (.observed exchangeOrderId plan.observedStatus snapshot.sourceEndpoint, db)
  else
    let request ← buildUpbitRestReconciliationRequest ar snapshot
    let (run, db) ← reconcileExchangeOrder ar hash now db exchangeOrderId runKey actorId reason
      request.observedStatus.text request.fills request.evidence
    pure (.reconciled run, db)

end Goodmoneying.Program
