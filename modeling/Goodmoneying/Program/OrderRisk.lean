import Goodmoneying.Library.KeyedTable
import Goodmoneying.Program.PaperExecution

/-!
# The risk decision on an order intent

`evaluate_next_order_intent_risk` of `portfolio_bot_store.py`: the oldest created intent is
approved where no kill switch is armed and every limit that covers it is kept, and an approved
intent of a paper bot gets an execution job.

The function is one transaction. A kill switch is named in the evidence by its scope and sequence,
which are unique.
-/

namespace Goodmoneying.Program

open Library

variable (ar : Arithmetic) (now : Instant)

/-! ## Tables -/

/-- A row of `order_intents`, with what its `CHECK` constraints say of the amounts. -/
structure RiskIntent extends OrderIntent where
  id : ℤ
  limitPrice : Option ℚ
  decisionInputHash : String
  riskPolicyVersion : Option ℤ
  riskDecisionReason : Option String
  createdAt : Instant
  requested : requestedQuantity ≠ none ∨ requestedNotional ≠ none
  quantity_pos : ∀ quantity ∈ requestedQuantity, 0 < quantity
  notional_pos : ∀ notional ∈ requestedNotional, 0 < notional
  price_pos : ∀ price ∈ limitPrice, 0 < price

/-- `risk_limits.limit_type`. -/
inductive RiskLimitType where
  | maxOrderNotional | maxDailyLoss | maxPositionNotional | maxDrawdown | maxOpenOrders
  deriving DecidableEq, Repr

def RiskLimitType.text : RiskLimitType → String
  | maxOrderNotional => "max_order_notional"
  | maxDailyLoss => "max_daily_loss"
  | maxPositionNotional => "max_position_notional"
  | maxDrawdown => "max_drawdown"
  | maxOpenOrders => "max_open_orders"

/-- `risk_limits.status`. -/
inductive RiskLimitStatus where
  | active | retired
  deriving DecidableEq, Repr

/-- A row of `risk_limits`. -/
structure RiskLimit where
  id : ℤ
  scopeType : String
  scopeKey : String
  limitType : RiskLimitType
  version : ℤ
  limitValue : ℚ
  status : RiskLimitStatus
  deriving DecidableEq, Repr

/-- What `DISTINCT ON` distinguishes. -/
def RiskLimit.group (row : RiskLimit) : String × String × RiskLimitType :=
  (row.scopeType, row.scopeKey, row.limitType)

/-- The columns of `UNIQUE (scope_type, scope_key, limit_type, version)`. -/
def RiskLimit.uniqueKey (row : RiskLimit) : (String × String × RiskLimitType) × ℤ :=
  (row.group, row.version)

/-- `riskEvidence`. -/
inductive RiskEvidence where
  | killSwitch (scopeType scopeKey : String) (sequence : ℤ)
  | limit (limitId : ℤ) (limitType : RiskLimitType) (limitValue : ℚ)
  | approved (limitCount : ℕ) (executionMode : ExecutionMode)
  deriving DecidableEq, Repr

/-- `risk_events.event_type`, of the events of a decision. -/
inductive RiskEventType where
  | policyApproved | limitRejected | killSwitchRejected
  deriving DecidableEq, Repr

/-- `risk_events.severity`. -/
inductive RiskSeverity where
  | info | warning | critical
  deriving DecidableEq, Repr

/-- A row of `risk_events` of a decision. -/
structure RiskDecisionEvent where
  orderIntentId : ℤ
  botInstanceId : ℤ
  scopeType : String
  scopeKey : String
  eventType : RiskEventType
  severity : RiskSeverity
  fingerprint : String
  riskPolicyVersion : ℤ
  message : String
  workerId : String
  decisionInputHash : String
  orderNotional : Option ℚ
  riskEvidence : RiskEvidence
  deriving DecidableEq, Repr

/-- The columns of `UNIQUE (scope_type, scope_key, fingerprint)`. -/
def RiskDecisionEvent.uniqueKey (row : RiskDecisionEvent) : String × String × String :=
  (row.scopeType, row.scopeKey, row.fingerprint)

/-- The tables of the risk decision. -/
structure RiskDatabase where
  orderIntents : KeyedTable RiskIntent.id
  botInstances : ℤ → Option BotInstance
  killSwitches : List KillSwitch
  riskLimits : KeyedTable RiskLimit.uniqueKey
  riskEvents : KeyedTable RiskDecisionEvent.uniqueKey
  jobs : JobTable
  nextJobId : ℤ

/-! ## Limits -/

/-- `_active_risk_limits`: the latest version of each active limit of the scopes. -/
def activeRiskLimits (limits : List RiskLimit) (scopes : List (String × String)) :
    List RiskLimit :=
  distinctOn RiskLimit.group (sortedBy
    (fun row => toLex (row.scopeType, toLex (row.scopeKey, toLex (row.limitType.text,
      toLex (-row.version, -row.id)))))
    (limits.filter fun row =>
      (row.scopeType, row.scopeKey) ∈ scopes && row.status = .active))

/-- `_order_notional`. -/
def orderNotional (intent : RiskIntent) : Except StoreError (Option ℚ) :=
  match intent.requestedQuantity, intent.limitPrice with
  | some quantity, some price => do
    let quantity ← positiveDecimal quantity "requestedQuantity"
    let price ← positiveDecimal price "limitPrice"
    let computed := ar.mul quantity price
    match intent.requestedNotional with
    | some notional =>
      let notional ← positiveDecimal notional "requestedNotional"
      pure (if notional ≠ computed then none else some computed)
    | none => pure (some computed)
  | _, _ =>
    match intent.requestedNotional with
    | some notional => some <$> positiveDecimal notional "requestedNotional"
    | none => pure none

/-! ## The decision -/

/-- What `_risk_decision` returns. -/
structure RiskDecision where
  status : IntentStatus
  eventType : RiskEventType
  severity : RiskSeverity
  scopeType : String
  scopeKey : String
  riskPolicyVersion : ℤ
  reason : String
  message : String
  orderNotional : Option ℚ
  evidence : RiskEvidence
  deriving DecidableEq, Repr

/-- `_limit_rejected_decision`. -/
def limitRejectedDecision (limit : RiskLimit) (policyVersion : ℤ) (orderNotional : Option ℚ)
    (message : String) : RiskDecision where
  status := .riskRejected
  eventType := .limitRejected
  severity := .warning
  scopeType := limit.scopeType
  scopeKey := limit.scopeKey
  riskPolicyVersion := policyVersion
  reason := "risk limit rejected: " ++ limit.limitType.text
  message := message
  orderNotional := orderNotional
  evidence := .limit limit.id limit.limitType limit.limitValue

/-- What one limit makes of the order, if it rejects it. -/
def limitRejection? (limit : RiskLimit) (policyVersion : ℤ) (orderNotional : Option ℚ) :
    Option RiskDecision :=
  if limit.limitType ≠ .maxOrderNotional then
    some (limitRejectedDecision limit policyVersion orderNotional
      "P5-4는 해당 위험 한도 계산 증적을 아직 갖고 있지 않다.")
  else
    match orderNotional with
    | none => some (limitRejectedDecision limit policyVersion orderNotional
        "주문 명목 금액을 계산할 수 없다.")
    | some notional =>
      if limit.limitValue < notional then
        some (limitRejectedDecision limit policyVersion orderNotional
          "주문 명목 금액이 max_order_notional 한도를 초과했다.")
      else none

def ExecutionMode.text : ExecutionMode → String
  | paper => "paper"
  | shadow => "shadow"
  | live => "live"

/-- `_risk_decision`, from the switch and the limits that it reads. -/
def riskDecision (activeSwitch : Option KillSwitch) (limits : List RiskLimit) (intent : RiskIntent)
    (executionMode : ExecutionMode) : Except StoreError RiskDecision := do
  let policyVersion := ((limits.map RiskLimit.version).max?).getD 1
  let notional ← orderNotional ar intent
  match activeSwitch with
  | some row => pure {
      status := .riskRejected
      eventType := .killSwitchRejected
      severity := .critical
      scopeType := row.scopeType
      scopeKey := row.scopeKey
      riskPolicyVersion := policyVersion
      reason := "kill switch armed: " ++ row.scopeType ++ ":" ++ row.scopeKey
      message := "활성 kill switch가 신규 주문 의도를 차단했다."
      orderNotional := notional
      evidence := .killSwitch row.scopeType row.scopeKey row.sequence }
  | none =>
    match limits.findSome? fun limit => limitRejection? limit policyVersion notional with
    | some decision => pure decision
    | none => pure {
        status := .approved
        eventType := .policyApproved
        severity := .info
        scopeType := "bot"
        scopeKey := toString intent.botInstanceId
        riskPolicyVersion := policyVersion
        reason := "risk approved for " ++ executionMode.text
        message := executionMode.text ++ " 주문 의도를 위험 정책이 승인했다."
        orderNotional := notional
        evidence := .approved limits.length executionMode }

/-! ## The transaction -/

/-- The join of a created intent with its bot. -/
structure CreatedIntent where
  intent : RiskIntent
  bot : BotInstance

variable (db : RiskDatabase)

/-- The condition of the candidate query. -/
def createdIntent? (intent : RiskIntent) : Option CreatedIntent := do
  let bot ← db.botInstances intent.botInstanceId
  if intent.status = .created ∧ (bot.stage = .paper ∨ bot.stage = .shadow) ∧
      (bot.executionMode = .paper ∨ bot.executionMode = .shadow) then
    some ⟨intent, bot⟩
  else none

/-- The candidate query: the oldest created intent that no other transaction holds. -/
def nextCreatedIntent? (locked : ℤ → Bool) : Option CreatedIntent :=
  (sortedBy (fun row : CreatedIntent => toLex (row.intent.createdAt, row.intent.id))
    ((db.orderIntents.rows.filter fun row => !locked row.id).filterMap
      (createdIntent? db))).head?

variable (row : CreatedIntent)

/-- `_risk_scopes` of an intent, with the scope of its instrument. -/
def CreatedIntent.scopes : List (String × String) :=
  riskScopes row.bot.portfolioId row.intent.botInstanceId ++
    [("instrument", toString row.intent.instrumentId)]

variable (decision : RiskDecision)

/-- The row after the `UPDATE` of a decision. -/
def RiskIntent.decide (row : RiskIntent) : RiskIntent :=
  { row with
    status := decision.status
    riskPolicyVersion := some decision.riskPolicyVersion
    riskDecisionReason := some decision.reason }

theorem RiskIntent.decide_id (row : RiskIntent) : (row.decide decision).id = row.id := rfl

/-- `INSERT INTO paper_execution_jobs (order_intent_id) … ON CONFLICT … DO NOTHING`. -/
def insertPaperJob (jobs : JobTable) (id orderIntentId : ℤ) : Except StoreError JobTable :=
  if hintent : orderIntentId ∈ jobs.rows.map PaperJob.orderIntentId then .ok jobs
  else if hid : id ∈ jobs.rows.map PaperJob.id then .error .uniqueViolation
  else
    let job : PaperJob := {
      id := id
      orderIntentId := orderIntentId
      nextRetryAt := now
      createdAt := now }
    .ok {
      rows := jobs.rows ++ [job]
      uniqueId := by
        rw [List.map_append, List.map_singleton]
        exact jobs.uniqueId.append (List.nodup_singleton _) (by simpa using hid)
      uniqueIntent := by
        rw [List.map_append, List.map_singleton]
        exact jobs.uniqueIntent.append (List.nodup_singleton _) (by simpa using hintent) }

/-- The event of a decision. -/
def decisionEvent (workerId : String) : RiskDecisionEvent where
  orderIntentId := row.intent.id
  botInstanceId := row.intent.botInstanceId
  scopeType := decision.scopeType
  scopeKey := decision.scopeKey
  eventType := decision.eventType
  severity := decision.severity
  fingerprint := "risk-evaluation-v1:" ++ toString row.intent.id
  riskPolicyVersion := decision.riskPolicyVersion
  message := decision.message
  workerId := workerId
  decisionInputHash := row.intent.decisionInputHash
  orderNotional := decision.orderNotional
  riskEvidence := decision.evidence

/-- The writes of a decision. -/
def recordRiskDecision (workerId : String) : Except StoreError RiskDatabase := do
  let event := decisionEvent row decision workerId
  if hevent : event.uniqueKey ∈ db.riskEvents.rows.map RiskDecisionEvent.uniqueKey then
    throw .uniqueViolation
  else
    let decided := { db with
      orderIntents := db.orderIntents.update (fun other => other.id = row.intent.id)
        (RiskIntent.decide decision) (RiskIntent.decide_id decision)
      riskEvents := db.riskEvents.insert event hevent }
    if decision.status = .approved ∧ row.bot.executionMode = .paper then
      let jobs ← insertPaperJob now db.jobs db.nextJobId row.intent.id
      pure { decided with
        jobs := jobs
        nextJobId := db.nextJobId + 1 }
    else pure decided

/-- What `evaluate_next_order_intent_risk` returns. -/
structure RiskEvaluation where
  orderIntentId : ℤ
  status : IntentStatus
  eventType : RiskEventType
  riskPolicyVersion : ℤ
  reason : String
  deriving DecidableEq, Repr

/-- `evaluate_next_order_intent_risk`. -/
def evaluateNextOrderIntentRisk (locked : ℤ → Bool) (db : RiskDatabase) (workerId : String) :
    Except StoreError (Option RiskEvaluation × RiskDatabase) := do
  let worker ← nonBlank workerId "workerId"
  match nextCreatedIntent? db locked with
  | none => pure (none, db)
  | some row =>
    let activeSwitch := activeKillSwitch db.killSwitches
      (riskScopes row.bot.portfolioId row.intent.botInstanceId)
    let limits := activeRiskLimits db.riskLimits.rows row.scopes
    let decision ← riskDecision ar activeSwitch limits row.intent row.bot.executionMode
    let db ← recordRiskDecision now db row decision worker
    pure (some {
      orderIntentId := row.intent.id
      status := decision.status
      eventType := decision.eventType
      riskPolicyVersion := decision.riskPolicyVersion
      reason := decision.reason }, db)

end Goodmoneying.Program
