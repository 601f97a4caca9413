import Mathlib.Data.String.Basic
import Goodmoneying.Library.StableSort
import Goodmoneying.Program.PositionProjection

/-!
# The paper execution queue

Migration `20260718000700_p5_paper_execution_jobs.sql` and the functions of
`portfolio_bot_store.py` on its table: a worker claims a job for the time of a lease, fills
the order intent and completes the job, or fails it, or the job is put off while a kill switch
is armed.

Every function is one transaction, serialised by its row locks; an exception rolls it back. The
clock is read by the query that locks the job and again by the update. The `CHECK`
constraints of the job table are not evaluated by the updates.
-/

namespace Goodmoneying.Program

open Library

/-! ## Jobs -/

/-- `paper_execution_jobs.status`. -/
inductive PaperJobStatus where
  | pending | running | retryWait | succeeded | deadLetter
  deriving DecidableEq, Repr

/-- A row of `paper_execution_jobs`. -/
structure PaperJob where
  id : ℤ
  orderIntentId : ℤ
  status : PaperJobStatus := .pending
  priority : ℤ := 100
  attemptCount : ℤ := 0
  maxAttempts : ℤ := 3
  nextRetryAt : Instant := 0
  leaseOwner : Option String := none
  leaseExpiresAt : Option Instant := none
  leaseGeneration : ℤ := 0
  lastErrorCode : Option String := none
  deadLetterReason : Option String := none
  createdAt : Instant
  deriving DecidableEq, Repr

/-- `paper_execution_jobs`, with its primary key and `UNIQUE (order_intent_id)`. -/
structure JobTable where
  rows : List PaperJob
  uniqueId : (rows.map PaperJob.id).Nodup
  uniqueIntent : (rows.map PaperJob.orderIntentId).Nodup

/-- `SELECT … FROM paper_execution_jobs WHERE id=%s`. -/
def JobTable.find (table : JobTable) (id : ℤ) : Option PaperJob :=
  table.rows.find? fun job => job.id = id

/-- `UPDATE paper_execution_jobs SET … WHERE id=%s`, of columns other than the keys. -/
def JobTable.update (table : JobTable) (id : ℤ) (change : PaperJob → PaperJob)
    (hid : ∀ job, (change job).id = job.id)
    (hintent : ∀ job, (change job).orderIntentId = job.orderIntentId) : JobTable where
  rows := table.rows.map fun job => if job.id = id then change job else job
  uniqueId := by
    have hkeys : ∀ job, PaperJob.id (if job.id = id then change job else job) = job.id := by
      intro job
      split_ifs
      · exact hid job
      · rfl
    simpa [Function.comp_def, hkeys] using table.uniqueId
  uniqueIntent := by
    have hkeys : ∀ job, PaperJob.orderIntentId (if job.id = id then change job else job) =
        job.orderIntentId := by
      intro job
      split_ifs
      · exact hintent job
      · rfl
    simpa [Function.comp_def, hkeys] using table.uniqueIntent

/-- The update of `_claim_next_paper_execution_job`. -/
def PaperJob.claimed (job : PaperJob) (workerId : String) (expiresAt : Instant) : PaperJob :=
  { job with
    status := .running
    leaseOwner := some workerId
    leaseExpiresAt := some expiresAt
    leaseGeneration := job.leaseGeneration + 1
    attemptCount := job.attemptCount + 1
    lastErrorCode := none }

/-- The last update of `complete_claimed_paper_execution_job`. -/
def PaperJob.completed (job : PaperJob) : PaperJob :=
  { job with
    status := .succeeded
    leaseOwner := none
    leaseExpiresAt := none }

/-- The update of `fail_claimed_paper_execution_job`. -/
def PaperJob.failed (job : PaperJob) (now : Instant) (errorCode message : String) : PaperJob :=
  let nextStatus : PaperJobStatus :=
    if job.attemptCount ≥ job.maxAttempts then .deadLetter else .retryWait
  { job with
    status := nextStatus
    leaseOwner := none
    leaseExpiresAt := none
    nextRetryAt := if nextStatus = .retryWait then now.addSeconds 30 else job.nextRetryAt
    lastErrorCode := some errorCode
    deadLetterReason := if nextStatus = .deadLetter then some message else job.deadLetterReason }

/-- The update of `_defer_paper_job_for_kill_switch`. -/
def PaperJob.deferred (job : PaperJob) (now : Instant) : PaperJob :=
  { job with
    status := .retryWait
    leaseOwner := none
    leaseExpiresAt := none
    nextRetryAt := now.addSeconds 30
    attemptCount := max (job.attemptCount - 1) 0
    lastErrorCode := some "KILL_SWITCH_ARMED" }

/-! ## Kill switches -/

/-- `kill_switches.state`. -/
inductive SwitchState where
  | armed | released
  deriving DecidableEq, Repr

/-- A row of `kill_switches`. -/
structure KillSwitch where
  scopeType : String
  scopeKey : String
  state : SwitchState
  sequence : ℤ
  deriving DecidableEq, Repr

/-- The row of the greatest sequence of a scope. -/
def latestSwitch (switches : List KillSwitch) (scope : String × String) : Option KillSwitch :=
  (sortedBy (fun row => -row.sequence)
    (switches.filter fun row => row.scopeType = scope.1 ∧ row.scopeKey = scope.2)).head?

/-- `_risk_scopes` without the scope of the instrument. -/
def riskScopes (portfolioId botInstanceId : ℤ) : List (String × String) :=
  [("global", "global"), ("portfolio", toString portfolioId), ("bot", toString botInstanceId)]

/-- `_active_kill_switch`: the armed switch of the first scope that has one. -/
def activeKillSwitch (switches : List KillSwitch) (scopes : List (String × String)) :
    Option KillSwitch :=
  scopes.findSome? fun scope =>
    (latestSwitch switches scope).filter fun row => row.state = .armed

/-! ## The database -/

/-- The tables of the paper execution functions. -/
structure PaperDatabase where
  jobs : JobTable
  orderIntents : ℤ → Option OrderIntent
  botInstances : ℤ → Option BotInstance
  killSwitches : List KillSwitch
  exchangeOrders : OrderTable
  orderFills : FillTable
  positionProjections : PositionTable

/-- What `_paper_intent_row` returns, and the join that a claim makes. -/
structure PaperIntent where
  orderIntentId : ℤ
  instrumentId : ℤ
  side : Side
  requestedQuantity : Option ℚ
  requestedNotional : Option ℚ
  botInstanceId : ℤ
  portfolioId : ℤ
  deriving DecidableEq, Repr

/-- The join of an approved intent with its bot, in the paper stage and mode. -/
def paperIntent? (db : PaperDatabase) (orderIntentId : ℤ) : Option PaperIntent := do
  let intent ← db.orderIntents orderIntentId
  let bot ← db.botInstances intent.botInstanceId
  if intent.status = .approved ∧ bot.stage = .paper ∧ bot.executionMode = .paper then
    some {
      orderIntentId := orderIntentId
      instrumentId := intent.instrumentId
      side := intent.side
      requestedQuantity := intent.requestedQuantity
      requestedNotional := intent.requestedNotional
      botInstanceId := intent.botInstanceId
      portfolioId := bot.portfolioId }
  else none

/-- `_paper_execution_job_summary`. -/
structure PaperExecutionJobSummary where
  paperExecutionJobId : ℤ
  orderIntentId : ℤ
  status : PaperJobStatus
  leaseOwner : Option String
  leaseGeneration : ℤ
  attemptCount : ℤ
  deriving DecidableEq, Repr

/-- `_paper_execution_job_summary` of a row. -/
def paperExecutionJobSummary (job : PaperJob) : PaperExecutionJobSummary where
  paperExecutionJobId := job.id
  orderIntentId := job.orderIntentId
  status := job.status
  leaseOwner := job.leaseOwner
  leaseGeneration := job.leaseGeneration
  attemptCount := job.attemptCount

/-- What `_paper_execution_job_response` returns. -/
structure PaperExecutionJobResponse extends PaperExecutionJobSummary where
  instrumentId : ℤ
  portfolioId : ℤ
  side : Side
  requestedQuantity : Option ℚ
  requestedNotional : Option ℚ
  deriving DecidableEq, Repr

/-- `_paper_execution_job_response`. -/
def paperExecutionJobResponse (db : PaperDatabase) (jobId : ℤ) :
    Except StoreError PaperExecutionJobResponse :=
  let joined : Option PaperExecutionJobResponse := do
    let job ← db.jobs.find jobId
    let intent ← db.orderIntents job.orderIntentId
    let bot ← db.botInstances intent.botInstanceId
    pure {
      toPaperExecutionJobSummary := paperExecutionJobSummary job
      instrumentId := intent.instrumentId
      portfolioId := bot.portfolioId
      side := intent.side
      requestedQuantity := intent.requestedQuantity
      requestedNotional := intent.requestedNotional }
  match joined with
  | some response => .ok response
  | none => .error .assertionError

/-! ## Claiming -/

/-- The condition on the job alone in the candidate query. -/
def PaperJob.due (now : Instant) (job : PaperJob) : Bool :=
  match job.status with
  | .pending => true
  | .retryWait => job.nextRetryAt ≤ now
  | .running => job.leaseExpiresAt.any fun expiresAt => expiresAt ≤ now
  | .succeeded | .deadLetter => false

/-- The `WHERE` condition of the candidate query. -/
def claimable (db : PaperDatabase) (now : Instant) (job : PaperJob) : Bool :=
  job.due now &&
  (paperIntent? db job.orderIntentId).any fun intent =>
    (activeKillSwitch db.killSwitches
      (riskScopes intent.portfolioId intent.botInstanceId)).isNone

/-- `ORDER BY job.priority DESC, job.created_at, job.id`. -/
def claimOrder (job : PaperJob) : ℤ ×ₗ (Instant ×ₗ ℤ) :=
  toLex (-job.priority, toLex (job.createdAt, job.id))

/-- The candidate query; `locked` are the jobs whose rows other transactions hold. -/
def claimCandidate? (db : PaperDatabase) (now : Instant) (locked : ℤ → Bool) : Option PaperJob :=
  (sortedBy claimOrder
    (db.jobs.rows.filter fun job => claimable db now job && !locked job.id)).head?

/-- `_claim_next_paper_execution_job`: the id of the claimed job. -/
def claimNextPaperExecutionJobInConnection (queriedAt updatedAt : Instant)
    (locked : ℤ → Bool) (db : PaperDatabase) (workerId : String) (leaseSeconds : ℤ) :
    Option ℤ × PaperDatabase :=
  match claimCandidate? db queriedAt locked with
  | none => (none, db)
  | some candidate =>
    if candidate.attemptCount < candidate.maxAttempts then
      (some candidate.id, { db with
        jobs := db.jobs.update candidate.id
          (fun job => job.claimed workerId (updatedAt.addSeconds leaseSeconds))
          (fun _ => rfl) (fun _ => rfl) })
    else (none, db)

/-- `claim_next_paper_execution_job`. -/
def claimNextPaperExecutionJob (queriedAt updatedAt : Instant) (locked : ℤ → Bool)
    (db : PaperDatabase) (workerId : String) (leaseSeconds : ℤ) :
    Except StoreError (Option PaperExecutionJobResponse × PaperDatabase) := do
  let worker ← nonBlank workerId "workerId"
  match claimNextPaperExecutionJobInConnection queriedAt updatedAt locked db worker
      leaseSeconds with
  | (none, db) => pure (none, db)
  | (some id, db) =>
    let response ← paperExecutionJobResponse db id
    pure (some response, db)

/-! ## Completing and failing -/

/-- The condition of `_locked_claimed_paper_job`. -/
def holdsLease (now : Instant) (workerId : String) (leaseGeneration : ℤ) (job : PaperJob) : Bool :=
  job.status = .running ∧ job.leaseOwner = some workerId ∧
    job.leaseGeneration = leaseGeneration ∧ job.leaseExpiresAt.any fun expiresAt => now < expiresAt

/-- `_locked_claimed_paper_job`. -/
def lockedClaimedPaperJob (now : Instant) (db : PaperDatabase) (jobId : ℤ) (workerId : String)
    (leaseGeneration : ℤ) : Except StoreError PaperJob :=
  match (db.jobs.find jobId).filter (holdsLease now workerId leaseGeneration) with
  | some job => .ok job
  | none => .error (.leaseLost "paper execution job 임대를 잃었다.")

/-- `_paper_intent_row`. -/
def paperIntentRow (db : PaperDatabase) (orderIntentId : ℤ) : Except StoreError PaperIntent :=
  match paperIntent? db orderIntentId with
  | some intent => .ok intent
  | none => .error (.leaseLost "paper 실행 가능한 주문 의도가 없다.")

/-- `_paper_fill_quantity`. -/
def paperFillQuantity (ar : Arithmetic) (intent : PaperIntent) (fillPrice : ℚ) :
    Option ℚ → Except StoreError ℚ
  | some filledQuantity => positiveDecimal filledQuantity "filledQuantity"
  | none =>
    match intent.requestedQuantity, intent.requestedNotional with
    | some quantity, _ => positiveDecimal quantity "requestedQuantity"
    | none, none => .error (.valueError "requestedNotional는 Decimal이어야 한다.")
    | none, some notional => do
      let notional ← positiveDecimal notional "requestedNotional"
      if fillPrice = 0 then throw .divisionByZero
      else pure (ar.div notional fillPrice)

/-- The order of a paper fill. -/
def paperOrder (job : PaperJob) (orderIntentId : ℤ) (occurredAt : Instant) (id : ℤ) :
    ExchangeOrder where
  id := id
  orderIntentId := orderIntentId
  executionMode := .paper
  simulatedOrderKey := "paper-" ++ toString job.id ++ "-" ++ toString job.leaseGeneration
  status := .done
  submittedAt := some occurredAt
  reconciledAt := none
  rawPayload := [
    ("source", .text "paper_execution_worker"),
    ("paperExecutionJobId", .int job.id),
    ("leaseGeneration", .int job.leaseGeneration)]

/-- `_defer_paper_job_for_kill_switch`. -/
def deferPaperJobForKillSwitch (now : Instant) (db : PaperDatabase) (job : PaperJob) :
    PaperExecutionJobSummary × PaperDatabase :=
  (paperExecutionJobSummary (job.deferred now), { db with
    jobs := db.jobs.update job.id (fun row => row.deferred now) (fun _ => rfl) (fun _ => rfl) })

/-- The insertions of `complete_claimed_paper_execution_job`, and its last updates. -/
def recordPaperFill (ar : Arithmetic) (db : PaperDatabase) (job : PaperJob)
    (intent : PaperIntent) (quantity price : ℚ) (occurredAt knowledgeAt : Instant)
    (evidence : List (String × CanonicalValue)) :
    Except StoreError (PaperExecutionJobSummary × PaperDatabase) := do
  let (order, exchangeOrders) ←
    db.exchangeOrders.insert (paperOrder job intent.orderIntentId occurredAt)
  let (fill, orderFills) ← db.orderFills.insert ar {
    exchangeOrderId := order.id
    fillSequence := 1
    fillSource := .paperSimulator
    side := intent.side
    filledQuantity := quantity
    fillPrice := price
    feePaid := 0
    occurredAt := occurredAt
    knowledgeAt := knowledgeAt
    evidence := evidence }
  let positionProjections ← db.positionProjections.upsert ar intent.portfolioId
    intent.instrumentId intent.side quantity price fill.id
  pure (paperExecutionJobSummary job.completed, { db with
    exchangeOrders := exchangeOrders
    orderFills := orderFills
    positionProjections := positionProjections
    orderIntents := setIntentStatus db.orderIntents intent.orderIntentId .paperFilled
    jobs := db.jobs.update job.id PaperJob.completed (fun _ => rfl) (fun _ => rfl) })

/-- `complete_claimed_paper_execution_job`. -/
def completeClaimedPaperExecutionJob (ar : Arithmetic) (queriedAt updatedAt : Instant)
    (db : PaperDatabase) (jobId : ℤ) (workerId : String) (leaseGeneration : ℤ) (fillPrice : ℚ)
    (filledQuantity : Option ℚ) (occurredAt knowledgeAt : Instant)
    (evidence : List (String × CanonicalValue)) :
    Except StoreError (PaperExecutionJobSummary × PaperDatabase) := do
  if knowledgeAt < occurredAt then
    throw (.valueError "knowledgeAt은 occurredAt보다 빠를 수 없다.")
  let worker ← nonBlank workerId "workerId"
  let claim ← lockedClaimedPaperJob queriedAt db jobId worker leaseGeneration
  let intent ← paperIntentRow db claim.orderIntentId
  if (activeKillSwitch db.killSwitches
      (riskScopes intent.portfolioId intent.botInstanceId)).isSome then
    pure (deferPaperJobForKillSwitch updatedAt db claim)
  else
    let quantity ← paperFillQuantity ar intent fillPrice filledQuantity
    recordPaperFill ar db claim intent quantity fillPrice occurredAt knowledgeAt evidence

/-- `fail_claimed_paper_execution_job`. -/
def failClaimedPaperExecutionJob (queriedAt updatedAt : Instant) (db : PaperDatabase)
    (jobId : ℤ) (workerId : String) (leaseGeneration : ℤ) (errorCode message : String) :
    Except StoreError (PaperExecutionJobSummary × PaperDatabase) := do
  let worker ← nonBlank workerId "workerId"
  let claim ← lockedClaimedPaperJob queriedAt db jobId worker leaseGeneration
  let errorCode ← nonBlank errorCode "errorCode"
  let message ← nonBlank message "message"
  pure (paperExecutionJobSummary (claim.failed updatedAt errorCode message), { db with
    jobs := db.jobs.update claim.id (fun job => job.failed updatedAt errorCode message)
      (fun _ => rfl) (fun _ => rfl) })

/-! ## Interleavings -/

/-- One transaction: of a worker, or of another party on the tables that the queue only
reads (kill switches armed or released, bots moved between stages, intents, positions). -/
inductive PaperTransaction where
  | claim (locked : ℤ → Bool) (workerId : String) (leaseSeconds : ℤ)
  | complete (jobId : ℤ) (workerId : String) (leaseGeneration : ℤ) (fillPrice : ℚ)
      (filledQuantity : Option ℚ) (occurredAt knowledgeAt : Instant)
      (evidence : List (String × CanonicalValue))
  | fail (jobId : ℤ) (workerId : String) (leaseGeneration : ℤ) (errorCode message : String)
  | other (orderIntents : ℤ → Option OrderIntent) (botInstances : ℤ → Option BotInstance)
      (killSwitches : List KillSwitch) (positionProjections : PositionTable)

/-- The database that a transaction would commit. -/
def PaperTransaction.run (ar : Arithmetic) (queriedAt updatedAt : Instant) (db : PaperDatabase) :
    PaperTransaction → Except StoreError PaperDatabase
  | .claim locked workerId leaseSeconds =>
    Prod.snd <$> claimNextPaperExecutionJob queriedAt updatedAt locked db workerId leaseSeconds
  | .complete jobId workerId leaseGeneration fillPrice filledQuantity occurredAt knowledgeAt
      evidence =>
    Prod.snd <$> completeClaimedPaperExecutionJob ar queriedAt updatedAt db jobId workerId
      leaseGeneration fillPrice filledQuantity occurredAt knowledgeAt evidence
  | .fail jobId workerId leaseGeneration errorCode message =>
    Prod.snd <$> failClaimedPaperExecutionJob queriedAt updatedAt db jobId workerId
      leaseGeneration errorCode message
  | .other orderIntents botInstances killSwitches positionProjections =>
    .ok { db with
      orderIntents := orderIntents
      botInstances := botInstances
      killSwitches := killSwitches
      positionProjections := positionProjections }

/-- The database after a transaction; an exception rolls back. -/
def PaperTransaction.commit (ar : Arithmetic) (queriedAt updatedAt : Instant)
    (db : PaperDatabase) (transaction : PaperTransaction) : PaperDatabase :=
  match transaction.run ar queriedAt updatedAt db with
  | .ok db => db
  | .error _ => db

/-- The database and the latest reading of its clock. -/
structure PaperState where
  clock : Instant
  db : PaperDatabase

/-- One transaction, under a clock that does not run backwards. A crashed worker makes no step:
its lease expires as the clock goes on. -/
inductive PaperStep (ar : Arithmetic) : PaperState → PaperState → Prop
  | transaction (state : PaperState) (transaction : PaperTransaction)
      (queriedAt updatedAt : Instant) (hquery : state.clock ≤ queriedAt)
      (hupdate : queriedAt ≤ updatedAt) :
      PaperStep ar state
        { clock := updatedAt
          db := transaction.commit ar queriedAt updatedAt state.db }

end Goodmoneying.Program
