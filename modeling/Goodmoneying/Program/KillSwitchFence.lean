import Goodmoneying.Library.TableLock
import Goodmoneying.Program.OrderRisk

/-!
# Kill switches beside the workers

`evaluate_next_order_intent_risk`, `claim_next_paper_execution_job` and
`complete_claimed_paper_execution_job` of `portfolio_bot_store.py` as transactions that run between
each other and between transactions that insert `kill_switches`. Each of them locks the table of
the switches in share mode before it reads them (`_lock_kill_switch_table`).

The isolation is read committed: a statement sees what is committed when it runs. A transaction
holds the rows that it selected for update, so its writes stand at its commit; they are applied
there. An exception rolls back. The arguments of a worker are those that passed the checks before
its first statement.
-/

namespace Goodmoneying.Program

open Library

/-! ## The tables -/

/-- The tables of the three functions, `kill_switches` apart. -/
structure TradingDatabase where
  orderIntents : KeyedTable RiskIntent.id
  botInstances : ℤ → Option BotInstance
  riskLimits : KeyedTable RiskLimit.uniqueKey
  riskEvents : KeyedTable RiskDecisionEvent.uniqueKey
  jobs : JobTable
  nextJobId : ℤ
  exchangeOrders : OrderTable
  orderFills : FillTable
  positionProjections : PositionTable

namespace TradingDatabase

variable (db : TradingDatabase)

/-- The tables that the risk decision uses. -/
def risk (killSwitches : List KillSwitch) : RiskDatabase where
  orderIntents := db.orderIntents
  botInstances := db.botInstances
  killSwitches := killSwitches
  riskLimits := db.riskLimits
  riskEvents := db.riskEvents
  jobs := db.jobs
  nextJobId := db.nextJobId

def withRisk (tables : RiskDatabase) : TradingDatabase :=
  { db with
    orderIntents := tables.orderIntents
    riskEvents := tables.riskEvents
    jobs := tables.jobs
    nextJobId := tables.nextJobId }

/-- The tables that the paper execution uses. -/
def paper (killSwitches : List KillSwitch) : PaperDatabase where
  jobs := db.jobs
  orderIntents := fun id =>
    (db.orderIntents.find fun row => row.id = id).map RiskIntent.toOrderIntent
  botInstances := db.botInstances
  killSwitches := killSwitches
  exchangeOrders := db.exchangeOrders
  orderFills := db.orderFills
  positionProjections := db.positionProjections

def withPaper (tables : PaperDatabase) : TradingDatabase :=
  { db with
    jobs := tables.jobs
    exchangeOrders := tables.exchangeOrders
    orderFills := tables.orderFills
    positionProjections := tables.positionProjections }

/-- `UPDATE order_intents SET status='paper_filled' WHERE id=%s`. -/
def setPaperFilled (orderIntentId : ℤ) : TradingDatabase :=
  { db with
    orderIntents := db.orderIntents.update (fun row => row.id = orderIntentId)
      (fun row => { row with status := .paperFilled }) (fun _ => rfl) }

end TradingDatabase

/-! ## Transactions -/

/-- The arguments of a completion that its first query does not use. -/
structure PaperCompletion where
  fillPrice : ℚ
  filledQuantity : Option ℚ
  occurredAt : Instant
  knowledgeAt : Instant
  evidence : List (String × CanonicalValue)

/-- A transaction that has read all it decides by: its writes and its commit are left. -/
inductive ReadyTransaction where
  | evaluation (workerId : String) (row : CreatedIntent) (activeSwitch : Option KillSwitch)
      (limits : List RiskLimit)
  | claim (workerId : String) (leaseSeconds : ℤ) (candidate : PaperJob)
  | completion (arguments : PaperCompletion) (job : PaperJob) (intent : PaperIntent)
      (activeSwitch : Option KillSwitch)

/-- A transaction of a worker between two of its statements, with what it has read. -/
inductive WorkerTransaction where
  | intentSelected (workerId : String) (row : CreatedIntent)
  | evaluationFenced (workerId : String) (row : CreatedIntent)
  | switchRead (workerId : String) (row : CreatedIntent) (activeSwitch : Option KillSwitch)
  | claimFenced (workerId : String) (leaseSeconds : ℤ)
  | jobSelected (arguments : PaperCompletion) (job : PaperJob)
  | paperIntentSelected (arguments : PaperCompletion) (job : PaperJob) (intent : PaperIntent)
  | completionFenced (arguments : PaperCompletion) (job : PaperJob) (intent : PaperIntent)
  | ready (transaction : ReadyTransaction)

/-- The intent of a transaction. -/
def ReadyTransaction.orderIntentId : ReadyTransaction → ℤ
  | evaluation _ row _ _ => row.intent.id
  | claim _ _ candidate => candidate.orderIntentId
  | completion _ job _ _ => job.orderIntentId

/-- The job whose row a transaction holds. -/
def ReadyTransaction.job? : ReadyTransaction → Option PaperJob
  | evaluation .. => none
  | claim _ _ candidate => some candidate
  | completion _ job _ _ => some job

namespace WorkerTransaction

/-- The job whose row a transaction holds. -/
def job? : WorkerTransaction → Option PaperJob
  | intentSelected .. | evaluationFenced .. | switchRead .. | claimFenced .. => none
  | jobSelected _ job | paperIntentSelected _ job _ | completionFenced _ job _ => some job
  | ready transaction => transaction.job?

/-- The id of the intent whose row a transaction holds. -/
def intentId? : WorkerTransaction → Option ℤ
  | intentSelected _ row | evaluationFenced _ row | switchRead _ row _ => some row.intent.id
  | claimFenced .. | jobSelected .. => none
  | paperIntentSelected _ _ intent | completionFenced _ _ intent => some intent.orderIntentId
  | ready transaction => some transaction.orderIntentId

end WorkerTransaction

/-! ## Writes -/

theorem PaperJob.claimed_id (workerId : String) (expiresAt : Instant) (job : PaperJob) :
    (job.claimed workerId expiresAt).id = job.id := rfl

theorem PaperJob.claimed_orderIntentId (workerId : String) (expiresAt : Instant) (job : PaperJob) :
    (job.claimed workerId expiresAt).orderIntentId = job.orderIntentId := rfl

/-- `claim_next_paper_execution_job` after its candidate query. -/
def claimCandidate (updatedAt : Instant) (db : PaperDatabase) (candidate : PaperJob)
    (workerId : String) (leaseSeconds : ℤ) :
    Except StoreError (Option PaperExecutionJobResponse × PaperDatabase) :=
  let found := (db.jobs.find candidate.id).filter fun job =>
    job.leaseGeneration = candidate.leaseGeneration && job.attemptCount < job.maxAttempts
  let expiresAt := updatedAt.addSeconds leaseSeconds
  found.elim (pure (none, db)) fun job => do
    let db := { db with
      jobs := db.jobs.update job.id (fun job => job.claimed workerId expiresAt)
        (PaperJob.claimed_id workerId expiresAt) (PaperJob.claimed_orderIntentId workerId expiresAt) }
    let response ← paperExecutionJobResponse db job.id
    pure (some response, db)

/-- What the writes of a transaction make of the tables; no write reads the switches. -/
def ReadyTransaction.write (ar : Arithmetic) (updatedAt : Instant) (db : TradingDatabase) :
    ReadyTransaction → Except StoreError TradingDatabase
  | evaluation workerId row activeSwitch limits => do
    let decision ← riskDecision ar activeSwitch limits row.intent row.bot.executionMode
    db.withRisk <$> recordRiskDecision updatedAt (db.risk []) row decision workerId
  | claim workerId leaseSeconds candidate =>
    (fun result => db.withPaper result.2) <$>
      claimCandidate updatedAt (db.paper []) candidate workerId leaseSeconds
  | completion arguments job intent activeSwitch =>
    if activeSwitch.isSome then
      pure (db.withPaper (deferPaperJobForKillSwitch updatedAt (db.paper []) job).2)
    else do
      let quantity ← paperFillQuantity ar intent arguments.fillPrice arguments.filledQuantity
      let (_, tables) ← recordPaperFill ar (db.paper []) job intent quantity arguments.fillPrice
        arguments.occurredAt arguments.knowledgeAt arguments.evidence
      pure ((db.withPaper tables).setPaperFilled intent.orderIntentId)

/-! ## Interleavings -/

/-- The committed tables and the open transactions. -/
structure FenceState where
  db : TradingDatabase
  killSwitches : LockedTable KillSwitch
  transactions : ℕ → Option WorkerTransaction

namespace FenceState

variable (state : FenceState) (id : ℕ)

/-- The state after a statement of the transaction. -/
def continueWith (transaction : WorkerTransaction) : FenceState :=
  { state with transactions := Function.update state.transactions id (some transaction) }

/-- The state after `_lock_kill_switch_table` of the transaction. -/
def fence (transaction : WorkerTransaction) : FenceState :=
  { state.continueWith id transaction with killSwitches := state.killSwitches.share id }

/-- Another transaction than `id` holds the row of the job. -/
def JobHeld (jobId : ℤ) : Prop :=
  ∃ other transaction job, other ≠ id ∧ state.transactions other = some transaction ∧
    transaction.job? = some job ∧ job.id = jobId

/-- Another transaction than `id` holds the row of the intent. -/
def IntentHeld (orderIntentId : ℤ) : Prop :=
  ∃ other transaction, other ≠ id ∧ state.transactions other = some transaction ∧
    transaction.intentId? = some orderIntentId

/-- The transaction `id` is not one of a worker. -/
def NotWorker : Prop := state.transactions id = none

/-- The transaction `id` has not begun. -/
def Unused : Prop :=
  state.transactions id = none ∧ state.killSwitches.pending id = []

/-- The sequence of a new switch is beyond those of its scope. -/
def Increasing (row : KillSwitch) : Prop :=
  ∀ other, (other ∈ state.killSwitches.rows ∨ ∃ id, other ∈ state.killSwitches.pending id) →
    other.scopeType = row.scopeType → other.scopeKey = row.scopeKey →
    other.sequence < row.sequence

end FenceState

/-- The commit of a worker's transaction. -/
inductive WorkerCommit (ar : Arithmetic) (id : ℕ) (transaction : ReadyTransaction) :
    FenceState → FenceState → Prop
  | commit (state : FenceState) (updatedAt : Instant) (db : TradingDatabase)
      (hready : state.transactions id = some (.ready transaction))
      (hwrite : transaction.write ar updatedAt state.db = .ok db) :
      WorkerCommit ar id transaction state {
        db := db
        killSwitches := state.killSwitches.commit id
        transactions := Function.update state.transactions id none }

/-- One statement of a transaction, a commit or a rollback. `SKIP LOCKED` passes over the rows that
other transactions hold, and `FOR UPDATE` waits for them. -/
inductive FenceStep (ar : Arithmetic) : FenceState → FenceState → Prop
  | insertSwitch (state : FenceState) (id : ℕ) (row : KillSwitch) (hworker : state.NotWorker id)
      (hlock : state.killSwitches.CanInsert id) (hsequence : state.Increasing row) :
      FenceStep ar state { state with killSwitches := state.killSwitches.insert id row }
  | commitSwitches (state : FenceState) (id : ℕ) (hworker : state.NotWorker id) :
      FenceStep ar state { state with killSwitches := state.killSwitches.commit id }
  | rollback (state : FenceState) (id : ℕ) :
      FenceStep ar state { state with
        killSwitches := state.killSwitches.rollback id
        transactions := Function.update state.transactions id none }
  | selectIntent (state : FenceState) (id : ℕ) (workerId : String) (locked : ℤ → Bool)
      (row : CreatedIntent) (hunused : state.Unused id)
      (hlocked : ∀ orderIntentId, state.IntentHeld id orderIntentId →
        locked orderIntentId = true)
      (hrow : nextCreatedIntent? (state.db.risk state.killSwitches.rows) locked = some row) :
      FenceStep ar state (state.continueWith id (.intentSelected workerId row))
  | fenceEvaluation (state : FenceState) (id : ℕ) (workerId : String) (row : CreatedIntent)
      (hopen : state.transactions id = some (.intentSelected workerId row))
      (hlock : state.killSwitches.CanShare id) :
      FenceStep ar state (state.fence id (.evaluationFenced workerId row))
  | readSwitch (state : FenceState) (id : ℕ) (workerId : String) (row : CreatedIntent)
      (hopen : state.transactions id = some (.evaluationFenced workerId row)) :
      FenceStep ar state (state.continueWith id (.switchRead workerId row
        (activeKillSwitch state.killSwitches.rows
          (riskScopes row.bot.portfolioId row.intent.botInstanceId))))
  | readLimits (state : FenceState) (id : ℕ) (workerId : String) (row : CreatedIntent)
      (activeSwitch : Option KillSwitch)
      (hopen : state.transactions id = some (.switchRead workerId row activeSwitch)) :
      FenceStep ar state (state.continueWith id (.ready (.evaluation workerId row activeSwitch
        (activeRiskLimits state.db.riskLimits.rows row.scopes))))
  | fenceClaim (state : FenceState) (id : ℕ) (workerId : String) (leaseSeconds : ℤ)
      (hunused : state.Unused id)
      (hlock : state.killSwitches.CanShare id) :
      FenceStep ar state (state.fence id (.claimFenced workerId leaseSeconds))
  | selectCandidate (state : FenceState) (id : ℕ) (workerId : String) (leaseSeconds : ℤ)
      (queriedAt : Instant) (locked : ℤ → Bool) (candidate : PaperJob)
      (hopen : state.transactions id = some (.claimFenced workerId leaseSeconds))
      (hlocked : ∀ job ∈ state.db.jobs.rows,
        state.JobHeld id job.id ∨ state.IntentHeld id job.orderIntentId → locked job.id = true)
      (hcandidate : claimCandidate? (state.db.paper state.killSwitches.rows) queriedAt locked =
        some candidate) :
      FenceStep ar state
        (state.continueWith id (.ready (.claim workerId leaseSeconds candidate)))
  | selectJob (state : FenceState) (id : ℕ) (arguments : PaperCompletion) (queriedAt : Instant)
      (jobId : ℤ) (workerId : String) (leaseGeneration : ℤ) (job : PaperJob)
      (hunused : state.Unused id)
      (hlock : ¬ state.JobHeld id jobId)
      (hjob : lockedClaimedPaperJob queriedAt (state.db.paper state.killSwitches.rows) jobId
        workerId leaseGeneration = .ok job) :
      FenceStep ar state (state.continueWith id (.jobSelected arguments job))
  | selectPaperIntent (state : FenceState) (id : ℕ) (arguments : PaperCompletion)
      (job : PaperJob) (intent : PaperIntent)
      (hopen : state.transactions id = some (.jobSelected arguments job))
      (hlock : ¬ state.IntentHeld id job.orderIntentId)
      (hintent : paperIntentRow (state.db.paper state.killSwitches.rows) job.orderIntentId =
        .ok intent) :
      FenceStep ar state (state.continueWith id (.paperIntentSelected arguments job intent))
  | fenceCompletion (state : FenceState) (id : ℕ) (arguments : PaperCompletion)
      (job : PaperJob) (intent : PaperIntent)
      (hopen : state.transactions id = some (.paperIntentSelected arguments job intent))
      (hlock : state.killSwitches.CanShare id) :
      FenceStep ar state (state.fence id (.completionFenced arguments job intent))
  | readCompletionSwitch (state : FenceState) (id : ℕ) (arguments : PaperCompletion)
      (job : PaperJob) (intent : PaperIntent)
      (hopen : state.transactions id = some (.completionFenced arguments job intent)) :
      FenceStep ar state (state.continueWith id (.ready (.completion arguments job intent
        (activeKillSwitch state.killSwitches.rows
          (riskScopes intent.portfolioId intent.botInstanceId)))))
  | commit (state state' : FenceState) (id : ℕ) (transaction : ReadyTransaction)
      (hcommit : WorkerCommit ar id transaction state state') : FenceStep ar state state'

end Goodmoneying.Program
