import Goodmoneying.Library.KeyedTable
import Goodmoneying.Program.BacktestTables

/-!
# The queue of backtest runs

`claim_next_run`, `complete_claimed_run` and `fail_claimed_run` of `backtest_store.py`, on the
tables of the migrations `20260718000200_p4_backtest_runs.sql`,
`20260718000300_p4_backtest_worker_leases.sql` and `20260718000400`. A worker claims a run for
the time of a lease, computes its result and stores it, or reports a failure.

Every function is one transaction, serialised by its row locks; an exception rolls it back. The
clock is read by each of its statements (`ClockReadings`). The `CHECK` constraints on the leases
and the seal of finished runs are not evaluated by the updates.
-/

namespace Goodmoneying.Program

open Library

/-! ## Runs -/

/-- `backtest_runs.status`. -/
inductive QueueStatus where
  | queued | running | retryWait | succeeded | failed | cancelled | deadLetter
  deriving DecidableEq, Repr

/-- The status that a result gives its run. -/
def QueueStatus.ofResult : BacktestRunStatus → QueueStatus
  | .succeeded => .succeeded
  | .failed => .failed

/-- `_run_status`. -/
def runStatus : QueueStatus → String
  | .queued | .retryWait => "pending"
  | .deadLetter | .failed => "failed"
  | .running => "running"
  | .succeeded => "succeeded"
  | .cancelled => "cancelled"

/-- A row of `backtest_runs`. -/
structure BacktestRun where
  id : ℤ
  strategyVersionId : ℤ
  strategyGraphHash : String
  datasetVersionId : ℤ
  datasetContentHash : String
  engineVersion : String
  status : QueueStatus := .queued
  inputHash : String
  inputPayload : CanonicalValue
  resultHash : Option String := none
  parameterHash : String
  seed : ℤ
  assumptions : List String
  idempotencyKey : String
  requestId : String
  actorId : String
  requestedAt : Instant
  reason : String
  requestHash : String
  startedAt : Option Instant := none
  finishedAt : Option Instant := none
  attemptCount : ℤ := 0
  maxAttempts : ℤ := 3
  nextRetryAt : Option Instant := none
  leaseOwner : Option String := none
  leaseExpiresAt : Option Instant := none
  leaseGeneration : ℤ := 0
  lastErrorCode : Option String := none
  lastErrorMessage : Option String := none
  deadLetterReason : Option String := none

/-- `backtest_runs`, with its primary key. -/
abbrev RunTable := KeyedTable BacktestRun.id

/-- What `_claimed_run_response` returns. -/
structure ClaimedRunResponse where
  backtestRunId : ℤ
  strategyVersionId : ℤ
  strategyGraphHash : String
  datasetVersionId : ℤ
  datasetContentHash : String
  engineVersion : String
  status : QueueStatus
  inputHash : String
  inputPayload : CanonicalValue
  parameterHash : String
  seed : ℤ
  leaseOwner : Option String
  leaseGeneration : ℤ
  attemptCount : ℤ
  maxAttempts : ℤ
  nextRetryAt : Option Instant
  lastErrorCode : Option String
  lastErrorMessage : Option String
  deadLetterReason : Option String

/-- `_claimed_run_response`. -/
def claimedRunResponse (run : BacktestRun) : ClaimedRunResponse where
  backtestRunId := run.id
  strategyVersionId := run.strategyVersionId
  strategyGraphHash := run.strategyGraphHash
  datasetVersionId := run.datasetVersionId
  datasetContentHash := run.datasetContentHash
  engineVersion := run.engineVersion
  status := run.status
  inputHash := run.inputHash
  inputPayload := run.inputPayload
  parameterHash := run.parameterHash
  seed := run.seed
  leaseOwner := run.leaseOwner
  leaseGeneration := run.leaseGeneration
  attemptCount := run.attemptCount
  maxAttempts := run.maxAttempts
  nextRetryAt := run.nextRetryAt
  lastErrorCode := run.lastErrorCode
  lastErrorMessage := run.lastErrorMessage
  deadLetterReason := run.deadLetterReason

/-! ## The rows of a result -/

/-- A row of `backtest_metrics`. -/
structure BacktestMetricRow where
  metricName : String
  scopeKey : String
  metricValue : ℚ
  metricPayload : CanonicalValue := .mapping []

/-- An entry of the `artifacts` argument; the first two keys may be missing. -/
structure ArtifactInput where
  artifactType : Option String
  contentHash : Option String
  storageUri : Option String := none
  metadata : CanonicalValue := .mapping []

/-- A row of `backtest_artifacts`. -/
structure BacktestArtifactRow where
  artifactType : String
  contentHash : String
  mediaType : String
  storageUri : Option String
  artifactJson : CanonicalValue

/-- The rows of one run in `backtest_trades`, `backtest_equity_points`, `backtest_metrics` and
`backtest_artifacts`. -/
structure ResultRows where
  trades : List BacktestTradeRow := []
  equityPoints : List BacktestEquityPointRow := []
  metrics : List BacktestMetricRow := []
  artifacts : List BacktestArtifactRow := []

/-- A `UNIQUE` constraint on the rows of a run. -/
def appendUnique {α κ : Type} [DecidableEq κ] (key : α → κ) (rows : List α) (row : α) :
    Except StoreError (List α) :=
  if key row ∈ rows.map key then .error .uniqueViolation else .ok (rows ++ [row])

/-- `~ '^[0-9a-f]{64}$'`. -/
def isHashText (text : String) : Bool :=
  text.toList.length = 64 &&
  text.toList.all fun c => ('0' ≤ c && c ≤ '9') || ('a' ≤ c && c ≤ 'f')

/-- One round of `_insert_trades`. -/
def insertRunTrade (ar : Arithmetic) (rows : List BacktestTradeRow) (item : BacktestTrade × ℕ) :
    Except StoreError (List BacktestTradeRow) := do
  let row ← insertTrade ar item.2 item.1
  appendUnique BacktestTradeRow.tradeSequence rows row

/-- One round of `_insert_equity_points`. -/
def insertRunEquityPoint (ar : Arithmetic) (rows : List BacktestEquityPointRow)
    (item : BacktestEquityPoint × ℕ) : Except StoreError (List BacktestEquityPointRow) := do
  let row ← insertEquityPoint ar rows item.2 item.1
  appendUnique BacktestEquityPointRow.pointSequence rows row

/-- One round of `_insert_metrics`. -/
def insertRunMetric (ar : Arithmetic) (rows : List BacktestMetricRow) (item : String × ℚ) :
    Except StoreError (List BacktestMetricRow) := do
  let value ← ar.store item.2
  check (!blank item.1)
  appendUnique (fun row => (row.metricName, row.scopeKey)) rows
    { metricName := item.1, scopeKey := "run", metricValue := value }

/-- `mapping[key]`. -/
def requiredKey (key : String) : Option String → Except StoreError String
  | some value => .ok value
  | none => .error (.keyError key)

/-- One round of `_insert_artifacts`. -/
def insertRunArtifact (rows : List BacktestArtifactRow) (artifact : ArtifactInput) :
    Except StoreError (List BacktestArtifactRow) := do
  let artifactType ← requiredKey "artifactType" artifact.artifactType
  let contentHash ← requiredKey "contentHash" artifact.contentHash
  check (isHashText contentHash && !blank artifactType)
  appendUnique (fun row => (row.artifactType, row.contentHash)) rows
    { artifactType := artifactType
      contentHash := contentHash
      mediaType := "application/json"
      storageUri := artifact.storageUri
      artifactJson := artifact.metadata }

/-- `_insert_trades`, `_insert_equity_points`, `_insert_metrics` and `_insert_artifacts`, after
the rows that the run has already. -/
def insertResult (ar : Arithmetic) (rows : ResultRows) (result : BacktestResult)
    (artifacts : List ArtifactInput) : Except StoreError ResultRows := do
  let trades ← (result.trades.zipIdx 1).foldlM (insertRunTrade ar) rows.trades
  let equityPoints ← (result.equityPoints.zipIdx 1).foldlM (insertRunEquityPoint ar)
    rows.equityPoints
  let metrics ← (sortedBy Prod.fst result.metrics).foldlM (insertRunMetric ar) rows.metrics
  let artifacts ← artifacts.foldlM insertRunArtifact rows.artifacts
  pure {
    trades := trades
    equityPoints := equityPoints
    metrics := metrics
    artifacts := artifacts }

/-! ## The database -/

/-- The tables of the backtest queue; the rows of a result are looked up by their `run_id`. -/
structure BacktestDatabase where
  runs : RunTable
  results : ℤ → ResultRows

/-- The readings of the clock in one transaction, in the order of its statements. -/
structure ClockReadings where
  sweptAt : Instant
  queriedAt : Instant
  updatedAt : Instant
  swept_le : sweptAt ≤ queriedAt
  queried_le : queriedAt ≤ updatedAt

/-- What `_get_run_with_connection` returns. -/
structure SavedRunResponse where
  backtestRunId : ℤ
  strategyVersionId : ℤ
  datasetVersionId : ℤ
  inputHash : String
  resultHash : Option String
  status : String
  metrics : List BacktestMetricRow
  trades : List BacktestTradeRow
  artifacts : List BacktestArtifactRow
  requestHash : String

/-- `_get_run_with_connection`. -/
def getRunWithConnection (db : BacktestDatabase) (runId : ℤ) : Option SavedRunResponse :=
  (db.runs.find fun run => run.id = runId).map fun run => {
    backtestRunId := run.id
    strategyVersionId := run.strategyVersionId
    datasetVersionId := run.datasetVersionId
    inputHash := run.inputHash
    resultHash := run.resultHash
    status := runStatus run.status
    metrics := sortedBy (fun row : BacktestMetricRow => toLex (row.metricName, row.scopeKey))
      (db.results runId).metrics
    trades := sortedBy BacktestTradeRow.tradeSequence (db.results runId).trades
    artifacts := sortedBy BacktestArtifactRow.artifactType (db.results runId).artifacts
    requestHash := run.requestHash }

/-! ## Claiming -/

/-- The lease of a run is over. -/
def BacktestRun.leaseExpired (run : BacktestRun) (now : Instant) : Bool :=
  run.leaseExpiresAt.any fun expiresAt => expiresAt ≤ now

/-- The condition of the first update of `claim_next_run`. -/
def BacktestRun.exhausted (now : Instant) (run : BacktestRun) : Bool :=
  run.status = .running && run.leaseExpired now && run.maxAttempts ≤ run.attemptCount

/-- The first update of `claim_next_run`. -/
def BacktestRun.deadLettered (now : Instant) (run : BacktestRun) : BacktestRun :=
  { run with
    status := .deadLetter
    leaseOwner := none
    leaseExpiresAt := none
    nextRetryAt := none
    deadLetterReason := some "retry_attempts_exhausted"
    finishedAt := some now }

theorem BacktestRun.deadLettered_id (now : Instant) (run : BacktestRun) :
    (run.deadLettered now).id = run.id := rfl

/-- The runs after the first update of `claim_next_run`. -/
def sweptRuns (runs : RunTable) (now : Instant) : RunTable :=
  runs.update (BacktestRun.exhausted now) (BacktestRun.deadLettered now)
    (BacktestRun.deadLettered_id now)

/-- The `WHERE` condition of the candidate query. -/
def BacktestRun.claimable (now : Instant) (run : BacktestRun) : Bool :=
  run.attemptCount < run.maxAttempts &&
  match run.status with
  | .queued => true
  | .retryWait => run.nextRetryAt.any fun retryAt => retryAt ≤ now
  | .running => run.leaseExpired now
  | .succeeded | .failed | .cancelled | .deadLetter => false

/-- `ORDER BY requested_at, id`. -/
def runOrder (run : BacktestRun) : Instant ×ₗ ℤ := toLex (run.requestedAt, run.id)

/-- The candidate query; `locked` are the runs whose rows other transactions hold. -/
def runCandidate? (runs : RunTable) (now : Instant) (locked : ℤ → Bool) : Option BacktestRun :=
  (sortedBy runOrder (runs.rows.filter fun run => run.claimable now && !locked run.id)).head?

/-- The last update of `claim_next_run`. -/
def BacktestRun.claimed (owner : String) (expiresAt now : Instant) (generation : ℤ)
    (run : BacktestRun) : BacktestRun :=
  { run with
    status := .running
    leaseOwner := some owner
    leaseExpiresAt := some expiresAt
    leaseGeneration := generation
    attemptCount := run.attemptCount + 1
    nextRetryAt := none
    deadLetterReason := none
    startedAt := some (run.startedAt.getD now)
    finishedAt := none }

theorem BacktestRun.claimed_id (owner : String) (expiresAt now : Instant) (generation : ℤ)
    (run : BacktestRun) : (run.claimed owner expiresAt now generation).id = run.id := rfl

/-- The run of an id and a generation. -/
def BacktestRun.ofGeneration (runId generation : ℤ) (run : BacktestRun) : Bool :=
  run.id = runId && run.leaseGeneration = generation

/-- `claim_next_run`. -/
def claimNextRun (clock : ClockReadings) (locked : ℤ → Bool) (db : BacktestDatabase)
    (workerId : String) (leaseSeconds : ℤ) :
    Except StoreError (Option ClaimedRunResponse × BacktestDatabase) := do
  let owner ← nonBlank workerId "workerId"
  if leaseSeconds < 1 then throw (.valueError "leaseSeconds는 1 이상 정수여야 한다.")
  let runs := sweptRuns db.runs clock.sweptAt
  match runCandidate? runs clock.queriedAt locked with
  | none => pure (none, { db with runs := runs })
  | some run =>
    let expiresAt := clock.updatedAt.addSeconds leaseSeconds
    let generation := run.leaseGeneration + 1
    let held := BacktestRun.ofGeneration run.id run.leaseGeneration
    let updated := runs.update held
      (BacktestRun.claimed owner expiresAt clock.updatedAt generation)
      (BacktestRun.claimed_id owner expiresAt clock.updatedAt generation)
    pure ((runs.find held).map fun run =>
      claimedRunResponse (run.claimed owner expiresAt clock.updatedAt generation),
      { db with runs := updated })

/-! ## Completing and failing -/

/-- The condition of the queries of `complete_claimed_run` and `fail_claimed_run`. -/
def BacktestRun.leasedTo (now : Instant) (runId : ℤ) (owner : String) (leaseGeneration : ℤ)
    (run : BacktestRun) : Bool :=
  run.id = runId && run.status = .running && run.leaseOwner = some owner &&
  run.leaseGeneration = leaseGeneration && run.leaseExpiresAt.any fun expiresAt => now < expiresAt

/-- The update of `complete_claimed_run`. -/
def BacktestRun.completed (result : BacktestResult) (completedAt : Instant) (run : BacktestRun) :
    BacktestRun :=
  { run with
    status := .ofResult result.status
    resultHash := some result.resultHash
    assumptions := result.assumptions
    leaseOwner := none
    leaseExpiresAt := none
    finishedAt := some completedAt }

theorem BacktestRun.completed_id (result : BacktestResult) (completedAt : Instant)
    (run : BacktestRun) : (run.completed result completedAt).id = run.id := rfl

/-- `isinstance(value, int)` holds by the type; the value has to be at least 1. -/
def atLeastOne (value : ℤ) (message : String) : Except StoreError Unit :=
  if value < 1 then .error (.valueError message) else .ok ()

/-- `complete_claimed_run`; `completedAt` is the argument or the time of the worker. -/
def completeClaimedRun (ar : Arithmetic) (clock : ClockReadings) (db : BacktestDatabase)
    (runId : ℤ) (workerId : String) (leaseGeneration : ℤ) (result : BacktestResult)
    (artifacts : List ArtifactInput) (completedAt : Instant) :
    Except StoreError (SavedRunResponse × BacktestDatabase) := do
  let owner ← nonBlank workerId "workerId"
  atLeastOne runId "backtestRunId는 1 이상 정수여야 한다."
  atLeastOne leaseGeneration "leaseGeneration은 1 이상 정수여야 한다."
  match db.runs.find (BacktestRun.leasedTo clock.queriedAt runId owner leaseGeneration) with
  | none => throw (.leaseLost "백테스트 run 임대가 현재 worker에 속하지 않는다.")
  | some run =>
    if run.inputHash ≠ result.inputHash then
      throw (.valueError "백테스트 result input_hash가 임대 run과 다르다.")
    let rows ← insertResult ar (db.results runId) result artifacts
    let held := BacktestRun.leasedTo clock.updatedAt runId owner leaseGeneration
    if (db.runs.find held).isNone then
      throw (.leaseLost "백테스트 run 완료 전 임대를 잃었다.")
    check (isHashText result.resultHash)
    let completed : BacktestDatabase := {
      runs := db.runs.update held (BacktestRun.completed result completedAt)
        (BacktestRun.completed_id result completedAt)
      results := Function.update db.results runId rows }
    match getRunWithConnection completed runId with
    | none => throw .assertionError
    | some saved => pure (saved, completed)

/-- The update of `fail_claimed_run`, where the delay of the next attempt is `delay`. -/
def BacktestRun.failed (now : Instant) (code message : String) (delay : ℤ) (run : BacktestRun) :
    BacktestRun :=
  let exhausted := run.maxAttempts ≤ run.attemptCount
  { run with
    status := if exhausted then .deadLetter else .retryWait
    leaseOwner := none
    leaseExpiresAt := none
    nextRetryAt := if exhausted then none else some (now.addSeconds delay)
    lastErrorCode := some code
    lastErrorMessage := some message
    deadLetterReason := if exhausted then some code else none
    finishedAt := if exhausted then some now else none }

theorem BacktestRun.failed_id (now : Instant) (code message : String) (delay : ℤ)
    (run : BacktestRun) : (run.failed now code message delay).id = run.id := rfl

/-- `LEAST(300, power(2, attempt_count)::integer)`, evaluated where an attempt is left. -/
def retryDelay (run : BacktestRun) : Except StoreError ℤ :=
  if run.maxAttempts ≤ run.attemptCount then .ok 0
  else min 300 <$> integerColumn (2 ^ run.attemptCount.toNat)

/-- `fail_claimed_run`. -/
def failClaimedRun (clock : ClockReadings) (db : BacktestDatabase) (runId : ℤ)
    (workerId : String) (leaseGeneration : ℤ) (errorCode message : String) :
    Except StoreError (ClaimedRunResponse × BacktestDatabase) := do
  let owner ← nonBlank workerId "workerId"
  let code ← nonBlank errorCode "errorCode"
  let failureMessage ← nonBlank message "message"
  atLeastOne runId "backtestRunId는 1 이상 정수여야 한다."
  atLeastOne leaseGeneration "leaseGeneration은 1 이상 정수여야 한다."
  let held := BacktestRun.leasedTo clock.updatedAt runId owner leaseGeneration
  match db.runs.find held with
  | none => throw (.leaseLost "백테스트 run 실패 전이를 쓸 임대를 잃었다.")
  | some run =>
    let delay ← retryDelay run
    let updated := db.runs.update held
      (BacktestRun.failed clock.updatedAt code failureMessage delay)
      (BacktestRun.failed_id clock.updatedAt code failureMessage delay)
    pure (claimedRunResponse (run.failed clock.updatedAt code failureMessage delay),
      { db with runs := updated })

/-! ## Interleavings -/

/-- A call of `complete_claimed_run`. -/
structure Completion where
  runId : ℤ
  workerId : String
  leaseGeneration : ℤ
  result : BacktestResult
  artifacts : List ArtifactInput

/-- One transaction of a worker. -/
inductive BacktestTransaction where
  | claim (locked : ℤ → Bool) (workerId : String) (leaseSeconds : ℤ)
  | complete (call : Completion) (completedAt : Instant)
  | fail (runId : ℤ) (workerId : String) (leaseGeneration : ℤ) (errorCode message : String)

/-- The database that a transaction would commit. -/
def BacktestTransaction.run (ar : Arithmetic) (clock : ClockReadings) (db : BacktestDatabase) :
    BacktestTransaction → Except StoreError BacktestDatabase
  | .claim locked workerId leaseSeconds =>
    Prod.snd <$> claimNextRun clock locked db workerId leaseSeconds
  | .complete call completedAt =>
    Prod.snd <$> completeClaimedRun ar clock db call.runId call.workerId call.leaseGeneration
      call.result call.artifacts completedAt
  | .fail runId workerId leaseGeneration errorCode message =>
    Prod.snd <$> failClaimedRun clock db runId workerId leaseGeneration errorCode message

/-- The database, and the completions that have been committed. -/
structure BacktestState where
  db : BacktestDatabase
  completions : List Completion

/-- The completions that a committed transaction adds. -/
def BacktestTransaction.completions : BacktestTransaction → List Completion
  | .complete call _ => [call]
  | .claim .. | .fail .. => []

/-- The state after a transaction; an exception rolls back. -/
def BacktestState.after (ar : Arithmetic) (clock : ClockReadings) (state : BacktestState)
    (transaction : BacktestTransaction) : BacktestState :=
  match transaction.run ar clock state.db with
  | .ok db => { db := db, completions := state.completions ++ transaction.completions }
  | .error _ => state

/-- One transaction. A worker that crashes makes no step. Transactions on different rows overlap,
so the readings of one are in no order with those of another. -/
inductive BacktestStep (ar : Arithmetic) : BacktestState → BacktestState → Prop
  | transaction (state : BacktestState) (clock : ClockReadings)
      (transaction : BacktestTransaction) :
      BacktestStep ar state (state.after ar clock transaction)

end Goodmoneying.Program
