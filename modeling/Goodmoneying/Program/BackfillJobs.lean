import Goodmoneying.Library.KeyedTable
import Goodmoneying.Program.CandleLedger

/-!
# Backfill jobs

The queue of backfill jobs of `postgres_repository.py`: planning and approval, the claim by a
worker, the worker's writes under its lease, and the operator's control commands.

Every function but `control_backfill_job` locks the rows of its jobs before it reads them, and is
one step. `control_backfill_job` reads the status without a lock (`controlRead`); its updates hold
the row of the job until the commit (`controlWrite`). A row that another transaction has locked is
left out of a claim. The coverage that a dead letter leaves behind and the fetch manifests are not
part of these tables.
-/

namespace Goodmoneying.Program.Backfill

open Library
open Goodmoneying.Program.CandleLedger (CandleDatabase InstrumentCandle)

/-! ## Tables -/

/-- `backfill_jobs.status`. -/
inductive JobStatus where
  | planned | pending | leased | running | retryWait | paused | stopped | succeeded | failed
  | deadLetter | cancelled
  deriving DecidableEq, Repr

/-- `backfill_job_targets.status`. -/
inductive TargetStatus where
  | pending | running | paused | stopped | succeeded | failed
  deriving DecidableEq, Repr

/-- `target.status IN ('pending', 'running')`. -/
def TargetStatus.active (status : TargetStatus) : Bool :=
  status = .pending || status = .running

/-- `job.status IN ('planned', 'pending', 'leased', 'running', 'retry_wait', 'paused')`. -/
def JobStatus.open (status : JobStatus) : Bool :=
  status ∈ [.planned, .pending, .leased, .running, .retryWait, .paused]

/-- What the `source_candle` spec of a target is named by: its market. -/
abbrev TargetSpecId := String

/-- `backfill_jobs.idempotency_key`. -/
inductive JobKey where
  | manual (planId : String)
  | default (targetSpecId : TargetSpecId) (startAt endAt : Instant)
  | policy (targetSpecId : TargetSpecId) (policyKey : String)
  deriving DecidableEq

/-- A row of `backfill_jobs`; `planId` and `planTargets` are read from `plan`. The plan of an
automatic job names its key there, which no approval asks for. -/
structure BackfillJob where
  id : ℤ
  status : JobStatus
  planId : Option String
  planTargets : List ℤ
  targetStartAt : Instant
  targetEndAt : Instant
  idempotencyKey : JobKey
  priority : ℤ := 100
  createdAt : Instant
  approvedBy : Option String := none
  approvedAt : Option Instant := none
  attemptCount : ℤ := 0
  maxAttempts : ℤ := 5
  nextRetryAt : Option Instant := none
  leaseOwner : Option String := none
  leaseExpiresAt : Option Instant := none
  lastErrorCode : Option String := none
  deadLetterReason : Option String := none
  startedAt : Option Instant := none
  finishedAt : Option Instant := none
  deriving DecidableEq

/-- A row of `backfill_job_targets`. -/
structure BackfillTarget where
  backfillJobId : ℤ
  instrumentId : ℤ
  status : TargetStatus := .pending
  targetSpecId : Option TargetSpecId := none
  processedMissingRangeCount : ℤ := 0
  estimatedMissingRangeCount : ℤ := 0
  rowsWrittenCount : ℤ := 0
  lastCompletedAt : Option Instant := none
  errorCode : Option String := none
  errorMessage : Option String := none
  deriving DecidableEq

namespace BackfillTarget

/-- `PRIMARY KEY (backfill_job_id, instrument_id)`. -/
def key (target : BackfillTarget) : ℤ × ℤ := (target.backfillJobId, target.instrumentId)

end BackfillTarget

/-- A row of `target_collection_results`, with the job of its run. -/
structure TargetCollectionResult where
  backfillJobId : ℤ
  instrumentId : ℤ
  rowsWritten : ℕ

structure BackfillTables where
  jobs : IdentityTable BackfillJob.id
  targets : KeyedTable BackfillTarget.key
  candles : CandleDatabase
  results : List TargetCollectionResult

namespace BackfillTables

/-- `UPDATE backfill_jobs SET … WHERE …`. -/
def updateJobs (db : BackfillTables) (p : BackfillJob → Bool) (change : BackfillJob → BackfillJob)
    (hkey : ∀ job, (change job).id = job.id) : BackfillTables :=
  { db with jobs := db.jobs.update p change hkey }

/-- `UPDATE backfill_job_targets SET … WHERE …`. -/
def updateTargets (db : BackfillTables) (p : BackfillTarget → Bool)
    (change : BackfillTarget → BackfillTarget)
    (hkey : ∀ target, (change target).key = target.key) : BackfillTables :=
  { db with targets := db.targets.update p change hkey }

/-- `UPDATE backfill_job_targets SET status = … WHERE …`. -/
def setTargetStatus (db : BackfillTables) (p : BackfillTarget → Bool) (status : TargetStatus) :
    BackfillTables :=
  db.updateTargets p (fun target => { target with status := status }) fun _ => rfl

/-- `SELECT … FROM backfill_jobs WHERE id = %s`. -/
def job? (db : BackfillTables) (jobId : ℤ) : Option BackfillJob :=
  db.jobs.rows.find? fun job => job.id = jobId

/-- `SELECT … FROM backfill_job_targets WHERE backfill_job_id = %s`. -/
def targetsOf (db : BackfillTables) (jobId : ℤ) : List BackfillTarget :=
  db.targets.rows.filter fun target => target.backfillJobId = jobId

/-- `INSERT INTO backfill_job_targets … ON CONFLICT (backfill_job_id, instrument_id) DO NOTHING`. -/
def insertTarget (db : BackfillTables) (target : BackfillTarget) : BackfillTables :=
  if h : db.targets.rows.any fun row => row.key = target.key then db
  else { db with targets := db.targets.insert target (KeyedTable.not_mem_keys h) }

end BackfillTables

inductive BackfillError where
  | valueError (message : String)
  | targetNotWritable (message : String)
  | runtimeError (message : String)
  deriving DecidableEq, Repr

/-! ## Planning and approval -/

/-- The jobs that `create_backfill_plan` and `approve_backfill_job` find in their way. -/
def conflictingJob (db : BackfillTables) (instrumentId : ℤ) (job : BackfillJob) : Bool :=
  job.status.open &&
  (decide (instrumentId ∈ job.planTargets) ||
    (db.targetsOf job.id).any fun target => target.instrumentId = instrumentId)

/-- `create_backfill_plan`; `planId` is the generated id. -/
def createBackfillPlan (db : BackfillTables) (planId : String) (now : Instant)
    (targetStartAt targetEndAt : Instant) (instrumentIds : List ℤ) :
    Except BackfillError BackfillTables :=
  if targetStartAt ≥ targetEndAt then
    .error (.valueError "백필 종료 시각은 시작 시각보다 뒤여야 한다.")
  else if instrumentIds.any fun instrumentId =>
      db.jobs.rows.any fun job => conflictingJob db instrumentId job then
    .error (.valueError "같은 상품에 이미 활성 백필 작업이 있다.")
  else
    let job (id : ℤ) : BackfillJob := {
      id := id
      status := .planned
      planId := some planId
      planTargets := instrumentIds
      targetStartAt := targetStartAt
      targetEndAt := targetEndAt
      idempotencyKey := .manual planId
      createdAt := now }
    .ok { db with jobs := db.jobs.insert job fun _ => rfl }

/-- The job that `approve_backfill_job` takes: the last one created under the plan. -/
def plannedJob (db : BackfillTables) (planId : String) : Option BackfillJob :=
  maxBy BackfillJob.createdAt
    (db.jobs.rows.filter fun job => job.status = .planned && job.planId = some planId)

/-- Why an instrument of the plan may not be approved; `activeMarket` tells whether it is
collected. -/
def approvalRefusal (db : BackfillTables) (activeMarket : ℤ → Bool) (planned : BackfillJob)
    (instrumentId : ℤ) : Option BackfillError :=
  if db.jobs.rows.any fun job => job.id ≠ planned.id && conflictingJob db instrumentId job then
    some (.valueError "같은 상품에 이미 활성 백필 작업이 있다.")
  else if !activeMarket instrumentId then
    some (.valueError "비활성 수집 시장의 수동 백필 계획은 승인할 수 없다.")
  else none

/-- The `UPDATE` of `approve_backfill_job`. -/
def approveJob (now : Instant) (job : BackfillJob) : BackfillJob :=
  { job with
    status := .pending
    approvedBy := some "local_user"
    approvedAt := some now }

/-- The targets that a plan gives its job. -/
def insertPlanTargets (db : BackfillTables) (jobId : ℤ) (instrumentIds : List ℤ) :
    BackfillTables :=
  instrumentIds.foldl (fun db instrumentId =>
    db.insertTarget { backfillJobId := jobId, instrumentId := instrumentId }) db

/-- `approve_backfill_job`. -/
def approveBackfillJob (db : BackfillTables) (activeMarket : ℤ → Bool) (planId : String)
    (now : Instant) : Except BackfillError BackfillTables :=
  match plannedJob db planId with
  | none => .error (.valueError "존재하지 않는 백필 계획이다.")
  | some planned =>
    match (sortedBy id planned.planTargets).findSome? (approvalRefusal db activeMarket planned) with
    | some refusal => .error refusal
    | none =>
      .ok (insertPlanTargets
        (db.updateJobs (fun job => job.id = planned.id) (approveJob now) fun _ => rfl)
        planned.id planned.planTargets)

/-! ## The claim -/

/-- The `UPDATE` of the job in `_move_backfill_job_to_dead_letter`. -/
def deadLetterJob (errorCode : Option String) (reason : String) (detectedAt : Instant)
    (job : BackfillJob) : BackfillJob :=
  { job with
    status := .deadLetter
    nextRetryAt := none
    leaseOwner := none
    leaseExpiresAt := none
    lastErrorCode := errorCode <|> job.lastErrorCode
    deadLetterReason := some reason
    finishedAt := job.finishedAt <|> some detectedAt }

/-- `status NOT IN ('succeeded', 'stopped', 'paused')`. -/
def TargetStatus.unsettled (status : TargetStatus) : Bool :=
  status ∉ [.succeeded, .stopped, .paused]

/-- `_move_backfill_job_to_dead_letter`, without the coverage. -/
def moveBackfillJobToDeadLetter (db : BackfillTables) (jobId : ℤ) (errorCode : Option String)
    (reason : String) (detectedAt : Instant) : BackfillTables :=
  (db.updateJobs (fun job => job.id = jobId) (deadLetterJob errorCode reason detectedAt)
    fun _ => rfl).setTargetStatus
    (fun target => target.backfillJobId = jobId && target.status.unsettled) .failed

/-- `BACKFILL_LEASE_SECONDS`. -/
def backfillLeaseSeconds : ℤ := 120

/-- The lease of the job is over, or was never given. -/
def BackfillJob.leaseExpired (job : BackfillJob) (now : Instant) : Bool :=
  job.leaseExpiresAt.all fun expiresAt => expiresAt ≤ now

/-- The rows that have used up their attempts and wait or have lost their worker. -/
def exhaustedJob (now : Instant) (job : BackfillJob) : Bool :=
  decide (job.maxAttempts ≤ job.attemptCount) &&
  (job.status = .pending || job.status = .retryWait ||
    (job.status = .running && job.leaseExpired now))

/-- The rows that a worker may claim. -/
def claimableJob (now : Instant) (job : BackfillJob) : Bool :=
  decide (job.attemptCount < job.maxAttempts) &&
  (job.status = .pending ||
    (job.status = .retryWait && job.nextRetryAt.all fun retryAt => retryAt ≤ now) ||
    (job.status = .running && job.leaseExpired now))

/-- `ORDER BY priority DESC, created_at, id`. -/
def backfillClaimOrder (job : BackfillJob) : ℤ ×ₗ ℤ ×ₗ ℤ :=
  toLex (-job.priority, toLex (job.createdAt, job.id))

/-- The row of `backfill_safety_gate`. -/
structure SafetyGate where
  enabled : Bool
  backupVerifiedAt : Option Instant
  freeCapacityBytes : ℤ
  requiredCapacityBytes : ℤ
  approvedSha : Option String

/-- What a worker's process is started with. -/
structure WorkerSettings where
  workerId : String
  enforceBackfillSafetyGate : Bool
  releaseSha : Option String

/-- `_backfill_gate_reason`. -/
def backfillGateReason (settings : WorkerSettings) (gate : Option SafetyGate)
    (checkedAt : Instant) : Option String :=
  if settings.releaseSha.all fun sha => sha = "" then
    some "실행 릴리스 SHA가 없어 백필 안전 게이트를 열 수 없습니다."
  else match gate with
    | none => some "백필 안전 게이트가 운영 승인 전 기본 닫힘 상태입니다."
    | some gate =>
      if !gate.enabled then some "백필 안전 게이트가 운영 승인 전 기본 닫힘 상태입니다."
      else if gate.backupVerifiedAt.all fun verifiedAt =>
          verifiedAt < checkedAt.addSeconds (-86400) || checkedAt < verifiedAt then
        some "최근 24시간 이내 백업 검증 증적이 없습니다."
      else if gate.requiredCapacityBytes ≤ 0 then
        some "백필 필요 용량이 양수 측정값으로 승인되지 않았습니다."
      else if gate.freeCapacityBytes < gate.requiredCapacityBytes then
        some "백필 실행에 필요한 저장소 여유 용량이 부족합니다."
      else if gate.approvedSha ≠ settings.releaseSha then
        some "운영 승인 SHA와 실행 릴리스 SHA가 일치하지 않습니다."
      else none

/-- What a claim meets besides the tables: its clock, the gate, and the rows that are locked when
each of its queries runs. -/
structure ClaimCall where
  settings : WorkerSettings
  claimedAt : Instant
  detectedAt : Instant
  gate : Option SafetyGate
  lockedForSweep : ℤ → Bool
  lockedForClaim : ℤ → Bool

/-- `SELECT … FOR UPDATE SKIP LOCKED` of the rows that are moved to the dead letters. -/
def exhaustedRows (db : BackfillTables) (call : ClaimCall) : List BackfillJob :=
  db.jobs.rows.filter fun job => exhaustedJob call.claimedAt job && !call.lockedForSweep job.id

/-- The move of one of these rows. -/
def buryExhausted (call : ClaimCall) (db : BackfillTables) (job : BackfillJob) : BackfillTables :=
  moveBackfillJobToDeadLetter db job.id job.lastErrorCode
    "backfill attempt budget exhausted before claim" call.detectedAt

/-- The rows that have used up their attempts are moved to the dead letters. -/
def sweepExhausted (db : BackfillTables) (call : ClaimCall) : BackfillTables :=
  (exhaustedRows db call).foldl (buryExhausted call) db

/-- The row that is claimed. -/
def claimedRow (db : BackfillTables) (call : ClaimCall) : Option BackfillJob :=
  (sortedBy backfillClaimOrder (db.jobs.rows.filter fun job =>
    claimableJob call.claimedAt job && !call.lockedForClaim job.id)).head?

/-- The `UPDATE` of the row that is claimed. -/
def claimJob (call : ClaimCall) (job : BackfillJob) : BackfillJob :=
  { job with
    status := .running
    startedAt := job.startedAt <|> some call.claimedAt
    leaseOwner := some call.settings.workerId
    leaseExpiresAt := some (call.claimedAt.addSeconds backfillLeaseSeconds)
    nextRetryAt := none
    attemptCount := job.attemptCount + 1 }

/-- `claim_next_backfill_job`. -/
def claimNextBackfillJob (db : BackfillTables) (call : ClaimCall) :
    Option BackfillJob × BackfillTables :=
  if call.settings.enforceBackfillSafetyGate &&
      (backfillGateReason call.settings call.gate call.claimedAt).isSome then
    (none, db)
  else
    let db := sweepExhausted db call
    match claimedRow db call with
    | none => (none, db)
    | some row => (some (claimJob call row),
        db.updateJobs (fun job => job.id = row.id) (claimJob call) fun _ => rfl)

/-! ## The writes of a worker -/

/-- Who writes to which target, and the clock when the lease is checked and when it is renewed. -/
structure WriteCall where
  workerId : String
  jobId : ℤ
  instrumentId : ℤ
  checkedAt : Instant
  renewedAt : Instant

/-- The join of a target and its job. -/
def joinedTarget (db : BackfillTables) (jobId instrumentId : ℤ) :
    Option (BackfillJob × BackfillTarget) :=
  (db.job? jobId).bind fun job =>
    (db.targets.find fun target =>
      target.backfillJobId = jobId && target.instrumentId = instrumentId).map fun target =>
        (job, target)

/-- `_assert_backfill_write_lease`. -/
def assertBackfillWriteLease (db : BackfillTables) (call : WriteCall) :
    Except BackfillError Unit :=
  match joinedTarget db call.jobId call.instrumentId with
  | none => .error (.valueError "존재하지 않는 백필 작업 대상이다.")
  | some (job, target) =>
    if !target.status.active then
      .error (.targetNotWritable "백필 대상이 중지되었거나 기록 가능한 상태가 아니다.")
    else if job.status ≠ .running ∨ job.leaseOwner ≠ some call.workerId ∨
        job.leaseExpired call.checkedAt then
      .error (.runtimeError "백필 쓰기 임대가 없거나 만료되어 결과를 기록할 수 없다.")
    else .ok ()

/-- `_renew_backfill_lease`. -/
def renewBackfillLease (db : BackfillTables) (call : WriteCall) : BackfillTables :=
  db.updateJobs (fun job => job.id = call.jobId && job.status = .running &&
      job.leaseOwner = some call.workerId)
    (fun job => { job with
      leaseExpiresAt := some (call.renewedAt.addSeconds backfillLeaseSeconds) }) fun _ => rfl

section Candles

variable (ar : Arithmetic) (sha256 : String → String)

/-- The candles of a worker and the state of their target, once its lease is checked. -/
def storeBackfillCandles (db : BackfillTables) (call : WriteCall)
    (marketId : ℤ → String → Option ℤ) (candles : List InstrumentCandle) : BackfillTables :=
  let stored : BackfillTables := { db with
    candles := (CandleLedger.upsertCandles ar sha256 db.candles ⟨candles, marketId⟩).2
    results := db.results ++ [⟨call.jobId, call.instrumentId, candles.length⟩] }
  stored.setTargetStatus (fun target => target.backfillJobId = call.jobId &&
    target.instrumentId = call.instrumentId && target.status = .pending) .running

/-- `record_backfill_candles`; `marketId` is what its manifests know of the markets. -/
def recordBackfillCandles (db : BackfillTables) (call : WriteCall)
    (marketId : ℤ → String → Option ℤ) (candles : List InstrumentCandle) :
    Except BackfillError BackfillTables :=
  if candles.any fun item => item.instrumentId ≠ call.instrumentId then
    .error (.valueError "백필 캔들 대상 instrument_id가 작업 대상과 다르다.")
  else do
    assertBackfillWriteLease db call
    pure (renewBackfillLease (storeBackfillCandles ar sha256 db call marketId candles) call)

end Candles

/-- The arguments of `record_backfill_target_progress`. -/
structure TargetProgress where
  processedMissingRangeCount : ℤ
  estimatedMissingRangeCount : ℤ
  rowsWrittenCount : ℤ
  lastCompletedAt : Option Instant

/-- The `UPDATE` of `record_backfill_target_progress`. -/
def setProgress (progress : TargetProgress) (target : BackfillTarget) : BackfillTarget :=
  { target with
    processedMissingRangeCount := max 0 progress.processedMissingRangeCount
    estimatedMissingRangeCount := max 0 progress.estimatedMissingRangeCount
    rowsWrittenCount := max 0 progress.rowsWrittenCount
    lastCompletedAt := progress.lastCompletedAt }

/-- `record_backfill_target_progress`. -/
def recordBackfillTargetProgress (db : BackfillTables) (call : WriteCall)
    (progress : TargetProgress) : Except BackfillError BackfillTables := do
  assertBackfillWriteLease db call
  let db := db.updateTargets (fun target => target.backfillJobId = call.jobId &&
    target.instrumentId = call.instrumentId) (setProgress progress) fun _ => rfl
  pure (renewBackfillLease db call)

/-! ## The progress of a job -/

/-- `BACKFILL_RETRY_BASE_SECONDS` and `BACKFILL_RETRY_MAX_SECONDS`. -/
def backfillRetryBaseSeconds : ℤ := 5
def backfillRetryMaxSeconds : ℤ := 300

/-- `needle in text`. -/
def containsText (needle text : String) : Bool :=
  decide (needle.toList <:+: text.toList)

/-- `_response_status_from_error_code`. -/
def responseStatusFromErrorCode (errorCode : Option String) : Option ℤ :=
  errorCode.bind fun code =>
    if containsText "418" code then some 418
    else if containsText "429" code then some 429
    else none

/-- The delay before the next attempt, in microseconds. -/
def backfillRetryDelay (attemptCount : ℤ) (retryAfter : Option ℤ) (errorCode : Option String) : ℤ :=
  let exponentialDelay := 1000000 * min backfillRetryMaxSeconds
    (backfillRetryBaseSeconds * 2 ^ (max 0 (attemptCount - 1)).toNat)
  match retryAfter with
  | some retryAfter => max exponentialDelay retryAfter
  | none =>
    match responseStatusFromErrorCode errorCode with
    | some 418 => max exponentialDelay (1000000 * backfillRetryMaxSeconds)
    | some 429 => max exponentialDelay 1000000
    | _ => exponentialDelay

/-- The statuses in which `_refresh_backfill_job_progress` leaves a job alone. -/
def JobStatus.settled (status : JobStatus) : Bool :=
  status ∈ [.retryWait, .paused, .stopped, .succeeded, .failed, .deadLetter, .cancelled]

/-- What the targets of a job make of it when none has failed. -/
def statusOfTargets (targets : List BackfillTarget) : JobStatus :=
  if targets.any fun target => target.status.active then .running
  else if targets.any fun target => target.status = .paused then .paused
  else if targets.all fun target => target.status = .succeeded || target.status = .stopped then
    .succeeded
  else .running

/-- The job waits for its next attempt. -/
def waitForRetry (nextRetryAt : Instant) (errorCode : Option String) (job : BackfillJob) :
    BackfillJob :=
  { job with
    status := .retryWait
    nextRetryAt := some nextRetryAt
    leaseOwner := none
    leaseExpiresAt := none
    lastErrorCode := errorCode
    deadLetterReason := none
    finishedAt := none }

/-- The job takes the status of its targets. -/
def setJobStatus (status : JobStatus) (now : Instant) (job : BackfillJob) : BackfillJob :=
  let released := status = .succeeded ∨ status = .paused
  { job with
    status := status
    finishedAt := if status = .succeeded then some now else job.finishedAt
    nextRetryAt := none
    leaseOwner := if released then none else job.leaseOwner
    leaseExpiresAt := if released then none else job.leaseExpiresAt }

/-- When a progress is refreshed: the clocks of the database and of the process, and the delay
that the source has asked for. -/
structure RefreshCall where
  now : Instant
  detectedAt : Instant
  retryAfter : Option ℤ

/-- `_refresh_backfill_job_progress` of a job whose last failed target is `failure`. -/
def refreshFailed (db : BackfillTables) (job : BackfillJob) (call : RefreshCall)
    (failure : BackfillTarget) : BackfillTables :=
  if job.attemptCount < job.maxAttempts then
    let retryAt := call.now + backfillRetryDelay job.attemptCount call.retryAfter failure.errorCode
    (db.setTargetStatus (fun target => target.backfillJobId = job.id && target.status = .failed)
      .pending).updateJobs (fun row => row.id = job.id) (waitForRetry retryAt failure.errorCode)
      fun _ => rfl
  else
    -- an empty text is as good as none in `error_message or error_code or …`
    let reason := ((failure.errorMessage.filter (· ≠ "")) <|>
      failure.errorCode.filter (· ≠ "")).getD "backfill attempt budget exhausted"
    moveBackfillJobToDeadLetter db job.id failure.errorCode reason call.detectedAt

/-- `_refresh_backfill_job_progress`. -/
def refreshBackfillJobProgress (db : BackfillTables) (jobId : ℤ) (call : RefreshCall) :
    BackfillTables :=
  (db.job? jobId).elim db fun job =>
    if job.status.settled then db
    else if (db.targetsOf jobId).isEmpty then
      moveBackfillJobToDeadLetter db jobId (some "BackfillTargetsMissing")
        "backfill job has no targets" call.detectedAt
    else
      (maxBy BackfillTarget.instrumentId
        ((db.targetsOf jobId).filter fun target => target.status = .failed)).elim
        (db.updateJobs (fun row => row.id = jobId)
          (setJobStatus (statusOfTargets (db.targetsOf jobId)) call.now) fun _ => rfl)
        (refreshFailed db job call)

/-- The arguments of `mark_backfill_target`. -/
structure TargetMark where
  status : TargetStatus
  lastCompletedAt : Option Instant
  errorCode : Option String := none
  errorMessage : Option String := none

/-- `GREATEST(a, b)`. -/
def greatest (a b : Option Instant) : Option Instant :=
  match a, b with
  | some a, some b => some (max a b)
  | some a, none => some a
  | none, b => b

/-- The `UPDATE` of `mark_backfill_target`. -/
def setMark (mark : TargetMark) (target : BackfillTarget) : BackfillTarget :=
  { target with
    status := mark.status
    lastCompletedAt := greatest target.lastCompletedAt mark.lastCompletedAt
    errorCode := mark.errorCode
    errorMessage := mark.errorMessage }

/-- `mark_backfill_target`. -/
def markBackfillTarget (db : BackfillTables) (call : WriteCall) (mark : TargetMark)
    (refresh : RefreshCall) : Except BackfillError BackfillTables := do
  assertBackfillWriteLease db call
  let db := db.updateTargets (fun target => target.backfillJobId = call.jobId &&
    target.instrumentId = call.instrumentId) (setMark mark) fun _ => rfl
  pure (refreshBackfillJobProgress db call.jobId refresh)

/-! ## Control -/

/-- The commands of `control_backfill_job`. -/
inductive ControlAction where
  | pause | stop | resume | safeRestart
  deriving DecidableEq, Repr

namespace ControlAction

/-- `action in {"resume", "safe-restart"}`. -/
def restarts (action : ControlAction) : Bool := action = .resume || action = .safeRestart

/-- The statuses in which the command is accepted. -/
def accepts : ControlAction → JobStatus → Bool
  | .pause, status => status ∈ [.pending, .leased, .running, .retryWait]
  | .stop, _ => true
  | .resume, status => status ∈ [.paused, .failed]
  | .safeRestart, status => status ∈ [.paused, .stopped, .failed, .deadLetter, .cancelled]

/-- The text of a refusal. -/
def refusal : ControlAction → String
  | .pause => "현재 상태의 백필 작업은 일시정지할 수 없다."
  | .stop => ""
  | .resume => "현재 상태의 백필 작업은 재개할 수 없다."
  | .safeRestart => "현재 상태의 백필 작업은 안전 재시작할 수 없다."

def nextStatus : ControlAction → JobStatus
  | .pause => .paused
  | .stop => .stopped
  | .resume | .safeRestart => .pending

/-- The targets whose status the command sets. -/
def affects : ControlAction → TargetStatus → Bool
  | .pause, status => status.active
  | .stop, status => status ∉ [.succeeded, .failed]
  | .resume, status | .safeRestart, status => status ≠ .succeeded

def targetStatus : ControlAction → TargetStatus
  | .pause => .paused
  | .stop => .stopped
  | .resume | .safeRestart => .pending

end ControlAction

/-- The reading of `control_backfill_job` and its checks. -/
def controlRead (db : BackfillTables) (jobId : ℤ) (action : ControlAction) :
    Except BackfillError Unit :=
  match db.job? jobId with
  | none => .error (.valueError "존재하지 않는 백필 작업이다.")
  | some current =>
    if current.status = .succeeded then
      .error (.valueError "완료 또는 중지된 백필 작업은 해당 명령을 수행할 수 없다.")
    else if !action.accepts current.status then .error (.valueError action.refusal)
    else .ok ()

/-- The `UPDATE` of the job. -/
def controlJob (action : ControlAction) (job : BackfillJob) : BackfillJob :=
  { job with
    status := action.nextStatus
    leaseOwner := none
    leaseExpiresAt := none
    nextRetryAt := none
    attemptCount := if action = .safeRestart then 0 else job.attemptCount
    lastErrorCode := if action = .safeRestart then none else job.lastErrorCode
    deadLetterReason := if action = .safeRestart then none else job.deadLetterReason
    finishedAt := if action.restarts then none else job.finishedAt }

/-- The updates of `control_backfill_job`. -/
def controlWrite (db : BackfillTables) (jobId : ℤ) (action : ControlAction) : BackfillTables :=
  (db.updateJobs (fun job => job.id = jobId) (controlJob action) fun _ => rfl).setTargetStatus
    (fun target => target.backfillJobId = jobId && action.affects target.status)
    action.targetStatus

/-- `control_backfill_job`, when no other transaction comes between. -/
def controlBackfillJob (db : BackfillTables) (jobId : ℤ) (action : ControlAction) :
    Except BackfillError BackfillTables := do
  controlRead db jobId action
  pure (controlWrite db jobId action)

/-! ## Interleavings -/

/-- The tables, and the control commands that have read the status of their job and have not
written yet. -/
structure BackfillState where
  tables : BackfillTables
  controls : ℕ → Option (ℤ × ControlAction)

/-- A transaction of a worker, or a part of the transaction of a control command. -/
inductive BackfillEvent where
  | claim (call : ClaimCall)
  | recordCandles (call : WriteCall) (marketId : ℤ → String → Option ℤ)
      (candles : List InstrumentCandle)
  | recordProgress (call : WriteCall) (progress : TargetProgress)
  | mark (call : WriteCall) (mark : TargetMark) (refresh : RefreshCall)
  | controlRead (control : ℕ) (jobId : ℤ) (action : ControlAction)
  | controlWrite (control : ℕ)

/-- The write that a worker attempts. -/
def BackfillEvent.write? : BackfillEvent → Option WriteCall
  | .recordCandles call .. | .recordProgress call _ | .mark call .. => some call
  | .claim _ | .controlRead .. | .controlWrite _ => none

namespace BackfillState

/-- The state with other tables. -/
def withTables (state : BackfillState) (tables : BackfillTables) : BackfillState :=
  { state with tables := tables }

variable (ar : Arithmetic) (sha256 : String → String)

/-- What an event does, or the exception that it raises. -/
def attempt (state : BackfillState) : BackfillEvent → Except BackfillError BackfillState
  | .claim call => .ok (state.withTables (claimNextBackfillJob state.tables call).2)
  | .recordCandles call marketId candles =>
    (recordBackfillCandles ar sha256 state.tables call marketId candles).map state.withTables
  | .recordProgress call progress =>
    (recordBackfillTargetProgress state.tables call progress).map state.withTables
  | .mark call mark refresh =>
    (markBackfillTarget state.tables call mark refresh).map state.withTables
  | .controlRead control jobId action =>
    (Backfill.controlRead state.tables jobId action).map fun _ =>
      { state with controls := Function.update state.controls control (some (jobId, action)) }
  | .controlWrite control =>
    .ok ((state.controls control).elim state fun command =>
      { tables := Backfill.controlWrite state.tables command.1 command.2
        controls := Function.update state.controls control none })

/-- The state after an event; one that raises is rolled back. -/
def after (state : BackfillState) (event : BackfillEvent) : BackfillState :=
  match attempt ar sha256 state event with
  | .ok state' => state'
  | .error _ => state

/-- The state after a run. -/
def afterEvents (state : BackfillState) (events : List BackfillEvent) : BackfillState :=
  events.foldl (after ar sha256) state

end BackfillState

end Goodmoneying.Program.Backfill
