import Goodmoneying.Library.IdentityTable
import Goodmoneying.Program.Aggregation

/-!
# The queue of the full aggregation

`candle_aggregation_jobs` with their targets, and the functions on them of
`postgres_repository.py`: a job is scheduled for the instruments and units whose rollups lag, is
claimed by one worker, and its status follows from those of its targets when the last of them has
finished. `CandleAggregationWorker.run_once` of `aggregation_worker.py` is a sequence of
transactions (`Transaction`), between which a worker can stop and others go on
(`AggregationStep`). What a materialization writes is not part of it, but it can raise.
-/

namespace Goodmoneying.Program.Aggregation

open Library

/-! ## Tables -/

/-- The statuses of jobs and of targets. -/
inductive AggregationStatus where
  | pending | running | succeeded | failed
  deriving DecidableEq, Repr

/-- A row of `candle_rollups`, as far as scheduling reads it. -/
structure RollupRow where
  instrumentId : ℤ
  candleUnit : String
  candleStartAt : UtcTime
  calculationVersion : String

/-- What scheduling reads: the active targets in their order, and the candles and rollups. -/
structure AggregationData where
  activeTargets : List ℤ
  sourceCandles : List (ℤ × UtcTime)
  rollups : List RollupRow

/-- A row of `candle_aggregation_job_targets`. -/
structure AggregationTarget where
  instrumentId : ℤ
  candleUnit : String
  status : AggregationStatus := .pending
  rowsWritten : ℤ := 0
  deriving DecidableEq, Repr

/-- The key of a target within its job. -/
def AggregationTarget.key (target : AggregationTarget) : ℤ × String :=
  (target.instrumentId, target.candleUnit)

/-- `status IN ('succeeded', 'failed')`. -/
def AggregationTarget.finished (target : AggregationTarget) : Bool :=
  target.status = .succeeded || target.status = .failed

/-- A row of `candle_aggregation_jobs` with its targets. -/
structure AggregationJob where
  id : ℤ
  status : AggregationStatus := .pending
  targets : List AggregationTarget
  deriving DecidableEq, Repr

/-- `status IN ('pending', 'running')`. -/
def AggregationJob.isOpen (job : AggregationJob) : Bool :=
  job.status = .pending || job.status = .running

abbrev AggregationJobs : Type := IdentityTable AggregationJob.id

/-! ## Scheduling -/

/-- `MAX(candle_start_at)` of the source candles of an instrument. -/
def sourceLatest (data : AggregationData) (instrumentId : ℤ) : Option UtcTime :=
  ((data.sourceCandles.filter fun row => row.1 = instrumentId).map Prod.snd).max?

/-- `MAX(candle_start_at)` of the rollups of an instrument and unit. -/
def rollupLatest (data : AggregationData) (instrumentId : ℤ) (unit : String) : Option UtcTime :=
  ((data.rollups.filter fun row =>
    row.instrumentId = instrumentId && row.candleUnit = unit &&
    row.calculationVersion = calculationVersion).map RollupRow.candleStartAt).max?

/-- `rollup_latest is None or rollup_latest < rollup_bucket_start(unit, source_latest)`. -/
def rollupLags (latest : Option UtcTime) (unit : String) (source : UtcTime) :
    Except PythonError Bool :=
  match latest with
  | none => pure true
  | some rollup => do
    let bucketStart ← rollupBucketStart unit source
    pure (rollup < bucketStart)

/-- The units of an instrument that lag. -/
def laggingUnits (data : AggregationData) (instrumentId : ℤ) (source : UtcTime) :
    List String → Except PythonError (List (ℤ × String))
  | [] => pure []
  | unit :: units => do
    let lags ← rollupLags (rollupLatest data instrumentId unit) unit source
    let rest ← laggingUnits data instrumentId source units
    pure (if lags then (instrumentId, unit) :: rest else rest)

/-- `targets` of `schedule_candle_aggregation`. -/
def laggingTargets (data : AggregationData) : List ℤ → Except PythonError (List (ℤ × String))
  | [] => pure []
  | instrumentId :: instruments =>
    match sourceLatest data instrumentId with
    | none => laggingTargets data instruments
    | some source => do
      let units ← laggingUnits data instrumentId source materializedAggregationUnits
      let rest ← laggingTargets data instruments
      pure (units ++ rest)

/-- The row of a job that is inserted, with its targets. -/
def newAggregationJob (targets : List (ℤ × String)) (id : ℤ) : AggregationJob where
  id := id
  targets := targets.map fun target => { instrumentId := target.1, candleUnit := target.2 }

theorem newAggregationJob_id (targets : List (ℤ × String)) (id : ℤ) :
    (newAggregationJob targets id).id = id := rfl

/-- The inserts of a job and its targets. -/
def insertAggregationJob (jobs : AggregationJobs) (targets : List (ℤ × String)) :
    AggregationJobs :=
  jobs.insert (newAggregationJob targets) (newAggregationJob_id targets)

/-- `schedule_candle_aggregation`; the job that it returns is not used. -/
def scheduleCandleAggregation (data : AggregationData) (jobs : AggregationJobs) :
    Except PythonError AggregationJobs :=
  if jobs.rows.any AggregationJob.isOpen then pure jobs
  else do
    let targets ← laggingTargets data data.activeTargets
    pure (if targets = [] then jobs else insertAggregationJob jobs targets)

/-! ## Claims and marks -/

/-- The row of a job that is claimed. -/
def AggregationJob.start (job : AggregationJob) : AggregationJob := { job with status := .running }

theorem AggregationJob.start_id (job : AggregationJob) : job.start.id = job.id := rfl

/-- `claim_next_candle_aggregation_job`. -/
def claimNextCandleAggregationJob (jobs : AggregationJobs) :
    Option AggregationJob × AggregationJobs :=
  match jobs.rows.find? fun job => job.status = .pending with
  | none => (none, jobs)
  | some job => (some job.start,
    jobs.update (fun row => row.id = job.id) AggregationJob.start AggregationJob.start_id)

/-- `candle_aggregation_job_targets`. -/
def candleAggregationJobTargets (job : AggregationJob) : List AggregationTarget :=
  sortedBy (fun target => toLex target.key) job.targets

/-- A target with a new status. -/
def AggregationTarget.mark (key : ℤ × String) (status : AggregationStatus) (rowsWritten : ℤ)
    (target : AggregationTarget) : AggregationTarget :=
  if target.key = key then { target with status := status, rowsWritten := rowsWritten } else target

/-- The job after `mark_candle_aggregation_target`: it ends when no target remains. -/
def AggregationJob.mark (key : ℤ × String) (status : AggregationStatus) (rowsWritten : ℤ)
    (job : AggregationJob) : AggregationJob :=
  let targets := job.targets.map (AggregationTarget.mark key status rowsWritten)
  { job with
    targets := targets
    status :=
      if targets.all AggregationTarget.finished then
        if targets.any fun target => target.status = .failed then .failed else .succeeded
      else job.status }

theorem AggregationJob.mark_id (key : ℤ × String) (status : AggregationStatus) (rowsWritten : ℤ)
    (job : AggregationJob) : (job.mark key status rowsWritten).id = job.id := rfl

/-- `mark_candle_aggregation_target`. -/
def markCandleAggregationTarget (jobs : AggregationJobs) (jobId : ℤ) (key : ℤ × String)
    (status : AggregationStatus) (rowsWritten : ℤ) : AggregationJobs :=
  jobs.update (fun job => job.id = jobId) (AggregationJob.mark key status rowsWritten)
    (AggregationJob.mark_id key status rowsWritten)

/-! ## The worker -/

/-- Where a worker is in `run_once`. -/
inductive WorkerPhase where
  /-- before the incremental jobs, or at them -/
  | entered
  /-- within the transaction of `schedule_candle_aggregation`, before its inserts -/
  | scheduling (target : ℤ × String) (targets : List (ℤ × String))
  | scheduled
  /-- without a job of the full aggregation, at the other queues -/
  | elsewhere
  /-- before the next of the targets that are left -/
  | holding (jobId : ℤ) (todo : List AggregationTarget)
  | materializing (jobId : ℤ) (target : AggregationTarget) (todo : List AggregationTarget)
  /-- after a materialization, with the rows it has written if it has not raised -/
  | marking (jobId : ℤ) (target : AggregationTarget) (written : Option ℤ)
      (todo : List AggregationTarget)
  deriving DecidableEq, Repr

/-- The tables. -/
structure AggregationDatabase where
  data : AggregationData
  jobs : AggregationJobs

/-- One transaction of a worker; it has left `run_once` where it has no phase after it. -/
inductive Transaction :
    AggregationDatabase → WorkerPhase → AggregationDatabase → Option WorkerPhase → Prop
  /-- there is a job of the incremental aggregation, or scheduling raises -/
  | turnsAway (db : AggregationDatabase) : Transaction db .entered db none
  | findsOpen (db : AggregationDatabase) (hopen : db.jobs.rows.any AggregationJob.isOpen = true) :
      Transaction db .entered db (some .scheduled)
  | findsNothing (db : AggregationDatabase)
      (hopen : db.jobs.rows.any AggregationJob.isOpen = false)
      (htargets : laggingTargets db.data db.data.activeTargets = .ok []) :
      Transaction db .entered db (some .scheduled)
  | findsTargets (db : AggregationDatabase) (target : ℤ × String) (targets : List (ℤ × String))
      (hopen : db.jobs.rows.any AggregationJob.isOpen = false)
      (htargets : laggingTargets db.data db.data.activeTargets = .ok (target :: targets)) :
      Transaction db .entered db (some (.scheduling target targets))
  | inserts (db : AggregationDatabase) (target : ℤ × String) (targets : List (ℤ × String)) :
      Transaction db (.scheduling target targets)
        { db with jobs := insertAggregationJob db.jobs (target :: targets) } (some .scheduled)
  | claims (db : AggregationDatabase) (job : AggregationJob) (jobs : AggregationJobs)
      (hclaim : claimNextCandleAggregationJob db.jobs = (some job, jobs)) :
      Transaction db .scheduled { db with jobs := jobs }
        (some (.holding job.id (candleAggregationJobTargets job)))
  | claimsNone (db : AggregationDatabase) (jobs : AggregationJobs)
      (hclaim : claimNextCandleAggregationJob db.jobs = (none, jobs)) :
      Transaction db .scheduled { db with jobs := jobs } (some .elsewhere)
  | leaves (db : AggregationDatabase) : Transaction db .elsewhere db none
  | marksRunning (db : AggregationDatabase) (jobId : ℤ) (target : AggregationTarget)
      (todo : List AggregationTarget) :
      Transaction db (.holding jobId (target :: todo))
        { db with
          jobs := markCandleAggregationTarget db.jobs jobId target.key .running
            target.rowsWritten }
        (some (.materializing jobId target todo))
  | materializes (db : AggregationDatabase) (jobId : ℤ) (target : AggregationTarget)
      (todo : List AggregationTarget) (rollups : List RollupRow) (written : ℤ) :
      Transaction db (.materializing jobId target todo)
        { db with data := { db.data with rollups := rollups } }
        (some (.marking jobId target (some written) todo))
  | raises (db : AggregationDatabase) (jobId : ℤ) (target : AggregationTarget)
      (todo : List AggregationTarget) :
      Transaction db (.materializing jobId target todo) db (some (.marking jobId target none todo))
  | marksSucceeded (db : AggregationDatabase) (jobId : ℤ) (target : AggregationTarget)
      (written : ℤ) (todo : List AggregationTarget) :
      Transaction db (.marking jobId target (some written) todo)
        { db with jobs := markCandleAggregationTarget db.jobs jobId target.key .succeeded written }
        (some (.holding jobId todo))
  /-- the exception goes on -/
  | marksFailed (db : AggregationDatabase) (jobId : ℤ) (target : AggregationTarget)
      (todo : List AggregationTarget) :
      Transaction db (.marking jobId target none todo)
        { db with
          jobs := markCandleAggregationTarget db.jobs jobId target.key .failed
            target.rowsWritten } none
  | finishes (db : AggregationDatabase) (jobId : ℤ) : Transaction db (.holding jobId []) db none

/-- The tables and the workers inside `run_once`. -/
structure AggregationState where
  db : AggregationDatabase
  workers : List WorkerPhase

inductive AggregationEvent where
  | dataChanged
  | entered
  | moved (phase : WorkerPhase)
  | crashed (phase : WorkerPhase)

/-- Collectors change the candles, rollups and active targets; workers enter `run_once`, go on by
one transaction, and crash between two. -/
inductive AggregationStep : AggregationState → AggregationEvent → AggregationState → Prop
  | changesData (state : AggregationState) (data : AggregationData) :
      AggregationStep state .dataChanged { state with db := { state.db with data := data } }
  | enters (state : AggregationState) :
      AggregationStep state .entered { state with workers := .entered :: state.workers }
  | moves (db db' : AggregationDatabase) (before after : List WorkerPhase) (phase : WorkerPhase)
      (phase' : Option WorkerPhase) (htransaction : Transaction db phase db' phase') :
      AggregationStep ⟨db, before ++ phase :: after⟩ (.moved phase)
        ⟨db', before ++ (phase'.toList ++ after)⟩
  | crashes (db : AggregationDatabase) (before after : List WorkerPhase) (phase : WorkerPhase) :
      AggregationStep ⟨db, before ++ phase :: after⟩ (.crashed phase) ⟨db, before ++ after⟩

end Goodmoneying.Program.Aggregation
