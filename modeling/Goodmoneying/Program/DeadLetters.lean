import Goodmoneying.Program.BackfillJobs
import Goodmoneying.Program.TransitionRecomputation

/-!
# Dead letters and their coverage

`_move_backfill_job_to_dead_letter` of `postgres_repository.py` with the coverage that it leaves
behind: what a failed target has not proven of the range of its job is classified as missing.
`moveBackfillJobToDeadLetter` is what it does to the tables of the queue.

`classifyCoverage` is `classify_coverage` of `data_foundation.py`. The clock of the calls of
`replace_coverage_with_classification` is an argument.
-/

namespace Goodmoneying.Program.Backfill

open Library

/-! ## The classification of coverage -/

/-- `CoverageEvidence`. -/
structure CoverageEvidence where
  beforeListing : Bool := false
  afterTradingEnd : Bool := false
  outsideSourceRetention : Bool := false
  sourceRowCount : ℤ := 0
  manifestChecksum : Option String := none
  requestSucceeded : Bool := false
  noTradeCorroborated : Bool := false
  attempted : Bool := false
  retryBudgetExhausted : Bool := false
  marketTradingResumed : Bool := false

/-- `classify_coverage`. -/
def classifyCoverage (evidence : CoverageEvidence) : CoverageState :=
  if evidence.beforeListing || evidence.outsideSourceRetention ||
      (evidence.afterTradingEnd && !evidence.marketTradingResumed) then
    .unavailable
  else if decide (evidence.sourceRowCount > 0) &&
      evidence.manifestChecksum.any fun checksum => checksum ≠ "" then
    .available
  else if evidence.requestSucceeded && evidence.noTradeCorroborated then .noTrade
  else if evidence.attempted && evidence.retryBudgetExhausted then .missing
  else .unverified

/-! ## The targets of the job -/

/-- The tables of the queue and of the coverage. `specIds` is `collection_target_specs.id` of the
`source_candle` spec of a market, `lastFetchManifestIds` the column of `backfill_job_targets` by
its primary key. -/
structure DeadLetterTables extends BackfillTables where
  coverage : CoverageTables
  specIds : TargetSpecId → ℤ
  lastFetchManifestIds : ℤ × ℤ → Option ℤ

/-- A row of the query for the targets of the job. -/
structure DeadLetterTarget where
  targetSpecId : ℤ
  lastFetchManifestId : Option ℤ
  targetStartAt : Instant
  targetEndAt : Instant

/-- The row of a target that is not settled and has a spec. -/
def deadLetterRow (db : DeadLetterTables) (job : BackfillJob) (target : BackfillTarget) :
    Option DeadLetterTarget :=
  if target.status.unsettled then
    target.targetSpecId.map fun targetSpecId => {
      targetSpecId := db.specIds targetSpecId
      lastFetchManifestId := db.lastFetchManifestIds target.key
      targetStartAt := job.targetStartAt
      targetEndAt := job.targetEndAt }
  else none

/-- The query for the targets, in order of their spec. -/
def deadLetterRows (db : DeadLetterTables) (jobId : ℤ) : List DeadLetterTarget :=
  match db.job? jobId with
  | some job => sortedBy DeadLetterTarget.targetSpecId
      ((db.targetsOf jobId).filterMap (deadLetterRow db job))
  | none => []

/-! ## The ranges that are classified -/

/-- The query for the intervals of a target that overlap its range. -/
def targetOverlaps (table : IntervalTable) (target : DeadLetterTarget) : List CoverageInterval :=
  sortedBy CoverageInterval.rangeStartAt ((table.ofTarget target.targetSpecId).filter fun row =>
    row.rangeStartAt < target.targetEndAt ∧ target.targetStartAt < row.rangeEndAt)

/-- `change_ranges`: the loop over the overlapping intervals, from the cursor on. -/
def changeRanges (target : DeadLetterTarget) :
    Instant → List CoverageInterval → List (Instant × Instant)
  | cursor, [] => if cursor < target.targetEndAt then [(cursor, target.targetEndAt)] else []
  | cursor, overlap :: overlaps =>
    let overlapStart := max target.targetStartAt overlap.rangeStartAt
    let overlapEnd := min target.targetEndAt overlap.rangeEndAt
    (if cursor < overlapStart then [(cursor, overlapStart)] else []) ++
    (if overlap.coverage.status = .unverified ∧ overlapStart < overlapEnd then
      [(overlapStart, overlapEnd)] else []) ++
    changeRanges target (max cursor overlapEnd) overlaps

/-- What a move to the dead letters is given. -/
structure DeadLetterCall where
  jobId : ℤ
  errorCode : Option String
  reason : String
  detectedAt : Instant

/-- `evidence`. -/
def DeadLetterCall.evidence (call : DeadLetterCall) : List (String × CanonicalValue) := [
  ("backfillJobId", .int call.jobId),
  ("errorCode", match call.errorCode with
    | some errorCode => .text errorCode
    | none => .null),
  ("reason", .text call.reason)]

/-- `missing_status`. -/
def missingStatus : CoverageState :=
  classifyCoverage { attempted := true, retryBudgetExhausted := true }

/-- The classification of a range of a target; `clock` is the time at which the range from a start
on is replaced. -/
def missingCall (call : DeadLetterCall) (clock : ℤ → Instant → Instant)
    (target : DeadLetterTarget) (range : Instant × Instant) : CoverageCall where
  targetSpecId := target.targetSpecId
  rangeStartAt := range.1
  rangeEndAt := range.2
  status := missingStatus
  reasonCode := "backfill_attempts_exhausted"
  manifestId := target.lastFetchManifestId
  evidence := call.evidence
  assessedAt := clock target.targetSpecId range.1

/-- One round of the loop over the targets. -/
def classifyTarget (checksum : CanonicalValue → String) (sha256 : String → String)
    (call : DeadLetterCall) (clock : ℤ → Instant → Instant) (coverage : CoverageTables)
    (target : DeadLetterTarget) : Except CoverageException CoverageTables :=
  ((changeRanges target target.targetStartAt
    (targetOverlaps coverage.intervals target)).map (missingCall call clock target)).foldlM
      (replaceCoverageWithClassification checksum sha256) coverage

/-- `_move_backfill_job_to_dead_letter`. -/
def moveToDeadLetter (checksum : CanonicalValue → String) (sha256 : String → String)
    (clock : ℤ → Instant → Instant) (db : DeadLetterTables) (call : DeadLetterCall) :
    Except CoverageException DeadLetterTables := do
  let db := { db with
    toBackfillTables := db.updateJobs (fun job => job.id = call.jobId)
      (deadLetterJob call.errorCode call.reason call.detectedAt) fun _ => rfl }
  let coverage ← (deadLetterRows db call.jobId).foldlM
    (classifyTarget checksum sha256 call clock) db.coverage
  pure { db with
    toBackfillTables := db.setTargetStatus
      (fun target => target.backfillJobId = call.jobId && target.status.unsettled) .failed
    coverage := coverage }

end Goodmoneying.Program.Backfill
