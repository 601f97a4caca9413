import Goodmoneying.Program.MicrostructureQueue

/-!
# The queue of the indicator invalidations

`indicator_invalidations` of migration `20260717001100_p2_versioned_indicators.sql` and
`run_next_indicator_invalidation` of `indicator_store.py`: a worker claims the rows of one
instrument, unit and frontier that are due, renews their lease, gives the claim back where an
earlier frontier is unfinished, and else computes and completes them, for good or up to the point
that a chunk of candles reaches. What it computes is a parameter (`IndicatorCalculation`).

`InvalidationQueues` has this queue beside the one of the microstructure, with the triggers that
fill both.
-/

namespace Goodmoneying.Program

open Library

/-! ## The table -/

/-- What has changed; the column of a kind is unique. -/
inductive IndicatorChange where
  | rollup (id : ℤ)
  | sourceRevision (id : ℤ)
  | qualityEvent (id : ℤ)
  | rollupInvalidation (id : ℤ)
  deriving DecidableEq, Repr

/-- `knowledge_at`, `source_revision_through_id` and `quality_event_through_id`. -/
structure IndicatorFrontier where
  knowledgeAt : Instant
  sourceRevisionThroughId : ℤ
  qualityEventThroughId : Option ℤ
  deriving DecidableEq, Repr

/-- `progress_at` with both checkpoints: they are null together. -/
structure IndicatorProgress where
  progressAt : Instant
  indicatorCheckpointState : JsonValue
  statisticCheckpointState : JsonValue

/-- A row of `indicator_invalidations`. -/
structure IndicatorInvalidation where
  id : ℤ
  instrumentId : ℤ
  candleUnit : String
  change : IndicatorChange
  impactStartAt : Instant
  impactEndAt : Option Instant
  frontier : IndicatorFrontier
  progress : Option IndicatorProgress := none
  status : InvalidationStatus := .pending
  attemptCount : ℤ := 0
  maxAttempts : ℤ := 5
  nextRetryAt : Instant
  leaseOwner : Option String := none
  leaseExpiresAt : Option Instant := none
  leaseGeneration : ℤ := 0
  lastErrorCode : Option String := none
  finishedAt : Option Instant := none

namespace IndicatorInvalidation

/-- `status IN ('pending','retry_wait')`. -/
def waits (row : IndicatorInvalidation) : Bool :=
  row.status = .pending || row.status = .retryWait

/-- `status IN ('pending','retry_wait','running')`. -/
def isActive (row : IndicatorInvalidation) : Bool := row.waits || row.status = .running

/-- `status='running' AND lease_expires_at <= now`. -/
def expired (now : Instant) (row : IndicatorInvalidation) : Bool :=
  row.status = .running && row.leaseExpiresAt.any (· ≤ now)

/-- Whether the row can be claimed by its status and its times. -/
def due (now : Instant) (row : IndicatorInvalidation) : Bool :=
  (row.waits && row.nextRetryAt ≤ now) || row.expired now

/-- Whether both are of one instrument and unit. -/
def sameSeries (row other : IndicatorInvalidation) : Bool :=
  other.instrumentId = row.instrumentId && other.candleUnit = row.candleUnit

/-- Whether an earlier row of another frontier is unfinished. -/
def preceded (rows : List IndicatorInvalidation) (row : IndicatorInvalidation) : Bool :=
  rows.any fun prior =>
    row.sameSeries prior && prior.id < row.id && prior.isActive && prior.frontier ≠ row.frontier

end IndicatorInvalidation

/-- The columns that a trigger, or a transition of the coverage, gives a new row. -/
structure IndicatorEvent where
  instrumentId : ℤ
  candleUnit : String
  change : IndicatorChange
  impactStartAt : Instant
  impactEndAt : Option Instant
  frontier : IndicatorFrontier

/-- The row that is inserted. -/
def IndicatorEvent.invalidation (now : Instant) (event : IndicatorEvent) (id : ℤ) :
    IndicatorInvalidation where
  id := id
  instrumentId := event.instrumentId
  candleUnit := event.candleUnit
  change := event.change
  impactStartAt := event.impactStartAt
  impactEndAt := event.impactEndAt
  frontier := event.frontier
  nextRetryAt := now

/-- `INSERT … ON CONFLICT (changed_…) DO NOTHING`. -/
def enqueueIndicatorInvalidation (now : Instant) (event : IndicatorEvent)
    (table : IdentityTable IndicatorInvalidation.id) : IdentityTable IndicatorInvalidation.id :=
  if table.rows.any fun row => row.change = event.change then table
  else table.insert (event.invalidation now) fun _ => rfl

/-! ## Claims -/

/-- The row after a claim. -/
def IndicatorInvalidation.claim (now : Instant) (workerId : String) (row : IndicatorInvalidation) :
    IndicatorInvalidation :=
  { row with
    status := .running
    attemptCount := row.attemptCount + 1
    leaseOwner := some workerId
    leaseExpiresAt := some (now.addSeconds 120)
    leaseGeneration := row.leaseGeneration + 1 }

theorem IndicatorInvalidation.claim_id (now : Instant) (workerId : String)
    (row : IndicatorInvalidation) : (row.claim now workerId).id = row.id := rfl

/-- What a claim reads: its two readings of the clock, the rows that are locked, and whether it
gets the advisory lock of the series. -/
structure IndicatorClaim where
  seededAt : Instant
  claimedAt : Instant
  locked : ℤ → Bool
  acquired : Bool
  workerId : String

/-- The first row that can be claimed. -/
def indicatorSeed (claim : IndicatorClaim) (rows : List IndicatorInvalidation) :
    Option IndicatorInvalidation :=
  rows.find? fun seed =>
    seed.due claim.seededAt &&
    !(rows.any fun active => seed.sameSeries active && active.status = .running &&
      active.leaseExpiresAt.any (claim.seededAt < ·)) &&
    !seed.preceded rows && !claim.locked seed.id

/-- The rows of the frontier of the seed that the claim takes, at most 512. -/
def indicatorCandidates (claim : IndicatorClaim) (rows : List IndicatorInvalidation) :
    List IndicatorInvalidation :=
  match indicatorSeed claim rows with
  | none => []
  | some seed =>
    if claim.acquired then
      (rows.filter fun row =>
        seed.sameSeries row && row.frontier = seed.frontier && row.due claim.claimedAt &&
        !row.preceded rows && !claim.locked row.id).take 512
    else []

/-- The rows of a claim as they are after it. -/
structure ClaimedIndicators where
  rows : List IndicatorInvalidation
  workerId : String

/-- The claim. -/
def claimIndicatorInvalidations (claim : IndicatorClaim)
    (table : IdentityTable IndicatorInvalidation.id) :
    Option ClaimedIndicators × IdentityTable IndicatorInvalidation.id :=
  let candidates := indicatorCandidates claim table.rows
  if candidates = [] then (none, table)
  else (some ⟨candidates.map fun row => row.claim claim.claimedAt claim.workerId, claim.workerId⟩,
    table.update (fun row => row.id ∈ candidates.map IndicatorInvalidation.id)
      (fun row => row.claim claim.claimedAt claim.workerId)
      (IndicatorInvalidation.claim_id claim.claimedAt claim.workerId))

/-! ## The work -/

/-- `invalidation.id=expected.id AND lease_generation=expected.generation AND lease_owner=%s`. -/
def IndicatorInvalidation.leasedTo (claimed : ClaimedIndicators) (row : IndicatorInvalidation) :
    Bool :=
  row.leaseOwner = some claimed.workerId &&
  claimed.rows.any fun expected =>
    expected.id = row.id && expected.leaseGeneration = row.leaseGeneration

/-- The same with a lease that lasts. -/
def IndicatorInvalidation.live (now : Instant) (claimed : ClaimedIndicators)
    (row : IndicatorInvalidation) : Bool :=
  row.leasedTo claimed && row.status = .running && row.leaseExpiresAt.any (now < ·)

/-- The row with its lease renewed. -/
def IndicatorInvalidation.renew (now : Instant) (row : IndicatorInvalidation) :
    IndicatorInvalidation :=
  { row with leaseExpiresAt := some (now.addSeconds 120) }

theorem IndicatorInvalidation.renew_id (now : Instant) (row : IndicatorInvalidation) :
    (row.renew now).id = row.id := rfl

/-- `_has_preceding_unfinished_frontier`. -/
def hasPrecedingUnfinishedFrontier (rows : List IndicatorInvalidation)
    (claimed : ClaimedIndicators) : Bool :=
  match claimed.rows with
  | [] => false
  | frontier :: rest =>
    let firstId := rest.foldl (fun least row => min least row.id) frontier.id
    rows.any fun prior =>
      frontier.sameSeries prior && prior.id < firstId && prior.isActive &&
      prior.frontier ≠ frontier.frontier

/-- The row after `_release_claimed_invalidations`. -/
def IndicatorInvalidation.release (now : Instant) (row : IndicatorInvalidation) :
    IndicatorInvalidation :=
  { row with
    status := .pending
    attemptCount := max (row.attemptCount - 1) 0
    nextRetryAt := now
    leaseOwner := none
    leaseExpiresAt := none }

theorem IndicatorInvalidation.release_id (now : Instant) (row : IndicatorInvalidation) :
    (row.release now).id = row.id := rfl

/-- `_release_claimed_invalidations`. -/
def releaseClaimedInvalidations (now : Instant) (claimed : ClaimedIndicators)
    (table : IdentityTable IndicatorInvalidation.id) : IdentityTable IndicatorInvalidation.id :=
  table.update (fun row => row.leasedTo claimed && row.status = .running)
    (fun row => row.release now) (IndicatorInvalidation.release_id now)

/-- The row after the update of `_materialize_with_lease_fence`: it has succeeded, or waits for
the next chunk. -/
def IndicatorInvalidation.complete (now : Instant) (progress : Option IndicatorProgress)
    (row : IndicatorInvalidation) : IndicatorInvalidation :=
  { row with
    status := if progress.isNone then .succeeded else .pending
    finishedAt := if progress.isNone then some now else none
    progress := progress
    attemptCount := 0
    nextRetryAt := now
    leaseOwner := none
    leaseExpiresAt := none }

theorem IndicatorInvalidation.complete_id (now : Instant) (progress : Option IndicatorProgress)
    (row : IndicatorInvalidation) : (row.complete now progress).id = row.id := rfl

/-- The row after the update of the exception handler. -/
def IndicatorInvalidation.fail (now : Instant) (exc : String) (row : IndicatorInvalidation) :
    IndicatorInvalidation :=
  { row with
    status := if row.maxAttempts ≤ row.attemptCount then .deadLetter else .retryWait
    nextRetryAt := now.addSeconds 5
    leaseOwner := none
    leaseExpiresAt := none
    progress := if row.maxAttempts ≤ row.attemptCount then none else row.progress
    lastErrorCode := some exc }

theorem IndicatorInvalidation.fail_id (now : Instant) (exc : String) (row : IndicatorInvalidation) :
    (row.fail now exc).id = row.id := rfl

/-- The update of the exception handler. -/
def failClaimedInvalidations (now : Instant) (claimed : ClaimedIndicators) (exc : String)
    (table : IdentityTable IndicatorInvalidation.id) : IdentityTable IndicatorInvalidation.id :=
  table.update (fun row => row.leasedTo claimed) (fun row => row.fail now exc)
    (IndicatorInvalidation.fail_id now exc)

/-- What a worker computes of the rows it has claimed: where the next chunk starts, if there is
one, or the name of the exception that ends it. -/
abbrev IndicatorCalculation : Type :=
  List IndicatorInvalidation → Except String (Option IndicatorProgress)

/-- Readings of the clock in the work. -/
structure IndicatorClock where
  renewedAt : Instant
  releasedAt : Instant
  completedAt : Instant
  failedAt : Instant

/-- The transaction of the work: it is rolled back where the lease is lost. -/
def workIndicatorInvalidations (calculate : IndicatorCalculation) (clock : IndicatorClock)
    (claimed : ClaimedIndicators) (table : IdentityTable IndicatorInvalidation.id) :
    Except String (IdentityTable IndicatorInvalidation.id) :=
  let live := fun row : IndicatorInvalidation => row.live clock.renewedAt claimed
  if (table.rows.filter live).length ≠ claimed.rows.length then .ok table
  else
    let renewed := table.update live (fun row => row.renew clock.renewedAt)
      (IndicatorInvalidation.renew_id clock.renewedAt)
    if hasPrecedingUnfinishedFrontier renewed.rows claimed then
      .ok (releaseClaimedInvalidations clock.releasedAt claimed renewed)
    else do
      let progress ← calculate claimed.rows
      let completed := fun row : IndicatorInvalidation => row.live clock.completedAt claimed
      if (renewed.rows.filter completed).length ≠ claimed.rows.length then .error "RuntimeError"
      else .ok (renewed.update completed (fun row => row.complete clock.completedAt progress)
        (IndicatorInvalidation.complete_id clock.completedAt progress))

/-- The work with its exception handler: an exception of the database or of the connection can be
raised anywhere in it. -/
def runClaimedIndicators (calculate : IndicatorCalculation) (clock : IndicatorClock)
    (raised : Option String) (claimed : ClaimedIndicators)
    (table : IdentityTable IndicatorInvalidation.id) : IdentityTable IndicatorInvalidation.id :=
  let worked : Except String (IdentityTable IndicatorInvalidation.id) :=
    match raised with
    | some exc => .error exc
    | none => workIndicatorInvalidations calculate clock claimed table
  match worked with
  | .ok table => table
  | .error exc => failClaimedInvalidations clock.failedAt claimed exc table

/-! ## Both queues -/

/-- An invalidation of the microstructure that a candle, an event of its quality or of the quality
of a connection asks for. -/
structure EvidenceChange where
  key : InvalidationKey
  marketId : ℤ
  knowledgeAt : Instant
  sourceAsOf : Instant

/-- The row that the trigger inserts. -/
def EvidenceChange.invalidation (db : MicrostructureDatabase) (now : Instant)
    (change : EvidenceChange) (id : ℤ) : MicrostructureInvalidation where
  id := id
  key := change.key
  marketId := change.marketId
  changedOrderbookSnapshotId := none
  changedTradeEventId := none
  frontier := {
    orderbookSnapshotThroughId := coalesceMax ((db.orderbookSnapshots.filter fun row =>
      row.instrumentId = change.key.instrumentId).map OrderbookSnapshotRow.id)
    tradeEventThroughId := coalesceMax ((db.tradeEvents.filter fun row =>
      row.instrumentId = change.key.instrumentId).map TradeEventRow.id)
    sourceReceiptThroughId := coalesceMax ((db.receipts.filter fun row =>
      row.instrumentId = change.key.instrumentId).map SourceReceiptRow.id) }
  knowledgeAt := change.knowledgeAt
  sourceAsOf := change.sourceAsOf
  nextRetryAt := now

/-- `INSERT … ON CONFLICT DO NOTHING` of a trigger of the evidence. -/
def enqueueEvidenceChange (now : Instant) (db : MicrostructureDatabase) (change : EvidenceChange) :
    MicrostructureDatabase :=
  if db.invalidations.rows.any fun row => row.waits && row.key = change.key then db
  else { db with
    invalidations := db.invalidations.insert (change.invalidation db now) fun _ => rfl }

/-- Both tables and the workers that have claimed rows of them. -/
structure InvalidationQueues where
  indicators : IdentityTable IndicatorInvalidation.id
  indicatorWorkers : List ClaimedIndicators
  microstructure : MicrostructureState

/-- What happens to the tables; a worker that crashes does nothing any more. -/
inductive QueuesEvent where
  | indicatorChanged (event : IndicatorEvent) (now : Instant)
  | indicatorsClaimed (claim : IndicatorClaim)
  | indicatorsWorked (claimed : ClaimedIndicators)
  | evidenceChanged (changes : List EvidenceChange) (now : Instant)
  | microstructureClaimed (now : Instant) (locked : ℤ → Bool) (workerId : String)
  | microstructureStepped (event : QueueEvent)

/-- One transaction of a trigger or a worker, with any evidence and any result of the
calculation. -/
inductive QueuesStep (sha256 : List ℕ → String) :
    InvalidationQueues → QueuesEvent → InvalidationQueues → Prop
  | changesIndicator (state : InvalidationQueues) (event : IndicatorEvent) (now : Instant) :
      QueuesStep sha256 state (.indicatorChanged event now)
        { state with indicators := enqueueIndicatorInvalidation now event state.indicators }
  | claimsIndicators (state : InvalidationQueues) (claim : IndicatorClaim) :
      QueuesStep sha256 state (.indicatorsClaimed claim)
        { state with
          indicators := (claimIndicatorInvalidations claim state.indicators).2
          indicatorWorkers := state.indicatorWorkers ++
            (claimIndicatorInvalidations claim state.indicators).1.toList }
  | worksIndicators (state : InvalidationQueues) (i : ℕ) (claimed : ClaimedIndicators)
      (calculate : IndicatorCalculation) (clock : IndicatorClock) (raised : Option String)
      (hworker : state.indicatorWorkers[i]? = some claimed) :
      QueuesStep sha256 state (.indicatorsWorked claimed)
        { state with
          indicators := runClaimedIndicators calculate clock raised claimed state.indicators
          indicatorWorkers := state.indicatorWorkers.eraseIdx i }
  | changesEvidence (state : InvalidationQueues) (changes : List EvidenceChange) (now : Instant) :
      QueuesStep sha256 state (.evidenceChanged changes now)
        { state with
          microstructure := { state.microstructure with
            db := changes.foldl (enqueueEvidenceChange now) state.microstructure.db } }
  | stepsMicrostructure (state : InvalidationQueues) (evidence : EvidenceTables)
      (event : QueueEvent) (microstructure : MicrostructureState)
      (hevent : ∀ workerId, event ≠ .claimed workerId)
      (hstep : MicrostructureStep sha256 evidence state.microstructure event microstructure) :
      QueuesStep sha256 state (.microstructureStepped event)
        { state with microstructure := microstructure }
  | claimsMicrostructure (state : InvalidationQueues) (now : Instant) (locked : ℤ → Bool)
      (workerId : String) :
      QueuesStep sha256 state (.microstructureClaimed now locked workerId)
        { state with
          microstructure := {
            db := (claimMicrostructureInvalidation now locked state.microstructure.db workerId).2
            workers := state.microstructure.workers ++
              (claimMicrostructureInvalidation now locked state.microstructure.db
                workerId).1.toList } }

end Goodmoneying.Program
