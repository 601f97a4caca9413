import Goodmoneying.Program.DatasetTables
import Goodmoneying.Program.DatasetVersions
import Goodmoneying.Program.UtcTimes

/-!
# Publication of dataset versions

`publish_next_build` of `dataset_version_store.py` with `_DatasetBuildLeaseHeartbeat`,
`_publish_claimed_build`, `_insert_version_contents`, `_mark_build_failed` and
`_schedule_build_retry`, on the tables of migration `20260717001300_p2_dataset_versions.sql`.
A worker claims a build for the time of a lease, which its heartbeat renews, and publishes what
the build has frozen as a version, or finds the version of the same content.

Every transaction is atomic, and an exception rolls it back. What a publication reads of the
frozen and the staged rows is its argument (`PublicationReads`); the renewals inside it are
renewals before it.
-/

namespace Goodmoneying.Program

open Library

/-- What ends a publication: `DatasetBuildLeaseLostError`, `DatasetBuildPublicationError`, or
another exception with its text. -/
inductive PublicationException where
  | leaseLost (message : String)
  | publication (message : String)
  | other (message : String)
  deriving DecidableEq, Repr

/-! ## What is published -/

/-- A row of `dataset_build_series` with its market. -/
structure BuildSeries where
  id : ℤ
  marketId : ℤ
  instrumentId : ℤ
  exchange : String
  marketCode : String
  dataKind : String
  unit : String
  definitionSetHash : Option String
  calculationVersion : String

/-- A row of `dataset_publication_members`. -/
structure PublicationMember where
  buildSeriesId : ℤ
  instrumentId : ℤ
  dataKind : String
  unit : String
  sourceRefId : ℤ
  sourceKind : String
  occurredAt : UtcTime
  knowledgeAt : UtcTime
  sourceAsOf : UtcTime
  contentHash : String
  quality : String
  calculationVersion : String
  definitionHash : Option String

/-- A row of `dataset_build_coverage_snapshots`, with its series. -/
structure BuildCoverage where
  id : ℤ
  buildSeriesId : ℤ
  segment : DatasetCoverageSegment

/-- A row of `dataset_build_market_status_snapshots`. -/
structure BuildMarketStatus where
  id : ℤ
  status : DatasetMarketStatusSnapshot

/-- What the queries of a publication return, in their order. -/
structure PublicationReads where
  series : List BuildSeries
  members : List PublicationMember
  marketStatuses : List BuildMarketStatus
  coverage : List BuildCoverage

/-- `set(summary.get("definition_hashes") or ())`, each once. -/
def resolvedDefinitions (members : List PublicationMember) (series : BuildSeries) : List String :=
  ((members.filter fun member => member.buildSeriesId = series.id).filterMap
    PublicationMember.definitionHash).dedup

/-- `{str(value) for value in summary.get("calculation_versions") or ()}`, each once. -/
def resolvedVersions (members : List PublicationMember) (series : BuildSeries) : List String :=
  ((members.filter fun member => member.buildSeriesId = series.id).map
    PublicationMember.calculationVersion).dedup

/-- The series with the definition of its members. The column of its calculation version is never
null. -/
def resolveSeries (members : List PublicationMember) (series : BuildSeries) :
    Except PublicationException BuildSeries := do
  let definitions := resolvedDefinitions members series
  let versions := resolvedVersions members series
  let dailyMixed := series.dataKind = "candle" && series.unit = "1d" &&
    versions.all fun version => version = "source-candle-v1" || version = "candle-rollup-v2"
  if 1 < definitions.length || (1 < versions.length && !dailyMixed) then
    throw (.publication "한 series에서 둘 이상의 definition/calculation version이 선택되었다.")
  if !dailyMixed && !versions.isEmpty && versions ≠ [series.calculationVersion] then
    throw (.publication
      "calculation_version_mismatch: 선택된 member 계산 버전이 요청과 다르다.")
  pure { series with
    definitionSetHash := series.definitionSetHash.or definitions.head? }

/-- The times at which members of the series are there in the range. -/
def observedTimes (members : List PublicationMember) (coverage : BuildCoverage) : List UtcTime :=
  ((members.filter fun member =>
    member.buildSeriesId = coverage.buildSeriesId &&
    coverage.segment.rangeStartAt.instant ≤ member.occurredAt.datetime.instant &&
    member.occurredAt.datetime.instant < coverage.segment.rangeEndAt.instant &&
    (member.quality = "available" || member.quality = "no_trade")).map
      PublicationMember.occurredAt).dedup

/-- The query for coverage that is not complete. -/
def coverageBlocked (reads : PublicationReads) : Bool :=
  reads.coverage.any fun coverage =>
    coverage.segment.status = "missing" || coverage.segment.status = "unavailable" ||
    coverage.segment.status = "unverified" ||
    (coverage.segment.status = "available" &&
      ((observedTimes reads.members coverage).length : ℤ) < coverage.segment.expectedCount)

/-- `_canonical_member`, of a member of the series. -/
def canonicalMemberOf (series : BuildSeries) (member : PublicationMember) :
    DatasetCanonicalMember where
  dataKind := series.dataKind
  exchange := series.exchange
  marketCode := series.marketCode
  unit := some series.unit
  occurredAt := member.occurredAt.datetime
  knowledgeAt := member.knowledgeAt.datetime
  sourceAsOf := member.sourceAsOf.datetime
  contentHash := member.contentHash
  quality := member.quality
  calculationVersion := member.calculationVersion
  definitionHash := member.definitionHash
  sourceRefId := member.sourceRefId

/-- `series_by_id[int(row["build_series_id"])]` for a member, with the id of its series. -/
def memberRow (series : List BuildSeries) (member : PublicationMember) :
    Except PublicationException (ℤ × DatasetCanonicalMember) :=
  match series.find? fun row => row.id = member.buildSeriesId with
  | some row => .ok (row.id, canonicalMemberOf row member)
  | none => .error (.other "KeyError")

/-- The time of a column, as the connection returns it. -/
def columnDatetime (value : Instant) : Except PublicationException Datetime :=
  match UtcTime.addTimedelta ⟨0, UtcTime.zero_in_calendar⟩ value with
  | .ok time => .ok time.datetime
  | .error _ => .error (.other "timestamp out of range")

/-- The specification of the build. -/
def buildSpecification (build : DatasetBuild) (series : List BuildSeries) :
    Except PublicationException DatasetCanonicalSpecification := do
  pure {
    schemaVersion := build.schemaVersion
    asOf := ← columnDatetime build.asOf
    inputStartAt := ← columnDatetime build.inputStartAt
    outputStartAt := ← columnDatetime build.outputStartAt
    endAt := ← columnDatetime build.endAt
    series := series.map fun row => {
      instrumentId := row.instrumentId
      exchange := row.exchange
      marketCode := row.marketCode
      dataKind := row.dataKind
      unit := some row.unit
      definitionSetHash := row.definitionSetHash
      calculationVersion := some row.calculationVersion }
    fillPolicy := build.fillPolicy
    missingPolicy := build.missingPolicy
    orderingPolicy := build.orderingPolicy }

/-- The text of an exception of the language. -/
def pythonErrorText : PythonError → String
  | .valueError message => message
  | .overflowError message => message
  | .invalidOperation => "InvalidOperation"
  | .divisionByZero => "DivisionByZero"
  | .keyError => "KeyError"

/-- The part of `_publish_claimed_build` before its first insert: the series, the hashes, and the
count and the hash of the members of each series. -/
def preparePublication (sha256 : List ℕ → String) (build : DatasetBuild)
    (reads : PublicationReads) :
    Except PublicationException
      (List BuildSeries × DatasetHashes × (ℤ → Option (ℕ × String))) := do
  let series ← reads.series.mapM (resolveSeries reads.members)
  if build.missingPolicy = "fail" && coverageBlocked reads then
    throw (.publication "missing_policy=fail 조건에서 불완전한 coverage가 발견되었다.")
  let specification ← buildSpecification build series
  let members ← reads.members.mapM (memberRow series)
  match streamPublicationHashes sha256 specification (series.map BuildSeries.id) members
      (reads.marketStatuses.map BuildMarketStatus.status)
      (reads.coverage.map BuildCoverage.segment) with
  | .ok (hashes, digests) => pure (series, hashes, digests)
  | .error error => throw (.other (pythonErrorText error))

/-! ## The database -/

/-- A row of one of the tables of members of a version. -/
structure VersionMember where
  dataKind : String
  seriesId : ℤ
  instrumentId : ℤ
  unit : String
  occurredAt : UtcTime
  sourceKind : String
  sourceRefId : ℤ
  quality : String
  contentHash : String
  knowledgeAt : UtcTime
  sourceAsOf : UtcTime

/-- A row of `dataset_version_coverage_snapshots`. -/
structure VersionCoverage where
  sourceBuildCoverageSnapshotId : ℤ
  seriesId : ℤ
  segment : DatasetCoverageSegment

/-- The rows of a version in the tables below `dataset_versions`. -/
structure VersionContents where
  series : List DatasetVersionSeries := []
  members : List VersionMember := []
  marketStatuses : List BuildMarketStatus := []
  coverage : List VersionCoverage := []

/-- The tables of publication; the contents of versions are looked up by the id of the version,
and the sequences give the next ids. -/
structure PublicationDatabase where
  builds : BuildTable
  versions : KeyedTable DatasetVersionRow.id
  contents : ℤ → VersionContents
  nextVersionId : ℤ
  nextSeriesId : ℤ

/-! ## Claiming -/

/-- The lease of a build is over. -/
def DatasetBuild.leaseExpired (build : DatasetBuild) (now : Instant) : Bool :=
  build.leaseExpiresAt.any fun expiresAt => expiresAt ≤ now

/-- The condition of the first update of `publish_next_build`. -/
def DatasetBuild.exhausted (now : Instant) (build : DatasetBuild) : Bool :=
  build.status = .running && build.leaseExpired now && build.maxAttempts ≤ build.attemptCount

/-- The first update of `publish_next_build`. -/
def DatasetBuild.deadLettered (now : Instant) (build : DatasetBuild) : DatasetBuild :=
  { build with
    status := .deadLetter
    leaseOwner := none
    leaseExpiresAt := none
    nextRetryAt := none
    deadLetterReason := some "retry_attempts_exhausted"
    finishedAt := some now }

theorem DatasetBuild.deadLettered_id (now : Instant) (build : DatasetBuild) :
    (build.deadLettered now).id = build.id := rfl

/-- The `WHERE` condition of the candidate query. -/
def DatasetBuild.claimable (now : Instant) (build : DatasetBuild) : Bool :=
  build.attemptCount < build.maxAttempts &&
  match build.status with
  | .pending => true
  | .retryWait => build.nextRetryAt.any fun retryAt => retryAt ≤ now
  | .running => build.leaseExpired now
  | .succeeded | .failed | .deadLetter | .cancelled => false

/-- The candidate query, in the order of `created_at, id`; `locked` are the builds whose rows other
transactions hold. -/
def buildCandidate? (builds : BuildTable) (now : Instant) (locked : ℤ → Bool) :
    Option DatasetBuild :=
  (sortedBy (fun build : DatasetBuild => toLex (build.createdAt, build.id))
    (builds.rows.filter fun build => build.claimable now && !locked build.id)).head?

/-- `_PUBLICATION_LEASE_SECONDS`, which is also the interval of the claim. -/
def publicationLeaseSeconds : ℤ := 120

/-- The last update of the claim. -/
def DatasetBuild.claimed (workerId : String) (generation : ℤ) (now : Instant)
    (build : DatasetBuild) : DatasetBuild :=
  { build with
    status := .running
    leaseOwner := some workerId
    leaseExpiresAt := some (now.addSeconds publicationLeaseSeconds)
    leaseGeneration := generation
    attemptCount := build.attemptCount + 1
    nextRetryAt := none
    deadLetterReason := none
    startedAt := some (build.startedAt.getD now)
    finishedAt := none }

theorem DatasetBuild.claimed_id (workerId : String) (generation : ℤ) (now : Instant)
    (build : DatasetBuild) : (build.claimed workerId generation now).id = build.id := rfl

/-- The build of an id and a generation. -/
def DatasetBuild.ofGeneration (buildId generation : ℤ) (build : DatasetBuild) : Bool :=
  build.id = buildId && build.leaseGeneration = generation

/-- The claim of `publish_next_build`, with the id and the generation of the claimed build. The
clock is read by each statement. -/
def claimNextBuild (sweptAt queriedAt updatedAt : Instant) (locked : ℤ → Bool)
    (db : PublicationDatabase) (workerId : String) : Option (ℤ × ℤ) × PublicationDatabase :=
  let builds := db.builds.update (DatasetBuild.exhausted sweptAt)
    (DatasetBuild.deadLettered sweptAt) (DatasetBuild.deadLettered_id sweptAt)
  match buildCandidate? builds queriedAt locked with
  | none => (none, { db with builds := builds })
  | some build =>
    let generation := build.leaseGeneration + 1
    let claimed := builds.update (DatasetBuild.ofGeneration build.id build.leaseGeneration)
      (DatasetBuild.claimed workerId generation updatedAt)
      (DatasetBuild.claimed_id workerId generation updatedAt)
    (some (build.id, generation), { db with builds := claimed })

/-! ## Leases -/

/-- The condition on the lease in the updates of a claimed build. -/
def DatasetBuild.leasedTo (now : Instant) (buildId : ℤ) (workerId : String) (generation : ℤ)
    (build : DatasetBuild) : Bool :=
  build.id = buildId && build.status = .running && build.leaseOwner = some workerId &&
  build.leaseGeneration = generation &&
  build.leaseExpiresAt.any fun expiresAt => now < expiresAt

/-- The update of `renew`. -/
def DatasetBuild.renewed (now : Instant) (build : DatasetBuild) : DatasetBuild :=
  { build with leaseExpiresAt := some (now.addSeconds publicationLeaseSeconds) }

theorem DatasetBuild.renewed_id (now : Instant) (build : DatasetBuild) :
    (build.renewed now).id = build.id := rfl

/-- `_DatasetBuildLeaseHeartbeat.renew`. -/
def renewLease (now : Instant) (db : PublicationDatabase) (buildId : ℤ) (workerId : String)
    (generation : ℤ) : Except PublicationException PublicationDatabase :=
  let held := DatasetBuild.leasedTo now buildId workerId generation
  if (db.builds.find held).isNone then
    .error (.leaseLost "데이터셋 빌드 임대 fencing을 잃었다.")
  else .ok { db with
    builds := db.builds.update held (DatasetBuild.renewed now) (DatasetBuild.renewed_id now) }

/-- The update of `_mark_build_failed`. -/
def DatasetBuild.failed (now : Instant) (errorCode message : String) (build : DatasetBuild) :
    DatasetBuild :=
  { build with
    status := .failed
    leaseOwner := none
    leaseExpiresAt := none
    lastErrorCode := some errorCode
    lastErrorMessage := some message
    finishedAt := some now }

theorem DatasetBuild.failed_id (now : Instant) (errorCode message : String)
    (build : DatasetBuild) : (build.failed now errorCode message).id = build.id := rfl

/-- `_mark_build_failed`, with the error code of `publish_next_build`. -/
def markBuildFailed (now : Instant) (db : PublicationDatabase) (buildId : ℤ) (workerId : String)
    (generation : ℤ) (message : String) : PublicationDatabase :=
  { db with
    builds := db.builds.update (DatasetBuild.leasedTo now buildId workerId generation)
      (DatasetBuild.failed now "coverage_incomplete" message)
      (DatasetBuild.failed_id now "coverage_incomplete" message) }

/-- The update of `_schedule_build_retry`, where the delay of the next attempt is `delay`. -/
def DatasetBuild.retried (now : Instant) (message : String) (delay : ℤ) (build : DatasetBuild) :
    DatasetBuild :=
  let exhausted := build.maxAttempts ≤ build.attemptCount
  { build with
    status := if exhausted then .deadLetter else .retryWait
    leaseOwner := none
    leaseExpiresAt := none
    nextRetryAt := if exhausted then none else some (now.addSeconds delay)
    lastErrorCode := some "unexpected_publication_error"
    lastErrorMessage := some message
    deadLetterReason := if exhausted then some "unexpected_publication_error" else none
    finishedAt := if exhausted then some now else none }

theorem DatasetBuild.retried_id (now : Instant) (message : String) (delay : ℤ)
    (build : DatasetBuild) : (build.retried now message delay).id = build.id := rfl

/-- `LEAST(300, power(2, attempt_count)::integer)`, evaluated where an attempt is left. -/
def buildRetryDelay (build : DatasetBuild) : Except StoreError ℤ :=
  if build.maxAttempts ≤ build.attemptCount then .ok 0
  else min 300 <$> integerColumn (2 ^ build.attemptCount.toNat)

/-- `_schedule_build_retry`. -/
def scheduleBuildRetry (now : Instant) (db : PublicationDatabase) (buildId : ℤ)
    (workerId : String) (generation : ℤ) (message : String) :
    Except StoreError PublicationDatabase :=
  let held := DatasetBuild.leasedTo now buildId workerId generation
  match db.builds.find held with
  | none => .ok db
  | some build => do
    let delay ← buildRetryDelay build
    pure { db with
      builds := db.builds.update held (DatasetBuild.retried now message delay)
        (DatasetBuild.retried_id now message delay) }

/-! ## Publishing -/

/-- A row of `dataset_versions` as it is inserted. -/
def versionRow (build : DatasetBuild) (hashes : DatasetHashes) (id : ℤ) (now : Instant) :
    DatasetVersionRow where
  id := id
  schemaVersion := build.schemaVersion
  asOf := build.asOf
  inputStartAt := build.inputStartAt
  outputStartAt := build.outputStartAt
  endAt := build.endAt
  fillPolicy := build.fillPolicy
  missingPolicy := build.missingPolicy
  orderingPolicy := build.orderingPolicy
  selectionHash := hashes.selectionHash
  manifestHash := hashes.manifestHash
  marketStatusHash := hashes.marketStatusHash
  coverageHash := hashes.coverageHash
  contentHash := hashes.contentHash
  createdAt := now

/-- The update that seals a version. -/
def DatasetVersionRow.sealed (now : Instant) (version : DatasetVersionRow) : DatasetVersionRow :=
  { version with sealedAt := some now }

theorem DatasetVersionRow.sealed_id (now : Instant) (version : DatasetVersionRow) :
    (version.sealed now).id = version.id := rfl

/-- The row of a series that `_insert_version_contents` inserts. -/
def versionSeries (versionId : ℤ) (digests : ℤ → Option (ℕ × String))
    (row : BuildSeries × ℤ) : Except PublicationException DatasetVersionSeries :=
  match digests row.1.id with
  | none => .error (.other "KeyError")
  | some (memberCount, membersHash) => .ok {
      id := row.2
      datasetVersionId := versionId
      sourceBuildSeriesId := row.1.id
      marketId := row.1.marketId
      instrumentId := row.1.instrumentId
      dataKind := row.1.dataKind
      unit := row.1.unit
      definitionSetHash := row.1.definitionSetHash
      calculationVersion := row.1.calculationVersion
      memberCount := memberCount
      membersHash := membersHash }

/-- `JOIN dataset_version_series` on the series of the build. -/
def ofSeries {α : Type} (series : List DatasetVersionSeries) (buildSeriesId : ℤ)
    (make : ℤ → α) : List α :=
  (series.filter fun row => row.sourceBuildSeriesId = buildSeriesId).map fun row => make row.id

/-- What `_insert_version_contents` inserts for a version. -/
def versionContents (versionId firstSeriesId : ℤ) (series : List BuildSeries)
    (digests : ℤ → Option (ℕ × String)) (reads : PublicationReads) :
    Except PublicationException VersionContents := do
  let rows ← (series.zip ((List.range series.length).map fun (i : ℕ) =>
    firstSeriesId + (i : ℤ))).mapM (versionSeries versionId digests)
  pure {
    series := rows
    members := reads.members.flatMap fun member =>
      ofSeries rows member.buildSeriesId fun seriesId => {
        dataKind := member.dataKind
        seriesId := seriesId
        instrumentId := member.instrumentId
        unit := member.unit
        occurredAt := member.occurredAt
        sourceKind := member.sourceKind
        sourceRefId := member.sourceRefId
        quality := member.quality
        contentHash := member.contentHash
        knowledgeAt := member.knowledgeAt
        sourceAsOf := member.sourceAsOf }
    marketStatuses := reads.marketStatuses
    coverage := reads.coverage.flatMap fun row =>
      ofSeries rows row.buildSeriesId fun seriesId => {
        sourceBuildCoverageSnapshotId := row.id
        seriesId := seriesId
        segment := row.segment } }

/-- The readings of the clock in a publication. -/
structure PublicationClock where
  fencedAt : Instant
  insertedAt : Instant
  sealedAt : Instant
  updatedAt : Instant

/-- The version of the hashes: a new one with its contents, sealed, or the sealed one that has
their content hash already. A row below a version is refused once the version is sealed, and a
version is sealed once. -/
def publishVersion (clock : PublicationClock) (db : PublicationDatabase) (build : DatasetBuild)
    (reads : PublicationReads) (series : List BuildSeries) (hashes : DatasetHashes)
    (digests : ℤ → Option (ℕ × String)) :
    Except PublicationException (DatasetVersionRow × PublicationDatabase) :=
  let row := versionRow build hashes db.nextVersionId clock.insertedAt
  if db.versions.rows.any fun version => version.contentHash = hashes.contentHash then
    -- `ON CONFLICT (content_hash) DO NOTHING` has used up an id
    match db.versions.find fun version =>
        version.contentHash = hashes.contentHash && version.sealedAt.isSome with
    | some version => .ok (version, { db with nextVersionId := db.nextVersionId + 1 })
    | none => .error (.other
        "동시 content-address version을 현재 snapshot에서 볼 수 없다.")
  else if hnew : row.id ∉ db.versions.rows.map DatasetVersionRow.id then do
    let contents ← versionContents row.id db.nextSeriesId series digests reads
    let inserted := db.versions.insert row hnew
    let unsealed := fun version : DatasetVersionRow => version.id = row.id &&
      version.sealedAt.isNone
    if (inserted.find unsealed).isNone then
      throw (.other "dataset version 봉인에 실패했다.")
    pure (row, {
      db with
      versions := inserted.update unsealed (DatasetVersionRow.sealed clock.sealedAt)
        (DatasetVersionRow.sealed_id clock.sealedAt)
      contents := Function.update db.contents row.id contents
      nextVersionId := db.nextVersionId + 1
      nextSeriesId := db.nextSeriesId + series.length })
  else .error (.other "duplicate key value violates unique constraint")

/-- The last update of `_publish_claimed_build`. -/
def DatasetBuild.succeeded (versionId : ℤ) (now : Instant) (build : DatasetBuild) :
    DatasetBuild :=
  { build with
    status := .succeeded
    datasetVersionId := some versionId
    leaseOwner := none
    leaseExpiresAt := none
    finishedAt := some now }

theorem DatasetBuild.succeeded_id (versionId : ℤ) (now : Instant) (build : DatasetBuild) :
    (build.succeeded versionId now).id = build.id := rfl

/-- `_publish_claimed_build`, with the hashes of what it published. -/
def publishClaimedBuild (sha256 : List ℕ → String) (clock : PublicationClock)
    (db : PublicationDatabase) (build : DatasetBuild) (workerId : String) (generation : ℤ)
    (reads : PublicationReads) :
    Except PublicationException (DatasetHashes × PublicationDatabase) := do
  let (series, hashes, digests) ← preparePublication sha256 build reads
  let (version, published) ← publishVersion clock db build reads series hashes digests
  let held := DatasetBuild.leasedTo clock.updatedAt build.id workerId generation
  if (published.builds.find held).isNone then
    throw (.other "데이터셋 빌드 lease generation fencing에 실패했다.")
  pure (hashes, { published with
    builds := published.builds.update held
      (DatasetBuild.succeeded version.id clock.updatedAt)
      (DatasetBuild.succeeded_id version.id clock.updatedAt) })

/-- The transaction of publication: nothing where the lease is lost at its start, else what
`_publish_claimed_build` does, unless a statement raises (`raised`). -/
def publicationTransaction (sha256 : List ℕ → String) (clock : PublicationClock)
    (db : PublicationDatabase) (buildId : ℤ) (workerId : String) (generation : ℤ)
    (reads : PublicationReads) (raised : Option PublicationException) :
    Except PublicationException (Option DatasetHashes × PublicationDatabase) :=
  match raised, db.builds.find
      (DatasetBuild.leasedTo clock.fencedAt buildId workerId generation) with
  | some exc, _ => .error exc
  | none, none => .ok (none, db)
  | none, some build => do
    let (hashes, published) ←
      publishClaimedBuild sha256 clock db build workerId generation reads
    pure (some hashes, published)

/-! ## Workers -/

/-- Where a call of `publish_next_build` is after its claim: before `heartbeat.start`, in the
transaction of publication, in the handler of an exception, or at its end. -/
inductive PublisherPhase where
  | starting
  | publishing
  | handling (exc : PublicationException)
  | finished
  deriving DecidableEq, Repr

/-- A call of `publish_next_build` that has claimed a build. -/
structure Publisher where
  workerId : String
  buildId : ℤ
  generation : ℤ
  phase : PublisherPhase
  deriving DecidableEq, Repr

/-- A build that was published, with the content hash of what it froze. -/
structure PublishedBuild where
  buildId : ℤ
  contentHash : String
  deriving DecidableEq, Repr

/-- The database, the calls of the workers, and the publications that were committed. -/
structure PublicationState where
  db : PublicationDatabase
  publishers : List Publisher
  published : List PublishedBuild

/-- The entry of a publication. -/
def publishedBuild (publisher : Publisher) (hashes : DatasetHashes) : PublishedBuild :=
  ⟨publisher.buildId, hashes.contentHash⟩

/-- The phase after an exception of `heartbeat.start` or of the publication: `except
DatasetBuildLeaseLostError` passes. -/
def phaseAfter : PublicationException → PublisherPhase
  | .leaseLost _ => .finished
  | exc => .handling exc

/-- The state with the call number `i` in another phase. -/
def PublicationState.enter (state : PublicationState) (i : ℕ) (publisher : Publisher)
    (phase : PublisherPhase) : PublicationState :=
  { state with publishers := state.publishers.set i { publisher with phase := phase } }

/-- One transaction of a worker, or of the heartbeat of a worker. A worker that crashes makes no
step. -/
inductive PublicationStep (sha256 : List ℕ → String) : PublicationState → PublicationState → Prop
  | claims (state : PublicationState) (workerId : String) (sweptAt queriedAt updatedAt : Instant)
      (locked : ℤ → Bool) (claimed : Option (ℤ × ℤ)) (db : PublicationDatabase)
      (hclaim : claimNextBuild sweptAt queriedAt updatedAt locked state.db workerId =
        (claimed, db)) :
      PublicationStep sha256 state {
        state with
        db := db
        publishers := state.publishers ++ claimed.toList.map fun build =>
          ⟨workerId, build.1, build.2, .starting⟩ }
  | starts (state : PublicationState) (i : ℕ) (publisher : Publisher) (now : Instant)
      (db : PublicationDatabase) (hpublisher : state.publishers[i]? = some publisher)
      (hphase : publisher.phase = .starting)
      (hrenew : renewLease now state.db publisher.buildId publisher.workerId
        publisher.generation = .ok db) :
      PublicationStep sha256 state ({ state with db := db }.enter i publisher .publishing)
  | startRaises (state : PublicationState) (i : ℕ) (publisher : Publisher)
      (exc : PublicationException) (hpublisher : state.publishers[i]? = some publisher)
      (hphase : publisher.phase = .starting) :
      PublicationStep sha256 state (state.enter i publisher (phaseAfter exc))
  | renews (state : PublicationState) (i : ℕ) (publisher : Publisher) (now : Instant)
      (db : PublicationDatabase) (hpublisher : state.publishers[i]? = some publisher)
      (hphase : publisher.phase ≠ .finished)
      (hrenew : renewLease now state.db publisher.buildId publisher.workerId
        publisher.generation = .ok db) :
      PublicationStep sha256 state { state with db := db }
  | publishes (state : PublicationState) (i : ℕ) (publisher : Publisher) (clock : PublicationClock)
      (reads : PublicationReads) (raised : Option PublicationException)
      (hashes : Option DatasetHashes) (db : PublicationDatabase)
      (hpublisher : state.publishers[i]? = some publisher)
      (hphase : publisher.phase = .publishing)
      (hcommit : publicationTransaction sha256 clock state.db publisher.buildId
        publisher.workerId publisher.generation reads raised = .ok (hashes, db)) :
      PublicationStep sha256 state ({
        state with
        db := db
        published := state.published ++ hashes.toList.map (publishedBuild publisher) }.enter i
          publisher .finished)
  | publicationRaises (state : PublicationState) (i : ℕ) (publisher : Publisher)
      (clock : PublicationClock) (reads : PublicationReads) (raised : Option PublicationException)
      (exc : PublicationException) (hpublisher : state.publishers[i]? = some publisher)
      (hphase : publisher.phase = .publishing)
      (hraise : publicationTransaction sha256 clock state.db publisher.buildId
        publisher.workerId publisher.generation reads raised = .error exc) :
      PublicationStep sha256 state (state.enter i publisher (phaseAfter exc))
  | fails (state : PublicationState) (i : ℕ) (publisher : Publisher) (now : Instant)
      (message : String) (hpublisher : state.publishers[i]? = some publisher)
      (hphase : publisher.phase = .handling (.publication message)) :
      PublicationStep sha256 state ({
        state with
        db := markBuildFailed now state.db publisher.buildId publisher.workerId
          publisher.generation message }.enter i publisher .finished)
  | retries (state : PublicationState) (i : ℕ) (publisher : Publisher) (now : Instant)
      (message : String) (db : PublicationDatabase)
      (hpublisher : state.publishers[i]? = some publisher)
      (hphase : publisher.phase = .handling (.other message))
      (hretry : scheduleBuildRetry now state.db publisher.buildId publisher.workerId
        publisher.generation message = .ok db) :
      PublicationStep sha256 state ({ state with db := db }.enter i publisher .finished)

end Goodmoneying.Program
