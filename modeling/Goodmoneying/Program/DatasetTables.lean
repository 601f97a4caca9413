import Mathlib.Data.String.Basic
import Goodmoneying.Library.KeyedTable
import Goodmoneying.Library.StableSort
import Goodmoneying.Program.PortfolioTables

/-!
# Tables of datasets

`dataset_builds`, `dataset_versions` and `dataset_version_series` of migration
`20260717001300_p2_dataset_versions.sql`, with what `_build_response` and `get_version` of
`dataset_version_store.py` return of them.
-/

namespace Goodmoneying.Program

open Library

/-- `dataset_builds.status`. -/
inductive BuildStatus where
  | pending | running | retryWait | succeeded | failed | deadLetter | cancelled
  deriving DecidableEq, Repr

/-- A row of `dataset_builds`. -/
structure DatasetBuild where
  id : ℤ
  idempotencyKey : String
  requestId : String
  actorId : String
  requestedAt : Instant
  reason : String
  frozenAt : Instant
  requestHash : String
  schemaVersion : String
  asOf : Instant
  inputStartAt : Instant
  outputStartAt : Instant
  endAt : Instant
  fillPolicy : String
  missingPolicy : String
  orderingPolicy : String
  status : BuildStatus := .pending
  leaseOwner : Option String := none
  leaseExpiresAt : Option Instant := none
  leaseGeneration : ℤ := 0
  attemptCount : ℤ := 0
  maxAttempts : ℤ := 3
  nextRetryAt : Option Instant := none
  lastErrorCode : Option String := none
  lastErrorMessage : Option String := none
  deadLetterReason : Option String := none
  datasetVersionId : Option ℤ := none
  createdAt : Instant
  startedAt : Option Instant := none
  finishedAt : Option Instant := none

/-- `dataset_builds`, with its primary key. -/
abbrev BuildTable := KeyedTable DatasetBuild.id

/-- What `_build_response` returns. -/
structure BuildResponse where
  buildId : ℤ
  requestId : String
  idempotencyKey : String
  actorId : String
  requestedAt : Instant
  frozenAt : Instant
  status : BuildStatus
  datasetVersionId : Option ℤ
  errorCode : Option String
  errorMessage : Option String
  attemptCount : ℤ
  maxAttempts : ℤ
  nextRetryAt : Option Instant
  deadLetterReason : Option String

/-- `_build_response`. -/
def buildResponse (build : DatasetBuild) : BuildResponse where
  buildId := build.id
  requestId := build.requestId
  idempotencyKey := build.idempotencyKey
  actorId := build.actorId
  requestedAt := build.requestedAt
  frozenAt := build.frozenAt
  status := build.status
  datasetVersionId := build.datasetVersionId
  errorCode := build.lastErrorCode
  errorMessage := build.lastErrorMessage
  attemptCount := build.attemptCount
  maxAttempts := build.maxAttempts
  nextRetryAt := build.nextRetryAt
  deadLetterReason := build.deadLetterReason

/-- `get_build`. -/
def getBuild (builds : BuildTable) (buildId : ℤ) : Option BuildResponse :=
  (builds.find fun build => build.id = buildId).map buildResponse

/-- A row of `dataset_versions`. -/
structure DatasetVersionRow where
  id : ℤ
  schemaVersion : String
  asOf : Instant
  inputStartAt : Instant
  outputStartAt : Instant
  endAt : Instant
  fillPolicy : String
  missingPolicy : String
  orderingPolicy : String
  selectionHash : String
  manifestHash : String
  marketStatusHash : String
  coverageHash : String
  contentHash : String
  sealedAt : Option Instant := none
  createdAt : Instant

/-- A row of `dataset_version_series`. -/
structure DatasetVersionSeries where
  id : ℤ
  datasetVersionId : ℤ
  sourceBuildSeriesId : ℤ
  marketId : ℤ
  instrumentId : ℤ
  dataKind : String
  unit : String
  definitionSetHash : Option String
  calculationVersion : String
  memberCount : ℤ
  membersHash : String

/-- `dataset_versions` and `dataset_version_series`. -/
structure DatasetVersionTables where
  versions : KeyedTable DatasetVersionRow.id
  series : List DatasetVersionSeries

/-- `_api_kind`. -/
def apiKind (value : String) : String := value

/-- A series in what `get_version` returns. -/
structure VersionSeriesResponse where
  seriesId : ℤ
  instrumentId : ℤ
  dataKind : String
  unit : String
  definitionSetHash : Option String
  calculationVersion : String

/-- What `get_version` returns. -/
structure VersionResponse where
  datasetVersionId : ℤ
  schemaVersion : String
  asOf : Instant
  outputStartAt : Instant
  endAt : Instant
  contentHash : String
  availabilityPolicy : String := "point_in_time_v1"
  fillPolicy : String
  missingPolicy : String
  createdAt : Instant
  series : List VersionSeriesResponse

/-- The first query of `get_version`. -/
def sealedVersion (tables : DatasetVersionTables) (datasetVersionId : ℤ) :
    Option DatasetVersionRow :=
  tables.versions.find fun version => version.id = datasetVersionId && version.sealedAt.isSome

/-- The second query of `get_version`; texts are in the order of their code points. -/
def seriesOfVersion (tables : DatasetVersionTables) (datasetVersionId : ℤ) :
    List VersionSeriesResponse :=
  (sortedBy (fun row : DatasetVersionSeries =>
      toLex (row.instrumentId, toLex (row.dataKind, toLex (row.unit, row.id))))
    (tables.series.filter fun row => row.datasetVersionId = datasetVersionId)).map fun row => {
      seriesId := row.id
      instrumentId := row.instrumentId
      dataKind := apiKind row.dataKind
      unit := row.unit
      definitionSetHash := row.definitionSetHash
      calculationVersion := row.calculationVersion }

/-- `get_version`; each of its queries sees the tables at its time. -/
def getVersion (atVersion atSeries : DatasetVersionTables) (datasetVersionId : ℤ) :
    Option VersionResponse := do
  let version ← sealedVersion atVersion datasetVersionId
  pure {
    datasetVersionId := version.id
    schemaVersion := version.schemaVersion
    asOf := version.asOf
    outputStartAt := version.outputStartAt
    endAt := version.endAt
    contentHash := version.contentHash
    fillPolicy := version.fillPolicy
    missingPolicy := version.missingPolicy
    createdAt := version.createdAt
    series := seriesOfVersion atSeries datasetVersionId }

end Goodmoneying.Program
