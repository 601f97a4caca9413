import Goodmoneying.Library.JsonText
import Goodmoneying.Program.Datetimes

/-!
# The hashes of a dataset version

`canonical_dataset_hashes` of `dataset_versions.py` hashes a dataset in memory;
`_stream_publication_hashes` of `dataset_version_store.py` hashes it row by row, as the database
sorts it, through `CanonicalJsonArrayDigest`. Both hash the bytes of canonical JSON.

A mapping that a `_canonical_…` function returns has the fields of its argument but for
`source_ref_id`, so the argument itself stands for it once it has been validated. SHA-256 is a
function of all bytes that have been fed to it.

A `datetime` is its wall clock with a `tzinfo` object (`AwareDatetime`); what is read of it are
its wall clock and its offset, a `Datetime`. The records come with times of either type.
-/

namespace Goodmoneying.Program

open Library

/-! ## JSON -/

/-- `canonical_json_bytes`, of a payload in canonical values: `json.dumps` with
`ensure_ascii=False`, `sort_keys=True` and `separators=(",", ":")`. -/
def canonicalJsonBytes (payload : JsonValue) : List ℕ := utf8Bytes payload.dumps

/-- `canonical_payload_hash`. -/
def canonicalPayloadHash (sha256 : List ℕ → String) (payload : JsonValue) : String :=
  sha256 (canonicalJsonBytes payload)

/-- `_canonical_value` of a datetime in UTC. -/
def canonicalTime (value : Datetime) : JsonValue :=
  .text (.ofList (fixedDigits 4 value.date.year ++ '-' :: (fixedDigits 2 value.date.month ++
    '-' :: (fixedDigits 2 value.date.day ++ 'T' :: (clockText true value.timeOfDay ++ ['Z'])))))

/-- `_canonical_value` of an optional text. -/
def canonicalText : Option String → JsonValue
  | some value => .text value
  | none => .null

/-- `str` of an optional text. -/
def strText (value : Option String) : String := value.getD "None"

/-! ## Datasets -/

/-- A `tzinfo` object: its name, and the offsets of wall clocks. -/
structure TzInfo where
  name : String
  utcoffset : Date → Fin dayMicroseconds → UtcOffset

/-- A `datetime` with its `tzinfo` object. -/
structure AwareDatetime where
  date : Date
  timeOfDay : Fin dayMicroseconds
  tzinfo : TzInfo

/-- What is read of a datetime. -/
def AwareDatetime.datetime (value : AwareDatetime) : Datetime where
  date := value.date
  timeOfDay := value.timeOfDay
  utcoffset := value.tzinfo.utcoffset value.date value.timeOfDay

/-- `DatasetSeriesRequest`. -/
structure DatasetSeriesRequest where
  instrumentId : ℤ
  exchange : String
  marketCode : String
  dataKind : String
  unit : Option String
  definitionSetHash : Option String := none
  calculationVersion : Option String := none
  deriving DecidableEq

/-- `DatasetCanonicalSpecification`, over the type of its times. -/
structure DatasetCanonicalSpecificationOf (τ : Type) where
  schemaVersion : String
  asOf : τ
  inputStartAt : τ
  outputStartAt : τ
  endAt : τ
  series : List DatasetSeriesRequest
  fillPolicy : String
  missingPolicy : String
  orderingPolicy : String

/-- `DatasetCanonicalSpecification`, with its times as they are read. -/
abbrev DatasetCanonicalSpecification := DatasetCanonicalSpecificationOf Datetime

/-- The specification with its times read by `read`. -/
def DatasetCanonicalSpecificationOf.mapTimes {τ τ' : Type} (read : τ → τ')
    (specification : DatasetCanonicalSpecificationOf τ) : DatasetCanonicalSpecificationOf τ' :=
  { specification with
    asOf := read specification.asOf
    inputStartAt := read specification.inputStartAt
    outputStartAt := read specification.outputStartAt
    endAt := read specification.endAt }

/-- `DatasetCanonicalMember`, over the type of its times. -/
structure DatasetCanonicalMemberOf (τ : Type) where
  dataKind : String
  exchange : String
  marketCode : String
  unit : Option String
  occurredAt : τ
  knowledgeAt : τ
  sourceAsOf : τ
  contentHash : String
  quality : String
  calculationVersion : String
  definitionHash : Option String
  sourceRefId : ℤ

/-- `DatasetCanonicalMember`, with its times as they are read. -/
abbrev DatasetCanonicalMember := DatasetCanonicalMemberOf Datetime

/-- The member with its times read by `read`. -/
def DatasetCanonicalMemberOf.mapTimes {τ τ' : Type} (read : τ → τ')
    (member : DatasetCanonicalMemberOf τ) : DatasetCanonicalMemberOf τ' :=
  { member with
    occurredAt := read member.occurredAt
    knowledgeAt := read member.knowledgeAt
    sourceAsOf := read member.sourceAsOf }

/-- `DatasetMarketStatusSnapshot`, over the type of its times. -/
structure DatasetMarketStatusSnapshotOf (τ : Type) where
  exchange : String
  marketCode : String
  tradingStatus : String
  marketWarning : String
  eventHash : String
  sourcePayloadChecksum : String
  validFrom : τ
  validTo : Option τ
  observedAt : τ
  sourceRefId : ℤ

/-- `DatasetMarketStatusSnapshot`, with its times as they are read. -/
abbrev DatasetMarketStatusSnapshot := DatasetMarketStatusSnapshotOf Datetime

/-- The snapshot with its times read by `read`. -/
def DatasetMarketStatusSnapshotOf.mapTimes {τ τ' : Type} (read : τ → τ')
    (status : DatasetMarketStatusSnapshotOf τ) : DatasetMarketStatusSnapshotOf τ' :=
  { status with
    validFrom := read status.validFrom
    validTo := status.validTo.map read
    observedAt := read status.observedAt }

/-- `DatasetCoverageSegment`, over the type of its times. -/
structure DatasetCoverageSegmentOf (τ : Type) where
  dataKind : String
  exchange : String
  marketCode : String
  unit : Option String
  definitionSetHash : Option String
  calculationVersion : String
  rangeStartAt : τ
  rangeEndAt : τ
  knowledgeAt : τ
  status : String
  observedCount : ℤ
  expectedCount : ℤ
  evidenceHash : String
  sourceRefId : Option ℤ

/-- `DatasetCoverageSegment`, with its times as they are read. -/
abbrev DatasetCoverageSegment := DatasetCoverageSegmentOf Datetime

/-- The segment with its times read by `read`. -/
def DatasetCoverageSegmentOf.mapTimes {τ τ' : Type} (read : τ → τ')
    (segment : DatasetCoverageSegmentOf τ) : DatasetCoverageSegmentOf τ' :=
  { segment with
    rangeStartAt := read segment.rangeStartAt
    rangeEndAt := read segment.rangeEndAt
    knowledgeAt := read segment.knowledgeAt }

/-- `DatasetHashes`. -/
structure DatasetHashes where
  selectionHash : String
  manifestHash : String
  marketStatusHash : String
  coverageHash : String
  contentHash : String
  deriving DecidableEq

/-! ## Validation -/

/-- `raise ValueError(message)` if the condition fails. -/
def requireValue (condition : Bool) (message : String) : Except PythonError Unit :=
  if condition then .ok () else .error (.valueError message)

/-- `_DATASET_KINDS`. -/
def datasetKinds : List String := ["candle", "indicator", "market_statistic", "microstructure"]

/-- `_QUALITIES`. -/
def qualities : List String := ["available", "no_trade", "missing", "unavailable", "unverified"]

/-- `_FILL_POLICIES`. -/
def fillPolicies : List String := ["none", "no_trade_carry_forward_v1"]

/-- `_MISSING_POLICIES`. -/
def missingPolicies : List String := ["fail", "null", "drop"]

/-- `_validate_utc`, of a datetime that knows its offset. -/
def validateUtc (value : Datetime) (name : String) : Except PythonError Unit :=
  requireValue (value.utcoffset.microseconds = 0)
    (name ++ "은 UTC timezone-aware datetime이어야 한다.")

/-- `_validate_hash`. -/
def validateHash (value name : String) : Except PythonError Unit :=
  requireValue (value.toList.length = 64 && value.toList.all fun c =>
    "0123456789abcdef".toList.contains c) (name ++ "는 소문자 SHA-256이어야 한다.")

/-- The check of a value that may be absent. -/
def validateOptional {α : Type} (validate : α → String → Except PythonError Unit) :
    Option α → String → Except PythonError Unit
  | some value, name => validate value name
  | none, _ => .ok ()

/-- `validate_dataset_policies`. -/
def validateDatasetPolicies (series : List DatasetSeriesRequest)
    (fillPolicy missingPolicy : String) : Except PythonError Unit := do
  requireValue (fillPolicies.contains fillPolicy) ("지원하지 않는 fill 정책이다: " ++ fillPolicy)
  requireValue (missingPolicies.contains missingPolicy)
    ("지원하지 않는 missing 정책이다: " ++ missingPolicy)
  requireValue (!(fillPolicy = "no_trade_carry_forward_v1" &&
    series.any fun item => item.dataKind ≠ "candle"))
    "no_trade carry forward는 candle 시계열에만 허용된다."

/-- The `identity` of a series in `_validate_specification`. -/
def seriesIdentity (item : DatasetSeriesRequest) : List String × List (Option String) :=
  ([item.exchange, item.marketCode, item.dataKind],
    [item.unit, item.definitionSetHash, item.calculationVersion])

/-- The loop of `_validate_specification`; `naturalKeys` are those of the series before. -/
def validateSeries : List DatasetSeriesRequest → List (List String × List (Option String)) →
    Except PythonError Unit
  | [], _ => .ok ()
  | item :: rest, naturalKeys => do
    requireValue (0 < item.instrumentId) "instrument_id는 양수여야 한다."
    requireValue (datasetKinds.contains item.dataKind)
      ("지원하지 않는 데이터 종류다: " ++ item.dataKind)
    requireValue (item.unit.any fun unit => unit ≠ "") "시계열 unit이 필요하다."
    requireValue (!naturalKeys.contains (seriesIdentity item))
      "데이터셋 series 자연키가 중복되었다."
    validateSeries rest (seriesIdentity item :: naturalKeys)

/-- `_validate_specification`. -/
def validateSpecification (specification : DatasetCanonicalSpecification) :
    Except PythonError Unit := do
  validateUtc specification.asOf "as_of"
  validateUtc specification.inputStartAt "input_start_at"
  validateUtc specification.outputStartAt "output_start_at"
  validateUtc specification.endAt "end_at"
  requireValue (specification.inputStartAt.instant ≤ specification.outputStartAt.instant &&
    specification.outputStartAt.instant < specification.endAt.instant &&
    specification.endAt.instant ≤ specification.asOf.instant)
    "데이터셋 시간 범위는 input <= output < end <= asOf여야 한다."
  requireValue (!specification.series.isEmpty) "데이터셋에는 하나 이상의 시계열이 필요하다."
  validateSeries specification.series []
  validateDatasetPolicies specification.series specification.fillPolicy
    specification.missingPolicy

/-! ## Members -/

/-- `_canonical_member`. -/
def canonicalMember (member : DatasetCanonicalMember) :
    Except PythonError DatasetCanonicalMember := do
  validateUtc member.occurredAt "occurred_at"
  validateUtc member.knowledgeAt "knowledge_at"
  validateUtc member.sourceAsOf "source_as_of"
  validateHash member.contentHash "content_hash"
  validateOptional validateHash member.definitionHash "definition_hash"
  requireValue (datasetKinds.contains member.dataKind)
    ("지원하지 않는 데이터 종류다: " ++ member.dataKind)
  requireValue (qualities.contains member.quality)
    ("지원하지 않는 데이터 품질이다: " ++ member.quality)
  pure member

/-- The canonical value of a member. -/
def memberPayload (item : DatasetCanonicalMember) : JsonValue :=
  .mapping [
    ("dataKind", .text item.dataKind),
    ("exchange", .text item.exchange),
    ("marketCode", .text item.marketCode),
    ("unit", canonicalText item.unit),
    ("occurredAt", canonicalTime item.occurredAt),
    ("knowledgeAt", canonicalTime item.knowledgeAt),
    ("sourceAsOf", canonicalTime item.sourceAsOf),
    ("contentHash", .text item.contentHash),
    ("quality", .text item.quality),
    ("calculationVersion", .text item.calculationVersion),
    ("definitionHash", canonicalText item.definitionHash)]

/-- `_member_sort_key`. -/
def memberSortKey (item : DatasetCanonicalMember) : List String :=
  [item.dataKind, item.exchange, item.marketCode, strText item.unit,
    strText item.definitionHash, item.calculationVersion, item.occurredAt.str, item.contentHash]

/-- The key of a member in `member_natural_keys`; datetimes are equal when their instants are. -/
def memberNaturalKey (item : DatasetCanonicalMember) :
    List String × List (Option String) × Instant :=
  ([item.dataKind, item.exchange, item.marketCode, item.calculationVersion],
    [item.unit, item.definitionHash], item.occurredAt.instant)

/-! ## Market statuses and coverage -/

/-- `_canonical_market_status`. -/
def canonicalMarketStatus (status : DatasetMarketStatusSnapshot) :
    Except PythonError DatasetMarketStatusSnapshot := do
  validateUtc status.validFrom "valid_from"
  validateOptional validateUtc status.validTo "valid_to"
  requireValue (status.validTo.all fun validTo => status.validFrom.instant < validTo.instant)
    "시장 상태 valid_to는 valid_from보다 뒤여야 한다."
  validateUtc status.observedAt "observed_at"
  validateHash status.eventHash "event_hash"
  pure status

/-- The canonical value of a market status. -/
def marketStatusPayload (item : DatasetMarketStatusSnapshot) : JsonValue :=
  .mapping [
    ("exchange", .text item.exchange),
    ("marketCode", .text item.marketCode),
    ("tradingStatus", .text item.tradingStatus),
    ("marketWarning", .text item.marketWarning),
    ("eventHash", .text item.eventHash),
    ("sourcePayloadChecksum", .text item.sourcePayloadChecksum),
    ("validFrom", canonicalTime item.validFrom),
    ("validTo", match item.validTo with
      | some validTo => canonicalTime validTo
      | none => .null),
    ("observedAt", canonicalTime item.observedAt)]

/-- The sort key of a market status, and its natural key where it is streamed. -/
def marketStatusSortKey (item : DatasetMarketStatusSnapshot) : List String :=
  [item.exchange, item.marketCode, item.validFrom.str, item.observedAt.str]

/-- `_canonical_coverage_segment`. -/
def canonicalCoverageSegment (segment : DatasetCoverageSegment) :
    Except PythonError DatasetCoverageSegment := do
  validateUtc segment.rangeStartAt "range_start_at"
  validateUtc segment.rangeEndAt "range_end_at"
  validateUtc segment.knowledgeAt "knowledge_at"
  validateOptional validateHash segment.definitionSetHash "definition_set_hash"
  requireValue (segment.rangeStartAt.instant < segment.rangeEndAt.instant)
    "coverage 범위가 비어 있다."
  requireValue (qualities.contains segment.status)
    ("지원하지 않는 coverage 상태다: " ++ segment.status)
  requireValue (0 ≤ segment.observedCount && 0 ≤ segment.expectedCount)
    "coverage count는 음수일 수 없다."
  validateHash segment.evidenceHash "evidence_hash"
  pure segment

/-- The canonical value of a coverage segment. -/
def coveragePayload (item : DatasetCoverageSegment) : JsonValue :=
  .mapping [
    ("dataKind", .text item.dataKind),
    ("exchange", .text item.exchange),
    ("marketCode", .text item.marketCode),
    ("unit", canonicalText item.unit),
    ("definitionSetHash", canonicalText item.definitionSetHash),
    ("calculationVersion", .text item.calculationVersion),
    ("rangeStartAt", canonicalTime item.rangeStartAt),
    ("rangeEndAt", canonicalTime item.rangeEndAt),
    ("knowledgeAt", canonicalTime item.knowledgeAt),
    ("status", .text item.status),
    ("observedCount", .int item.observedCount),
    ("expectedCount", .int item.expectedCount),
    ("evidenceHash", .text item.evidenceHash)]

/-- The sort key of a coverage segment, and its natural key where it is streamed. -/
def coverageSortKey (item : DatasetCoverageSegment) : List String :=
  [item.dataKind, item.exchange, item.marketCode, strText item.unit,
    strText item.definitionSetHash, item.calculationVersion, item.rangeStartAt.str]

/-- The loop of the two projection checks: no identity comes twice, and within a series no range
starts before the one before it ends. -/
def validateProjection {α ι σ : Type} [DecidableEq ι] [DecidableEq σ] (identity : α → ι)
    (series : α → σ) (start finish : α → Instant) (duplicated overlapping : String) :
    List α → List ι → (σ → Option Instant) → Except PythonError Unit
  | [], _, _ => .ok ()
  | item :: rest, seen, previous => do
    requireValue (!seen.contains (identity item)) duplicated
    requireValue (!(previous (series item)).any fun previousEnd => start item < previousEnd)
      overlapping
    validateProjection identity series start finish duplicated overlapping rest
      (identity item :: seen) (Function.update previous (series item) (some (finish item)))

/-- `datetime.max.replace(tzinfo=UTC)`. -/
def datetimeMax : Instant := maxOrdinal * dayMicroseconds - 1

/-- The `identity` of a market status. -/
def marketStatusIdentity (item : DatasetMarketStatusSnapshot) :
    String × String × Instant × Instant :=
  (item.exchange, item.marketCode, item.validFrom.instant, item.observedAt.instant)

/-- `_validate_status_projection`. -/
def validateStatusProjection (statuses : List DatasetMarketStatusSnapshot) :
    Except PythonError Unit :=
  validateProjection marketStatusIdentity (fun item => (item.exchange, item.marketCode))
    (fun item => item.validFrom.instant)
    (fun item => (item.validTo.map Datetime.instant).getD datetimeMax)
    "시장 상태 snapshot 자연키가 중복되었다." "시장 상태 snapshot 구간이 겹친다."
    statuses [] (fun _ => none)

/-- The `series` of a coverage segment. -/
def coverageSeries (item : DatasetCoverageSegment) : List String × List (Option String) :=
  ([item.dataKind, item.exchange, item.marketCode, item.calculationVersion],
    [item.unit, item.definitionSetHash])

/-- `_validate_coverage_projection`. -/
def validateCoverageProjection (coverage : List DatasetCoverageSegment) :
    Except PythonError Unit :=
  validateProjection
    (fun item => (coverageSeries item, item.rangeStartAt.instant, item.rangeEndAt.instant))
    coverageSeries (fun item => item.rangeStartAt.instant) (fun item => item.rangeEndAt.instant)
    "coverage snapshot 자연키가 중복되었다." "coverage snapshot 구간이 겹친다."
    coverage [] (fun _ => none)

/-! ## Hashing in memory -/

/-- The canonical value of a series. -/
def seriesPayload (item : DatasetSeriesRequest) : JsonValue :=
  .mapping [
    ("exchange", .text item.exchange),
    ("marketCode", .text item.marketCode),
    ("dataKind", .text item.dataKind),
    ("unit", canonicalText item.unit),
    ("definitionSetHash", canonicalText item.definitionSetHash),
    ("calculationVersion", canonicalText item.calculationVersion)]

/-- The sort key of a series. -/
def seriesSortKey (item : DatasetSeriesRequest) : List String :=
  [item.exchange, item.marketCode, item.dataKind, strText item.unit,
    strText item.definitionSetHash, strText item.calculationVersion]

/-- `_canonical_specification`. -/
def canonicalSpecification (specification : DatasetCanonicalSpecification) : JsonValue :=
  let naturalSeries := sortedBy seriesSortKey specification.series
  .mapping [
    ("schemaVersion", .text specification.schemaVersion),
    ("asOf", canonicalTime specification.asOf),
    ("inputStartAt", canonicalTime specification.inputStartAt),
    ("outputStartAt", canonicalTime specification.outputStartAt),
    ("endAt", canonicalTime specification.endAt),
    ("series", .list (naturalSeries.map seriesPayload)),
    ("fillPolicy", .text specification.fillPolicy),
    ("missingPolicy", .text specification.missingPolicy),
    ("orderingPolicy", .text specification.orderingPolicy)]

/-- The hashes of a dataset from the hashes of its parts. -/
def datasetHashes (sha256 : List ℕ → String)
    (selectionHash manifestHash marketStatusHash coverageHash : String) : DatasetHashes where
  selectionHash := selectionHash
  manifestHash := manifestHash
  marketStatusHash := marketStatusHash
  coverageHash := coverageHash
  contentHash := canonicalPayloadHash sha256 (.mapping [
    ("selectionHash", .text selectionHash),
    ("manifestHash", .text manifestHash),
    ("marketStatusHash", .text marketStatusHash),
    ("coverageHash", .text coverageHash)])

/-- `canonical_dataset_hashes`. -/
def canonicalDatasetHashes (sha256 : List ℕ → String)
    (specification : DatasetCanonicalSpecification) (members : List DatasetCanonicalMember)
    (marketStatuses : List DatasetMarketStatusSnapshot)
    (coverage : List DatasetCoverageSegment) : Except PythonError DatasetHashes := do
  validateSpecification specification
  let validated ← members.mapM canonicalMember
  let canonicalMembers := sortedBy memberSortKey validated
  requireValue ((canonicalMembers.map memberNaturalKey).Nodup)
    "데이터셋 멤버 자연키와 내용이 중복되었다."
  let statuses ← marketStatuses.mapM canonicalMarketStatus
  let canonicalStatuses := sortedBy marketStatusSortKey statuses
  validateStatusProjection canonicalStatuses
  let segments ← coverage.mapM canonicalCoverageSegment
  let canonicalCoverage := sortedBy coverageSortKey segments
  validateCoverageProjection canonicalCoverage
  pure (datasetHashes sha256
    (canonicalPayloadHash sha256 (canonicalSpecification specification))
    (canonicalPayloadHash sha256 (.list (canonicalMembers.map memberPayload)))
    (canonicalPayloadHash sha256 (.list (canonicalStatuses.map marketStatusPayload)))
    (canonicalPayloadHash sha256 (.list (canonicalCoverage.map coveragePayload))))

/-! ## Hashing row by row -/

/-- `CanonicalJsonArrayDigest`; `digest` are the bytes that SHA-256 has been fed. -/
structure CanonicalJsonArrayDigest where
  digest : List ℕ := utf8Bytes "["
  count : ℕ := 0
  previousKey : Option (List String) := none

namespace CanonicalJsonArrayDigest

/-- The check of `add` and of `add_encoded`. -/
def requireAscending (self : CanonicalJsonArrayDigest) (naturalKey : List String) :
    Except PythonError Unit :=
  requireValue (!self.previousKey.any fun previous => naturalKey ≤ previous)
    "정규 JSON 배열 자연키는 오름차순이며 중복될 수 없다."

/-- `add_encoded`. -/
def addEncoded (self : CanonicalJsonArrayDigest) (encoded : List ℕ) (naturalKey : List String) :
    Except PythonError CanonicalJsonArrayDigest := do
  self.requireAscending naturalKey
  let separated := if self.count = 0 then self.digest else self.digest ++ utf8Bytes ","
  pure {
    digest := separated ++ encoded
    count := self.count + 1
    previousKey := some naturalKey }

/-- `add`; it returns the encoded value and changes the digest. -/
def add (self : CanonicalJsonArrayDigest) (value : JsonValue) (naturalKey : List String) :
    Except PythonError (List ℕ × CanonicalJsonArrayDigest) := do
  self.requireAscending naturalKey
  let encoded := canonicalJsonBytes value
  let added ← self.addEncoded encoded naturalKey
  pure (encoded, added)

/-- `add_canonical_member`. -/
def addCanonicalMember (self : CanonicalJsonArrayDigest) (member : DatasetCanonicalMember) :
    Except PythonError (List ℕ × CanonicalJsonArrayDigest) := do
  let payload ← canonicalMember member
  self.add (memberPayload payload) (memberSortKey payload).dropLast

/-- `hexdigest`. -/
def hexdigest (sha256 : List ℕ → String) (self : CanonicalJsonArrayDigest) : String :=
  sha256 (self.digest ++ utf8Bytes "]")

end CanonicalJsonArrayDigest

/-- `manifest` and `by_series` of `_stream_publication_hashes`. -/
structure MemberDigests where
  manifest : CanonicalJsonArrayDigest
  bySeries : ℤ → Option CanonicalJsonArrayDigest

/-- One row of the members. -/
def streamMember (digests : MemberDigests) (row : ℤ × DatasetCanonicalMember) :
    Except PythonError MemberDigests :=
  match digests.bySeries row.1 with
  | none => .error .keyError
  | some seriesDigest => do
    let (_, manifest) ← digests.manifest.addCanonicalMember row.2
    let (_, seriesDigest) ← seriesDigest.addCanonicalMember row.2
    pure {
      manifest := manifest
      bySeries := Function.update digests.bySeries row.1 (some seriesDigest) }

/-- One row of the market statuses. -/
def streamMarketStatus (digest : CanonicalJsonArrayDigest) (row : DatasetMarketStatusSnapshot) :
    Except PythonError CanonicalJsonArrayDigest := do
  let payload ← canonicalMarketStatus row
  Prod.snd <$> digest.add (marketStatusPayload payload) (marketStatusSortKey payload)

/-- One row of the coverage. -/
def streamCoverage (digest : CanonicalJsonArrayDigest) (row : DatasetCoverageSegment) :
    Except PythonError CanonicalJsonArrayDigest := do
  let payload ← canonicalCoverageSegment row
  Prod.snd <$> digest.add (coveragePayload payload) (coverageSortKey payload)

/-- `_stream_publication_hashes`, of the rows of its three cursors; a member comes with the id
of its series. -/
def streamPublicationHashes (sha256 : List ℕ → String)
    (specification : DatasetCanonicalSpecification) (seriesIds : List ℤ)
    (memberRows : List (ℤ × DatasetCanonicalMember))
    (statusRows : List DatasetMarketStatusSnapshot)
    (coverageRows : List DatasetCoverageSegment) :
    Except PythonError (DatasetHashes × (ℤ → Option (ℕ × String))) := do
  let selected ← canonicalDatasetHashes sha256 specification [] [] []
  let digests ← memberRows.foldlM streamMember {
    manifest := {}
    bySeries := fun seriesId => if seriesId ∈ seriesIds then some {} else none }
  let marketStatus ← statusRows.foldlM streamMarketStatus {}
  let coverage ← coverageRows.foldlM streamCoverage {}
  let hashes := datasetHashes sha256 selected.selectionHash (digests.manifest.hexdigest sha256)
    (marketStatus.hexdigest sha256) (coverage.hexdigest sha256)
  pure (hashes, fun seriesId => (digests.bySeries seriesId).map fun digest =>
    (digest.count, digest.hexdigest sha256))

/-! ## The order of the cursors -/

/-- `ORDER BY` text columns under `COLLATE "C"` and further columns. -/
abbrev CursorKey (κ : Type) := List (List ℕ) ×ₗ κ

/-- The order of the member cursor; `NULL` is read as `'None'`. -/
def memberCursorKey (row : DatasetCanonicalMember) : CursorKey (Instant ×ₗ List ℕ) :=
  toLex ([row.dataKind, row.exchange, row.marketCode, strText row.unit,
      strText row.definitionHash, row.calculationVersion].map utf8Bytes,
    toLex (row.occurredAt.instant, utf8Bytes row.contentHash))

/-- The order of the market status cursor. -/
def marketStatusCursorKey (row : DatasetMarketStatusSnapshot) : CursorKey (Instant ×ₗ Instant) :=
  toLex ([row.exchange, row.marketCode].map utf8Bytes,
    toLex (row.validFrom.instant, row.observedAt.instant))

/-- The order of the coverage cursor. -/
def coverageCursorKey (row : DatasetCoverageSegment) : CursorKey Instant :=
  toLex ([row.dataKind, row.exchange, row.marketCode, strText row.unit,
      strText row.definitionSetHash, row.calculationVersion].map utf8Bytes,
    row.rangeStartAt.instant)

end Goodmoneying.Program
