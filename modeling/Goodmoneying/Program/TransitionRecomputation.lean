import Goodmoneying.Program.CoverageTransition
import Goodmoneying.Program.IncrementalAggregation

/-!
# Recomputation after a coverage transition

`_enqueue_quality_transition_recomputation` of `coverage_transition.py`: the range of a quality
event, cut to 32 days around the source candles, is split into ranges of rollup buckets, and
every range in which a source candle starts is invalidated, with a snapshot of the coverage
over it. A transition of minutes invalidates the indicators on minutes as well.
`replaceCoverageWithClassification` is the whole call: the replacement, and then a recomputation
for every created event. What it raises, the transaction of its caller undoes.

What the function inserts is returned; the unique keys of the two tables, which drop an
insertion made twice, are not modelled. `sha256` stands for the hexadecimal digest of a text.
-/

namespace Goodmoneying.Program.Aggregation

open Library
open Goodmoneying.Program.VersionedIndicators (jsonMapping jsonText)

/-- What is selected of the target of the event and its market. -/
structure TargetContext where
  marketId : ℤ
  dataType : String
  candleUnit : Option String
  instrumentId : Option ℤ

/-- A row of `source_candle_revisions`. -/
structure SourceCandleRevision where
  id : ℤ
  instrumentId : ℤ
  candleStartAt : UtcTime

/-- A row of `coverage_intervals` with the specification of its target. -/
structure CoverageRow where
  id : ℤ
  specificationId : ℤ
  marketId : ℤ
  dataType : String
  candleUnit : Option String
  rangeStartAt : UtcTime
  rangeEndAt : UtcTime
  status : CoverageState

/-- An entry of `coverage_payload`. -/
structure CoverageEntry where
  startAt : UtcTime
  endAt : UtcTime
  status : CoverageState

/-- A row for `candle_rollup_invalidations`. -/
structure RollupInvalidation where
  idempotencyKey : String
  marketId : ℤ
  instrumentId : ℤ
  range : RollupInvalidationRange
  sourceRevisionThroughId : ℤ
  qualityEventThroughId : ℤ
  coverageSnapshot : List CoverageEntry
  coverageSnapshotHash : String
  knowledgeAt : UtcTime

/-- A row for `indicator_invalidations`. -/
structure IndicatorInvalidation where
  instrumentId : ℤ
  changedQualityEventId : ℤ
  impactStartAt : UtcTime
  impactEndAt : UtcTime
  sourceRevisionThroughId : ℤ
  qualityEventThroughId : ℤ
  knowledgeAt : UtcTime

/-- What one call inserts. -/
structure Recomputation where
  indicator : Option IndicatorInvalidation := none
  rollups : List RollupInvalidation := []

/-- `bounds` of the revisions of an instrument. -/
structure RevisionBounds where
  firstAt : UtcTime
  lastAt : UtcTime
  sourceRevisionThroughId : ℤ

def revisionBounds (revisions : List SourceCandleRevision) : Option RevisionBounds := do
  let firstAt ← (revisions.map SourceCandleRevision.candleStartAt).min?
  let lastAt ← (revisions.map SourceCandleRevision.candleStartAt).max?
  let throughId ← (revisions.map SourceCandleRevision.id).max?
  pure ⟨firstAt, lastAt, throughId⟩

/-- `coverage_rows`: the coverage of the market over a range, cut to it. -/
def coverageEntries (coverage : List CoverageRow) (marketId : ℤ) (startAt endAt : UtcTime) :
    List CoverageEntry :=
  let rows := coverage.filter fun row => row.marketId = marketId ∧
    row.dataType = "source_candle" ∧ row.candleUnit ∈ [some "1m", some "1d"] ∧
    row.rangeStartAt < endAt ∧ startAt < row.rangeEndAt
  let ordered := sortedBy (fun row : CoverageRow =>
    toLex (max row.rangeStartAt startAt, toLex (min row.rangeEndAt endAt,
      toLex (row.candleUnit.getD "", toLex (row.status.text,
        toLex (row.specificationId, row.id)))))) rows
  ordered.map fun row => ⟨max row.rangeStartAt startAt, min row.rangeEndAt endAt, row.status⟩

/-- `coverage_json`. -/
def coverageJson (payload : List CoverageEntry) : String :=
  "[" ++ ",".intercalate (payload.map fun entry => jsonMapping
    [("endAt", jsonText entry.endAt.datetime.isoformat),
      ("startAt", jsonText entry.startAt.datetime.isoformat),
      ("status", jsonText entry.status.text)]) ++ "]"

/-- `affected_units`. -/
def affectedUnits (candleUnit : String) : List String :=
  if candleUnit = "1d" then ["1d", "1w", "1M"] else materializedAggregationUnits

/-- The invalidation of a range. -/
def rollupInvalidation (sha256 : String → String) (coverage : List CoverageRow)
    (marketId instrumentId : ℤ) (bounds : RevisionBounds) (qualityEventId : ℤ)
    (knowledgeAt : UtcTime) (affected : RollupInvalidationRange) : RollupInvalidation :=
  let payload := coverageEntries coverage marketId affected.startAt affected.endAt
  let coverageHash := sha256 (coverageJson payload)
  let fingerprint := sha256 (jsonMapping
    [("calculationVersion", jsonText calculationVersion),
      ("coverageSnapshotHash", jsonText coverageHash),
      ("endAt", jsonText affected.endAt.datetime.str),
      ("instrumentId", toString instrumentId),
      ("marketId", toString marketId),
      ("qualityEventId", toString qualityEventId),
      ("startAt", jsonText affected.startAt.datetime.str),
      ("unit", jsonText affected.unit)])
  { idempotencyKey := fingerprint
    marketId := marketId
    instrumentId := instrumentId
    range := affected
    sourceRevisionThroughId := bounds.sourceRevisionThroughId
    qualityEventThroughId := qualityEventId
    coverageSnapshot := payload
    coverageSnapshotHash := coverageHash
    knowledgeAt := knowledgeAt }

/-- The ranges of buckets that the transition of an instrument affects, before those without
a source candle are left out. -/
def affectedRanges (bounds : RevisionBounds) (candleUnit : String)
    (eventStartAt eventEndAt : UtcTime) : Except PythonError (List RollupInvalidationRange) := do
  let earliest ← bounds.firstAt.addTimedelta (days (-32))
  let latest ← bounds.lastAt.addTimedelta (days 32)
  affectedRollupRangesForInterval (max eventStartAt earliest) (min eventEndAt latest)
    (affectedUnits candleUnit)

/-- `contains_source`. -/
def containsSource (revisions : List SourceCandleRevision) (affected : RollupInvalidationRange) :
    Bool :=
  revisions.any fun revision =>
    affected.startAt ≤ revision.candleStartAt ∧ revision.candleStartAt < affected.endAt

/-- `_enqueue_quality_transition_recomputation`. -/
def enqueueQualityTransitionRecomputation (sha256 : String → String)
    (context : Option TargetContext) (table : List SourceCandleRevision)
    (coverage : List CoverageRow) (qualityEventId : ℤ)
    (eventStartAt eventEndAt knowledgeAt : UtcTime) : Except PythonError Recomputation :=
  match context with
  | none => .ok {}
  | some target =>
    match target.candleUnit, target.instrumentId with
    | some candleUnit, some instrumentId =>
      if target.dataType ≠ "source_candle" ∨ candleUnit ∉ ["1m", "1d"] then .ok {}
      else
        let revisions := table.filter fun revision => revision.instrumentId = instrumentId
        match revisionBounds revisions with
        | none => .ok {}
        | some bounds => do
          let ranges ← affectedRanges bounds candleUnit eventStartAt eventEndAt
          pure {
            indicator :=
              if candleUnit = "1m" then some {
                instrumentId := instrumentId
                changedQualityEventId := qualityEventId
                impactStartAt := eventStartAt
                impactEndAt := eventEndAt
                sourceRevisionThroughId := bounds.sourceRevisionThroughId
                qualityEventThroughId := qualityEventId
                knowledgeAt := knowledgeAt }
              else none
            rollups := (ranges.filter (containsSource revisions)).map
              (rollupInvalidation sha256 coverage target.marketId instrumentId bounds
                qualityEventId knowledgeAt) }
    | _, _ => .ok {}

end Goodmoneying.Program.Aggregation

namespace Goodmoneying.Program

open Library Program.Aggregation

/-! ## The whole call -/

/-- The time of the calendar nearest to an instant; the ends of a call are `datetime`s, which are
in the calendar. -/
def UtcTime.nearest (value : Instant) : UtcTime where
  microseconds := min value.toNat (maxOrdinal * dayMicroseconds - 1)
  in_calendar := (min_le_right _ _).trans_lt (by decide)

/-- What a call raises: an error of the store, or an exception of Python. -/
inductive CoverageException where
  | store (error : StoreError)
  | python (error : PythonError)
  deriving DecidableEq, Repr

/-- The tables of the whole call. `contexts` is what is selected of a target and its market by the
id of the target, `recomputations` what the recomputations have inserted. -/
structure CoverageTables extends CoverageDatabase where
  contexts : ℤ → Option TargetContext
  revisions : List SourceCandleRevision
  recomputations : List Recomputation

/-- `coverage_intervals` joined with `collection_target_specs`. -/
def CoverageTables.coverageRows (db : CoverageTables) : List CoverageRow :=
  db.intervals.rows.filterMap fun row => (db.contexts row.targetSpecId).map fun target => {
    id := row.id
    specificationId := row.targetSpecId
    marketId := target.marketId
    dataType := target.dataType
    candleUnit := target.candleUnit
    rangeStartAt := .nearest row.rangeStartAt
    rangeEndAt := .nearest row.rangeEndAt
    status := row.coverage.status }

/-- `created_events`: the events that the log has got. -/
def createdEvents (before after : QualityEventTable) : List QualityEvent :=
  after.rows.drop before.rows.length

/-- The loop over the created events. -/
def recomputeCreated (sha256 : String → String) (db : CoverageTables) (call : CoverageCall)
    (created : List QualityEvent) : Except PythonError (List Recomputation) :=
  created.mapM fun event => enqueueQualityTransitionRecomputation sha256
    (db.contexts call.targetSpecId) db.revisions db.coverageRows event.id
    (.nearest event.rangeStartAt) (.nearest event.rangeEndAt) (.nearest call.assessedAt)

/-- `replace_coverage_with_classification`. -/
def replaceCoverageWithClassification (checksum : CanonicalValue → String)
    (sha256 : String → String) (db : CoverageTables) (call : CoverageCall) :
    Except CoverageException CoverageTables := do
  let replaced ← (replaceCoverage checksum db.toCoverageDatabase call).mapError .store
  let db' := { db with toCoverageDatabase := replaced }
  let recomputed ← (recomputeCreated sha256 db' call
    (createdEvents db.events replaced.events)).mapError .python
  pure { db' with recomputations := db.recomputations ++ recomputed }

end Goodmoneying.Program
