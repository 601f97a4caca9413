import Goodmoneying.Library.IntervalMap
import Goodmoneying.Library.StableSort
import Goodmoneying.Program.PortfolioTables

/-!
# Replacing the coverage of a range

`replace_coverage_with_classification` of `coverage_transition.py`: the coverage intervals
of a target that overlap a range are cut, one interval with the new status takes the range,
and every part of it whose status changes is logged as a quality event.

The tables are `coverage_intervals`, whose `CHECK` and exclusion constraints an insertion
has to pass, and `data_quality_events`, whose unique key drops an insertion (`ON CONFLICT DO
NOTHING`): `data_quality_events_fingerprint_uk` as `20260717000700_p1_recovery_readiness.sql`
and `schema.sql` have it. The advisory locks are not modelled; the clock is an argument. The loop
over the created events follows in `TransitionRecomputation`.
-/

namespace Goodmoneying.Program

open Library

/-! ## Coverage intervals -/

/-- `CoverageState`. -/
inductive CoverageState where
  | available | noTrade | missing | unavailable | unverified
  deriving DecidableEq, Repr

/-- The text the state is written as. -/
def CoverageState.text : CoverageState → String
  | available => "available"
  | noTrade => "no_trade"
  | missing => "missing"
  | unavailable => "unavailable"
  | unverified => "unverified"

/-- What an interval says of its instants. -/
structure Coverage where
  status : CoverageState
  evidence : List (String × CanonicalValue)
  fetchManifestId : Option ℤ
  assessedAt : Instant

/-- A row of `coverage_intervals`. -/
structure CoverageInterval where
  id : ℤ
  targetSpecId : ℤ
  rangeStartAt : Instant
  rangeEndAt : Instant
  coverage : Coverage
  range_lt : rangeStartAt < rangeEndAt

/-- The range of a row with its coverage. -/
def CoverageInterval.span (row : CoverageInterval) : Span Instant Coverage :=
  ⟨row.rangeStartAt, row.rangeEndAt, row.coverage, row.range_lt⟩

/-- The range of a row with its status. -/
def CoverageInterval.statusSpan (row : CoverageInterval) : Span Instant (Option CoverageState) :=
  ⟨row.rangeStartAt, row.rangeEndAt, some row.coverage.status, row.range_lt⟩

/-- `coverage_intervals` and the sequence of its ids. -/
structure IntervalTable where
  rows : List CoverageInterval
  nextId : ℤ
  unique : (rows.map CoverageInterval.id).Nodup
  fresh : ∀ row ∈ rows, row.id < nextId

/-- The rows of one target. -/
def IntervalTable.ofTarget (table : IntervalTable) (targetSpecId : ℤ) : List CoverageInterval :=
  table.rows.filter fun row => row.targetSpecId = targetSpecId

/-- `DELETE FROM coverage_intervals WHERE id = %s`. -/
def IntervalTable.delete (table : IntervalTable) (id : ℤ) : IntervalTable where
  rows := table.rows.filter fun row => row.id ≠ id
  nextId := table.nextId
  unique := table.unique.sublist (List.filter_sublist.map _)
  fresh row hrow := table.fresh row (List.mem_of_mem_filter hrow)

/-- `INSERT INTO coverage_intervals`; the ranges of a target exclude each other. -/
def IntervalTable.insert (table : IntervalTable) (targetSpecId : ℤ)
    (values : Span Instant Coverage) : Except StoreError IntervalTable :=
  if (table.ofTarget targetSpecId).all fun row => Apart row.span values then
    .ok {
      rows := table.rows ++ [{
        id := table.nextId
        targetSpecId := targetSpecId
        rangeStartAt := values.start
        rangeEndAt := values.stop
        coverage := values.value
        range_lt := values.start_lt }]
      nextId := table.nextId + 1
      unique := by
        rw [List.map_append, List.map_singleton]
        refine table.unique.append (List.nodup_singleton _) ?_
        rw [List.disjoint_singleton]
        intro hused
        obtain ⟨row, hrow, hid⟩ := List.mem_map.mp hused
        exact (table.fresh row hrow).ne hid
      fresh := by
        intro row hrow
        rcases List.mem_append.mp hrow with hrow | hrow
        · exact (table.fresh row hrow).trans (lt_add_one _)
        · obtain rfl := List.mem_singleton.mp hrow
          exact lt_add_one _ }
  else .error .exclusionViolation

/-! ## Quality events -/

/-- A row of `data_quality_events`. -/
structure QualityEvent where
  id : ℤ
  targetSpecId : ℤ
  eventType : String
  previousStatus : Option CoverageState
  newStatus : CoverageState
  rangeStartAt : Instant
  rangeEndAt : Instant
  fingerprint : String
  evidence : List (String × CanonicalValue)
  fetchManifestId : Option ℤ
  detectedAt : Instant

/-- The columns of `UNIQUE (target_spec_id, event_type, detected_at, fingerprint)`. -/
def QualityEvent.uniqueKey (event : QualityEvent) : ℤ × String × Instant × String :=
  (event.targetSpecId, event.eventType, event.detectedAt, event.fingerprint)

/-- `data_quality_events` and the sequence of its ids. -/
structure QualityEventTable where
  rows : List QualityEvent
  nextId : ℤ
  unique : (rows.map QualityEvent.uniqueKey).Nodup
  fresh : ∀ event ∈ rows, event.id < nextId

/-- The log before its first event. -/
def QualityEventTable.empty : QualityEventTable :=
  ⟨[], 1, List.nodup_nil, fun _ h => absurd h List.not_mem_nil⟩

/-- `INSERT INTO data_quality_events … ON CONFLICT DO NOTHING`, under the next id. -/
def QualityEventTable.insert (table : QualityEventTable) (event : QualityEvent) :
    QualityEventTable :=
  if h : event.uniqueKey ∈ table.rows.map QualityEvent.uniqueKey then
    { rows := table.rows
      nextId := table.nextId + 1
      unique := table.unique
      fresh := fun row hrow => (table.fresh row hrow).trans (lt_add_one _) }
  else
    { rows := table.rows ++ [{ event with id := table.nextId }]
      nextId := table.nextId + 1
      unique := by
        rw [List.map_append, List.map_singleton]
        exact table.unique.append (List.nodup_singleton _) (List.disjoint_singleton.mpr h)
      fresh := by
        intro row hrow
        rcases List.mem_append.mp hrow with hrow | hrow
        · exact (table.fresh row hrow).trans (lt_add_one _)
        · obtain rfl := List.mem_singleton.mp hrow
          exact lt_add_one _ }

/-! ## The replacement -/

/-- The tables of the replacement; `markets` is `collection_target_specs.market_id` by id. -/
structure CoverageDatabase where
  markets : ℤ → Option ℤ
  intervals : IntervalTable
  events : QualityEventTable

/-- The arguments of one call, and the time its clock shows. -/
structure CoverageCall where
  targetSpecId : ℤ
  rangeStartAt : Instant
  rangeEndAt : Instant
  status : CoverageState
  reasonCode : String
  manifestId : Option ℤ
  evidence : List (String × CanonicalValue)
  assessedAt : Instant

/-- The rows of the target whose range overlaps the range of the call, in order of their
start. -/
def overlappingIntervals (table : IntervalTable) (call : CoverageCall) : List CoverageInterval :=
  sortedBy CoverageInterval.rangeStartAt
    ((table.ofTarget call.targetSpecId).filter fun row =>
      row.rangeStartAt < call.rangeEndAt ∧ call.rangeStartAt < row.rangeEndAt)

/-- The parts of an overlapping interval before and after the range of the call. -/
def preservedPieces (call : CoverageCall) (overlap : CoverageInterval) :
    List (Span Instant Coverage) :=
  Span.ofBounds overlap.rangeStartAt (min overlap.rangeEndAt call.rangeStartAt) overlap.coverage ++
    Span.ofBounds (max overlap.rangeStartAt call.rangeEndAt) overlap.rangeEndAt overlap.coverage

/-- One round of the loop over the overlapping intervals, on the table. -/
def replaceOverlap (call : CoverageCall) (table : IntervalTable) (overlap : CoverageInterval) :
    Except StoreError IntervalTable :=
  (preservedPieces call overlap).foldlM (fun table piece => table.insert call.targetSpecId piece)
    (table.delete overlap.id)

/-- `covered_ranges`: the parts of the range that an interval covers. -/
def coveredRanges (call : CoverageCall) (overlaps : List CoverageInterval) :
    List (Span Instant (Option CoverageState)) :=
  overlaps.filterMap fun overlap => overlap.statusSpan.clip call.rangeStartAt call.rangeEndAt

/-- The transitions of the loop over the overlapping intervals: the parts of another status. -/
def changedRanges (call : CoverageCall) (overlaps : List CoverageInterval) :
    List (Span Instant (Option CoverageState)) :=
  overlaps.filterMap fun overlap =>
    if overlap.coverage.status ≠ call.status then
      overlap.statusSpan.clip call.rangeStartAt call.rangeEndAt
    else none

/-- `transitions`: the changed parts, and then the parts of the range that no interval
covers. -/
def coverageTransitions (call : CoverageCall) (overlaps : List CoverageInterval) :
    List (Span Instant (Option CoverageState)) :=
  changedRanges call overlaps ++
    gaps none call.rangeStartAt (coveredRanges call overlaps) call.rangeEndAt

/-- The coverage that the call gives to its range. -/
def newCoverage (call : CoverageCall) : Coverage where
  status := call.status
  evidence := call.evidence
  fetchManifestId := call.manifestId
  assessedAt := call.assessedAt

/-- The payload of the fingerprint of a transition. -/
def fingerprintPayload (call : CoverageCall) (transition : Span Instant (Option CoverageState)) :
    CanonicalValue :=
  .mapping [
    ("targetSpecId", .int call.targetSpecId),
    ("previousStatus", match transition.value with
      | some status => .text status.text
      | none => .null),
    ("newStatus", .text call.status.text),
    ("rangeStartAt", .datetime transition.start),
    ("rangeEndAt", .datetime transition.stop),
    ("reasonCode", .text call.reasonCode),
    ("fetchManifestId", match call.manifestId with
      | some manifestId => .int manifestId
      | none => .null)]

/-- The evidence of an event: the evidence of the call with two entries set. -/
def eventEvidence (call : CoverageCall) : List (String × CanonicalValue) :=
  (call.evidence.filter fun entry => entry.1 ≠ "reasonCode" ∧ entry.1 ≠ "fetchManifestId") ++
    [("reasonCode", .text call.reasonCode),
      ("fetchManifestId", match call.manifestId with
        | some manifestId => .int manifestId
        | none => .null)]

/-- The event of a transition, but for its id. -/
def transitionEvent (checksum : CanonicalValue → String) (call : CoverageCall)
    (transition : Span Instant (Option CoverageState)) : QualityEvent where
  id := 0
  targetSpecId := call.targetSpecId
  eventType := call.reasonCode
  previousStatus := transition.value
  newStatus := call.status
  rangeStartAt := transition.start
  rangeEndAt := transition.stop
  fingerprint := checksum (fingerprintPayload call transition)
  evidence := eventEvidence call
  fetchManifestId := call.manifestId
  detectedAt := call.assessedAt

/-- The loop over the transitions. -/
def logTransitions (checksum : CanonicalValue → String) (call : CoverageCall)
    (events : QualityEventTable) (transitions : List (Span Instant (Option CoverageState))) :
    QualityEventTable :=
  transitions.foldl (fun events transition =>
    events.insert (transitionEvent checksum call transition)) events

/-- `replace_coverage_with_classification` up to its loop over the created events. -/
def replaceCoverage (checksum : CanonicalValue → String)
    (db : CoverageDatabase) (call : CoverageCall) : Except StoreError CoverageDatabase :=
  if h : call.rangeStartAt ≥ call.rangeEndAt then .ok db
  else
    match db.markets call.targetSpecId with
    | none => .ok db
    | some _ => do
      let overlaps := overlappingIntervals db.intervals call
      let preserved ← overlaps.foldlM (replaceOverlap call) db.intervals
      let replaced ← preserved.insert call.targetSpecId
        ⟨call.rangeStartAt, call.rangeEndAt, newCoverage call, not_le.mp h⟩
      pure { db with
        intervals := replaced
        events := logTransitions checksum call db.events (coverageTransitions call overlaps) }

end Goodmoneying.Program
