import Mathlib.Data.String.Basic
import Goodmoneying.Library.Grouping
import Goodmoneying.Library.Tiling
import Goodmoneying.Program.CoverageTransition

/-!
# Projecting coverage on ranges

`_project_coverage_ranges` of `dataset_version_store.py`: the ends of quality events and of
market status rows, clipped to a window, cut the window into ranges. Each range gets the worst
of the latest events of the authorities that cover it, with the evidence of all of them, and
the latest market status that covers it.

The new status of an event is one of the five that the `CHECK` of `data_quality_events` admits.
-/

namespace Goodmoneying.Program

open Library

/-- A quality event with the authority that its target belongs to. -/
structure AuthorityEvent where
  event : QualityEvent
  authorityDataType : String
  authorityUnit : Option String

/-- What of a market status snapshot is read. -/
structure MarketStatusRow where
  id : ℤ
  validFrom : Instant
  validTo : Option Instant
  observedAt : Instant
  tradingStatus : String
  snapshotHash : String

/-- An entry of `authority_evidence`. -/
structure AuthorityEvidence where
  dataType : String
  unit : Option String
  eventId : ℤ
  status : String
  evidence : List (String × CanonicalValue)

/-- The event of a range: a row with what is added to it. -/
structure ProjectedEvent where
  row : AuthorityEvent
  combinedDetectedAt : Instant
  authorityEvidence : List AuthorityEvidence

structure ProjectedRange where
  startAt : Instant
  endAt : Instant
  event : Option ProjectedEvent
  marketStatus : Option MarketStatusRow

/-- `_QUALITY_ORDER`. -/
def qualityOrder : List (String × ℕ) :=
  [("available", 0), ("no_trade", 1), ("missing", 2), ("unavailable", 3), ("unverified", 4)]

/-- `_normalize_source_quality`. -/
def normalizeSourceQuality (value : String) : String :=
  (List.lookup value [("observed", "available"), ("failed", "missing")]).getD value

/-- `_QUALITY_ORDER[_normalize_source_quality(row["new_status"])]`: the statuses of the column
are keys. -/
def AuthorityEvent.order (row : AuthorityEvent) : ℕ :=
  (qualityOrder.lookup (normalizeSourceQuality row.event.newStatus.text)).getD 0

/-- `authority`. -/
def AuthorityEvent.authority (row : AuthorityEvent) : String × Option String :=
  (row.authorityDataType, row.authorityUnit)

/-- The worst quality counts, then the latest event. -/
def AuthorityEvent.worstKey (row : AuthorityEvent) : ℕ ×ₗ ℤ := toLex (row.order, row.event.id)

/-- The texts that the evidence is sorted by. -/
def AuthorityEvent.authorityKey (row : AuthorityEvent) : String ×ₗ String :=
  toLex (row.authorityDataType, row.authorityUnit.getD "None")

/-- The latest observation counts, then the latest row. -/
def MarketStatusRow.latestKey (row : MarketStatusRow) : Instant ×ₗ ℤ :=
  toLex (row.observedAt, row.id)

/-- The entry of a row in `authority_evidence`. -/
def AuthorityEvent.toEvidence (row : AuthorityEvent) : AuthorityEvidence where
  dataType := row.authorityDataType
  unit := row.authorityUnit
  eventId := row.event.id
  status := normalizeSourceQuality row.event.newStatus.text
  evidence := row.event.evidence

/-- The borders that a row adds: its ends, clipped to the window that it overlaps. -/
def rowBoundaries (startAt endAt rowStart rowEnd : Instant) : List Instant :=
  if rowStart < endAt ∧ startAt < rowEnd then [max startAt rowStart, min endAt rowEnd] else []

/-- `boundaries`. -/
def coverageBoundaries (events : List AuthorityEvent) (statuses : List MarketStatusRow)
    (startAt endAt : Instant) : List Instant :=
  [startAt, endAt] ++
    events.flatMap (fun row =>
      rowBoundaries startAt endAt row.event.rangeStartAt row.event.rangeEndAt) ++
    statuses.flatMap fun row =>
      rowBoundaries startAt endAt row.validFrom (row.validTo.getD endAt)

/-- `latest_by_authority`. -/
def latestByAuthority (events : List AuthorityEvent) (rangeStart rangeEnd : Instant) :
    List ((String × Option String) × AuthorityEvent) :=
  (events.filter fun row =>
    row.event.rangeStartAt ≤ rangeStart ∧ rangeEnd ≤ row.event.rangeEndAt).foldl
      (keepBest AuthorityEvent.authority fun row => row.event.id) []

/-- `event`, of the values of `latest_by_authority`. -/
def projectedEvent (latest : List AuthorityEvent) : Option ProjectedEvent := do
  let row ← maxBy AuthorityEvent.worstKey latest
  let latestEvents := sortedBy AuthorityEvent.authorityKey latest
  let combinedDetectedAt ← (latestEvents.map fun row => row.event.detectedAt).max?
  pure {
    row := row
    combinedDetectedAt := combinedDetectedAt
    authorityEvidence := latestEvents.map AuthorityEvent.toEvidence }

/-- `market_status`. -/
def projectedStatus (statuses : List MarketStatusRow) (rangeStart rangeEnd : Instant) :
    Option MarketStatusRow :=
  maxBy MarketStatusRow.latestKey (statuses.filter fun row => row.validFrom ≤ rangeStart ∧
    ∀ validTo ∈ row.validTo, rangeEnd ≤ validTo)

/-- `_project_coverage_ranges`. -/
def projectCoverageRanges (events : List AuthorityEvent) (statuses : List MarketStatusRow)
    (startAt endAt : Instant) : List ProjectedRange :=
  (pieces (sortedBy id (coverageBoundaries events statuses startAt endAt).dedup)).map
    fun range => {
      startAt := range.1
      endAt := range.2
      event := projectedEvent ((latestByAuthority events range.1 range.2).map Prod.snd)
      marketStatus := projectedStatus statuses range.1 range.2 }

end Goodmoneying.Program
