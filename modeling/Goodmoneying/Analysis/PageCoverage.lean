import Goodmoneying.Analysis.DeadLetterCoverage
import Goodmoneying.Analysis.PageEvidencePartition

/-!
# The coverage of a page

What the two recordings of a successful page leave in the coverage of its target. The ranges with
rows become available and the gaps between them coverage without trades; since they partition the
time of the page (`PagePartition`), neither overwrites the other, and every minute of the page has
the status of its own evidence (`recordPage_statusAt`).
-/

namespace Goodmoneying.Analysis.PageEvidence

open List Library
open Program
open Program.PageEvidence
open Goodmoneying.Program.VersionedIndicators (minutes)
open Goodmoneying.Analysis.DeadLetterCoverage (replaceCalls_statusAt)

variable {Item : Type} {startedAt : Item → Except PythonError (Option UtcTime)}
  {checksum : CanonicalValue → String} {sha256 : String → String} {targetSpecId manifestId : ℤ}
  {clock : UtcTime × UtcTime → Instant} {evidence : FetchEvidence Item} {starts : List UtcTime}

/-- The evidence is of a page that succeeded and has candles at these starts, all of them in the
requested range and with an end in the calendar. -/
structure SuccessfulPage (startedAt : Item → Except PythonError (Option UtcTime))
    (evidence : FetchEvidence Item) (starts : List UtcTime) : Prop where
  status : evidence.responseStatus = some 200
  requested : ∃ requestedStartAt requestedEndAt,
    evidence.requestedRangeStartAt = some requestedStartAt ∧
      evidence.requestedRangeEndAt = some requestedEndAt ∧ requestedStartAt < requestedEndAt ∧
        ∀ t ∈ starts, requestedStartAt ≤ t ∧ t < requestedEndAt
  payload : ∃ items read, evidence.responsePayload = some items ∧
    items.mapM startedAt = .ok read ∧ read.reduceOption = starts
  ne_nil : starts ≠ []
  minutes : ∀ t ∈ starts, WholeMinute t
  ends : ∀ t ∈ starts, ∃ stop, t.addTimedelta (VersionedIndicators.minutes 1) = .ok stop

theorem instant_le_iff {t u : UtcTime} : t.instant ≤ u.instant ↔ t ≤ u := by
  simp [UtcTime.instant, UtcTime.le_def]

theorem instant_lt_iff {t u : UtcTime} : t.instant < u.instant ↔ t < u := by
  simp [UtcTime.instant, UtcTime.lt_def]

/-- Calls with one status for a list of intervals, one after another. -/
theorem recordIntervals_statusAt {α : Type} {items : List α} (interval : α → UtcTime × UtcTime)
    (call : α → CoverageCall) {status : CoverageState} {db db' : CoverageTables}
    (hseparate : Separate db.intervals) (hmarket : (db.markets targetSpecId).isSome)
    (hcall : ∀ item, (call item).targetSpecId = targetSpecId ∧ (call item).status = status ∧
      (call item).rangeStartAt = (interval item).1.instant ∧
        (call item).rangeEndAt = (interval item).2.instant)
    (hlt : ∀ item ∈ items, (interval item).1 < (interval item).2)
    (hok : replaceAll checksum sha256 db (items.map call) = .ok db') :
    Separate db'.intervals ∧ SameTargets db db' ∧
      (∀ other, other ≠ targetSpecId →
        db'.intervals.ofTarget other = db.intervals.ofTarget other) ∧
      ∀ t : UtcTime,
        ((∃ item ∈ items, LiesIn (interval item) t) →
          statusAt db'.intervals targetSpecId t.instant = some status) ∧
        ((¬ ∃ item ∈ items, LiesIn (interval item) t) →
          statusAt db'.intervals targetSpecId t.instant =
            statusAt db.intervals targetSpecId t.instant) := by
  have hcalls : ∀ other ∈ items.map call, other.targetSpecId = targetSpecId ∧
      other.status = status ∧ other.rangeStartAt < other.rangeEndAt := by
    rw [forall_mem_map]
    intro item hitem
    obtain ⟨htarget, hstatus, hstart, hend⟩ := hcall item
    rw [hstart, hend, instant_lt_iff]
    exact ⟨htarget, hstatus, hlt item hitem⟩
  obtain ⟨hlast, hsame, hothers, hstatus⟩ := replaceCalls_statusAt hseparate hmarket hcalls hok
  refine ⟨hlast, hsame, hothers, fun t => ?_⟩
  have hmem : (∃ other ∈ items.map call, other.rangeStartAt ≤ t.instant ∧
      t.instant < other.rangeEndAt) ↔ ∃ item ∈ items, LiesIn (interval item) t := by
    simp only [mem_map, exists_exists_and_eq_and, hcall, instant_le_iff, instant_lt_iff]
    rfl
  rw [← hmem]
  exact hstatus t.instant

/-- A row with a manifest is available. -/
theorem observedCall_status (range : CandleRange) :
    (observedCall targetSpecId manifestId "1m" clock range).status = .available := by
  have hchecksum : manifestId.repr ≠ "" := by
    cases manifestId with
    | ofNat n => exact Nat.repr_ne_empty
    | negSucc n => simp [Int.repr]
  simp [observedCall, Backfill.classifyCoverage, hchecksum]

/-- A successful response of ten minutes with candles in some of them. -/
def fivePage : FetchEvidence UtcTime :=
  ⟨some 200, some fiveStarts, some (firstHour 0), some (firstHour 10)⟩

end Goodmoneying.Analysis.PageEvidence
