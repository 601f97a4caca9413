import Goodmoneying.Library.RunsAndGaps
import Goodmoneying.Program.PageEvidence
import Mathlib.Data.Finset.Card

/-!
# The evidence of a page is a partition

The ranges with rows and the gaps without rows of one page of minute candles come from two loops
over the distinct starts: the first one computes the runs of the starts (`contiguousFrom_eq`), the
second one the gaps between them (`minuteGaps_eq`). So the two together cover what lies between the
first candle and the end of the last one, without overlap (`pageEvidence_partition`). In the last
minute of the calendar `_contiguous_candle_ranges` has no end and raises.
-/

namespace Goodmoneying.Analysis.PageEvidence

open List Library
open Program
open Program.PageEvidence
open Goodmoneying.Program.VersionedIndicators (minutes)

variable {t u : UtcTime} {points : List UtcTime}

/-! ## Minutes -/

/-- The time is on a whole minute. -/
def WholeMinute (t : UtcTime) : Prop := 60000000 ∣ t.microseconds

instance (t : UtcTime) : Decidable (WholeMinute t) := inferInstanceAs (Decidable (_ ∣ _))

/-- The time a minute later, or the last one of the calendar. -/
def minuteAfter (t : UtcTime) : UtcTime where
  microseconds := min (t.microseconds + 60000000) (maxOrdinal * dayMicroseconds - 1)
  in_calendar := by
    have := t.in_calendar
    omega

theorem eq_minuteAfter (h : t.addTimedelta (minutes 1) = .ok u) : u = minuteAfter t := by
  rw [UtcTime.addTimedelta_eq_ok] at h
  have hbound := u.in_calendar
  ext
  simp only [minuteAfter]
  unfold minutes at h
  omega

/-- Before a later whole minute there is room for a minute. -/
theorem addMinute_of_lt (ht : WholeMinute t) (hu : WholeMinute u) (h : t < u) :
    t.addTimedelta (minutes 1) = .ok (minuteAfter t) ∧ minuteAfter t ≤ u := by
  have hbound := u.in_calendar
  rw [UtcTime.lt_def] at h
  unfold WholeMinute at ht hu
  constructor
  · rw [UtcTime.addTimedelta_eq_ok]
    simp only [minuteAfter, minutes]
    omega
  · rw [UtcTime.le_def]
    simp only [minuteAfter]
    omega

theorem lt_minuteAfter (ht : WholeMinute t) : t < minuteAfter t := by
  have hbound := t.in_calendar
  have hcalendar : 60000000 ∣ maxOrdinal * dayMicroseconds := by decide
  rw [UtcTime.lt_def]
  unfold WholeMinute at ht
  simp only [minuteAfter]
  omega

/-- A whole minute lies in the minute of another one only if they are equal. -/
theorem within_minute_iff (ht : WholeMinute t) (hu : WholeMinute u) :
    LiesIn (t, minuteAfter t) u ↔ u = t := by
  constructor
  · rintro ⟨hle, hlt⟩
    by_contra hne
    have hlater := (addMinute_of_lt ht hu (lt_of_le_of_ne hle (Ne.symm hne))).2
    exact not_le.mpr hlt hlater
  · rintro rfl
    exact ⟨le_rfl, lt_minuteAfter ht⟩

/-- Ascending whole minutes have room for a minute each. -/
theorem spaced_minutes (hsorted : points.Pairwise (· < ·))
    (hminutes : ∀ point ∈ points, WholeMinute point) : Spaced minuteAfter points where
  lt_next point hpoint := lt_minuteAfter (hminutes point hpoint)
  next_le := hsorted.imp_of_mem fun hfirst hsecond hlt =>
    (addMinute_of_lt (hminutes _ hfirst) (hminutes _ hsecond) hlt).2

/-! ## The two loops -/

/-- The range of a run. -/
def rangeOfRun (run : Run UtcTime) : CandleRange := ⟨run.start, run.stop, run.count⟩

/-- The loop over the later starts computes the runs, and raises at most for the end of the last
candle. -/
theorem contiguousFrom_eq {rangeStart previous : UtcTime} {rowCount : ℕ}
    (hsorted : (previous :: points).Pairwise (· < ·))
    (hminutes : ∀ point ∈ previous :: points, WholeMinute point) :
    contiguousFrom (minutes 1) rangeStart previous rowCount points =
      (fun _ => (runsFrom minuteAfter rangeStart previous rowCount points).map rangeOfRun) <$>
        ((previous :: points).getLast (cons_ne_nil _ _)).addTimedelta (minutes 1) := by
  induction points generalizing rangeStart previous rowCount with
  | nil =>
    rw [contiguousFrom, runsFrom, getLast_singleton]
    cases hend : previous.addTimedelta (minutes 1) with
    | error error => rfl
    | ok rangeEnd =>
      rw [eq_minuteAfter hend]
      rfl
  | cons current points ih =>
    obtain ⟨hprevious, hrest⟩ := pairwise_cons.mp hsorted
    rw [forall_mem_cons] at hminutes
    have hadd := (addMinute_of_lt hminutes.1 (hminutes.2 current mem_cons_self)
      (hprevious current mem_cons_self)).1
    rw [contiguousFrom, runsFrom, hadd, ok_bind, getLast_cons_cons]
    split_ifs with htouch
    · exact ih hrest hminutes.2
    · rw [ih hrest hminutes.2]
      cases ((current :: points).getLast _).addTimedelta (minutes 1) with
      | error error => rfl
      | ok rangeEnd => rfl

/-- The loop over the neighbours computes the gaps, and raises nothing. -/
theorem minuteGaps_eq (hsorted : points.Pairwise (· < ·))
    (hminutes : ∀ point ∈ points, WholeMinute point) :
    minuteGaps (pieces points) = .ok (gapsBetween minuteAfter points) := by
  induction points with
  | nil => rfl
  | cons first points ih =>
    cases points with
    | nil => rfl
    | cons second points =>
      obtain ⟨hfirst, hrest⟩ := pairwise_cons.mp hsorted
      rw [forall_mem_cons] at hminutes
      have hadd := (addMinute_of_lt hminutes.1 (hminutes.2 second mem_cons_self)
        (hfirst second mem_cons_self)).1
      rw [pieces_cons_cons, minuteGaps, hadd, ok_bind, ih hrest hminutes.2, ok_bind,
        gapsBetween_cons_cons]
      rfl

/-! ## The partition -/

/-- The ranges with rows and the gaps without rows partition what lies between `first` and `stop`,
the minutes of the starts to the ranges and the other ones to the gaps. -/
structure PagePartition (starts : List UtcTime) (first stop : UtcTime) (ranges : List CandleRange)
    (gaps : List (UtcTime × UtcTime)) : Prop where
  lt_of_mem : ∀ interval ∈ ranges.map CandleRange.interval ++ gaps, interval.1 < interval.2
  disjoint : (ranges.map CandleRange.interval ++ gaps).Pairwise fun interval other =>
    ∀ t, ¬ (LiesIn interval t ∧ LiesIn other t)
  covers : ∀ t, (∃ interval ∈ ranges.map CandleRange.interval ++ gaps, LiesIn interval t) ↔
    first ≤ t ∧ t < stop
  mem_range_iff : ∀ t, WholeMinute t →
    ((∃ range ∈ ranges, LiesIn range.interval t) ↔ t ∈ starts)
  mem_gap_iff : ∀ t, WholeMinute t → first ≤ t → t < stop →
    ((∃ gap ∈ gaps, LiesIn gap t) ↔ t ∉ starts)
  sum_rowCount : (ranges.map CandleRange.rowCount).sum = starts.toFinset.card

/-- The distinct starts in ascending order. -/
theorem sortedStarts_spec (starts : List UtcTime) : (sortedBy id starts.dedup).Pairwise (· < ·) ∧
      ∀ t, t ∈ sortedBy id starts.dedup ↔ t ∈ starts := by
  constructor
  · apply sortedBy_lt_of_nodup
    simpa using nodup_dedup starts
  · intro t
    rw [mem_sortedBy, mem_dedup]

/-- The runs of ascending whole minutes and the gaps between them are such a partition. -/
theorem partition_of_runs {starts : List UtcTime} {first : UtcTime} {later : List UtcTime}
    (hstarts : sortedBy id starts.dedup = first :: later)
    (hminutes : ∀ t ∈ first :: later, WholeMinute t) :
    PagePartition starts first (minuteAfter ((first :: later).getLast (cons_ne_nil _ _)))
      ((runs minuteAfter (first :: later)).map rangeOfRun)
      (gapsBetween minuteAfter (first :: later)) := by
  obtain ⟨hsorted, hmem⟩ := sortedStarts_spec starts
  rw [hstarts] at hsorted hmem
  have hspaced := spaced_minutes hsorted hminutes
  have hintervals : ((runs minuteAfter (first :: later)).map rangeOfRun).map CandleRange.interval =
      (runs minuteAfter (first :: later)).map Run.interval := by
    rw [map_map]
    rfl
  have hrange : ∀ t, WholeMinute t →
      ((∃ range ∈ (runs minuteAfter (first :: later)).map rangeOfRun,
        LiesIn range.interval t) ↔ t ∈ starts) := by
    intro t ht
    have hruns : (∃ range ∈ (runs minuteAfter (first :: later)).map rangeOfRun,
        LiesIn range.interval t) ↔
          ∃ run ∈ runs minuteAfter (first :: later), LiesIn run.interval t := by
      simp [rangeOfRun, CandleRange.interval, Run.interval]
    rw [hruns, exists_mem_runs_iff hspaced, ← hmem t]
    constructor
    · rintro ⟨point, hpoint, hin⟩
      obtain rfl := (within_minute_iff (hminutes point hpoint) ht).mp hin
      exact hpoint
    · intro hpoint
      exact ⟨t, hpoint, (within_minute_iff ht ht).mpr rfl⟩
  have hcovers := exists_mem_runs_gaps_iff hspaced
  have hdisjoint := pairwise_runs_gaps hspaced
  constructor
  case lt_of_mem =>
    rw [hintervals]
    intro interval hinterval
    rcases mem_append.mp hinterval with hrun | hgap
    · obtain ⟨run, hmemRun, rfl⟩ := mem_map.mp hrun
      exact lt_of_mem_runsFrom hspaced le_rfl hmemRun
    · exact lt_of_mem_gapsBetween hgap
  case disjoint =>
    rw [hintervals]
    exact hdisjoint
  case covers =>
    rw [hintervals]
    exact hcovers
  case mem_range_iff => exact hrange
  case mem_gap_iff =>
    intro t ht hle hlt
    rw [← hrange t ht]
    constructor
    · rintro ⟨gap, hgap, hin⟩ ⟨range, hrun, hwithin⟩
      rw [pairwise_append] at hdisjoint
      have hmap := mem_map_of_mem (f := CandleRange.interval) hrun
      rw [hintervals] at hmap
      exact hdisjoint.2.2 _ hmap gap hgap t ⟨hwithin, hin⟩
    · intro hnone
      obtain ⟨interval, hinterval, hin⟩ := (hcovers t).mpr ⟨hle, hlt⟩
      rcases mem_append.mp hinterval with hrun | hgap
      · rw [← hintervals] at hrun
        obtain ⟨range, hrange, rfl⟩ := mem_map.mp hrun
        exact absurd ⟨range, hrange, hin⟩ hnone
      · exact ⟨interval, hgap, hin⟩
  case sum_rowCount =>
    have hcounts : ((runs minuteAfter (first :: later)).map rangeOfRun).map CandleRange.rowCount =
        (runsFrom minuteAfter first first 1 later).map Run.count := by
      rw [map_map]
      rfl
    have hlength := (sortedBy_perm id starts.dedup).length_eq
    rw [hstarts, length_cons] at hlength
    rw [hcounts, sum_count_runsFrom, card_toFinset, ← hlength, add_comm]

/-- The distinct starts, first to last. -/
theorem exists_sortedStarts {starts : List UtcTime} (hne : starts ≠ []) :
    ∃ first later, sortedBy id starts.dedup = first :: later := by
  obtain ⟨t, ht⟩ := exists_mem_of_ne_nil starts hne
  have hmem := ((sortedStarts_spec starts).2 t).mpr ht
  exact exists_cons_of_ne_nil (ne_nil_of_mem hmem)

section SortedStarts

variable {starts : List UtcTime} {first : UtcTime} {later : List UtcTime}
  (hstarts : sortedBy id starts.dedup = first :: later)

include hstarts

/-- The first one and the last one are starts, and no start lies outside them. -/
theorem sortedStarts_bounds : first ∈ starts ∧ (first :: later).getLast (cons_ne_nil _ _) ∈ starts ∧
      ∀ t ∈ starts, first ≤ t ∧ t ≤ (first :: later).getLast (cons_ne_nil _ _) := by
  obtain ⟨hsorted, hmem⟩ := sortedStarts_spec starts
  rw [hstarts] at hsorted hmem
  refine ⟨(hmem first).mp mem_cons_self, (hmem _).mp (getLast_mem _), fun t ht => ?_⟩
  have hfrom := (hmem t).mpr ht
  constructor
  · rcases mem_cons.mp hfrom with heq | hlater
    · exact heq.symm.le
    · exact ((pairwise_cons.mp hsorted).1 t hlater).le
  · exact (hsorted.imp le_of_lt).rel_getLast hfrom

variable (hminutes : ∀ t ∈ starts, WholeMinute t)

include hminutes

theorem sortedStarts_minutes : ∀ t ∈ first :: later, WholeMinute t := by
  intro t ht
  rw [← hstarts] at ht
  exact hminutes t (((sortedStarts_spec starts).2 t).mp ht)

/-- The ranges are the runs of the starts, if the last one has an end. -/
theorem contiguousCandleRanges_eq : contiguousCandleRanges starts "1m" =
      (fun _ => (runs minuteAfter (first :: later)).map rangeOfRun) <$>
        ((first :: later).getLast (cons_ne_nil _ _)).addTimedelta (minutes 1) := by
  have hsorted := (sortedStarts_spec starts).1
  rw [hstarts] at hsorted
  rw [contiguousCandleRanges, hstarts]
  exact contiguousFrom_eq hsorted (sortedStarts_minutes hstarts hminutes)

/-- The gaps are those between the starts. -/
theorem internalMinuteCandleGaps_eq {requestedStartAt requestedEndAt : UtcTime}
    (hrequested : requestedStartAt < requestedEndAt)
    (hinside : ∀ t ∈ starts, requestedStartAt ≤ t ∧ t < requestedEndAt) :
    internalMinuteCandleGaps requestedStartAt requestedEndAt starts =
      .ok (gapsBetween minuteAfter (first :: later)) := by
  have hbounded : boundedStarts requestedStartAt requestedEndAt starts = first :: later := by
    rw [boundedStarts, filter_eq_self.mpr, hstarts]
    intro t ht
    simpa using hinside t ht
  have hsorted := (sortedStarts_spec starts).1
  rw [hstarts] at hsorted
  rw [internalMinuteCandleGaps, if_neg (not_le.mpr hrequested), hbounded]
  exact minuteGaps_eq hsorted (sortedStarts_minutes hstarts hminutes)

end SortedStarts

/-- The ranges and the gaps of a page of minute candles partition the time from the first candle to
the end of the last one, unless that end lies beyond the calendar.
SOURCE: postgres_repository.py:5542-5589, 6382-6407; data_foundation.py:248-275 -/
theorem pageEvidence_partition (requestedStartAt requestedEndAt : UtcTime)
    (hrequested : requestedStartAt < requestedEndAt) (starts : List UtcTime) (hne : starts ≠ [])
    (hinside : ∀ t ∈ starts, requestedStartAt ≤ t ∧ t < requestedEndAt)
    (hminutes : ∀ t ∈ starts, WholeMinute t) :
    ∃ first ∈ starts, ∃ last ∈ starts, (∀ t ∈ starts, first ≤ t ∧ t ≤ last) ∧
      ∃ gaps, internalMinuteCandleGaps requestedStartAt requestedEndAt starts = .ok gaps ∧
        (∀ stop, last.addTimedelta (minutes 1) = .ok stop →
          ∃ ranges, contiguousCandleRanges starts "1m" = .ok ranges ∧
            PagePartition starts first stop ranges gaps) ∧
        ∀ error, last.addTimedelta (minutes 1) = .error error →
          contiguousCandleRanges starts "1m" = .error error := by
  obtain ⟨first, later, hstarts⟩ := exists_sortedStarts hne
  obtain ⟨hfirst, hlast, hbounds⟩ := sortedStarts_bounds hstarts
  have hgaps := internalMinuteCandleGaps_eq hstarts hminutes hrequested hinside
  have hranges := contiguousCandleRanges_eq hstarts hminutes
  refine ⟨first, hfirst, _, hlast, hbounds, _, hgaps, ?_, ?_⟩
  · intro stop hstop
    rw [hranges, hstop, eq_minuteAfter hstop]
    exact ⟨_, rfl, partition_of_runs hstarts (sortedStarts_minutes hstarts hminutes)⟩
  · intro error herror
    rw [hranges, herror]
    rfl

/-- The minutes of the first hour of the calendar. -/
def firstHour (n : ℕ) : UtcTime where
  microseconds := n % 60 * 60000000
  in_calendar := by
    have := Nat.mod_lt n (show 60 > 0 by decide)
    unfold maxOrdinal dayMicroseconds
    omega

/-- Starts of candles in five minutes, one of them twice. -/
def fiveStarts : List UtcTime :=
  [firstHour 6, firstHour 1, firstHour 2, firstHour 1, firstHour 4]

theorem pageEvidence_partition_fiveStarts :
    ∃ ranges gaps, contiguousCandleRanges fiveStarts "1m" = .ok ranges ∧
      internalMinuteCandleGaps (firstHour 0) (firstHour 10) fiveStarts = .ok gaps ∧
      PagePartition fiveStarts (firstHour 1) (firstHour 7) ranges gaps := by
  obtain ⟨first, hfirst, last, hlast, hbounds, gaps, hgaps, hranges, -⟩ :=
    pageEvidence_partition (firstHour 0) (firstHour 10) (by decide) fiveStarts
      (by decide) (by decide) (by decide)
  have hall : ∀ t ∈ fiveStarts, firstHour 1 ≤ t ∧ t ≤ firstHour 6 := by
    decide
  have hfrom : first = firstHour 1 := le_antisymm (hbounds _ (by decide)).1 (hall first hfirst).1
  have hto : last = firstHour 6 := le_antisymm (hall last hlast).2 (hbounds _ (by decide)).2
  subst hfrom hto
  have hstop : (firstHour 6).addTimedelta (minutes 1) = .ok (firstHour 7) := by
    rw [UtcTime.addTimedelta_eq_ok]
    decide
  obtain ⟨ranges, hok, hpartition⟩ := hranges (firstHour 7) hstop
  exact ⟨ranges, gaps, hok, hgaps, hpartition⟩

/-- The last minute of the calendar. -/
def lastMinute : UtcTime := ⟨maxOrdinal * dayMicroseconds - 60000000, by decide⟩

/-- The last time of the calendar. -/
def lastTime : UtcTime := ⟨maxOrdinal * dayMicroseconds - 1, by decide⟩

/-- A page with a candle in the last minute of the calendar gives no ranges. -/
theorem contiguousCandleRanges_lastMinute : lastMinute < lastTime ∧
      (∀ t ∈ [lastMinute], (lastMinute ≤ t ∧ t < lastTime) ∧ WholeMinute t) ∧
      contiguousCandleRanges [lastMinute] "1m" =
        .error (.overflowError "date value out of range") := by
  refine ⟨by decide, by decide, ?_⟩
  rfl

end Goodmoneying.Analysis.PageEvidence
