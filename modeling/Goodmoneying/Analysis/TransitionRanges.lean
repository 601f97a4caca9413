import Goodmoneying.Analysis.RollupBuckets
import Goodmoneying.Program.TransitionRecomputation

/-!
# The ranges that a coverage transition invalidates

`rollup_bucket_end` finds the end of a cell of the grid of its unit (`rollupBucketEnd_eq_ok`), so
the two loops go through all cells between two of them (`rangesFrom_covers`). A cell in which a
source candle starts is shorter than 32 days, so cutting the transition to 32 days around the source
candles takes none of the cell away (`transition_covers_bucket`).
-/

namespace Goodmoneying.Analysis

open List Library
open Program
open Program.Aggregation

variable {s e : UtcTime} {unit : String} {grid : Grid} {ranges : List RollupInvalidationRange}
  {revisions : List SourceCandleRevision} {bounds : RevisionBounds}
variable {startAt endAt t : UtcTime} {units : List String} {revision : SourceCandleRevision}
  {candleUnit : String}

/-- The grids of the derived units: every unit but the minute. -/
def derivedGrids : List (String × Grid) := rollupGrids.tail

/-- A month ends where the next one starts. -/
theorem monthEnd_eq_ok (hs : cellStart calendarMonthGrid s = s) :
    rollupBucketEnd "1M" s = .ok e ↔ e.microseconds = calendarMonthGrid.next s.microseconds := by
  have hat : dayMicroseconds * monthStart s.day = s.microseconds := congrArg UtcTime.microseconds hs
  have hday : s.day = monthStart s.day := by
    conv_lhs => rw [UtcTime.day, ← hat]
    exact Nat.mul_div_cancel_left _ (by decide)
  have hfirst : s.dayOfMonth = 0 := by
    unfold UtcTime.dayOfMonth
    omega
  have hrest : s.microseconds % dayMicroseconds = 0 := by
    rw [← hat]
    exact Nat.mul_mod_right _ _
  have hnext : calendarMonthGrid.next s.microseconds =
      dayMicroseconds * (monthStart s.day + daysInMonth (yearOf s.day) (monthOfDay s.day)) := by
    show dayMicroseconds * (s.day + daysInMonth (yearOf s.day) (monthOfDay s.day)) = _
    rw [← hday]
  obtain ⟨hone, hlast, -⟩ := daysBeforeMonth_monthOfDay s.day
  have hyear := (daysBeforeYear_yearOf s.day).1
  -- the first of the next month
  have hreplace : ∀ {year month}, 1 ≤ year → 1 ≤ month ∧ month ≤ 12 →
      daysBeforeYear year + daysBeforeMonth year month =
        monthStart s.day + daysInMonth (yearOf s.day) (monthOfDay s.day) →
      (s.replace year month = .ok e ↔
        e.microseconds = calendarMonthGrid.next s.microseconds) := by
    intro year month hyear hmonth heq
    have hpos := daysInMonth_pos year month
    rw [UtcTime.replace_eq_ok, hfirst, hrest, hnext, ← heq, mul_comm dayMicroseconds,
      Nat.add_zero, Nat.add_zero]
    constructor
    · rintro ⟨-, -, -, hat⟩
      exact hat
    · intro hat
      have hbound := e.in_calendar
      rw [hat] at hbound
      have hdays := Nat.lt_of_mul_lt_mul_right hbound
      have hlast : year ≤ 9999 := by
        by_contra hlate
        have hend : daysBeforeYear 10000 ≤ daysBeforeYear year := daysBeforeYear_mono (by omega)
        have hmax : daysBeforeYear 10000 = maxOrdinal := by decide
        omega
      exact ⟨⟨hyear, hlast⟩, hmonth, hpos, hat⟩
  unfold rollupBucketEnd
  rw [if_pos rfl]
  split_ifs with hdecember
  · apply hreplace (Nat.le_add_left 1 _) (by decide)
    have hfirst' : daysBeforeMonth (yearOf s.day + 1) 1 = 0 := rfl
    have hyearEnd : daysBeforeMonth (yearOf s.day) 13 =
        daysBeforeMonth (yearOf s.day) 12 + daysInMonth (yearOf s.day) 12 := rfl
    rw [daysBeforeYear_succ hyear, hfirst', hyearEnd, monthStart, hdecember]
    omega
  · apply hreplace hyear (by omega)
    rw [daysBeforeMonth_succ _ hone, monthStart, Nat.add_assoc]

theorem fixedEnd_eq_ok {length : ℕ} {hpos : 0 < length} (hmonth : unit ≠ "1M")
    (hlength : durations.lookup unit = some (length : ℤ)) : rollupBucketEnd unit s = .ok e ↔
      e.microseconds = (Grid.fixed length hpos).next s.microseconds := by
  unfold rollupBucketEnd
  rw [if_neg hmonth, hlength, Grid.fixed_next]
  show s.addTimedelta (length : ℤ) = .ok e ↔ _
  rw [UtcTime.addTimedelta_eq_ok]
  exact_mod_cast Iff.rfl

/-- The cells of a unit have one length, of at most a week, or they are the months. -/
theorem derivedGrids_length (hunit : (unit, grid) ∈ derivedGrids) :
    (unit ≠ "1M" ∧ ∃ (length : ℕ) (hpos : 0 < length), durations.lookup unit = some (length : ℤ) ∧
      length ≤ 7 * dayMicroseconds ∧ grid = .fixed length hpos) ∨
    unit = "1M" ∧ grid = calendarMonthGrid := by
  simp only [derivedGrids, rollupGrids, tail_cons, mem_cons, Prod.mk.injEq,
    not_mem_nil, or_false] at hunit
  rcases hunit with ⟨rfl, rfl⟩ | ⟨rfl, rfl⟩ | ⟨rfl, rfl⟩ | ⟨rfl, rfl⟩ | ⟨rfl, rfl⟩ | ⟨rfl, rfl⟩ |
    ⟨rfl, rfl⟩ | ⟨rfl, rfl⟩ | ⟨rfl, rfl⟩ | ⟨rfl, rfl⟩
  case inr.inr.inr.inr.inr.inr.inr.inr.inr => exact Or.inr ⟨rfl, rfl⟩
  all_goals exact Or.inl ⟨by decide, _, _, by decide, by decide, rfl⟩

/-- `rollup_bucket_end` finds the end of a cell, if it lies within the calendar. -/
theorem rollupBucketEnd_eq_ok (hunit : (unit, grid) ∈ derivedGrids) (hs : cellStart grid s = s) :
    rollupBucketEnd unit s = .ok e ↔ e.microseconds = grid.next s.microseconds := by
  obtain ⟨hmonth, length, hpos, hlength, -, rfl⟩ | ⟨rfl, rfl⟩ := derivedGrids_length hunit
  · exact fixedEnd_eq_ok hmonth hlength
  · exact monthEnd_eq_ok hs

section Loops

variable {unit : String} {grid : Grid} {last : UtcTime}
variable {current : UtcTime}

/-- The inner loop goes from the start of a cell to the start of a cell. -/
theorem cellStart_of_advance (hunit : (unit, grid) ∈ derivedGrids) {room count total : ℕ}
    {stop : UtcTime} (hcell : cellStart grid current = current)
    (h : advance unit last room current count = .ok (stop, total)) :
    cellStart grid stop = stop := by
  induction room generalizing current count with
  | zero =>
    obtain rfl := congrArg Prod.fst (Except.ok.inj h)
    exact hcell
  | succ room ih =>
    rw [advance] at h
    split_ifs at h
    · obtain ⟨next, hnext, h⟩ := bind_eq_ok.mp h
      refine ih ?_ h
      have hat := (rollupBucketEnd_eq_ok hunit hcell).mp hnext
      ext
      rw [← hcell] at hat
      show grid.start next.microseconds = next.microseconds
      rw [hat]
      exact grid.start_next current.microseconds
    · obtain rfl := congrArg Prod.fst (Except.ok.inj h)
      exact hcell

/-- The inner loop succeeds, if the last cell ends within the calendar. -/
theorem advance_isOk (hunit : (unit, grid) ∈ derivedGrids) (hlast : cellStart grid last = last)
    (hroom : grid.next last.microseconds < maxOrdinal * dayMicroseconds) (room count : ℕ)
    (hcell : cellStart grid current = current) :
    ∃ result, advance unit last room current count = .ok result := by
  induction room generalizing current count with
  | zero => exact ⟨_, rfl⟩
  | succ room ih =>
    rw [advance]
    split_ifs with hle
    · have hcurrent : grid.start current.microseconds = current.microseconds :=
        congrArg UtcTime.microseconds hcell
      have hend : grid.next current.microseconds ≤ grid.next last.microseconds := by
        rcases hle.eq_or_lt with rfl | hlt
        · exact le_refl _
        · have hafter := grid.start_lt_next last.microseconds
          have hlast' : grid.start last.microseconds = last.microseconds :=
            congrArg UtcTime.microseconds hlast
          have hstep := next_le_of_lt hcell hlast hlt
          rw [hlast'] at hafter
          omega
      have hnext : rollupBucketEnd unit current =
          .ok ⟨grid.next current.microseconds, hend.trans_lt hroom⟩ :=
        (rollupBucketEnd_eq_ok hunit hcell).mpr rfl
      rw [hnext, ok_bind]
      apply ih
      ext
      show grid.start (grid.next current.microseconds) = grid.next current.microseconds
      rw [← hcurrent]
      exact grid.start_next _
    · exact ⟨_, rfl⟩

/-- The ranges hold every cell between the two. -/
theorem rangesFrom_covers (hunit : (unit, grid) ∈ derivedGrids)
    (hcell : cellStart grid current = current) (h : rangesFrom unit last current = .ok ranges)
    {bucket : UtcTime} (hbucket : cellStart grid bucket = bucket) (hfrom : current ≤ bucket)
    (hto : bucket ≤ last) : ∃ range ∈ ranges, range.unit = unit ∧ range.startAt ≤ bucket ∧
      grid.next bucket.microseconds ≤ range.endAt.microseconds := by
  induction current using rangesFrom.induct unit last generalizing ranges with
  | case1 current hle e hround =>
    rw [rangesFrom_eq, if_pos hle, hround] at h
    cases h
  | case2 current hle stop count hround ih =>
    rw [rangesFrom_eq, if_pos hle, hround, ok_bind] at h
    obtain ⟨rest, hrest, h⟩ := bind_eq_ok.mp h
    obtain rfl := pure_eq_ok.mp h
    have hstop := cellStart_of_advance hunit hcell hround
    rcases lt_or_ge bucket stop with hbefore | hafter
    · exact ⟨_, mem_cons_self, rfl, hfrom, next_le_of_lt hbucket hstop hbefore⟩
    · obtain ⟨range, hrange, hin⟩ := ih hstop hrest hafter
      exact ⟨range, mem_cons_of_mem _ hrange, hin⟩
  | case3 current hlt => exact absurd (hfrom.trans hto) hlt

theorem rangesFrom_isOk (hunit : (unit, grid) ∈ derivedGrids) (hlast : cellStart grid last = last)
    (hroom : grid.next last.microseconds < maxOrdinal * dayMicroseconds)
    (hcell : cellStart grid current = current) :
    ∃ ranges, rangesFrom unit last current = .ok ranges := by
  induction current using rangesFrom.induct unit last with
  | case1 current hle e hround =>
    obtain ⟨result, hresult⟩ := advance_isOk hunit hlast hroom maxOutputBucketsPerJob 0 hcell
    rw [hround] at hresult
    cases hresult
  | case2 current hle stop count hround ih =>
    obtain ⟨rest, hrest⟩ := ih (cellStart_of_advance hunit hcell hround)
    exact ⟨_, by rw [rangesFrom_eq, if_pos hle, hround, ok_bind, hrest]; rfl⟩
  | case3 current hlt => exact ⟨[], by rw [rangesFrom_eq, if_neg hlt]⟩

end Loops

theorem derivedGrids_subset (h : (unit, grid) ∈ derivedGrids) :
    (unit, grid) ∈ rollupGrids := mem_of_mem_tail h

/-- The ranges of an interval hold every bucket with an instant of the interval. -/
theorem affectedRanges_cover (h : affectedRollupRangesForInterval startAt endAt units = .ok ranges)
    (hmem : unit ∈ units) (hunit : (unit, grid) ∈ derivedGrids) (hfrom : startAt ≤ t)
    (hto : t < endAt) : ∃ range ∈ ranges, range.unit = unit ∧ range.startAt ≤ cellStart grid t ∧
      grid.next (cellStart grid t).microseconds ≤ range.endAt.microseconds := by
  have hstart := rollupBucketStart_eq (derivedGrids_subset hunit)
  rw [affectedRollupRangesForInterval, if_neg (not_le.mpr (hfrom.trans_lt hto))] at h
  obtain ⟨lastInstant, hlast, h⟩ := bind_eq_ok.mp h
  obtain ⟨results, hresults, h⟩ := bind_eq_ok.mp h
  obtain rfl := pure_eq_ok.mp h
  obtain ⟨result, hresult, hround⟩ := (mem_of_mapM_eq_ok hresults).2 unit hmem
  rw [hstart, hstart, ok_bind, ok_bind] at hround
  have hle : t ≤ lastInstant := by
    have := UtcTime.addTimedelta_eq_ok.mp hlast
    rw [UtcTime.lt_def] at hto
    rw [UtcTime.le_def]
    omega
  obtain ⟨range, hrange, hin⟩ := rangesFrom_covers hunit (cellStart_cellStart grid startAt) hround
    (cellStart_cellStart grid t) (cellStart_mono grid hfrom) (cellStart_mono grid hle)
  exact ⟨range, mem_flatten.mpr ⟨result, hresult, hrange⟩, hin⟩

/-- No month is longer than 31 days. -/
theorem calendarMonth_next_le (t : ℕ) : calendarMonthGrid.next (calendarMonthGrid.start t) ≤
    calendarMonthGrid.start t + 31 * dayMicroseconds := by
  show dayMicroseconds * (calendarMonthGrid.start t / dayMicroseconds + daysInMonth _ _) ≤ _
  have hfirst : dayMicroseconds * (calendarMonthGrid.start t / dayMicroseconds) ≤
      calendarMonthGrid.start t := Nat.mul_div_le _ _
  have hdays := Nat.mul_le_mul_left dayMicroseconds (daysInMonth_le
    (yearOf (calendarMonthGrid.start t / dayMicroseconds))
    (monthOfDay (calendarMonthGrid.start t / dayMicroseconds)))
  rw [Nat.mul_add, mul_comm 31]
  exact Nat.add_le_add hfirst hdays

/-- No cell is longer than 31 days. -/
theorem next_le_add_month (hunit : (unit, grid) ∈ derivedGrids) (t : ℕ) :
    grid.next (grid.start t) ≤ grid.start t + 31 * dayMicroseconds := by
  obtain ⟨-, length, hpos, -, hlength, rfl⟩ | ⟨-, rfl⟩ := derivedGrids_length hunit
  · rw [Grid.fixed_next]
    omega
  · exact calendarMonth_next_le t

/-- The ranges of an interval are returned, if a month fits behind it. -/
theorem affectedRanges_isOk (hunits : ∀ unit ∈ units, ∃ grid, (unit, grid) ∈ derivedGrids)
    (hroom : endAt.microseconds + 31 * dayMicroseconds < maxOrdinal * dayMicroseconds) :
    ∃ ranges, affectedRollupRangesForInterval startAt endAt units = .ok ranges := by
  unfold affectedRollupRangesForInterval
  split_ifs with hempty
  · exact ⟨[], rfl⟩
  · have hpos := UtcTime.lt_def.mp (not_le.mp hempty)
    have hlast := UtcTime.addTimedelta_neg_one (pos_of_gt hpos)
    have hloop : ∃ results, units.mapM (fun unit => do
        let current ← rollupBucketStart unit startAt
        let last ← rollupBucketStart unit ⟨endAt.microseconds - 1, by
          have := endAt.in_calendar
          omega⟩
        rangesFrom unit last current) = .ok results := by
      rw [mapM_isOk_iff]
      intro unit hmem
      obtain ⟨grid, hunit⟩ := hunits unit hmem
      have hstart := rollupBucketStart_eq (derivedGrids_subset hunit)
      rw [hstart, hstart, ok_bind, ok_bind]
      apply rangesFrom_isOk hunit (cellStart_cellStart grid _) _ (cellStart_cellStart grid _)
      have hlength := next_le_add_month hunit (endAt.microseconds - 1)
      have hle := grid.start_le (endAt.microseconds - 1)
      show grid.next (grid.start (endAt.microseconds - 1)) < _
      omega
    obtain ⟨results, hresults⟩ := hloop
    exact ⟨results.flatten, by rw [hlast, ok_bind, hresults]; rfl⟩

theorem revisionBounds_spec (h : revisionBounds revisions = some bounds)
    (hrevision : revision ∈ revisions) :
    bounds.firstAt ≤ revision.candleStartAt ∧ revision.candleStartAt ≤ bounds.lastAt := by
  obtain ⟨firstAt, hfirst, h⟩ := Option.bind_eq_some_iff.mp h
  obtain ⟨lastAt, hlast, h⟩ := Option.bind_eq_some_iff.mp h
  obtain ⟨throughId, -, h⟩ := Option.bind_eq_some_iff.mp h
  obtain rfl := Option.some.inj h
  have hmem := mem_map_of_mem (f := SourceCandleRevision.candleStartAt) hrevision
  exact ⟨(List.min?_eq_some_iff.mp hfirst).2 _ hmem, (List.max?_eq_some_iff.mp hlast).2 _ hmem⟩

/-- The bounds are themselves starts of source candles. -/
theorem revisionBounds_mem (h : revisionBounds revisions = some bounds) :
    (∃ revision ∈ revisions, revision.candleStartAt = bounds.firstAt) ∧
      ∃ revision ∈ revisions, revision.candleStartAt = bounds.lastAt := by
  obtain ⟨firstAt, hfirst, h⟩ := Option.bind_eq_some_iff.mp h
  obtain ⟨lastAt, hlast, h⟩ := Option.bind_eq_some_iff.mp h
  obtain ⟨throughId, -, h⟩ := Option.bind_eq_some_iff.mp h
  obtain rfl := Option.some.inj h
  exact ⟨mem_map.mp (List.min?_eq_some_iff.mp hfirst).1,
    mem_map.mp (List.max?_eq_some_iff.mp hlast).1⟩

theorem revisionBounds_ne_none (h : revision ∈ revisions) : revisionBounds revisions ≠ none := by
  have hne : revisions ≠ [] := ne_nil_of_mem h
  intro hnone
  have hcases : ∀ {α : Type} [LinearOrder α] (f : SourceCandleRevision → α),
      (revisions.map f).min? ≠ none ∧ (revisions.map f).max? ≠ none := by
    intro α _ f
    simp [List.min?_eq_none_iff, List.max?_eq_none_iff, hne]
  unfold revisionBounds at hnone
  obtain ⟨first, hfirst⟩ := Option.ne_none_iff_exists'.mp
    (hcases SourceCandleRevision.candleStartAt).1
  obtain ⟨last, hlast⟩ := Option.ne_none_iff_exists'.mp
    (hcases SourceCandleRevision.candleStartAt).2
  obtain ⟨through, hthrough⟩ := Option.ne_none_iff_exists'.mp (hcases SourceCandleRevision.id).2
  rw [hfirst, hlast, hthrough] at hnone
  cases hnone

/-- Cutting the transition to 32 days around the source candles takes no instant away from a
bucket in which a source candle starts. -/
theorem affectedRanges_cover_bucket {eventStartAt eventEndAt : UtcTime}
    (h : affectedRanges bounds candleUnit eventStartAt eventEndAt = .ok ranges)
    (hmem : unit ∈ affectedUnits candleUnit) (hunit : (unit, grid) ∈ derivedGrids)
    {source : UtcTime} (hfrom : eventStartAt ≤ t) (hto : t < eventEndAt)
    (hfirst : bounds.firstAt ≤ source) (hlast : source ≤ bounds.lastAt)
    (hcell : cellStart grid source = cellStart grid t) :
    ∃ range ∈ ranges, range.unit = unit ∧ range.startAt ≤ cellStart grid t ∧
      grid.next (cellStart grid t).microseconds ≤ range.endAt.microseconds := by
  obtain ⟨earliest, hearliest, h⟩ := bind_eq_ok.mp h
  obtain ⟨latest, hlatest, h⟩ := bind_eq_ok.mp h
  rw [UtcTime.addTimedelta_eq_ok] at hearliest hlatest
  obtain ⟨hsource_from, hsource_to⟩ := cellStart_eq_iff.mp hcell
  have hlength := next_le_add_month hunit t.microseconds
  have ht_from := grid.start_le t.microseconds
  have ht_to := grid.lt_next t.microseconds
  rw [UtcTime.le_def] at hsource_from hfirst hlast
  simp only [cellStart] at hsource_from hsource_to
  unfold days at hearliest hlatest
  apply affectedRanges_cover h hmem hunit
  · apply max_le hfrom
    rw [UtcTime.le_def]
    omega
  · apply lt_min hto
    rw [UtcTime.lt_def]
    omega

theorem exists_derivedGrid :
    ∀ unit ∈ affectedUnits candleUnit, ∃ grid, (unit, grid) ∈ derivedGrids := by
  have hgrids : ∀ unit ∈ materializedAggregationUnits, ∃ grid, (unit, grid) ∈ derivedGrids := by
    simp [materializedAggregationUnits, aggregationUnits, derivedGrids, rollupGrids]
  have hdaily : ∀ unit ∈ ["1d", "1w", "1M"], unit ∈ materializedAggregationUnits := by decide
  intro unit hunit
  unfold affectedUnits at hunit
  split_ifs at hunit
  · exact hgrids unit (hdaily unit hunit)
  · exact hgrids unit hunit

/-- The cut ends within the calendar, if there is room for it. -/
theorem affectedRanges_isOk' (candleUnit : String) (eventStartAt eventEndAt : UtcTime)
    (hfirst : 32 * dayMicroseconds ≤ bounds.firstAt.microseconds)
    (hlast : bounds.lastAt.microseconds + 63 * dayMicroseconds < maxOrdinal * dayMicroseconds) :
    ∃ ranges, affectedRanges bounds candleUnit eventStartAt eventEndAt = .ok ranges := by
  have hearliest : bounds.firstAt.addTimedelta (days (-32)) =
      .ok ⟨bounds.firstAt.microseconds - 32 * dayMicroseconds,
        (Nat.sub_le _ _).trans_lt bounds.firstAt.in_calendar⟩ := by
    rw [UtcTime.addTimedelta_eq_ok]
    unfold days
    push_cast [Nat.cast_sub hfirst]
    ring
  have hlatest : bounds.lastAt.addTimedelta (days 32) =
      .ok ⟨bounds.lastAt.microseconds + 32 * dayMicroseconds, by omega⟩ := by
    rw [UtcTime.addTimedelta_eq_ok]
    unfold days
    push_cast
    ring
  rw [affectedRanges, hearliest, hlatest, ok_bind, ok_bind]
  apply affectedRanges_isOk exists_derivedGrid
  have hle : (min eventEndAt (⟨bounds.lastAt.microseconds + 32 * dayMicroseconds, by omega⟩ :
      UtcTime)).microseconds ≤ bounds.lastAt.microseconds + 32 * dayMicroseconds :=
    UtcTime.le_def.mp (min_le_right _ _)
  omega

/-- The calendar has room around the source candles of an instrument. -/
def HasRoom (table : List SourceCandleRevision) (instrumentId : ℤ) : Prop :=
  ∀ revision ∈ table, revision.instrumentId = instrumentId →
    32 * dayMicroseconds ≤ revision.candleStartAt.microseconds ∧
    revision.candleStartAt.microseconds + 63 * dayMicroseconds < maxOrdinal * dayMicroseconds

/-- A recomputation returns, if the calendar has room for it. -/
theorem enqueue_isOk (sha256 : String → String) {context : Option TargetContext}
    {table : List SourceCandleRevision}
    (hroom : ∀ target ∈ context, ∀ instrumentId ∈ target.instrumentId, HasRoom table instrumentId)
    (coverage : List CoverageRow) (qualityEventId : ℤ)
    (eventStartAt eventEndAt knowledgeAt : UtcTime) :
    ∃ result, enqueueQualityTransitionRecomputation sha256 context table coverage
      qualityEventId eventStartAt eventEndAt knowledgeAt = .ok result := by
  unfold enqueueQualityTransitionRecomputation
  split
  · exact ⟨_, rfl⟩
  · split
    case h_2 => exact ⟨_, rfl⟩
    case h_1 target _ _ candleUnit instrumentId _ hinstrument =>
      have hinside := hroom target rfl instrumentId hinstrument
      by_cases hskip : target.dataType ≠ "source_candle" ∨ candleUnit ∉ ["1m", "1d"]
      · exact ⟨_, if_pos hskip⟩
      · rw [if_neg hskip]
        dsimp only
        cases hbounds : revisionBounds (table.filter fun revision =>
            revision.instrumentId = instrumentId) with
        | none => exact ⟨_, rfl⟩
        | some bounds =>
          obtain ⟨⟨first, hfirst, hfirst_eq⟩, ⟨last, hlast, hlast_eq⟩⟩ := revisionBounds_mem hbounds
          have hfirst_room := hinside first (mem_of_mem_filter hfirst)
            (of_decide_eq_true (mem_filter.mp hfirst).2)
          have hlast_room := hinside last (mem_of_mem_filter hlast)
            (of_decide_eq_true (mem_filter.mp hlast).2)
          rw [hfirst_eq] at hfirst_room
          rw [hlast_eq] at hlast_room
          obtain ⟨ranges, hranges⟩ := affectedRanges_isOk' candleUnit eventStartAt eventEndAt
            hfirst_room.1 hlast_room.2
          exact ⟨_, by dsimp only; rw [hranges]; rfl⟩

/-- A target of minutes, for the runs below. -/
def minuteTarget : TargetContext where
  marketId := 1
  dataType := "source_candle"
  candleUnit := some "1m"
  instrumentId := some 1

end Goodmoneying.Analysis
