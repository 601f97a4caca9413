import Goodmoneying.Analysis.TransitionRanges

/-!
# Buckets tile time

`_bucket_end` of `aggregation.py` and `_next_bucket` of `versioned_indicators.py` compute the end of
a bucket with code of their own; they agree with `rollup_bucket_end` at every time (`bucketEnd_eq`,
`nextBucket_eq`). Both ends of a bucket are those of the cell of a grid, so the buckets of a unit
follow each other without gap or overlap (`buckets_tile_time`).
-/

namespace Goodmoneying.Analysis.BucketTiling

open Library
open Program
open Program.Aggregation
open Goodmoneying.Program.VersionedIndicators (minutes nextBucket)

variable {unit : String} {grid : Grid}

/-- `_bucket_end` computes what `rollup_bucket_end` does. -/
theorem bucketEnd_eq (hunit : unit ∈ materializedAggregationUnits) (s : UtcTime) :
    bucketEnd s unit = rollupBucketEnd unit s := by
  have hall : ∀ unit ∈ materializedAggregationUnits,
      bucketEnd s unit = rollupBucketEnd unit s := by
    simp [materializedAggregationUnits, aggregationUnits, bucketEnd, rollupBucketEnd,
      bucketEndMinutes, durations, List.lookup_cons]
  exact hall unit hunit

/-- `_next_bucket` adds its duration to the time. -/
theorem nextBucket_of_lookup {duration : ℤ} (hmonth : unit ≠ "1M")
    (hduration : VersionedIndicators.durations.lookup unit = some duration) (s : UtcTime) :
    nextBucket s.datetime unit = UtcTime.datetime <$> s.addTimedelta duration := by
  rw [nextBucket, if_neg hmonth, hduration]
  exact s.datetime_addTimedelta duration

/-- `_next_bucket` computes what `rollup_bucket_end` does. -/
theorem nextBucket_eq (hunit : unit ∈ materializedAggregationUnits) (s : UtcTime) :
    nextBucket s.datetime unit = UtcTime.datetime <$> rollupBucketEnd unit s := by
  by_cases hmonth : unit = "1M"
  · have hdate : s.datetime.date.year = yearOf s.day ∧ s.datetime.date.month = monthOfDay s.day :=
      ⟨rfl, rfl⟩
    rw [nextBucket, rollupBucketEnd, if_pos hmonth, if_pos hmonth, hdate.1, hdate.2]
    split_ifs with hdecember
    · exact s.datetime_replace _ _
    · exact s.datetime_replace _ _
  · have hdurations : ∀ unit ∈ materializedAggregationUnits, unit ≠ "1M" →
        ∃ duration, durations.lookup unit = some duration ∧
          VersionedIndicators.durations.lookup unit = some duration := by
      decide
    obtain ⟨duration, hduration, hsame⟩ := hdurations unit hunit hmonth
    rw [nextBucket_of_lookup hmonth hsame, rollupBucketEnd, if_neg hmonth, hduration]

/-- The units are the minute and those that `rollup_bucket_end` knows. -/
theorem rollupGrids_cases (hunit : (unit, grid) ∈ rollupGrids) : unit = "1m" ∧ grid = minuteGrid 0 ∨
      (unit, grid) ∈ derivedGrids ∧ unit ∈ materializedAggregationUnits := by
  have hall : ∀ entry ∈ rollupGrids, entry.1 = "1m" ∧ entry.2 = minuteGrid 0 ∨
      entry ∈ derivedGrids ∧ entry.1 ∈ materializedAggregationUnits := by
    simp [rollupGrids, derivedGrids, materializedAggregationUnits, aggregationUnits]
  exact hall _ hunit

/-- `_next_bucket` finds the end of a cell of every unit, if it lies within the calendar. -/
theorem nextBucket_cell (hunit : (unit, grid) ∈ rollupGrids) {s e : UtcTime}
    (hs : cellStart grid s = s) (he : e.microseconds = grid.next s.microseconds) :
    nextBucket s.datetime unit = .ok e.datetime := by
  rcases rollupGrids_cases hunit with ⟨rfl, rfl⟩ | ⟨hderived, hmaterialized⟩
  · have hlookup : VersionedIndicators.durations.lookup "1m" = some (minutes 1) := by decide
    have hadd : s.addTimedelta (minutes 1) = .ok e := by
      rw [UtcTime.addTimedelta_eq_ok, he]
      exact Nat.cast_add s.microseconds 60000000
    rw [nextBucket_of_lookup (by decide) hlookup, hadd]
    rfl
  · rw [nextBucket_eq hmaterialized, (rollupBucketEnd_eq_ok hderived hs).mpr he]
    rfl

/-- The interval from `start` to `stop` is the bucket of `t`: it contains `t`, every time in it has
this start, and where it stops the next bucket starts. -/
structure IsBucket (unit : String) (t start stop : UtcTime) : Prop where
  start_of : rollupBucketStart unit t = .ok start
  start_le : start ≤ t
  lt_stop : t < stop
  start_start : rollupBucketStart unit start = .ok start
  start_within : ∀ u, start ≤ u → u < stop → rollupBucketStart unit u = .ok start
  start_stop : rollupBucketStart unit stop = .ok stop

/-- The cell of a time is its bucket. -/
theorem isBucket_cell (hunit : (unit, grid) ∈ rollupGrids) {t stop : UtcTime}
    (hstop : stop.microseconds = grid.next (grid.start t.microseconds)) :
    IsBucket unit t (cellStart grid t) stop where
  start_of := rollupBucketStart_eq hunit t
  start_le := grid.start_le _
  lt_stop := by
    rw [UtcTime.lt_def, hstop]
    exact grid.lt_next _
  start_start := by rw [rollupBucketStart_eq hunit, cellStart_cellStart]
  start_within u hfrom hto := by
    rw [rollupBucketStart_eq hunit]
    congr 1
    apply cellStart_eq_iff.mpr ⟨hfrom, ?_⟩
    rw [UtcTime.lt_def, hstop] at hto
    exact hto
  start_stop := by
    rw [rollupBucketStart_eq hunit]
    congr 1
    ext
    simp only [cellStart, hstop]
    exact grid.start_next _

/-- A bucket that holds a time of the years up to 9998 ends within the calendar. -/
theorem next_in_calendar (hunit : (unit, grid) ∈ rollupGrids) {t : UtcTime}
    (hyear : yearOf t.day ≤ 9998) :
    grid.next (grid.start t.microseconds) < maxOrdinal * dayMicroseconds := by
  have hday : t.day < daysBeforeYear 9999 :=
    (daysBeforeYear_yearOf t.day).2.2.trans_le (daysBeforeYear_mono (Nat.succ_le_succ hyear))
  have hbefore : t.microseconds < daysBeforeYear 9999 * dayMicroseconds :=
    (Nat.div_lt_iff_lt_mul (by decide)).mp hday
  have hlast : daysBeforeYear 9999 + 365 = maxOrdinal := by decide
  have hle := grid.start_le t.microseconds
  have hlength : grid.next (grid.start t.microseconds) ≤
      grid.start t.microseconds + 31 * dayMicroseconds := by
    rcases rollupGrids_cases hunit with ⟨-, rfl⟩ | ⟨hderived, -⟩
    · exact Nat.add_le_add_left (by decide) _
    · exact next_le_add_month hderived t.microseconds
  unfold dayMicroseconds at *
  omega

theorem exists_rollupGrid_of_mem (hunit : unit ∈ aggregationUnits) :
    ∃ grid, (unit, grid) ∈ rollupGrids := by
  have hkeys : rollupGrids.map Prod.fst = aggregationUnits := rfl
  rw [← hkeys] at hunit
  simpa using hunit

/-- Buckets tile time. Every time of the years 1 to 9998 has a bucket of every unit, which ends
where `_next_bucket` says, and, for every unit but the minute, where `rollup_bucket_end` and
`_bucket_end` say. The three ends are the same at every time where they are defined, and the two
last ones are not defined for the minute.
SOURCE: aggregation.py:29-49, 257-267; incremental_aggregation.py:64-83;
versioned_indicators.py:328-348 -/
theorem buckets_tile_time (unit : String) (hunit : unit ∈ aggregationUnits) :
    (∀ t : UtcTime, yearOf t.day ≤ 9998 → ∃ start stop, IsBucket unit t start stop ∧
      nextBucket start.datetime unit = .ok stop.datetime ∧
      (unit ≠ "1m" → rollupBucketEnd unit start = .ok stop ∧ bucketEnd start unit = .ok stop)) ∧
    (unit ≠ "1m" → ∀ s : UtcTime, bucketEnd s unit = rollupBucketEnd unit s ∧
      nextBucket s.datetime unit = UtcTime.datetime <$> rollupBucketEnd unit s) ∧
    (unit = "1m" → ∀ s : UtcTime,
      rollupBucketEnd unit s = .error (.valueError ("지원하지 않는 파생 집계 단위다: " ++ unit)) ∧
        bucketEnd s unit = .error .keyError) := by
  obtain ⟨grid, hgrid⟩ := exists_rollupGrid_of_mem hunit
  have hmaterialized : unit ≠ "1m" →
      (unit, grid) ∈ derivedGrids ∧ unit ∈ materializedAggregationUnits := fun hne =>
    (rollupGrids_cases hgrid).resolve_left fun hminute => hne hminute.1
  refine ⟨fun t hyear => ?_, fun hne s => ?_, ?_⟩
  · have hcell := cellStart_cellStart grid t
    have hend : ∃ stop : UtcTime, stop.microseconds = grid.next (grid.start t.microseconds) :=
      ⟨⟨_, next_in_calendar hgrid hyear⟩, rfl⟩
    obtain ⟨stop, hstop⟩ := hend
    refine ⟨cellStart grid t, stop, isBucket_cell hgrid hstop, nextBucket_cell hgrid hcell hstop,
      fun hne => ?_⟩
    obtain ⟨hderived, hmem⟩ := hmaterialized hne
    rw [bucketEnd_eq hmem]
    have hok := (rollupBucketEnd_eq_ok hderived hcell).mpr hstop
    exact ⟨hok, hok⟩
  · obtain ⟨-, hmem⟩ := hmaterialized hne
    exact ⟨bucketEnd_eq hmem s, nextBucket_eq hmem s⟩
  · rintro rfl s
    exact ⟨rfl, rfl⟩

/-- The 29th of February 2024, a leap day. -/
def leapDay : UtcTime := ⟨738944 * dayMicroseconds, by decide⟩

theorem buckets_tile_time_leapDay :
    ∃ start stop, IsBucket "1M" leapDay start stop ∧ rollupBucketEnd "1M" start = .ok stop := by
  obtain ⟨start, stop, hbucket, -, hends⟩ :=
    (buckets_tile_time "1M" (by decide)).1 leapDay (by decide)
  exact ⟨start, stop, hbucket, (hends (by decide)).1⟩

/-- The minute is a unit of `rollup_bucket_start`, but not one of `rollup_bucket_end`. -/
theorem rollupBucketEnd_minute : "1m" ∈ aggregationUnits ∧ yearOf leapDay.day ≤ 9998 ∧
      rollupBucketStart "1m" leapDay = .ok leapDay ∧
      ¬ ∃ stop, rollupBucketEnd "1m" leapDay = .ok stop := by
  refine ⟨by decide, by decide, rfl, ?_⟩
  rintro ⟨stop, hstop⟩
  cases hstop

end Goodmoneying.Analysis.BucketTiling
