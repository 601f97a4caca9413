import Mathlib.Data.Set.Card
import Goodmoneying.Analysis.CoverageRanges
import Goodmoneying.Analysis.RollupBuckets
import Goodmoneying.Library.GridCount
import Goodmoneying.Program.ExpectedBuckets

/-!
# Expected counts are counts of buckets

Dividing by the length of a unit, from an anchor that begins a bucket, numbers the buckets of the
rollup grid, and so do the numbers of the months (`numbered_grid`). So the difference of the
ceilings counts the buckets that begin in a range, and over ranges that follow each other the
counts add up.
-/

namespace Goodmoneying.Analysis

open Library
open Program
open Program.Aggregation
open Goodmoneying.Program.VersionedIndicators (minutes)

variable {unit : String} {grid : Grid} {startAt endAt : UtcTime}

/-- The number of the month of a day. -/
def monthIndex (day : ℕ) : ℤ := yearOf day * 12 + monthOfDay day - 1

/-- The months are numbered one after the other. -/
theorem monthGrid_numbers : monthGrid.Numbers monthIndex where
  start day := by
    obtain ⟨hyear, hmonth⟩ := monthOfDay_monthStart day
    show monthIndex (monthStart day) = monthIndex day
    rw [monthIndex, monthIndex, hyear, hmonth]
  next day := by
    obtain ⟨hone, hlast, -⟩ := daysBeforeMonth_monthOfDay day
    have hyear := (daysBeforeYear_yearOf day).1
    obtain ⟨hyearStart, hmonthStart⟩ := monthOfDay_monthStart day
    show monthIndex (monthStart day +
      daysInMonth (yearOf (monthStart day)) (monthOfDay (monthStart day))) = _
    rw [hyearStart, hmonthStart]
    by_cases hdecember : monthOfDay day = 12
    · -- the day after December is the first of January
      have hat : monthStart day + daysInMonth (yearOf day) (monthOfDay day) =
          daysBeforeYear (yearOf day + 1) + daysBeforeMonth (yearOf day + 1) 1 + 0 := by
        rw [daysBeforeYear_succ hyear, monthStart, hdecember]
        have h13 : daysBeforeMonth (yearOf day) 13 = daysBeforeMonth (yearOf day) 12 +
          daysInMonth (yearOf day) 12 := rfl
        have h1 : daysBeforeMonth (yearOf day + 1) 1 = 0 := rfl
        omega
      obtain ⟨hyear', hmonth'⟩ := @monthOfDay_unique (yearOf day + 1) 1 (by omega) (by omega) 0
        (daysInMonth_pos _ _)
      rw [hat, monthIndex, monthIndex, hyear', hmonth', hdecember]
      push_cast
      ring
    · have hat : monthStart day + daysInMonth (yearOf day) (monthOfDay day) =
          daysBeforeYear (yearOf day) + daysBeforeMonth (yearOf day) (monthOfDay day + 1) + 0 := by
        rw [daysBeforeMonth_succ _ hone, monthStart]
        omega
      obtain ⟨hyear', hmonth'⟩ := @monthOfDay_unique _ (monthOfDay day + 1) hyear (by omega) 0
        (daysInMonth_pos _ _)
      rw [hat, monthIndex, monthIndex, hyear', hmonth']
      push_cast
      ring

/-- The ceiling on a grid that is anchored at the start of a cell. -/
theorem fixedGridCeiling_eq (value : UtcTime) {length : ℕ} (hpos : 0 < length) (offset : ℤ) :
    fixedGridCeiling value (offset * length) length =
      (Grid.fixed length hpos).ceiling (fun t => (t : ℤ) / length - offset) value.microseconds := by
  have hpos' : (length : ℤ) ≠ 0 := by omega
  have hquotient : ((value.microseconds : ℤ) - offset * length) / length =
      (value.microseconds : ℤ) / length - offset := by
    rw [sub_eq_add_neg, ← neg_mul, Int.add_mul_ediv_right _ _ hpos', ← sub_eq_add_neg]
  have hremainder : ((value.microseconds : ℤ) - offset * length) % length = 0 ↔
      (Grid.fixed length hpos).start value.microseconds = value.microseconds := by
    rw [Int.sub_mul_emod_self_right, Grid.fixed_start]
    have hle := Nat.mod_le value.microseconds length
    omega
  simp only [fixedGridCeiling, Grid.ceiling, hquotient, hremainder]

theorem monthGridCeiling_eq (value : UtcTime) : monthGridCeiling value =
      calendarMonthGrid.ceiling (fun t => monthIndex (t / dayMicroseconds)) value.microseconds := by
  have hfirst : value = value.firstOfMonth ↔
      calendarMonthGrid.start value.microseconds = value.microseconds := by
    rw [firstOfMonth_eq, UtcTime.ext_iff, eq_comm]
    rfl
  simp only [monthGridCeiling, Grid.ceiling, hfirst]
  rfl

theorem expectedBucketCount_of_minutes {size : ℤ} (hmonth : unit ≠ "1M") (hweek : unit ≠ "1w")
    (hsize : gridMinutes.lookup unit = some size) (startAt endAt : UtcTime) :
    expectedBucketCount startAt endAt unit = .ok (max 0
      (fixedGridCeiling endAt (midnightOf 1970 1 1) (minutes size) -
        fixedGridCeiling startAt (midnightOf 1970 1 1) (minutes size))) := by
  rw [expectedBucketCount, if_neg hmonth, if_neg hweek, hsize]

/-- Buckets of equal length are numbered from the anchor. -/
theorem numbered_fixed {anchor step offset : ℤ} {length : ℕ} (hpos : 0 < length)
    (hanchor : anchor = offset * length) (hstep : step = length) (hcount : ∀ startAt endAt :
      UtcTime, expectedBucketCount startAt endAt unit = .ok (max 0 (fixedGridCeiling endAt anchor
      step - fixedGridCeiling startAt anchor step))) :
    ∃ index, (Grid.fixed length hpos).Numbers index ∧ ∀ startAt endAt : UtcTime,
      expectedBucketCount startAt endAt unit = .ok (max 0
        ((Grid.fixed length hpos).ceiling index endAt.microseconds -
          (Grid.fixed length hpos).ceiling index startAt.microseconds)) := by
  refine ⟨_, Grid.numbers_fixed length hpos offset, fun startAt endAt => ?_⟩
  rw [hcount, hanchor, hstep, fixedGridCeiling_eq, fixedGridCeiling_eq]

/-- Cells of `n + 1` minutes that divide a day begin with the year 1970. -/
theorem numbered_minutes {n : ℕ} (hmonth : unit ≠ "1M") (hweek : unit ≠ "1w")
    (hsize : gridMinutes.lookup unit = some (n + 1 : ℤ)) (hday : n + 1 ∣ 1440) :
    ∃ index, (minuteGrid n).Numbers index ∧ ∀ startAt endAt : UtcTime,
      expectedBucketCount startAt endAt unit = .ok (max 0
        ((minuteGrid n).ceiling index endAt.microseconds -
          (minuteGrid n).ceiling index startAt.microseconds)) := by
  obtain ⟨cells, hcells⟩ := hday
  have hanchor : midnightOf 1970 1 1 = 719162 * cells * ((n + 1) * 60000000 : ℕ) := by
    have hdays : midnightOf 1970 1 1 = 719162 * (1440 * 60000000 : ℕ) := by decide +kernel
    rw [hdays, hcells]
    push_cast
    ring
  refine numbered_fixed _ hanchor ?_ (expectedBucketCount_of_minutes hmonth hweek hsize)
  simp [minutes]

/-- The expected count is a difference of numbers of cells of the grid of the unit. -/
theorem numbered_grid (h : (unit, grid) ∈ rollupGrids) :
    ∃ index, grid.Numbers index ∧ ∀ startAt endAt : UtcTime,
      expectedBucketCount startAt endAt unit = .ok (max 0
        (grid.ceiling index endAt.microseconds - grid.ceiling index startAt.microseconds)) := by
  simp only [rollupGrids, List.mem_cons, Prod.mk.injEq, List.not_mem_nil, or_false] at h
  rcases h with ⟨rfl, rfl⟩ | ⟨rfl, rfl⟩ | ⟨rfl, rfl⟩ | ⟨rfl, rfl⟩ | ⟨rfl, rfl⟩ | ⟨rfl, rfl⟩ |
    ⟨rfl, rfl⟩ | ⟨rfl, rfl⟩ | ⟨rfl, rfl⟩ | ⟨rfl, rfl⟩ | ⟨rfl, rfl⟩
  · exact numbered_minutes (by decide) (by decide) (by decide) (by decide)
  · exact numbered_minutes (by decide) (by decide) (by decide) (by decide)
  · exact numbered_minutes (by decide) (by decide) (by decide) (by decide)
  · exact numbered_minutes (by decide) (by decide) (by decide) (by decide)
  · exact numbered_minutes (by decide) (by decide) (by decide) (by decide)
  · exact numbered_minutes (by decide) (by decide) (by decide) (by decide)
  · exact numbered_minutes (by decide) (by decide) (by decide) (by decide)
  · exact numbered_minutes (by decide) (by decide) (by decide) (by decide)
  · exact @numbered_fixed "1d" (midnightOf 1970 1 1) (minutes 1440) 719162 _ _
      (by decide +kernel) (by decide)
      (expectedBucketCount_of_minutes (by decide) (by decide) (by decide))
  · exact @numbered_fixed "1w" (midnightOf 1970 1 5) (days 7) 102738 _ _ (by decide +kernel)
      (by decide) fun _ _ => rfl
  · refine ⟨_, monthGrid_numbers.scale dayMicroseconds (by decide), fun startAt endAt => ?_⟩
    rw [expectedBucketCount, if_pos rfl, monthGridCeiling_eq, monthGridCeiling_eq]

/-! ## Counts -/

/-- The bucket starts of a range. -/
def bucketsOf (unit : String) (startAt endAt : UtcTime) : Set UtcTime :=
  {b | startAt ≤ b ∧ b < endAt ∧ rollupBucketStart unit b = .ok b}

theorem image_bucketsOf (h : (unit, grid) ∈ rollupGrids) (startAt endAt : UtcTime) :
    UtcTime.microseconds '' bucketsOf unit startAt endAt =
      ((Finset.Ico startAt.microseconds endAt.microseconds).filter fun t =>
        grid.start t = t : Finset ℕ) := by
  ext t
  simp only [bucketsOf, rollupBucketStart_eq h, Except.ok.injEq, Set.mem_image,
    Set.mem_ofPred_eq, Finset.coe_filter, Finset.mem_Ico]
  constructor
  · rintro ⟨b, ⟨hfrom, hto, hcell⟩, rfl⟩
    exact ⟨⟨hfrom, hto⟩, congrArg UtcTime.microseconds hcell⟩
  · rintro ⟨⟨hfrom, hto⟩, hcell⟩
    exact ⟨⟨t, hto.trans endAt.in_calendar⟩, ⟨hfrom, hto, UtcTime.ext hcell⟩, rfl⟩

/-- The expected count of a range is the number of bucket starts in it. -/
theorem expectedBucketCount_eq_ncard (h : (unit, grid) ∈ rollupGrids) (hle : startAt ≤ endAt) :
    expectedBucketCount startAt endAt unit = .ok (bucketsOf unit startAt endAt).ncard := by
  obtain ⟨index, hnumbers, hcount⟩ := numbered_grid h
  have hinjective : Function.Injective UtcTime.microseconds := fun _ _ => UtcTime.ext
  rw [hcount, ← Set.ncard_image_of_injective _ hinjective, image_bucketsOf h,
    Set.ncard_coe_finset, ← hnumbers.card_starts hle, max_eq_right (Int.natCast_nonneg _)]

/-- The counts of two adjacent ranges add up. -/
theorem expectedBucketCount_add (h : (unit, grid) ∈ rollupGrids) {middle : UtcTime}
    (hfirst : startAt ≤ middle) (hlast : middle ≤ endAt) :
    ∃ first last, expectedBucketCount startAt middle unit = .ok first ∧
      expectedBucketCount middle endAt unit = .ok last ∧
      expectedBucketCount startAt endAt unit = .ok (first + last) := by
  obtain ⟨index, hnumbers, hcount⟩ := numbered_grid h
  have hbefore := hnumbers.card_starts hfirst
  have hafter := hnumbers.card_starts hlast
  refine ⟨_, _, hcount startAt middle, hcount middle endAt, ?_⟩
  rw [hcount]
  congr 1
  omega

theorem expectedBucketCount_self (h : (unit, grid) ∈ rollupGrids) (t : UtcTime) :
    expectedBucketCount t t unit = .ok 0 := by
  obtain ⟨index, -, hcount⟩ := numbered_grid h
  rw [hcount, sub_self]
  rfl

theorem le_of_tiles {α : Type} [LinearOrder α] {start stop : α} {pieces : List (α × α)}
    (h : Tiles start stop pieces) : start ≤ stop := by
  induction pieces generalizing start with
  | nil => exact le_of_eq h
  | cons piece pieces ih =>
    obtain ⟨rfl, hlt, hrest⟩ := h
    exact hlt.le.trans (ih hrest)

/-- The counts of ranges that follow each other add up. -/
theorem expectedBucketCount_tiles (h : (unit, grid) ∈ rollupGrids)
    {pieces : List (UtcTime × UtcTime)} (htiles : Tiles startAt endAt pieces) :
    ∃ counts, pieces.mapM (fun piece => expectedBucketCount piece.1 piece.2 unit) = .ok counts ∧
      expectedBucketCount startAt endAt unit = .ok counts.sum := by
  induction pieces generalizing startAt with
  | nil =>
    obtain rfl : startAt = endAt := htiles
    exact ⟨[], rfl, expectedBucketCount_self h startAt⟩
  | cons piece pieces ih =>
    obtain ⟨rfl, hlt, hrest⟩ := htiles
    obtain ⟨counts, hcounts, hlater⟩ := ih hrest
    obtain ⟨first, last, hfirst, hlast, hall⟩ :=
      expectedBucketCount_add h hlt.le (le_of_tiles hrest)
    rw [hlater] at hlast
    obtain rfl := Except.ok.inj hlast
    refine ⟨first :: counts, ?_, by rw [hall, List.sum_cons]⟩
    rw [List.mapM_cons, hfirst, ok_bind, hcounts]
    rfl

/-- The ends of a range of times, as instants. -/
def instantsOf (piece : UtcTime × UtcTime) : Instant × Instant :=
  (piece.1.microseconds, piece.2.microseconds)

/-- Instants that cut a range of times are themselves times. -/
theorem exists_tiles_of_instants {pieces : List (Instant × Instant)}
    (h : Tiles (startAt.microseconds : Instant) endAt.microseconds pieces) :
    ∃ times, times.map instantsOf = pieces ∧ Tiles startAt endAt times := by
  induction pieces generalizing startAt with
  | nil =>
    have heq : startAt = endAt := UtcTime.ext (Int.ofNat.inj h)
    exact ⟨[], rfl, heq⟩
  | cons piece pieces ih =>
    obtain ⟨hstart, hlt, hrest⟩ := h
    have hbegin : @Eq ℤ piece.1 startAt.microseconds := hstart
    have hbefore : @LT.lt ℤ _ piece.1 piece.2 := hlt
    have hend : @LE.le ℤ _ piece.2 endAt.microseconds := le_of_tiles hrest
    have hcalendar := endAt.in_calendar
    obtain ⟨middle, hmiddle⟩ : ∃ middle : UtcTime, @Eq ℤ middle.microseconds piece.2 := by
      refine ⟨⟨piece.2.toNat, ?_⟩, ?_⟩
      · omega
      · show (piece.2.toNat : ℤ) = piece.2
        omega
    rw [← hmiddle] at hrest
    obtain ⟨times, htimes, htiles⟩ := ih hrest
    refine ⟨(startAt, middle) :: times, ?_, rfl, ?_, htiles⟩
    · rw [List.map_cons, htimes, instantsOf, hmiddle, ← hstart]
    · rw [UtcTime.lt_def]
      dsimp only
      omega

theorem exists_rollupGrid : ∀ unit ∈ aggregationUnits, ∃ grid, (unit, grid) ∈ rollupGrids := by
  simp [aggregationUnits, rollupGrids]

/-- The expected count of a range is the number of bucket starts in it; the counts of adjacent
ranges add up, and so do those of the ranges of a projected coverage.
SOURCE: dataset_version_store.py:2055-2086; aggregation.py:29-49 -/
theorem expectedBucketCount_exact :
    ∀ unit ∈ aggregationUnits,
    (∀ startAt endAt : UtcTime, startAt ≤ endAt →
      expectedBucketCount startAt endAt unit = .ok (bucketsOf unit startAt endAt).ncard) ∧
    (∀ startAt middle endAt : UtcTime, startAt ≤ middle → middle ≤ endAt →
      ∃ first last, expectedBucketCount startAt middle unit = .ok first ∧
        expectedBucketCount middle endAt unit = .ok last ∧
        expectedBucketCount startAt endAt unit = .ok (first + last)) ∧
    (∀ (events : List AuthorityEvent) (statuses : List MarketStatusRow)
      (startAt endAt : UtcTime), startAt < endAt →
      ∃ (pieces : List (UtcTime × UtcTime)) (counts : List ℤ),
        pieces.map instantsOf = (projectCoverageRanges events statuses
          startAt.microseconds endAt.microseconds).map (fun range =>
            (range.startAt, range.endAt)) ∧
        pieces.mapM (fun piece => expectedBucketCount piece.1 piece.2 unit) = .ok counts ∧
        expectedBucketCount startAt endAt unit = .ok counts.sum) := by
  intro unit hunit
  obtain ⟨grid, hgrid⟩ := exists_rollupGrid unit hunit
  refine ⟨fun startAt endAt hle => expectedBucketCount_eq_ncard hgrid hle,
    fun startAt middle endAt hfirst hlast => expectedBucketCount_add hgrid hfirst hlast, ?_⟩
  intro events statuses startAt endAt hlt
  have hproject := (projectCoverageRanges_exact events statuses (Int.ofNat_lt.mpr hlt)).1
  obtain ⟨pieces, hpieces, htiles⟩ := exists_tiles_of_instants hproject
  obtain ⟨counts, hcounts, htotal⟩ := expectedBucketCount_tiles hgrid htiles
  exact ⟨pieces, counts, hpieces, hcounts, htotal⟩

theorem expectedBucketCount_exact_days :
    expectedBucketCount ⟨739000 * dayMicroseconds + 5, by decide⟩
        ⟨739010 * dayMicroseconds, by decide⟩ "1d" = .ok 9 ∧
      (bucketsOf "1d" ⟨739000 * dayMicroseconds + 5, by decide⟩
        ⟨739010 * dayMicroseconds, by decide⟩).ncard = 9 := by
  have hcount := (expectedBucketCount_exact "1d" (by decide)).1
    ⟨739000 * dayMicroseconds + 5, by decide⟩ ⟨739010 * dayMicroseconds, by decide⟩ (by decide)
  have hnine : expectedBucketCount ⟨739000 * dayMicroseconds + 5, by decide⟩
      ⟨739010 * dayMicroseconds, by decide⟩ "1d" = .ok 9 := by decide +kernel
  rw [hnine] at hcount
  exact ⟨hnine, (Int.ofNat.inj (Except.ok.inj hcount)).symm⟩

end Goodmoneying.Analysis
