import Goodmoneying.Program.Aggregation

/-!
# The buckets of the rollups as grids

Every unit of the rollups cuts the calendar into the cells of a grid (`rollupGrids`), and
`rollup_bucket_start` finds the start of the cell of a time (`rollupBucketStart_eq`). Days nest
in weeks and in months.
-/

namespace Goodmoneying.Analysis

open Library
open Program
open Program.Aggregation

variable {u : UtcTime} {grid : Grid}

/-- The start of the cell of a time. -/
def cellStart (grid : Grid) (t : UtcTime) : UtcTime where
  microseconds := grid.start t.microseconds
  in_calendar := (grid.start_le _).trans_lt t.in_calendar

theorem cellStart_cellStart (grid : Grid) (t : UtcTime) :
    cellStart grid (cellStart grid t) = cellStart grid t :=
  UtcTime.ext (grid.start_start _)

theorem cellStart_mono (grid : Grid) {t : UtcTime} (h : t ≤ u) :
    cellStart grid t ≤ cellStart grid u := grid.start_mono h

/-- A time lies in a cell exactly if it lies between its start and the next. -/
theorem cellStart_eq_iff {t : UtcTime} : cellStart grid u = cellStart grid t ↔
      cellStart grid t ≤ u ∧ u.microseconds < grid.next (cellStart grid t).microseconds := by
  rw [UtcTime.ext_iff]
  exact grid.start_eq_iff

/-- A cell ends before a later one begins. -/
theorem next_le_of_lt {s : UtcTime} (hs : cellStart grid s = s) (hu : cellStart grid u = u)
    (h : s < u) : grid.next s.microseconds ≤ u.microseconds := by
  have hs' : grid.start s.microseconds = s.microseconds := congrArg UtcTime.microseconds hs
  have hu' : grid.start u.microseconds = u.microseconds := congrArg UtcTime.microseconds hu
  have hnext := grid.next_le_start (t := s.microseconds) (u := u.microseconds)
  rw [hs', hu'] at hnext
  exact hnext h

/-- Cells of `n + 1` minutes. -/
def minuteGrid (n : ℕ) : Grid := .fixed ((n + 1) * 60000000) (Nat.mul_pos n.succ_pos (by decide))

def dayGrid : Grid := .fixed dayMicroseconds (by decide)

def weekGrid : Grid := .fixed (dayMicroseconds * 7) (by decide)

/-- The months, in microseconds. -/
def calendarMonthGrid : Grid := monthGrid.scale dayMicroseconds (by decide)

/-- The grids of the units. -/
def rollupGrids : List (String × Grid) :=
  [("1m", minuteGrid 0), ("3m", minuteGrid 2), ("5m", minuteGrid 4), ("10m", minuteGrid 9),
    ("15m", minuteGrid 14), ("30m", minuteGrid 29), ("1h", minuteGrid 59), ("4h", minuteGrid 239),
    ("1d", dayGrid), ("1w", weekGrid), ("1M", calendarMonthGrid)]

theorem midnight_eq (t : UtcTime) : midnight t = cellStart dayGrid t := by
  ext
  simp only [midnight, UtcTime.replaceClock, UtcTime.day, cellStart, dayGrid, Grid.fixed_start,
    dayMicroseconds, Fin.val_zero]
  omega

theorem firstOfMonth_eq (t : UtcTime) : t.firstOfMonth = cellStart calendarMonthGrid t := by
  ext
  exact mul_comm _ _

/-- The start of a week is the start of its cell. -/
theorem weekStart_eq (t : UtcTime) : weekStart t = .ok (cellStart weekGrid t) := by
  have hday := Nat.mod_le t.day 7
  have hmul : t.day * dayMicroseconds ≤ t.microseconds := Nat.div_mul_le_self _ _
  -- the Monday of the week, at the time of the day of `t`
  have hmonday : t.addTimedelta (days (-t.weekday)) =
      .ok ⟨t.microseconds - t.weekday * dayMicroseconds,
        (Nat.sub_le _ _).trans_lt t.in_calendar⟩ := by
    rw [UtcTime.addTimedelta_eq_ok]
    have : t.weekday * dayMicroseconds ≤ t.microseconds := (Nat.mul_le_mul_right _ hday).trans hmul
    unfold days
    push_cast [Nat.cast_sub this]
    ring
  rw [weekStart, hmonday, ok_bind]
  congr 1
  ext
  simp only [midnight, UtcTime.replaceClock, UtcTime.day, UtcTime.weekday, cellStart, weekGrid,
    Grid.fixed_start, dayMicroseconds]
  simp
  omega

/-- The minute rounded down within its hour begins a cell, if the cells divide the hour. -/
theorem replaceMinute_eq (t : UtcTime) {n : ℕ} (hn : n + 1 ∣ 60) : t.replaceClock t.hour
      ⟨t.minute - t.minute % (n + 1), (Nat.sub_le _ _).trans_lt t.minute.isLt⟩ =
      cellStart (minuteGrid n) t := by
  ext
  have hrest : t.microseconds % ((n + 1) * 60000000) =
      t.microseconds % 60000000 + 60000000 * (t.microseconds / 60000000 % (n + 1)) := by
    rw [mul_comm, Nat.mod_mul]
  have hminute : t.microseconds / 60000000 % (n + 1) = t.minute % (n + 1) := by
    have hwithin : (t.minute : ℕ) = t.microseconds / 60000000 % 60 := by
      show t.microseconds % 3600000000 / 60000000 = _
      omega
    rw [hwithin, Nat.mod_mod_of_dvd _ hn]
  have hle := Nat.mod_le t.minute (n + 1)
  simp only [UtcTime.replaceClock, cellStart, minuteGrid, Grid.fixed_start]
  rw [hrest, hminute]
  generalize (t.minute : ℕ) % (n + 1) = down at hle ⊢
  simp only [UtcTime.minute, UtcTime.hour, UtcTime.day, dayMicroseconds] at hle ⊢
  omega

theorem replaceHour_eq (t : UtcTime) :
    t.replaceClock ⟨t.hour - t.hour % 4, (Nat.sub_le _ _).trans_lt t.hour.isLt⟩ 0 =
      cellStart (minuteGrid 239) t := by
  ext
  simp only [UtcTime.replaceClock, UtcTime.hour, UtcTime.day, cellStart, minuteGrid,
    Grid.fixed_start, dayMicroseconds, Fin.val_zero]
  omega

/-- `rollup_bucket_start` finds the start of the cell. -/
theorem rollupBucketStart_eq {unit : String} (h : (unit, grid) ∈ rollupGrids) (t : UtcTime) :
    rollupBucketStart unit t = .ok (cellStart grid t) := by
  simp only [rollupGrids, List.mem_cons, Prod.mk.injEq, List.not_mem_nil, or_false] at h
  rcases h with ⟨rfl, rfl⟩ | ⟨rfl, rfl⟩ | ⟨rfl, rfl⟩ | ⟨rfl, rfl⟩ | ⟨rfl, rfl⟩ | ⟨rfl, rfl⟩ |
    ⟨rfl, rfl⟩ | ⟨rfl, rfl⟩ | ⟨rfl, rfl⟩ | ⟨rfl, rfl⟩ | ⟨rfl, rfl⟩
  · exact congrArg Except.ok (replaceMinute_eq t (by decide))
  · exact congrArg Except.ok (replaceMinute_eq t (by decide))
  · exact congrArg Except.ok (replaceMinute_eq t (by decide))
  · exact congrArg Except.ok (replaceMinute_eq t (by decide))
  · exact congrArg Except.ok (replaceMinute_eq t (by decide))
  · exact congrArg Except.ok (replaceMinute_eq t (by decide))
  · exact congrArg Except.ok (replaceMinute_eq t (by decide))
  · exact congrArg Except.ok (replaceHour_eq t)
  · exact congrArg Except.ok (midnight_eq t)
  · exact weekStart_eq t
  · exact congrArg Except.ok (firstOfMonth_eq t)

/-- Days nest in weeks. -/
theorem dayGrid_nested_week : dayGrid.Nested weekGrid :=
  Grid.nested_fixed (by decide) (by decide)

/-- Days nest in months. -/
theorem dayGrid_nested_month : dayGrid.Nested calendarMonthGrid :=
  monthGrid.nested_scale dayMicroseconds (by decide)

end Goodmoneying.Analysis
