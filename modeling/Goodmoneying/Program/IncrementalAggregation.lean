import Goodmoneying.Program.Aggregation

/-!
# Ranges of rollup buckets

`incremental_aggregation.py`: where a bucket ends, and the ranges of buckets, of at most
`MAX_OUTPUT_BUCKETS_PER_JOB` each, that instants or a range of time touch. The loop of
`affected_rollup_ranges` over the starts of the touched buckets is `groupStarts`. The two loops
of `affected_rollup_ranges_for_interval` are `advance`, which goes through the buckets of one
range, and `rangesFrom`, which goes from range to range.
-/

namespace Goodmoneying.Program.Aggregation

open Library
open Goodmoneying.Program.VersionedIndicators (minutes)

variable {unit : String}
variable {last current stop : UtcTime} {room count total : ℕ}

/-- `MAX_OUTPUT_BUCKETS_PER_JOB`. -/
def maxOutputBucketsPerJob : ℕ := 512

structure RollupInvalidationRange where
  unit : String
  startAt : UtcTime
  endAt : UtcTime
  outputBucketCount : ℕ

/-- `durations` of `rollup_bucket_end`. -/
def durations : List (String × ℤ) :=
  [("3m", minutes 3), ("5m", minutes 5), ("10m", minutes 10), ("15m", minutes 15),
    ("30m", minutes 30), ("1h", minutes 60), ("4h", minutes 240), ("1d", days 1),
    ("1w", days 7)]

/-- `rollup_bucket_end`. -/
def rollupBucketEnd (unit : String) (bucketStart : UtcTime) : Except PythonError UtcTime :=
  if unit = "1M" then
    if monthOfDay bucketStart.day = 12 then bucketStart.replace (yearOf bucketStart.day + 1) 1
    else bucketStart.replace (yearOf bucketStart.day) (monthOfDay bucketStart.day + 1)
  else
    match durations.lookup unit with
    | some duration => bucketStart.addTimedelta duration
    | none => .error (.valueError ("지원하지 않는 파생 집계 단위다: " ++ unit))

theorem duration_pos {duration : ℤ} (h : durations.lookup unit = some duration) : 0 < duration := by
  obtain ⟨before, after, heq, -⟩ := List.lookup_eq_some_iff.mp h
  have hall : ∀ entry ∈ durations, 0 < entry.2 := by decide
  exact hall (unit, duration) (by rw [heq]; simp)

/-- The end of a bucket is after its start. -/
theorem lt_of_rollupBucketEnd {bucketStart bucketEnd : UtcTime}
    (h : rollupBucketEnd unit bucketStart = .ok bucketEnd) : bucketStart < bucketEnd := by
  obtain ⟨hone, -⟩ := daysBeforeMonth_monthOfDay bucketStart.day
  have hle := monthStart_le bucketStart.day
  have hpos := daysInMonth_pos (yearOf bucketStart.day) (monthOfDay bucketStart.day)
  have hsucc := daysBeforeMonth_succ (yearOf bucketStart.day) hone
  -- the same day of a later month is a later day
  have hlater : ∀ {year month}, bucketStart.replace year month = .ok bucketEnd →
      monthStart bucketStart.day < daysBeforeYear year + daysBeforeMonth year month →
      bucketStart < bucketEnd := by
    intro year month h hlt
    obtain ⟨-, -, -, hat⟩ := UtcTime.replace_eq_ok.mp h
    have hday : bucketStart.day <
        daysBeforeYear year + daysBeforeMonth year month + bucketStart.dayOfMonth := by
      unfold UtcTime.dayOfMonth
      omega
    have hmul := Nat.mul_le_mul_right dayMicroseconds (Nat.succ_le_of_lt hday)
    have hsplit := Nat.div_add_mod' bucketStart.microseconds dayMicroseconds
    rw [Nat.succ_mul] at hmul
    rw [UtcTime.lt_def, hat]
    unfold UtcTime.day at hmul
    unfold dayMicroseconds at *
    omega
  unfold rollupBucketEnd at h
  split_ifs at h with hmonth hlast
  · apply hlater h
    have hyear := daysBeforeYear_succ (daysBeforeYear_yearOf bucketStart.day).1
    have hdecember : daysBeforeMonth (yearOf bucketStart.day) 13 =
        daysBeforeMonth (yearOf bucketStart.day) 12 + daysInMonth (yearOf bucketStart.day) 12 :=
      rfl
    rw [hlast] at hpos
    rw [hyear, monthStart, hlast]
    omega
  · apply hlater h
    rw [hsucc, monthStart]
    omega
  · cases hduration : durations.lookup unit with
    | none =>
      rw [hduration] at h
      cases h
    | some duration =>
      rw [hduration] at h
      have hat := UtcTime.addTimedelta_eq_ok.mp h
      have := duration_pos hduration
      rw [UtcTime.lt_def]
      omega

/-- The inner loop: the end of the buckets from `current` that begin no later than `last`, at
most `room` of them, and `count` with their number added. -/
def advance (unit : String) (last : UtcTime) :
    ℕ → UtcTime → ℕ → Except PythonError (UtcTime × ℕ)
  | 0, current, count => .ok (current, count)
  | room + 1, current, count =>
    if current ≤ last then do
      let next ← rollupBucketEnd unit current
      advance unit last room next (count + 1)
    else .ok (current, count)

/-- The buckets that the inner loop goes through follow each other. -/
theorem le_of_advance (h : advance unit last room current count = .ok (stop, total)) :
    current ≤ stop := by
  induction room generalizing current count with
  | zero =>
    obtain rfl := congrArg Prod.fst (Except.ok.inj h)
    exact le_refl _
  | succ room ih =>
    rw [advance] at h
    split_ifs at h
    · obtain ⟨next, hnext, h⟩ := bind_eq_ok.mp h
      exact (lt_of_rollupBucketEnd hnext).le.trans (ih h)
    · obtain rfl := congrArg Prod.fst (Except.ok.inj h)
      exact le_refl _

/-- A round of the outer loop goes through a bucket at least. -/
theorem lt_of_advance (hle : current ≤ last)
    (h : advance unit last (room + 1) current count = .ok (stop, total)) : current < stop := by
  rw [advance, if_pos hle] at h
  obtain ⟨next, hnext, h⟩ := bind_eq_ok.mp h
  exact (lt_of_rollupBucketEnd hnext).trans_le (le_of_advance h)

/-- The outer loop. -/
def rangesFrom (unit : String) (last current : UtcTime) :
    Except PythonError (List RollupInvalidationRange) :=
  if _hle : current ≤ last then
    match _hround : advance unit last maxOutputBucketsPerJob current 0 with
    | .error e => .error e
    | .ok (stop, count) => do
      let rest ← rangesFrom unit last stop
      pure (⟨unit, current, stop, count⟩ :: rest)
  else .ok []
termination_by maxOrdinal * dayMicroseconds - current.microseconds
decreasing_by
  have hlt := UtcTime.lt_def.mp (lt_of_advance _hle _hround)
  have := current.in_calendar
  omega

theorem rangesFrom_eq (unit : String) (last current : UtcTime) :
    rangesFrom unit last current =
      if current ≤ last then do
        let round ← advance unit last maxOutputBucketsPerJob current 0
        let rest ← rangesFrom unit last round.1
        pure (⟨unit, current, round.1, round.2⟩ :: rest)
      else .ok [] := by
  refine (rangesFrom.eq_def unit last current).trans ?_
  split_ifs
  · split
    case h_1 e hround => simp only [hround, error_bind]
    case h_2 stop count hround => simp only [hround, ok_bind]
  · rfl

/-- `affected_rollup_ranges_for_interval`, of times in UTC. -/
def affectedRollupRangesForInterval (startAt endAt : UtcTime) (units : List String) :
    Except PythonError (List RollupInvalidationRange) :=
  if endAt ≤ startAt then .ok []
  else do
    let lastInstant ← endAt.addTimedelta (-1)
    let ranges ← units.mapM fun unit => do
      let current ← rollupBucketStart unit startAt
      let last ← rollupBucketStart unit lastInstant
      rangesFrom unit last current
    pure ranges.flatten

/-- `sorted({rollup_bucket_start(unit, value) for value in changed_at})`. -/
def bucketStarts (unit : String) (changedAt : List UtcTime) :
    Except PythonError (List UtcTime) := do
  let starts ← changedAt.mapM (rollupBucketStart unit)
  pure (sortedBy id starts.dedup)

/-- The loop over the starts after the first one: a start that begins where the bucket before
it ends joins its group, if there is room. -/
def groupStarts (unit : String) (groupStart previous : UtcTime) (count : ℕ) :
    List UtcTime → Except PythonError (List RollupInvalidationRange)
  | [] => do
    let groupEnd ← rollupBucketEnd unit previous
    pure [⟨unit, groupStart, groupEnd, count⟩]
  | current :: rest => do
    let bucketEnd ← rollupBucketEnd unit previous
    if current = bucketEnd ∧ count < maxOutputBucketsPerJob then
      groupStarts unit groupStart current (count + 1) rest
    else do
      let groupEnd ← rollupBucketEnd unit previous
      let ranges ← groupStarts unit current current 1 rest
      pure (⟨unit, groupStart, groupEnd, count⟩ :: ranges)

/-- The ranges of a unit, from the starts of its touched buckets. -/
def rangesOfStarts (unit : String) :
    List UtcTime → Except PythonError (List RollupInvalidationRange)
  | [] => pure []
  | first :: rest => groupStarts unit first first 1 rest

/-- `affected_rollup_ranges`, of times in UTC. -/
def affectedRollupRanges (changedAt : List UtcTime) (units : List String) :
    Except PythonError (List RollupInvalidationRange) := do
  let ranges ← units.mapM fun unit => do
    let starts ← bucketStarts unit changedAt
    rangesOfStarts unit starts
  pure ranges.flatten

end Goodmoneying.Program.Aggregation
