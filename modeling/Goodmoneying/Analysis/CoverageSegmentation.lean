import Goodmoneying.Analysis.RollupCompleteness

/-!
# Aggregation and the segments of the coverage

What a slot is judged to be depends on the set of the segments that cover it whole
(`judgedStatus_congr`). A cut between two minutes touches no slot of a minute, but the slot of a day
that it falls into (`CutsDay.judged`). So the candles of weeks and months depend on how the coverage
is cut, under a condition (`aggregateCandles_split_iff`).
-/

namespace Goodmoneying.Analysis

open List Library
open Program
open Program.Aggregation
open Goodmoneying.Program.VersionedIndicators (CandleQuality Completeness)

variable {coverage coverage' : List CoverageSlice} {start stop offset : ℕ}
  {status lost : CoverageQuality} {bucket : UtcTime} {unit : String} {items : List Item}
  {error : PythonError}
variable {groups : List (Group UtcTime Item)} {first rest : List CoverageQuality}
  {view : CandleView}

/-! ## Slots -/

/-- What the slot from `start` to `stop` is judged to be, if no item takes it. -/
def judgedStatus (coverage : List CoverageSlice) (start stop : ℕ) : CoverageQuality :=
  let statuses := (coverage.filter fun segment =>
    segment.startAt.microseconds ≤ start ∧ stop ≤ segment.endAt.microseconds).map
      CoverageSlice.status
  if statuses = [] then .unverified else slotQuality statuses

theorem openSlotStatus_eq_judged (coverage : List CoverageSlice) (slotStart slotEnd : UtcTime) :
    openSlotStatus coverage slotStart slotEnd =
      judgedStatus coverage slotStart.microseconds slotEnd.microseconds := by
  simp only [openSlotStatus, judgedStatus, matches_, UtcTime.le_def]

theorem slotQuality_congr {statuses statuses' : List CoverageQuality}
    (h : ∀ status, status ∈ statuses ↔ status ∈ statuses') :
    slotQuality statuses = slotQuality statuses' := by
  simp only [slotQuality, h]

/-- The statuses of the segments that cover a slot whole. -/
def CoveringStatus (coverage : List CoverageSlice) (start stop : ℕ) (status : CoverageQuality) :
    Prop :=
  ∃ segment ∈ coverage, Covers segment start stop ∧ segment.status = status

theorem mem_coveringStatuses :
    status ∈ (coverage.filter fun segment =>
      segment.startAt.microseconds ≤ start ∧ stop ≤ segment.endAt.microseconds).map
        CoverageSlice.status ↔ CoveringStatus coverage start stop status := by
  simp [CoveringStatus, Covers, and_assoc]

/-- The segments that cover a slot count as a set. -/
theorem judgedStatus_congr (h : ∀ status, CoveringStatus coverage start stop status ↔ CoveringStatus
      coverage' start stop status) :
    judgedStatus coverage start stop = judgedStatus coverage' start stop := by
  simp only [← mem_coveringStatuses] at h
  have hnil : ∀ {l l' : List CoverageQuality}, (∀ status, status ∈ l ↔ status ∈ l') →
      (l = [] ↔ l' = []) := by
    intro l l' hmem
    rw [eq_nil_iff_forall_not_mem, eq_nil_iff_forall_not_mem]
    exact forall_congr' fun status => not_congr (hmem status)
  simp only [judgedStatus, hnil h, slotQuality_congr h]

/-- Only one segment covers the slot. -/
theorem judgedStatus_single
    (h : ∀ other, CoveringStatus coverage start stop other ↔ other = status) :
    judgedStatus coverage start stop = status := by
  have hmem : ∀ other, other ∈ (coverage.filter fun segment =>
      segment.startAt.microseconds ≤ start ∧ stop ≤ segment.endAt.microseconds).map
        CoverageSlice.status ↔ other ∈ [status] := by
    intro other
    rw [mem_coveringStatuses, h, mem_singleton]
  rw [judgedStatus, if_neg, slotQuality_congr hmem]
  · cases status <;> rfl
  · rw [eq_nil_iff_forall_not_mem]
    intro hnone
    exact hnone status ((hmem status).mpr (mem_singleton_self status))

/-- No segment covers the slot. -/
theorem judgedStatus_none (h : ∀ status, ¬ CoveringStatus coverage start stop status) :
    judgedStatus coverage start stop = .unverified := by
  rw [judgedStatus, if_pos]
  rw [eq_nil_iff_forall_not_mem]
  exact fun status hmem => h status (mem_coveringStatuses.mp hmem)

/-! ## Cuts -/

/-- Segments have no time in common. -/
def Apart (segment other : CoverageSlice) : Prop :=
  segment.endAt ≤ other.startAt ∨ other.endAt ≤ segment.startAt

/-- The two parts of a segment that is cut. -/
def cutSegment (segment : CoverageSlice) (cut : UtcTime) : List CoverageSlice :=
  [{ segment with endAt := cut }, { segment with startAt := cut }]

variable {before after : List CoverageSlice} {segment : CoverageSlice} {cut : UtcTime}

theorem coveringStatus_append : CoveringStatus (coverage ++ coverage') start stop status ↔
      CoveringStatus coverage start stop status ∨ CoveringStatus coverage' start stop status := by
  simp only [CoveringStatus, mem_append, or_and_right, exists_or]

/-- Of the segments, the cut one alone covers a slot within it. -/
theorem covers_iff_of_apart (hapart : (before ++ segment :: after).Pairwise Apart)
    (hslot : start < stop) (hcovers : Covers segment start stop) {other : CoverageSlice}
    (hother : other ∈ before ++ after) : ¬ Covers other start stop := by
  have hne : Apart other segment ∨ Apart segment other := by
    rw [pairwise_append, pairwise_cons] at hapart
    rcases mem_append.mp hother with hmem | hmem
    · exact Or.inl (hapart.2.2 other hmem segment mem_cons_self)
    · exact Or.inr (hapart.2.1.1 other hmem)
  intro hother
  simp only [Apart, UtcTime.le_def] at hne
  simp only [Covers] at hcovers hother
  omega

/-- A slot that the cut does not fall into is judged as before. -/
theorem judgedStatus_split_of_outside (hfrom : segment.startAt < cut) (hto : cut < segment.endAt)
    (houtside : cut.microseconds ≤ start ∨ stop ≤ cut.microseconds ∨ ¬ Covers segment start stop) :
    judgedStatus (before ++ cutSegment segment cut ++ after) start stop =
      judgedStatus (before ++ segment :: after) start stop := by
  have hparts : ∀ status, CoveringStatus (cutSegment segment cut) start stop status ↔
      CoveringStatus [segment] start stop status := by
    intro status
    rw [UtcTime.lt_def] at hfrom hto
    simp only [CoveringStatus, cutSegment, Covers, mem_cons, not_mem_nil, or_false,
      exists_eq_or_imp, exists_eq_left]
    simp only [Covers] at houtside
    constructor
    · rintro (⟨hcovers, rfl⟩ | ⟨hcovers, rfl⟩)
      · exact ⟨⟨hcovers.1, by omega⟩, rfl⟩
      · exact ⟨⟨by omega, hcovers.2⟩, rfl⟩
    · rintro ⟨hcovers, rfl⟩
      rcases houtside with hafter | hbefore | hnot
      · exact Or.inr ⟨⟨hafter, hcovers.2⟩, rfl⟩
      · exact Or.inl ⟨⟨hcovers.1, hbefore⟩, rfl⟩
      · exact absurd hcovers hnot
  apply judgedStatus_congr
  intro status
  rw [← singleton_append (l := after), ← append_assoc]
  simp only [coveringStatus_append, hparts]

/-- A slot of the segment that the cut falls into is judged by the segment before, and not judged
afterwards. -/
theorem judgedStatus_split_of_inside (hapart : (before ++ segment :: after).Pairwise Apart)
    (hfrom : start < cut.microseconds) (hto : cut.microseconds < stop)
    (hcovers : Covers segment start stop) :
    judgedStatus (before ++ segment :: after) start stop = segment.status ∧
      judgedStatus (before ++ cutSegment segment cut ++ after) start stop = .unverified := by
  have hothers : ∀ other ∈ before ++ after, ¬ Covers other start stop := fun other hother =>
    covers_iff_of_apart hapart (hfrom.trans hto) hcovers hother
  have hnone : ∀ status, ¬ CoveringStatus before start stop status ∧
      ¬ CoveringStatus after start stop status := by
    intro status
    constructor
    · rintro ⟨other, hmem, hother, -⟩
      exact hothers other (mem_append_left _ hmem) hother
    · rintro ⟨other, hmem, hother, -⟩
      exact hothers other (mem_append_right _ hmem) hother
  constructor
  · apply judgedStatus_single
    intro other
    have hone : CoveringStatus [segment] start stop other ↔ other = segment.status := by
      simp [CoveringStatus, hcovers, eq_comm]
    rw [← singleton_append (l := after), coveringStatus_append, coveringStatus_append, hone]
    simp only [(hnone other).1, (hnone other).2, false_or, or_false]
  · apply judgedStatus_none
    intro status
    rw [coveringStatus_append, coveringStatus_append]
    rintro ((h | ⟨part, hpart, hcovered, -⟩) | h)
    · exact (hnone status).1 h
    · simp only [cutSegment, mem_cons, not_mem_nil, or_false] at hpart
      rcases hpart with rfl | rfl
      · exact absurd hcovered.2 (not_le.mpr hto)
      · exact absurd hcovered.1 (not_le.mpr hfrom)
    · exact (hnone status).2 h

/-! ## Buckets -/

section Buckets

variable {ar : Arithmetic} {sha256 : String → String} {coverage coverage' : List CoverageSlice}
variable {n : ℕ}
variable {expectedSize length : ℕ} {grid : Grid}

/-- Coverages that judge a slot alike give it one status, and a slot that is taken does not depend
on the coverage. -/
theorem slotStatus_congr (items : List Item) (h : ¬ Taken items (bucket.microseconds +
      slotMicroseconds unit * offset) → judgedStatus coverage (bucket.microseconds +
      slotMicroseconds unit * offset) (bucket.microseconds + slotMicroseconds unit * offset +
      slotMicroseconds unit) = judgedStatus coverage' (bucket.microseconds + slotMicroseconds unit *
      offset) (bucket.microseconds + slotMicroseconds unit * offset + slotMicroseconds unit)) :
    slotStatus bucket items coverage unit offset =
      slotStatus bucket items coverage' unit offset := by
  unfold slotStatus
  cases hstart : bucket.addTimedelta (slotDelta unit * offset) with
  | error error => rfl
  | ok slotStart =>
    rw [ok_bind, ok_bind]
    split_ifs with htaken
    · rfl
    · cases hend : slotStart.addTimedelta (slotDelta unit) with
      | error error => rfl
      | ok slotEnd =>
        rw [UtcTime.addTimedelta_eq_ok, slotDelta_eq] at hstart hend
        have hfrom : slotStart.microseconds =
            bucket.microseconds + slotMicroseconds unit * offset := by exact_mod_cast hstart
        have hto : slotEnd.microseconds = slotStart.microseconds + slotMicroseconds unit := by
          exact_mod_cast hend
        rw [taken_iff, hfrom] at htaken
        have hopen : openSlotStatus coverage slotStart slotEnd =
            openSlotStatus coverage' slotStart slotEnd := by
          rw [openSlotStatus_eq_judged, openSlotStatus_eq_judged, hto, hfrom, h htaken]
        rw [ok_bind, ok_bind]
        exact congrArg (fun status => pure (some status)) hopen

/-- Coverages that judge the slots of a bucket alike give one candle. -/
theorem aggregateGroup_congr {group : Group UtcTime Item} (h : ∀ offset < requiredSlots expectedSize
      group.key, slotStatus group.key (sortedBy Item.startedAt group.items) coverage unit offset =
      slotStatus group.key (sortedBy Item.startedAt group.items) coverage' unit offset) :
    aggregateGroup ar sha256 expectedSize coverage unit group =
      aggregateGroup ar sha256 expectedSize coverage' unit group := by
  have hstatuses : missingSlotStatuses group.key (requiredSlots expectedSize group.key)
      (sortedBy Item.startedAt group.items) coverage unit =
      missingSlotStatuses group.key (requiredSlots expectedSize group.key)
        (sortedBy Item.startedAt group.items) coverage' unit := by
    rw [missingSlotStatuses, missingSlotStatuses, mapM_congr fun offset hoffset =>
      h offset (mem_range.mp hoffset)]
  rw [aggregateGroup, aggregateGroup, hstatuses]

theorem aggregateGroups_congr (h : ∀ group ∈ groups, aggregateGroup ar sha256 expectedSize coverage
      unit group = aggregateGroup ar sha256 expectedSize coverage' unit group) :
    aggregateGroups ar sha256 groups expectedSize coverage unit =
      aggregateGroups ar sha256 groups expectedSize coverage' unit := by
  rw [aggregateGroups, aggregateGroups, mapM_congr fun group hgroup =>
    h group (mem_sortedBy.mp hgroup)]

/-- Coverages that judge every slot of one kind alike. -/
def JudgeAlike (coverage coverage' : List CoverageSlice) (length : ℕ) : Prop :=
  ∀ start, length ∣ start →
    judgedStatus coverage start (start + length) = judgedStatus coverage' start (start + length)

/-- A grid whose cells begin with a slot. -/
theorem JudgeAlike.aggregateGroups (h : JudgeAlike coverage coverage' (slotMicroseconds unit))
    (hgrid : ∀ t, slotMicroseconds unit ∣ grid.start t) (items : List Item) (expectedSize : ℕ) :
    Aggregation.aggregateGroups ar sha256 (cellGroups grid items) expectedSize coverage unit =
      Aggregation.aggregateGroups ar sha256 (cellGroups grid items) expectedSize coverage'
        unit := by
  apply aggregateGroups_congr
  intro group hgroup
  apply aggregateGroup_congr
  intro offset _
  refine slotStatus_congr _ fun _ => ?_
  obtain ⟨item, -, hkey⟩ := mem_keys_cellGroups hgroup
  have hdvd : slotMicroseconds unit ∣ group.key.microseconds := hkey ▸ hgrid _
  exact h _ (hdvd.add (Dvd.intro _ rfl))

/-! ## Units -/

theorem minute_dvd_fixed (hpos : 0 < length) (hdvd : 60000000 ∣ length) (t : ℕ) :
    60000000 ∣ (Grid.fixed length hpos).start t :=
  hdvd.trans (Nat.dvd_sub_mod t)

/-- The buckets of minutes and days. -/
theorem JudgeAlike.firstStep (h : JudgeAlike coverage coverage' 60000000) {hpos : 0 < length}
    (hunit : (unit, Grid.fixed length hpos) ∈ rollupGrids) (hdvd : 60000000 ∣ length)
    (hslot : slotMicroseconds unit = 60000000) (items : List Item) (expectedSize : ℕ) :
    (do
      let groups ← groupByBucket (rollupBucketStart unit) items
      Aggregation.aggregateGroups ar sha256 groups expectedSize coverage unit) = (do
      let groups ← groupByBucket (rollupBucketStart unit) items
      Aggregation.aggregateGroups ar sha256 groups expectedSize coverage' unit) := by
  rw [groupByBucket_eq (rollupBucketStart_eq hunit), ok_bind, ok_bind]
  exact JudgeAlike.aggregateGroups (hslot.symm ▸ h) (hslot.symm ▸ minute_dvd_fixed hpos hdvd) _ _

/-- Coverages that judge every minute alike give the same days. -/
theorem JudgeAlike.aggregateDaily (h : JudgeAlike coverage coverage' 60000000)
    (source : List SourceCandle) : Aggregation.aggregateDaily ar sha256 source coverage =
      Aggregation.aggregateDaily ar sha256 source coverage' := by
  have hday : ("1d", dayGrid) ∈ rollupGrids := by simp [rollupGrids]
  have hminutes : JudgeAlike coverage coverage' (slotMicroseconds "1d") := h
  have hgrid : ∀ t, slotMicroseconds "1d" ∣ dayGrid.start t :=
    minute_dvd_fixed (by decide) (by decide)
  unfold Aggregation.aggregateDaily
  dsimp only
  rw [groupByBucket_eq (rollupBucketStart_eq hday), ok_bind, ok_bind, hminutes.aggregateGroups hgrid]

/-- The units of several minutes, by the minutes after the first. -/
def minuteUnitGrids : List (String × ℕ) :=
  [("3m", 2), ("5m", 4), ("10m", 9), ("15m", 14), ("30m", 29), ("1h", 59), ("4h", 239)]

theorem mem_rollupGrids (hunit : (unit, n) ∈ minuteUnitGrids) :
    (unit, minuteGrid n) ∈ rollupGrids := by
  have hall : ∀ grid ∈ minuteUnitGrids, (grid.1, minuteGrid grid.2) ∈ rollupGrids := by
    simp [minuteUnitGrids, rollupGrids]
  exact hall _ hunit

theorem minuteUnit_slot (hunit : (unit, n) ∈ minuteUnitGrids) :
    slotMicroseconds unit = 60000000 := by
  have hall : ∀ grid ∈ minuteUnitGrids, slotMicroseconds grid.1 = 60000000 := by decide
  exact hall _ hunit

theorem aggregateCandles_minutes (hunit : (unit, n) ∈ minuteUnitGrids) (source : List SourceCandle)
    (coverage : List CoverageSlice) :
    aggregateCandles ar sha256 unit source coverage = (do
      let groups ← groupByBucket (rollupBucketStart unit)
        ((source.filter (·.candleUnit = "1m")).map .source)
      Aggregation.aggregateGroups ar sha256 groups (n + 1) coverage unit) := by
  simp only [minuteUnitGrids, mem_cons, Prod.mk.injEq, not_mem_nil, or_false] at hunit
  rcases hunit with ⟨rfl, rfl⟩ | ⟨rfl, rfl⟩ | ⟨rfl, rfl⟩ | ⟨rfl, rfl⟩ | ⟨rfl, rfl⟩ | ⟨rfl, rfl⟩ |
    ⟨rfl, rfl⟩ <;>
  simp [aggregateCandles, aliases, aggregationUnits, minuteUnits, hourUnits, lookup_cons]

theorem aggregateCandles_one (source : List SourceCandle) :
    aggregateCandles ar sha256 "1m" source coverage =
      aggregateCandles ar sha256 "1m" source coverage' := by
  simp [aggregateCandles, aliases, aggregationUnits, lookup_cons]

theorem aggregateCandles_unknown (h : unit ∉ aggregationUnits) (halias : aliases.lookup unit = none)
    (source : List SourceCandle) (coverage : List CoverageSlice) :
    aggregateCandles ar sha256 unit source coverage =
      .error (.valueError ("지원하지 않는 집계 단위다: " ++ unit)) := by
  simp [aggregateCandles, halias, h]

/-- An alias is read as its unit, which is no alias. -/
theorem aggregateCandles_alias (unit : String) :
    ∃ unit', aliases.lookup unit' = none ∧ (unit' ∈ ["1w", "1M"] → unit' = unit) ∧
      ∀ source coverage, aggregateCandles ar sha256 unit source coverage =
        aggregateCandles ar sha256 unit' source coverage := by
  by_cases hhour : unit = "60m"
  · subst hhour
    refine ⟨"1h", by simp [aliases, lookup_cons], by decide, fun source coverage => ?_⟩
    simp [aggregateCandles, aliases, lookup_cons]
  · by_cases hfour : unit = "240m"
    · subst hfour
      refine ⟨"4h", by simp [aliases, lookup_cons], by decide, fun source coverage => ?_⟩
      simp [aggregateCandles, aliases, lookup_cons]
    · refine ⟨unit, ?_, fun _ => rfl, fun _ _ => rfl⟩
      rw [aliases, lookup_cons_eq, if_neg hhour, lookup_cons_eq, if_neg hfour]
      rfl

theorem exists_secondStep (h : unit ∈ ["1w", "1M"]) :
    ∃ grid size, (unit, grid, size) ∈ secondStepUnits := by
  simp only [mem_cons, not_mem_nil, or_false] at h
  rcases h with rfl | rfl
  · exact ⟨weekGrid, 7, by simp [secondStepUnits]⟩
  · exact ⟨calendarMonthGrid, 0, by simp [secondStepUnits]⟩

theorem day_dvd_start {size : ℕ} (hunit : (unit, grid, size) ∈ secondStepUnits) (t : ℕ) :
    dayMicroseconds ∣ grid.start t := by
  rw [← dayGrid_start_eq_self_iff]
  exact (secondStep_nested hunit).start_start t

/-- Coverages that judge the slots of minutes alike, and those of days, give the same candles. -/
theorem aggregateCandles_of_judgeAlike (unit : String) (source : List SourceCandle)
    (hminutes : JudgeAlike coverage coverage' 60000000)
    (hdays : unit ∈ ["1w", "1M"] → JudgeAlike coverage coverage' dayMicroseconds) :
    aggregateCandles ar sha256 unit source coverage =
      aggregateCandles ar sha256 unit source coverage' := by
  obtain ⟨unit', halias, hsecond, heq⟩ := @aggregateCandles_alias ar sha256 unit
  rw [heq, heq]
  by_cases hknown : unit' ∈ aggregationUnits
  · simp only [aggregationUnits, mem_cons, not_mem_nil, or_false] at hknown
    have hcases : unit' = "1m" ∨ (∃ n, (unit', n) ∈ minuteUnitGrids) ∨ unit' = "1d" ∨
        unit' ∈ ["1w", "1M"] := by
      rcases hknown with rfl | rfl | rfl | rfl | rfl | rfl | rfl | rfl | rfl | rfl | rfl <;>
        simp [minuteUnitGrids]
    rcases hcases with rfl | ⟨n, hunit⟩ | rfl | hlong
    · exact aggregateCandles_one source
    · rw [aggregateCandles_minutes hunit, aggregateCandles_minutes hunit]
      exact hminutes.firstStep (mem_rollupGrids hunit) (Dvd.intro_left _ rfl)
        (minuteUnit_slot hunit) _ _
    · rw [aggregateCandles_day, aggregateCandles_day]
      exact hminutes.aggregateDaily source
    · obtain ⟨grid, size, hunit⟩ := exists_secondStep hlong
      have halike : JudgeAlike coverage coverage' (slotMicroseconds unit') := by
        rw [secondStep_slotMicroseconds hunit]
        exact hdays (hsecond hlong ▸ hlong)
      have hgrid : ∀ t, slotMicroseconds unit' ∣ grid.start t := by
        rw [secondStep_slotMicroseconds hunit]
        exact day_dvd_start hunit
      rw [aggregateCandles_eq ar sha256 hunit, aggregateCandles_eq ar sha256 hunit,
        hminutes.aggregateDaily source]
      simp only [halike.aggregateGroups hgrid]
  · rw [aggregateCandles_unknown hknown halias, aggregateCandles_unknown hknown halias]

end Buckets

/-! ## A cut coverage -/

/-- The order of the segments does not matter. -/
theorem judgeAlike_of_perm (h : coverage.Perm coverage') (length : ℕ) :
    JudgeAlike coverage coverage' length := by
  intro start _
  apply judgedStatus_congr
  intro status
  simp only [CoveringStatus, h.mem_iff]

/-- A cut between two minutes leaves the slots of minutes as they are. -/
theorem judgeAlike_cut_minutes (hfrom : segment.startAt < cut) (hto : cut < segment.endAt)
    (hcut : 60000000 ∣ cut.microseconds) :
    JudgeAlike (before ++ cutSegment segment cut ++ after) (before ++ segment :: after)
      60000000 := by
  intro start hstart
  apply judgedStatus_split_of_outside hfrom hto
  obtain ⟨k, hk⟩ := hstart
  obtain ⟨n, hn⟩ := hcut
  omega

/-- The day of a cut. -/
def cutDay (cut : UtcTime) : ℕ := dayGrid.start cut.microseconds

theorem day_dvd_cutDay (cut : UtcTime) : dayMicroseconds ∣ cutDay cut := by
  rw [← dayGrid_start_eq_self_iff]
  exact dayGrid.start_start _

/-- The cut falls into a day that the segment covers. -/
structure CutsDay (segment : CoverageSlice) (cut : UtcTime) : Prop where
  inside : ¬ dayMicroseconds ∣ cut.microseconds
  covers : Covers segment (cutDay cut) (cutDay cut + dayMicroseconds)

/-- Every other day is judged as before. -/
theorem judgedStatus_cut_day (hfrom : segment.startAt < cut) (hto : cut < segment.endAt) {day : ℕ}
    (hday : dayMicroseconds ∣ day) (hother : CutsDay segment cut → day ≠ cutDay cut) :
    judgedStatus (before ++ cutSegment segment cut ++ after) day (day + dayMicroseconds) =
      judgedStatus (before ++ segment :: after) day (day + dayMicroseconds) := by
  apply judgedStatus_split_of_outside hfrom hto
  by_contra hinside
  simp only [not_or, not_le, not_not] at hinside
  obtain ⟨hstart, hstop, hcovers⟩ := hinside
  -- the day is the day of the cut
  have hsame : cutDay cut = day := by
    have hself := dayGrid_start_eq_self_iff.mpr hday
    have hcell : dayGrid.start cut.microseconds = dayGrid.start day := by
      rw [dayGrid.start_eq_iff, hself]
      exact ⟨hstart.le, hstop⟩
    rw [cutDay, hcell, hself]
  refine hother ⟨?_, hsame ▸ hcovers⟩ hsame.symm
  intro hdvd
  have hself := dayGrid_start_eq_self_iff.mpr hdvd
  rw [cutDay, hself] at hsame
  omega

/-- The cut day is judged by the segment before, and not judged afterwards. -/
theorem CutsDay.judged (h : CutsDay segment cut)
    (hapart : (before ++ segment :: after).Pairwise Apart) :
    judgedStatus (before ++ segment :: after) (cutDay cut) (cutDay cut + dayMicroseconds) =
        segment.status ∧
      judgedStatus (before ++ cutSegment segment cut ++ after) (cutDay cut)
        (cutDay cut + dayMicroseconds) = .unverified := by
  have hle := dayGrid.start_le cut.microseconds
  have hlt := dayGrid.lt_next cut.microseconds
  rw [dayGrid, Grid.fixed_next] at hlt
  apply judgedStatus_split_of_inside hapart _ hlt h.covers
  refine lt_of_le_of_ne hle fun heq => h.inside ?_
  rw [← heq]
  exact day_dvd_cutDay cut

/-! ## The quality of a bucket -/

/-- A slot of this status hides that another is no longer of status `lost`. -/
def Hides (lost status : CoverageQuality) : Prop :=
  status = .missing ∨ status = .unavailable ∧ lost ≠ .missing ∨
    status = .unverified ∧ lost ≠ .missing ∧ lost ≠ .unavailable

/-- The worst status is the first of three that occurs. -/
theorem worstQuality_eq (statuses : List CoverageQuality) :
    worstQuality statuses =
      if .missing ∈ statuses then .missing
      else if .unavailable ∈ statuses then .unavailable
      else if .unverified ∈ statuses then .unverified
      else if .available ∈ statuses then .missing else .available := by
  unfold worstQuality
  by_cases hmissing : CandleQuality.missing ∈ statuses
  · simp [hmissing]
  by_cases hunavailable : CandleQuality.unavailable ∈ statuses
  · simp [hmissing, hunavailable]
  by_cases hunverified : CandleQuality.unverified ∈ statuses
  · simp [hmissing, hunavailable, hunverified]
  · simp [hmissing, hunavailable, hunverified]

/-- Losing a status for `unverified` shows unless another slot hides it. -/
theorem worstQuality_lost_iff :
    worstQuality (first ++ lost :: rest) = worstQuality (first ++ .unverified :: rest) ↔
      lost = .unverified ∨ ∃ status ∈ first ++ rest, Hides lost status := by
  have hmem : ∀ status other : CoverageQuality, status ∈ first ++ other :: rest ↔
      status = other ∨ status ∈ first ++ rest := by
    intro status other
    simp only [mem_append, mem_cons]
    tauto
  have hhides : (∃ status ∈ first ++ rest, Hides lost status) ↔
      .missing ∈ first ++ rest ∨ .unavailable ∈ first ++ rest ∧ lost ≠ .missing ∨
        .unverified ∈ first ++ rest ∧ lost ≠ .missing ∧ lost ≠ .unavailable := by
    constructor
    · rintro ⟨status, hstatus, rfl | ⟨rfl, h⟩ | ⟨rfl, h⟩⟩
      · exact Or.inl hstatus
      · exact Or.inr (Or.inl ⟨hstatus, h⟩)
      · exact Or.inr (Or.inr ⟨hstatus, h⟩)
    · rintro (h | ⟨h, hlost⟩ | ⟨h, hlost⟩)
      · exact ⟨_, h, Or.inl rfl⟩
      · exact ⟨_, h, Or.inr (Or.inl ⟨rfl, hlost⟩)⟩
      · exact ⟨_, h, Or.inr (Or.inr ⟨rfl, hlost⟩)⟩
  rw [hhides, worstQuality_eq, worstQuality_eq]
  simp only [hmem]
  by_cases hmissing : CandleQuality.missing ∈ first ++ rest
  · simp [hmissing]
  by_cases hunavailable : CandleQuality.unavailable ∈ first ++ rest
  · cases lost <;> simp [hmissing, hunavailable]
  by_cases hunverified : CandleQuality.unverified ∈ first ++ rest
  · cases lost <;> simp [hmissing, hunavailable, hunverified]
  by_cases havailable : CandleQuality.available ∈ first ++ rest
  · cases lost <;> simp [hmissing, hunavailable, hunverified, havailable]
  · cases lost <;> simp [hmissing, hunavailable, hunverified, havailable]

/-- A slot is taken, or judged by the coverage. -/
theorem slotStatus_judged {status : Option CoverageQuality}
    (h : slotStatus bucket items coverage unit offset = .ok status) :
    Taken items (bucket.microseconds + slotMicroseconds unit * offset) ∧ status = none ∨
      ¬ Taken items (bucket.microseconds + slotMicroseconds unit * offset) ∧
        status = some (judgedStatus coverage (bucket.microseconds + slotMicroseconds unit * offset)
          (bucket.microseconds + slotMicroseconds unit * offset + slotMicroseconds unit)) := by
  obtain ⟨slotStart, hstart, ⟨htaken, rfl⟩ | ⟨hopen, slotEnd, hend, rfl⟩⟩ := slotStatus_eq_ok h
  · rw [taken_iff, hstart] at htaken
    exact Or.inl ⟨htaken, rfl⟩
  · rw [taken_iff, hstart] at hopen
    rw [openSlotStatus_eq_judged, hend, hstart]
    exact Or.inr ⟨hopen, rfl⟩

/-- A slot that is open under one coverage is judged by another. -/
theorem slotStatus_open {status : Option CoverageQuality}
    (h : slotStatus bucket items coverage unit offset = .ok status)
    (hopen : ¬ Taken items (bucket.microseconds + slotMicroseconds unit * offset))
    (coverage' : List CoverageSlice) : slotStatus bucket items coverage' unit offset =
      .ok (some (judgedStatus coverage' (bucket.microseconds + slotMicroseconds unit * offset)
        (bucket.microseconds + slotMicroseconds unit * offset + slotMicroseconds unit))) := by
  obtain ⟨slotStart, hstart, ⟨htaken, -⟩ | ⟨hfree, slotEnd, hend, -⟩⟩ := slotStatus_eq_ok h
  · rw [taken_iff, hstart] at htaken
    exact absurd htaken hopen
  · have hfrom : bucket.addTimedelta (slotDelta unit * offset) = .ok slotStart := by
      rw [UtcTime.addTimedelta_eq_ok, slotDelta_eq, hstart]
      push_cast
      rfl
    have hto : slotStart.addTimedelta (slotDelta unit) = .ok slotEnd := by
      rw [UtcTime.addTimedelta_eq_ok, slotDelta_eq, hend]
      push_cast
      rfl
    rw [← hstart, ← hend, ← openSlotStatus_eq_judged, slotStatus, hfrom, ok_bind, if_neg hfree, hto]
    rfl

/-- The candle of a bucket whose slots are partly missing tells of a lost status by its quality. -/
theorem bucketView_lost_iff {ar : Arithmetic} {sha256 : String → String} {requiredSize : ℕ}
    {item : Item} : bucketView ar sha256 bucket requiredSize item items (first ++ lost :: rest) =
        bucketView ar sha256 bucket requiredSize item items (first ++ .unverified :: rest) ↔
      lost = .unverified ∨ ∃ status ∈ first ++ rest, Hides lost status := by
  rw [← worstQuality_lost_iff]
  constructor
  · intro h
    exact congrArg CandleView.quality h
  · intro hworst
    -- where the worst status is the same, neither bucket is complete by its empty slots
    have hincomplete : (∀ status ∈ first ++ lost :: rest, status = .noTrade) ↔
        ∀ status ∈ first ++ .unverified :: rest, status = .noTrade := by
      rw [← worstQuality_eq_available_iff, ← worstQuality_eq_available_iff, hworst]
    have hnonempty : first ++ lost :: rest ≠ [] ↔ first ++ .unverified :: rest ≠ [] := by simp
    unfold bucketView
    simp only [hworst, hincomplete, hnonempty]

section LostSlot

variable {ar : Arithmetic} {sha256 : String → String} {coverage coverage' : List CoverageSlice}
  {unit : String} {group : Group UtcTime Item} {size : ℕ}

/-- Where a slot of the group begins. -/
def slotOf (unit : String) (group : Group UtcTime Item) (offset : ℕ) : ℕ :=
  group.key.microseconds + slotMicroseconds unit * offset

/-- One slot of a bucket loses its status: the candle stays as it is exactly when the status was
`unverified` or another empty slot hides it. -/
theorem aggregateGroup_lost_iff {lostOffset : ℕ} (hslot : lostOffset < requiredSlots size group.key)
    (hopen : ¬ Taken group.items (slotOf unit group lostOffset)) (hbefore : judgedStatus coverage
      (slotOf unit group lostOffset) (slotOf unit group lostOffset + slotMicroseconds unit) = lost)
    (hafter : judgedStatus coverage' (slotOf unit group lostOffset) (slotOf unit group lostOffset +
      slotMicroseconds unit) = .unverified) (hothers : ∀ offset, offset ≠ lostOffset → judgedStatus
      coverage (slotOf unit group offset) (slotOf unit group offset + slotMicroseconds unit) =
      judgedStatus coverage' (slotOf unit group offset) (slotOf unit group offset + slotMicroseconds
      unit)) (hview : aggregateGroup ar sha256 size coverage unit group = .ok view) :
    aggregateGroup ar sha256 size coverage' unit group = .ok view ↔
      lost = .unverified ∨ ∃ offset < requiredSlots size group.key, offset ≠ lostOffset ∧
        ¬ Taken group.items (slotOf unit group offset) ∧
        Hides lost (judgedStatus coverage (slotOf unit group offset)
          (slotOf unit group offset + slotMicroseconds unit)) := by
  have htaken : ∀ start, Taken (sortedBy Item.startedAt group.items) start ↔
      Taken group.items start := by
    intro start
    simp only [Taken, mem_sortedBy]
  obtain ⟨earlier, later, hrange⟩ := append_of_mem (mem_range.mpr hslot)
  have hnodup := nodup_range (n := requiredSlots size group.key)
  rw [hrange, nodup_middle, nodup_cons] at hnodup
  have hne : ∀ offset ∈ earlier ++ later, offset ≠ lostOffset := by
    rintro offset hmem rfl
    exact hnodup.1 hmem
  have hagree : ∀ offset ∈ earlier ++ later,
      slotStatus group.key (sortedBy Item.startedAt group.items) coverage unit offset =
        slotStatus group.key (sortedBy Item.startedAt group.items) coverage' unit offset :=
    fun offset hmem => slotStatus_congr _ fun _ => hothers offset (hne offset hmem)
  obtain ⟨statuses, hstatuses, hview⟩ := bind_eq_ok.mp hview
  obtain rfl := pure_eq_ok.mp hview
  obtain ⟨results, hresults, hstatuses⟩ := bind_eq_ok.mp hstatuses
  obtain rfl := pure_eq_ok.mp hstatuses
  rw [hrange] at hresults
  obtain ⟨first, status, rest, hfirst, hlost, hrest, rfl⟩ := mapM_append_cons_eq_ok.mp hresults
  -- the slot was judged `lost`, and is judged `unverified`
  have hopen' := mt (htaken _).mp hopen
  obtain rfl : status = some lost := by
    have := slotStatus_open hlost hopen' coverage
    rw [hlost] at this
    rw [Except.ok.inj this]
    exact congrArg some hbefore
  have hunverified : slotStatus group.key (sortedBy Item.startedAt group.items) coverage' unit
      lostOffset = .ok (some .unverified) := by
    rw [slotStatus_open hlost hopen' coverage']
    exact congrArg (fun status => Except.ok (some status)) hafter
  have hresults' : (List.range (requiredSlots size group.key)).mapM
      (slotStatus group.key (sortedBy Item.startedAt group.items) coverage' unit) =
        .ok (first ++ some .unverified :: rest) := by
    rw [hrange]
    refine mapM_append_cons_eq_ok.mpr ⟨first, _, rest, ?_, hunverified, ?_, rfl⟩
    · rw [← hfirst, mapM_congr fun offset hmem => hagree offset (mem_append_left _ hmem)]
    · rw [← hrest, mapM_congr fun offset hmem => hagree offset (mem_append_right _ hmem)]
  have hview' : aggregateGroup ar sha256 size coverage' unit group =
      .ok (bucketView ar sha256 group.key (requiredSlots size group.key)
        ((sortedBy Item.startedAt group.items).head (by
          rw [← length_pos_iff, (sortedBy_perm _ _).length_eq, length_pos_iff]
          exact group.items_ne_nil)) (sortedBy Item.startedAt group.items).tail
        (first.filterMap id ++ .unverified :: rest.filterMap id)) := by
    rw [aggregateGroup, missingSlotStatuses, hresults', ok_bind]
    simp only [filterMap_append, filterMap_cons, id_eq]
    rfl
  rw [hview', Except.ok.injEq, eq_comm]
  simp only [filterMap_append, filterMap_cons, id_eq]
  rw [bucketView_lost_iff, ← filterMap_append]
  have hcombined : (earlier ++ later).mapM
      (slotStatus group.key (sortedBy Item.startedAt group.items) coverage unit) =
        .ok (first ++ rest) := by
    rw [mapM_append, hfirst, ok_bind, hrest]
    rfl
  obtain ⟨hback, hforth⟩ := mem_of_mapM_eq_ok hcombined
  refine or_congr_right ⟨?_, ?_⟩
  · rintro ⟨status, hstatus, hhides⟩
    obtain ⟨result, hresult, rfl⟩ := mem_filterMap.mp hstatus
    obtain ⟨offset, hoffset, hslot'⟩ := hback _ hresult
    have hmem : offset ∈ List.range (requiredSlots size group.key) := by
      rw [hrange]
      exact mem_append.mpr
        ((mem_append.mp hoffset).imp_right (mem_cons_of_mem lostOffset))
    obtain ⟨-, hnone⟩ | ⟨hfree, hsome⟩ := slotStatus_judged hslot'
    · cases hnone
    · refine ⟨offset, mem_range.mp hmem, hne offset hoffset, mt (htaken _).mpr hfree, ?_⟩
      exact Option.some.inj hsome ▸ hhides
  · rintro ⟨offset, hoffset, hdifferent, hfree, hhides⟩
    have hmem : offset ∈ earlier ++ later := by
      have hmem := mem_range.mpr hoffset
      rw [hrange, mem_append, mem_cons] at hmem
      rw [mem_append]
      exact hmem.imp_right fun h => h.resolve_left hdifferent
    obtain ⟨result, hresult, hslot'⟩ := hforth offset hmem
    obtain ⟨htaken', -⟩ | ⟨-, rfl⟩ := slotStatus_judged hslot'
    · exact absurd ((htaken _).mp htaken') hfree
    · exact ⟨_, mem_filterMap.mpr ⟨_, hresult, rfl⟩, hhides⟩

/-- The errors of a slot do not depend on the coverage. -/
theorem slotStatus_error : slotStatus bucket items coverage unit offset = .error error →
      slotStatus bucket items coverage' unit offset = .error error := by
  unfold slotStatus
  cases bucket.addTimedelta (slotDelta unit * offset) with
  | error error => exact id
  | ok slotStart =>
    rw [ok_bind, ok_bind]
    split_ifs
    · exact id
    · cases slotStart.addTimedelta (slotDelta unit) with
      | error error => exact id
      | ok slotEnd =>
        intro h
        cases h

theorem aggregateGroup_error : aggregateGroup ar sha256 size coverage unit group = .error error →
      aggregateGroup ar sha256 size coverage' unit group = .error error := by
  unfold aggregateGroup missingSlotStatuses
  dsimp only
  intro h
  cases hslots : (List.range (requiredSlots size group.key)).mapM
      (slotStatus group.key (sortedBy Item.startedAt group.items) coverage unit) with
  | ok results =>
    rw [hslots] at h
    cases h
  | error error' =>
    rw [hslots] at h
    rw [mapM_eq_error_of_errors (fun _ _ => slotStatus_error) (fun _ _ => slotStatus_error) hslots]
    exact h

end LostSlot

/-! ## Weeks and months under a cut -/

/-- A cut shows in the candle of a week or a month: the day of the cut, covered by the segment,
has no candle, though its bucket has; the segment says more of it than `unverified`; and no other
day without a candle hides that this is lost. -/
structure CutShows (grid : Grid) (source : List SourceCandle) (coverage : List CoverageSlice)
    (segment : CoverageSlice) (cut : UtcTime) : Prop where
  cuts : CutsDay segment cut
  empty_day : ∀ candle ∈ source, dayGrid.start candle.candleStartAt.microseconds ≠ cutDay cut
  bucket : ∃ candle ∈ source,
    grid.start candle.candleStartAt.microseconds = grid.start (cutDay cut)
  judged : segment.status ≠ .unverified
  shown : ∀ day, grid.start day = grid.start (cutDay cut) → dayMicroseconds ∣ day →
    day ≠ cutDay cut →
    (∀ candle ∈ source, dayGrid.start candle.candleStartAt.microseconds ≠ day) →
    ¬ Hides segment.status (judgedStatus coverage day (day + dayMicroseconds))

section Cut

variable {ar : Arithmetic} {sha256 : String → String} {source : List SourceCandle}
  {daily : List CandleView} {unit : String} {grid : Grid} {size : ℕ} {group : Group UtcTime Item}

/-- The slots of a group are the days of its bucket. -/
theorem slotOf_mem_bucket (hunit : (unit, grid, size) ∈ secondStepUnits)
    (hgroup : group ∈ cellGroups grid items) (hoffset : offset < requiredSlots size group.key) :
    dayMicroseconds ∣ slotOf unit group offset ∧
      group.key.microseconds ≤ slotOf unit group offset ∧
      slotOf unit group offset < grid.next group.key.microseconds := by
  have hnext := next_key hunit hgroup
  have hdvd := day_dvd_key (secondStep_nested hunit) hgroup
  have hmul : dayMicroseconds * offset < dayMicroseconds * requiredSlots size group.key :=
    Nat.mul_lt_mul_of_pos_left hoffset (by decide)
  rw [slotOf, secondStep_slotMicroseconds hunit]
  exact ⟨hdvd.add (Dvd.intro _ rfl), Nat.le_add_right _ _, by omega⟩

theorem start_key (hgroup : group ∈ cellGroups grid items) :
    grid.start group.key.microseconds = group.key.microseconds := by
  obtain ⟨item, -, hkey⟩ := mem_keys_cellGroups hgroup
  rw [← hkey]
  exact grid.start_start _

/-- A time of the bucket of a group. -/
theorem start_eq_key_iff (hgroup : group ∈ cellGroups grid items) {t : ℕ} :
    grid.start t = group.key.microseconds ↔
      group.key.microseconds ≤ t ∧ t < grid.next group.key.microseconds := by
  have hkey := start_key hgroup
  have hiff := grid.start_eq_iff (t := group.key.microseconds) (u := t)
  rwa [hkey] at hiff

/-- The other empty slots of a group, as days. -/
theorem hides_iff (hunit : (unit, grid, size) ∈ secondStepUnits) (hdaily : aggregateGroups ar sha256
      (cellGroups dayGrid (source.map .source)) (24 * 60) coverage "1d" = .ok daily)
    (hgroup : group ∈ cellGroups grid (daily.map .view)) (lost : CoverageQuality) (lostOffset : ℕ) :
    (∃ offset < requiredSlots size group.key, offset ≠ lostOffset ∧
      ¬ Taken group.items (slotOf unit group offset) ∧
      Hides lost (judgedStatus coverage (slotOf unit group offset)
        (slotOf unit group offset + slotMicroseconds unit))) ↔
    ∃ day, grid.start day = group.key.microseconds ∧ dayMicroseconds ∣ day ∧
      day ≠ slotOf unit group lostOffset ∧
      (∀ candle ∈ source, dayGrid.start candle.candleStartAt.microseconds ≠ day) ∧
      Hides lost (judgedStatus coverage day (day + dayMicroseconds)) := by
  have hlength := secondStep_slotMicroseconds hunit
  constructor
  · rintro ⟨offset, hoffset, hne, hfree, hhides⟩
    obtain ⟨hdvd, hfrom, hto⟩ := slotOf_mem_bucket hunit hgroup hoffset
    refine ⟨slotOf unit group offset, (start_eq_key_iff hgroup).mpr ⟨hfrom, hto⟩, hdvd, ?_, ?_,
      hlength ▸ hhides⟩
    · intro heq
      rw [slotOf, slotOf, Nat.add_left_cancel_iff] at heq
      exact hne (Nat.eq_of_mul_eq_mul_left (slotMicroseconds_pos unit) heq)
    · intro candle hcandle hday
      exact hfree ((taken_day_iff hdaily hgroup hfrom hto).mpr ⟨candle, hcandle, hday⟩)
  · rintro ⟨day, hbucket, hdvd, hne, hempty, hhides⟩
    obtain ⟨hfrom, hto⟩ := (start_eq_key_iff hgroup).mp hbucket
    obtain ⟨offset, hoffset, rfl⟩ := exists_slot_of_day hunit hgroup hfrom hto hdvd
    have hslot : slotOf unit group offset =
        group.key.microseconds + dayMicroseconds * offset := by rw [slotOf, hlength]
    refine ⟨offset, hoffset, ?_, ?_, ?_⟩
    · rintro rfl
      exact hne hslot.symm
    · rw [hslot, taken_day_iff hdaily hgroup hfrom hto]
      rintro ⟨candle, hcandle, hday⟩
      exact hempty candle hcandle hday
    · rw [hslot, hlength]
      exact hhides

/-- The candle of a bucket under a cut. -/
theorem aggregateGroup_cut_iff (hunit : (unit, grid, size) ∈ secondStepUnits)
    (hapart : (before ++ segment :: after).Pairwise Apart) (hfrom : segment.startAt < cut)
    (hto : cut < segment.endAt) (hdaily : aggregateGroups ar sha256 (cellGroups dayGrid (source.map
      .source)) (24 * 60) (before ++ segment :: after) "1d" = .ok daily)
    (hgroup : group ∈ cellGroups grid (daily.map .view))
    (hview : aggregateGroup ar sha256 size (before ++ segment :: after) unit group = .ok view) :
    aggregateGroup ar sha256 size (before ++ cutSegment segment cut ++ after) unit group =
        .ok view ↔ ¬ (grid.start (cutDay cut) = group.key.microseconds ∧
        CutShows grid source (before ++ segment :: after) segment cut) := by
  have hlength := secondStep_slotMicroseconds hunit
  by_cases hhere : CutsDay segment cut ∧ grid.start (cutDay cut) = group.key.microseconds ∧
      ∀ candle ∈ source, dayGrid.start candle.candleStartAt.microseconds ≠ cutDay cut
  · obtain ⟨hcuts, hstart, hempty⟩ := hhere
    obtain ⟨hle, hlt⟩ := (start_eq_key_iff hgroup).mp hstart
    obtain ⟨offset, hoffset, hday⟩ := exists_slot_of_day hunit hgroup hle hlt (day_dvd_cutDay cut)
    have hslot : slotOf unit group offset = cutDay cut := by rw [slotOf, hlength, hday]
    have hopen : ¬ Taken group.items (slotOf unit group offset) := by
      rw [hslot, taken_day_iff hdaily hgroup hle hlt]
      rintro ⟨candle, hcandle, hsame⟩
      exact hempty candle hcandle hsame
    obtain ⟨hjudged, hlost⟩ := hcuts.judged hapart
    rw [← hslot, ← hlength] at hjudged hlost
    have hothers : ∀ other, other ≠ offset →
        judgedStatus (before ++ segment :: after) (slotOf unit group other)
          (slotOf unit group other + slotMicroseconds unit) =
        judgedStatus (before ++ cutSegment segment cut ++ after) (slotOf unit group other)
          (slotOf unit group other + slotMicroseconds unit) := by
      intro other hne
      have hdvd : dayMicroseconds ∣ slotOf unit group other := by
        rw [slotOf, hlength]
        exact (day_dvd_key (secondStep_nested hunit) hgroup).add (Dvd.intro _ rfl)
      rw [hlength]
      refine (judgedStatus_cut_day hfrom hto hdvd fun _ heq => hne ?_).symm
      rw [← hslot, slotOf, slotOf, Nat.add_left_cancel_iff] at heq
      exact Nat.eq_of_mul_eq_mul_left (slotMicroseconds_pos unit) heq
    rw [aggregateGroup_lost_iff hoffset hopen hjudged hlost hothers hview,
      hides_iff hunit hdaily hgroup, hslot]
    constructor
    · rintro (hunverified | ⟨day, hbucket, hdvd, hne, hfree, hhides⟩) ⟨-, hshows⟩
      · exact hshows.judged hunverified
      · exact hshows.shown day (hbucket.trans hstart.symm) hdvd hne hfree hhides
    · intro hhidden
      by_contra hneither
      rw [not_or] at hneither
      refine hhidden ⟨hstart, hcuts, hempty, ?_, hneither.1, ?_⟩
      · obtain ⟨item, hitem, hkey⟩ := mem_keys_cellGroups hgroup
        obtain ⟨view, hmem, rfl⟩ := mem_map.mp hitem
        obtain ⟨candle, hcandle, hcandleDay⟩ := (mem_daily_iff hdaily).mp (mem_map_of_mem hmem)
        refine ⟨candle, hcandle, ?_⟩
        rw [hstart, ← hkey, ← secondStep_nested hunit]
        exact congrArg (fun day : UtcTime => grid.start day.microseconds) hcandleDay
      · intro day hbucket hdvd hne hfree hhides
        exact hneither.2 ⟨day, hbucket.trans hstart, hdvd, hne, hfree, hhides⟩
  · have hsame : aggregateGroup ar sha256 size (before ++ cutSegment segment cut ++ after) unit
        group = aggregateGroup ar sha256 size (before ++ segment :: after) unit group := by
      apply aggregateGroup_congr
      intro offset hoffset
      obtain ⟨hdvd, hle, hlt⟩ := slotOf_mem_bucket hunit hgroup hoffset
      refine slotStatus_congr _ fun hopen => ?_
      have hfree : ¬ Taken group.items (slotOf unit group offset) := by
        rintro ⟨item, hitem, hat⟩
        exact hopen ⟨item, mem_sortedBy.mpr hitem, hat⟩
      rw [hlength]
      rw [slotOf, hlength] at hdvd hle hlt hfree
      refine judgedStatus_cut_day hfrom hto hdvd fun hcuts heq => hhere ⟨hcuts, ?_, ?_⟩
      · rw [← heq]
        exact (start_eq_key_iff hgroup).mpr ⟨hle, hlt⟩
      · intro candle hcandle hcandleDay
        exact hfree ((taken_day_iff hdaily hgroup hle hlt).mpr
          ⟨candle, hcandle, hcandleDay.trans heq.symm⟩)
    rw [hsame]
    exact iff_of_true hview fun hshows =>
      hhere ⟨hshows.2.cuts, hshows.1, hshows.2.empty_day⟩

/-- The errors of an aggregation do not depend on the coverage of the second step. -/
theorem aggregateGroups_error
    (h : aggregateGroups ar sha256 groups size coverage unit = .error error) :
    aggregateGroups ar sha256 groups size coverage' unit = .error error :=
  mapM_eq_error_of_errors (fun _ _ => aggregateGroup_error) (fun _ _ => aggregateGroup_error) h

/-- The candles of weeks and months under a cut. -/
theorem aggregateGroups_cut_iff (hunit : (unit, grid, size) ∈ secondStepUnits)
    (hapart : (before ++ segment :: after).Pairwise Apart) (hfrom : segment.startAt < cut)
    (hto : cut < segment.endAt)
    (hdaily : aggregateGroups ar sha256 (cellGroups dayGrid (source.map .source)) (24 * 60)
      (before ++ segment :: after) "1d" = .ok daily) {views : List CandleView}
    (hviews : aggregateGroups ar sha256 (cellGroups grid (daily.map .view)) size
      (before ++ segment :: after) unit = .ok views) :
    aggregateGroups ar sha256 (cellGroups grid (daily.map .view)) size
        (before ++ cutSegment segment cut ++ after) unit = .ok views ↔
      ¬ CutShows grid source (before ++ segment :: after) segment cut := by
  obtain ⟨-, hforth⟩ := mem_of_mapM_eq_ok hviews
  constructor
  · intro hsplit hshows
    obtain ⟨candle, hcandle, hbucket⟩ := hshows.bucket
    -- the bucket of the cut has a group
    have hstarted : cellStart grid candle.candleStartAt ∈ views.map CandleView.startedAt :=
      (secondStep_buckets hdaily (secondStep_nested hunit) hviews _).mpr ⟨candle, hcandle, rfl⟩
    rw [aggregateGroups_startedAt hviews] at hstarted
    obtain ⟨group, hsorted, hkey⟩ := mem_map.mp hstarted
    obtain ⟨view, -, hview⟩ := hforth group hsorted
    have hsame := eq_of_mapM_eq_ok hviews hsplit group hsorted
    refine (aggregateGroup_cut_iff hunit hapart hfrom hto hdaily (mem_sortedBy.mp hsorted)
      hview).mp (hsame ▸ hview) ⟨?_, hshows⟩
    rw [hkey, ← hbucket]
    rfl
  · intro hhidden
    rw [← hviews]
    apply aggregateGroups_congr
    intro group hgroup
    obtain ⟨view, -, hview⟩ := hforth group (mem_sortedBy.mpr hgroup)
    rw [hview]
    exact (aggregateGroup_cut_iff hunit hapart hfrom hto hdaily hgroup hview).mpr
      fun h => hhidden h.2

/-- Only weeks and months have a second step. -/
theorem mem_weekMonth (hunit : (unit, grid, size) ∈ secondStepUnits) : unit ∈ ["1w", "1M"] := by
  simp only [secondStepUnits, mem_cons, Prod.mk.injEq, not_mem_nil, or_false] at hunit
  rcases hunit with ⟨rfl, -⟩ | ⟨rfl, -⟩ <;> simp

theorem secondStep_unique {grid' : Grid} {size' : ℕ} (hunit : (unit, grid, size) ∈ secondStepUnits)
    (hunit' : (unit, grid', size') ∈ secondStepUnits) : grid' = grid ∧ size' = size := by
  simp only [secondStepUnits, mem_cons, Prod.mk.injEq, not_mem_nil, or_false]
    at hunit hunit'
  rcases hunit with ⟨rfl, rfl, rfl⟩ | ⟨rfl, rfl, rfl⟩ <;> simpa using hunit'

end Cut

section Main

variable (ar : Arithmetic) (sha256 : String → String) (unit : String) {source : List SourceCandle}

/-- Aggregation does not depend on the order of the segments of the coverage. A cut of a segment
at a minute changes no error, and it changes the candles exactly when it shows in a week or a
month.
SOURCE: aggregation.py:52-106, 270-309; coverage_transition.py:20-122 -/
theorem aggregateCandles_split_iff (h1m : ∀ candle ∈ source, candle.candleUnit = "1m")
    (hapart : (before ++ segment :: after).Pairwise Apart) (hfrom : segment.startAt < cut)
    (hto : cut < segment.endAt) (hcut : 60000000 ∣ cut.microseconds) :
    (∀ coverage : List CoverageSlice, coverage.Perm (before ++ segment :: after) →
      aggregateCandles ar sha256 unit source coverage =
        aggregateCandles ar sha256 unit source (before ++ segment :: after)) ∧
    (∀ error, aggregateCandles ar sha256 unit source (before ++ segment :: after) = .error error →
      aggregateCandles ar sha256 unit source (before ++ cutSegment segment cut ++ after) =
        .error error) ∧
    ∀ views, aggregateCandles ar sha256 unit source (before ++ segment :: after) = .ok views →
      (aggregateCandles ar sha256 unit source (before ++ cutSegment segment cut ++ after) =
          .ok views ↔ ¬ ∃ grid size, (unit, grid, size) ∈ secondStepUnits ∧
          CutShows grid source (before ++ segment :: after) segment cut) := by
  have hminutes : JudgeAlike (before ++ cutSegment segment cut ++ after)
      (before ++ segment :: after) 60000000 := judgeAlike_cut_minutes hfrom hto hcut
  refine ⟨fun coverage hperm => ?_, ?_⟩
  · exact aggregateCandles_of_judgeAlike unit source (judgeAlike_of_perm hperm _)
      fun _ => judgeAlike_of_perm hperm _
  by_cases hlong : unit ∈ ["1w", "1M"]
  · obtain ⟨grid, size, hunit⟩ := exists_secondStep hlong
    have hone : (∃ grid size, (unit, grid, size) ∈ secondStepUnits ∧
        CutShows grid source (before ++ segment :: after) segment cut) ↔
          CutShows grid source (before ++ segment :: after) segment cut := by
      constructor
      · rintro ⟨grid', size', hunit', hshows⟩
        obtain ⟨rfl, -⟩ := secondStep_unique hunit hunit'
        exact hshows
      · exact fun hshows => ⟨grid, size, hunit, hshows⟩
    rw [hone, aggregateCandles_eq ar sha256 hunit, aggregateCandles_eq ar sha256 hunit,
      hminutes.aggregateDaily source, aggregateDaily_eq ar sha256 h1m]
    cases hdaily : aggregateGroups ar sha256 (cellGroups dayGrid (source.map .source)) (24 * 60)
        (before ++ segment :: after) "1d" with
    | error error => exact ⟨fun _ => id, fun views hviews => nomatch hviews⟩
    | ok daily =>
      rw [ok_bind, ok_bind]
      exact ⟨fun error => aggregateGroups_error,
        fun views hviews => aggregateGroups_cut_iff hunit hapart hfrom hto hdaily hviews⟩
  · rw [aggregateCandles_of_judgeAlike unit source hminutes fun h => absurd h hlong]
    refine ⟨fun _ => id, fun views hviews => iff_of_true hviews ?_⟩
    rintro ⟨grid, size, hunit, -⟩
    exact hlong (mem_weekMonth hunit)

end Main

theorem day_in_calendar : dayMicroseconds < maxOrdinal * dayMicroseconds := by decide

theorem week_in_calendar : 7 * dayMicroseconds < maxOrdinal * dayMicroseconds := by decide

/-- The days of a week after a Monday, without trade. -/
def quietSegment : CoverageSlice :=
  ⟨⟨dayMicroseconds, day_in_calendar⟩, ⟨7 * dayMicroseconds, week_in_calendar⟩, .noTrade⟩

/-- The noon of the Tuesday. -/
def tuesdayNoon : UtcTime := ⟨dayMicroseconds + 43200000000, by decide⟩

/-- With the segment whole the week of the Monday is complete; cut at a noon it is not. -/
theorem week_of_mondayCandle_changes_with_cut :
    ((mondayCandle.map SourceCandle.candleStartAt).Nodup ∧
      (∀ candle ∈ mondayCandle, candle.candleUnit = "1m" ∧
        60000000 ∣ candle.candleStartAt.microseconds) ∧
      60000000 ∣ quietSegment.startAt.microseconds ∧ 60000000 ∣ quietSegment.endAt.microseconds ∧
      60000000 ∣ tuesdayNoon.microseconds ∧
      quietSegment.startAt < tuesdayNoon ∧ tuesdayNoon < quietSegment.endAt) ∧
    aggregateCandles .exact id "1w" mondayCandle (cutSegment quietSegment tuesdayNoon) ≠
      aggregateCandles .exact id "1w" mondayCandle [quietSegment] := by
  refine ⟨⟨by simp [mondayCandle], by simp [mondayCandle, unitCandle], by decide, by decide,
    by decide, by decide, by decide⟩, fun hsame => ?_⟩
  have hcut : ((aggregateCandles .exact id "1w" mondayCandle
      (cutSegment quietSegment tuesdayNoon)).toOption.map
        fun views => views.map CandleView.quality) = some [.unverified] := by
    decide +kernel
  have hwhole : ((aggregateCandles .exact id "1w" mondayCandle [quietSegment]).toOption.map
      fun views => views.map CandleView.quality) = some [.available] := by
    decide +kernel
  rw [hsame, hwhole] at hcut
  cases hcut

theorem aggregateCandles_split_iff_mondayCandle :
    (∀ coverage : List CoverageSlice, coverage.Perm ([] ++ quietSegment :: []) →
      aggregateCandles .exact id "1w" mondayCandle coverage =
        aggregateCandles .exact id "1w" mondayCandle ([] ++ quietSegment :: [])) ∧
    (∀ error, aggregateCandles .exact id "1w" mondayCandle ([] ++ quietSegment :: []) =
        .error error →
      aggregateCandles .exact id "1w" mondayCandle
          ([] ++ cutSegment quietSegment tuesdayNoon ++ []) = .error error) ∧
    ∀ views, aggregateCandles .exact id "1w" mondayCandle ([] ++ quietSegment :: []) = .ok views →
      (aggregateCandles .exact id "1w" mondayCandle
          ([] ++ cutSegment quietSegment tuesdayNoon ++ []) = .ok views ↔
        ¬ ∃ grid size, ("1w", grid, size) ∈ secondStepUnits ∧
          CutShows grid mondayCandle ([] ++ quietSegment :: []) quietSegment tuesdayNoon) := by
  have h1m : ∀ candle ∈ mondayCandle, candle.candleUnit = "1m" := by
    simp [mondayCandle, unitCandle]
  have hapart : ([] ++ quietSegment :: []).Pairwise Apart := pairwise_singleton _ _
  have hfrom : quietSegment.startAt < tuesdayNoon := by decide
  have hto : tuesdayNoon < quietSegment.endAt := by decide
  exact aggregateCandles_split_iff .exact id "1w" h1m hapart hfrom hto (by decide)

end Goodmoneying.Analysis
