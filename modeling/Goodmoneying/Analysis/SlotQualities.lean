import Goodmoneying.Analysis.AggregationScheduling
import Goodmoneying.Analysis.CoverageSegmentation

/-!
# Completeness and quality of a bucket of minutes

A minute without a candle has the worst of the statuses of the segments that cover it. A bucket is
complete exactly when every minute has a candle or the quality `no_trade`, and its quality is the
worst of the minutes without a candle, reported as missing where it is `available`
(`bucketQualities`), in whatever order candles and segments come (`aggregateCandles_perm`).
-/

namespace Goodmoneying.Analysis

open List Library
open Program
open Program.Aggregation
open Goodmoneying.Program.VersionedIndicators (CandleQuality Completeness)

variable {statuses : List CoverageQuality} {minute size : ℕ}
variable {q r status : CoverageQuality} {kind : CoverageQuality → Prop}
  {coverage : List CoverageSlice} {items : List Item}

/-- How bad a quality is. -/
def severity : CoverageQuality → ℕ
  | .noTrade => 0
  | .available => 1
  | .unverified => 2
  | .unavailable => 3
  | .missing => 4

theorem severity_inj (h : severity q = severity r) : q = r := by
  cases q <;> cases r <;> first | rfl | exact absurd h (by decide)

/-- The worst of the qualities of some kind. -/
def IsWorst (kind : CoverageQuality → Prop) (worst : CoverageQuality) : Prop :=
  kind worst ∧ ∀ quality, kind quality → severity quality ≤ severity worst

theorem IsWorst.unique (hq : IsWorst kind q) (hr : IsWorst kind r) : q = r :=
  severity_inj (le_antisymm (hr.2 q hq.1) (hq.2 r hr.1))

theorem IsWorst.congr {kind' : CoverageQuality → Prop} {worst : CoverageQuality}
    (h : ∀ quality, kind quality ↔ kind' quality) : IsWorst kind worst ↔ IsWorst kind' worst := by
  unfold IsWorst
  simp only [h]

/-- `_slot_quality` is the worst of the statuses. -/
theorem slotQuality_isWorst (h : statuses ≠ []) :
    IsWorst (· ∈ statuses) (slotQuality statuses) := by
  by_cases hmissing : CandleQuality.missing ∈ statuses
  · rw [show slotQuality statuses = .missing by simp [slotQuality, hmissing]]
    exact ⟨hmissing, fun quality _ => by cases quality <;> decide⟩
  by_cases hunavailable : CandleQuality.unavailable ∈ statuses
  · rw [show slotQuality statuses = .unavailable by simp [slotQuality, hmissing, hunavailable]]
    exact ⟨hunavailable, fun quality hquality => by cases quality <;> simp_all [severity]⟩
  by_cases hunverified : CandleQuality.unverified ∈ statuses
  · rw [show slotQuality statuses = .unverified by
      simp [slotQuality, hmissing, hunavailable, hunverified]]
    exact ⟨hunverified, fun quality hquality => by cases quality <;> simp_all [severity]⟩
  by_cases havailable : CandleQuality.available ∈ statuses
  · rw [show slotQuality statuses = .available by
      simp [slotQuality, hmissing, hunavailable, hunverified, havailable]]
    exact ⟨havailable, fun quality hquality => by cases quality <;> simp_all [severity]⟩
  have hall := forall_noTrade_iff.mpr ⟨hmissing, hunavailable, hunverified, havailable⟩
  rw [(slotQuality_eq_noTrade_iff h).mpr hall]
  obtain ⟨status, hstatus⟩ := exists_mem_of_ne_nil _ h
  exact ⟨hall status hstatus ▸ hstatus, fun quality hquality => (congrArg severity (hall quality
    hquality)).le⟩

/-- The status that a bucket reports of the worst of its slots. -/
def reported : CoverageQuality → CoverageQuality
  | .available => .missing
  | .noTrade => .available
  | quality => quality

/-- `_worst_quality` reports the worst of the statuses. -/
theorem worstQuality_eq_reported (h : statuses ≠ []) :
    worstQuality statuses = reported (slotQuality statuses) := by
  by_cases hmissing : CandleQuality.missing ∈ statuses
  · simp [worstQuality, slotQuality, hmissing, reported]
  by_cases hunavailable : CandleQuality.unavailable ∈ statuses
  · simp [worstQuality, slotQuality, hmissing, hunavailable, reported]
  by_cases hunverified : CandleQuality.unverified ∈ statuses
  · simp [worstQuality, slotQuality, hmissing, hunavailable, hunverified, reported]
  by_cases havailable : CandleQuality.available ∈ statuses
  · simp [worstQuality, slotQuality, hmissing, hunavailable, hunverified, havailable, reported]
  · have hnoTrade := forall_noTrade_iff.mpr ⟨hmissing, hunavailable, hunverified, havailable⟩
    rw [worstQuality_eq_available_iff.mpr hnoTrade,
      (slotQuality_eq_noTrade_iff h).mpr hnoTrade, reported]

/-- The minute is the start of a candle. -/
def Observed (source : List SourceCandle) (minute : ℕ) : Prop :=
  ∃ candle ∈ source, candle.candleStartAt.microseconds = minute

/-- The quality of a minute without a candle: the worst of the statuses of the segments that cover
it, unverified if there is none. -/
def IsSlotQuality (coverage : List CoverageSlice) (minute : ℕ) (quality : CoverageQuality) : Prop :=
  IsWorst (CoveringStatus coverage minute (minute + 60000000)) quality ∨
    (∀ status, ¬ CoveringStatus coverage minute (minute + 60000000) status) ∧
      quality = .unverified

theorem isSlotQuality_iff {quality : CoverageQuality} : IsSlotQuality coverage minute quality ↔
      judgedStatus coverage minute (minute + 60000000) = quality := by
  by_cases hnone : ∀ status, ¬ CoveringStatus coverage minute (minute + 60000000) status
  · rw [judgedStatus_none hnone]
    constructor
    · rintro (hworst | ⟨-, rfl⟩)
      · exact absurd hworst.1 (hnone quality)
      · rfl
    · rintro rfl
      exact Or.inr ⟨hnone, rfl⟩
  · obtain ⟨status, hstatus⟩ := not_forall_not.mp hnone
    have hne := ne_nil_of_mem (mem_coveringStatuses.mpr hstatus)
    have hworst := (slotQuality_isWorst hne)
    rw [IsWorst.congr fun _ => mem_coveringStatuses] at hworst
    rw [judgedStatus, if_neg hne]
    constructor
    · rintro (hquality | ⟨hnone', -⟩)
      · exact hworst.unique hquality
      · exact absurd hstatus (hnone' status)
    · rintro rfl
      exact Or.inl hworst

theorem mem_missingSlotStatuses_iff {bucket : UtcTime} {unit : String}
    (h : missingSlotStatuses bucket size items coverage unit = .ok statuses) :
    status ∈ statuses ↔ ∃ offset < size,
      ¬ Taken items (bucket.microseconds + slotMicroseconds unit * offset) ∧
      judgedStatus coverage (bucket.microseconds + slotMicroseconds unit * offset)
        (bucket.microseconds + slotMicroseconds unit * offset + slotMicroseconds unit) =
          status := by
  obtain ⟨hback, hforth⟩ := missingSlotStatuses_spec h
  constructor
  · intro hstatus
    obtain ⟨offset, hoffset, slotStart, slotEnd, hstart, hend, hopen, rfl⟩ := hback status hstatus
    rw [hstart] at hopen
    refine ⟨offset, hoffset, hopen, ?_⟩
    rw [openSlotStatus_eq_judged, hend, hstart]
  · rintro ⟨offset, hoffset, hopen, rfl⟩
    obtain ⟨slotStart, slotEnd, hstart, hend, hmem⟩ := hforth offset hoffset hopen
    rwa [openSlotStatus_eq_judged, hend, hstart] at hmem

/-- The units whose buckets are made of minutes, with the minutes of a bucket. -/
def singleLevelUnits : List (String × ℕ) :=
  [("3m", 3), ("5m", 5), ("10m", 10), ("15m", 15), ("30m", 30), ("1h", 60), ("4h", 240),
    ("1d", 1440)]

/-- A minute of a bucket. -/
def BucketMinute (size : ℕ) (bucket : UtcTime) (minute : ℕ) : Prop :=
  60000000 ∣ minute ∧ bucket.microseconds ≤ minute ∧
    minute < bucket.microseconds + size * 60000000

/-- A minute of the bucket is without a candle and has the quality. -/
def OpenQuality (source : List SourceCandle) (coverage : List CoverageSlice) (size : ℕ)
    (bucket : UtcTime) (quality : CoverageQuality) : Prop :=
  ∃ minute, BucketMinute size bucket minute ∧ ¬ Observed source minute ∧
    IsSlotQuality coverage minute quality

/-- What a bucket says of its minutes. -/
structure BucketQuality (source : List SourceCandle) (coverage : List CoverageSlice) (size : ℕ)
    (view : CandleView) : Prop where
  complete_iff : view.completeness = .complete ↔ ∀ minute,
    BucketMinute size view.startedAt minute →
      Observed source minute ∨ IsSlotQuality coverage minute .noTrade
  quality : (∃ worst, IsWorst (OpenQuality source coverage size view.startedAt) worst ∧
      view.quality = reported worst) ∨
    (∀ quality, ¬ OpenQuality source coverage size view.startedAt quality) ∧
      view.quality = .available

section Buckets

variable {ar : Arithmetic} {sha256 : String → String} {source : List SourceCandle}
  {coverage : List CoverageSlice} {unit : String} {n : ℕ} {group : Group UtcTime Item}

theorem minute_dvd_key (hgroup : group ∈ cellGroups (minuteGrid n) (source.map .source)) :
    60000000 ∣ group.key.microseconds := by
  obtain ⟨member, -, hkey⟩ := mem_keys_cellGroups hgroup
  rw [← hkey]
  show 60000000 ∣ (minuteGrid n).start _
  rw [minuteGrid, Grid.fixed_start]
  exact (Dvd.intro_left _ rfl).trans (Nat.dvd_sub_mod _)

/-- The minutes of a bucket are its slots. -/
theorem bucketMinute_iff (hgroup : group ∈ cellGroups (minuteGrid n) (source.map .source)) :
    BucketMinute (n + 1) group.key minute ↔
      ∃ offset < n + 1, group.key.microseconds + 60000000 * offset = minute := by
  obtain ⟨start, hstart⟩ := minute_dvd_key hgroup
  constructor
  · rintro ⟨⟨k, rfl⟩, hfrom, hto⟩
    exact ⟨k - start, by omega, by omega⟩
  · rintro ⟨offset, hoffset, rfl⟩
    exact ⟨⟨start + offset, by omega⟩, by omega, by omega⟩

/-- A slot of the bucket is taken when it is the start of a candle. -/
theorem taken_minute_iff (hgroup : group ∈ cellGroups (minuteGrid n) (source.map .source))
    (hminute : BucketMinute (n + 1) group.key minute) :
    Taken group.items minute ↔ Observed source minute := by
  constructor
  · rintro ⟨item, hitem, rfl⟩
    rw [items_of_mem_grouped hgroup, mem_filter] at hitem
    obtain ⟨candle, hcandle, rfl⟩ := mem_map.mp hitem.1
    exact ⟨candle, hcandle, rfl⟩
  · rintro ⟨candle, hcandle, rfl⟩
    refine ⟨.source candle, ?_, rfl⟩
    rw [items_of_mem_grouped hgroup, mem_filter, decide_eq_true_iff, cellStart_eq_key_iff hgroup]
    obtain ⟨-, hfrom, hto⟩ := hminute
    refine ⟨mem_map_of_mem hcandle, hfrom, hto.trans_eq ?_⟩
    rw [minuteGrid, Grid.fixed_next]

theorem slots_of_group (hwhole : ∀ candle ∈ source, 60000000 ∣ candle.candleStartAt.microseconds)
    (hgroup : group ∈ cellGroups (minuteGrid n) (source.map .source)) :
    ∀ item ∈ group.items, ∃ offset < n + 1,
      item.startedAt.microseconds = group.key.microseconds + 60000000 * offset := by
  intro item hitem
  rw [items_of_mem_grouped hgroup, mem_filter, decide_eq_true_iff,
    cellStart_eq_key_iff hgroup, minuteGrid, Grid.fixed_next] at hitem
  obtain ⟨hmem, hfrom, hto⟩ := hitem
  obtain ⟨candle, hcandle, rfl⟩ := mem_map.mp hmem
  obtain ⟨offset, hoffset, hstart⟩ :=
    (bucketMinute_iff hgroup).mp ⟨hwhole candle hcandle, hfrom, hto⟩
  exact ⟨offset, hoffset, hstart.symm⟩

theorem nodup_of_group (hdistinct : (source.map SourceCandle.candleStartAt).Nodup)
    (hgroup : group ∈ cellGroups (minuteGrid n) (source.map .source)) :
    (group.items.map Item.startedAt).Nodup := by
  rw [items_of_mem_grouped hgroup]
  have hstarts : ((source.map Item.source).map Item.startedAt).Nodup := by
    rw [map_map]
    exact hdistinct
  exact hstarts.sublist (filter_sublist.map _)

/-- The statuses of a bucket are the qualities of its minutes without a candle. -/
theorem mem_statuses_iff (hgroup : group ∈ cellGroups (minuteGrid n) (source.map .source))
    (hslot : slotMicroseconds unit = 60000000) (h : missingSlotStatuses group.key (n + 1) (sortedBy
      Item.startedAt group.items) coverage unit = .ok statuses) :
    status ∈ statuses ↔ OpenQuality source coverage (n + 1) group.key status := by
  rw [mem_missingSlotStatuses_iff h, hslot]
  constructor
  · rintro ⟨offset, hoffset, hopen, hjudged⟩
    have hminute := (bucketMinute_iff hgroup).mpr ⟨offset, hoffset, rfl⟩
    refine ⟨_, hminute, ?_, isSlotQuality_iff.mpr hjudged⟩
    rw [← taken_minute_iff hgroup hminute]
    simpa only [Taken, mem_sortedBy] using hopen
  · rintro ⟨minute, hminute, hopen, hquality⟩
    obtain ⟨offset, hoffset, rfl⟩ := (bucketMinute_iff hgroup).mp hminute
    refine ⟨offset, hoffset, ?_, isSlotQuality_iff.mp hquality⟩
    rw [← taken_minute_iff hgroup hminute] at hopen
    simpa only [Taken, mem_sortedBy] using hopen

/-- The quality of a bucket of minutes is that of its slots. -/
theorem bucketQuality_of_group
    (hwhole : ∀ candle ∈ source, 60000000 ∣ candle.candleStartAt.microseconds)
    (hdistinct : (source.map SourceCandle.candleStartAt).Nodup)
    (hslot : slotMicroseconds unit = 60000000)
    (hgroup : group ∈ cellGroups (minuteGrid n) (source.map .source)) {view : CandleView}
    (h : aggregateGroup ar sha256 (n + 1) coverage unit group = .ok view) :
    BucketQuality source coverage (n + 1) view := by
  obtain ⟨statuses, hstatuses, h⟩ := bind_eq_ok.mp h
  obtain rfl := pure_eq_ok.mp h
  have hsize : requiredSlots (n + 1) group.key = n + 1 := if_neg n.succ_ne_zero
  rw [hsize] at hstatuses
  have hmem : ∀ status, status ∈ statuses ↔ OpenQuality source coverage (n + 1) group.key status :=
    fun status => mem_statuses_iff hgroup hslot hstatuses
  have hlength := length_missingSlotStatuses hstatuses
    (by simpa only [mem_sortedBy, hslot] using slots_of_group hwhole hgroup)
    ((nodup_map_sortedBy _).mpr (nodup_of_group hdistinct hgroup))
  constructor
  case complete_iff =>
    rw [hsize, bucketView_complete_iff (by rwa [cons_head_tail])]
    show _ ↔ ∀ minute, BucketMinute (n + 1) group.key minute → _
    constructor
    · intro hall minute hminute
      by_cases hobserved : Observed source minute
      · exact Or.inl hobserved
      · have hquality : IsSlotQuality coverage minute
            (judgedStatus coverage minute (minute + 60000000)) := isSlotQuality_iff.mpr rfl
        have hnoTrade := hall _ ((hmem _).mpr ⟨minute, hminute, hobserved, hquality⟩)
        exact Or.inr (hnoTrade ▸ hquality)
    · intro hall status hstatus
      obtain ⟨minute, hminute, hopen, hquality⟩ := (hmem status).mp hstatus
      have hnoTrade := (hall minute hminute).resolve_left hopen
      rw [isSlotQuality_iff] at hquality hnoTrade
      rw [← hquality, hnoTrade]
  case quality =>
    show (∃ worst, IsWorst (OpenQuality source coverage (n + 1) group.key) worst ∧
        worstQuality statuses = reported worst) ∨
      (∀ quality, ¬ OpenQuality source coverage (n + 1) group.key quality) ∧
        worstQuality statuses = .available
    by_cases hnil : statuses = []
    · right
      refine ⟨fun quality hopen => ?_, by rw [hnil]; rfl⟩
      rw [← hmem, hnil] at hopen
      exact not_mem_nil hopen
    · left
      refine ⟨slotQuality statuses, ?_, worstQuality_eq_reported hnil⟩
      rw [← IsWorst.congr hmem]
      exact slotQuality_isWorst hnil

/-- The units of one level are aggregated of the minutes. -/
theorem aggregateCandles_singleLevel (hunit : (unit, size) ∈ singleLevelUnits) (ar : Arithmetic)
    (sha256 : String → String) : slotMicroseconds unit = 60000000 ∧ ∃ n, size = n + 1 ∧
      ∀ source coverage, (∀ candle ∈ source, candle.candleUnit = "1m") →
        aggregateCandles ar sha256 unit source coverage =
          aggregateGroups ar sha256 (cellGroups (minuteGrid n) (source.map .source)) (n + 1)
            coverage unit := by
  have hcases : (∃ n, (unit, n) ∈ minuteUnitGrids ∧ size = n + 1) ∨ unit = "1d" ∧ size = 1440 := by
    simp only [singleLevelUnits, mem_cons, Prod.mk.injEq, not_mem_nil, or_false] at hunit
    rcases hunit with ⟨rfl, rfl⟩ | ⟨rfl, rfl⟩ | ⟨rfl, rfl⟩ | ⟨rfl, rfl⟩ | ⟨rfl, rfl⟩ | ⟨rfl, rfl⟩ |
      ⟨rfl, rfl⟩ | ⟨rfl, rfl⟩ <;> simp [minuteUnitGrids]
  rcases hcases with ⟨n, hgrid, rfl⟩ | ⟨rfl, rfl⟩
  · refine ⟨minuteUnit_slot hgrid, n, rfl, fun source coverage h1m => ?_⟩
    rw [aggregateCandles_minutes hgrid, (filter_minutes h1m).1,
      groupByBucket_eq (rollupBucketStart_eq (mem_rollupGrids hgrid)), ok_bind]
  · refine ⟨rfl, 1439, rfl, fun source coverage h1m => ?_⟩
    rw [aggregateCandles_day, aggregateDaily_eq ar sha256 h1m]
    rfl

theorem aggregateGroup_eq_of_perm {expectedSize : ℕ} {group' : Group UtcTime Item}
    (hkey : group.key = group'.key) (hitems : group.items.Perm group'.items)
    (hnodup : (group.items.map Item.startedAt).Nodup) :
    aggregateGroup ar sha256 expectedSize coverage unit group =
      aggregateGroup ar sha256 expectedSize coverage unit group' := by
  have hsorted : sortedBy Item.startedAt group.items = sortedBy Item.startedAt group'.items := by
    refine eq_of_pairwise_le ?_ (sortedBy_pairwise Item.startedAt _) (sortedBy_pairwise _ _) ?_
    · exact (sortedBy_perm _ _).trans (hitems.trans (sortedBy_perm _ _).symm)
    · exact ((((sortedBy_perm _ _).trans hitems.symm)).map _).nodup_iff.mpr hnodup
  unfold aggregateGroup
  simp only [hkey, hsorted]

theorem cellGroups_perm {grid : Grid} {items' : List Item} (hperm : items.Perm items')
    (hdistinct : (items.map Item.startedAt).Nodup) (expectedSize : ℕ) :
    aggregateGroups ar sha256 (cellGroups grid items) expectedSize coverage unit =
      aggregateGroups ar sha256 (cellGroups grid items') expectedSize coverage unit := by
  have hascending : ∀ items : List Item, ((sortedBy Group.key (cellGroups grid items)).map
      Group.key).Pairwise fun a b => a < b := by
    intro items
    rw [pairwise_map]
    exact sortedBy_lt_of_nodup (groups_grouped _).keys_nodup
  have hkeys : (sortedBy Group.key (cellGroups grid items)).map Group.key =
      (sortedBy Group.key (cellGroups grid items')).map Group.key := by
    refine eq_of_pairwise_lt id (hascending items) (hascending items') fun key => ?_
    simp only [((sortedBy_perm _ _).map _).mem_iff, cellGroups, mem_map_key_grouped, map_map]
    exact (hperm.map _).mem_iff
  apply mapM_eq_of_map_eq hkeys
  intro group hgroup group' hgroup' hkey
  rw [mem_sortedBy] at hgroup hgroup'
  have hitems := items_of_mem_grouped hgroup
  apply aggregateGroup_eq_of_perm hkey
  · rw [hitems, items_of_mem_grouped hgroup', hkey]
    exact hperm.filter _
  · rw [hitems]
    exact hdistinct.sublist (filter_sublist.map _)

/-- Candles and coverage may come in any order. -/
theorem aggregateCandles_perm (hunit : (unit, size) ∈ singleLevelUnits)
    {source' : List SourceCandle} {coverage' : List CoverageSlice}
    (h1m : ∀ candle ∈ source, candle.candleUnit = "1m")
    (hdistinct : (source.map SourceCandle.candleStartAt).Nodup) (hsource : source.Perm source')
    (hcoverage : coverage.Perm coverage') : aggregateCandles ar sha256 unit source' coverage' =
      aggregateCandles ar sha256 unit source coverage := by
  obtain ⟨-, n, rfl, heq⟩ := aggregateCandles_singleLevel hunit ar sha256
  have hlong : unit ∉ ["1w", "1M"] := by
    simp only [singleLevelUnits, mem_cons, Prod.mk.injEq, not_mem_nil, or_false] at hunit
    rcases hunit with ⟨rfl, -⟩ | ⟨rfl, -⟩ | ⟨rfl, -⟩ | ⟨rfl, -⟩ | ⟨rfl, -⟩ | ⟨rfl, -⟩ | ⟨rfl, -⟩ |
      ⟨rfl, -⟩ <;> decide
  rw [aggregateCandles_of_judgeAlike unit source' (judgeAlike_of_perm hcoverage.symm _)
    fun h => absurd h hlong, heq source coverage h1m,
    heq source' coverage fun candle hcandle => h1m candle (hsource.mem_iff.mpr hcandle)]
  refine (cellGroups_perm (hsource.map _) ?_ _).symm
  rw [map_map]
  exact hdistinct

end Buckets

/-- The candles of one level say of each bucket whether every minute of it has a candle or is
without trade, and the worst quality of the minutes without a candle; the order of the candles and
of the segments does not matter.
SOURCE: aggregation.py:52-92, 131-176, 270-309 -/
theorem bucketQualities (ar : Arithmetic) (sha256 : String → String) {unit : String} {size : ℕ}
    (hunit : (unit, size) ∈ singleLevelUnits) {source : List SourceCandle}
    (h1m : ∀ candle ∈ source, candle.candleUnit = "1m")
    (hwhole : ∀ candle ∈ source, 60000000 ∣ candle.candleStartAt.microseconds)
    (hdistinct : (source.map SourceCandle.candleStartAt).Nodup) (coverage : List CoverageSlice) :
    (∀ views, aggregateCandles ar sha256 unit source coverage = .ok views →
      ∀ view ∈ views, BucketQuality source coverage size view) ∧
    ∀ source' coverage', source.Perm source' → coverage.Perm coverage' →
      aggregateCandles ar sha256 unit source' coverage' =
        aggregateCandles ar sha256 unit source coverage := by
  obtain ⟨hslot, n, rfl, heq⟩ := aggregateCandles_singleLevel hunit ar sha256
  refine ⟨?_, fun source' coverage' hsource hcoverage =>
    aggregateCandles_perm hunit h1m hdistinct hsource hcoverage⟩
  intro views hviews view hview
  rw [heq source coverage h1m] at hviews
  obtain ⟨group, hgroup, hround⟩ := (mem_of_mapM_eq_ok hviews).1 view hview
  exact bucketQuality_of_group hwhole hdistinct hslot (mem_sortedBy.mp hgroup) hround

/-- The first minute of the calendar. -/
def firstCandle : List SourceCandle := [unitCandle ⟨0, UtcTime.zero_in_calendar⟩]

/-- The second minute is covered by a segment, the third is not. -/
def secondMinute : List CoverageSlice :=
  [⟨⟨60000000, by decide⟩, ⟨120000000, by decide⟩, .available⟩]

theorem firstCandle_run :
    ∃ view, aggregateCandles .exact id "3m" firstCandle secondMinute = .ok [view] ∧
      view.startedAt.microseconds = 0 ∧ view.quality = .unverified := by
  have hrun : (aggregateCandles .exact id "3m" firstCandle secondMinute).toOption.map (fun views =>
      views.map fun view => (view.startedAt.microseconds, view.quality)) =
        some [(0, .unverified)] := by
    decide +kernel
  obtain ⟨views, hviews, hmap⟩ := Option.map_eq_some_iff.mp hrun
  obtain ⟨view, rfl, hview⟩ := map_eq_singleton_iff.mp hmap
  obtain ⟨hstart, hquality⟩ := Prod.mk.inj hview
  exact ⟨view, mem_toOption.mp hviews, hstart, hquality⟩

theorem bucketQualities_firstCandle :
    ∃ view, aggregateCandles .exact id "3m" firstCandle secondMinute = .ok [view] ∧
      BucketQuality firstCandle secondMinute 3 view := by
  obtain ⟨view, hrun, -, -⟩ := firstCandle_run
  have hunit : ("3m", 3) ∈ singleLevelUnits := by simp [singleLevelUnits]
  have h1m : ∀ candle ∈ firstCandle, candle.candleUnit = "1m" := by
    simp [firstCandle, unitCandle]
  have hwhole : ∀ candle ∈ firstCandle, 60000000 ∣ candle.candleStartAt.microseconds := by
    simp [firstCandle, unitCandle]
  have hqualities := (bucketQualities .exact id hunit h1m hwhole (by decide) secondMinute).1
  exact ⟨view, hrun, hqualities [view] hrun view (mem_singleton_self view)⟩

/-- The second minute has the quality `available` and the third is unverified; counted as missing,
the second would be the worse of the two, but the bucket is reported unverified. -/
theorem quality_not_worst_counted :
    ¬ ∀ (ar : Arithmetic) (sha256 : String → String) (unit : String) (size : ℕ)
      (source : List SourceCandle) (coverage : List CoverageSlice) (views : List CandleView),
      (unit, size) ∈ singleLevelUnits → (∀ candle ∈ source, candle.candleUnit = "1m") →
      (∀ candle ∈ source, 60000000 ∣ candle.candleStartAt.microseconds) →
      (source.map SourceCandle.candleStartAt).Nodup →
      aggregateCandles ar sha256 unit source coverage = .ok views → ∀ view ∈ views,
        (∀ quality, OpenQuality source coverage size view.startedAt quality →
          quality = .noTrade) ∧ view.quality = .available ∨
        IsWorst (fun counted => ∃ quality, OpenQuality source coverage size view.startedAt quality ∧
          counted = if quality = .available then .missing else quality) view.quality := by
  intro hclaim
  obtain ⟨view, hrun, hstart, hquality⟩ := firstCandle_run
  have hview := hclaim .exact id "3m" 3 firstCandle secondMinute [view] (by simp [singleLevelUnits])
    (by simp [firstCandle, unitCandle]) (by simp [firstCandle, unitCandle]) (by decide) hrun view
    (mem_singleton_self view)
  have hsecond : OpenQuality firstCandle secondMinute 3 view.startedAt .available := by
    refine ⟨60000000, ⟨Dvd.intro 1 rfl, by omega, by omega⟩, ?_, ?_⟩
    · simp [Observed, firstCandle, unitCandle]
    · rw [isSlotQuality_iff]
      decide +kernel
  rcases hview with ⟨hnone, -⟩ | ⟨-, hworst⟩
  · exact absurd (hnone _ hsecond) (by decide)
  · have hle := hworst .missing ⟨.available, hsecond, rfl⟩
    rw [hquality] at hle
    exact absurd hle (by decide)

end Goodmoneying.Analysis
