import Goodmoneying.Analysis.CoverageSegmentation
import Goodmoneying.Analysis.TransitionRanges
import Goodmoneying.Library.Cellwise

/-!
# A candle depends on the rows of its bucket

`aggregate_candles` is a cellwise derivation: of rows in the order of time it makes a series with
one candle for every bucket in which a row starts, and a candle depends on the rows of its bucket
only (`aggregateCandles_cellwise`). It fails on no rows whose buckets end within the calendar
(`aggregateCandles_succeeds`).
-/

namespace Goodmoneying.Analysis.BucketCandles

open List Library
open Program
open Program.Aggregation

variable {unit : String} {rows : List SourceCandle} {n : ℕ} {grid : Grid}

/-- The units that are aggregated of candles of days as well. -/
def dailyUnits : List String := ["1d", "1w", "1M"]

/-- The bucket in which a source candle starts. -/
def sourceCell (grid : Grid) (candle : SourceCandle) : UtcTime :=
  cellStart grid candle.candleStartAt

/-- Rows as the queries of a unit give them: in the order of time, of minutes, and for the long
units of whole days. -/
structure ValidRows (unit : String) (rows : List SourceCandle) : Prop where
  ascending : rows.Pairwise fun a b => a.candleStartAt < b.candleStartAt
  candleUnit : ∀ c ∈ rows, c.candleUnit = "1m" ∨
    unit ∈ dailyUnits ∧ c.candleUnit = "1d" ∧ sourceCell dayGrid c = c.candleStartAt

theorem ValidRows.sublist {part : List SourceCandle} (h : ValidRows unit rows)
    (hpart : part.Sublist rows) : ValidRows unit part :=
  ⟨h.ascending.sublist hpart, fun c hc => h.candleUnit c (hpart.subset hc)⟩

variable (ar : Arithmetic) (sha256 : String → String)

/-- The candles of groups. -/
theorem aggregateGroups_cellwise (grid : Grid) (size : ℕ) (coverage : List CoverageSlice)
    (unit : String) :
    Cellwise (fun item : Item => cellStart grid item.startedAt) CandleView.startedAt (fun _ => True)
      (fun items => aggregateGroups ar sha256 (cellGroups grid items) size coverage unit) where
  ascending := fun _ hviews => startedAt_pairwise hviews
  mem_keys := by
    intro items views _ hviews bucket
    rw [mem_startedAt_iff hviews, mem_map]
  eq_of_cell := by
    intro items items' views views' _ _ hviews hviews' view view' hview hview' hkey hcell
    obtain ⟨group, hgroup, hround⟩ := (mem_of_mapM_eq_ok hviews).1 view hview
    obtain ⟨group', hgroup', hround'⟩ := (mem_of_mapM_eq_ok hviews').1 view' hview'
    have hstart := aggregateGroup_startedAt hround
    have hstart' := aggregateGroup_startedAt hround'
    have hitems := items_of_mem_grouped (mem_sortedBy.mp hgroup)
    have hitems' := items_of_mem_grouped (mem_sortedBy.mp hgroup')
    rw [← hstart, hcell] at hitems
    rw [← hstart', ← hkey] at hitems'
    have hsame : group = group' := by
      obtain ⟨key, members, hne⟩ := group
      obtain ⟨key', members', hne'⟩ := group'
      obtain rfl : key = key' := hstart.symm.trans (hkey.trans hstart')
      obtain rfl : members = members' := hitems.trans hitems'.symm
      rfl
    rw [hsame, hround'] at hround
    exact (Except.ok.inj hround).symm

theorem filter_minutes_eq_self (hrows : ValidRows unit rows) (hunit : unit ∉ dailyUnits) :
    rows.filter (·.candleUnit = "1m") = rows := by
  rw [filter_eq_self]
  intro c hc
  rcases hrows.candleUnit c hc with hminute | ⟨hdaily, -⟩
  · exact decide_eq_true hminute
  · exact absurd hdaily hunit

theorem minuteUnit_not_daily (hunit : (unit, n) ∈ minuteUnitGrids) : unit ∉ dailyUnits := by
  have hall : ∀ entry ∈ minuteUnitGrids, entry.1 ∉ dailyUnits := by decide
  exact hall _ hunit

theorem aggregateCandles_minuteUnit (hunit : (unit, n) ∈ minuteUnitGrids)
    (hrows : ValidRows unit rows) : aggregateCandles ar sha256 unit rows [] =
      aggregateGroups ar sha256 (cellGroups (minuteGrid n) (rows.map .source)) (n + 1) [] unit := by
  rw [aggregateCandles_minutes hunit, filter_minutes_eq_self hrows (minuteUnit_not_daily hunit),
    groupByBucket_eq (rollupBucketStart_eq (mem_rollupGrids hunit)), ok_bind]

/-- The daily candles that are source candles. -/
def sourceDays (rows : List SourceCandle) : List CandleView :=
  (rows.filter (·.candleUnit = "1d")).map (toCandleView ar sha256)

/-- The daily candles that minutes give. -/
def minuteDays (rows : List SourceCandle) (coverage : List CoverageSlice) :
    Except PythonError (List CandleView) :=
  aggregateGroups ar sha256 (cellGroups dayGrid ((rows.filter (·.candleUnit = "1m")).map .source))
    (24 * 60) coverage "1d"

theorem aggregateDaily_eq_merged (rows : List SourceCandle) (coverage : List CoverageSlice) :
    aggregateDaily ar sha256 rows coverage = (minuteDays ar sha256 rows coverage).map
      fun daily => mergedBy CandleView.startedAt daily (sourceDays ar sha256 rows) := by
  have hday : ("1d", dayGrid) ∈ rollupGrids := by simp [rollupGrids]
  rw [aggregateDaily, groupByBucket_eq (rollupBucketStart_eq hday), ok_bind]
  unfold minuteDays
  cases aggregateGroups ar sha256 _ (24 * 60) coverage "1d" with
  | error e => rfl
  | ok daily => simp [mergedBy, byKey, sourceDays, toCandleView, Except.map, Function.comp_def]

variable {ar sha256}

theorem mem_sourceDays {view : CandleView} : view ∈ sourceDays ar sha256 rows ↔
      ∃ c ∈ rows, c.candleUnit = "1d" ∧ toCandleView ar sha256 c = view := by
  simp [sourceDays, and_assoc]

theorem sourceDays_ascending (hrows : ValidRows unit rows) :
    (sourceDays ar sha256 rows).Pairwise fun a b => a.startedAt < b.startedAt := by
  rw [sourceDays, pairwise_map]
  exact hrows.ascending.filter _

/-- The rows of a day decide whether it is a source candle. -/
theorem mem_sourceDays_of_cell {rows' : List SourceCandle} (hrows : ValidRows unit rows)
    {view : CandleView} {day : UtcTime} (hday : view.startedAt = day) (hcell : rows.filter (fun c =>
      sourceCell dayGrid c = day) = rows'.filter fun c => sourceCell dayGrid c = day)
    (h : view ∈ sourceDays ar sha256 rows) : view ∈ sourceDays ar sha256 rows' := by
  obtain ⟨c, hc, hunit, rfl⟩ := mem_sourceDays.mp h
  have hmidnight : sourceCell dayGrid c = c.candleStartAt := by
    rcases hrows.candleUnit c hc with hminute | ⟨-, -, hmidnight⟩
    · simp [hminute] at hunit
    · exact hmidnight
  have hmem : c ∈ rows.filter fun c => sourceCell dayGrid c = day :=
    mem_filter.mpr ⟨hc, decide_eq_true (hmidnight.trans hday)⟩
  rw [hcell] at hmem
  exact mem_sourceDays.mpr ⟨c, mem_of_mem_filter hmem, hunit, rfl⟩

variable (ar sha256)

/-- The candles that minutes give. -/
theorem minuteDays_cellwise (coverage : List CoverageSlice) :
    Cellwise (fun c => cellStart dayGrid (Item.source c).startedAt) CandleView.startedAt
      (fun _ => True) fun rows : List SourceCandle =>
        aggregateGroups ar sha256 (cellGroups dayGrid (rows.map .source)) (24 * 60) coverage "1d" :=
  (aggregateGroups_cellwise ar sha256 dayGrid (24 * 60) coverage "1d").comap .source

/-- The candles of days, of minutes and of whole days. -/
theorem aggregateDaily_cellwise (unit : String) (coverage : List CoverageSlice) :
    Cellwise (sourceCell dayGrid) CandleView.startedAt (ValidRows unit)
      (fun rows => aggregateDaily ar sha256 rows coverage) where
  ascending := by
    intro rows views hrows hviews
    rw [aggregateDaily_eq_merged] at hviews
    obtain ⟨daily, hdaily, rfl⟩ := map_eq_ok.mp hviews
    exact pairwise_mergedBy (startedAt_pairwise hdaily) (sourceDays_ascending hrows)
  mem_keys := by
    intro rows views hrows hviews day
    rw [aggregateDaily_eq_merged] at hviews
    obtain ⟨daily, hdaily, rfl⟩ := map_eq_ok.mp hviews
    rw [mem_keys_mergedBy (startedAt_pairwise hdaily) (sourceDays_ascending hrows),
      (minuteDays_cellwise ar sha256 coverage).mem_keys trivial hdaily]
    simp only [mem_map, mem_filter, mem_sourceDays]
    constructor
    · rintro (⟨c, ⟨hc, -⟩, rfl⟩ | ⟨view, ⟨c, hc, hunit, rfl⟩, rfl⟩)
      · exact ⟨c, hc, rfl⟩
      · rcases hrows.candleUnit c hc with hminute | ⟨-, -, hmidnight⟩
        · simp [hminute] at hunit
        · exact ⟨c, hc, hmidnight⟩
    · rintro ⟨c, hc, rfl⟩
      rcases hrows.candleUnit c hc with hminute | ⟨-, hunit, hmidnight⟩
      · exact Or.inl ⟨c, ⟨hc, decide_eq_true hminute⟩, rfl⟩
      · exact Or.inr ⟨_, ⟨c, hc, hunit, rfl⟩, hmidnight.symm⟩
  eq_of_cell := by
    intro rows rows' views views' hrows hrows' hviews hviews' view view' hview hview' hday hcell
    rw [aggregateDaily_eq_merged] at hviews hviews'
    obtain ⟨daily, hdaily, rfl⟩ := map_eq_ok.mp hviews
    obtain ⟨daily', hdaily', rfl⟩ := map_eq_ok.mp hviews'
    have hsource : (sourceDays ar sha256 rows).Pairwise fun a b => a.startedAt < b.startedAt :=
      sourceDays_ascending hrows
    have hsource' : (sourceDays ar sha256 rows').Pairwise fun a b => a.startedAt < b.startedAt :=
      sourceDays_ascending hrows'
    rw [mem_mergedBy (startedAt_pairwise hdaily) hsource] at hview
    rw [mem_mergedBy (startedAt_pairwise hdaily') hsource'] at hview'
    rcases hview with hview | ⟨hview, hfresh⟩
    · -- the day is a source candle of both
      have hmem := mem_sourceDays_of_cell hrows rfl hcell hview
      rcases hview' with hview' | ⟨-, hfresh'⟩
      · exact eq_of_key_eq hsource' hmem hview' hday
      · exact absurd (hday ▸ mem_map_of_mem hmem) hfresh'
    · rcases hview' with hview' | ⟨hview', -⟩
      · have hmem := mem_sourceDays_of_cell hrows' hday.symm hcell.symm hview'
        exact absurd (hday.symm ▸ mem_map_of_mem hmem) hfresh
      · refine (minuteDays_cellwise ar sha256 coverage).eq_of_cell trivial trivial hdaily hdaily'
          hview hview' hday ?_
        have hcomm : ∀ rows : List SourceCandle, (rows.filter (·.candleUnit = "1m")).filter
            (fun c => cellStart dayGrid (Item.source c).startedAt = view.startedAt) =
            (rows.filter fun c => sourceCell dayGrid c = view.startedAt).filter
              (·.candleUnit = "1m") := by
          intro rows
          rw [filter_filter, filter_filter]
          exact filter_congr fun c _ => Bool.and_comm _ _
        rw [hcomm rows, hcomm rows', hcell]

/-- The three ways in which candles are derived. -/
theorem derivedGrids_cases (hunit : (unit, grid) ∈ derivedGrids) :
    (∃ n, (unit, n) ∈ minuteUnitGrids ∧ grid = minuteGrid n) ∨ unit = "1d" ∧ grid = dayGrid ∨
      ∃ size, (unit, grid, size) ∈ secondStepUnits := by
  simp only [derivedGrids, rollupGrids, tail_cons, mem_cons, Prod.mk.injEq,
    not_mem_nil, or_false] at hunit
  rcases hunit with ⟨rfl, rfl⟩ | ⟨rfl, rfl⟩ | ⟨rfl, rfl⟩ | ⟨rfl, rfl⟩ | ⟨rfl, rfl⟩ | ⟨rfl, rfl⟩ |
    ⟨rfl, rfl⟩ | ⟨rfl, rfl⟩ | ⟨rfl, rfl⟩ | ⟨rfl, rfl⟩
  · exact Or.inl ⟨2, by simp [minuteUnitGrids], rfl⟩
  · exact Or.inl ⟨4, by simp [minuteUnitGrids], rfl⟩
  · exact Or.inl ⟨9, by simp [minuteUnitGrids], rfl⟩
  · exact Or.inl ⟨14, by simp [minuteUnitGrids], rfl⟩
  · exact Or.inl ⟨29, by simp [minuteUnitGrids], rfl⟩
  · exact Or.inl ⟨59, by simp [minuteUnitGrids], rfl⟩
  · exact Or.inl ⟨239, by simp [minuteUnitGrids], rfl⟩
  · exact Or.inr (Or.inl ⟨rfl, rfl⟩)
  · exact Or.inr (Or.inr ⟨7, by simp [secondStepUnits]⟩)
  · exact Or.inr (Or.inr ⟨0, by simp [secondStepUnits]⟩)

theorem secondStep_cellwise {size : ℕ} (hunit : (unit, grid, size) ∈ secondStepUnits)
    (coverage : List CoverageSlice) :
    Cellwise (sourceCell grid) CandleView.startedAt (ValidRows unit)
      (fun rows => aggregateCandles ar sha256 unit rows coverage) := by
  have hviews : Cellwise (fun view : CandleView => cellStart grid view.startedAt)
      CandleView.startedAt (fun _ => True) (fun daily : List CandleView =>
        aggregateGroups ar sha256 (cellGroups grid (daily.map .view)) size coverage unit) :=
    (aggregateGroups_cellwise ar sha256 grid size coverage unit).comap .view
  have hboth := (aggregateDaily_cellwise ar sha256 unit coverage).bind hviews
  have hcell : (fun c => cellStart grid (sourceCell dayGrid c)) = sourceCell grid := by
    funext c
    exact cellStart_nested (secondStep_nested hunit) c.candleStartAt
  rw [hcell] at hboth
  exact hboth.congr fun rows hrows => ⟨hrows, aggregateCandles_eq ar sha256 hunit rows coverage⟩

/-- A candle depends on the rows of its bucket. -/
theorem aggregateCandles_cellwise (hunit : (unit, grid) ∈ derivedGrids) :
    Cellwise (sourceCell grid) CandleView.startedAt (ValidRows unit)
      (fun rows => aggregateCandles ar sha256 unit rows []) := by
  rcases derivedGrids_cases hunit with ⟨n, hminute, rfl⟩ | ⟨rfl, rfl⟩ | ⟨size, hlong⟩
  · have hrows : Cellwise (sourceCell (minuteGrid n)) CandleView.startedAt (fun _ => True)
        (fun rows : List SourceCandle => aggregateGroups ar sha256
          (cellGroups (minuteGrid n) (rows.map .source)) (n + 1) [] unit) :=
      (aggregateGroups_cellwise ar sha256 (minuteGrid n) (n + 1) [] unit).comap .source
    exact hrows.congr fun rows hvalid =>
      ⟨trivial, aggregateCandles_minuteUnit ar sha256 hminute hvalid⟩
  · exact (aggregateDaily_cellwise ar sha256 "1d" []).congr fun rows hvalid =>
      ⟨hvalid, aggregateCandles_day ar sha256 rows []⟩
  · exact secondStep_cellwise ar sha256 hlong []

/-- The slots of a bucket of minutes fill it. -/
theorem minute_slots (hunit : (unit, n) ∈ minuteUnitGrids) (t : UtcTime) :
    (cellStart (minuteGrid n) t).microseconds +
      slotMicroseconds unit * requiredSlots (n + 1) (cellStart (minuteGrid n) t) =
        (minuteGrid n).next ((minuteGrid n).start t.microseconds) := by
  have hlength : 60000000 * (n + 1) = (n + 1) * 60000000 := mul_comm _ _
  rw [minuteUnit_slot hunit, requiredSlots, if_neg (Nat.succ_ne_zero n), hlength]
  rfl

theorem aggregateDaily_succeeds (coverage : List CoverageSlice) (hroom : ∀ c ∈ rows, dayGrid.next
      (dayGrid.start c.candleStartAt.microseconds) < maxOrdinal * dayMicroseconds) :
    ∃ views, aggregateDaily ar sha256 rows coverage = .ok views := by
  have hminutes : ∃ daily, minuteDays ar sha256 rows coverage = .ok daily := by
    apply aggregateGroups_isOk
    intro group hgroup
    obtain ⟨item, hitem, hkey⟩ := mem_keys_cellGroups hgroup
    obtain ⟨c, hc, rfl⟩ := mem_map.mp hitem
    rw [← hkey, day_slots]
    exact hroom c (mem_of_mem_filter hc)
  obtain ⟨daily, hdaily⟩ := hminutes
  exact ⟨_, by rw [aggregateDaily_eq_merged, hdaily]; rfl⟩

/-- No aggregation fails whose buckets end within the calendar. -/
theorem aggregateCandles_succeeds (hunit : (unit, grid) ∈ derivedGrids)
    (hrows : ValidRows unit rows) (hroom : ∀ c ∈ rows, grid.next (grid.start
      c.candleStartAt.microseconds) < maxOrdinal * dayMicroseconds) :
    ∃ views, aggregateCandles ar sha256 unit rows [] = .ok views := by
  rcases derivedGrids_cases hunit with ⟨n, hminute, rfl⟩ | ⟨rfl, rfl⟩ | ⟨size, hlong⟩
  · rw [aggregateCandles_minuteUnit ar sha256 hminute hrows]
    apply aggregateGroups_isOk
    intro group hgroup
    obtain ⟨item, hitem, hkey⟩ := mem_keys_cellGroups hgroup
    obtain ⟨c, hc, rfl⟩ := mem_map.mp hitem
    rw [← hkey, minute_slots hminute]
    exact hroom c hc
  · rw [aggregateCandles_day]
    exact aggregateDaily_succeeds ar sha256 [] hroom
  · have hnested := secondStep_nested hlong
    obtain ⟨daily, hdaily⟩ := aggregateDaily_succeeds ar sha256 [] fun c hc =>
      (hnested.next_le c.candleStartAt.microseconds).trans_lt (hroom c hc)
    rw [aggregateCandles_eq ar sha256 hlong, hdaily, ok_bind]
    apply aggregateGroups_isOk
    intro group hgroup
    obtain ⟨item, hitem, hkey⟩ := mem_keys_cellGroups hgroup
    obtain ⟨view, hview, rfl⟩ := mem_map.mp hitem
    have hkeys := (aggregateDaily_cellwise ar sha256 unit []).mem_keys hrows hdaily view.startedAt
    obtain ⟨c, hc, hday⟩ := mem_map.mp (hkeys.mp (mem_map_of_mem hview))
    have hcell : group.key = cellStart grid c.candleStartAt := by
      rw [← hkey, ← cellStart_nested hnested c.candleStartAt]
      exact congrArg (cellStart grid) hday.symm
    rw [hcell, secondStep_slots hlong]
    exact hroom c hc

end Goodmoneying.Analysis.BucketCandles
