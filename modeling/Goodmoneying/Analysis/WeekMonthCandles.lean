import Goodmoneying.Library.OhlcBar
import Goodmoneying.Analysis.RollupBuckets

/-!
# Weekly and monthly candles

The candle of a bucket carries the bar of its items (`aggregateGroup_bar`). The candles of
weeks and months are made of daily candles; since days nest in both, and bars compose, they
carry the bars of the minutes themselves (`aggregateCandles_weekMonth`).
-/

namespace Goodmoneying.Analysis

open List Library
open Program
open Program.Aggregation

variable {ar : Arithmetic} {sha256 : String → String} {expectedSize size : ℕ}
  {coverage : List CoverageSlice} {unit : String} {group : Group UtcTime Item}
  {groups : List (Group UtcTime Item)} {views daily : List CandleView} {grid : Grid}
  {source : List SourceCandle} {items : List Item}
variable {view : CandleView} {size' : ℕ} {unit' : String} {bucket : UtcTime}

/-- The bars of candles. -/
abbrev Bar := OhlcBar ℚ UtcTime ℤ

/-- The bar of a candle of a minute. -/
def sourceBar (candle : SourceCandle) : Bar where
  open_ := candle.openPrice
  high := candle.highPrice
  low := candle.lowPrice
  close := candle.closePrice
  volume := candle.tradeVolume
  tradeAmount := candle.tradeAmount
  sourceAsOf := some candle.collectedAt
  knowledgeAt := some (candle.knowledgeAt.getD candle.collectedAt)
  inputs := candle.revisionId.toFinset

/-- The bar that a view shows. -/
def viewBar (view : CandleView) : Bar where
  open_ := view.open_
  high := view.high
  low := view.low
  close := view.close
  volume := view.volume
  tradeAmount := view.tradeAmount
  sourceAsOf := view.sourceAsOf
  knowledgeAt := view.knowledgeAt
  inputs := view.inputRevisionIds.toFinset

/-- The bar of what a bucket is made of. -/
def itemBar (item : Item) : Bar where
  open_ := item.open_
  high := item.high
  low := item.low
  close := item.close
  volume := item.volume
  tradeAmount := item.tradeAmount
  sourceAsOf := item.sourceAsOf
  knowledgeAt := item.knowledgeAt
  inputs := item.revisionIds.toFinset

theorem itemBar_source (candle : SourceCandle) : itemBar (.source candle) = sourceBar candle := by
  ext1 <;> try rfl
  cases h : candle.revisionId <;> simp [itemBar, sourceBar, Item.revisionIds, h]

/-- Without rounding a sum is the fold of the addition. -/
theorem exact_sum_cons (value : ℚ) (values : List ℚ) :
    Arithmetic.exact.sum (value :: values) = values.foldl (· + ·) value := by
  have hfirst : Arithmetic.exact.add 0 value = value := zero_add value
  rw [Arithmetic.sum, foldl_cons, hfirst]
  rfl

/-- The candle of a bucket shows the bar of its items. -/
theorem viewBar_bucketView (sha256 : String → String) (bucket : UtcTime) (requiredSize : ℕ)
    (first : Item) (rest : List Item) (missingStatuses : List CoverageQuality) :
    viewBar (bucketView .exact sha256 bucket requiredSize first rest missingStatuses) =
      OhlcBar.fold (itemBar first) (rest.map itemBar) := by
  ext1
  · rw [OhlcBar.fold_open]
    rfl
  · rw [OhlcBar.fold_high, map_map]
    rfl
  · rw [OhlcBar.fold_low, map_map]
    rfl
  · rw [OhlcBar.fold_close, getLastD_map]
    rfl
  · rw [OhlcBar.fold_volume, map_map]
    exact exact_sum_cons _ _
  · rw [OhlcBar.fold_tradeAmount, map_map]
    exact exact_sum_cons _ _
  · rw [OhlcBar.fold_sourceAsOf, map_map]
    exact (foldl_latest Item.sourceAsOf (first :: rest) none).symm
  · rw [OhlcBar.fold_knowledgeAt, map_map]
    exact (foldl_latest Item.knowledgeAt (first :: rest) none).symm
  · ext id
    rw [OhlcBar.mem_fold_inputs, ← map_cons]
    simp [viewBar, bucketView, itemBar]

/-- A round gives the candle of its bucket. -/
theorem aggregateGroup_startedAt
    (h : aggregateGroup ar sha256 expectedSize coverage unit group = .ok view) :
    view.startedAt = group.key := by
  obtain ⟨missingStatuses, -, h⟩ := bind_eq_ok.mp h
  obtain rfl := pure_eq_ok.mp h
  rfl

/-- The bar of the candle that a round gives. -/
theorem aggregateGroup_bar
    (h : aggregateGroup .exact sha256 expectedSize coverage unit group = .ok view) :
    view.startedAt = group.key ∧
      (viewBar view : WithOne Bar) =
        OhlcBar.barOf ((sortedBy Item.startedAt group.items).map itemBar) := by
  obtain ⟨missingStatuses, -, h⟩ := bind_eq_ok.mp h
  obtain rfl := pure_eq_ok.mp h
  refine ⟨rfl, ?_⟩
  rw [viewBar_bucketView, ← OhlcBar.barOf_cons, ← map_cons, cons_head_tail]

/-- The bars of the candles that the loop gives, under the buckets in ascending order. -/
theorem aggregateGroups_bars
    (h : aggregateGroups .exact sha256 groups expectedSize coverage unit = .ok views) :
    views.map (fun view => (view.startedAt, (viewBar view : WithOne Bar))) =
      (sortedBy Group.key groups).map fun group =>
        (group.key, OhlcBar.barOf ((sortedBy Item.startedAt group.items).map itemBar)) := by
  apply map_eq_of_mapM_eq_ok h
  intro group _ view hview
  obtain ⟨hstart, hbar⟩ := aggregateGroup_bar hview
  rw [hstart, hbar]

/-- Every key of a dictionary gives one candle, in ascending order. -/
theorem aggregateGroups_startedAt
    (h : aggregateGroups ar sha256 groups expectedSize coverage unit = .ok views) :
    views.map CandleView.startedAt = (sortedBy Group.key groups).map Group.key := by
  apply map_eq_of_mapM_eq_ok h
  intro group _ view hview
  exact aggregateGroup_startedAt hview

/-! ## The dictionaries -/

/-- The items under the cells of a grid. -/
def cellGroups (grid : Grid) (items : List Item) : List (Group UtcTime Item) :=
  grouped (items.map fun item => (cellStart grid item.startedAt, item))

/-- The units of the second step, with their grids and the sizes they are called with. -/
def secondStepUnits : List (String × Grid × ℕ) :=
  [("1w", weekGrid, 7), ("1M", calendarMonthGrid, 0)]

/-- Grouping by the start of a cell is grouping by the cells. -/
theorem groupByBucket_eq {bucketOf : UtcTime → Except PythonError UtcTime}
    (h : ∀ t, bucketOf t = .ok (cellStart grid t)) (items : List Item) :
    groupByBucket bucketOf items = .ok (cellGroups grid items) := by
  have hkeyed : items.mapM (fun item => (·, item) <$> bucketOf item.startedAt) =
      (.ok (items.map fun item => (cellStart grid item.startedAt, item)) :
        Except PythonError (List (UtcTime × Item))) := by
    simp only [h]
    exact mapM_pure
  rw [groupByBucket, hkeyed]
  rfl

theorem filter_minutes (h1m : ∀ c ∈ source, c.candleUnit = "1m") :
    source.filter (·.candleUnit = "1m") = source ∧ source.filter (·.candleUnit = "1d") = [] := by
  constructor
  · rw [filter_eq_self]
    intro c hc
    simp [h1m c hc]
  · rw [filter_eq_nil_iff]
    intro c hc
    simp [h1m c hc]

theorem startedAt_pairwise
    (h : aggregateGroups ar sha256 (cellGroups grid items) expectedSize coverage unit = .ok views) :
    views.Pairwise fun a b => a.startedAt < b.startedAt := by
  rw [← pairwise_map (f := CandleView.startedAt) (R := (· < ·)), aggregateGroups_startedAt h,
    pairwise_map]
  exact sortedBy_lt_of_nodup (groups_grouped _).keys_nodup

/-- Without daily source candles the daily candles are those of the minutes. -/
theorem aggregateDaily_eq (ar : Arithmetic) (sha256 : String → String)
    (h1m : ∀ c ∈ source, c.candleUnit = "1m") (coverage : List CoverageSlice) :
    aggregateDaily ar sha256 source coverage =
      aggregateGroups ar sha256 (cellGroups dayGrid (source.map .source)) (24 * 60) coverage
        "1d" := by
  obtain ⟨hminutes, hdays⟩ := filter_minutes h1m
  have hday : ("1d", dayGrid) ∈ rollupGrids := by simp [rollupGrids]
  have hgroups := groupByBucket_eq (rollupBucketStart_eq hday) (source.map Item.source)
  rw [aggregateDaily, hminutes, hdays, hgroups, ok_bind]
  cases hrun : aggregateGroups ar sha256 (cellGroups dayGrid (source.map .source)) (24 * 60)
      coverage "1d" with
  | error e => rfl
  | ok daily =>
    have hascending := startedAt_pairwise hrun
    have hkeys : ((daily.map fun item => (item.startedAt, item)).map Prod.fst).Nodup := by
      rw [map_map, List.Nodup, pairwise_map]
      exact hascending.imp fun hlt => hlt.ne
    have hdict := setItems_of_nodup [] hkeys
    rw [ok_bind, hdict, nil_append, map_nil]
    have hsorted : sortedBy Prod.fst (daily.map fun item => (item.startedAt, item)) =
        daily.map fun item => (item.startedAt, item) := by
      apply sortedBy_eq_self
      rw [pairwise_map]
      exact hascending.imp fun hlt => hlt.le
    have hvalues : (daily.map fun item => (item.startedAt, item)).map Prod.snd = daily := by
      rw [map_map]
      exact map_id _
    show Except.ok ((sortedBy Prod.fst (daily.map fun item => (item.startedAt, item))).map
      Prod.snd) = _
    rw [hsorted, hvalues]

/-- The days are those of the daily step. -/
theorem aggregateCandles_day (ar : Arithmetic) (sha256 : String → String)
    (source : List SourceCandle) (coverage : List CoverageSlice) :
    aggregateCandles ar sha256 "1d" source coverage = aggregateDaily ar sha256 source coverage := by
  simp [aggregateCandles, aliases, aggregationUnits, minuteUnits, hourUnits, lookup_cons]

/-- Weeks and months are aggregated of the daily candles. -/
theorem aggregateCandles_eq (ar : Arithmetic) (sha256 : String → String)
    (hunit : (unit, grid, size) ∈ secondStepUnits) (source : List SourceCandle)
    (coverage : List CoverageSlice) :
    aggregateCandles ar sha256 unit source coverage = (do
      let daily ← aggregateDaily ar sha256 source coverage
      aggregateGroups ar sha256 (cellGroups grid (daily.map .view)) size coverage unit) := by
  have hweek : ∀ items, groupByBucket weekStart items = .ok (cellGroups weekGrid items) :=
    groupByBucket_eq weekStart_eq
  have hmonth : ∀ items, groupByBucket (fun t => pure t.firstOfMonth) items =
      .ok (cellGroups calendarMonthGrid items) :=
    groupByBucket_eq fun t => congrArg Except.ok (firstOfMonth_eq t)
  simp only [secondStepUnits, mem_cons, Prod.mk.injEq, not_mem_nil, or_false] at hunit
  rcases hunit with ⟨rfl, rfl, rfl⟩ | ⟨rfl, rfl, rfl⟩
  · simp [aggregateCandles, aliases, aggregationUnits, minuteUnits, hourUnits, lookup_cons, hweek]
  · simp [aggregateCandles, aliases, aggregationUnits, minuteUnits, hourUnits, lookup_cons, hmonth]

/-! ## Composition of the two steps -/

/-- Folding candles directly, in the order of time. -/
def directFold (candles : List SourceCandle) : Option Bar :=
  match sortedBy SourceCandle.candleStartAt candles with
  | [] => none
  | first :: rest => some (OhlcBar.fold (sourceBar first) (rest.map sourceBar))

/-- The candles that start in the cell beginning at `bucket`. -/
def candlesIn (grid : Grid) (bucket : UtcTime) (source : List SourceCandle) : List SourceCandle :=
  source.filter fun candle => bucket ≤ candle.candleStartAt ∧
    candle.candleStartAt.microseconds < grid.next bucket.microseconds

theorem directFold_eq_some {candles : List SourceCandle} {bar : Bar} (h : (bar : WithOne Bar) =
      OhlcBar.barOf ((sortedBy SourceCandle.candleStartAt candles).map sourceBar)) :
    directFold candles = some bar := by
  unfold directFold
  cases hsorted : sortedBy SourceCandle.candleStartAt candles with
  | nil =>
    rw [hsorted] at h
    exact absurd h WithOne.coe_ne_one
  | cons first rest =>
    rw [hsorted, map_cons, OhlcBar.barOf_cons] at h
    exact congrArg some (WithOne.coe_inj.mp h).symm

theorem candlesIn_cellStart (grid : Grid) (t : UtcTime) (source : List SourceCandle) :
    candlesIn grid (cellStart grid t) source =
      source.filter fun candle => cellStart grid candle.candleStartAt = cellStart grid t := by
  apply filter_congr
  intro candle _
  exact decide_eq_decide.mpr cellStart_eq_iff.symm

theorem cellStart_nested (h : dayGrid.Nested grid) (t : UtcTime) :
    cellStart grid (cellStart dayGrid t) = cellStart grid t :=
  UtcTime.ext (h _)

/-- The bars of daily candles in a wider cell compose to the bar of the minutes in it. -/
theorem prod_daily_bars (hdistinct : (source.map SourceCandle.candleStartAt).Nodup) (hdaily :
      aggregateGroups .exact sha256 (cellGroups dayGrid (source.map .source)) size coverage unit =
      .ok daily) (hnested : dayGrid.Nested grid) (bucket : UtcTime) :
    ((daily.filter fun view => cellStart grid view.startedAt = bucket).map fun view =>
        (viewBar view : WithOne Bar)).prod =
      OhlcBar.barOf ((sortedBy SourceCandle.candleStartAt
        (source.filter fun candle => cellStart grid candle.candleStartAt = bucket)).map
          sourceBar) := by
  let q : UtcTime → Bool := fun day => cellStart grid day = bucket
  have hpairs := congrArg (fun pairs => ((pairs.filter fun pair => q pair.1).map Prod.snd).prod)
    (aggregateGroups_bars hdaily)
  simp only [filter_map, map_map] at hpairs
  have hstarts : ((source.map Item.source).map Item.startedAt).Nodup := by
    rwa [map_map]
  have hminutes := flatMap_sorted_groups (fun item : Item => cellStart dayGrid item.startedAt)
    Item.startedAt hstarts
    (fun a b hlt => by
      by_contra hle
      exact absurd hlt (not_lt.mpr (dayGrid.start_mono (not_lt.mp hle)))) q
  calc _ = (((sortedBy Group.key (cellGroups dayGrid (source.map .source))).filter fun group =>
        q group.key).map fun group => OhlcBar.barOf
          ((sortedBy Item.startedAt group.items).map itemBar)).prod := hpairs
    _ = _ := by
      rw [OhlcBar.barOf_flatMap, cellGroups, hminutes, filter_map, sortedBy_map, map_map]
      simp only [q, Function.comp_def, itemBar_source, Item.startedAt, cellStart_nested hnested]

/-- The candles of the second step show the bars of the minutes in their cells. -/
theorem secondStep_bars (hdistinct : (source.map SourceCandle.candleStartAt).Nodup) (hdaily :
      aggregateGroups .exact sha256 (cellGroups dayGrid (source.map .source)) size coverage unit =
      .ok daily) (hnested : dayGrid.Nested grid) (hviews : aggregateGroups .exact sha256 (cellGroups
      grid (daily.map .view)) size' coverage unit' = .ok views) :
    ∀ view ∈ views, (viewBar view : WithOne Bar) =
      OhlcBar.barOf ((sortedBy SourceCandle.candleStartAt
        (source.filter fun candle => cellStart grid candle.candleStartAt = view.startedAt)).map
          sourceBar) := by
  intro view hview
  obtain ⟨group, hgroup, hround⟩ := (mem_of_mapM_eq_ok hviews).1 view hview
  obtain ⟨hstart, hbar⟩ := aggregateGroup_bar hround
  have hitems := items_of_mem_grouped (mem_sortedBy.mp hgroup)
  rw [filter_map] at hitems
  have hsorted : sortedBy Item.startedAt group.items = group.items := by
    apply sortedBy_eq_self
    rw [hitems, pairwise_map]
    exact ((startedAt_pairwise hdaily).filter _).imp fun hlt => hlt.le
  rw [hbar, hsorted, hitems, hstart, ← prod_daily_bars hdistinct hdaily hnested, OhlcBar.barOf,
    map_map, map_map]
  rfl

/-- The candles are those of the cells in which an item starts. -/
theorem mem_startedAt_iff
    (h : aggregateGroups ar sha256 (cellGroups grid items) expectedSize coverage unit = .ok views) :
    bucket ∈ views.map CandleView.startedAt ↔
      ∃ item ∈ items, cellStart grid item.startedAt = bucket := by
  rw [aggregateGroups_startedAt h, ((sortedBy_perm _ _).map _).mem_iff, cellGroups,
    mem_map_key_grouped, map_map]
  exact mem_map

/-- The daily candles are those of the days in which a minute starts. -/
theorem mem_daily_iff (hdaily : aggregateGroups ar sha256 (cellGroups dayGrid (source.map .source))
      size coverage unit = .ok daily) {day : UtcTime} : day ∈ daily.map CandleView.startedAt ↔
      ∃ candle ∈ source, cellStart dayGrid candle.candleStartAt = day := by
  rw [mem_startedAt_iff hdaily]
  constructor
  · rintro ⟨item, hitem, hday⟩
    obtain ⟨candle, hcandle, rfl⟩ := mem_map.mp hitem
    exact ⟨candle, hcandle, hday⟩
  · rintro ⟨candle, hcandle, hday⟩
    exact ⟨.source candle, mem_map_of_mem hcandle, hday⟩

/-- The candles of the second step are those of the cells in which a minute starts. -/
theorem secondStep_buckets (hdaily : aggregateGroups ar sha256 (cellGroups dayGrid (source.map
      .source)) size coverage unit = .ok daily) (hnested : dayGrid.Nested grid) (hviews :
      aggregateGroups ar sha256 (cellGroups grid (daily.map .view)) size' coverage unit' = .ok
      views) (bucket : UtcTime) : bucket ∈ views.map CandleView.startedAt ↔
      ∃ candle ∈ source, cellStart grid candle.candleStartAt = bucket := by
  rw [mem_startedAt_iff hviews]
  constructor
  · rintro ⟨item, hitem, rfl⟩
    obtain ⟨view, hview, rfl⟩ := mem_map.mp hitem
    obtain ⟨candle, hcandle, hday⟩ := (mem_daily_iff hdaily).mp (mem_map_of_mem hview)
    refine ⟨candle, hcandle, ?_⟩
    rw [← cellStart_nested hnested, hday]
    rfl
  · rintro ⟨candle, hcandle, rfl⟩
    obtain ⟨view, hview, hstart⟩ := mem_map.mp ((mem_daily_iff hdaily).mpr ⟨candle, hcandle, rfl⟩)
    refine ⟨.view view, mem_map_of_mem hview, ?_⟩
    show cellStart grid view.startedAt = _
    rw [hstart, cellStart_nested hnested]

/-! ## The end of the calendar -/

theorem addTimedelta_isOk {t : UtcTime} {delta : ℕ}
    (h : t.microseconds + delta < maxOrdinal * dayMicroseconds) :
    t.addTimedelta delta = .ok ⟨t.microseconds + delta, h⟩ := by
  rw [UtcTime.addTimedelta_eq_ok]
  push_cast
  rfl

/-- The microseconds of a slot. -/
def slotMicroseconds (unit : String) : ℕ := if unit ∈ ["1w", "1M"] then dayMicroseconds else 60000000

theorem slotDelta_eq (unit : String) : slotDelta unit = (slotMicroseconds unit : ℕ) := by
  unfold slotDelta slotMicroseconds
  split_ifs <;> rfl

/-- The slots have a status each, if the last of them ends within the calendar. -/
theorem missingSlotStatuses_isOk (items : List Item) (coverage : List CoverageSlice)
    (h : bucket.microseconds + slotMicroseconds unit * size < maxOrdinal * dayMicroseconds) :
    ∃ statuses, missingSlotStatuses bucket size items coverage unit = .ok statuses := by
  have hslots : ∃ statuses,
      (List.range size).mapM (slotStatus bucket items coverage unit) = .ok statuses := by
    rw [mapM_isOk_iff]
    intro offset hoffset
    have hend : bucket.microseconds + slotMicroseconds unit * offset + slotMicroseconds unit <
        maxOrdinal * dayMicroseconds := by
      have := Nat.mul_le_mul_left (slotMicroseconds unit) (mem_range.mp hoffset)
      rw [Nat.succ_eq_add_one, Nat.mul_add_one] at this
      omega
    have hstart : bucket.addTimedelta (slotDelta unit * offset) =
        .ok ⟨bucket.microseconds + slotMicroseconds unit * offset, by omega⟩ := by
      rw [slotDelta_eq, ← Nat.cast_mul]
      exact addTimedelta_isOk (by omega)
    rw [slotStatus, hstart, ok_bind]
    split_ifs
    · exact ⟨none, rfl⟩
    · rw [slotDelta_eq, addTimedelta_isOk hend]
      exact ⟨_, rfl⟩
  obtain ⟨statuses, hstatuses⟩ := hslots
  exact ⟨statuses.filterMap id, by rw [missingSlotStatuses, hstatuses]; rfl⟩

theorem aggregateGroups_isOk (ar : Arithmetic) (sha256 : String → String)
    (coverage : List CoverageSlice) (h : ∀ group ∈ groups, group.key.microseconds + slotMicroseconds
      unit * requiredSlots expectedSize group.key < maxOrdinal * dayMicroseconds) :
    ∃ views, aggregateGroups ar sha256 groups expectedSize coverage unit = .ok views := by
  rw [aggregateGroups, mapM_isOk_iff]
  intro group hgroup
  obtain ⟨statuses, hstatuses⟩ := missingSlotStatuses_isOk
    (sortedBy Item.startedAt group.items) coverage (h group (mem_sortedBy.mp hgroup))
  exact ⟨_, by rw [aggregateGroup, hstatuses]; rfl⟩

/-- Every group has a candle. -/
theorem mem_keys_cellGroups (h : group ∈ cellGroups grid items) :
    ∃ item ∈ items, cellStart grid item.startedAt = group.key := by
  have hkey := mem_map_key_grouped.mp (mem_map_of_mem (f := Group.key) h)
  rw [map_map] at hkey
  exact mem_map.mp hkey

/-- The slots of a day fill it. -/
theorem day_slots (t : UtcTime) : (cellStart dayGrid t).microseconds +
      slotMicroseconds "1d" * requiredSlots (24 * 60) (cellStart dayGrid t) =
        dayGrid.next (dayGrid.start t.microseconds) := by
  simp [slotMicroseconds, requiredSlots, cellStart, dayGrid, Grid.fixed_next, dayMicroseconds]

/-- The slots of a week or a month fill it. -/
theorem secondStep_slots (hunit : (unit, grid, size) ∈ secondStepUnits) (t : UtcTime) :
    (cellStart grid t).microseconds +
      slotMicroseconds unit * requiredSlots size (cellStart grid t) =
        grid.next (grid.start t.microseconds) := by
  simp only [secondStepUnits, mem_cons, Prod.mk.injEq, not_mem_nil, or_false] at hunit
  rcases hunit with ⟨rfl, rfl, rfl⟩ | ⟨rfl, rfl, rfl⟩
  · simp [slotMicroseconds, requiredSlots, cellStart, weekGrid, Grid.fixed_next]
  · show dayMicroseconds * monthStart _ + dayMicroseconds *
      daysInMonth (yearOf (dayMicroseconds * monthStart _ / dayMicroseconds))
        (monthOfDay (dayMicroseconds * monthStart _ / dayMicroseconds)) =
      dayMicroseconds * (dayMicroseconds * monthStart _ / dayMicroseconds + daysInMonth
        (yearOf (dayMicroseconds * monthStart _ / dayMicroseconds))
        (monthOfDay (dayMicroseconds * monthStart _ / dayMicroseconds)))
    rw [Nat.mul_div_cancel_left _ (by decide), Nat.mul_add]

theorem secondStep_nested (hunit : (unit, grid, size) ∈ secondStepUnits) : dayGrid.Nested grid := by
  simp only [secondStepUnits, mem_cons, Prod.mk.injEq, not_mem_nil, or_false] at hunit
  rcases hunit with ⟨-, rfl, -⟩ | ⟨-, rfl, -⟩
  · exact dayGrid_nested_week
  · exact dayGrid_nested_month

/-- The two steps succeed, if every bucket with a candle ends within the calendar. -/
theorem aggregateCandles_isOk (ar : Arithmetic) (sha256 : String → String)
    (hunit : (unit, grid, size) ∈ secondStepUnits) (h1m : ∀ c ∈ source, c.candleUnit = "1m")
    (coverage : List CoverageSlice) (hroom : ∀ c ∈ source, grid.next (grid.start
      c.candleStartAt.microseconds) < maxOrdinal * dayMicroseconds) :
    ∃ views, aggregateCandles ar sha256 unit source coverage = .ok views := by
  have hnested := secondStep_nested hunit
  have hdays : ∃ daily, aggregateGroups ar sha256 (cellGroups dayGrid (source.map .source))
      (24 * 60) coverage "1d" = .ok daily := by
    apply aggregateGroups_isOk
    intro group hgroup
    obtain ⟨item, hitem, hkey⟩ := mem_keys_cellGroups hgroup
    obtain ⟨candle, hcandle, rfl⟩ := mem_map.mp hitem
    rw [← hkey, day_slots]
    exact (hnested.next_le _).trans_lt (hroom candle hcandle)
  obtain ⟨daily, hdaily⟩ := hdays
  rw [aggregateCandles_eq ar sha256 hunit, aggregateDaily_eq ar sha256 h1m, hdaily, ok_bind]
  apply aggregateGroups_isOk
  intro group hgroup
  obtain ⟨item, hitem, hkey⟩ := mem_keys_cellGroups hgroup
  obtain ⟨view, hview, rfl⟩ := mem_map.mp hitem
  obtain ⟨candle, hcandle, hday⟩ := (mem_daily_iff hdaily).mp (mem_map_of_mem hview)
  have hcell : group.key = cellStart grid candle.candleStartAt := by
    rw [← hkey, ← cellStart_nested hnested candle.candleStartAt, hday]
    rfl
  rw [hcell, secondStep_slots hunit]
  exact hroom candle hcandle

/-- Weekly and monthly candles do not depend on the daily step: when the aggregation returns,
it gives the weeks or months in which a candle starts, in ascending order, and each shows the
bar of its candles, folded in the order of time. It returns when none of these weeks or months is
the last of the calendar.
SOURCE: aggregation.py:29-49, 52-106, 131-176 -/
theorem aggregateCandles_weekMonth (sha256 : String → String) {unit : String} {grid : Grid}
    {size : ℕ} (hunit : (unit, grid, size) ∈ secondStepUnits) {source : List SourceCandle}
    (h1m : ∀ c ∈ source, c.candleUnit = "1m")
    (hdistinct : (source.map SourceCandle.candleStartAt).Nodup) (coverage : List CoverageSlice) :
    (∀ views, aggregateCandles .exact sha256 unit source coverage = .ok views →
      (views.Pairwise fun a b => a.startedAt < b.startedAt) ∧
      (∀ bucket, bucket ∈ views.map CandleView.startedAt ↔
        ∃ candle ∈ source, cellStart grid candle.candleStartAt = bucket) ∧
      ∀ view ∈ views, directFold (candlesIn grid view.startedAt source) = some (viewBar view)) ∧
    ((∀ c ∈ source, grid.next (grid.start c.candleStartAt.microseconds) <
        maxOrdinal * dayMicroseconds) →
      ∃ views, aggregateCandles .exact sha256 unit source coverage = .ok views) := by
  have hnested := secondStep_nested hunit
  refine ⟨?_, aggregateCandles_isOk .exact sha256 hunit h1m coverage⟩
  intro views hviews
  rw [aggregateCandles_eq .exact sha256 hunit, aggregateDaily_eq .exact sha256 h1m] at hviews
  obtain ⟨daily, hdaily, hviews⟩ := bind_eq_ok.mp hviews
  have hbuckets := secondStep_buckets hdaily hnested hviews
  refine ⟨startedAt_pairwise hviews, hbuckets, fun view hview => ?_⟩
  obtain ⟨candle, -, hcell⟩ := (hbuckets view.startedAt).mp (mem_map_of_mem hview)
  apply directFold_eq_some
  rw [secondStep_bars hdistinct hdaily hnested hviews view hview, ← hcell, candlesIn_cellStart]

/-- A candle of one unit at every price and amount, for the runs below. -/
def unitCandle (candleStartAt : UtcTime) : SourceCandle where
  candleUnit := "1m"
  candleStartAt := candleStartAt
  openPrice := 1
  highPrice := 1
  lowPrice := 1
  closePrice := 1
  tradeVolume := 1
  tradeAmount := 1
  collectedAt := candleStartAt

/-- Two days of the first week. -/
theorem aggregateCandles_weekMonth_two_days :
    (∃ views, aggregateCandles .exact id "1w" [unitCandle ⟨0, by decide⟩,
        unitCandle ⟨dayMicroseconds, by decide⟩] [] = .ok views) ∧
      ∀ views, aggregateCandles .exact id "1w" [unitCandle ⟨0, by decide⟩,
          unitCandle ⟨dayMicroseconds, by decide⟩] [] = .ok views →
        ∀ view ∈ views, directFold (candlesIn weekGrid view.startedAt
          [unitCandle ⟨0, by decide⟩, unitCandle ⟨dayMicroseconds, by decide⟩]) =
            some (viewBar view) := by
  have hweek : ("1w", weekGrid, 7) ∈ secondStepUnits := by simp [secondStepUnits]
  have hminutes : ∀ c ∈ [unitCandle ⟨0, by decide⟩, unitCandle ⟨dayMicroseconds, by decide⟩],
      c.candleUnit = "1m" := by
    simp [unitCandle]
  have h := aggregateCandles_weekMonth id hweek hminutes (by decide) []
  exact ⟨h.2 (by decide), fun views hviews => (h.1 views hviews).2.2⟩

/-- On the last day of the calendar a slot that no candle takes has no end. -/
theorem aggregateCandles_last_day :
    ([unitCandle ⟨(maxOrdinal - 1) * dayMicroseconds, by decide⟩].map
        SourceCandle.candleStartAt).Nodup ∧
      ¬ ∃ views, aggregateCandles .exact id "1w"
        [unitCandle ⟨(maxOrdinal - 1) * dayMicroseconds, by decide⟩] [] = .ok views := by
  refine ⟨by simp, ?_⟩
  have hfails : (aggregateCandles .exact id "1w"
      [unitCandle ⟨(maxOrdinal - 1) * dayMicroseconds, by decide⟩] []).isOk = false := by
    decide +kernel
  rintro ⟨views, hviews⟩
  rw [hviews] at hfails
  cases hfails

end Goodmoneying.Analysis
