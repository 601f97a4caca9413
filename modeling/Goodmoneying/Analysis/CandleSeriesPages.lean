import Goodmoneying.Analysis.CandleSeriesRows

/-!
# Pages of candles are the pages of a series

The candles of a range are a series: those derived of its source rows, replaced by the rollups that
are stored (`series`). A page that begins with a bucket takes the first of them (`take_readCandles`).
For one that begins within a bucket, the rows of the bucket that it leaves out count towards its
limit, so the last bucket may be cut; the pages are those of the series exactly if that changes no
candle of the first page (`candlePage_oneSeries_iff`).
-/

namespace Goodmoneying.Analysis.CandleSeries

open List Library
open Program
open Program.Aggregation
open Program.CandleSeries
open Goodmoneying.Program.VersionedIndicators (Completeness)
open Analysis.BucketCandles

variable {candle : PageCandle}

/-- The start of a candle. -/
abbrev startOf (candle : PageCandle) : UtcTime := candle.startedAt

variable (ar : Arithmetic) (sha256 : String → String)

/-! ## The series of a range -/

/-- The candles that rows give; none where the aggregation fails. -/
def rowCandles (unit : String) (rows : List SourceCandle) : List PageCandle :=
  (derivedCandles ar sha256 unit rows).toOption.getD []

/-- The rollups of a range. -/
def storedCandles (db : CandleTables) (unit : String) (startAt endAt : UtcTime) :
    List PageCandle :=
  (projectedRollups db unit fun t => startAt ≤ t && t < endAt).map rollupCandle

/-- The candles of a range. -/
def series (db : CandleTables) (unit : String) (startAt endAt : UtcTime) : List PageCandle :=
  mergedBy startOf ((rowCandles ar sha256 unit (sourceRows db unit startAt endAt)).filter fun c =>
    startAt ≤ startOf c) (storedCandles db unit startAt endAt)

/-- The candles that a page has read, of at most `limit` rows. -/
def readCandles (db : CandleTables) (unit : String) (startAt endAt : UtcTime)
    (pageSize limit : ℕ) : List PageCandle :=
  mergedBy startOf ((rowCandles ar sha256 unit
    ((sourceRows db unit startAt endAt).take limit)).filter fun c => startAt ≤ startOf c)
    ((storedCandles db unit startAt endAt).take (pageSize + 1))

theorem derivedCandles_cellwise {unit : String} {grid : Grid}
    (hunit : (unit, grid) ∈ derivedGrids) :
    Cellwise (sourceCell grid) startOf (ValidRows unit) (derivedCandles ar sha256 unit) := by
  have hviews : Cellwise (sourceCell grid) startOf (ValidRows unit) fun rows =>
      (fun views : List CandleView => views.map fun view => ({ toCandleView := view } : PageCandle))
        <$> aggregateCandles ar sha256 unit rows [] :=
    (aggregateCandles_cellwise ar sha256 hunit).map fun _ => rfl
  refine hviews.congr fun rows hrows => ⟨hrows, ?_⟩
  unfold derivedCandles
  cases aggregateCandles ar sha256 unit rows [] <;> rfl

section Projection

variable {db : CandleTables} {unit : String} {p q : UtcTime → Bool}

theorem projectedRollups_congr
    (h : ∀ row ∈ db.rollups, row.candleUnit = unit → p row.candleStartAt = q row.candleStartAt) :
    projectedRollups db unit p = projectedRollups db unit q := by
  unfold projectedRollups
  congr 3
  apply filter_congr
  intro row hrow
  by_cases hrow_unit : row.candleUnit = unit
  · rw [h row hrow hrow_unit]
  · simp [hrow_unit]

theorem mem_projectedRollups {row : CandleSeries.RollupRow} (h : row ∈ projectedRollups db unit p) :
    row ∈ db.rollups ∧ row.candleUnit = unit ∧ p row.candleStartAt = true := by
  have hmem := mem_sortedBy.mp (mem_of_mem_distinctOn (mem_sortedBy.mp h))
  rw [mem_filter, decide_eq_true_iff] at hmem
  exact ⟨hmem.1, hmem.2.1, hmem.2.2.2⟩

/-- There is one rollup of a start. -/
theorem projectedRollups_ascending :
    (projectedRollups db unit p).Pairwise fun a b => a.candleStartAt < b.candleStartAt :=
  sortedBy_lt_of_nodup (nodup_map_distinctOn _ _)

theorem filter_projectedRollups :
    (projectedRollups db unit p).filter (fun row => q row.candleStartAt) =
      projectedRollups db unit fun t => p t && q t := by
  unfold projectedRollups
  rw [filter_sortedBy, filter_distinctOn, filter_sortedBy, filter_filter]
  congr 3
  apply filter_congr
  intro row _
  by_cases hq : q row.candleStartAt = true
  · simp [hq]
  · simp [hq]

theorem length_projectedRollups_le : (projectedRollups db unit p).length ≤ db.rollups.length := by
  have hdistinct : ∀ l : List CandleSeries.RollupRow,
      (distinctOn CandleSeries.RollupRow.candleStartAt l).length ≤ l.length := by
    intro l
    induction l with
    | nil => exact le_refl 0
    | cons a l ih =>
      have hle := length_filter_le
        (fun b : CandleSeries.RollupRow => b.candleStartAt ≠ a.candleStartAt)
        (distinctOn CandleSeries.RollupRow.candleStartAt l)
      simp only [distinctOn, length_cons]
      omega
  unfold projectedRollups
  rw [(sortedBy_perm _ _).length_eq]
  refine (hdistinct _).trans ?_
  rw [(sortedBy_perm _ _).length_eq]
  exact length_filter_le _ _

end Projection

theorem storedCandles_ascending (db : CandleTables) (unit : String) (startAt endAt : UtcTime) :
    (storedCandles db unit startAt endAt).Pairwise fun a b => startOf a < startOf b := by
  rw [storedCandles, pairwise_map]
  exact projectedRollups_ascending

theorem mem_storedCandles {db : CandleTables} {unit : String} {startAt endAt : UtcTime}
    (h : candle ∈ storedCandles db unit startAt endAt) :
    ∃ row ∈ db.rollups, row.candleUnit = unit ∧ rollupCandle row = candle ∧
      startAt ≤ row.candleStartAt ∧ row.candleStartAt < endAt := by
  obtain ⟨row, hrow, rfl⟩ := mem_map.mp h
  obtain ⟨hmem, hunit, hrange⟩ := mem_projectedRollups hrow
  simp only [Bool.and_eq_true, decide_eq_true_eq] at hrange
  exact ⟨row, hmem, hunit, rfl, hrange⟩

section Range

variable {db : CandleTables} {unit : String} {grid : Grid} {startAt endAt : UtcTime}
  (hunit : (unit, grid) ∈ derivedGrids) (hdb : StoredCandles db)
  (hbuckets : OnBuckets grid db unit endAt)
variable {part : List SourceCandle} {pageSize most : ℕ} {c : UtcTime}

include hunit hdb hbuckets

/-- The aggregation of rows of the range succeeds. -/
theorem derivedCandles_eq (hpart : part.Sublist (sourceRows db unit startAt endAt)) :
    derivedCandles ar sha256 unit part = .ok (rowCandles ar sha256 unit part) := by
  have hvalid := (validRows_sourceRows hdb hbuckets).sublist hpart
  obtain ⟨views, hviews⟩ := aggregateCandles_succeeds ar sha256 hunit hvalid fun c hc =>
    sourceRows_room hbuckets (hpart.subset hc)
  rw [rowCandles, derivedCandles, hviews]
  rfl

theorem rowCandles_ascending (hpart : part.Sublist (sourceRows db unit startAt endAt)) :
    (rowCandles ar sha256 unit part).Pairwise fun a b => startOf a < startOf b :=
  (derivedCandles_cellwise ar sha256 hunit).ascending
    ((validRows_sourceRows hdb hbuckets).sublist hpart)
    (derivedCandles_eq ar sha256 hunit hdb hbuckets hpart)

theorem keptCandles_ascending (hpart : part.Sublist (sourceRows db unit startAt endAt)) :
    ((rowCandles ar sha256 unit part).filter fun c => startAt ≤ startOf c).Pairwise
      fun a b => startOf a < startOf b :=
  (rowCandles_ascending ar sha256 hunit hdb hbuckets hpart).filter _

/-- A derived candle is that of the bucket of a row. -/
theorem exists_row_of_mem_rowCandles (hpart : part.Sublist (sourceRows db unit startAt endAt))
    (h : candle ∈ rowCandles ar sha256 unit part) :
    ∃ c ∈ part, sourceCell grid c = startOf candle :=
  mem_map.mp (((derivedCandles_cellwise ar sha256 hunit).mem_keys
    ((validRows_sourceRows hdb hbuckets).sublist hpart)
    (derivedCandles_eq ar sha256 hunit hdb hbuckets hpart) _).mp (mem_map_of_mem h))

/-- What a page reads, whatever its cursor. -/
theorem candlePage_eq {cursor : Option UtcTime} {low : UtcTime}
    (hmost : rowsPerOutput.lookup unit = some most)
    (hlow : cursor.elim (pure startAt) (fun c => nextCandleBucketStart c unit) = .ok low)
    {p : UtcTime → Bool}
    (hp : ∀ t, p t = decide (t < endAt ∧ fromBound cursor (cursor.elim startAt (max startAt)) t)) :
    candlePage ar sha256 db unit startAt endAt pageSize cursor = .ok (pageOfCandles pageSize
      (((sourceRows db unit low endAt).take (pageSize * most + 1)).length = pageSize * most + 1)
      (mergedBy startOf ((rowCandles ar sha256 unit
        ((sourceRows db unit low endAt).take (pageSize * most + 1))).filter fun c => p (startOf c))
        (((projectedRollups db unit p).map rollupCandle).take (pageSize + 1)))) := by
  have hne : unit ≠ "1m" := by
    rintro rfl
    simp [rowsPerOutput, lookup_cons] at hmost
  have hpart := take_sublist (pageSize * most + 1) (sourceRows db unit low endAt)
  have hbase := rowCandles_ascending ar sha256 hunit hdb hbuckets hpart
  have hlimit : sourcePageLimit unit pageSize "1m" = .ok (pageSize * most + 1) := by
    simp [sourcePageLimit, hmost]
  have hbounds : (projectedRollups db unit fun t =>
      fromBound cursor (cursor.elim startAt (max startAt)) t && t < endAt) =
        projectedRollups db unit p := by
    apply projectedRollups_congr
    intro row _ _
    rw [hp, Bool.decide_and, Bool.decide_eq_true, Bool.and_comm]
  have hoverlay : (((projectedRollups db unit p).take (pageSize + 1)).map rollupCandle).Pairwise
      fun a b => startOf a < startOf b := by
    rw [pairwise_map]
    exact projectedRollups_ascending.sublist (take_sublist _ _)
  have hkept : (((projectedRollups db unit p).take (pageSize + 1)).map rollupCandle).filter
      (fun c => p (startOf c)) = ((projectedRollups db unit p).take (pageSize + 1)).map
        rollupCandle := by
    rw [filter_eq_self]
    intro c hc
    obtain ⟨row, hrow, rfl⟩ := mem_map.mp hc
    exact (mem_projectedRollups (mem_of_mem_take hrow)).2.2
  have hcandles := map_filter_entries hbase hoverlay p
  rw [filter_mergedBy hbase hoverlay, hkept] at hcandles
  unfold candlePage
  rw [if_neg hne, hlow, ok_bind, hlimit, ok_bind]
  dsimp only
  rw [derivedCandles_eq ar sha256 hunit hdb hbuckets hpart, ok_bind, hbounds]
  simp only [← hp]
  rw [← map_take, ← hcandles]
  rfl

theorem startOf_lt_endAt (hpart : part.Sublist (sourceRows db unit startAt endAt))
    (h : candle ∈ rowCandles ar sha256 unit part) : startOf candle < endAt := by
  obtain ⟨c, hc, hcell⟩ := exists_row_of_mem_rowCandles ar sha256 hunit hdb hbuckets hpart h
  have hbefore := (mem_sourceRows.mp (hpart.subset hc)).2.2.2
  rw [← hcell]
  exact lt_of_le_of_lt (UtcTime.le_def.mpr (grid.start_le _)) hbefore

/-- The first page. -/
theorem candlePage_none (hmost : rowsPerOutput.lookup unit = some most) :
    candlePage ar sha256 db unit startAt endAt pageSize none = .ok (pageOfCandles pageSize
      (((sourceRows db unit startAt endAt).take (pageSize * most + 1)).length = pageSize * most + 1)
      (readCandles ar sha256 db unit startAt endAt pageSize (pageSize * most + 1))) := by
  have hbounds : ∀ t, (decide (startAt ≤ t) && decide (t < endAt)) = decide (t < endAt ∧
      fromBound none ((none : Option UtcTime).elim startAt (max startAt)) t) := by
    intro t
    rw [Bool.eq_iff_iff, Bool.and_eq_true, decide_eq_true_iff, decide_eq_true_iff,
      decide_eq_true_iff, and_comm]
    show _ ↔ t < endAt ∧ decide (startAt ≤ t) = true
    rw [decide_eq_true_iff]
  rw [candlePage_eq ar sha256 hunit hdb hbuckets hmost rfl hbounds, readCandles, storedCandles]
  congr 3
  apply filter_congr
  intro candle hcandle
  have hbefore := startOf_lt_endAt ar sha256 hunit hdb hbuckets (take_sublist _ _) hcandle
  rw [decide_eq_true hbefore, Bool.and_true]

omit hunit hdb in
/-- The next bucket begins where the bucket of the cursor ends. -/
theorem exists_later (hcell : cellStart grid c = c) (hc : c < endAt) :
    ∃ later : UtcTime, later.microseconds = grid.next c.microseconds ∧
      cellStart grid later = later ∧ ∀ t, cellStart grid t = t → (c < t ↔ later ≤ t) := by
  have hstart : grid.start c.microseconds = c.microseconds := congrArg UtcTime.microseconds hcell
  have hroom := hbuckets.room c hc
  rw [hstart] at hroom
  have hnext := grid.start_next c.microseconds
  rw [hstart] at hnext
  refine ⟨⟨grid.next c.microseconds, hroom⟩, rfl, UtcTime.ext hnext, fun t ht => ⟨?_, ?_⟩⟩
  · exact next_le_of_lt hcell ht
  · intro hle
    have hlt := grid.lt_next c.microseconds
    rw [hstart] at hlt
    exact lt_of_lt_of_le (UtcTime.lt_def.mpr hlt) hle

theorem cellStart_of_mem_rowCandles (hpart : part.Sublist (sourceRows db unit startAt endAt))
    (h : candle ∈ rowCandles ar sha256 unit part) :
    cellStart grid (startOf candle) = startOf candle := by
  obtain ⟨c, -, hcell⟩ := exists_row_of_mem_rowCandles ar sha256 hunit hdb hbuckets hpart h
  rw [← hcell]
  exact cellStart_cellStart grid _

/-- A later page is the first page of the range after the bucket of the cursor. -/
theorem candlePage_some (hmost : rowsPerOutput.lookup unit = some most) {later : UtcTime}
    (hle : startAt ≤ c) (hcell : cellStart grid c = c)
    (hlater : later.microseconds = grid.next c.microseconds)
    (hafter : ∀ t, cellStart grid t = t → (c < t ↔ later ≤ t)) :
    candlePage ar sha256 db unit startAt endAt pageSize (some c) =
      candlePage ar sha256 db unit later endAt pageSize none := by
  have hbounds : ∀ t, (decide (c < t) && decide (t < endAt)) = decide (t < endAt ∧
      fromBound (some c) ((some c).elim startAt (max startAt)) t) := by
    intro t
    simp [fromBound, and_comm, max_eq_right hle]
  have hlow : (some c).elim (pure startAt) (fun c => nextCandleBucketStart c unit) = .ok later :=
    (nextCandleBucketStart_eq_ok hunit hcell).mpr hlater
  rw [candlePage_eq ar sha256 hunit hdb hbuckets hmost hlow hbounds,
    candlePage_none ar sha256 hunit hdb hbuckets hmost, readCandles, storedCandles]
  have hstored : (projectedRollups db unit fun t => decide (c < t) && decide (t < endAt)) =
      projectedRollups db unit fun t => decide (later ≤ t) && decide (t < endAt) := by
    apply projectedRollups_congr
    intro row hrow hrow_unit
    rw [decide_eq_decide.mpr (hafter _ (hbuckets.rollups row hrow hrow_unit))]
  rw [hstored]
  congr 3
  apply filter_congr
  intro candle hcandle
  have hpart := take_sublist (pageSize * most + 1) (sourceRows db unit later endAt)
  have hbefore := startOf_lt_endAt ar sha256 hunit hdb hbuckets hpart hcandle
  have hstart := cellStart_of_mem_rowCandles ar sha256 hunit hdb hbuckets hpart hcandle
  rw [decide_eq_true hbefore, Bool.and_true, decide_eq_decide.mpr (hafter _ hstart)]

theorem series_ascending :
    (series ar sha256 db unit startAt endAt).Pairwise fun a b => startOf a < startOf b :=
  pairwise_mergedBy (keptCandles_ascending ar sha256 hunit hdb hbuckets (List.Sublist.refl _))
    (storedCandles_ascending _ _ _ _)

/-- After a bucket the series goes on as the series of the rest of the range. -/
theorem filter_series {later : UtcTime} (hafter : ∀ t, cellStart grid t = t → (c < t ↔ later ≤ t))
    (hstart : startAt ≤ later) :
    (series ar sha256 db unit startAt endAt).filter (fun candle => c < startOf candle) =
      series ar sha256 db unit later endAt := by
  have hrows := List.Sublist.refl (sourceRows db unit startAt endAt)
  have hrows' := List.Sublist.refl (sourceRows db unit later endAt)
  have hascending := rowCandles_ascending ar sha256 hunit hdb hbuckets hrows
  have hascending' := rowCandles_ascending ar sha256 hunit hdb hbuckets hrows'
  unfold series
  rw [filter_mergedBy (hascending.filter _) (storedCandles_ascending _ _ _ _) fun t => c < t]
  congr 1
  · apply eq_of_pairwise_lt startOf ((hascending.filter _).filter _) (hascending'.filter _)
    intro candle
    simp only [mem_filter, decide_eq_true_eq]
    have hmem : later ≤ startOf candle →
        (candle ∈ rowCandles ar sha256 unit (sourceRows db unit startAt endAt) ↔
          candle ∈ rowCandles ar sha256 unit (sourceRows db unit later endAt)) := by
      intro hlater
      refine (derivedCandles_cellwise ar sha256 hunit).mem_iff
        (validRows_sourceRows hdb hbuckets) (validRows_sourceRows hdb hbuckets)
        (derivedCandles_eq ar sha256 hunit hdb hbuckets hrows)
        (derivedCandles_eq ar sha256 hunit hdb hbuckets hrows') ?_
      apply filter_sourceRows hstart
      intro row hrow
      have hcell := of_decide_eq_true hrow
      exact (hlater.trans_eq hcell.symm).trans (UtcTime.le_def.mpr (grid.start_le _))
    constructor
    · rintro ⟨⟨hcandle, -⟩, hlt⟩
      have haligned := cellStart_of_mem_rowCandles ar sha256 hunit hdb hbuckets hrows hcandle
      have hlater := (hafter _ haligned).mp hlt
      exact ⟨(hmem hlater).mp hcandle, hlater⟩
    · rintro ⟨hcandle, hlater⟩
      have haligned := cellStart_of_mem_rowCandles ar sha256 hunit hdb hbuckets hrows' hcandle
      exact ⟨⟨(hmem hlater).mpr hcandle, hstart.trans hlater⟩, (hafter _ haligned).mpr hlater⟩
  · rw [storedCandles, storedCandles, filter_map]
    congr 1
    refine (filter_projectedRollups (q := fun t => c < t)).trans (projectedRollups_congr ?_)
    intro row hrow hrow_unit
    have hiff := hafter _ (hbuckets.rollups row hrow hrow_unit)
    by_cases hlater : later ≤ row.candleStartAt
    · simp [hlater, hiff.mpr hlater, hstart.trans hlater]
    · simp [hlater, mt hiff.mp hlater]

/-! ## What a page has read -/

omit hunit hbuckets in
theorem wholeMinute_sourceRows {c : SourceCandle} (hc : c ∈ sourceRows db unit startAt endAt) :
    60000000 ∣ c.candleStartAt.microseconds :=
  hdb.wholeMinute c (mem_sourceRows.mp hc).1

section Reading

variable {pageSize most : ℕ} (hmost : AllowsFor grid most)

include hmost

omit hunit in
/-- The rows of the bucket in which the range begins are fewer than a bucket has, so enough rows
of other buckets are read. -/
theorem lt_length_take (hsize : 0 < pageSize)
    (hlimited : pageSize * most + 1 < (sourceRows db unit startAt endAt).length) :
    (pageSize - 1) * most < (((sourceRows db unit startAt endAt).take
      (pageSize * most + 1)).filter fun c => startAt ≤ sourceCell grid c).length := by
  have hpart := take_sublist (pageSize * most + 1) (sourceRows db unit startAt endAt)
  have hfrom : ∀ c ∈ (sourceRows db unit startAt endAt).take (pageSize * most + 1),
      startAt ≤ c.candleStartAt := fun c hc => (mem_sourceRows.mp (hpart.subset hc)).2.2.1
  have hearly := length_early_lt hmost ((validRows_sourceRows hdb hbuckets).sublist hpart)
    (fun c hc => wholeMinute_sourceRows hdb (hpart.subset hc)) hfrom
  have hsplit := length_eq_length_filter_add
    (l := (sourceRows db unit startAt endAt).take (pageSize * most + 1))
    fun c => decide (startAt ≤ sourceCell grid c)
  have hlength : ((sourceRows db unit startAt endAt).take (pageSize * most + 1)).length =
      pageSize * most + 1 := by
    rw [length_take]
    omega
  have hnot : ∀ c : SourceCandle, (!decide (startAt ≤ sourceCell grid c)) =
      decide (sourceCell grid c < startAt) := by
    intro c
    rw [← decide_not, decide_eq_decide, not_le]
  simp only [hnot] at hsplit
  obtain ⟨m, rfl⟩ : ∃ m, pageSize = m + 1 := ⟨pageSize - 1, by omega⟩
  have hmul : (m + 1) * most = m * most + most := Nat.succ_mul m most
  rw [Nat.add_sub_cancel]
  omega

omit hunit hdb hbuckets hmost in
/-- A range that begins with a bucket leaves none out. -/
theorem filter_take_of_aligned (haligned : cellStart grid startAt = startAt) (limit : ℕ) :
    ((sourceRows db unit startAt endAt).take limit).filter
      (fun c => startAt ≤ sourceCell grid c) = (sourceRows db unit startAt endAt).take limit := by
  rw [filter_eq_self]
  intro c hc
  have hfrom := (mem_sourceRows.mp (mem_of_mem_take hc)).2.2.1
  have hmono := cellStart_mono grid hfrom
  rw [haligned] at hmono
  exact decide_eq_true hmono

/-- The page has the first buckets of the series. -/
theorem keys_readCandles (hsize : 0 < pageSize) :
    ((readCandles ar sha256 db unit startAt endAt pageSize (pageSize * most + 1)).take
      pageSize).map startOf =
        ((series ar sha256 db unit startAt endAt).take pageSize).map startOf := by
  have hrows := List.Sublist.refl (sourceRows db unit startAt endAt)
  have hpart := take_sublist (pageSize * most + 1) (sourceRows db unit startAt endAt)
  have hvalid : ValidRows unit (sourceRows db unit startAt endAt) :=
    validRows_sourceRows hdb hbuckets
  obtain ⟨horizon, hderived⟩ := (derivedCandles_cellwise ar sha256 hunit).keys_readTo
    (sourceCell_pairwise hvalid) hvalid (hvalid.sublist hpart)
    (derivedCandles_eq ar sha256 hunit hdb hbuckets hpart)
    (derivedCandles_eq ar sha256 hunit hdb hbuckets hrows)
    (count_sourceCell_le hmost hvalid fun c hc => wholeMinute_sourceRows hdb hc)
    (lt_length_take hdb hbuckets hmost hsize)
  rw [Nat.sub_add_cancel hsize] at hderived
  exact hderived.map_take_mergedBy (keptCandles_ascending ar sha256 hunit hdb hbuckets hpart)
    (keptCandles_ascending ar sha256 hunit hdb hbuckets hrows)
    (storedCandles_ascending db unit startAt endAt)

/-- A page that begins with a bucket has the first candles of the series. -/
theorem take_readCandles (haligned : cellStart grid startAt = startAt) :
    (readCandles ar sha256 db unit startAt endAt pageSize (pageSize * most + 1)).take pageSize =
      (series ar sha256 db unit startAt endAt).take pageSize := by
  have hrows := List.Sublist.refl (sourceRows db unit startAt endAt)
  have hpart := take_sublist (pageSize * most + 1) (sourceRows db unit startAt endAt)
  have hvalid : ValidRows unit (sourceRows db unit startAt endAt) :=
    validRows_sourceRows hdb hbuckets
  have hmany : pageSize * most + 1 < (sourceRows db unit startAt endAt).length →
      pageSize * most < (((sourceRows db unit startAt endAt).take
        (pageSize * most + 1)).filter fun c => startAt ≤ sourceCell grid c).length := by
    intro hlimited
    rw [filter_take_of_aligned haligned, length_take]
    omega
  obtain ⟨horizon, hderived⟩ := (derivedCandles_cellwise ar sha256 hunit).readTo
    (sourceCell_pairwise hvalid) hvalid (hvalid.sublist hpart)
    (derivedCandles_eq ar sha256 hunit hdb hbuckets hpart)
    (derivedCandles_eq ar sha256 hunit hdb hbuckets hrows)
    (count_sourceCell_le hmost hvalid fun c hc => wholeMinute_sourceRows hdb hc) hmany
  exact hderived.take_mergedBy (keptCandles_ascending ar sha256 hunit hdb hbuckets hpart)
    (keptCandles_ascending ar sha256 hunit hdb hbuckets hrows)
    (storedCandles_ascending db unit startAt endAt)

omit hmost in
/-- A page that has read all rows and is not full has read everything. -/
theorem length_series_le {limit : ℕ}
    (hrows : ((sourceRows db unit startAt endAt).take limit).length ≠ limit)
    (hle : (readCandles ar sha256 db unit startAt endAt pageSize limit).length ≤ pageSize) :
    (series ar sha256 db unit startAt endAt).length ≤ pageSize := by
  have hpart := take_sublist limit (sourceRows db unit startAt endAt)
  have hread := keptCandles_ascending ar sha256 hunit hdb hbuckets hpart
  have hfirst := (storedCandles_ascending db unit startAt endAt).sublist
    (take_sublist (pageSize + 1) _)
  have htaken : ((storedCandles db unit startAt endAt).take (pageSize + 1)).length ≤
      (readCandles ar sha256 db unit startAt endAt pageSize limit).length := by
    have hsubset := length_filter_le_of_keys_subset (p := fun _ => true) hfirst fun c hc =>
      (mem_keys_mergedBy hread hfirst).mpr (Or.inr (mem_map_of_mem hc))
    simpa [readCandles] using hsubset
  rw [length_take] at htaken hrows
  have hall_rows : (sourceRows db unit startAt endAt).take limit =
      sourceRows db unit startAt endAt := take_of_length_le (by omega)
  have hall_stored : (storedCandles db unit startAt endAt).take (pageSize + 1) =
      storedCandles db unit startAt endAt := take_of_length_le (by omega)
  rwa [readCandles, hall_rows, hall_stored] at hle

end Reading

end Range

end Goodmoneying.Analysis.CandleSeries
