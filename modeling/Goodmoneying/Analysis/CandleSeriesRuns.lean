import Goodmoneying.Analysis.CandleSeriesPages

/-!
# Following the cursors of a listing of candles

The pages of a unit of minutes are pages of the series of its rows (`oneSeries_minutes`). Those of
another unit are pages of one series if and only if the limit of the rows changes no candle of the
first page (`candlePage_oneSeries_iff`).
-/

namespace Goodmoneying.Analysis.CandleSeries

open List Library
open Program
open Program.Aggregation
open Program.CandleSeries
open Goodmoneying.Program.VersionedIndicators (Completeness)
open Analysis.BucketCandles

variable {pageSize : ℕ}

/-- What a candle shows: all but how it was made. -/
structure ShownCandle where
  startedAt : UtcTime
  open_ : ℚ
  high : ℚ
  low : ℚ
  close : ℚ
  volume : ℚ
  tradeAmount : ℚ
  completeness : Completeness
  deriving DecidableEq

def shownView (view : CandleView) : ShownCandle :=
  ⟨view.startedAt, view.open_, view.high, view.low, view.close, view.volume, view.tradeAmount,
    view.completeness⟩

def shown (candle : PageCandle) : ShownCandle := shownView candle.toCandleView

variable (ar : Arithmetic) (sha256 : String → String)

/-- The pages are the pages of one series: the single page that reads everything is in strictly
ascending order, and following the cursors ends and shows the same candles. -/
def OneSeries (db : CandleTables) (unit : String) (startAt endAt : UtcTime) (pageSize : ℕ) :
    Prop :=
  ∃ whole : List PageCandle,
    (∀ size ≥ db.sourceCandles.length + db.rollups.length,
      candlePage ar sha256 db unit startAt endAt size none = .ok ⟨whole, none⟩) ∧
    (whole.Pairwise fun a b => startOf a < startOf b) ∧
    ∃ items, (∃ pages, ∀ fuel ≥ pages,
        traverse (fun _ cursor => candlePage ar sha256 db unit startAt endAt pageSize cursor)
          fuel 0 none = .ok (some items)) ∧
      items.map shown = whole.map shown

/-- The first `pageSize` buckets, from the beginning of the range on, that have a source row or a
rollup. -/
def firstBuckets (grid : Grid) (db : CandleTables) (unit : String) (startAt endAt : UtcTime)
    (pageSize : ℕ) : List UtcTime :=
  (sortedBy id (((sourceRows db unit startAt endAt).map (sourceCell grid) ++
    (projectedRollups db unit fun t => startAt ≤ t && t < endAt).map
      CandleSeries.RollupRow.candleStartAt).filter fun bucket =>
        startAt ≤ bucket).dedup).take pageSize

/-- The limit of the rows changes no candle of the first page: of its buckets without a rollup,
the rows within the limit give the candle that all rows give. -/
def LimitKeepsCandles (grid : Grid) (db : CandleTables) (unit : String) (startAt endAt : UtcTime)
    (pageSize : ℕ) : Prop :=
  ∀ limit, sourcePageLimit unit pageSize "1m" = .ok limit →
    ∀ bucket ∈ firstBuckets grid db unit startAt endAt pageSize,
      bucket ∉ (projectedRollups db unit fun t => startAt ≤ t && t < endAt).map
        CandleSeries.RollupRow.candleStartAt →
      ∀ cut whole,
        aggregateCandles ar sha256 unit (((sourceRows db unit startAt endAt).take limit).filter
          fun c => sourceCell grid c = bucket) [] = .ok cut →
        aggregateCandles ar sha256 unit ((sourceRows db unit startAt endAt).filter
          fun c => sourceCell grid c = bucket) [] = .ok whole →
        cut.map shownView = whole.map shownView

variable {ar sha256}

/-- What the first page shows is the beginning of what the single page shows. -/
theorem OneSeries.first_page {db : CandleTables} {unit : String} {startAt endAt : UtcTime}
    (h : OneSeries ar sha256 db unit startAt endAt pageSize) {page whole : Page PageCandle UtcTime}
    (hpage : candlePage ar sha256 db unit startAt endAt pageSize none = .ok page) (hwhole :
      candlePage ar sha256 db unit startAt endAt (db.sourceCandles.length + db.rollups.length) none
      = .ok whole) : page.items.map shown <+: whole.items.map shown := by
  obtain ⟨candles, hcandles, -, items, ⟨pages, hpages⟩, hitems⟩ := h
  have hsame := hwhole.symm.trans (hcandles _ (le_refl _))
  obtain rfl := Except.ok.inj hsame
  have hprefix : page.items <+: items := by
    refine prefix_of_traverse ?_ (hpages pages (le_refl _))
    exact hpage
  show page.items.map shown <+: candles.map shown
  rw [← hitems]
  exact hprefix.map shown

variable (ar sha256)

section Minutes

variable {db : CandleTables} {startAt endAt : UtcTime}

/-- The candles of the minutes that `p` selects. -/
def minuteSeries (db : CandleTables) (p : UtcTime → Bool) : List PageCandle :=
  (sortedBy SourceCandle.candleStartAt (db.sourceCandles.filter fun candle =>
    candle.candleUnit = "1m" ∧ p candle.candleStartAt)).map (candleView ar sha256)

theorem minuteSeries_ascending (hdb : StoredCandles db) (p : UtcTime → Bool) :
    (minuteSeries ar sha256 db p).Pairwise fun a b => startOf a < startOf b := by
  rw [minuteSeries, pairwise_map]
  apply sortedBy_lt_of_nodup
  rw [List.Nodup, pairwise_map]
  refine (hdb.pairwise_ne.filter _).imp_of_mem fun {c d} hc hd hne hstart => hne ?_
  rw [mem_filter, decide_eq_true_iff] at hc hd
  rw [hc.2.1, hd.2.1]
  exact congrArg (Prod.mk "1m") hstart

theorem filter_minuteSeries (p q : UtcTime → Bool) :
    (minuteSeries ar sha256 db p).filter (fun candle => q (startOf candle)) =
      minuteSeries ar sha256 db fun t => p t && q t := by
  rw [minuteSeries, minuteSeries, filter_map, filter_sortedBy, filter_filter]
  congr 2
  apply filter_congr
  intro c _
  cases hq : q c.candleStartAt <;> simp [startOf, candleView, hq]

/-- A page of minutes takes the first candles after its cursor, and one more. -/
theorem candlePage_minutes {cursor : Option UtcTime} {p : UtcTime → Bool}
    (hp : ∀ t, p t = (fromBound cursor (cursor.elim startAt (max startAt)) t && decide (t <
      endAt))) : candlePage ar sha256 db "1m" startAt endAt pageSize cursor =
      .ok (pageOfCandles pageSize false ((minuteSeries ar sha256 db p).take (pageSize + 1))) := by
  have hsame : p = fun t =>
      fromBound cursor (cursor.elim startAt (max startAt)) t && decide (t < endAt) := funext hp
  unfold candlePage
  rw [if_pos rfl, hsame, minuteSeries, ← map_take]
  simp only [Bool.and_eq_true, decide_eq_true_eq]
  rfl

theorem pageOf_minutes (hsize : 0 < pageSize) (candles : List PageCandle) :
    PageOf shown startOf pageSize candles
      (pageOfCandles pageSize false (candles.take (pageSize + 1))) := by
  have htake : (candles.take (pageSize + 1)).take pageSize = candles.take pageSize := by
    rw [take_take, min_eq_left (Nat.le_succ pageSize)]
  refine PageOf.of_take hsize (congrArg (List.map shown) htake)
    (congrArg (List.map startOf) htake) fun _ hle => ?_
  rw [length_take] at hle
  omega

/-- The pages of minutes are the pages of one series. -/
theorem oneSeries_minutes (hdb : StoredCandles db) (hsize : 0 < pageSize) :
    OneSeries ar sha256 db "1m" startAt endAt pageSize := by
  let range : UtcTime → Bool := fun t => startAt ≤ t && t < endAt
  have hnone : ∀ size, candlePage ar sha256 db "1m" startAt endAt size none =
      .ok (pageOfCandles size false ((minuteSeries ar sha256 db range).take (size + 1))) :=
    fun size => candlePage_minutes ar sha256 fun t => rfl
  have hascending := minuteSeries_ascending ar sha256 hdb range
  refine ⟨minuteSeries ar sha256 db range, fun size hlarge => ?_, hascending, ?_⟩
  · have hlength : (minuteSeries ar sha256 db range).length ≤ size := by
      have hle := length_filter_le (fun candle : SourceCandle =>
        candle.candleUnit = "1m" ∧ range candle.candleStartAt) db.sourceCandles
      rw [minuteSeries, length_map, (sortedBy_perm _ _).length_eq]
      omega
    rw [hnone, pageOfCandles, take_of_length_le (hlength.trans (Nat.le_succ size)),
      take_of_length_le hlength, if_neg (by simpa using hlength)]
  · refine traverse_series hascending hsize ?_ (hnone pageSize) (pageOf_minutes hsize _)
    intro n c hc
    obtain ⟨candle, hcandle, rfl⟩ := mem_map.mp hc
    have hfrom : startAt ≤ startOf candle := by
      obtain ⟨row, hrow, rfl⟩ := mem_map.mp hcandle
      rw [mem_sortedBy, mem_filter, decide_eq_true_iff] at hrow
      have hrange := hrow.2.2
      simp only [range, Bool.and_eq_true, decide_eq_true_eq] at hrange
      exact hrange.1
    have hbounds : ∀ t, (range t && decide (startOf candle < t)) =
        (fromBound (some (startOf candle)) ((some (startOf candle)).elim startAt (max startAt)) t &&
          decide (t < endAt)) := by
      intro t
      simp only [fromBound, Option.elim, max_eq_right hfrom, range]
      by_cases hlt : startOf candle < t
      · simp [hlt, hfrom.trans hlt.le]
      · simp [hlt]
    refine ⟨_, candlePage_minutes ar sha256 hbounds, ?_⟩
    rw [← filter_minuteSeries ar sha256 range fun t => startOf candle < t]
    exact pageOf_minutes hsize _

end Minutes

section Derived

variable {db : CandleTables} {unit : String} {grid : Grid} {startAt endAt : UtcTime}
  (hunit : (unit, grid) ∈ derivedGrids) (hdb : StoredCandles db)
  (hbuckets : OnBuckets grid db unit endAt)
variable {most : ℕ}

include hunit hdb hbuckets

/-- The single page that reads everything is the series. -/
theorem candlePage_whole {size : ℕ} (hlarge : db.sourceCandles.length + db.rollups.length ≤ size) :
    candlePage ar sha256 db unit startAt endAt size none =
      .ok ⟨series ar sha256 db unit startAt endAt, none⟩ := by
  obtain ⟨most, hmost, hallows⟩ := exists_allowsFor hunit
  have hpos := Nat.le_mul_of_pos_right size hallows.pos
  have hrows : (sourceRows db unit startAt endAt).length ≤ db.sourceCandles.length := by
    rw [sourceRows, (sortedBy_perm _ _).length_eq]
    exact length_filter_le _ _
  have hstored : (storedCandles db unit startAt endAt).length ≤ db.rollups.length := by
    rw [storedCandles, length_map]
    exact length_projectedRollups_le
  have hderived : (rowCandles ar sha256 unit (sourceRows db unit startAt endAt)).length ≤
      (sourceRows db unit startAt endAt).length :=
    (derivedCandles_cellwise ar sha256 hunit).length_le (validRows_sourceRows hdb hbuckets)
      (derivedCandles_eq ar sha256 hunit hdb hbuckets (List.Sublist.refl _))
  have hkept := length_filter_le (fun c => decide (startAt ≤ startOf c))
    (rowCandles ar sha256 unit (sourceRows db unit startAt endAt))
  have hmerged := length_mergedBy_le startOf
    ((rowCandles ar sha256 unit (sourceRows db unit startAt endAt)).filter fun c =>
      startAt ≤ startOf c) (storedCandles db unit startAt endAt)
  have hseries : (series ar sha256 db unit startAt endAt).length ≤ size := by
    rw [series]
    omega
  have hread : readCandles ar sha256 db unit startAt endAt size (size * most + 1) =
      series ar sha256 db unit startAt endAt := by
    rw [readCandles, take_of_length_le (by omega), take_of_length_le (by omega), series]
  have hhit : ((sourceRows db unit startAt endAt).take (size * most + 1)).length ≠
      size * most + 1 := by
    rw [length_take]
    omega
  rw [candlePage_none ar sha256 hunit hdb hbuckets hmost, hread, pageOfCandles,
    take_of_length_le hseries, if_neg (by simp only [decide_eq_true_eq]; omega)]

theorem mem_series_bounds {candle : PageCandle}
    (h : candle ∈ series ar sha256 db unit startAt endAt) :
    startAt ≤ startOf candle ∧ startOf candle < endAt ∧
      cellStart grid (startOf candle) = startOf candle := by
  have hrows := List.Sublist.refl (sourceRows db unit startAt endAt)
  rw [series, mem_mergedBy (keptCandles_ascending ar sha256 hunit hdb hbuckets hrows)
    (storedCandles_ascending _ _ _ _)] at h
  rcases h with hstored | ⟨hderived, -⟩
  · obtain ⟨row, hrow, hrow_unit, rfl, hrange⟩ := mem_storedCandles hstored
    exact ⟨hrange.1, hrange.2, hbuckets.rollups row hrow hrow_unit⟩
  · obtain ⟨hmem, hfrom⟩ := mem_filter.mp hderived
    exact ⟨of_decide_eq_true hfrom, startOf_lt_endAt ar sha256 hunit hdb hbuckets hrows hmem,
      cellStart_of_mem_rowCandles ar sha256 hunit hdb hbuckets hrows hmem⟩

/-- A first page that shows the first candles of the series is a page of it. -/
theorem pageOf_none (hmost : rowsPerOutput.lookup unit = some most) (hallows : AllowsFor grid most)
    (hsize : 0 < pageSize) (hshown : ((readCandles ar sha256 db unit startAt endAt pageSize
      (pageSize * most + 1)).take pageSize).map shown = ((series ar sha256 db unit startAt
      endAt).take pageSize).map shown) :
    ∃ page, candlePage ar sha256 db unit startAt endAt pageSize none = .ok page ∧
      PageOf shown startOf pageSize (series ar sha256 db unit startAt endAt) page := by
  refine ⟨_, candlePage_none ar sha256 hunit hdb hbuckets hmost, ?_⟩
  apply PageOf.of_take hsize hshown (keys_readCandles ar sha256 hunit hdb hbuckets hallows hsize)
  intro hlimit hle
  rw [decide_eq_true_eq] at hlimit
  exact length_series_le ar sha256 hunit hdb hbuckets hlimit hle

/-- Every later page begins with a bucket, so it is a page of the series. -/
theorem pageOf_some (hsize : 0 < pageSize) {c : UtcTime}
    (hc : c ∈ (series ar sha256 db unit startAt endAt).map startOf) :
    ∃ page, candlePage ar sha256 db unit startAt endAt pageSize (some c) = .ok page ∧
      PageOf shown startOf pageSize
        ((series ar sha256 db unit startAt endAt).filter fun candle => c < startOf candle) page := by
  obtain ⟨most, hmost, hallows⟩ := exists_allowsFor hunit
  obtain ⟨candle, hcandle, rfl⟩ := mem_map.mp hc
  obtain ⟨hfrom, hto, hcell⟩ := mem_series_bounds ar sha256 hunit hdb hbuckets hcandle
  obtain ⟨later, hlater, haligned, hafter⟩ := exists_later hbuckets hcell hto
  have hle : startAt ≤ later := hfrom.trans ((hafter later haligned).mpr (le_refl _)).le
  rw [candlePage_some ar sha256 hunit hdb hbuckets hmost hfrom hcell hlater hafter,
    filter_series ar sha256 hunit hdb hbuckets hafter hle]
  apply pageOf_none ar sha256 hunit hdb hbuckets hmost hallows hsize
  rw [take_readCandles ar sha256 hunit hdb hbuckets hallows haligned]

/-- If the first page shows the first candles, the pages are those of the series. -/
theorem oneSeries_of_first_page (hmost : rowsPerOutput.lookup unit = some most)
    (hallows : AllowsFor grid most) (hsize : 0 < pageSize) (hshown : ((readCandles ar sha256 db unit
      startAt endAt pageSize (pageSize * most + 1)).take pageSize).map shown = ((series ar sha256 db
      unit startAt endAt).take pageSize).map shown) :
    OneSeries ar sha256 db unit startAt endAt pageSize := by
  have hascending : (series ar sha256 db unit startAt endAt).Pairwise
      fun a b => startOf a < startOf b := series_ascending ar sha256 hunit hdb hbuckets
  obtain ⟨page, hpage, hof⟩ := pageOf_none ar sha256 hunit hdb hbuckets hmost hallows hsize hshown
  refine ⟨series ar sha256 db unit startAt endAt,
    fun size hlarge => candlePage_whole ar sha256 hunit hdb hbuckets hlarge, hascending, ?_⟩
  exact traverse_series hascending hsize
    (fun _ c hc => pageOf_some ar sha256 hunit hdb hbuckets hsize hc) hpage hof

/-- The first buckets of a listing are those of the series. -/
theorem firstBuckets_eq (pageSize : ℕ) : firstBuckets grid db unit startAt endAt pageSize =
    ((series ar sha256 db unit startAt endAt).take pageSize).map startOf := by
  have hrows := List.Sublist.refl (sourceRows db unit startAt endAt)
  have hkept := keptCandles_ascending ar sha256 hunit hdb hbuckets hrows
  have hstored := storedCandles_ascending db unit startAt endAt
  rw [firstBuckets, map_take]
  congr 1
  apply eq_of_pairwise_lt id
  · apply sortedBy_lt_of_nodup
    rw [map_id]
    exact nodup_dedup _
  · exact pairwise_map.mpr (series_ascending ar sha256 hunit hdb hbuckets)
  · intro bucket
    have hderived := (derivedCandles_cellwise ar sha256 hunit).mem_keys_filter
      (validRows_sourceRows hdb hbuckets)
      (derivedCandles_eq ar sha256 hunit hdb hbuckets hrows) (fun t => startAt ≤ t) bucket
    have hoverlay : bucket ∈ (storedCandles db unit startAt endAt).map startOf ↔
        bucket ∈ (projectedRollups db unit fun t => startAt ≤ t && t < endAt).map
          CandleSeries.RollupRow.candleStartAt := by
      rw [storedCandles, map_map]
      rfl
    have hrange : bucket ∈ (storedCandles db unit startAt endAt).map startOf →
        startAt ≤ bucket := by
      intro hmem
      obtain ⟨candle, hcandle, rfl⟩ := mem_map.mp hmem
      obtain ⟨row, -, -, rfl, hrange⟩ := mem_storedCandles hcandle
      exact hrange.1
    rw [series, mem_keys_mergedBy hkept hstored, hderived, mem_sortedBy, mem_dedup,
      mem_filter, mem_append, ← hoverlay, decide_eq_true_iff]
    simp only [mem_map, mem_filter, decide_eq_true_eq]
    constructor
    · rintro ⟨⟨c, hc, rfl⟩ | hmem, hfrom⟩
      · exact Or.inl ⟨c, ⟨hc, hfrom⟩, rfl⟩
      · exact Or.inr hmem
    · rintro (⟨c, ⟨hc, hfrom⟩, rfl⟩ | hmem)
      · exact ⟨Or.inl ⟨c, hc, rfl⟩, hfrom⟩
      · exact ⟨Or.inr hmem, hrange (mem_map.mpr hmem)⟩

/-- The rows of its bucket give a candle, and it only. -/
theorem aggregate_bucket {part : List SourceCandle}
    (hpart : part.Sublist (sourceRows db unit startAt endAt)) {candle : PageCandle}
    (hcandle : candle ∈ rowCandles ar sha256 unit part) {views : List CandleView}
    (hviews : aggregateCandles ar sha256 unit
      (part.filter fun c => sourceCell grid c = startOf candle) [] = .ok views) :
    views.map shownView = [shown candle] := by
  have hvalid := (validRows_sourceRows hdb hbuckets).sublist hpart
  have hderived : derivedCandles ar sha256 unit
      (part.filter fun c => sourceCell grid c = startOf candle) =
        .ok (views.map fun view => { toCandleView := view }) := by
    rw [derivedCandles, hviews]
    rfl
  have hone := (derivedCandles_cellwise ar sha256 hunit).eq_singleton hvalid
    (derivedCandles_eq ar sha256 hunit hdb hbuckets hpart) hcandle
    (hvalid.sublist filter_sublist) hderived
  have hshown := congrArg (List.map shown) hone
  rw [map_map] at hshown
  exact hshown

/-- A candle of the first page is the rollup of its bucket, or both the page and the series derive
it. -/
theorem rollup_or_derived {limit : ℕ} {a b : PageCandle}
    (ha : a ∈ readCandles ar sha256 db unit startAt endAt pageSize limit)
    (hb : b ∈ (series ar sha256 db unit startAt endAt).take pageSize)
    (hsame : startOf a = startOf b) :
    a = b ∧ startOf b ∈ (storedCandles db unit startAt endAt).map startOf ∨
      startOf b ∉ (storedCandles db unit startAt endAt).map startOf ∧
        a ∈ rowCandles ar sha256 unit ((sourceRows db unit startAt endAt).take limit) ∧
        b ∈ rowCandles ar sha256 unit (sourceRows db unit startAt endAt) := by
  have hrows := List.Sublist.refl (sourceRows db unit startAt endAt)
  have hpart := take_sublist limit (sourceRows db unit startAt endAt)
  have hread := keptCandles_ascending ar sha256 hunit hdb hbuckets hpart
  have hall := keptCandles_ascending ar sha256 hunit hdb hbuckets hrows
  have hstored := storedCandles_ascending db unit startAt endAt
  have hfirst := hstored.sublist (take_sublist (pageSize + 1) _)
  have hseries : (series ar sha256 db unit startAt endAt).Pairwise
      fun a b => startOf a < startOf b := series_ascending ar sha256 hunit hdb hbuckets
  have hb_mem := mem_of_mem_take hb
  have hbelow := (mem_take_iff hseries hb_mem pageSize).mp hb
  rw [readCandles, mem_mergedBy hread hfirst] at ha
  rw [series, mem_mergedBy hall hstored] at hb_mem
  rcases hb_mem with hb_stored | ⟨hb_kept, hfresh⟩
  · -- a rollup of the first page is among those that the page reads
    have hrollups : ((storedCandles db unit startAt endAt).filter fun c =>
        startOf c < startOf b).length < pageSize + 1 := by
      have hle := length_filter_le_of_keys_subset (p := fun k => decide (k < startOf b)) hstored
        fun c hc => (mem_keys_mergedBy hall hstored).mpr (Or.inr (mem_map_of_mem hc))
      rw [series] at hbelow
      omega
    have hb_read := (mem_take_iff hstored hb_stored (pageSize + 1)).mpr hrollups
    rcases ha with ha_read | ⟨-, hnot⟩
    · exact Or.inl ⟨eq_of_key_eq hfirst ha_read hb_read hsame, mem_map_of_mem hb_stored⟩
    · exact absurd (hsame ▸ mem_map_of_mem hb_read) hnot
  · rcases ha with ha_read | ⟨ha_kept, -⟩
    · have hkey : startOf b ∈ (storedCandles db unit startAt endAt).map startOf :=
        hsame ▸ mem_map_of_mem (mem_of_mem_take ha_read)
      exact absurd hkey hfresh
    · exact Or.inr ⟨hfresh, mem_of_mem_filter ha_kept, mem_of_mem_filter hb_kept⟩

omit hunit hdb hbuckets in
theorem starts_storedCandles : (storedCandles db unit startAt endAt).map startOf =
    (projectedRollups db unit fun t => startAt ≤ t && t < endAt).map
      CandleSeries.RollupRow.candleStartAt := by
  rw [storedCandles, map_map]
  rfl

/-- Where the limit changes no candle, the first page shows the first candles. -/
theorem shown_eq_of_limitKeepsCandles (hmost : rowsPerOutput.lookup unit = some most)
    (hallows : AllowsFor grid most) (hsize : 0 < pageSize)
    (hkeeps : LimitKeepsCandles ar sha256 grid db unit startAt endAt pageSize) :
    ((readCandles ar sha256 db unit startAt endAt pageSize (pageSize * most + 1)).take
      pageSize).map shown = ((series ar sha256 db unit startAt endAt).take pageSize).map shown := by
  have hlimit : sourcePageLimit unit pageSize "1m" = .ok (pageSize * most + 1) := by
    simp [sourcePageLimit, hmost]
  have hrows := List.Sublist.refl (sourceRows db unit startAt endAt)
  have hpart := take_sublist (pageSize * most + 1) (sourceRows db unit startAt endAt)
  have hvalid : ValidRows unit (sourceRows db unit startAt endAt) :=
    validRows_sourceRows hdb hbuckets
  have hbucket : ∀ {part : List SourceCandle},
      part.Sublist (sourceRows db unit startAt endAt) → ∀ bucket, ∃ views,
        aggregateCandles ar sha256 unit (part.filter fun c => sourceCell grid c = bucket) [] =
          .ok views := by
    intro part hsub bucket
    have hfiltered : (part.filter fun c => sourceCell grid c = bucket).Sublist
        (sourceRows db unit startAt endAt) := filter_sublist.trans hsub
    exact aggregateCandles_succeeds ar sha256 hunit (hvalid.sublist hfiltered) fun c hc =>
      sourceRows_room hbuckets (hfiltered.subset hc)
  have hkeys : ((readCandles ar sha256 db unit startAt endAt pageSize
      (pageSize * most + 1)).take pageSize).map startOf =
        ((series ar sha256 db unit startAt endAt).take pageSize).map startOf :=
    keys_readCandles ar sha256 hunit hdb hbuckets hallows hsize
  have hrelated := forall₂_of_map_eq (r := fun a b => shown a = shown b) hkeys ?_
  · exact forall₂_eq_eq_eq ▸ forall₂_map_left_iff.mpr
      (forall₂_map_right_iff.mpr hrelated)
  · intro a ha b hb hsame
    rcases rollup_or_derived ar sha256 hunit hdb hbuckets (mem_of_mem_take ha) hb hsame with
      ⟨rfl, -⟩ | ⟨hfresh, ha_derived, hb_derived⟩
    · rfl
    · obtain ⟨cut, hcut⟩ := hbucket hpart (startOf a)
      obtain ⟨whole, hwhole⟩ := hbucket hrows (startOf b)
      have hkept := hkeeps _ hlimit (startOf b)
        (by rw [firstBuckets_eq ar sha256 hunit hdb hbuckets]; exact mem_map_of_mem hb)
        (by rwa [← starts_storedCandles]) cut whole (by rw [← hsame]; exact hcut) hwhole
      rw [aggregate_bucket ar sha256 hunit hdb hbuckets hpart ha_derived hcut,
        aggregate_bucket ar sha256 hunit hdb hbuckets hrows hb_derived hwhole] at hkept
      exact singleton_injective hkept

/-- Pages of one series have a first page that the limit does not change. -/
theorem limitKeepsCandles_of_oneSeries (hsize : 0 < pageSize)
    (h : OneSeries ar sha256 db unit startAt endAt pageSize) :
    LimitKeepsCandles ar sha256 grid db unit startAt endAt pageSize := by
  obtain ⟨most, hmost, hallows⟩ := exists_allowsFor hunit
  intro limit hlimit bucket hbucket hfresh cut whole hcut hwhole
  have hlimit_eq : sourcePageLimit unit pageSize "1m" = .ok (pageSize * most + 1) := by
    simp [sourcePageLimit, hmost]
  obtain rfl := Except.ok.inj (hlimit.symm.trans hlimit_eq)
  have hrows := List.Sublist.refl (sourceRows db unit startAt endAt)
  have hpart := take_sublist (pageSize * most + 1) (sourceRows db unit startAt endAt)
  have hkeys : ((readCandles ar sha256 db unit startAt endAt pageSize
      (pageSize * most + 1)).take pageSize).map startOf =
        ((series ar sha256 db unit startAt endAt).take pageSize).map startOf :=
    keys_readCandles ar sha256 hunit hdb hbuckets hallows hsize
  rw [firstBuckets_eq ar sha256 hunit hdb hbuckets] at hbucket
  obtain ⟨b, hb, rfl⟩ := mem_map.mp hbucket
  rw [← hkeys] at hbucket
  obtain ⟨a, ha, hsame⟩ := mem_map.mp hbucket
  rw [← starts_storedCandles] at hfresh
  rcases rollup_or_derived ar sha256 hunit hdb hbuckets (mem_of_mem_take ha) hb hsame with
    ⟨-, hstored⟩ | ⟨-, ha_derived, hb_derived⟩
  · exact absurd hstored hfresh
  · -- the page shows the beginning of the series, so it shows the candle that the series has
    have hprefix := h.first_page (candlePage_none ar sha256 hunit hdb hbuckets hmost)
      (candlePage_whole ar sha256 hunit hdb hbuckets (le_refl _))
    have hmem : shown a ∈ (series ar sha256 db unit startAt endAt).map shown :=
      hprefix.subset (mem_map_of_mem ha)
    obtain ⟨b', hb', hshown⟩ := mem_map.mp hmem
    have hb_eq : b' = b := by
      apply eq_of_key_eq (series_ascending ar sha256 hunit hdb hbuckets) hb'
        (mem_of_mem_take hb)
      exact (congrArg ShownCandle.startedAt hshown).trans hsame
    rw [← hsame] at hcut
    rw [aggregate_bucket ar sha256 hunit hdb hbuckets hpart ha_derived hcut,
      aggregate_bucket ar sha256 hunit hdb hbuckets hrows hb_derived hwhole, ← hshown, hb_eq]

end Derived

/-- The pages of a listing are the pages of one series if and only if the limit of the rows
changes no candle of the first page.
SOURCE: postgres_repository.py:126-156, 1931-2066; aggregation.py:52-106; service.py:448-490 -/
theorem candlePage_oneSeries_iff {db : CandleTables} {unit : String} {grid : Grid}
    {startAt endAt : UtcTime} (hunit : (unit, grid) ∈ rollupGrids) (hdb : StoredCandles db)
    (hbuckets : unit ≠ "1m" → OnBuckets grid db unit endAt) {pageSize : ℕ} (hsize : 1 ≤ pageSize) :
    OneSeries ar sha256 db unit startAt endAt pageSize ↔
      LimitKeepsCandles ar sha256 grid db unit startAt endAt pageSize := by
  by_cases hminute : unit = "1m"
  · subst hminute
    refine ⟨fun _ limit hlimit => ?_, fun _ => oneSeries_minutes ar sha256 hdb hsize⟩
    -- no limit is defined for minutes
    simp [sourcePageLimit, rowsPerOutput, lookup_cons] at hlimit
  · have hderived : (unit, grid) ∈ derivedGrids := by
      rcases mem_cons.mp hunit with heq | hmem
      · exact absurd (congrArg Prod.fst heq) hminute
      · exact hmem
    have hbuckets := hbuckets hminute
    obtain ⟨most, hmost, hallows⟩ := exists_allowsFor hderived
    refine ⟨limitKeepsCandles_of_oneSeries ar sha256 hderived hdb hbuckets hsize, fun hkeeps => ?_⟩
    exact oneSeries_of_first_page ar sha256 hderived hdb hbuckets hmost hallows hsize
      (shown_eq_of_limitKeepsCandles ar sha256 hderived hdb hbuckets hmost hallows hsize hkeeps)

/-- The minutes of the hour from 2026-08-01T04:00Z on. -/
def minuteAt (offset : ℕ) : UtcTime where
  microseconds := 739828 * dayMicroseconds + (240 + offset % 60) * 60000000
  in_calendar := by
    have := Nat.mod_lt offset (show 60 > 0 by decide)
    unfold dayMicroseconds
    have hmax : maxOrdinal = 3652059 := by decide
    omega

/-- The candles of five minutes, the first of them within a bucket of three. -/
def fiveMinutes : CandleTables where
  sourceCandles := [1, 2, 3, 4, 5].map fun offset => unitCandle (minuteAt offset)
  rollups := []

theorem storedCandles_fiveMinutes : StoredCandles fiveMinutes where
  candleUnit := by simp [fiveMinutes, unitCandle]
  wholeMinute := by
    intro c hc
    obtain ⟨offset, -, rfl⟩ := mem_map.mp hc
    exact Nat.dvd_add (Dvd.dvd.mul_left (by decide) _) (Nat.dvd_mul_left _ _)
  distinct := by decide +kernel

theorem onBuckets_fiveMinutes : OnBuckets (minuteGrid 2) fiveMinutes "3m" (minuteAt 9) where
  days := by simp [dailyUnits]
  rollups := by simp [fiveMinutes]
  room := by
    intro t ht
    have hlt := UtcTime.lt_def.mp ht
    have hle := (minuteGrid 2).start_le t.microseconds
    have hmax : maxOrdinal = 3652059 := by decide
    have hend : (minuteAt 9).microseconds = 739828 * 86400000000 + 249 * 60000000 := rfl
    show (minuteGrid 2).start t.microseconds + 180000000 < _
    unfold dayMicroseconds
    omega

theorem candlePage_oneSeries_iff_fiveMinutes :
    OneSeries .exact id fiveMinutes "3m" (minuteAt 0) (minuteAt 9) 1 ↔
      LimitKeepsCandles .exact id (minuteGrid 2) fiveMinutes "3m" (minuteAt 0) (minuteAt 9) 1 :=
  candlePage_oneSeries_iff .exact id (by simp [rollupGrids]) storedCandles_fiveMinutes
    (fun _ => onBuckets_fiveMinutes) (le_refl 1)

/-- From the second minute of a bucket on, the first page reads the two minutes it leaves out and
two of the three minutes of the bucket that it shows. -/
theorem candlePage_cuts_bucket :
    StoredCandles fiveMinutes ∧ OnBuckets (minuteGrid 2) fiveMinutes "3m" (minuteAt 9) ∧
      ¬ OneSeries .exact id fiveMinutes "3m" (minuteAt 1) (minuteAt 9) 1 := by
  refine ⟨storedCandles_fiveMinutes, onBuckets_fiveMinutes, fun h => ?_⟩
  have hdiffer : (do
      let page ← candlePage .exact id fiveMinutes "3m" (minuteAt 1) (minuteAt 9) 1 none
      let whole ← candlePage .exact id fiveMinutes "3m" (minuteAt 1) (minuteAt 9)
        (fiveMinutes.sourceCandles.length + fiveMinutes.rollups.length) none
      pure (decide (page.items.map shown <+: whole.items.map shown))) = .ok false := by
    decide +kernel
  obtain ⟨page, hpage, hdiffer⟩ := bind_eq_ok.mp hdiffer
  obtain ⟨whole, hwhole, hdiffer⟩ := bind_eq_ok.mp hdiffer
  exact of_decide_eq_false (Except.ok.inj hdiffer) (h.first_page hpage hwhole)

end Goodmoneying.Analysis.CandleSeries
