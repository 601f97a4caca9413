import Mathlib.Order.Interval.Finset.Nat
import Goodmoneying.Analysis.BucketCandles
import Goodmoneying.Program.CandleSeries

/-!
# The rows that a page of candles reads

The source rows of a unit start at different times (`validRows_sourceRows`), and a bucket has no
more of them than `_source_page_limit` allows for it (`count_sourceCell_le`). A range that begins
within a bucket leaves fewer of them in it (`length_early_lt`). `_next_candle_bucket_start` finds
the end of a bucket (`nextCandleBucketStart_eq_ok`).
-/

namespace Goodmoneying.Analysis.CandleSeries

open List Library
open Program
open Program.Aggregation
open Program.CandleSeries
open Analysis.BucketCandles

variable {c : SourceCandle}

/-- Source candles are of minutes or days and begin with a minute, one of each unit and start. -/
structure StoredCandles (db : CandleTables) : Prop where
  candleUnit : ∀ c ∈ db.sourceCandles, c.candleUnit = "1m" ∨ c.candleUnit = "1d"
  wholeMinute : ∀ c ∈ db.sourceCandles, 60000000 ∣ c.candleStartAt.microseconds
  distinct : (db.sourceCandles.map fun c => (c.candleUnit, c.candleStartAt)).Nodup

/-- The stored candles of whole days, if the unit takes them, and the rollups begin with a bucket,
and the calendar has room for every bucket of the range. -/
structure OnBuckets (grid : Grid) (db : CandleTables) (unit : String) (endAt : UtcTime) : Prop where
  days : unit ∈ dailyUnits → ∀ c ∈ db.sourceCandles, c.candleUnit = "1d" →
    sourceCell dayGrid c = c.candleStartAt
  rollups : ∀ row ∈ db.rollups, row.candleUnit = unit →
    cellStart grid row.candleStartAt = row.candleStartAt
  room : ∀ t < endAt, grid.next (grid.start t.microseconds) < maxOrdinal * dayMicroseconds

variable {db : CandleTables} {unit : String} {grid : Grid} {startAt endAt : UtcTime}

theorem StoredCandles.pairwise_ne (h : StoredCandles db) : db.sourceCandles.Pairwise fun c d =>
    (c.candleUnit, c.candleStartAt) ≠ (d.candleUnit, d.candleStartAt) :=
  pairwise_map.mp h.distinct

theorem mem_sourceRows : c ∈ sourceRows db unit startAt endAt ↔ c ∈ db.sourceCandles ∧
      sourceFilter db unit c = true ∧ startAt ≤ c.candleStartAt ∧ c.candleStartAt < endAt := by
  rw [sourceRows, mem_sortedBy, mem_filter, decide_eq_true_iff]

/-- The rows of a later beginning are rows of an earlier one. -/
theorem filter_sourceRows {later : UtcTime} (hle : startAt ≤ later) {p : SourceCandle → Bool}
    (hp : ∀ c, p c = true → later ≤ c.candleStartAt) :
    (sourceRows db unit startAt endAt).filter p = (sourceRows db unit later endAt).filter p := by
  rw [sourceRows, sourceRows, filter_sortedBy, filter_sortedBy, filter_filter, filter_filter]
  congr 1
  apply filter_congr
  intro c _
  cases hpc : p c with
  | false => rfl
  | true => simp [hp c hpc, hle.trans (hp c hpc)]

theorem sourceFilter_of_daily (hdaily : unit ∈ dailyUnits) :
    sourceFilter db unit c = true ↔ c.candleUnit = "1d" ∨ c.candleUnit = "1m" ∧
      ¬ ∃ daily ∈ db.sourceCandles, daily.candleUnit = "1d" ∧
        daily.candleStartAt = cellStart dayGrid c.candleStartAt := by
  unfold sourceFilter
  split_ifs with h
  · rw [decide_eq_true_iff, midnight_eq]
  · exact absurd hdaily h

theorem sourceFilter_of_not_daily (hdaily : unit ∉ dailyUnits) :
    sourceFilter db unit c = true ↔ c.candleUnit = "1m" := by
  unfold sourceFilter
  split_ifs with h
  · exact absurd h hdaily
  · rw [decide_eq_true_iff]

/-- A candle of a minute is no row of a long unit on a day that has its own candle. -/
theorem candleUnit_eq_of_same_start (hbuckets : OnBuckets grid db unit endAt)
    (hdb : StoredCandles db) {d : SourceCandle} (hc : c ∈ db.sourceCandles)
    (hd : d ∈ db.sourceCandles) (hcf : sourceFilter db unit c = true)
    (hdf : sourceFilter db unit d = true) (hstart : c.candleStartAt = d.candleStartAt) :
    c.candleUnit = d.candleUnit := by
  have hminute : ∀ {c d : SourceCandle}, c ∈ db.sourceCandles → d ∈ db.sourceCandles →
      sourceFilter db unit c = true → c.candleStartAt = d.candleStartAt →
      c.candleUnit = "1m" → d.candleUnit ≠ "1d" ∨ unit ∉ dailyUnits := by
    intro c d hc hd hcf hstart hunit
    by_contra hboth
    push Not at hboth
    obtain ⟨hday, hdaily⟩ := hboth
    rcases (sourceFilter_of_daily hdaily).mp hcf with himpossible | ⟨-, hnone⟩
    · simp [hunit] at himpossible
    · apply hnone
      refine ⟨d, hd, hday, ?_⟩
      rw [hstart]
      exact (hbuckets.days hdaily d hd hday).symm
  have hdaily : ∀ c : SourceCandle, sourceFilter db unit c = true → c.candleUnit = "1d" →
      unit ∈ dailyUnits := by
    intro c hcf hunit
    by_contra hnot
    have hminute := (sourceFilter_of_not_daily hnot).mp hcf
    simp [hunit] at hminute
  rcases hdb.candleUnit c hc with hcu | hcu <;> rcases hdb.candleUnit d hd with hdu | hdu
  · rw [hcu, hdu]
  · rcases hminute hc hd hcf hstart hcu with hnot | hnot
    · exact absurd hdu hnot
    · exact absurd (hdaily d hdf hdu) hnot
  · rcases hminute hd hc hdf hstart.symm hdu with hnot | hnot
    · exact absurd hcu hnot
    · exact absurd (hdaily c hcf hcu) hnot
  · rw [hcu, hdu]

/-- The source rows are in the order of time, no two at one time. -/
theorem validRows_sourceRows (hdb : StoredCandles db) (hbuckets : OnBuckets grid db unit endAt) :
    ValidRows unit (sourceRows db unit startAt endAt) where
  ascending := by
    apply sortedBy_lt_of_nodup
    rw [List.Nodup, pairwise_map]
    refine (hdb.pairwise_ne.filter _).imp_of_mem fun {c d} hc hd hne hstart => hne ?_
    rw [mem_filter, decide_eq_true_iff] at hc hd
    rw [hstart, candleUnit_eq_of_same_start hbuckets hdb hc.1 hd.1 hc.2.1 hd.2.1 hstart]
  candleUnit := by
    intro c hc
    obtain ⟨hmem, hfilter, -⟩ := mem_sourceRows.mp hc
    by_cases hdaily : unit ∈ dailyUnits
    · exact (hdb.candleUnit c hmem).imp_right fun hday =>
        ⟨hdaily, hday, hbuckets.days hdaily c hmem hday⟩
    · exact Or.inl ((sourceFilter_of_not_daily hdaily).mp hfilter)

theorem sourceRows_room (hbuckets : OnBuckets grid db unit endAt)
    (hc : c ∈ sourceRows db unit startAt endAt) :
    grid.next (grid.start c.candleStartAt.microseconds) < maxOrdinal * dayMicroseconds :=
  hbuckets.room _ (mem_sourceRows.mp hc).2.2.2

/-- The buckets of the rows ascend. -/
theorem sourceCell_pairwise {rows : List SourceCandle} (hrows : ValidRows unit rows) :
    rows.Pairwise fun c d => sourceCell grid c ≤ sourceCell grid d :=
  hrows.ascending.imp fun hlt => cellStart_mono grid hlt.le

/-- Rows that begin with different minutes of a stretch are no more than its minutes. -/
theorem length_le_of_minutes {rows : List SourceCandle} (hrows : ValidRows unit rows)
    (hwhole : ∀ c ∈ rows, 60000000 ∣ c.candleStartAt.microseconds) (first : ℕ) {count : ℕ}
    (hwithin : ∀ c ∈ rows, first * 60000000 ≤ c.candleStartAt.microseconds ∧
      c.candleStartAt.microseconds < (first + count) * 60000000) : rows.length ≤ count := by
  let minuteOf : SourceCandle → ℕ := fun c => c.candleStartAt.microseconds / 60000000
  have hascending : rows.Pairwise fun c d => minuteOf c < minuteOf d := by
    refine hrows.ascending.imp_of_mem fun {c d} hc hd hlt => ?_
    have hc' := Nat.div_mul_cancel (hwhole c hc)
    have hd' := Nat.div_mul_cancel (hwhole d hd)
    have := UtcTime.lt_def.mp hlt
    show c.candleStartAt.microseconds / 60000000 < d.candleStartAt.microseconds / 60000000
    omega
  have hsubset : (rows.map minuteOf).toFinset ⊆ Finset.Ico first (first + count) := by
    intro minute hminute
    obtain ⟨c, hc, rfl⟩ := mem_map.mp (mem_toFinset.mp hminute)
    obtain ⟨hfrom, hto⟩ := hwithin c hc
    rw [Finset.mem_Ico]
    constructor
    · exact (Nat.le_div_iff_mul_le (by decide)).mpr hfrom
    · exact (Nat.div_lt_iff_lt_mul (by decide)).mpr hto
  have hcard := Finset.card_le_card hsubset
  rw [toFinset_card_of_nodup (nodup_keys hascending), length_map, Nat.card_Ico] at hcard
  omega

/-- `rows_per_output` is at least the minutes of a bucket, and buckets begin with a minute. -/
structure AllowsFor (grid : Grid) (most : ℕ) : Prop where
  pos : 0 < most
  next_le : ∀ t, grid.next (grid.start t) ≤ grid.start t + most * 60000000
  dvd_start : ∀ t, 60000000 ∣ grid.start t

theorem allowsFor_fixed {most length : ℕ} {hpos : 0 < length} (hmost : 0 < most)
    (hlength : length = most * 60000000) : AllowsFor (.fixed length hpos) most where
  pos := hmost
  next_le := by
    intro t
    rw [Grid.fixed_next]
    omega
  dvd_start := by
    intro t
    have hdvd : 60000000 ∣ length := Dvd.intro_left most hlength.symm
    exact hdvd.trans (Nat.dvd_sub_mod t)

theorem allowsFor_month : AllowsFor calendarMonthGrid (31 * 24 * 60) where
  pos := by decide
  next_le := calendarMonth_next_le
  dvd_start := by
    intro t
    exact Dvd.dvd.mul_right (by decide) _

/-- `rows_per_output` allows for a whole bucket of every unit. -/
theorem exists_allowsFor (hunit : (unit, grid) ∈ derivedGrids) :
    ∃ most, rowsPerOutput.lookup unit = some most ∧ AllowsFor grid most := by
  simp only [derivedGrids, rollupGrids, tail_cons, mem_cons, Prod.mk.injEq,
    not_mem_nil, or_false] at hunit
  rcases hunit with ⟨rfl, rfl⟩ | ⟨rfl, rfl⟩ | ⟨rfl, rfl⟩ | ⟨rfl, rfl⟩ | ⟨rfl, rfl⟩ | ⟨rfl, rfl⟩ |
    ⟨rfl, rfl⟩ | ⟨rfl, rfl⟩ | ⟨rfl, rfl⟩ | ⟨rfl, rfl⟩
  · exact ⟨3, by decide, allowsFor_fixed (by decide) (by decide)⟩
  · exact ⟨5, by decide, allowsFor_fixed (by decide) (by decide)⟩
  · exact ⟨10, by decide, allowsFor_fixed (by decide) (by decide)⟩
  · exact ⟨15, by decide, allowsFor_fixed (by decide) (by decide)⟩
  · exact ⟨30, by decide, allowsFor_fixed (by decide) (by decide)⟩
  · exact ⟨60, by decide, allowsFor_fixed (by decide) (by decide)⟩
  · exact ⟨240, by decide, allowsFor_fixed (by decide) (by decide)⟩
  · exact ⟨24 * 60, by decide, allowsFor_fixed (by decide) (by decide)⟩
  · exact ⟨7 * 24 * 60, by decide, allowsFor_fixed (by decide) (by decide)⟩
  · exact ⟨31 * 24 * 60, by decide, allowsFor_month⟩

section Counts

variable {most : ℕ} {rows : List SourceCandle} (hmost : AllowsFor grid most)
  (hrows : ValidRows unit rows) (hwhole : ∀ c ∈ rows, 60000000 ∣ c.candleStartAt.microseconds)

include hmost hrows hwhole

/-- A bucket has no more rows than are allowed for it. -/
theorem count_sourceCell_le (bucket : UtcTime) :
    (rows.map (sourceCell grid)).count bucket ≤ most := by
  have hcount : (rows.map (sourceCell grid)).count bucket =
      (rows.filter fun c => sourceCell grid c = bucket).length := by
    rw [List.count, countP_map, countP_eq_length_filter]
    congr 1
  rw [hcount]
  apply length_le_of_minutes (hrows.sublist filter_sublist)
    (fun c hc => hwhole c (mem_of_mem_filter hc)) (bucket.microseconds / 60000000)
  intro c hc
  obtain ⟨-, hcell⟩ := mem_filter.mp hc
  obtain rfl := of_decide_eq_true hcell
  have hsplit := Nat.div_mul_cancel (hmost.dvd_start c.candleStartAt.microseconds)
  have hfrom := grid.start_le c.candleStartAt.microseconds
  have hto := (grid.lt_next c.candleStartAt.microseconds).trans_le (hmost.next_le _)
  show grid.start c.candleStartAt.microseconds / 60000000 * 60000000 ≤ _ ∧
    _ < (grid.start c.candleStartAt.microseconds / 60000000 + most) * 60000000
  rw [add_mul, hsplit]
  exact ⟨hfrom, hto⟩

/-- A range that begins within a bucket has fewer rows of it. -/
theorem length_early_lt (hfrom : ∀ c ∈ rows, startAt ≤ c.candleStartAt) :
    (rows.filter fun c => sourceCell grid c < startAt).length < most := by
  have hpos := hmost.pos
  have hlength : (rows.filter fun c => sourceCell grid c < startAt).length ≤ most - 1 := by
    apply length_le_of_minutes (hrows.sublist filter_sublist)
      (fun c hc => hwhole c (mem_of_mem_filter hc))
      ((cellStart grid startAt).microseconds / 60000000 + 1)
    intro c hc
    obtain ⟨hmem, hearly⟩ := mem_filter.mp hc
    have hearly : sourceCell grid c < startAt := of_decide_eq_true hearly
    -- the range begins in the bucket of such a row, after its beginning
    have hsame : cellStart grid startAt = sourceCell grid c := cellStart_eq_iff.mpr
      ⟨hearly.le, (UtcTime.le_def.mp (hfrom c hmem)).trans_lt (grid.lt_next _)⟩
    rw [hsame]
    have hsplit := Nat.div_mul_cancel (hmost.dvd_start c.candleStartAt.microseconds)
    have hwithin := Nat.div_mul_cancel (hwhole c hmem)
    have hstart := UtcTime.lt_def.mp (hearly.trans_le (hfrom c hmem))
    have hto := (grid.lt_next c.candleStartAt.microseconds).trans_le (hmost.next_le _)
    change grid.start c.candleStartAt.microseconds < _ at hstart
    show (grid.start c.candleStartAt.microseconds / 60000000 + 1) * 60000000 ≤ _ ∧
      _ < (grid.start c.candleStartAt.microseconds / 60000000 + 1 + (most - 1)) * 60000000
    omega
  omega

end Counts

/-- `_next_candle_bucket_start` finds the end of a bucket, if it lies within the calendar. -/
theorem nextCandleBucketStart_eq_ok (hunit : (unit, grid) ∈ derivedGrids) {s e : UtcTime}
    (hs : cellStart grid s = s) :
    nextCandleBucketStart s unit = .ok e ↔ e.microseconds = grid.next s.microseconds := by
  have hsame : nextCandleBucketStart s unit = rollupBucketEnd unit s := by
    have hall : ∀ entry ∈ derivedGrids, nextCandleBucketStart s entry.1 =
        rollupBucketEnd entry.1 s := by
      simp [derivedGrids, rollupGrids, nextCandleBucketStart, rollupBucketEnd, bucketMinutes,
        durations, lookup_cons]
    exact hall _ hunit
  rw [hsame]
  exact rollupBucketEnd_eq_ok hunit hs

end Goodmoneying.Analysis.CandleSeries
