import Goodmoneying.Library.DecimalOrder
import Goodmoneying.Program.CandleCoverage
import Goodmoneying.Analysis.ConnectionTiling

/-!
# The two coverage statuses of the source candles

The dashboard's status is compared with the one that scans the candles. The scan finds no missing
segment exactly where every minute of the range is stored (`missingSegments_eq_zero_iff`); the
dashboard counts the rows of the whole table in both units, so that a row outside of the range
stands for a missing minute. `coverageStatuses_agree_iff` says when that happens.
-/

namespace Goodmoneying.Analysis.CoverageStatuses

open List Library Program Analysis

variable {startAt endAt t first : ℤ}

/-- The number is so near to the expected one that its percentage is 100.00. -/
def NearlyAll (count expected : ℕ) : Prop :=
  19999 * expected ≤ 20000 * count ∧ 20000 * count ≤ 20001 * expected

instance (count expected : ℕ) : Decidable (NearlyAll count expected) :=
  inferInstanceAs (Decidable (_ ∧ _))

/-- A multiple of the fourteenth decimal, of at most 28 digits. -/
theorem fits_fine {n : ℕ} (h : n < 10 ^ 28) : Fits 28 ((n : ℚ) / 10 ^ 14) := by
  refine ⟨n, -14, ?_, ?_⟩
  · rw [abs_of_nonneg (by positivity)]
    exact_mod_cast h
  · norm_num
    ring

/-- A hundredfold is rounded to 10000 exactly from 9999.5 to 10000.5. -/
theorem nearestEven_eq_tenThousand {y : ℚ} : nearestEven y = 10000 ↔ 9999.5 ≤ y ∧ y ≤ 10000.5 := by
  have hlow := Int.floor_le y
  have hhigh := Int.lt_floor_add_one y
  constructor
  · intro h
    unfold nearestEven at h
    split_ifs at h with h₁ h₂ h₃
    · rw [h] at h₁ hlow
      push_cast at *
      constructor <;> linarith
    · have hfloor : ⌊y⌋ = 9999 := by omega
      rw [hfloor] at h₂ hhigh
      push_cast at *
      constructor <;> linarith
    · rw [h] at h₁ h₂ hlow
      push_cast at *
      constructor <;> linarith
    · -- the tie below, which goes up to the even number
      have hfloor : ⌊y⌋ = 9999 := by omega
      rw [hfloor] at h₁ hhigh
      push_cast at *
      constructor <;> linarith
  · rintro ⟨hle, hge⟩
    have hcases : ⌊y⌋ = 9999 ∨ ⌊y⌋ = 10000 := by
      have h₁ : 9999 ≤ ⌊y⌋ := Int.le_floor.mpr (by push_cast; linarith)
      have h₂ : ⌊y⌋ < 10001 := Int.floor_lt.mpr (by push_cast; linarith)
      omega
    unfold nearestEven
    obtain hfloor | hfloor := hcases <;> rw [hfloor] at hlow hhigh ⊢ <;> push_cast at *
    · rw [if_neg (by linarith)]
      split_ifs <;> norm_num
    · rw [if_neg (c := 1 / 2 < y - 10000) (by linarith)]
      norm_num

/-- The percentage before its two decimals. -/
def percentage (count expected : ℕ) : ℚ :=
  Arithmetic.default.div (Arithmetic.default.mul count 100) expected

section

variable {count expected n : ℕ} (hpos : 0 < expected) (hexpected : expected < 10 ^ 10)
  (hn : n < 10 ^ 18)

include hexpected hn in
/-- The multiple of the expected number that a bound on the percentage is compared with. -/
theorem fits_scaled : Fits 28 ((n : ℚ) / 10 ^ 14 * expected) := by
  have hlt : n * expected < 10 ^ 18 * 10 ^ 10 := Nat.mul_lt_mul'' hn hexpected
  have := fits_fine (n := n * expected) (by rwa [← pow_add] at hlt)
  rwa [Nat.cast_mul, mul_div_right_comm] at this

include hpos hexpected hn in
theorem percentage_le (h : count * 100 * 10 ^ 14 ≤ n * expected) :
    percentage count expected ≤ n / 10 ^ 14 := by
  have hpos' : (0 : ℚ) < expected := by exact_mod_cast hpos
  have hcast : ((count : ℚ) * 100) * 10 ^ 14 ≤ n * expected := by exact_mod_cast h
  have hmul : Arithmetic.default.mul count 100 ≤ n / 10 ^ 14 * expected := by
    refine roundSignificant_le (by norm_num) (fits_scaled hexpected hn) ?_
    rwa [div_mul_eq_mul_div, le_div_iff₀ (by norm_num)]
  exact roundSignificant_le (by norm_num) (fits_fine (by omega)) ((div_le_iff₀ hpos').mpr hmul)

include hpos hexpected hn in
theorem le_percentage (h : n * expected ≤ count * 100 * 10 ^ 14) :
    (n : ℚ) / 10 ^ 14 ≤ percentage count expected := by
  have hpos' : (0 : ℚ) < expected := by exact_mod_cast hpos
  have hcast : (n : ℚ) * expected ≤ (count * 100) * 10 ^ 14 := by exact_mod_cast h
  have hmul : n / 10 ^ 14 * expected ≤ Arithmetic.default.mul count 100 := by
    refine le_roundSignificant (by norm_num) (fits_scaled hexpected hn) ?_
    rwa [div_mul_eq_mul_div, div_le_iff₀ (by norm_num)]
  exact le_roundSignificant (by norm_num) (fits_fine (by omega)) ((le_div_iff₀ hpos').mpr hmul)

include hpos hexpected in
/-- The rounding of the percentage decides nothing: a number that is not nearly all is at least
the fourteenth decimal away. -/
theorem progressPercent_eq_hundred_iff :
    progressPercent count expected = 100 ↔ NearlyAll count expected := by
  have hrounded : progressPercent count expected = 100 ↔
      nearestEven (100 * percentage count expected) = 10000 := by
    rw [progressPercent, div_eq_iff (by norm_num)]
    norm_num [percentage]
    exact_mod_cast Iff.rfl
  rw [hrounded, nearestEven_eq_tenThousand, NearlyAll]
  constructor
  · rintro ⟨hlow, hhigh⟩
    by_contra hfar
    obtain hless | hmore : 20000 * count < 19999 * expected ∨ 20001 * expected < 20000 * count := by
      omega
    · have : percentage count expected ≤ (9999499999999990 : ℕ) / 10 ^ 14 :=
        percentage_le hpos hexpected (by norm_num) (by omega)
      norm_num at *
      linarith
    · have : (10000500000000010 : ℕ) / 10 ^ 14 ≤ percentage count expected :=
        le_percentage hpos hexpected (by norm_num) (by omega)
      norm_num at *
      linarith
  · rintro ⟨hlow, hhigh⟩
    have h₁ : (9999500000000000 : ℕ) / 10 ^ 14 ≤ percentage count expected :=
      le_percentage hpos hexpected (by norm_num) (by omega)
    have h₂ : percentage count expected ≤ (10000500000000000 : ℕ) / 10 ^ 14 :=
      percentage_le hpos hexpected (by norm_num) (by omega)
    norm_num at *
    constructor <;> linarith

end

theorem expectedMinutes_pos (startAt endAt : ℤ) : 0 < expectedMinutes startAt endAt := by
  unfold expectedMinutes
  omega

/-- No more minutes are expected than the range has room for. -/
theorem expectedMinutes_le {n : ℕ} (hn : 0 < n) (hsmall : n < 10 ^ 10)
    (h : endAt - startAt ≤ n * minute) : expectedMinutes startAt endAt ≤ n := by
  have hseconds : totalSeconds (endAt - startAt) ≤ ((n * 60 : ℕ) : ℚ) := by
    refine roundDouble_le (by omega) ?_
    have hcast : ((endAt - startAt : ℤ) : ℚ) ≤ ((n * minute : ℤ) : ℚ) := by exact_mod_cast h
    rw [div_le_iff₀ (by norm_num)]
    push_cast [minute] at hcast ⊢
    linarith
  have hfloor : ⌊totalSeconds (endAt - startAt) / 60⌋ < (n : ℤ) + 1 := by
    rw [Int.floor_lt, div_lt_iff₀ (by norm_num)]
    push_cast at *
    linarith
  unfold expectedMinutes
  omega

/-- The calendar ends before `4 * 10 ^ 17` microseconds. -/
theorem instant_bounds (t : UtcTime) : 0 ≤ t.instant ∧ t.instant < 4 * 10 ^ 17 := by
  have := t.in_calendar
  unfold maxOrdinal dayMicroseconds at this
  unfold UtcTime.instant Instant
  omega

theorem coverageRangeEnd_lt (plan : CollectionPlan) (now : UtcTime) :
    coverageRangeEnd plan now < 4 * 10 ^ 17 := by
  unfold coverageRangeEnd
  split
  · exact (instant_bounds _).2
  · exact (minuteBucket_le _).trans_lt (instant_bounds now).2

/-- The expected number of a plan has at most ten digits. -/
theorem expectedMinutes_lt (plan : CollectionPlan) (now : UtcTime) :
    expectedMinutes plan.rangeStartAt.instant (coverageRangeEnd plan now) < 10 ^ 10 := by
  have hend := coverageRangeEnd_lt plan now
  have hstart := (instant_bounds plan.rangeStartAt).1
  have hroom : coverageRangeEnd plan now - plan.rangeStartAt.instant ≤
      ((10 ^ 10 - 1 : ℕ) : ℤ) * minute := by
    unfold Instant minute at *
    omega
  have := expectedMinutes_le (by norm_num) (by norm_num) hroom
  omega

/-- A scan of candles on one grid of minutes finds no gap exactly where every minute of the
grid, up to the last candle, is among them. -/
theorem gapCount_eq_zero_iff {p : ℤ} {l : List ℤ} (hsorted : (p :: l).Pairwise (· < ·))
    (hgrid : ∀ u ∈ l, minute ∣ u - p) : gapCount (some p) l = 0 ↔
      ∀ t, p ≤ t → (∃ u ∈ p :: l, t ≤ u) → minute ∣ t - p → t ∈ p :: l := by
  induction l generalizing p with
  | nil =>
    simp only [gapCount, mem_singleton, exists_eq_left, true_iff]
    intro t hle hge _
    omega
  | cons b l ih =>
    obtain ⟨hfirst, hrest⟩ := pairwise_cons.mp hsorted
    have hlater := (pairwise_cons.mp hrest).1
    have hpb := hfirst b mem_cons_self
    have hb := hgrid b mem_cons_self
    have hshift : ∀ {t : ℤ}, minute ∣ t - p ↔ minute ∣ t - b := by
      intro t
      unfold minute at *
      omega
    have hnext : ¬ p + minute < b ↔ b = p + minute := by
      unfold minute at *
      omega
    have htail := ih hrest fun u hu => hshift.mp (hgrid u (mem_cons_of_mem _ hu))
    have hgap : gapCount (some p) (b :: l) = 0 ↔
        b = p + minute ∧ gapCount (some b) l = 0 := by
      simp only [gapCount, Option.mem_def, Option.some.injEq, exists_eq_left',
        Nat.add_eq_zero_iff, ite_eq_right_iff, one_ne_zero, imp_false, hnext]
    rw [hgap, htail]
    constructor
    · rintro ⟨hstep, hall⟩ t hle ⟨u, hu, htu⟩ hdvd
      obtain rfl | hlt := eq_or_lt_of_le hle
      · exact mem_cons_self
      have hbt : b ≤ t := by
        unfold minute at *
        omega
      have hup : u ∈ b :: l := by
        refine (mem_cons.mp hu).resolve_left ?_
        omega
      exact mem_cons_of_mem _ (hall t hbt ⟨u, hup, htu⟩ (hshift.mp hdvd))
    · intro hall
      have hstep : b = p + minute := by
        have hmem := hall (p + minute) (by unfold minute; omega)
          ⟨b, by simp, by unfold minute at *; omega⟩ (by simp)
        simp only [mem_cons] at hmem
        obtain heq | heq | hlate := hmem
        · unfold minute at heq
          omega
        · exact heq.symm
        · have := hlater _ hlate
          unfold minute at *
          omega
      refine ⟨hstep, fun t hle ⟨u, hu, htu⟩ hdvd => ?_⟩
      have hmem := hall t (by omega) ⟨u, mem_cons_of_mem _ hu, htu⟩ (hshift.mpr hdvd)
      refine (mem_cons.mp hmem).resolve_left ?_
      omega

/-- The starts of minutes are counted from the start of the range, whole or not. -/
theorem mem_minuteStarts_iff :
    t ∈ minuteStarts startAt endAt ↔ startAt ≤ t ∧ t < endAt ∧ minute ∣ t - startAt := by
  simp only [minuteStarts, mem_map, mem_range]
  constructor
  · rintro ⟨i, hi, rfl⟩
    unfold minute at *
    exact ⟨by omega, by omega, by simp⟩
  · rintro ⟨hle, hlt, n, hn⟩
    refine ⟨n.toNat, ?_, ?_⟩ <;> unfold minute at * <;> omega

/-- Every minute of the range, counted from its start, has a 1m candle. -/
def EveryMinute (table : SourceCandleTable) (instrumentId startAt endAt : ℤ) : Prop :=
  ∀ t : ℤ, startAt ≤ t → t < endAt → minute ∣ t - startAt → t ∈ table.minuteCandles instrumentId

section Scan

variable {table : SourceCandleTable} {instrumentId startAt endAt : ℤ}

theorem minute_dvd_of_mem (h : t ∈ table.minuteCandles instrumentId) : minute ∣ t := by
  obtain ⟨row, hrow, rfl⟩ := mem_map.mp h
  simp only [mem_filter, decide_eq_true_eq] at hrow
  exact table.aligned row hrow.1 hrow.2.2

/-- The 1m candles of an instrument have distinct starts. -/
theorem minuteCandles_nodup (table : SourceCandleTable) (instrumentId : ℤ) :
    (table.minuteCandles instrumentId).Nodup := by
  have hrows : table.rows.Nodup := List.Nodup.of_map _ table.unique
  refine List.Nodup.map_on ?_ (hrows.filter _)
  intro row hrow other hother hstart
  simp only [mem_filter, decide_eq_true_eq] at hrow hother
  refine KeyedTable.eq_of_key hrow.1 hother.1 ?_
  have hsame : row.candleStartAt = other.candleStartAt := by
    unfold UtcTime.instant Instant at hstart
    exact UtcTime.ext (by exact_mod_cast hstart)
  simp [StoredCandle.key, hrow.2, hother.2, hsame]

theorem mem_orderedCandles : t ∈ table.orderedCandles instrumentId startAt endAt ↔
      t ∈ table.minuteCandles instrumentId ∧ startAt ≤ t ∧ t < endAt := by
  rw [SourceCandleTable.orderedCandles, (sortedBy_perm _ _).mem_iff, mem_filter, decide_eq_true_eq]

theorem orderedCandles_sorted :
    (table.orderedCandles instrumentId startAt endAt).Pairwise (· < ·) := by
  have hnodup : (((table.minuteCandles instrumentId).filter fun t =>
      startAt ≤ t ∧ t < endAt).map id).Nodup := by
    rw [map_id]
    exact (minuteCandles_nodup table instrumentId).filter _
  exact sortedBy_lt_of_nodup hnodup

/-- The scan counts candles that are rows of the table. -/
theorem length_orderedCandles_le : (table.orderedCandles instrumentId startAt endAt).length ≤
    table.tableCount instrumentId := by
  have hminutes : (table.minuteCandles instrumentId).length ≤ table.tableCount instrumentId := by
    rw [SourceCandleTable.minuteCandles, length_map, SourceCandleTable.tableCount]
    refine (monotone_filter_right _ fun row hrow => ?_).length_le
    simp only [decide_eq_true_eq] at hrow ⊢
    exact hrow.1
  calc (table.orderedCandles instrumentId startAt endAt).length
      = ((table.minuteCandles instrumentId).filter fun t => startAt ≤ t ∧ t < endAt).length :=
        (sortedBy_perm _ _).length_eq
    _ ≤ (table.minuteCandles instrumentId).length := length_filter_le _ _
    _ ≤ table.tableCount instrumentId := hminutes

theorem summary_of_nil (h : table.orderedCandles instrumentId startAt endAt = []) :
    sourceCandleCoverageSummary table instrumentId startAt endAt = (0, 1, none) := by
  simp [sourceCandleCoverageSummary, h]

/-- The summary of a range with candles, by its first and its last one. -/
theorem summary_of_cons {rest : List ℤ}
    (h : table.orderedCandles instrumentId startAt endAt = first :: rest) :
    ∃ latest ∈ first :: rest, (∀ u ∈ first :: rest, u ≤ latest) ∧
      sourceCandleCoverageSummary table instrumentId startAt endAt =
        ((first :: rest).length,
          gapCount (some first) rest + (if startAt < first then 1 else 0) +
            (if latest + minute < endAt then 1 else 0),
          some latest) := by
  have hsorted : (first :: rest).Pairwise (· < ·) := h ▸ orderedCandles_sorted
  have hmin : (first :: rest).min? = some first := by
    rw [List.min?_eq_some_iff]
    refine ⟨mem_cons_self, fun u hu => ?_⟩
    obtain rfl | hlater := mem_cons.mp hu
    · exact le_rfl
    · exact ((pairwise_cons.mp hsorted).1 u hlater).le
  obtain ⟨latest, hlatest⟩ : ∃ latest, (first :: rest).max? = some latest :=
    Option.isSome_iff_exists.mp (by simp)
  obtain ⟨hmem, hall⟩ := List.max?_eq_some_iff.mp hlatest
  refine ⟨latest, hmem, hall, ?_⟩
  simp [sourceCandleCoverageSummary, h, hmin, hlatest, gapCount]

/-- The scan finds no missing segment exactly where every minute of the range is stored. -/
theorem missingSegments_eq_zero_iff {latest : ℤ} {rest : List ℤ}
    (h : table.orderedCandles instrumentId startAt endAt = first :: rest)
    (hlatest : latest ∈ first :: rest) (hall : ∀ u ∈ first :: rest, u ≤ latest) :
    gapCount (some first) rest + (if startAt < first then 1 else 0) +
        (if latest + minute < endAt then 1 else 0) = 0 ↔
      EveryMinute table instrumentId startAt endAt := by
  have hsorted : (first :: rest).Pairwise (· < ·) := h ▸ orderedCandles_sorted
  have hmem : ∀ t, t ∈ first :: rest ↔
      t ∈ table.minuteCandles instrumentId ∧ startAt ≤ t ∧ t < endAt := by
    intro t
    rw [← h, mem_orderedCandles]
  have hdvd : ∀ t ∈ first :: rest, minute ∣ t := fun t ht => minute_dvd_of_mem ((hmem t).mp ht).1
  have hfirst := (hmem first).mp mem_cons_self
  have hscan := gapCount_eq_zero_iff hsorted fun u hu =>
    dvd_sub (hdvd u (mem_cons_of_mem _ hu)) (hdvd first mem_cons_self)
  have hzero : gapCount (some first) rest + (if startAt < first then 1 else 0) +
      (if latest + minute < endAt then 1 else 0) = 0 ↔
      gapCount (some first) rest = 0 ∧ first ≤ startAt ∧ endAt ≤ latest + minute := by
    simp only [Nat.add_eq_zero_iff, ite_eq_right_iff, one_ne_zero, imp_false, not_lt, and_assoc]
  rw [hzero, hscan]
  have hdvdLatest := hdvd latest hlatest
  have hdvdFirst := hdvd first mem_cons_self
  have hlatest' := (hmem latest).mp hlatest
  constructor
  · rintro ⟨hgrid, hbegin, hend⟩ t hle hlt hdvdt
    refine ((hmem t).mp (hgrid t (by omega) ⟨latest, hlatest, ?_⟩ ?_)).1
    · unfold minute at *
      omega
    · rwa [show first = startAt by omega]
  · intro hevery
    have hstart : first = startAt := by
      have hmemStart := (hmem startAt).mpr
        ⟨hevery startAt le_rfl (by omega) (by simp), le_rfl, by omega⟩
      obtain heq | hlater := mem_cons.mp hmemStart
      · exact heq.symm
      · have hlt : first < startAt := (pairwise_cons.mp hsorted).1 _ hlater
        omega
    refine ⟨fun t hle ⟨u, hu, htu⟩ hdvdt => ?_, by omega, ?_⟩
    · have := (hmem u).mp hu
      exact (hmem t).mpr ⟨hevery t (by omega) (by omega) (hstart ▸ hdvdt), by omega, by omega⟩
    · by_contra hbefore
      have hafter := (hmem (latest + minute)).mpr
        ⟨hevery _ (by unfold minute; omega) (by omega) (by unfold minute at *; omega),
          by unfold minute; omega, by omega⟩
      have := hall _ hafter
      unfold minute at this
      omega

/-- Where every minute of the range is stored, the scan finds as many candles as minutes begin
in the range. -/
theorem orderedCandles_eq_minuteStarts (hevery : EveryMinute table instrumentId startAt endAt)
    (hsome : table.orderedCandles instrumentId startAt endAt ≠ []) :
    table.orderedCandles instrumentId startAt endAt = minuteStarts startAt endAt := by
  obtain ⟨u, hu⟩ := exists_mem_of_ne_nil _ hsome
  have hrange := mem_orderedCandles.mp hu
  have hstart : minute ∣ startAt := minute_dvd_of_mem (hevery startAt le_rfl (by omega) (by simp))
  refine eq_of_pairwise_lt id orderedCandles_sorted (ConnectionTiling.minuteStarts_sorted _ _)
    fun t => ?_
  rw [mem_orderedCandles, mem_minuteStarts_iff]
  constructor
  · rintro ⟨hmem, hle, hlt⟩
    exact ⟨hle, hlt, dvd_sub (minute_dvd_of_mem hmem) hstart⟩
  · rintro ⟨hle, hlt, hdvd⟩
    exact ⟨hevery t hle hlt hdvd, hle, hlt⟩

end Scan

section Statuses

variable (table : SourceCandleTable) (instrumentId : ℤ) (plan : CollectionPlan) (now : UtcTime)

/-- The level and the missing segments of a status: no candle, or what is counted. -/
structure Reports (status : CoverageStatus) (missing : ℕ) (count expected : ℕ) : Prop where
  missing_eq : status.missingSegmentCount = missing
  level : status.status = if missing = 0 ∧ NearlyAll count expected then .normal else .warning

/-- A status without a last candle. -/
structure ReportsNothing (status : CoverageStatus) : Prop where
  missing_eq : status.missingSegmentCount = 1
  level : status.status = .incident

variable {table instrumentId plan now}

theorem scanned_of_nil
    (h : table.orderedCandles instrumentId plan.rangeStartAt.instant (coverageRangeEnd plan now) =
      []) : ReportsNothing (sourceCandleCoverageStatus table instrumentId plan now) := by
  constructor <;> simp [sourceCandleCoverageStatus, summary_of_nil h]

/-- The scan reports no missing segment where every minute is stored, and as many candles as
there are in the range. -/
theorem scanned_of_ne_nil
    (h : table.orderedCandles instrumentId plan.rangeStartAt.instant (coverageRangeEnd plan now) ≠
      []) : ∃ missing, (missing = 0 ↔ EveryMinute table instrumentId plan.rangeStartAt.instant
        (coverageRangeEnd plan now)) ∧
      Reports (sourceCandleCoverageStatus table instrumentId plan now) missing
        (table.orderedCandles instrumentId plan.rangeStartAt.instant
          (coverageRangeEnd plan now)).length
        (expectedMinutes plan.rangeStartAt.instant (coverageRangeEnd plan now)) := by
  obtain ⟨first, rest, hcons⟩ := exists_cons_of_ne_nil h
  obtain ⟨latest, hlatest, hall, hsummary⟩ := summary_of_cons hcons
  refine ⟨_, missingSegments_eq_zero_iff hcons hlatest hall, ?_, ?_⟩
  · simp [sourceCandleCoverageStatus, hsummary]
  · simp only [sourceCandleCoverageStatus, hsummary, hcons,
      progressPercent_eq_hundred_iff (expectedMinutes_pos _ _) (expectedMinutes_lt plan now)]

theorem counted_of_nil (h : table.minuteCandles instrumentId = []) :
    ReportsNothing (dashboardCoverageStatus table instrumentId plan now) := by
  constructor <;> simp [dashboardCoverageStatus, sourceCandleCoverageStatusFromSummary,
    SourceCandleTable.candleRange, h]

/-- The ends of the 1m candles lie at the ends of the range or beyond, and no row is missing. -/
theorem summaryMissingSegments_eq_zero_iff {storedCount expected : ℕ} {latest : ℤ} :
    summaryMissingSegments storedCount expected startAt endAt (some first) latest = 0 ↔
      first ≤ startAt ∧ endAt ≤ latest + minute ∧ expected ≤ storedCount := by
  have hends : ((if startAt < first then 1 else 0) + (if latest + minute < endAt then 1 else 0) =
      0) ↔ first ≤ startAt ∧ endAt ≤ latest + minute := by
    simp only [Nat.add_eq_zero_iff, ite_eq_right_iff, one_ne_zero, imp_false, not_lt]
  simp only [summaryMissingSegments, Option.mem_def, Option.some.injEq, exists_eq_left', hends]
  by_cases hless : storedCount < expected ∧ first ≤ startAt ∧ endAt ≤ latest + minute
  · rw [if_pos hless]
    simp only [one_ne_zero, false_iff]
    omega
  · rw [if_neg hless, hends]
    omega

/-- The dashboard reports no missing segment where a 1m candle begins by the start of the range,
one ends at its end or later, and there are as many rows as expected minutes. -/
theorem counted_of_ne_nil (h : table.minuteCandles instrumentId ≠ []) : ∃ missing, (missing = 0 ↔
        (∃ t ∈ table.minuteCandles instrumentId, t ≤ plan.rangeStartAt.instant) ∧
        (∃ t ∈ table.minuteCandles instrumentId, coverageRangeEnd plan now ≤ t + minute) ∧
        expectedMinutes plan.rangeStartAt.instant (coverageRangeEnd plan now) ≤
          table.tableCount instrumentId) ∧
      Reports (dashboardCoverageStatus table instrumentId plan now) missing
        (table.tableCount instrumentId)
        (expectedMinutes plan.rangeStartAt.instant (coverageRangeEnd plan now)) := by
  obtain ⟨first, hfirst⟩ : ∃ first, (table.minuteCandles instrumentId).min? = some first :=
    Option.isSome_iff_exists.mp (by simpa [isSome_min?_iff] using h)
  obtain ⟨latest, hlatest⟩ : ∃ latest, (table.minuteCandles instrumentId).max? = some latest :=
    Option.isSome_iff_exists.mp (by simpa [isSome_max?_iff] using h)
  obtain ⟨hfirstMem, hfirstLe⟩ := List.min?_eq_some_iff.mp hfirst
  obtain ⟨hlatestMem, hleLatest⟩ := List.max?_eq_some_iff.mp hlatest
  have hbegin : (∃ t ∈ table.minuteCandles instrumentId, t ≤ plan.rangeStartAt.instant) ↔
      first ≤ plan.rangeStartAt.instant :=
    ⟨fun ⟨t, ht, hle⟩ => (hfirstLe t ht).trans hle, fun hle => ⟨first, hfirstMem, hle⟩⟩
  have hend : (∃ t ∈ table.minuteCandles instrumentId, coverageRangeEnd plan now ≤ t + minute) ↔
      coverageRangeEnd plan now ≤ latest + minute :=
    ⟨fun ⟨t, ht, hle⟩ => hle.trans (add_le_add_left (hleLatest t ht) _),
      fun hle => ⟨latest, hlatestMem, hle⟩⟩
  refine ⟨summaryMissingSegments (table.tableCount instrumentId)
    (expectedMinutes plan.rangeStartAt.instant (coverageRangeEnd plan now))
    plan.rangeStartAt.instant (coverageRangeEnd plan now) (some first) latest, ?_, ?_, ?_⟩
  · rw [hbegin, hend]
    exact summaryMissingSegments_eq_zero_iff
  · simp [dashboardCoverageStatus, sourceCandleCoverageStatusFromSummary,
      SourceCandleTable.candleRange, hfirst, hlatest]
  · simp only [dashboardCoverageStatus, sourceCandleCoverageStatusFromSummary,
      SourceCandleTable.candleRange, hfirst, hlatest,
      progressPercent_eq_hundred_iff (expectedMinutes_pos _ _) (expectedMinutes_lt plan now)]

variable (table instrumentId plan now)

/-- The two statuses have one level and agree on whether segments are missing, and a normal one
is of a range of which every minute is stored. -/
structure StatusesAgree : Prop where
  level : (dashboardCoverageStatus table instrumentId plan now).status =
    (sourceCandleCoverageStatus table instrumentId plan now).status
  missing : (dashboardCoverageStatus table instrumentId plan now).missingSegmentCount = 0 ↔
    (sourceCandleCoverageStatus table instrumentId plan now).missingSegmentCount = 0
  normal : (dashboardCoverageStatus table instrumentId plan now).status = .normal ∨
      (sourceCandleCoverageStatus table instrumentId plan now).status = .normal →
    EveryMinute table instrumentId plan.rangeStartAt.instant (coverageRangeEnd plan now)

/-- There is no 1m candle at all, or one in the range, and then: where every minute is stored,
the rows are as near to the expected number as the minutes of the range are; where a minute is
missing, the 1m candles begin after the start of the range or end before its end, or the
rows of both units together are fewer than the expected minutes. -/
def RowsTellCoverage : Prop :=
  let startAt := plan.rangeStartAt.instant
  let endAt := coverageRangeEnd plan now
  let expected := expectedMinutes startAt endAt
  table.minuteCandles instrumentId = [] ∨
    (∃ t ∈ table.minuteCandles instrumentId, startAt ≤ t ∧ t < endAt) ∧
    (EveryMinute table instrumentId startAt endAt →
      (NearlyAll (minuteStarts startAt endAt).length expected ↔
        NearlyAll (table.tableCount instrumentId) expected)) ∧
    (¬ EveryMinute table instrumentId startAt endAt →
      (∀ t ∈ table.minuteCandles instrumentId, startAt < t) ∨
        (∀ t ∈ table.minuteCandles instrumentId, t + minute < endAt) ∨
        table.tableCount instrumentId < expected)

variable {table instrumentId plan now}

/-- Where every minute is stored, the dashboard reports no missing segment either. -/
theorem no_segment_of_everyMinute (hevery : EveryMinute table instrumentId plan.rangeStartAt.instant
      (coverageRangeEnd plan now))
    (hsome : table.orderedCandles instrumentId plan.rangeStartAt.instant
      (coverageRangeEnd plan now) ≠ []) :
    (∃ t ∈ table.minuteCandles instrumentId, t ≤ plan.rangeStartAt.instant) ∧
      (∃ t ∈ table.minuteCandles instrumentId, coverageRangeEnd plan now ≤ t + minute) ∧
      expectedMinutes plan.rangeStartAt.instant (coverageRangeEnd plan now) ≤
        table.tableCount instrumentId := by
  obtain ⟨u, hu⟩ := exists_mem_of_ne_nil _ hsome
  obtain ⟨-, hle, hlt⟩ := mem_orderedCandles.mp hu
  have hend := coverageRangeEnd_lt plan now
  have hstart := (instant_bounds plan.rangeStartAt).1
  generalize coverageRangeEnd plan now = endAt at *
  generalize plan.rangeStartAt.instant = startAt at *
  unfold Instant at *
  have hstarts := orderedCandles_eq_minuteStarts hevery hsome
  have hlength : (minuteStarts startAt endAt).length =
      ((endAt - startAt + (minute - 1)) / minute).toNat := by
    simp [minuteStarts]
  refine ⟨⟨startAt, hevery startAt le_rfl (by omega) (by simp), le_rfl⟩,
    ⟨startAt + (endAt - 1 - startAt) / minute * minute, hevery _ ?_ ?_ (by simp), ?_⟩, ?_⟩
  · unfold minute
    omega
  · unfold minute
    omega
  · unfold minute
    omega
  · calc expectedMinutes startAt endAt ≤ (minuteStarts startAt endAt).length := by
          rw [hlength]
          refine expectedMinutes_le ?_ ?_ ?_ <;> unfold minute <;> omega
      _ = (table.orderedCandles instrumentId startAt endAt).length := by rw [hstarts]
      _ ≤ table.tableCount instrumentId := length_orderedCandles_le

variable (table instrumentId plan now)

end Statuses

/-- The minutes of the first hour of 2026-07-01. -/
def julyMinute (n : ℕ) : UtcTime where
  microseconds := 739797 * dayMicroseconds + n % 60 * 60000000
  in_calendar := by
    have := Nat.mod_lt n (show 60 > 0 by decide)
    unfold maxOrdinal dayMicroseconds
    omega

/-- Two minutes out of three, and the candle of the day. -/
def twoMinutesAndDay : SourceCandleTable where
  rows := [⟨1, .oneMinute, julyMinute 0⟩, ⟨1, .oneMinute, julyMinute 2⟩,
    ⟨1, .oneDay, julyMinute 0⟩]
  unique := by decide
  aligned := by decide

/-- The first three minutes of the day. -/
def threeMinutes : CollectionPlan where
  rangeStartAt := julyMinute 0
  rangeEndAt := some (julyMinute 3)

end Goodmoneying.Analysis.CoverageStatuses
