import Goodmoneying.Program.MissingRanges

/-!
# When missing ranges are exact

Candles start on whole minutes. A scan that begins on a whole minute meets every whole minute of
its range, and its ranges are exactly the minutes without candles. A scan that begins inside of a
minute meets none: it reports the whole range as missing, which is exact only where the range has
no candle.
-/

namespace Goodmoneying.Analysis

open List Library Program

/-- Ascending ranges without overlap in `[startAt, endAt)`, in which the whole minutes are those
that no stored candle starts at. -/
structure ExactRanges (stored : List Instant) (startAt endAt : Instant)
    (ranges : List (Instant × Instant)) : Prop where
  nonempty : ∀ range ∈ ranges, range.1 < range.2
  inside : ∀ range ∈ ranges, startAt ≤ range.1 ∧ range.2 ≤ endAt
  ascending : ranges.Pairwise fun range later => range.2 ≤ later.1
  exact : ∀ m, minute ∣ m → startAt ≤ m → m < endAt →
    ((∃ range ∈ ranges, range.1 ≤ m ∧ m < range.2) ↔ m ∉ stored)

theorem minuteStarts_pairwise (startAt endAt : ℤ) :
    (minuteStarts startAt endAt).Pairwise (· < ·) := by
  unfold minuteStarts
  rw [pairwise_map]
  refine pairwise_lt_range.imp fun {i j} hlt => ?_
  unfold minute
  omega

theorem minuteStarts_bounds {startAt endAt value : ℤ} (h : value ∈ minuteStarts startAt endAt) :
    startAt ≤ value ∧ value < endAt ∧ minute ∣ value - startAt := by
  obtain ⟨i, hi, rfl⟩ := mem_map.mp h
  have hlt := mem_range.mp hi
  unfold minute at *
  exact ⟨by omega, by omega, ⟨i, by ring⟩⟩

theorem mem_minuteStarts_of_dvd {startAt endAt value : ℤ} (hstart : startAt ≤ value)
    (hend : value < endAt) (hdvd : minute ∣ value - startAt) :
    value ∈ minuteStarts startAt endAt := by
  obtain ⟨k, hk⟩ := hdvd
  refine mem_map.mpr ⟨k.toNat, mem_range.mpr ?_, ?_⟩
  · unfold minute at *
    omega
  · unfold minute at *
    omega

theorem minuteStarts_cons {startAt endAt : ℤ} (h : startAt < endAt) :
    ∃ rest, minuteStarts startAt endAt = startAt :: rest := by
  obtain ⟨n, hn⟩ : ∃ n, ((endAt - startAt + (minute - 1)) / minute).toNat = n + 1 := by
    refine Nat.exists_eq_add_one.mpr ?_
    unfold minute
    omega
  unfold minuteStarts
  rw [hn, range_succ_eq_map, map_cons, Nat.cast_zero, zero_mul, add_zero]
  exact ⟨_, rfl⟩

variable {stored : List Instant} {startAt endAt : Instant}

theorem mem_candleStarts {m : Instant} :
    m ∈ candleStarts stored startAt endAt ↔ m ∈ stored ∧ startAt ≤ m ∧ m < endAt := by
  unfold candleStarts
  rw [mem_filter, decide_eq_true_iff]

theorem missingRanges_gapsExact (stored : List Instant) (startAt endAt : Instant) :
    GapsExact (fun current => decide (current ∉ candleStarts stored startAt endAt)) endAt startAt
      (minuteStarts startAt endAt) (missingSourceCandleRanges stored startAt endAt) :=
  scanGaps_exact (minuteStarts_pairwise startAt endAt)
    (fun _ hpoint => (minuteStarts_bounds hpoint).2.1)
    fun _ hpoint => (minuteStarts_bounds hpoint).1

/-- From a whole minute on, the ranges are exact. -/
theorem exactRanges_of_dvd (hstart : minute ∣ startAt) :
    ExactRanges stored startAt endAt (missingSourceCandleRanges stored startAt endAt) := by
  have hgaps := missingRanges_gapsExact stored startAt endAt
  refine ⟨hgaps.nonempty, hgaps.inside, hgaps.ascending, fun m hdvd hfrom hbefore => ?_⟩
  rw [hgaps.exact m (mem_minuteStarts_of_dvd hfrom hbefore (dvd_sub hdvd hstart)),
    decide_eq_true_iff, mem_candleStarts]
  exact ⟨fun h hmem => h ⟨hmem, hfrom, hbefore⟩, fun h hmem => h hmem.1⟩

/-- From inside of a minute on, no candle is met and the whole range is reported. -/
theorem missingRanges_of_not_dvd (hrange : startAt < endAt) (hstart : ¬ minute ∣ startAt)
    (hstored : ∀ candleStartAt ∈ stored, minute ∣ candleStartAt) :
    missingSourceCandleRanges stored startAt endAt = [(startAt, endAt)] := by
  obtain ⟨rest, hrest⟩ := minuteStarts_cons hrange
  have hmissing : ∀ point ∈ startAt :: rest,
      decide (point ∉ candleStarts stored startAt endAt) = true := by
    intro point hpoint
    rw [← hrest] at hpoint
    refine decide_eq_true fun hmem => hstart ?_
    have hdvd := dvd_sub (hstored point (mem_candleStarts.mp hmem).1)
      (minuteStarts_bounds hpoint).2.2
    rwa [sub_sub_cancel] at hdvd
  unfold missingSourceCandleRanges
  rw [hrest]
  exact scanGaps_of_forall_missing hmissing

/-- A report of the whole range is exact where no candle is in it. -/
theorem exactRanges_whole (hrange : startAt < endAt)
    (hstored : ∀ candleStartAt ∈ stored, minute ∣ candleStartAt) :
    ExactRanges stored startAt endAt [(startAt, endAt)] ↔
      ∀ candleStartAt ∈ stored, ¬ (startAt ≤ candleStartAt ∧ candleStartAt < endAt) := by
  constructor
  · intro h candleStartAt hcandle hin
    refine (h.exact candleStartAt (hstored candleStartAt hcandle) hin.1 hin.2).mp ?_ hcandle
    exact ⟨_, mem_singleton_self _, hin⟩
  · intro h
    refine ⟨?_, ?_, pairwise_singleton _ _, fun m _ hfrom hbefore => ?_⟩
    · simpa using hrange
    · simp
    · exact iff_of_true ⟨_, mem_singleton_self _, hfrom, hbefore⟩
        fun hmem => h m hmem ⟨hfrom, hbefore⟩

end Goodmoneying.Analysis
