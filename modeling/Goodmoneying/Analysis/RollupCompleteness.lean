import Goodmoneying.Analysis.WeekMonthCandles

/-!
# When a complete bucket is known in every minute

A bucket is reported complete and available exactly when each of its slots is taken or is
known to be without trade (`complete_iff`). The slots of a day are minutes. The slots of weeks
and months are days, and a day is taken by a single minute, so the law about minutes holds of
them under a condition only (`minutesKnown_iff`).
-/

namespace Goodmoneying.Analysis

open List Library
open Program
open Program.Aggregation
open Goodmoneying.Program.VersionedIndicators (CandleQuality Completeness)

variable {statuses : List CoverageQuality} {coverage : List CoverageSlice} {bucket : UtcTime}
  {items : List Item} {unit : String} {size : ℕ} {ar : Arithmetic} {sha256 : String → String}
  {view : CandleView}
variable {slotStart : UtcTime} {expectedSize : ℕ} {group : Group UtcTime Item}
  {source : List SourceCandle}

/-- A segment covers the time from `start` to `stop`. -/
def Covers (segment : CoverageSlice) (start stop : ℕ) : Prop :=
  segment.startAt.microseconds ≤ start ∧ stop ≤ segment.endAt.microseconds

/-- Some segment covers the slot, and all that do say that there was no trade. -/
def SlotWithoutTrade (coverage : List CoverageSlice) (start stop : ℕ) : Prop :=
  (∃ segment ∈ coverage, Covers segment start stop) ∧
    ∀ segment ∈ coverage, Covers segment start stop → segment.status = .noTrade

/-- The minute is the start of a candle, or a segment says that there was no trade in it. -/
def MinuteKnown (source : List SourceCandle) (coverage : List CoverageSlice) (minute : ℕ) : Prop :=
  (∃ candle ∈ source, candle.candleStartAt.microseconds = minute) ∨
    ∃ segment ∈ coverage, segment.status = .noTrade ∧ Covers segment minute (minute + 60000000)

/-! ## Slots -/

/-- Nothing but `no_trade`, said of the other statuses one by one. -/
theorem forall_noTrade_iff : (∀ status ∈ statuses, status = .noTrade) ↔
      .missing ∉ statuses ∧ .unavailable ∉ statuses ∧ .unverified ∉ statuses ∧
        .available ∉ statuses := by
  constructor
  · intro h
    refine ⟨?_, ?_, ?_, ?_⟩ <;> exact fun hmem => absurd (h _ hmem) (by decide)
  · rintro ⟨hmissing, hunavailable, hunverified, havailable⟩ status hstatus
    cases status with
    | noTrade => rfl
    | available => exact absurd hstatus havailable
    | missing => exact absurd hstatus hmissing
    | unavailable => exact absurd hstatus hunavailable
    | unverified => exact absurd hstatus hunverified

theorem slotQuality_eq_noTrade_iff (h : statuses ≠ []) :
    slotQuality statuses = .noTrade ↔ ∀ status ∈ statuses, status = .noTrade := by
  rw [forall_noTrade_iff]
  by_cases hmissing : CandleQuality.missing ∈ statuses
  · simp [slotQuality, hmissing]
  by_cases hunavailable : CandleQuality.unavailable ∈ statuses
  · simp [slotQuality, hmissing, hunavailable]
  by_cases hunverified : CandleQuality.unverified ∈ statuses
  · simp [slotQuality, hmissing, hunavailable, hunverified]
  by_cases havailable : CandleQuality.available ∈ statuses
  · simp [slotQuality, hmissing, hunavailable, hunverified, havailable]
  -- what is left is a status, and it can only be `no_trade`
  obtain ⟨status, hstatus⟩ := exists_mem_of_ne_nil _ h
  have hnoTrade : CandleQuality.noTrade ∈ statuses := by
    rwa [forall_noTrade_iff.mpr ⟨hmissing, hunavailable, hunverified, havailable⟩ status hstatus]
      at hstatus
  simp [slotQuality, hmissing, hunavailable, hunverified, havailable, hnoTrade]

theorem worstQuality_eq_available_iff :
    worstQuality statuses = .available ↔ ∀ status ∈ statuses, status = .noTrade := by
  rw [forall_noTrade_iff]
  by_cases hmissing : CandleQuality.missing ∈ statuses
  · simp [worstQuality, hmissing]
  by_cases hunavailable : CandleQuality.unavailable ∈ statuses
  · simp [worstQuality, hmissing, hunavailable]
  by_cases hunverified : CandleQuality.unverified ∈ statuses
  · simp [worstQuality, hmissing, hunavailable, hunverified]
  by_cases havailable : CandleQuality.available ∈ statuses
  · simp [worstQuality, hmissing, hunavailable, hunverified, havailable]
  · simp [worstQuality, hmissing, hunavailable, hunverified, havailable]

/-- The status of a slot that no item takes. -/
def openSlotStatus (coverage : List CoverageSlice) (slotStart slotEnd : UtcTime) :
    CoverageQuality :=
  if matches_ coverage slotStart slotEnd = [] then .unverified
  else slotQuality (matches_ coverage slotStart slotEnd)

/-- An open slot is without trade exactly where the coverage says so of all of it. -/
theorem openSlotStatus_eq_noTrade_iff {slotEnd : UtcTime} :
    openSlotStatus coverage slotStart slotEnd = .noTrade ↔
      SlotWithoutTrade coverage slotStart.microseconds slotEnd.microseconds := by
  have hmem : ∀ status, status ∈ matches_ coverage slotStart slotEnd ↔
      ∃ segment ∈ coverage, Covers segment slotStart.microseconds slotEnd.microseconds ∧
        segment.status = status := by
    intro status
    simp [matches_, Covers, UtcTime.le_def, and_assoc]
  have hall : (∀ status ∈ matches_ coverage slotStart slotEnd, status = .noTrade) ↔
      ∀ segment ∈ coverage, Covers segment slotStart.microseconds slotEnd.microseconds →
        segment.status = .noTrade := by
    constructor
    · intro h segment hsegment hcovers
      exact h _ ((hmem _).mpr ⟨segment, hsegment, hcovers, rfl⟩)
    · intro h status hstatus
      obtain ⟨segment, hsegment, hcovers, rfl⟩ := (hmem status).mp hstatus
      exact h segment hsegment hcovers
  unfold openSlotStatus SlotWithoutTrade
  split_ifs with hnone
  · constructor
    · intro h
      cases h
    · rintro ⟨⟨segment, hsegment, hcovers⟩, -⟩
      have := (hmem segment.status).mpr ⟨segment, hsegment, hcovers, rfl⟩
      rw [hnone] at this
      cases this
  · rw [slotQuality_eq_noTrade_iff hnone, hall]
    obtain ⟨status, hstatus⟩ := exists_mem_of_ne_nil _ hnone
    obtain ⟨segment, hsegment, hcovers, -⟩ := (hmem status).mp hstatus
    exact ⟨fun h => ⟨⟨segment, hsegment, hcovers⟩, h⟩, fun h => h.2⟩

/-- What the status of a slot is: none if an item takes it. -/
theorem slotStatus_eq_ok {offset : ℕ} {status : Option CoverageQuality}
    (h : slotStatus bucket items coverage unit offset = .ok status) : ∃ slotStart : UtcTime,
      slotStart.microseconds = bucket.microseconds + slotMicroseconds unit * offset ∧
      (slotStart ∈ items.map Item.startedAt ∧ status = none ∨
        slotStart ∉ items.map Item.startedAt ∧ ∃ slotEnd : UtcTime,
          slotEnd.microseconds = slotStart.microseconds + slotMicroseconds unit ∧
          status = some (openSlotStatus coverage slotStart slotEnd)) := by
  obtain ⟨slotStart, hstart, h⟩ := bind_eq_ok.mp h
  rw [UtcTime.addTimedelta_eq_ok, slotDelta_eq] at hstart
  refine ⟨slotStart, by exact_mod_cast hstart, ?_⟩
  by_cases htaken : slotStart ∈ items.map Item.startedAt
  · rw [if_pos htaken] at h
    exact Or.inl ⟨htaken, (pure_eq_ok.mp h).symm⟩
  · rw [if_neg htaken] at h
    obtain ⟨slotEnd, hend, h⟩ := bind_eq_ok.mp h
    rw [UtcTime.addTimedelta_eq_ok, slotDelta_eq] at hend
    exact Or.inr ⟨htaken, slotEnd, by exact_mod_cast hend, (pure_eq_ok.mp h).symm⟩

/-- A slot is taken by an item. -/
def Taken (items : List Item) (start : ℕ) : Prop :=
  ∃ item ∈ items, item.startedAt.microseconds = start

theorem taken_iff : slotStart ∈ items.map Item.startedAt ↔ Taken items slotStart.microseconds := by
  rw [mem_map]
  exact exists_congr fun item => and_congr_right fun _ => UtcTime.ext_iff

/-- The statuses are those of the slots that no item takes. -/
theorem missingSlotStatuses_spec
    (h : missingSlotStatuses bucket size items coverage unit = .ok statuses) :
    (∀ status ∈ statuses, ∃ offset < size, ∃ slotStart slotEnd : UtcTime,
      slotStart.microseconds = bucket.microseconds + slotMicroseconds unit * offset ∧
      slotEnd.microseconds = slotStart.microseconds + slotMicroseconds unit ∧
      ¬ Taken items slotStart.microseconds ∧ status = openSlotStatus coverage slotStart slotEnd) ∧
    ∀ offset < size, ¬ Taken items (bucket.microseconds + slotMicroseconds unit * offset) →
      ∃ slotStart slotEnd : UtcTime,
        slotStart.microseconds = bucket.microseconds + slotMicroseconds unit * offset ∧
        slotEnd.microseconds = slotStart.microseconds + slotMicroseconds unit ∧
        openSlotStatus coverage slotStart slotEnd ∈ statuses := by
  obtain ⟨results, hresults, h⟩ := bind_eq_ok.mp h
  obtain rfl := pure_eq_ok.mp h
  obtain ⟨hback, hforth⟩ := mem_of_mapM_eq_ok hresults
  constructor
  · intro status hstatus
    obtain ⟨result, hresult, hsome⟩ := mem_filterMap.mp hstatus
    obtain ⟨offset, hoffset, hslot⟩ := hback result hresult
    obtain ⟨slotStart, hstart, ⟨-, rfl⟩ | ⟨hopen, slotEnd, hend, rfl⟩⟩ := slotStatus_eq_ok hslot
    · cases hsome
    · exact ⟨offset, mem_range.mp hoffset, slotStart, slotEnd, hstart, hend,
        mt taken_iff.mpr hopen, (Option.some.inj hsome).symm⟩
  · intro offset hoffset hopen
    obtain ⟨result, hresult, hslot⟩ := hforth offset (mem_range.mpr hoffset)
    obtain ⟨slotStart, hstart, ⟨htaken, -⟩ | ⟨-, slotEnd, hend, rfl⟩⟩ := slotStatus_eq_ok hslot
    · rw [taken_iff, hstart] at htaken
      exact absurd htaken hopen
    · exact ⟨slotStart, slotEnd, hstart, hend, mem_filterMap.mpr ⟨_, hresult, rfl⟩⟩

/-- The missing slots are all without trade when every slot is taken or without trade. -/
theorem missingSlotStatuses_noTrade_iff
    (h : missingSlotStatuses bucket size items coverage unit = .ok statuses) :
    (∀ status ∈ statuses, status = .noTrade) ↔ ∀ offset < size,
        Taken items (bucket.microseconds + slotMicroseconds unit * offset) ∨
        SlotWithoutTrade coverage (bucket.microseconds + slotMicroseconds unit * offset)
          (bucket.microseconds + slotMicroseconds unit * offset + slotMicroseconds unit) := by
  obtain ⟨hback, hforth⟩ := missingSlotStatuses_spec h
  constructor
  · intro hall offset hoffset
    rw [or_iff_not_imp_left]
    intro hopen
    obtain ⟨slotStart, slotEnd, hstart, hend, hmem⟩ := hforth offset hoffset hopen
    have hnoTrade := hall _ hmem
    rwa [openSlotStatus_eq_noTrade_iff, hend, hstart] at hnoTrade
  · intro hall status hstatus
    obtain ⟨offset, hoffset, slotStart, slotEnd, hstart, hend, hopen, rfl⟩ := hback status hstatus
    rw [hstart] at hopen
    rw [openSlotStatus_eq_noTrade_iff, hend, hstart]
    exact (hall offset hoffset).resolve_left hopen

theorem slotMicroseconds_pos (unit : String) : 0 < slotMicroseconds unit := by
  unfold slotMicroseconds
  split_ifs <;> decide

/-- Items that start at different slots leave the other slots missing. -/
theorem length_missingSlotStatuses
    (h : missingSlotStatuses bucket size items coverage unit = .ok statuses) (hslots : ∀ item ∈
      items, ∃ offset < size, item.startedAt.microseconds = bucket.microseconds + slotMicroseconds
      unit * offset) (hnodup : (items.map Item.startedAt).Nodup) :
    statuses.length + items.length = size := by
  let slot : ℕ → ℕ := fun offset => bucket.microseconds + slotMicroseconds unit * offset
  let starts : List ℕ := items.map fun item => item.startedAt.microseconds
  obtain ⟨results, hresults, h⟩ := bind_eq_ok.mp h
  obtain rfl := pure_eq_ok.mp h
  have hopen : results.map Option.isSome =
      (List.range size).map fun offset => !decide (slot offset ∈ starts) := by
    apply map_eq_of_mapM_eq_ok hresults
    intro offset _ result hslot
    have hiff : slot offset ∈ starts ↔ Taken items (slot offset) := mem_map
    obtain ⟨slotStart, hstart, ⟨htaken, rfl⟩ | ⟨htaken, slotEnd, -, rfl⟩⟩ := slotStatus_eq_ok hslot
    · rw [taken_iff, hstart] at htaken
      simp [hiff.mpr htaken]
    · rw [taken_iff, hstart] at htaken
      simp [mt hiff.mp htaken]
  have hmissing : (results.filterMap id).length =
      (List.range size).countP fun offset => !decide (slot offset ∈ starts) := by
    rw [length_filterMap_eq_countP]
    have := congrArg (List.countP id) hopen
    rw [countP_map, countP_map] at this
    exact this
  have hstarts : (((List.range size).filter fun offset => slot offset ∈ starts).map slot).Perm
      starts := by
    apply (perm_ext_iff_of_nodup _ _).mpr
    · intro start
      simp only [mem_map, mem_filter, mem_range, decide_eq_true_eq]
      constructor
      · rintro ⟨offset, ⟨-, hmem⟩, rfl⟩
        exact hmem
      · intro hmem
        obtain ⟨item, hitem, rfl⟩ := mem_map.mp hmem
        obtain ⟨offset, hoffset, hstart⟩ := hslots item hitem
        have hslot : slot offset = item.startedAt.microseconds := hstart.symm
        exact ⟨offset, ⟨hoffset, hslot ▸ hmem⟩, hslot⟩
    · apply (nodup_range.filter _).map
      intro first second heq
      exact Nat.eq_of_mul_eq_mul_left (slotMicroseconds_pos unit) (Nat.add_left_cancel heq)
    · have hinj : Function.Injective UtcTime.microseconds := fun _ _ => UtcTime.ext
      have := hnodup.map hinj
      rwa [map_map] at this
  have htaken : items.length = (List.range size).countP fun offset => slot offset ∈ starts := by
    rw [countP_eq_length_filter, ← length_map (f := slot), hstarts.length_eq, length_map]
  have hsplit := length_eq_countP_add_countP (fun offset => decide (slot offset ∈ starts))
    (l := List.range size)
  have hnot : (fun offset => decide ¬decide (slot offset ∈ starts) = true) =
      fun offset => !decide (slot offset ∈ starts) := by
    funext offset
    simp
  rw [length_range, hnot] at hsplit
  rw [hmissing, htaken]
  omega

/-! ## Buckets -/

/-- A view says that its bucket is known throughout. -/
def ReportedKnown (view : CandleView) : Prop :=
  view.completeness = .complete ∧ view.quality = .available

/-- A bucket reported known has its slots taken or without trade. -/
theorem slots_of_reportedKnown
    (h : aggregateGroup ar sha256 expectedSize coverage unit group = .ok view)
    (hknown : ReportedKnown view) : ∀ offset < requiredSlots expectedSize group.key,
      Taken group.items (group.key.microseconds + slotMicroseconds unit * offset) ∨
      SlotWithoutTrade coverage (group.key.microseconds + slotMicroseconds unit * offset)
        (group.key.microseconds + slotMicroseconds unit * offset + slotMicroseconds unit) := by
  obtain ⟨statuses, hstatuses, h⟩ := bind_eq_ok.mp h
  obtain rfl := pure_eq_ok.mp h
  have hquality : worstQuality statuses = .available := hknown.2
  rw [worstQuality_eq_available_iff, missingSlotStatuses_noTrade_iff hstatuses] at hquality
  intro offset hoffset
  have hslot := hquality offset hoffset
  rw [Taken] at hslot ⊢
  simpa only [mem_sortedBy] using hslot

/-- A bucket is complete when its items take all slots but those without trade. -/
theorem bucketView_complete_iff {first : Item} {rest : List Item}
    (hlength : statuses.length + (first :: rest).length = size) :
    (bucketView ar sha256 bucket size first rest statuses).completeness = .complete ↔
      ∀ status ∈ statuses, status = .noTrade := by
  show (if _ then Completeness.complete else _) = _ ↔ _
  cases hstatuses : statuses with
  | nil =>
    rw [hstatuses, length_nil, Nat.zero_add] at hlength
    rw [if_pos (Or.inl hlength)]
    exact iff_of_true rfl (by simp)
  | cons status others =>
    rw [hstatuses, length_cons] at hlength
    constructor
    · intro h
      by_contra hnot
      rw [if_neg] at h
      · cases h
      · rintro (hall | ⟨-, -, hall⟩)
        · omega
        · exact hnot hall
    · exact fun h => if_pos (Or.inr ⟨by omega, cons_ne_nil _ _, h⟩)

/-- A bucket whose items start at different slots is reported known exactly when each slot is
taken or without trade. -/
theorem reportedKnown_iff (h : aggregateGroup ar sha256 expectedSize coverage unit group = .ok view)
    (hslots : ∀ item ∈ group.items, ∃ offset < requiredSlots expectedSize group.key,
      item.startedAt.microseconds = group.key.microseconds + slotMicroseconds unit * offset)
    (hnodup : (group.items.map Item.startedAt).Nodup) :
    ReportedKnown view ↔ ∀ offset < requiredSlots expectedSize group.key,
      Taken group.items (group.key.microseconds + slotMicroseconds unit * offset) ∨
      SlotWithoutTrade coverage (group.key.microseconds + slotMicroseconds unit * offset)
        (group.key.microseconds + slotMicroseconds unit * offset + slotMicroseconds unit) := by
  refine ⟨slots_of_reportedKnown h, fun hall => ?_⟩
  obtain ⟨statuses, hstatuses, h⟩ := bind_eq_ok.mp h
  obtain rfl := pure_eq_ok.mp h
  have hnoTrade : ∀ status ∈ statuses, status = .noTrade := by
    rw [missingSlotStatuses_noTrade_iff hstatuses]
    intro offset hoffset
    simpa only [Taken, mem_sortedBy] using hall offset hoffset
  have hlength := length_missingSlotStatuses hstatuses (by simpa only [mem_sortedBy] using hslots)
    ((nodup_map_sortedBy _).mpr hnodup)
  exact ⟨(bucketView_complete_iff (by rwa [cons_head_tail])).mpr hnoTrade,
    worstQuality_eq_available_iff.mpr hnoTrade⟩

/-! ## Days, weeks and months -/

theorem dayGrid_start_eq_self_iff {t : ℕ} : dayGrid.start t = t ↔ dayMicroseconds ∣ t := by
  rw [dayGrid, Grid.fixed_start, Nat.dvd_iff_mod_eq_zero]
  have := Nat.mod_le t dayMicroseconds
  omega

theorem secondStep_slotMicroseconds {grid : Grid} (hunit : (unit, grid, size) ∈ secondStepUnits) :
    slotMicroseconds unit = dayMicroseconds := by
  simp only [secondStepUnits, mem_cons, Prod.mk.injEq, not_mem_nil, or_false] at hunit
  rcases hunit with ⟨rfl, -⟩ | ⟨rfl, -⟩ <;> rfl

section SecondStep

variable {ar : Arithmetic} {sha256 : String → String} {source : List SourceCandle}
  {coverage : List CoverageSlice} {daily : List CandleView} {size size' : ℕ}
  {unit unit' : String} {grid : Grid} {group : Group UtcTime Item}
variable {day : ℕ}

theorem mem_daily_group (hgroup : group ∈ cellGroups grid (daily.map .view)) {item : Item} :
    item ∈ group.items ↔
      (∃ view ∈ daily, .view view = item) ∧ cellStart grid item.startedAt = group.key := by
  rw [items_of_mem_grouped hgroup, mem_filter, mem_map, decide_eq_true_iff]

/-- The items of a group start in the cell of its key. -/
theorem cellStart_eq_key_iff (hgroup : group ∈ cellGroups grid items) {t : UtcTime} :
    cellStart grid t = group.key ↔ group.key.microseconds ≤ t.microseconds ∧
        t.microseconds < grid.next group.key.microseconds := by
  obtain ⟨member, -, hkey⟩ := mem_keys_cellGroups hgroup
  rw [← hkey, cellStart_eq_iff, UtcTime.le_def]

theorem day_dvd_key (hnested : dayGrid.Nested grid) (hgroup : group ∈ cellGroups grid items) :
    dayMicroseconds ∣ group.key.microseconds := by
  obtain ⟨member, -, hkey⟩ := mem_keys_cellGroups hgroup
  rw [← hkey, ← dayGrid_start_eq_self_iff]
  exact hnested.start_start _

theorem next_key (hunit : (unit, grid, size) ∈ secondStepUnits)
    (hgroup : group ∈ cellGroups grid items) :
    group.key.microseconds + dayMicroseconds * requiredSlots size group.key =
      grid.next group.key.microseconds := by
  obtain ⟨member, -, hkey⟩ := mem_keys_cellGroups hgroup
  have hslots := secondStep_slots hunit member.startedAt
  rw [hkey, secondStep_slotMicroseconds hunit] at hslots
  rw [hslots, ← hkey]
  rfl

/-- A day of the bucket is the day of an item when a minute starts on it. -/
theorem taken_day_iff (hdaily : aggregateGroups ar sha256 (cellGroups dayGrid (source.map .source))
      size coverage unit = .ok daily) (hgroup : group ∈ cellGroups grid (daily.map .view))
    (hfrom : group.key.microseconds ≤ day) (hto : day < grid.next group.key.microseconds) :
    Taken group.items day ↔
      ∃ candle ∈ source, dayGrid.start candle.candleStartAt.microseconds = day := by
  constructor
  · rintro ⟨item, hitem, rfl⟩
    obtain ⟨⟨view, hview, rfl⟩, -⟩ := (mem_daily_group hgroup).mp hitem
    obtain ⟨candle, hcandle, hday⟩ := (mem_daily_iff hdaily).mp (mem_map_of_mem hview)
    exact ⟨candle, hcandle, congrArg UtcTime.microseconds hday⟩
  · rintro ⟨candle, hcandle, rfl⟩
    obtain ⟨view, hview, hday⟩ := mem_map.mp ((mem_daily_iff hdaily).mpr ⟨candle, hcandle, rfl⟩)
    refine ⟨.view view, (mem_daily_group hgroup).mpr ⟨⟨view, hview, rfl⟩, ?_⟩,
      congrArg UtcTime.microseconds hday⟩
    rw [cellStart_eq_key_iff hgroup]
    show _ ≤ view.startedAt.microseconds ∧ view.startedAt.microseconds < _
    rw [hday]
    exact ⟨hfrom, hto⟩

/-- A day of the bucket is the day of one of its slots. -/
theorem exists_slot_of_day (hunit : (unit, grid, size) ∈ secondStepUnits)
    (hgroup : group ∈ cellGroups grid items) (hfrom : group.key.microseconds ≤ day)
    (hto : day < grid.next group.key.microseconds) (hdvd : dayMicroseconds ∣ day) :
    ∃ offset < requiredSlots size group.key,
      day = group.key.microseconds + dayMicroseconds * offset := by
  have hnext := next_key hunit hgroup
  obtain ⟨offset, hoffset⟩ := Nat.dvd_sub hdvd (day_dvd_key (secondStep_nested hunit) hgroup)
  have hlt : dayMicroseconds * offset < dayMicroseconds * requiredSlots size group.key := by
    omega
  exact ⟨offset, Nat.lt_of_mul_lt_mul_left hlt, by omega⟩

/-- The days that have a candle, or are known to be without trade, make a week or a month
reported known. -/
theorem secondStep_known_iff (hdaily : aggregateGroups ar sha256 (cellGroups dayGrid (source.map
      .source)) size coverage unit = .ok daily) (hunit : (unit', grid, size') ∈ secondStepUnits)
    {views : List CandleView} (hviews : aggregateGroups ar sha256 (cellGroups grid (daily.map
      .view)) size' coverage unit' = .ok views) (hview : view ∈ views) :
    ReportedKnown view ↔ ∀ day, view.startedAt.microseconds ≤ day →
      day < grid.next view.startedAt.microseconds → dayMicroseconds ∣ day →
        (∃ candle ∈ source, dayGrid.start candle.candleStartAt.microseconds = day) ∨
          SlotWithoutTrade coverage day (day + dayMicroseconds) := by
  obtain ⟨group, hgroup, hround⟩ := (mem_of_mapM_eq_ok hviews).1 view hview
  have hgroup := mem_sortedBy.mp hgroup
  have hdelta := secondStep_slotMicroseconds hunit
  have hslots : ∀ item ∈ group.items, ∃ offset < requiredSlots size' group.key,
      item.startedAt.microseconds =
        group.key.microseconds + slotMicroseconds unit' * offset := by
    intro item hitem
    obtain ⟨hfrom, hto⟩ := (cellStart_eq_key_iff hgroup).mp ((mem_daily_group hgroup).mp hitem).2
    obtain ⟨candle, -, hday⟩ := (taken_day_iff hdaily hgroup hfrom hto).mp ⟨item, hitem, rfl⟩
    rw [hdelta]
    apply exists_slot_of_day hunit hgroup hfrom hto
    rw [← hday, ← dayGrid_start_eq_self_iff]
    exact dayGrid.start_start _
  have hnodup : (group.items.map Item.startedAt).Nodup := by
    rw [items_of_mem_grouped hgroup, filter_map, map_map, List.Nodup, pairwise_map]
    exact ((startedAt_pairwise hdaily).filter _).imp fun hlt => hlt.ne
  rw [reportedKnown_iff hround hslots hnodup, aggregateGroup_startedAt hround, hdelta]
  constructor
  · intro hall day hfrom hto hdvd
    obtain ⟨offset, hoffset, rfl⟩ := exists_slot_of_day hunit hgroup hfrom hto hdvd
    rw [← taken_day_iff hdaily hgroup hfrom hto]
    exact hall offset hoffset
  · intro hall offset hoffset
    have hfrom := Nat.le_add_right group.key.microseconds (dayMicroseconds * offset)
    have hto : group.key.microseconds + dayMicroseconds * offset <
        grid.next group.key.microseconds := by
      rw [← next_key hunit hgroup]
      exact Nat.add_lt_add_left (Nat.mul_lt_mul_of_pos_left hoffset (by decide)) _
    rw [taken_day_iff hdaily hgroup hfrom hto]
    exact hall _ hfrom hto (Nat.dvd_add (day_dvd_key (secondStep_nested hunit) hgroup)
      (Nat.dvd_mul_right _ _))

end SecondStep

/-- Every minute of the bucket is known. -/
def KnownInEveryMinute (grid : Grid) (source : List SourceCandle) (coverage : List CoverageSlice)
    (bucket : UtcTime) : Prop :=
  ∀ minute, bucket.microseconds ≤ minute → minute < grid.next bucket.microseconds →
    60000000 ∣ minute → MinuteKnown source coverage minute

/-- A day of the bucket has no candle, and its slot is not known to be without trade. -/
def UnknownDay (grid : Grid) (source : List SourceCandle) (coverage : List CoverageSlice)
    (bucket : UtcTime) : Prop :=
  ∃ day, bucket.microseconds ≤ day ∧ day < grid.next bucket.microseconds ∧
    dayMicroseconds ∣ day ∧
    (∀ candle ∈ source, dayGrid.start candle.candleStartAt.microseconds ≠ day) ∧
    ¬ SlotWithoutTrade coverage day (day + dayMicroseconds)

/-- The minutes of the days that have a candle are known. -/
def CandleDaysKnown (grid : Grid) (source : List SourceCandle) (coverage : List CoverageSlice)
    (bucket : UtcTime) : Prop :=
  ∀ minute, bucket.microseconds ≤ minute → minute < grid.next bucket.microseconds →
    60000000 ∣ minute →
    (∃ candle ∈ source,
      dayGrid.start candle.candleStartAt.microseconds = dayGrid.start minute) →
    MinuteKnown source coverage minute

/-- A segment that covers a slot covers its minutes. -/
theorem MinuteKnown.of_slot {start stop minute : ℕ} (h : SlotWithoutTrade coverage start stop)
    (hfrom : start ≤ minute) (hto : minute + 60000000 ≤ stop) :
    MinuteKnown source coverage minute := by
  obtain ⟨⟨segment, hsegment, hcovers⟩, hall⟩ := h
  exact Or.inr ⟨segment, hsegment, hall segment hsegment hcovers, hcovers.1.trans hfrom,
    hto.trans hcovers.2⟩

/-- A day reported known is known in every minute. -/
theorem day_knownInEveryMinute {daily : List CandleView} (hdaily : aggregateGroups ar sha256
      (cellGroups dayGrid (source.map .source)) (24 * 60) coverage "1d" = .ok daily)
    (hview : view ∈ daily) (hknown : ReportedKnown view) :
    KnownInEveryMinute dayGrid source coverage view.startedAt := by
  obtain ⟨group, hgroup, hround⟩ := (mem_of_mapM_eq_ok hdaily).1 view hview
  have hslots := slots_of_reportedKnown hround hknown
  have hstart := aggregateGroup_startedAt hround
  have hitems := items_of_mem_grouped (mem_sortedBy.mp hgroup)
  obtain ⟨member, -, hkey⟩ := mem_keys_cellGroups (mem_sortedBy.mp hgroup)
  have hday : dayMicroseconds ∣ group.key.microseconds := by
    rw [← hkey, ← dayGrid_start_eq_self_iff]
    exact dayGrid.start_start _
  intro minute hfrom hto hdvd
  rw [hstart] at hfrom hto
  have hlt : minute < group.key.microseconds + dayMicroseconds := hto
  obtain ⟨offset, hoffset⟩ := Nat.dvd_sub hdvd (Nat.dvd_trans (by decide) hday)
  have hminute : minute = group.key.microseconds + 60000000 * offset := by omega
  have hsize : offset < 24 * 60 := by
    unfold dayMicroseconds at hlt
    omega
  have hslot := hslots offset hsize
  rw [show slotMicroseconds "1d" = 60000000 from rfl, ← hminute] at hslot
  rcases hslot with ⟨item, hitem, hat⟩ | hnoTrade
  · rw [hitems] at hitem
    obtain ⟨candle, hcandle, rfl⟩ := mem_map.mp (mem_of_mem_filter hitem)
    exact Or.inl ⟨candle, hcandle, hat⟩
  · exact MinuteKnown.of_slot hnoTrade (le_refl _) (le_refl _)

/-- A bucket reported complete and available is known in every minute exactly if it is a day,
or some day of it is reported unknown, or its days with a candle are known in every minute.
SOURCE: aggregation.py:80-106, 131-176, 270-309 -/
theorem minutesKnown_iff (ar : Arithmetic) (sha256 : String → String) {unit : String} {grid : Grid}
    (hunit : (unit, grid) ∈ [("1d", dayGrid), ("1w", weekGrid), ("1M", calendarMonthGrid)])
    {source : List SourceCandle} (h1m : ∀ c ∈ source, c.candleUnit = "1m")
    {coverage : List CoverageSlice} {views : List CandleView}
    (hviews : aggregateCandles ar sha256 unit source coverage = .ok views) {view : CandleView}
    (hview : view ∈ views) :
    (ReportedKnown view → KnownInEveryMinute grid source coverage view.startedAt) ↔
      unit = "1d" ∨ UnknownDay grid source coverage view.startedAt ∨
        CandleDaysKnown grid source coverage view.startedAt := by
  have hcases : (unit = "1d" ∧ grid = dayGrid) ∨
      unit ≠ "1d" ∧ ∃ size, (unit, grid, size) ∈ secondStepUnits := by
    simp only [mem_cons, Prod.mk.injEq, not_mem_nil, or_false] at hunit
    rcases hunit with h | ⟨rfl, rfl⟩ | ⟨rfl, rfl⟩
    · exact Or.inl h
    · exact Or.inr ⟨by decide, 7, by simp [secondStepUnits]⟩
    · exact Or.inr ⟨by decide, 0, by simp [secondStepUnits]⟩
  rcases hcases with ⟨rfl, rfl⟩ | ⟨hne, size, hsecond⟩
  · refine ⟨fun _ => Or.inl rfl, fun _ hknown => ?_⟩
    rw [aggregateCandles_day, aggregateDaily_eq ar sha256 h1m] at hviews
    exact day_knownInEveryMinute hviews hview hknown
  · rw [aggregateCandles_eq ar sha256 hsecond, aggregateDaily_eq ar sha256 h1m] at hviews
    obtain ⟨daily, hdaily, hviews⟩ := bind_eq_ok.mp hviews
    have hreported := secondStep_known_iff hdaily hsecond hviews hview
    constructor
    · intro h
      by_cases hknown : ReportedKnown view
      · exact Or.inr (Or.inr fun minute hfrom hto hdvd _ => h hknown minute hfrom hto hdvd)
      · rw [hreported] at hknown
        push Not at hknown
        exact Or.inr (Or.inl hknown)
    · rintro (rfl | ⟨day, hfrom, hto, hdvd, hempty, hunknown⟩ | hcandles) hknown
      · exact absurd rfl hne
      · rcases hreported.mp hknown day hfrom hto hdvd with ⟨candle, hcandle, hday⟩ | hnoTrade
        · exact absurd hday (hempty candle hcandle)
        · exact absurd hnoTrade hunknown
      · intro minute hfrom hto hdvd
        have hle := dayGrid.start_le minute
        have hlt := dayGrid.lt_next minute
        have hdayStart := dayGrid_start_eq_self_iff.mp (dayGrid.start_start minute)
        have hbucket : view.startedAt.microseconds ≤ dayGrid.start minute := by
          obtain ⟨candle, -, hcell⟩ := (secondStep_buckets hdaily (secondStep_nested hsecond)
            hviews view.startedAt).mp (mem_map_of_mem hview)
          have hself : dayGrid.start view.startedAt.microseconds = view.startedAt.microseconds := by
            rw [← hcell]
            exact (secondStep_nested hsecond).start_start _
          rw [← hself]
          exact dayGrid.start_mono hfrom
        rcases hreported.mp hknown _ hbucket (hle.trans_lt hto) hdayStart with hcandle | hnoTrade
        · exact hcandles minute hfrom hto hdvd hcandle
        · apply MinuteKnown.of_slot hnoTrade hle
          obtain ⟨rest, hrest⟩ := Nat.dvd_sub hdvd (Nat.dvd_trans (by decide) hdayStart)
          have hnext : dayGrid.next (dayGrid.start minute) =
            dayGrid.start minute + dayMicroseconds := rfl
          rw [hnext] at hlt
          unfold dayMicroseconds at hlt ⊢
          omega

/-- A single candle, at the beginning of a week. -/
def mondayCandle : List SourceCandle := [unitCandle ⟨0, UtcTime.zero_in_calendar⟩]

/-- The other days of that week, without trade. -/
def quietDays : List CoverageSlice :=
  [⟨⟨dayMicroseconds, by decide⟩, ⟨7 * dayMicroseconds, by decide⟩, .noTrade⟩]

/-- The week gives one view, which says that the week is known. -/
theorem mondayCandle_run :
    ∃ view, aggregateCandles .exact id "1w" mondayCandle quietDays = .ok [view] ∧
      view.startedAt.microseconds = 0 ∧ ReportedKnown view := by
  have hrun : (aggregateCandles .exact id "1w" mondayCandle quietDays).toOption.map
      (fun views => views.map fun view =>
        (view.startedAt.microseconds, view.completeness, view.quality)) =
      some [(0, .complete, .available)] := by
    decide +kernel
  cases h : aggregateCandles .exact id "1w" mondayCandle quietDays with
  | error e => simp [h, Except.toOption] at hrun
  | ok views =>
    rw [h] at hrun
    obtain ⟨view, rfl, hview⟩ := map_eq_singleton_iff.mp (Option.some.inj hrun)
    simp only [Prod.mk.injEq] at hview
    exact ⟨view, rfl, hview.1, hview.2⟩

/-- The second minute of the Monday is neither a candle nor without trade. -/
theorem week_of_mondayCandle_not_known : (mondayCandle.map SourceCandle.candleStartAt).Nodup ∧
      (∀ candle ∈ mondayCandle, 60000000 ∣ candle.candleStartAt.microseconds) ∧
      ∃ views, aggregateCandles .exact id "1w" mondayCandle quietDays = .ok views ∧
        ∃ view ∈ views, ReportedKnown view ∧
          ¬ KnownInEveryMinute weekGrid mondayCandle quietDays view.startedAt := by
  refine ⟨by simp [mondayCandle], by simp [mondayCandle, unitCandle], ?_⟩
  obtain ⟨view, hrun, hstart, hknown⟩ := mondayCandle_run
  refine ⟨_, hrun, view, mem_singleton_self _, hknown, fun hminutes => ?_⟩
  rcases hminutes 60000000 (by omega) (by rw [hstart]; decide) (by decide) with
    ⟨candle, hcandle, hat⟩ | ⟨segment, hsegment, -, hcovers⟩
  · obtain rfl := mem_singleton.mp hcandle
    exact absurd hat (by decide)
  · obtain rfl := mem_singleton.mp hsegment
    exact absurd hcovers.1 (by decide)

theorem minutesKnown_iff_mondayCandle :
    ∃ view, aggregateCandles .exact id "1w" mondayCandle quietDays = .ok [view] ∧
      ((ReportedKnown view → KnownInEveryMinute weekGrid mondayCandle quietDays view.startedAt) ↔
        "1w" = "1d" ∨ UnknownDay weekGrid mondayCandle quietDays view.startedAt ∨
          CandleDaysKnown weekGrid mondayCandle quietDays view.startedAt) := by
  obtain ⟨view, hrun, -, -⟩ := mondayCandle_run
  exact ⟨view, hrun, minutesKnown_iff .exact id (by simp)
    (by simp [mondayCandle, unitCandle]) hrun (mem_singleton_self _)⟩

end Goodmoneying.Analysis
