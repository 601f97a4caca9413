import Goodmoneying.Program.CoverageProjection

/-!
# The projected ranges at every instant

What a range says holds at each of its instants (`projectCoverageRanges_exact`): the borders of
rows never lie inside a range, so a row covers a range exactly when it contains any one instant
of it.
-/

namespace Goodmoneying.Analysis

open List Library
open Program

variable {x : Instant}
variable {events latest : List AuthorityEvent}

/-- The event applies at the instant. -/
def EventContains (row : AuthorityEvent) (x : Instant) : Prop :=
  row.event.rangeStartAt ≤ x ∧ x < row.event.rangeEndAt

/-- The status applies at the instant; without an end it applies for good. -/
def StatusContains (row : MarketStatusRow) (x : Instant) : Prop :=
  row.validFrom ≤ x ∧ ∀ validTo ∈ row.validTo, x < validTo

/-- The row is the latest event of its authority at the instant. -/
def Contributes (events : List AuthorityEvent) (x : Instant) (row : AuthorityEvent) : Prop :=
  row ∈ events ∧ EventContains row x ∧
    ∀ other ∈ events, EventContains other x → other.authority = row.authority →
      other.event.id ≤ row.event.id

/-- The event says what the contributions of the authorities at an instant say: one of each
authority that has an event there. -/
structure EventExact (events : List AuthorityEvent) (x : Instant) (event : ProjectedEvent)
    (contributions : List AuthorityEvent) : Prop where
  one_each : (contributions.map AuthorityEvent.authority).Nodup
  contributes : ∀ row ∈ contributions, Contributes events x row
  complete : ∀ row ∈ events, EventContains row x →
    row.authority ∈ contributions.map AuthorityEvent.authority
  evidence : event.authorityEvidence = contributions.map AuthorityEvent.toEvidence
  worst : event.row ∈ contributions ∧ ∀ row ∈ contributions, row.order ≤ event.row.order
  detected : event.combinedDetectedAt ∈ (contributions.map fun row => row.event.detectedAt) ∧
    ∀ row ∈ contributions, row.event.detectedAt ≤ event.combinedDetectedAt

/-- The range says what holds at the instant. -/
structure RangeExact (events : List AuthorityEvent) (statuses : List MarketStatusRow)
    (range : ProjectedRange) (x : Instant) : Prop where
  no_event : range.event = none → ∀ row ∈ events, ¬ EventContains row x
  event : ∀ event ∈ range.event, ∃ contributions, EventExact events x event contributions
  no_status : range.marketStatus = none → ∀ row ∈ statuses, ¬ StatusContains row x
  status : ∀ row ∈ range.marketStatus, row ∈ statuses ∧ StatusContains row x ∧
    ∀ other ∈ statuses, StatusContains other x →
      other.latestKey ≤ row.latestKey

section Borders

variable {events : List AuthorityEvent} {statuses : List MarketStatusRow}
  {startAt endAt : Instant}
variable {border : Instant} {range : Instant × Instant}
variable {rowStart rowEnd : Instant}

/-- The borders of a window and of the rows in it, in ascending order. -/
abbrev sortedBoundaries (events : List AuthorityEvent) (statuses : List MarketStatusRow)
    (startAt endAt : Instant) : List Instant :=
  sortedBy id (coverageBoundaries events statuses startAt endAt).dedup

theorem sortedBoundaries_pairwise :
    (sortedBoundaries events statuses startAt endAt).Pairwise (· < ·) :=
  @sortedBy_lt_of_nodup _ _ _ id _ (by rw [map_id]; exact nodup_dedup _)

theorem mem_sortedBoundaries : border ∈ sortedBoundaries events statuses startAt endAt ↔
      border ∈ coverageBoundaries events statuses startAt endAt := by
  rw [mem_sortedBy, mem_dedup]

theorem mem_rowBoundaries (h : startAt ≤ endAt)
    (hborder : border ∈ rowBoundaries startAt endAt rowStart rowEnd) :
    startAt ≤ border ∧ border ≤ endAt := by
  unfold rowBoundaries at hborder
  split_ifs at hborder with hoverlap
  · rcases mem_cons.mp hborder with rfl | hborder
    · exact ⟨le_max_left _ _, max_le h hoverlap.1.le⟩
    · obtain rfl := mem_singleton.mp hborder
      exact ⟨le_min h hoverlap.2.le, min_le_left _ _⟩
  · cases hborder

theorem mem_coverageBoundaries (h : startAt ≤ endAt)
    (hborder : border ∈ coverageBoundaries events statuses startAt endAt) :
    startAt ≤ border ∧ border ≤ endAt := by
  rcases mem_append.mp hborder with hborder | hborder
  · rcases mem_append.mp hborder with hborder | hborder
    · rcases mem_cons.mp hborder with rfl | hborder
      · exact ⟨le_refl _, h⟩
      · obtain rfl := mem_singleton.mp hborder
        exact ⟨h, le_refl _⟩
    · obtain ⟨row, -, hborder⟩ := mem_flatMap.mp hborder
      exact mem_rowBoundaries h hborder
  · obtain ⟨row, -, hborder⟩ := mem_flatMap.mp hborder
    exact mem_rowBoundaries h hborder

/-- The ranges cut the window. -/
theorem tiles_sortedBoundaries (h : startAt ≤ endAt) :
    Tiles startAt endAt (pieces (sortedBoundaries events statuses startAt endAt)) := by
  apply tiles_pieces_of_mem sortedBoundaries_pairwise
  · rw [mem_sortedBoundaries]
    simp [coverageBoundaries]
  · rw [mem_sortedBoundaries]
    simp [coverageBoundaries]
  · intro border hborder
    exact mem_coverageBoundaries h (mem_sortedBoundaries.mp hborder)

/-- A row whose borders are among the borders covers a piece when it contains an instant of
it. -/
theorem covers_of_contains
    (hrange : range ∈ pieces (sortedBoundaries events statuses startAt endAt)) (hborders : ∀ border
      ∈ rowBoundaries startAt endAt rowStart rowEnd, border ∈ coverageBoundaries events statuses
      startAt endAt) (h : startAt ≤ endAt) (hfrom : range.1 ≤ x) (hto : x < range.2)
    (hstart : rowStart ≤ x) (hend : x < rowEnd) : rowStart ≤ range.1 ∧ range.2 ≤ rowEnd := by
  obtain ⟨hfirst, hsecond⟩ := mem_of_mem_pieces hrange
  have hwindow_start := (mem_coverageBoundaries h (mem_sortedBoundaries.mp hfirst)).1
  have hwindow_end := (mem_coverageBoundaries h (mem_sortedBoundaries.mp hsecond)).2
  have hoverlap : rowStart < endAt ∧ startAt < rowEnd :=
    ⟨hstart.trans_lt (hto.trans_le hwindow_end), hwindow_start.trans_lt (hfrom.trans_lt hend)⟩
  rw [rowBoundaries, if_pos hoverlap] at hborders
  have hclipped_start := border_outside_piece sortedBoundaries_pairwise hrange
    (mem_sortedBoundaries.mpr (hborders (max startAt rowStart) (by simp)))
  have hclipped_end := border_outside_piece sortedBoundaries_pairwise hrange
    (mem_sortedBoundaries.mpr (hborders (min endAt rowEnd) (by simp)))
  constructor
  · rcases hclipped_start with hle | hge
    · exact (le_max_right _ _).trans hle
    · have hmax : max startAt rowStart ≤ x := max_le (hwindow_start.trans hfrom) hstart
      exact absurd (hge.trans hmax) (not_le.mpr hto)
  · rcases hclipped_end with hle | hge
    · have hmin : x < min endAt rowEnd := lt_min (hto.trans_le hwindow_end) hend
      exact absurd (hmin.trans_le hle) (not_lt.mpr hfrom)
    · exact hge.trans (min_le_right _ _)

/-- An event covers a range exactly when it contains an instant of it. -/
theorem event_covers_iff (hrange : range ∈ pieces (sortedBoundaries events statuses startAt endAt))
    (h : startAt ≤ endAt) (hfrom : range.1 ≤ x) (hto : x < range.2) {row : AuthorityEvent}
    (hrow : row ∈ events) :
    (row.event.rangeStartAt ≤ range.1 ∧ range.2 ≤ row.event.rangeEndAt) ↔ EventContains row x := by
  constructor
  · rintro ⟨hstart, hend⟩
    exact ⟨hstart.trans hfrom, hto.trans_le hend⟩
  · rintro ⟨hstart, hend⟩
    refine covers_of_contains hrange (fun border hborder => ?_) h hfrom hto hstart hend
    apply mem_append_left
    exact mem_append_right _ (mem_flatMap.mpr ⟨row, hrow, hborder⟩)

theorem status_covers_iff (hrange : range ∈ pieces (sortedBoundaries events statuses startAt endAt))
    (h : startAt ≤ endAt) (hfrom : range.1 ≤ x) (hto : x < range.2) {row : MarketStatusRow}
    (hrow : row ∈ statuses) :
    (row.validFrom ≤ range.1 ∧ ∀ validTo ∈ row.validTo, range.2 ≤ validTo) ↔
      StatusContains row x := by
  constructor
  · rintro ⟨hstart, hend⟩
    exact ⟨hstart.trans hfrom, fun validTo hvalidTo => hto.trans_le (hend validTo hvalidTo)⟩
  · rintro ⟨hstart, hend⟩
    have hwindow_end := (mem_coverageBoundaries h
      (mem_sortedBoundaries.mp (mem_of_mem_pieces hrange).2)).2
    have hborders : ∀ border ∈ rowBoundaries startAt endAt row.validFrom (row.validTo.getD endAt),
        border ∈ coverageBoundaries events statuses startAt endAt := fun border hborder =>
      mem_append_right _ (mem_flatMap.mpr ⟨row, hrow, hborder⟩)
    have hbefore : x < row.validTo.getD endAt := by
      cases hvalidTo : row.validTo with
      | none => exact hto.trans_le hwindow_end
      | some validTo => exact hend validTo hvalidTo
    obtain ⟨hcovers_start, hcovers_end⟩ :=
      covers_of_contains hrange hborders h hfrom hto hstart hbefore
    refine ⟨hcovers_start, fun validTo hvalidTo => ?_⟩
    rw [Option.mem_def.mp hvalidTo] at hcovers_end
    exact hcovers_end

end Borders

/-! ## Selections -/

/-- What `latest_by_authority` holds is one contribution of each authority. -/
theorem latestByAuthority_spec {rangeStart rangeEnd : Instant} (hcovers : ∀ row ∈ events,
      (row.event.rangeStartAt ≤ rangeStart ∧ rangeEnd ≤ row.event.rangeEndAt) ↔ EventContains row
      x) : let latest := (latestByAuthority events rangeStart rangeEnd).map Prod.snd
    (latest.map AuthorityEvent.authority).Nodup ∧
      (∀ row ∈ latest, Contributes events x row) ∧
      ∀ row ∈ events, EventContains row x → row.authority ∈ latest.map AuthorityEvent.authority := by
  intro latest
  have hbest := best_foldl_keepBest AuthorityEvent.authority
    (fun row : AuthorityEvent => row.event.id) (events.filter fun row =>
      row.event.rangeStartAt ≤ rangeStart ∧ rangeEnd ≤ row.event.rangeEndAt)
  have hkeys : latest.map AuthorityEvent.authority =
      (latestByAuthority events rangeStart rangeEnd).map Prod.fst := by
    rw [map_map]
    apply map_congr_left
    intro entry hentry
    exact (hbest.sound entry hentry).2.1
  have hmem : ∀ row, row ∈ events.filter (fun row =>
      row.event.rangeStartAt ≤ rangeStart ∧ rangeEnd ≤ row.event.rangeEndAt) ↔
        row ∈ events ∧ EventContains row x := by
    intro row
    rw [mem_filter, decide_eq_true_iff]
    exact and_congr_right fun hrow => hcovers row hrow
  refine ⟨hkeys ▸ hbest.keys_nodup, ?_, ?_⟩
  · intro row hrow
    obtain ⟨entry, hentry, rfl⟩ := mem_map.mp hrow
    obtain ⟨hvalue, hkey, hall⟩ := hbest.sound entry hentry
    obtain ⟨hevent, hcontains⟩ := (hmem _).mp hvalue
    refine ⟨hevent, hcontains, fun other hother hother_contains hauthority => ?_⟩
    exact hall other ((hmem other).mpr ⟨hother, hother_contains⟩) (hauthority.trans hkey)
  · intro row hrow hcontains
    rw [hkeys]
    exact hbest.complete row ((hmem row).mpr ⟨hrow, hcontains⟩)

/-- There is no event only if no authority has one. -/
theorem projectedEvent_eq_none (h : projectedEvent latest = none) : latest = [] := by
  by_contra hne
  have hworst : maxBy AuthorityEvent.worstKey latest ≠ none := mt maxBy_eq_none.mp hne
  obtain ⟨row, hrow⟩ := Option.ne_none_iff_exists'.mp hworst
  have hsorted : (sortedBy AuthorityEvent.authorityKey latest).map
      (fun row => row.event.detectedAt) ≠ [] := by
    intro hnil
    have hperm := sortedBy_perm AuthorityEvent.authorityKey latest
    rw [map_eq_nil_iff.mp hnil] at hperm
    exact hne hperm.symm.eq_nil
  obtain ⟨detectedAt, hdetected⟩ := Option.ne_none_iff_exists'.mp
    (mt List.max?_eq_none_iff.mp hsorted)
  simp only [projectedEvent, hrow, Option.bind_eq_bind, Option.bind_some, hdetected] at h
  cases h

/-- The event of a range, from one contribution of each authority. -/
theorem projectedEvent_exact (hone : (latest.map AuthorityEvent.authority).Nodup)
    (hcontributes : ∀ row ∈ latest, Contributes events x row) (hcomplete : ∀ row ∈ events,
      EventContains row x → row.authority ∈ latest.map AuthorityEvent.authority)
    {event : ProjectedEvent} (h : projectedEvent latest = some event) :
    ∃ contributions, EventExact events x event contributions := by
  obtain ⟨row, hrow, h⟩ := Option.bind_eq_some_iff.mp h
  obtain ⟨detectedAt, hdetected, h⟩ := Option.bind_eq_some_iff.mp h
  obtain rfl := Option.some.inj h
  have hperm := sortedBy_perm AuthorityEvent.authorityKey latest
  obtain ⟨hdetected_mem, hdetected_max⟩ := List.max?_eq_some_iff.mp hdetected
  refine ⟨sortedBy AuthorityEvent.authorityKey latest, ?_⟩
  constructor
  case one_each => exact ((hperm.map _).nodup_iff).mpr hone
  case contributes => exact fun row hrow => hcontributes row (hperm.mem_iff.mp hrow)
  case complete =>
    intro row hrow hcontains
    exact (hperm.map _).mem_iff.mpr (hcomplete row hrow hcontains)
  case evidence => rfl
  case worst =>
    obtain ⟨hworst, hall⟩ := maxBy_spec hrow
    refine ⟨hperm.mem_iff.mpr hworst, fun other hother => ?_⟩
    have hle := hall other (hperm.mem_iff.mp hother)
    rcases Prod.Lex.toLex_le_toLex.mp hle with hlt | ⟨heq, -⟩
    · exact hlt.le
    · exact heq.le
  case detected =>
    exact ⟨hdetected_mem, fun other hother =>
      hdetected_max _ (mem_map_of_mem hother)⟩

/-- Coverage projection is exact: the ranges cut the window, and each says what holds at all of
its instants.
SOURCE: dataset_version_store.py:1215-1276, 2089-2090 -/
theorem projectCoverageRanges_exact (events : List AuthorityEvent)
    (statuses : List MarketStatusRow) {startAt endAt : Instant} (h : startAt < endAt) :
    Tiles startAt endAt ((projectCoverageRanges events statuses startAt endAt).map fun range =>
        (range.startAt, range.endAt)) ∧
      ∀ range ∈ projectCoverageRanges events statuses startAt endAt,
        ∀ x, range.startAt ≤ x → x < range.endAt → RangeExact events statuses range x := by
  constructor
  · rw [projectCoverageRanges, map_map]
    have hpairs := @tiles_sortedBoundaries events statuses _ _ h.le
    rwa [← map_id (pieces _)] at hpairs
  · intro range hrange x hfrom hto
    obtain ⟨piece, hpiece, rfl⟩ := mem_map.mp hrange
    obtain ⟨hone, hcontributes, hcomplete⟩ := latestByAuthority_spec fun row hrow =>
      event_covers_iff hpiece h.le hfrom hto hrow
    have hstatuses : ∀ row, row ∈ statuses.filter (fun row => row.validFrom ≤ piece.1 ∧
        ∀ validTo ∈ row.validTo, piece.2 ≤ validTo) ↔
          row ∈ statuses ∧ StatusContains row x := by
      intro row
      rw [mem_filter, decide_eq_true_iff]
      exact and_congr_right fun hrow => status_covers_iff hpiece h.le hfrom hto hrow
    constructor
    case no_event =>
      intro hnone row hrow hcontains
      have hempty := projectedEvent_eq_none hnone
      have hmem := hcomplete row hrow hcontains
      rw [hempty] at hmem
      cases hmem
    case event =>
      intro event hevent
      exact projectedEvent_exact hone hcontributes hcomplete hevent
    case no_status =>
      intro hnone row hrow hcontains
      have hmem := (hstatuses row).mpr ⟨hrow, hcontains⟩
      rw [maxBy_eq_none.mp hnone] at hmem
      cases hmem
    case status =>
      intro row hrow
      obtain ⟨hlatest, hall⟩ := maxBy_spec hrow
      obtain ⟨hmem, hcontains⟩ := (hstatuses row).mp hlatest
      refine ⟨hmem, hcontains, fun other hother hother_contains => ?_⟩
      exact hall other ((hstatuses other).mpr ⟨hother, hother_contains⟩)

/-- One event that begins inside the window, for a run. -/
def eventFrom (rangeStartAt rangeEndAt : Instant) : AuthorityEvent where
  event := {
    id := 1
    targetSpecId := 1
    eventType := "reclassified"
    previousStatus := none
    newStatus := .missing
    rangeStartAt := rangeStartAt
    rangeEndAt := rangeEndAt
    fingerprint := "f"
    evidence := []
    fetchManifestId := none
    detectedAt := 0 }
  authorityDataType := "source_candle"
  authorityUnit := some "1m"

theorem projectCoverageRanges_exact_one_event :
    (projectCoverageRanges [eventFrom 5 20] [] 0 10).map (fun range =>
        (range.startAt, range.endAt, range.event.isSome)) = [(0, 5, false), (5, 10, true)] ∧
      ∀ range ∈ projectCoverageRanges [eventFrom 5 20] [] 0 10,
        ∀ x, range.startAt ≤ x → x < range.endAt → RangeExact [eventFrom 5 20] [] range x :=
  ⟨by decide +kernel, (projectCoverageRanges_exact [eventFrom 5 20] [] (by decide)).2⟩

end Goodmoneying.Analysis
