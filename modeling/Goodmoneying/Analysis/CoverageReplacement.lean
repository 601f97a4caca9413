import Goodmoneying.Program.CoverageTransition

/-!
# Replacing coverage updates an interval map

The intervals of a target are a map from instants to coverage. A call of `replaceCoverage` assigns
its coverage to its range in that map (`replaceCoverage_refines_assign`); the other targets keep
theirs, and the transitions are the parts of the range whose status changes
(`transitions_correct`).
-/

namespace Goodmoneying.Analysis

open Library Program

variable {table : IntervalTable} {targetSpecId : ℤ} {call : CoverageCall} {db : CoverageDatabase}
  {x : Instant} {previous : Option CoverageState}
variable {row : CoverageInterval} {rest : List (Span Instant Coverage)}
  {overlaps : List CoverageInterval}

/-- The intervals of a target. -/
def spansOf (table : IntervalTable) (targetSpecId : ℤ) : List (Span Instant Coverage) :=
  (table.ofTarget targetSpecId).map CoverageInterval.span

/-- The coverage of a target at an instant. -/
def coverageAt (table : IntervalTable) (targetSpecId : ℤ) (x : Instant) : Option Coverage :=
  lookup (spansOf table targetSpecId) x

/-- The status of a target at an instant. -/
def statusAt (table : IntervalTable) (targetSpecId : ℤ) (x : Instant) : Option CoverageState :=
  (coverageAt table targetSpecId x).map Coverage.status

/-- The intervals of every target are disjoint. -/
def Separate (table : IntervalTable) : Prop :=
  ∀ targetSpecId, (spansOf table targetSpecId).Pairwise Apart

/-- `table'` has the given intervals of one target, the same rows of the others, and all rows
of `table` but those of the removed id. -/
structure Rewritten (table table' : IntervalTable) (targetSpecId : ℤ)
    (spans : List (Span Instant Coverage)) (removed : CoverageInterval → Prop) : Prop where
  spans : (spansOf table' targetSpecId).Perm spans
  others : ∀ other, other ≠ targetSpecId → table'.ofTarget other = table.ofTarget other
  rows : ∀ row ∈ table.rows, ¬ removed row → row ∈ table'.rows

/-- An insertion that no interval excludes appends its interval. -/
theorem insert_ok {values : Span Instant Coverage}
    (h : ∀ span ∈ spansOf table targetSpecId, Apart span values) :
    ∃ table', table.insert targetSpecId values = .ok table' ∧
      Rewritten table table' targetSpecId (spansOf table targetSpecId ++ [values])
        fun _ => False := by
  have hfree : ((table.ofTarget targetSpecId).all fun row => Apart row.span values) = true := by
    rw [List.all_eq_true]
    exact fun row hrow => decide_eq_true (h _ (List.mem_map_of_mem hrow))
  refine ⟨_, if_pos hfree, ?_, fun other hother => ?_, fun row hrow _ => List.mem_append_left _ hrow⟩
  · simp [spansOf, IntervalTable.ofTarget, CoverageInterval.span]
  · simp [IntervalTable.ofTarget, List.filter_append, Ne.symm hother]

/-- Insertions of intervals that are apart from each other and from those of the table append
them all. -/
theorem insertAll_ok {pieces : List (Span Instant Coverage)}
    (h : (spansOf table targetSpecId ++ pieces).Pairwise Apart) :
    ∃ table', pieces.foldlM (fun table piece => table.insert targetSpecId piece) table =
        .ok table' ∧
      Rewritten table table' targetSpecId (spansOf table targetSpecId ++ pieces)
        fun _ => False := by
  induction pieces generalizing table with
  | nil => exact ⟨table, rfl, by simp, fun _ _ => rfl, fun _ hrow _ => hrow⟩
  | cons piece pieces ih =>
    have hpiece : ∀ span ∈ spansOf table targetSpecId, Apart span piece := fun span hspan =>
      (List.pairwise_append.mp h).2.2 span hspan piece (by simp)
    obtain ⟨table₁, hinsert, hspans, hothers, hrows⟩ := insert_ok hpiece
    have happend : (spansOf table targetSpecId ++ piece :: pieces) =
        spansOf table targetSpecId ++ [piece] ++ pieces := by simp
    have h₁ : (spansOf table₁ targetSpecId ++ pieces).Pairwise Apart :=
      ((hspans.append_right pieces).pairwise_iff Apart.symm).mpr (happend ▸ h)
    obtain ⟨table₂, hrest, hspans', hothers', hrows'⟩ := ih h₁
    refine ⟨table₂, ?_, ?_, ?_, ?_⟩
    · rw [List.foldlM_cons, hinsert]
      exact hrest
    · exact (hspans'.trans (hspans.append_right pieces)).trans (by simp)
    · exact fun other hother => (hothers' other hother).trans (hothers other hother)
    · exact fun row hrow hkept => hrows' row (hrows row hrow hkept) hkept

/-- A deletion takes the interval of its row away. -/
theorem delete_spans (hrow : row ∈ table.rows) : (spansOf table row.targetSpecId).Perm
        (row.span :: spansOf (table.delete row.id) row.targetSpecId) ∧
      (∀ other, other ≠ row.targetSpecId →
        (table.delete row.id).ofTarget other = table.ofTarget other) ∧
      ∀ other ∈ table.rows, other.id ≠ row.id → other ∈ (table.delete row.id).rows := by
  have hsame : ∀ other ∈ table.rows, other.id = row.id → other = row := fun other hother hid =>
    List.inj_on_of_nodup_map table.unique hother hrow hid
  have hperm : table.rows.Perm (row :: (table.delete row.id).rows) := by
    have hnodup : table.rows.Nodup := table.unique.of_map _
    refine (List.perm_ext_iff_of_nodup hnodup ?_).mpr fun other => ?_
    · rw [List.nodup_cons]
      exact ⟨by simp [IntervalTable.delete], hnodup.filter _⟩
    · simp only [IntervalTable.delete, List.mem_cons, List.mem_filter, decide_eq_true_eq]
      constructor
      · intro hother
        by_cases hid : other.id = row.id
        · exact Or.inl (hsame other hother hid)
        · exact Or.inr ⟨hother, hid⟩
      · rintro (rfl | ⟨hother, -⟩)
        · exact hrow
        · exact hother
  refine ⟨?_, fun other hother => ?_, fun other hother hid => ?_⟩
  · have hspans := (hperm.filter fun other => other.targetSpecId = row.targetSpecId).map
      CoverageInterval.span
    simpa [spansOf, IntervalTable.ofTarget] using hspans
  · rw [IntervalTable.ofTarget, IntervalTable.ofTarget, IntervalTable.delete, List.filter_filter]
    refine List.filter_congr fun candidate hcandidate => ?_
    by_cases hid : candidate.id = row.id
    · obtain rfl := hsame candidate hcandidate hid
      simp [Ne.symm hother]
    · simp [hid]
  · exact List.mem_filter.mpr ⟨hother, by simpa using hid⟩

/-- One round puts what is left of an interval in its place. -/
theorem replaceOverlap_ok (hcall : call.rangeStartAt < call.rangeEndAt) {overlap : CoverageInterval}
    (hrow : overlap ∈ table.rows) (htarget : overlap.targetSpecId = call.targetSpecId)
    (hspans : (spansOf table call.targetSpecId).Perm (overlap.span :: rest))
    (hseparate : (spansOf table call.targetSpecId).Pairwise Apart) :
    ∃ table', replaceOverlap call table overlap = .ok table' ∧
      Rewritten table table' call.targetSpecId
        (rest ++ overlap.span.trim call.rangeStartAt call.rangeEndAt)
        fun row => row.id = overlap.id := by
  obtain ⟨hdeleted, hothers, hrows⟩ := delete_spans hrow
  rw [htarget] at hdeleted hothers
  have hrest : (spansOf (table.delete overlap.id) call.targetSpecId).Perm rest :=
    (List.perm_cons _).mp (hdeleted.symm.trans hspans)
  have hpieces : (spansOf (table.delete overlap.id) call.targetSpecId ++
      preservedPieces call overlap).Pairwise Apart :=
    append_trim_pairwise hcall ((hdeleted.pairwise_iff Apart.symm).mp hseparate)
  obtain ⟨table', hinserted, hspans', hothers', hrows'⟩ := insertAll_ok hpieces
  refine ⟨table', hinserted, ?_, ?_, ?_⟩
  · exact hspans'.trans (hrest.append_right _)
  · exact fun other hother => (hothers' other hother).trans (hothers other hother)
  · exact fun row hrow hkept => hrows' row (hrows row hrow hkept) not_false

/-- The loop puts what is left of the intervals in their place. -/
theorem replaceOverlaps_ok (hcall : call.rangeStartAt < call.rangeEndAt)
    (hrows : ∀ overlap ∈ overlaps, overlap ∈ table.rows)
    (htargets : ∀ overlap ∈ overlaps, overlap.targetSpecId = call.targetSpecId)
    (hdistinct : (overlaps.map CoverageInterval.id).Nodup)
    (hspans : (spansOf table call.targetSpecId).Perm (overlaps.map CoverageInterval.span ++ rest))
    (hseparate : (spansOf table call.targetSpecId).Pairwise Apart) :
    ∃ table', overlaps.foldlM (replaceOverlap call) table = .ok table' ∧
      (spansOf table' call.targetSpecId).Perm (rest ++ (overlaps.map CoverageInterval.span).flatMap
          (Span.trim call.rangeStartAt call.rangeEndAt)) ∧
      ∀ other, other ≠ call.targetSpecId → table'.ofTarget other = table.ofTarget other := by
  induction overlaps generalizing table rest with
  | nil => exact ⟨table, rfl, by simpa using hspans, fun _ _ => rfl⟩
  | cons overlap overlaps ih =>
    obtain ⟨hrow, hrows⟩ := List.forall_mem_cons.mp hrows
    obtain ⟨htarget, htargets⟩ := List.forall_mem_cons.mp htargets
    obtain ⟨hnew, hdistinct⟩ := List.nodup_cons.mp hdistinct
    have hfirst : (spansOf table call.targetSpecId).Perm
        (overlap.span :: (overlaps.map CoverageInterval.span ++ rest)) := hspans
    obtain ⟨table₁, hround, hspans₁, hothers₁, hrows₁⟩ :=
      replaceOverlap_ok hcall hrow htarget hfirst hseparate
    have hseparate₁ : (spansOf table₁ call.targetSpecId).Pairwise Apart :=
      (hspans₁.pairwise_iff Apart.symm).mpr
        (append_trim_pairwise hcall ((hfirst.pairwise_iff Apart.symm).mp hseparate))
    rw [List.append_assoc] at hspans₁
    have hkept : ∀ other ∈ overlaps, other ∈ table₁.rows := fun other hother =>
      hrows₁ other (hrows other hother) fun hid => hnew (hid ▸ List.mem_map_of_mem hother)
    obtain ⟨table₂, hrest, hspans₂, hothers₂⟩ := ih hkept htargets hdistinct hspans₁ hseparate₁
    refine ⟨table₂, ?_, by simpa using hspans₂, ?_⟩
    · rw [List.foldlM_cons, hround]
      exact hrest
    · exact fun other hother => (hothers₂ other hother).trans (hothers₁ other hother)

theorem mem_overlappingIntervals :
    row ∈ overlappingIntervals table call ↔ row ∈ table.ofTarget call.targetSpecId ∧
      row.rangeStartAt < call.rangeEndAt ∧ call.rangeStartAt < row.rangeEndAt := by
  simp [overlappingIntervals]

/-- The intervals of the target are the overlapping ones and others that the range leaves. -/
theorem spansOf_split (table : IntervalTable) (hcall : call.rangeStartAt < call.rangeEndAt) :
    ∃ rest, (spansOf table call.targetSpecId).Perm
        ((overlappingIntervals table call).map CoverageInterval.span ++ rest) ∧
      rest.flatMap (Span.trim call.rangeStartAt call.rangeEndAt) = rest := by
  let overlaps : CoverageInterval → Bool := fun row =>
    row.rangeStartAt < call.rangeEndAt ∧ call.rangeStartAt < row.rangeEndAt
  refine ⟨((table.ofTarget call.targetSpecId).filter fun row => !overlaps row).map
    CoverageInterval.span, ?_, flatMap_trim_eq_self hcall fun span hspan => ?_⟩
  · rw [← List.map_append]
    refine List.Perm.map _ ((List.filter_append_perm overlaps _).symm.trans ?_)
    exact (sortedBy_perm _ _).symm.append_right _
  · obtain ⟨row, hrow, rfl⟩ := List.mem_map.mp hspan
    have houtside := (List.mem_filter.mp hrow).2
    simp only [overlaps, Bool.not_eq_true', decide_eq_false_iff_not, not_and_or, not_lt]
      at houtside
    exact houtside.symm

/-- A call assigns its coverage to its range in the map of its target, and logs its
transitions. -/
theorem replaceCoverage_refines_assign (checksum : CanonicalValue → String)
    (hseparate : Separate db.intervals) (hmarket : (db.markets call.targetSpecId).isSome)
    (hcall : call.rangeStartAt < call.rangeEndAt) :
    ∃ db', replaceCoverage checksum db call = .ok db' ∧
      (spansOf db'.intervals call.targetSpecId).Perm
        (assign (spansOf db.intervals call.targetSpecId) call.rangeStartAt call.rangeEndAt
          (newCoverage call)) ∧
      (∀ other, other ≠ call.targetSpecId →
        db'.intervals.ofTarget other = db.intervals.ofTarget other) ∧
      db'.markets = db.markets ∧
      db'.events = logTransitions checksum call db.events
        (coverageTransitions call (overlappingIntervals db.intervals call)) := by
  obtain ⟨market, hmarket⟩ := Option.isSome_iff_exists.mp hmarket
  obtain ⟨rest, hsplit, hrest⟩ := spansOf_split db.intervals hcall
  have hoverlaps : ∀ overlap ∈ overlappingIntervals db.intervals call,
      overlap ∈ db.intervals.rows ∧ overlap.targetSpecId = call.targetSpecId := fun overlap h => by
    simpa [IntervalTable.ofTarget] using (mem_overlappingIntervals.mp h).1
  have hdistinct : ((overlappingIntervals db.intervals call).map CoverageInterval.id).Nodup := by
    have hperm := (sortedBy_perm CoverageInterval.rangeStartAt
      ((db.intervals.ofTarget call.targetSpecId).filter fun row =>
        row.rangeStartAt < call.rangeEndAt ∧ call.rangeStartAt < row.rangeEndAt)).map
          CoverageInterval.id
    refine hperm.nodup_iff.mpr (db.intervals.unique.sublist (List.Sublist.map _ ?_))
    exact List.filter_sublist.trans List.filter_sublist
  obtain ⟨preserved, hloop, hpreserved, hothers⟩ := replaceOverlaps_ok hcall
    (fun overlap h => (hoverlaps overlap h).1) (fun overlap h => (hoverlaps overlap h).2)
    hdistinct hsplit (hseparate call.targetSpecId)
  -- what the loop leaves is the map without the range
  have hcut : (spansOf preserved call.targetSpecId).Perm
      ((spansOf db.intervals call.targetSpecId).flatMap
        (Span.trim call.rangeStartAt call.rangeEndAt)) := by
    refine hpreserved.trans (List.Perm.trans ?_ (hsplit.symm.flatMap_right _))
    rw [List.flatMap_append, hrest]
    exact List.perm_append_comm
  let values : Span Instant Coverage :=
    ⟨call.rangeStartAt, call.rangeEndAt, newCoverage call, hcall⟩
  have hfree : ∀ span ∈ spansOf preserved call.targetSpecId, Apart span values := by
    intro span hspan
    obtain ⟨whole, -, hpiece⟩ := List.mem_flatMap.mp (hcut.mem_iff.mp hspan)
    exact (mem_trim hpiece).2.2
  obtain ⟨replaced, hinsert, hspans, hothers', -⟩ := insert_ok hfree
  refine ⟨{ db with
    intervals := replaced
    events := logTransitions checksum call db.events
      (coverageTransitions call (overlappingIntervals db.intervals call)) }, ?_, ?_, ?_, rfl, rfl⟩
  · unfold replaceCoverage
    rw [dif_neg (not_le.mpr hcall), hmarket]
    simp only [hloop, ok_bind]
    exact bind_eq_ok.mpr ⟨replaced, hinsert, rfl⟩
  · have hnew : Span.ofBounds call.rangeStartAt call.rangeEndAt (newCoverage call) = [values] :=
      dif_pos hcall
    rw [assign, hnew]
    exact hspans.trans (hcut.append_right _)
  · exact fun other hother => (hothers' other hother).trans (hothers other hother)

/-- A call without a range, or for a target without a market, changes nothing. -/
theorem replaceCoverage_unchanged (checksum : CanonicalValue → String)
    (h : call.rangeEndAt ≤ call.rangeStartAt ∨ db.markets call.targetSpecId = none) :
    replaceCoverage checksum db call = .ok db := by
  unfold replaceCoverage
  by_cases hcall : call.rangeStartAt ≥ call.rangeEndAt
  · rw [dif_pos hcall]
  · rw [dif_neg hcall, h.resolve_left hcall]

/-- A call keeps the intervals of every target disjoint. -/
theorem replaceCoverage_separate (checksum : CanonicalValue → String)
    (hseparate : Separate db.intervals) (call : CoverageCall) :
    ∃ db', replaceCoverage checksum db call = .ok db' ∧ Separate db'.intervals := by
  rcases lt_or_ge call.rangeStartAt call.rangeEndAt with hcall | hcall
  · by_cases hmarket : (db.markets call.targetSpecId).isSome
    · obtain ⟨db', hok, hspans, hothers, -⟩ :=
        replaceCoverage_refines_assign checksum hseparate hmarket hcall
      refine ⟨db', hok, fun target => ?_⟩
      by_cases htarget : target = call.targetSpecId
      · rw [htarget]
        exact (hspans.pairwise_iff Apart.symm).mpr (assign_pairwise hcall (hseparate _) _)
      · rw [spansOf, hothers target htarget]
        exact hseparate target
    · exact ⟨db, replaceCoverage_unchanged checksum (Or.inr (by simpa using hmarket)), hseparate⟩
  · exact ⟨db, replaceCoverage_unchanged checksum (Or.inl hcall), hseparate⟩

/-- The status at an instant is that of the interval there. -/
theorem statusAt_eq_some_iff (hseparate : Separate table) {status : CoverageState} :
    statusAt table targetSpecId x = some status ↔
      ∃ row ∈ table.ofTarget targetSpecId, row.span.Contains x ∧ row.coverage.status = status := by
  rw [statusAt, Option.map_eq_some_iff]
  constructor
  · rintro ⟨coverage, hcoverage, rfl⟩
    obtain ⟨span, hspan, hx, rfl⟩ := (lookup_eq_some_iff (hseparate _)).mp hcoverage
    obtain ⟨row, hrow, rfl⟩ := List.mem_map.mp hspan
    exact ⟨row, hrow, hx, rfl⟩
  · rintro ⟨row, hrow, hx, rfl⟩
    exact ⟨row.coverage, (lookup_eq_some_iff (hseparate _)).mpr
      ⟨row.span, List.mem_map_of_mem hrow, hx, rfl⟩, rfl⟩

theorem statusAt_eq_none_iff : statusAt table targetSpecId x = none ↔
      ∀ row ∈ table.ofTarget targetSpecId, ¬ row.span.Contains x := by
  rw [statusAt, Option.map_eq_none_iff, coverageAt, lookup_eq_none_iff, spansOf,
    List.forall_mem_map]

theorem coveredRanges_stop : ∀ span ∈ coveredRanges call overlaps, span.stop ≤ call.rangeEndAt := by
  intro span hspan
  obtain ⟨overlap, -, hclip⟩ := List.mem_filterMap.mp hspan
  exact (clip_eq_some hclip).2.2.2

/-- The covered parts are in order. -/
theorem coveredRanges_sorted (table : IntervalTable) (call : CoverageCall) :
    (coveredRanges call (overlappingIntervals table call)).Pairwise
      fun a b => a.start ≤ b.start := by
  refine List.pairwise_filterMap.mpr ((sortedBy_pairwise _ _).imp ?_)
  intro row other hle a ha b hb
  unfold Span.clip at ha hb
  split_ifs at ha hb
  rw [← Option.some.inj ha, ← Option.some.inj hb]
  exact max_le_max_right _ hle

/-- The covered parts of the range are where the target has a status. -/
theorem exists_mem_coveredRanges_iff :
    (∃ span ∈ coveredRanges call (overlappingIntervals table call), span.Contains x) ↔
      (call.rangeStartAt ≤ x ∧ x < call.rangeEndAt) ∧
        ∃ row ∈ table.ofTarget call.targetSpecId, row.span.Contains x := by
  constructor
  · rintro ⟨span, hspan, hx⟩
    obtain ⟨row, hrow, hclip⟩ := List.mem_filterMap.mp hspan
    obtain ⟨hcontains, hinside⟩ := exists_clip_iff.mp ⟨span, hclip, hx⟩
    exact ⟨hinside, row, (mem_overlappingIntervals.mp hrow).1, hcontains⟩
  · rintro ⟨hinside, row, hrow, hcontains⟩
    obtain ⟨span, hclip, hx⟩ := exists_clip_iff.mpr
      (⟨hcontains, hinside⟩ : row.statusSpan.Contains x ∧ _)
    refine ⟨span, List.mem_filterMap.mpr ⟨row, mem_overlappingIntervals.mpr ⟨hrow, ?_, ?_⟩, hclip⟩,
      hx⟩
    · exact hcontains.1.trans_lt hinside.2
    · exact hinside.1.trans_lt hcontains.2

/-- The parts of the range that no interval covers are where the target has no status. -/
theorem exists_mem_uncovered_iff : (∃ gap ∈ gaps none call.rangeStartAt
        (coveredRanges call (overlappingIntervals table call)) call.rangeEndAt,
        gap.Contains x ∧ gap.value = previous) ↔ (call.rangeStartAt ≤ x ∧ x < call.rangeEndAt) ∧
        statusAt table call.targetSpecId x = none ∧ none = previous := by
  have hgaps : (∃ gap ∈ gaps (none : Option CoverageState) call.rangeStartAt
        (coveredRanges call (overlappingIntervals table call)) call.rangeEndAt, gap.Contains x) ↔
      call.rangeStartAt ≤ x ∧ x < call.rangeEndAt ∧
        ∀ span ∈ coveredRanges call (overlappingIntervals table call), ¬ span.Contains x :=
    exists_mem_gaps_iff (coveredRanges_sorted table call) coveredRanges_stop
  have hnone : ∀ _ : call.rangeStartAt ≤ x ∧ x < call.rangeEndAt,
      (∀ span ∈ coveredRanges call (overlappingIntervals table call), ¬ span.Contains x) ↔
        statusAt table call.targetSpecId x = none := by
    intro hinside
    rw [statusAt_eq_none_iff, ← not_iff_not]
    push Not
    rw [exists_mem_coveredRanges_iff]
    exact and_iff_right hinside
  constructor
  · rintro ⟨gap, hgap, hx, rfl⟩
    obtain ⟨hstart, hstop, huncovered⟩ := hgaps.mp ⟨gap, hgap, hx⟩
    exact ⟨⟨hstart, hstop⟩, (hnone ⟨hstart, hstop⟩).mp huncovered,
      (mem_gaps coveredRanges_stop hgap).1.symm⟩
  · rintro ⟨hinside, hstatus, rfl⟩
    obtain ⟨gap, hgap, hx⟩ := hgaps.mpr ⟨hinside.1, hinside.2, (hnone hinside).mpr hstatus⟩
    exact ⟨gap, hgap, hx, (mem_gaps coveredRanges_stop hgap).1⟩

/-- The changed parts of the range are where the target has another status. -/
theorem exists_mem_changed_iff (hseparate : Separate table) :
    (∃ span ∈ changedRanges call (overlappingIntervals table call),
        span.Contains x ∧ span.value = previous) ↔ (call.rangeStartAt ≤ x ∧ x < call.rangeEndAt) ∧
        ∃ status, statusAt table call.targetSpecId x = some status ∧
          status ≠ call.status ∧ some status = previous := by
  constructor
  · rintro ⟨span, hspan, hx, rfl⟩
    obtain ⟨row, hrow, hclip⟩ := List.mem_filterMap.mp hspan
    split_ifs at hclip with hstatus
    obtain ⟨hcontains, hinside⟩ := exists_clip_iff.mp ⟨span, hclip, hx⟩
    refine ⟨hinside, row.coverage.status, ?_, hstatus, (clip_eq_some hclip).1.symm⟩
    exact (statusAt_eq_some_iff hseparate).mpr
      ⟨row, (mem_overlappingIntervals.mp hrow).1, hcontains, rfl⟩
  · rintro ⟨hinside, status, hstatus, hdifferent, rfl⟩
    obtain ⟨row, hrow, hcontains, rfl⟩ := (statusAt_eq_some_iff hseparate).mp hstatus
    obtain ⟨span, hclip, hx⟩ := exists_clip_iff.mpr
      (⟨hcontains, hinside⟩ : row.statusSpan.Contains x ∧ _)
    refine ⟨span, List.mem_filterMap.mpr ⟨row, ?_, ?_⟩, hx, (clip_eq_some hclip).1⟩
    · exact mem_overlappingIntervals.mpr
        ⟨hrow, hcontains.1.trans_lt hinside.2, hinside.1.trans_lt hcontains.2⟩
    · rw [if_pos hdifferent, hclip]

/-- The transitions hold the instants of the range whose status changes, each labelled with
the status it had. -/
theorem exists_mem_transitions_iff (hseparate : Separate table) :
    (∃ transition ∈ coverageTransitions call (overlappingIntervals table call),
        transition.Contains x ∧ transition.value = previous) ↔
      (call.rangeStartAt ≤ x ∧ x < call.rangeEndAt) ∧
        statusAt table call.targetSpecId x = previous ∧ previous ≠ some call.status := by
  simp only [coverageTransitions, List.mem_append, or_and_right, exists_or,
    exists_mem_changed_iff hseparate, exists_mem_uncovered_iff]
  constructor
  · rintro (⟨hinside, status, hstatus, hdifferent, rfl⟩ | ⟨hinside, hstatus, rfl⟩)
    · exact ⟨hinside, hstatus, by simpa using hdifferent⟩
    · exact ⟨hinside, hstatus, by simp⟩
  · rintro ⟨hinside, hstatus, hdifferent⟩
    cases previous with
    | some status => exact Or.inl ⟨hinside, status, hstatus, by simpa using hdifferent, rfl⟩
    | none => exact Or.inr ⟨hinside, hstatus, rfl⟩

/-- The transitions are apart. -/
theorem transitions_pairwise (hseparate : Separate table) (call : CoverageCall) :
    (coverageTransitions call (overlappingIntervals table call)).Pairwise Apart := by
  have hoverlaps : (overlappingIntervals table call).Pairwise fun row other =>
      Apart row.statusSpan other.statusSpan := by
    have hrows : (table.ofTarget call.targetSpecId).Pairwise fun row other =>
        Apart row.span other.span := List.pairwise_map.mp (hseparate call.targetSpecId)
    exact ((sortedBy_perm _ _).pairwise_iff fun h => Apart.symm h).mpr (hrows.sublist
      List.filter_sublist)
  have hchanged : ∀ span ∈ changedRanges call (overlappingIntervals table call),
      span ∈ coveredRanges call (overlappingIntervals table call) := by
    intro span hspan
    obtain ⟨row, hrow, hclip⟩ := List.mem_filterMap.mp hspan
    split_ifs at hclip
    exact List.mem_filterMap.mpr ⟨row, hrow, hclip⟩
  refine List.pairwise_append.mpr ⟨?_, gaps_pairwise coveredRanges_stop, ?_⟩
  · refine List.pairwise_filterMap.mpr (hoverlaps.imp fun h a ha b hb => ?_)
    split_ifs at ha hb
    exact h.within (clip_eq_some ha).2.1 (clip_eq_some hb).2.1
  · intro span hspan gap hgap
    rw [apart_iff]
    intro x hx hgapx
    -- a point of a covered part is in no gap
    have hgaps := (exists_mem_gaps_iff (coveredRanges_sorted table call)
      coveredRanges_stop).mp ⟨gap, hgap, hgapx⟩
    exact hgaps.2.2 span (hchanged span hspan) hx

/-- What the transitions of a call have to be: parts of its range, apart from each other, that
hold the instants whose status changes, labelled with the status there was. -/
structure TransitionsCorrect (table : IntervalTable) (call : CoverageCall)
    (transitions : List (Span Instant (Option CoverageState))) : Prop where
  inside : ∀ transition ∈ transitions, call.rangeStartAt ≤ transition.start ∧
    transition.start < transition.stop ∧ transition.stop ≤ call.rangeEndAt
  apart : transitions.Pairwise Apart
  changed : ∀ x, (∃ transition ∈ transitions, transition.Contains x) ↔
    (call.rangeStartAt ≤ x ∧ x < call.rangeEndAt) ∧
      statusAt table call.targetSpecId x ≠ some call.status
  labelled : ∀ transition ∈ transitions, ∀ x, transition.Contains x →
    transition.value = statusAt table call.targetSpecId x

/-- The transitions of a call are correct. -/
theorem transitions_correct (hseparate : Separate table) (call : CoverageCall) :
    TransitionsCorrect table call (coverageTransitions call (overlappingIntervals table call)) where
  inside transition htransition := by
    refine ⟨?_, transition.start_lt, ?_⟩
    all_goals
      rcases List.mem_append.mp htransition with hchanged | hgap
      · obtain ⟨row, -, hclip⟩ := List.mem_filterMap.mp hchanged
        split_ifs at hclip
        obtain ⟨-, -, hstart, hstop⟩ := clip_eq_some hclip
        assumption
      · obtain ⟨-, hstart, hstop⟩ := mem_gaps coveredRanges_stop hgap
        assumption
  apart := transitions_pairwise hseparate call
  changed x := by
    constructor
    · rintro ⟨transition, htransition, hx⟩
      obtain ⟨hinside, hstatus, hdifferent⟩ :=
        (exists_mem_transitions_iff hseparate).mp ⟨transition, htransition, hx, rfl⟩
      exact ⟨hinside, hstatus ▸ hdifferent⟩
    · rintro ⟨hinside, hdifferent⟩
      obtain ⟨transition, htransition, hx, -⟩ :=
        (exists_mem_transitions_iff hseparate).mpr ⟨hinside, rfl, hdifferent⟩
      exact ⟨transition, htransition, hx⟩
  labelled transition htransition x hx :=
    ((exists_mem_transitions_iff hseparate).mp ⟨transition, htransition, hx, rfl⟩).2.1.symm

end Goodmoneying.Analysis
