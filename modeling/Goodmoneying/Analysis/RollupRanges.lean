import Goodmoneying.Analysis.TransitionRanges

/-!
# The ranges of the touched buckets

The starts that `affected_rollup_ranges` groups are the cells of its instants, in ascending order,
and every group is a run of cells that follow each other (`groupStarts_spec`). On the cells of an
interval the grouping goes the way of the two loops of `affected_rollup_ranges_for_interval`
(`groupStarts_eq_rangesFrom`).
-/

namespace Goodmoneying.Analysis

open List Library
open Program
open Program.Aggregation

variable {unit : String} {e b : UtcTime} {changedAt : List UtcTime}
variable {ranges : List RollupInvalidationRange} {grid : Grid}

/-- The bucket boundary `n` buckets after a bucket start. -/
def bucketsAfter (unit : String) : ℕ → UtcTime → Except PythonError UtcTime
  | 0, t => .ok t
  | n + 1, t => do
    let bucketEnd ← rollupBucketEnd unit t
    bucketsAfter unit n bucketEnd

/-- A range that begins and ends at buckets and holds as many as it says, at least one and no
more than a job takes. -/
structure BucketRange (unit : String) (range : RollupInvalidationRange) : Prop where
  unit_eq : range.unit = unit
  begins : rollupBucketStart unit range.startAt = .ok range.startAt
  ends : rollupBucketStart unit range.endAt = .ok range.endAt
  not_empty : range.startAt < range.endAt
  count_pos : 1 ≤ range.outputBucketCount
  count_le : range.outputBucketCount ≤ maxOutputBucketsPerJob
  steps : bucketsAfter unit range.outputBucketCount range.startAt = .ok range.endAt

theorem maxOutputBucketsPerJob_pos : 0 < maxOutputBucketsPerJob := by decide

theorem bucketsAfter_zero (unit : String) (t : UtcTime) : bucketsAfter unit 0 t = .ok t := rfl

theorem bucketsAfter_succ {n : ℕ} {t u : UtcTime} (h : bucketsAfter unit n t = .ok u)
    (hend : rollupBucketEnd unit u = .ok e) : bucketsAfter unit (n + 1) t = .ok e := by
  induction n generalizing t with
  | zero =>
    obtain rfl := Except.ok.inj h
    rw [bucketsAfter, hend, ok_bind]
    rfl
  | succ n ih =>
    rw [bucketsAfter] at h
    obtain ⟨next, hnext, h⟩ := bind_eq_ok.mp h
    rw [bucketsAfter, hnext, ok_bind]
    exact ih h

section Grouping

variable {unit : String} {grid : Grid}
variable {first previous last : UtcTime} {rest : List UtcTime} {count : ℕ}
variable {s : UtcTime} {steps : ℕ}

/-- The end of a cell is the start of a cell. -/
theorem cellStart_of_end (hunit : (unit, grid) ∈ derivedGrids) (hs : cellStart grid s = s)
    (h : rollupBucketEnd unit s = .ok e) : cellStart grid e = e := by
  have hat := (rollupBucketEnd_eq_ok hunit hs).mp h
  rw [← hs] at hat
  ext
  show grid.start e.microseconds = e.microseconds
  rw [hat]
  exact grid.start_next s.microseconds

/-- A cell begins before the end of another one if and only if it is no later. -/
theorem lt_end_iff (hunit : (unit, grid) ∈ derivedGrids) (hs : cellStart grid s = s)
    (hb : cellStart grid b = b) (h : rollupBucketEnd unit s = .ok e) : b < e ↔ b ≤ s := by
  have hat := (rollupBucketEnd_eq_ok hunit hs).mp h
  constructor
  · intro hlt
    by_contra hle
    have hnext := next_le_of_lt hs hb (not_le.mp hle)
    rw [UtcTime.lt_def, hat] at hlt
    omega
  · intro hle
    exact hle.trans_lt (lt_of_rollupBucketEnd h)

/-- A group that ends after `steps` more buckets. -/
theorem bucketRange_of_steps (hunit : (unit, grid) ∈ derivedGrids)
    (hfirst : cellStart grid first = first) (hprevious : cellStart grid previous = previous)
    (hle : first ≤ previous) (hsteps : bucketsAfter unit steps first = .ok previous)
    (hroom : steps < maxOutputBucketsPerJob) (h : rollupBucketEnd unit previous = .ok e) :
    BucketRange unit ⟨unit, first, e, steps + 1⟩ := by
  have hstart := rollupBucketStart_eq (derivedGrids_subset hunit)
  refine ⟨rfl, ?_, ?_, ?_, Nat.le_add_left 1 steps, hroom, bucketsAfter_succ hsteps h⟩
  · rw [hstart, hfirst]
  · rw [hstart, cellStart_of_end hunit hprevious h]
  · exact hle.trans_lt (lt_of_rollupBucketEnd h)

/-- What the grouping makes of a group under way and the starts that are left. -/
theorem groupStarts_spec (hunit : (unit, grid) ∈ derivedGrids)
    (hfirst : cellStart grid first = first) (hle : first ≤ previous)
    (hsteps : bucketsAfter unit steps first = .ok previous) (hroom : steps < maxOutputBucketsPerJob)
    (hsorted : (previous :: rest).Pairwise (· < ·))
    (hcells : ∀ s ∈ previous :: rest, cellStart grid s = s)
    (h : groupStarts unit first previous (steps + 1) rest = .ok ranges) :
    (∀ range ∈ ranges, BucketRange unit range ∧ first ≤ range.startAt) ∧
    ranges.Pairwise (fun range later => range.endAt ≤ later.startAt) ∧
    ∀ b, cellStart grid b = b →
      ((∃ range ∈ ranges, range.startAt ≤ b ∧ b < range.endAt) ↔
        (first ≤ b ∧ b ≤ previous) ∨ b ∈ rest) := by
  induction rest generalizing first previous steps ranges with
  | nil =>
    obtain ⟨groupEnd, hend, h⟩ := bind_eq_ok.mp h
    obtain rfl := pure_eq_ok.mp h
    have hprevious := hcells previous mem_cons_self
    refine ⟨fun range hrange => ?_, pairwise_singleton _ _, fun b hb => ?_⟩
    · obtain rfl := mem_singleton.mp hrange
      exact ⟨bucketRange_of_steps hunit hfirst hprevious hle hsteps hroom hend, le_refl _⟩
    · simp [lt_end_iff hunit hprevious hb hend]
  | cons current rest ih =>
    obtain ⟨bucketEnd, hend, h⟩ := bind_eq_ok.mp h
    have hprevious := hcells previous mem_cons_self
    obtain ⟨hbefore, hsorted⟩ := pairwise_cons.mp hsorted
    have hlt := hbefore current mem_cons_self
    have hcells := (forall_mem_cons.mp hcells).2
    have hcurrent := hcells current mem_cons_self
    have hnext : bucketEnd ≤ current := by
      by_contra hgt
      exact absurd ((lt_end_iff hunit hprevious hcurrent hend).mp (not_le.mp hgt))
        (not_le.mpr hlt)
    split_ifs at h with hjoin
    · -- the group goes on with `current`
      obtain ⟨rfl, hroom'⟩ := hjoin
      obtain ⟨hranges, hascending, hcover⟩ := ih hfirst (hle.trans hlt.le)
        (bucketsAfter_succ hsteps hend) hroom' hsorted hcells h
      refine ⟨hranges, hascending, fun b hb => ?_⟩
      rw [hcover b hb, mem_cons]
      constructor
      · rintro (⟨hfrom, hto⟩ | hmem)
        · rcases hto.eq_or_lt with rfl | hto
          · exact Or.inr (Or.inl rfl)
          · exact Or.inl ⟨hfrom, (lt_end_iff hunit hprevious hb hend).mp hto⟩
        · exact Or.inr (Or.inr hmem)
      · rintro (⟨hfrom, hto⟩ | rfl | hmem)
        · exact Or.inl ⟨hfrom, hto.trans hlt.le⟩
        · exact Or.inl ⟨hle.trans hlt.le, le_refl _⟩
        · exact Or.inr hmem
    · -- the group is closed and `current` begins the next one
      rw [hend, ok_bind] at h
      obtain ⟨later, hlater, h⟩ := bind_eq_ok.mp h
      obtain rfl := pure_eq_ok.mp h
      obtain ⟨hranges, hascending, hcover⟩ := ih hcurrent (le_refl _)
        (bucketsAfter_zero unit current) maxOutputBucketsPerJob_pos hsorted hcells hlater
      refine ⟨?_, pairwise_cons.mpr ⟨fun range hrange => ?_, hascending⟩, fun b hb => ?_⟩
      · intro range hrange
        rcases mem_cons.mp hrange with rfl | hrange
        · exact ⟨bucketRange_of_steps hunit hfirst hprevious hle hsteps hroom hend, le_refl _⟩
        · exact ⟨(hranges range hrange).1, (hle.trans hlt.le).trans (hranges range hrange).2⟩
      · exact hnext.trans (hranges range hrange).2
      · rw [exists_mem_cons_iff, hcover b hb, lt_end_iff hunit hprevious hb hend,
          mem_cons, le_antisymm_iff, and_comm (a := b ≤ current)]

/-- The grouping succeeds if and only if every bucket ends within the calendar. -/
theorem groupStarts_isOk_iff : (∃ ranges, groupStarts unit first previous count rest = .ok ranges) ↔
      ∀ s ∈ previous :: rest, ∃ e, rollupBucketEnd unit s = .ok e := by
  induction rest generalizing first previous count with
  | nil =>
    rw [groupStarts]
    constructor
    · rintro ⟨ranges, h⟩ s hs
      obtain ⟨e, he, -⟩ := bind_eq_ok.mp h
      obtain rfl := mem_singleton.mp hs
      exact ⟨e, he⟩
    · intro h
      obtain ⟨e, he⟩ := h previous mem_cons_self
      exact ⟨_, by rw [he, ok_bind]; rfl⟩
  | cons current rest ih =>
    rw [groupStarts, forall_mem_cons]
    constructor
    · rintro ⟨ranges, h⟩
      obtain ⟨e, he, h⟩ := bind_eq_ok.mp h
      refine ⟨⟨e, he⟩, ?_⟩
      split_ifs at h
      · exact ih.mp ⟨_, h⟩
      · rw [he, ok_bind] at h
        obtain ⟨later, hlater, -⟩ := bind_eq_ok.mp h
        exact ih.mp ⟨_, hlater⟩
    · rintro ⟨⟨e, he⟩, h⟩
      rw [he, ok_bind]
      split_ifs
      · exact ih.mpr h
      · obtain ⟨later, hlater⟩ := ih.mpr h
        exact ⟨_, by rw [ok_bind, hlater]; rfl⟩

/-- The inner loop with room left takes one bucket and goes on. -/
theorem advance_of_room (unit : String) {current : UtcTime} (hle : current ≤ last)
    (hroom : count < maxOutputBucketsPerJob) :
    advance unit last (maxOutputBucketsPerJob - count) current count = (do
      let next ← rollupBucketEnd unit current
      advance unit last (maxOutputBucketsPerJob - (count + 1)) next (count + 1)) := by
  obtain ⟨room, hroom⟩ := Nat.exists_eq_add_of_lt hroom
  rw [show maxOutputBucketsPerJob - count = room + 1 by omega,
    show maxOutputBucketsPerJob - (count + 1) = room by omega, advance, if_pos hle]

/-- On cells that follow each other up to `last`, the grouping goes the way of the two loops. -/
theorem groupStarts_eq_rounds (hcount : count ≤ maxOutputBucketsPerJob)
    (hfollow : (previous :: rest).IsChain fun s next => rollupBucketEnd unit s = .ok next)
    (hlast : (previous :: rest).getLast (cons_ne_nil _ _) = last)
    (hsorted : (previous :: rest).Pairwise (· < ·)) :
    groupStarts unit first previous count rest = (do
      let next ← rollupBucketEnd unit previous
      let round ← advance unit last (maxOutputBucketsPerJob - count) next count
      let later ← rangesFrom unit last round.1
      pure (⟨unit, first, round.1, round.2⟩ :: later)) := by
  induction rest generalizing previous count first with
  | nil =>
    obtain rfl : previous = last := hlast
    rw [groupStarts]
    cases hend : rollupBucketEnd unit previous with
    | error e => rfl
    | ok next =>
      have hover : ¬ next ≤ previous := not_le.mpr (lt_of_rollupBucketEnd hend)
      have hround : advance unit previous (maxOutputBucketsPerJob - count) next count =
          .ok (next, count) := by
        cases maxOutputBucketsPerJob - count with
        | zero => rfl
        | succ room => rw [advance, if_neg hover]
      rw [ok_bind, ok_bind, hround, ok_bind, rangesFrom_eq, if_neg hover]
      rfl
  | cons current rest ih =>
    obtain ⟨hend, hfollow⟩ := isChain_cons_cons.mp hfollow
    obtain ⟨-, hsorted⟩ := pairwise_cons.mp hsorted
    rw [getLast_cons (cons_ne_nil _ _)] at hlast
    have hle : current ≤ last := by
      rw [← hlast]
      exact (hsorted.imp le_of_lt).rel_getLast (mem_cons_self)
    rw [groupStarts, hend, ok_bind, ok_bind]
    rcases hcount.lt_or_eq with hroom | hfull
    · rw [if_pos ⟨rfl, hroom⟩, ih hroom hfollow hlast hsorted, ok_bind,
        advance_of_room unit hle hroom]
      simp only [bind_assoc]
    · have hclosed : ¬ (current = current ∧ count < maxOutputBucketsPerJob) := by omega
      have hstop : advance unit last (maxOutputBucketsPerJob - count) current count =
          .ok (current, count) := by
        rw [hfull, Nat.sub_self]
        rfl
      have hround := advance_of_room unit hle maxOutputBucketsPerJob_pos
      rw [Nat.sub_zero] at hround
      rw [if_neg hclosed, ok_bind, ih (by decide) hfollow hlast hsorted, hstop, ok_bind,
        rangesFrom_eq, if_pos hle, hround]
      simp only [bind_assoc]

/-- The cells between two of them follow each other. -/
theorem isChain_of_all (hunit : (unit, grid) ∈ derivedGrids) {starts : List UtcTime}
    (hsorted : starts.Pairwise (· < ·)) (hcells : ∀ s ∈ starts, cellStart grid s = s)
    (hlast : ∀ s ∈ starts, s ≤ last)
    (hall : ∀ s ∈ starts, ∀ b, cellStart grid b = b → s ≤ b → b ≤ last → b ∈ starts) :
    starts.IsChain fun s next => rollupBucketEnd unit s = .ok next := by
  induction starts with
  | nil => exact List.IsChain.nil
  | cons first starts ih =>
    cases starts with
    | nil => exact List.IsChain.singleton _
    | cons second starts =>
      obtain ⟨hbefore, hsorted'⟩ := pairwise_cons.mp hsorted
      have hfirst := hcells first mem_cons_self
      have hsecond := hcells second (mem_cons_of_mem _ mem_cons_self)
      have hlt := hbefore second mem_cons_self
      have hle : grid.next first.microseconds ≤ second.microseconds :=
        next_le_of_lt hfirst hsecond hlt
      have hend : rollupBucketEnd unit first =
          .ok ⟨grid.next first.microseconds, hle.trans_lt second.in_calendar⟩ :=
        (rollupBucketEnd_eq_ok hunit hfirst).mpr rfl
      refine isChain_cons_cons.mpr ⟨?_, ih hsorted' (forall_mem_cons.mp hcells).2
        (forall_mem_cons.mp hlast).2 fun s hs b hb hfrom hto => ?_⟩
      · -- the end of the first cell is a cell of the list, and no other cell comes before it
        have hafter := lt_of_rollupBucketEnd hend
        have hmem := hall first mem_cons_self _ (cellStart_of_end hunit hfirst hend)
          hafter.le (le_trans (b := second) hle
            (hlast second (mem_cons_of_mem _ mem_cons_self)))
        rw [hend]
        congr 1
        rcases mem_cons.mp hmem with heq | hmem
        · exact absurd heq hafter.ne'
        rcases mem_cons.mp hmem with heq | hmem
        · exact heq
        · exact absurd ((pairwise_cons.mp hsorted').1 _ hmem) (not_lt.mpr hle)
      · have hmem := hall s (mem_cons_of_mem _ hs) b hb hfrom hto
        rcases mem_cons.mp hmem with rfl | hmem
        · exact absurd (hbefore s hs) (not_lt.mpr hfrom)
        · exact hmem

/-- On all cells between two of them the grouping comes to what the two loops come to. -/
theorem groupStarts_eq_rangesFrom (hunit : (unit, grid) ∈ derivedGrids)
    (hsorted : (first :: rest).Pairwise (· < ·))
    (hmem : ∀ b, b ∈ first :: rest ↔ cellStart grid b = b ∧ first ≤ b ∧ b ≤ last)
    (hle : first ≤ last) (hlast : cellStart grid last = last) :
    groupStarts unit first first 1 rest = rangesFrom unit last first := by
  have hfollow := isChain_of_all hunit hsorted (fun s hs => ((hmem s).mp hs).1)
    (fun s hs => ((hmem s).mp hs).2.2) fun s hs b hb hfrom hto =>
      (hmem b).mpr ⟨hb, ((hmem s).mp hs).2.1.trans hfrom, hto⟩
  have hend : (first :: rest).getLast (cons_ne_nil _ _) = last := by
    apply le_antisymm ((hmem _).mp (getLast_mem _)).2.2
    exact (hsorted.imp le_of_lt).rel_getLast ((hmem last).mpr ⟨hlast, hle, le_refl _⟩)
  have hround := advance_of_room unit hle maxOutputBucketsPerJob_pos
  rw [Nat.sub_zero] at hround
  rw [groupStarts_eq_rounds (by decide) hfollow hend hsorted, rangesFrom_eq, if_pos hle, hround]
  simp only [bind_assoc]

end Grouping

/-! ## The starts of the touched buckets -/

section Starts

variable {unit : String} {grid : Grid}

theorem bucketStarts_eq (hunit : (unit, grid) ∈ derivedGrids) (changedAt : List UtcTime) :
    bucketStarts unit changedAt = .ok (sortedBy id (changedAt.map (cellStart grid)).dedup) := by
  have hstarts : changedAt.mapM (rollupBucketStart unit) =
      .ok (changedAt.map (cellStart grid)) := by
    rw [mapM_congr (g := fun t => pure (cellStart grid t)) fun t _ =>
      rollupBucketStart_eq (derivedGrids_subset hunit) t]
    exact mapM_pure
  rw [bucketStarts, hstarts, ok_bind]
  rfl

theorem bucketStarts_sorted (grid : Grid) (changedAt : List UtcTime) :
    (sortedBy id (changedAt.map (cellStart grid)).dedup).Pairwise (· < ·) :=
  sortedBy_lt_of_nodup (by simpa using nodup_dedup _)

theorem mem_bucketStarts : b ∈ sortedBy id (changedAt.map (cellStart grid)).dedup ↔
      ∃ t ∈ changedAt, cellStart grid t = b := by
  rw [mem_sortedBy, mem_dedup, mem_map]

theorem cellStart_of_mem_bucketStarts (h : b ∈ sortedBy id (changedAt.map (cellStart grid)).dedup) :
    cellStart grid b = b := by
  obtain ⟨t, -, rfl⟩ := mem_bucketStarts.mp h
  exact cellStart_cellStart grid t

/-- One unit of `affected_rollup_ranges`. -/
theorem affectedRollupRanges_singleton (unit : String) (changedAt : List UtcTime) :
    affectedRollupRanges changedAt [unit] =
      (bucketStarts unit changedAt >>= rangesOfStarts unit) := by
  simp only [affectedRollupRanges, mapM_cons, mapM_nil, bind_assoc, pure_bind,
    flatten_cons, flatten_nil, append_nil, bind_pure]

/-- The units are taken one after the other. -/
theorem affectedRollupRanges_eq_mapM (changedAt : List UtcTime) (units : List String) :
    affectedRollupRanges changedAt units =
      List.flatten <$> units.mapM fun unit => affectedRollupRanges changedAt [unit] := by
  simp only [affectedRollupRanges_singleton]
  rfl

end Starts

/-! ## The main result -/

/-- The ranges of a unit hold exactly the buckets of the instants. -/
structure BucketRanges (unit : String) (changedAt : List UtcTime)
    (ranges : List RollupInvalidationRange) : Prop where
  well_formed : ∀ range ∈ ranges, BucketRange unit range
  ascending : ranges.Pairwise fun range later => range.endAt ≤ later.startAt
  covers : ∀ bucket, rollupBucketStart unit bucket = .ok bucket →
    ((∃ range ∈ ranges, range.startAt ≤ bucket ∧
        ∃ bucketEnd, rollupBucketEnd unit bucket = .ok bucketEnd ∧ bucketEnd ≤ range.endAt) ↔
      ∃ t ∈ changedAt, rollupBucketStart unit t = .ok bucket)

/-- The ranges that are returned are those of the touched buckets. -/
theorem bucketRanges_of_ok (hunit : (unit, grid) ∈ derivedGrids)
    (h : affectedRollupRanges changedAt [unit] = .ok ranges) :
    BucketRanges unit changedAt ranges := by
  have hstart := rollupBucketStart_eq (derivedGrids_subset hunit)
  have hinstants : ∀ bucket, (∃ t ∈ changedAt, rollupBucketStart unit t = .ok bucket) ↔
      bucket ∈ sortedBy id (changedAt.map (cellStart grid)).dedup := by
    intro bucket
    simp only [hstart, Except.ok.injEq, mem_bucketStarts]
  have hsorted := bucketStarts_sorted grid changedAt
  have hcells : ∀ s ∈ sortedBy id (changedAt.map (cellStart grid)).dedup,
      cellStart grid s = s := fun s => cellStart_of_mem_bucketStarts
  rw [affectedRollupRanges_singleton, bucketStarts_eq hunit, ok_bind] at h
  generalize sortedBy id (changedAt.map (cellStart grid)).dedup = starts
    at h hinstants hsorted hcells
  cases starts with
  | nil =>
    obtain rfl := pure_eq_ok.mp h
    exact ⟨by simp, List.Pairwise.nil, fun bucket _ => by rw [hinstants]; simp⟩
  | cons first rest =>
    have hfirst := hcells first mem_cons_self
    obtain ⟨hranges, hascending, hcover⟩ := groupStarts_spec hunit hfirst (le_refl _)
      (bucketsAfter_zero unit first) maxOutputBucketsPerJob_pos hsorted hcells h
    refine ⟨fun range hrange => (hranges range hrange).1, hascending, fun bucket hbucket => ?_⟩
    have hcell : cellStart grid bucket = bucket := by
      rw [hstart] at hbucket
      exact Except.ok.inj hbucket
    rw [hinstants, mem_cons, le_antisymm_iff, and_comm, ← hcover bucket hcell]
    refine exists_congr fun range => and_congr_right fun hrange => and_congr_right fun _ => ?_
    -- a bucket of a range ends within it
    have hends : cellStart grid range.endAt = range.endAt := by
      have hends := (hranges range hrange).1.ends
      rw [hstart] at hends
      exact Except.ok.inj hends
    constructor
    · rintro ⟨bucketEnd, hend, hle⟩
      exact (lt_of_rollupBucketEnd hend).trans_le hle
    · intro hlt
      have hnext := next_le_of_lt hcell hends hlt
      exact ⟨⟨_, hnext.trans_lt range.endAt.in_calendar⟩,
        (rollupBucketEnd_eq_ok hunit hcell).mpr rfl, hnext⟩

theorem affectedRollupRanges_isOk_iff (hunit : (unit, grid) ∈ derivedGrids)
    (changedAt : List UtcTime) : (∃ ranges, affectedRollupRanges changedAt [unit] = .ok ranges) ↔
      ∀ t ∈ changedAt, ∃ bucketEnd,
        (rollupBucketStart unit t >>= rollupBucketEnd unit) = .ok bucketEnd := by
  have hinstants : (∀ t ∈ changedAt, ∃ bucketEnd,
        (rollupBucketStart unit t >>= rollupBucketEnd unit) = .ok bucketEnd) ↔
      ∀ s ∈ sortedBy id (changedAt.map (cellStart grid)).dedup,
        ∃ e, rollupBucketEnd unit s = .ok e := by
    simp only [rollupBucketStart_eq (derivedGrids_subset hunit), ok_bind, mem_bucketStarts]
    constructor
    · rintro h s ⟨t, ht, rfl⟩
      exact h t ht
    · intro h t ht
      exact h _ ⟨t, ht, rfl⟩
  rw [affectedRollupRanges_singleton, bucketStarts_eq hunit, ok_bind, hinstants]
  cases sortedBy id (changedAt.map (cellStart grid)).dedup with
  | nil => exact ⟨fun _ s hs => absurd hs not_mem_nil, fun _ => ⟨[], rfl⟩⟩
  | cons first rest => exact groupStarts_isOk_iff

/-- The ranges of an interval are those of any instants of it that hit all its buckets. -/
theorem rangesForInterval_eq {units : List String}
    (hunits : ∀ unit ∈ units, ∃ grid, (unit, grid) ∈ derivedGrids) {startAt endAt : UtcTime}
    (hlt : startAt < endAt) {instants : List UtcTime}
    (hinside : ∀ t ∈ instants, startAt ≤ t ∧ t < endAt)
    (hhit : ∀ unit ∈ units, ∀ t, startAt ≤ t → t < endAt →
      ∃ u ∈ instants, rollupBucketStart unit u = rollupBucketStart unit t) :
    affectedRollupRangesForInterval startAt endAt units = affectedRollupRanges instants units := by
  have hpos := UtcTime.lt_def.mp hlt
  have hlast := UtcTime.addTimedelta_neg_one (pos_of_gt hpos)
  rw [affectedRollupRangesForInterval, if_neg (not_le.mpr hlt), hlast, ok_bind,
    affectedRollupRanges]
  congr 1
  apply mapM_congr
  intro unit hmem
  obtain ⟨grid, hunit⟩ := hunits unit hmem
  have hstart := rollupBucketStart_eq (derivedGrids_subset hunit)
  generalize hat : (⟨endAt.microseconds - 1, _⟩ : UtcTime) = lastInstant
  have hafter : ∀ t, t < endAt ↔ t ≤ lastInstant := by
    intro t
    rw [← hat, UtcTime.lt_def, UtcTime.le_def]
    dsimp only
    omega
  have hstarts : ∀ b, b ∈ sortedBy id (instants.map (cellStart grid)).dedup ↔
      cellStart grid b = b ∧ cellStart grid startAt ≤ b ∧ b ≤ cellStart grid lastInstant := by
    intro b
    rw [mem_bucketStarts]
    constructor
    · rintro ⟨t, ht, rfl⟩
      obtain ⟨hfrom, hto⟩ := hinside t ht
      exact ⟨cellStart_cellStart grid t, cellStart_mono grid hfrom,
        cellStart_mono grid ((hafter t).mp hto)⟩
    · rintro ⟨hcell, hfrom, hto⟩
      -- an instant of the interval in the bucket: its start, or that of the interval
      have hinstant : ∃ t, startAt ≤ t ∧ t < endAt ∧ cellStart grid t = b := by
        rcases le_total startAt b with hle | hle
        · refine ⟨b, hle, (hafter b).mpr (hto.trans ?_), hcell⟩
          exact grid.start_le lastInstant.microseconds
        · refine ⟨startAt, le_refl _, hlt, le_antisymm hfrom ?_ |>.symm ▸ rfl⟩
          rw [← hcell]
          exact cellStart_mono grid hle
      obtain ⟨t, hfrom', hto', rfl⟩ := hinstant
      obtain ⟨u, hu, heq⟩ := hhit unit hmem t hfrom' hto'
      rw [hstart, hstart] at heq
      exact ⟨u, hu, Except.ok.inj heq⟩
  have hle : cellStart grid startAt ≤ cellStart grid lastInstant :=
    cellStart_mono grid ((hafter startAt).mp hlt)
  have hsorted := bucketStarts_sorted grid instants
  have hfirst := (hstarts _).mpr ⟨cellStart_cellStart grid startAt, le_refl _, hle⟩
  rw [hstart, hstart, ok_bind, ok_bind, bucketStarts_eq hunit, ok_bind]
  generalize sortedBy id (instants.map (cellStart grid)).dedup = starts at hstarts hsorted hfirst
  cases starts with
  | nil => cases hfirst
  | cons first rest =>
    have heq : first = cellStart grid startAt := by
      apply le_antisymm
      · rcases mem_cons.mp hfirst with heq | hlater
        · exact heq.ge
        · exact ((pairwise_cons.mp hsorted).1 _ hlater).le
      · exact ((hstarts first).mp mem_cons_self).2.1
    subst heq
    exact (groupStarts_eq_rangesFrom hunit hsorted hstarts hle
      (cellStart_cellStart grid lastInstant)).symm

theorem exists_derivedGrid_of_materialized :
    ∀ unit ∈ materializedAggregationUnits, ∃ grid, (unit, grid) ∈ derivedGrids := by
  simp [materializedAggregationUnits, aggregationUnits, derivedGrids, rollupGrids]

/-- The units are taken one by one; a unit fails if and only if the bucket of an instant has no
end in the calendar, and its ranges are otherwise exactly the touched buckets; and the ranges
of an interval are those of any of its instants that hit all its buckets.
SOURCE: incremental_aggregation.py:86-149 -/
theorem affectedRollupRanges_exact : (∀ changedAt units, affectedRollupRanges changedAt units =
      List.flatten <$> units.mapM fun unit => affectedRollupRanges changedAt [unit]) ∧
    (∀ unit ∈ materializedAggregationUnits, ∀ changedAt,
      ((∃ ranges, affectedRollupRanges changedAt [unit] = .ok ranges) ↔
        ∀ t ∈ changedAt, ∃ bucketEnd,
          (rollupBucketStart unit t >>= rollupBucketEnd unit) = .ok bucketEnd) ∧
      ∀ ranges, affectedRollupRanges changedAt [unit] = .ok ranges →
        BucketRanges unit changedAt ranges) ∧
    (∀ units startAt endAt instants, (∀ unit ∈ units, unit ∈ materializedAggregationUnits) →
      startAt < endAt → (∀ t ∈ instants, startAt ≤ t ∧ t < endAt) →
      (∀ unit ∈ units, ∀ t, startAt ≤ t → t < endAt →
        ∃ u ∈ instants, rollupBucketStart unit u = rollupBucketStart unit t) →
      affectedRollupRangesForInterval startAt endAt units =
        affectedRollupRanges instants units) := by
  refine ⟨affectedRollupRanges_eq_mapM, fun unit hmem changedAt => ?_, ?_⟩
  · obtain ⟨grid, hunit⟩ := exists_derivedGrid_of_materialized unit hmem
    exact ⟨affectedRollupRanges_isOk_iff hunit changedAt, fun ranges h =>
      bucketRanges_of_ok hunit h⟩
  · intro units startAt endAt instants hunits hlt hinside hhit
    exact rangesForInterval_eq (fun unit hmem =>
      exists_derivedGrid_of_materialized unit (hunits unit hmem)) hlt hinside hhit

/-- The last instant of the calendar has a bucket of every unit that does not end within it. -/
theorem affectedRollupRanges_of_last_instant :
    ¬ ∃ unit ∈ materializedAggregationUnits, ∃ ranges, affectedRollupRanges
      [⟨maxOrdinal * dayMicroseconds - 1, by decide⟩] [unit] = .ok ranges := by
  have hfails : ∀ unit ∈ materializedAggregationUnits, (affectedRollupRanges
      [⟨maxOrdinal * dayMicroseconds - 1, by decide⟩] [unit]).isOk = false := by
    decide +kernel
  rintro ⟨unit, hunit, ranges, hranges⟩
  have hfail := hfails unit hunit
  rw [hranges] at hfail
  cases hfail

/-- Two days of one month. -/
def exampleInstants : List UtcTime :=
  [⟨739001 * dayMicroseconds + 5, by decide⟩, ⟨739000 * dayMicroseconds, by decide⟩]

/-- The months that two instants touch. -/
theorem affectedRollupRanges_exact_month :
    (∃ ranges, affectedRollupRanges exampleInstants ["1M"] = .ok ranges ∧
      BucketRanges "1M" exampleInstants ranges) ∧
    affectedRollupRangesForInterval ⟨739000 * dayMicroseconds, by decide⟩
        ⟨739001 * dayMicroseconds + 7, by decide⟩ ["1M"] =
      affectedRollupRanges exampleInstants ["1M"] := by
  have hexact := affectedRollupRanges_exact
  have hmonth : "1M" ∈ materializedAggregationUnits := by decide
  have hsame : ∀ t : UtcTime, 739000 * dayMicroseconds ≤ t.microseconds →
      t.microseconds < 739001 * dayMicroseconds + 7 →
      cellStart calendarMonthGrid t =
        cellStart calendarMonthGrid ⟨739000 * dayMicroseconds, by decide⟩ := by
    intro t hfrom hto
    refine cellStart_eq_iff.mpr ⟨?_, ?_⟩
    · exact (calendarMonthGrid.start_le _).trans hfrom
    · exact hto.trans_le (by decide +kernel)
  have hgrid : ("1M", calendarMonthGrid) ∈ rollupGrids := by simp [rollupGrids]
  refine ⟨?_, hexact.2.2 ["1M"] _ _ _ (by simpa using hmonth) (by decide) (by decide) ?_⟩
  · obtain ⟨ranges, hranges⟩ := ((hexact.2.1 "1M" hmonth exampleInstants).1).mpr (by
      intro t ht
      rw [rollupBucketStart_eq hgrid, ok_bind]
      have hnext : calendarMonthGrid.next (cellStart calendarMonthGrid t).microseconds <
          maxOrdinal * dayMicroseconds := by
        simp only [exampleInstants, mem_cons, not_mem_nil, or_false] at ht
        rcases ht with rfl | rfl <;> decide +kernel
      exact ⟨⟨_, hnext⟩, (rollupBucketEnd_eq_ok (by simp [derivedGrids, rollupGrids])
        (cellStart_cellStart _ t)).mpr rfl⟩)
    exact ⟨ranges, hranges, (hexact.2.1 "1M" hmonth exampleInstants).2 ranges hranges⟩
  · intro unit hunit t hfrom hto
    obtain rfl := mem_singleton.mp hunit
    refine ⟨⟨739000 * dayMicroseconds, by decide⟩, by simp [exampleInstants], ?_⟩
    rw [rollupBucketStart_eq hgrid, rollupBucketStart_eq hgrid, hsame t hfrom hto]

end Goodmoneying.Analysis
