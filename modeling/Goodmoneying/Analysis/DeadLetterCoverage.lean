import Goodmoneying.Analysis.BackfillSteps
import Goodmoneying.Analysis.CoverageRecomputation
import Goodmoneying.Program.DeadLetters

/-!
# The coverage of dead letters

The ranges collected from the intervals of a target hold the instants of the job that are uncovered
or unverified (`exists_mem_changeRanges_iff`); replaced one after another they become missing
(`classifyTarget_ok`). So after all targets the unproven instants of the failed ones are missing,
and everything else is what it was (`moveToDeadLetter_classifies`).
-/

namespace Goodmoneying.Analysis.DeadLetterCoverage

open List Library Program Program.Backfill
open Analysis.Backfill

variable {target : DeadLetterTarget} {call : DeadLetterCall} {clock : ℤ → Instant → Instant}
variable {overlaps : List CoverageInterval} {cursor : Instant} {db : DeadLetterTables}

theorem mem_targetOverlaps {table : IntervalTable} {row : CoverageInterval} :
    row ∈ targetOverlaps table target ↔ row ∈ table.ofTarget target.targetSpecId ∧
      row.rangeStartAt < target.targetEndAt ∧ target.targetStartAt < row.rangeEndAt := by
  simp [targetOverlaps, mem_sortedBy]

theorem targetOverlaps_sorted (table : IntervalTable) (target : DeadLetterTarget) :
    (targetOverlaps table target).Pairwise fun row other =>
      row.rangeStartAt ≤ other.rangeStartAt :=
  sortedBy_pairwise _ _

/-- Every range has an instant. -/
theorem lt_of_mem_changeRanges {range : Instant × Instant}
    (h : range ∈ changeRanges target cursor overlaps) : range.1 < range.2 := by
  induction overlaps generalizing cursor with
  | nil =>
    rw [changeRanges] at h
    split_ifs at h with hlt
    · obtain rfl := mem_singleton.mp h
      exact hlt
    · simp at h
  | cons overlap overlaps ih =>
    simp only [changeRanges, mem_append] at h
    rcases h with (h | h) | h
    · split_ifs at h with hlt
      · obtain rfl := mem_singleton.mp h
        exact hlt
      · simp at h
    · split_ifs at h with hlt
      · obtain rfl := mem_singleton.mp h
        exact hlt.2
      · simp at h
    · exact ih h

/-- One round of the loop: the gap before the interval, the interval where it is unverified, and
what is found after it. `free` says that the intervals that follow leave the instant free, `found`
that an unverified one of them contains it. -/
theorem changeRanges_round {start stop cursor rowStart rowEnd x : ℤ}
    {free found unverified : Prop} (hcursor : start ≤ cursor) (hrow : rowStart < rowEnd)
    (hstop : rowStart < stop) (hlater : x < rowStart → free) :
    ((cursor < max start rowStart ∧ cursor ≤ x ∧ x < max start rowStart ∨
        (unverified ∧ max start rowStart < min stop rowEnd) ∧ max start rowStart ≤ x ∧
          x < min stop rowEnd) ∨
        max cursor (min stop rowEnd) ≤ x ∧ x < stop ∧ free ∨ start ≤ x ∧ x < stop ∧ found) ↔
      cursor ≤ x ∧ x < stop ∧ ¬ (rowStart ≤ x ∧ x < rowEnd) ∧ free ∨
        start ≤ x ∧ x < stop ∧ ((rowStart ≤ x ∧ x < rowEnd) ∧ unverified ∨ found) := by
  by_cases hfree : free <;> by_cases hfound : found <;> by_cases hverified : unverified <;>
    simp only [hfree, hfound, hverified, true_and, and_true, false_and, and_false, false_or,
      or_false, or_true, imp_false, implies_true, iff_false] at hlater ⊢ <;> omega

/-- The ranges hold the instants that no interval contains, and those of unverified intervals. -/
theorem exists_mem_changeRanges_iff
    (hsorted : overlaps.Pairwise fun row other => row.rangeStartAt ≤ other.rangeStartAt)
    (hoverlaps : ∀ row ∈ overlaps, row.rangeStartAt < target.targetEndAt)
    (hcursor : target.targetStartAt ≤ cursor) (x : Instant) :
    (∃ range ∈ changeRanges target cursor overlaps, range.1 ≤ x ∧ x < range.2) ↔
      (cursor ≤ x ∧ x < target.targetEndAt ∧ ∀ row ∈ overlaps, ¬ row.span.Contains x) ∨
      (target.targetStartAt ≤ x ∧ x < target.targetEndAt ∧
        ∃ row ∈ overlaps, row.span.Contains x ∧ row.coverage.status = .unverified) := by
  have hif : ∀ (p : Prop) [Decidable p] (range : Instant × Instant),
      (∃ other ∈ (if p then [range] else []), other.1 ≤ x ∧ x < other.2) ↔
        p ∧ range.1 ≤ x ∧ x < range.2 := by
    intro p _ range
    split_ifs with hp <;> simp [hp]
  induction overlaps generalizing cursor with
  | nil =>
    rw [changeRanges, hif]
    simp only [not_mem_nil, false_and, exists_false, and_false, or_false, false_implies,
      implies_true, and_true]
    unfold Instant at *
    omega
  | cons overlap overlaps ih =>
    rw [pairwise_cons] at hsorted
    rw [forall_mem_cons] at hoverlaps
    have hlaterCursor : target.targetStartAt ≤
        max cursor (min target.targetEndAt overlap.rangeEndAt) :=
      hcursor.trans (le_max_left _ _)
    have hrest := ih hsorted.2 hoverlaps.2 hlaterCursor
    simp only [changeRanges, mem_append, or_and_right, exists_or, hif, hrest]
    -- the intervals that follow begin later
    have hlater : x < overlap.rangeStartAt → ∀ row ∈ overlaps, ¬ row.span.Contains x :=
      fun hlt row hrow hx => absurd (hlt.trans_le (hsorted.1 row hrow)) (not_lt.mpr hx.1)
    have hcontains : overlap.span.Contains x ↔
        overlap.rangeStartAt ≤ x ∧ x < overlap.rangeEndAt := Iff.rfl
    simp only [forall_mem_cons, exists_mem_cons_iff, hcontains]
    exact changeRanges_round hcursor overlap.range_lt hoverlaps.1 hlater

/-- The status that a failed target leaves where it had the given one. -/
def proven : Option CoverageState → Option CoverageState
  | none => some .missing
  | some .unverified => some .missing
  | some status => some status

theorem proven_idem (status : Option CoverageState) : proven (proven status) = proven status := by
  rcases status with _ | status
  · rfl
  · cases status <;> rfl

theorem proven_eq (status : Option CoverageState) :
    proven status = if status = none ∨ status = some .unverified then some .missing else status := by
  rcases status with _ | status
  · rfl
  · cases status <;> simp [proven]

section

variable {checksum : CanonicalValue → String} {sha256 : String → String} {db db' : CoverageTables}
variable {targets : List DeadLetterTarget}

/-- Calls of one target with one status, one after another. -/
theorem replaceCalls_statusAt (hseparate : Separate db.intervals) {calls : List CoverageCall}
    {targetSpecId : ℤ} {status : CoverageState} (hmarket : (db.markets targetSpecId).isSome)
    (hcalls : ∀ call ∈ calls, call.targetSpecId = targetSpecId ∧ call.status = status ∧
      call.rangeStartAt < call.rangeEndAt) (hok : replaceAll checksum sha256 db calls = .ok db') :
    Separate db'.intervals ∧ SameTargets db db' ∧
      (∀ other, other ≠ targetSpecId →
        db'.intervals.ofTarget other = db.intervals.ofTarget other) ∧
      ∀ x, ((∃ call ∈ calls, call.rangeStartAt ≤ x ∧ x < call.rangeEndAt) →
          statusAt db'.intervals targetSpecId x = some status) ∧
        ((¬ ∃ call ∈ calls, call.rangeStartAt ≤ x ∧ x < call.rangeEndAt) →
          statusAt db'.intervals targetSpecId x = statusAt db.intervals targetSpecId x) := by
  induction calls generalizing db with
  | nil =>
    obtain rfl := pure_eq_ok.mp hok
    exact ⟨hseparate, .refl db, fun _ _ => rfl, fun x => ⟨by simp, fun _ => rfl⟩⟩
  | cons call calls ih =>
    rw [forall_mem_cons] at hcalls
    obtain ⟨⟨rfl, rfl, hrange⟩, hrest⟩ := hcalls
    obtain ⟨next, hnext, hok⟩ := bind_eq_ok.mp hok
    obtain ⟨hseparate', hothers, -⟩ := coverageAt_classification hseparate hmarket hrange hnext
    have hsame := (replaceCoverage_of_classification hnext).2
    have hstatus : ∀ x, statusAt next.intervals call.targetSpecId x =
        if call.rangeStartAt ≤ x ∧ x < call.rangeEndAt then some call.status
        else statusAt db.intervals call.targetSpecId x := fun x => by
      simpa only [true_and] using
        statusAt_classification hseparate hmarket hrange hnext call.targetSpecId x
    obtain ⟨hlast, hsame', hothers', hstatus'⟩ := ih hseparate' (hsame.markets ▸ hmarket) hrest hok
    refine ⟨hlast, hsame.trans hsame',
      fun other hother => (hothers' other hother).trans (hothers other hother), fun x => ?_⟩
    rw [exists_mem_cons_iff]
    obtain ⟨hin, hout⟩ := hstatus' x
    constructor
    · intro hx
      by_cases hlater : ∃ call ∈ calls, call.rangeStartAt ≤ x ∧ x < call.rangeEndAt
      · exact hin hlater
      · rw [hout hlater, hstatus x, if_pos (hx.resolve_right hlater)]
    · intro hx
      rw [not_or] at hx
      rw [hout hx.2, hstatus x, if_neg hx.1]

/-- A target returns, if the calendar has room around its source candles. -/
theorem classifyTarget_isOk (checksum : CanonicalValue → String) (sha256 : String → String)
    (hseparate : Separate db.intervals) (call : DeadLetterCall) (clock : ℤ → Instant → Instant)
    (hroom : TargetHasRoom db target.targetSpecId) :
    ∃ db', classifyTarget checksum sha256 call clock db target = .ok db' ∧
      Separate db'.intervals ∧ SameTargets db db' :=
  replaceAll_isOk checksum sha256 hseparate (by
    rw [forall_mem_map]
    exact fun _ _ => hroom)

/-- The targets return, if the calendar has room around their source candles. -/
theorem classifyTargets_isOk (checksum : CanonicalValue → String) (sha256 : String → String)
    (hseparate : Separate db.intervals) (call : DeadLetterCall) (clock : ℤ → Instant → Instant)
    (hroom : ∀ target ∈ targets, TargetHasRoom db target.targetSpecId) :
    ∃ db', targets.foldlM (classifyTarget checksum sha256 call clock) db = .ok db' ∧
      Separate db'.intervals ∧ SameTargets db db' := by
  refine foldlM_isOk (P := fun next => Separate next.intervals ∧ SameTargets db next) ?_
    ⟨hseparate, .refl db⟩
  rintro next target htarget ⟨hnext, hsame⟩
  obtain ⟨last, hlast, hseparate', hsame'⟩ :=
    classifyTarget_isOk checksum sha256 hnext call clock (hsame.hasRoom (hroom target htarget))
  exact ⟨last, hlast, hseparate', hsame.trans hsame'⟩

/-- One target: its unproven instants become missing. -/
theorem classifyTarget_ok (hseparate : Separate db.intervals)
    (hmarket : (db.markets target.targetSpecId).isSome)
    (hok : classifyTarget checksum sha256 call clock db target = .ok db') :
    Separate db'.intervals ∧ SameTargets db db' ∧
      (∀ other, other ≠ target.targetSpecId →
        db'.intervals.ofTarget other = db.intervals.ofTarget other) ∧
      ∀ x, statusAt db'.intervals target.targetSpecId x =
        if target.targetStartAt ≤ x ∧ x < target.targetEndAt then
          proven (statusAt db.intervals target.targetSpecId x)
        else statusAt db.intervals target.targetSpecId x := by
  have hcalls : ∀ other ∈ (changeRanges target target.targetStartAt
      (targetOverlaps db.intervals target)).map (missingCall call clock target),
      other.targetSpecId = target.targetSpecId ∧ other.status = missingStatus ∧
        other.rangeStartAt < other.rangeEndAt := by
    rw [forall_mem_map]
    exact fun range hrange => ⟨rfl, rfl, lt_of_mem_changeRanges hrange⟩
  obtain ⟨hlast, hsame, hothers, hstatus⟩ := replaceCalls_statusAt hseparate hmarket hcalls hok
  refine ⟨hlast, hsame, hothers, fun x => ?_⟩
  have hranges : (∃ other ∈ (changeRanges target target.targetStartAt
        (targetOverlaps db.intervals target)).map (missingCall call clock target),
        other.rangeStartAt ≤ x ∧ x < other.rangeEndAt) ↔
      (target.targetStartAt ≤ x ∧ x < target.targetEndAt) ∧
        (statusAt db.intervals target.targetSpecId x = none ∨
          statusAt db.intervals target.targetSpecId x = some .unverified) := by
    have hmem : (∃ other ∈ (changeRanges target target.targetStartAt
        (targetOverlaps db.intervals target)).map (missingCall call clock target),
        other.rangeStartAt ≤ x ∧ x < other.rangeEndAt) ↔
      ∃ range ∈ changeRanges target target.targetStartAt (targetOverlaps db.intervals target),
        range.1 ≤ x ∧ x < range.2 := by
      simp only [mem_map, exists_exists_and_eq_and, missingCall]
    rw [hmem, exists_mem_changeRanges_iff (targetOverlaps_sorted _ _)
      (fun row hrow => (mem_targetOverlaps.mp hrow).2.1) le_rfl, statusAt_eq_none_iff,
      statusAt_eq_some_iff hseparate, ← and_assoc, ← and_assoc, ← and_or_left]
    refine and_congr_right fun hx => ?_
    -- an interval of the target that contains the instant overlaps the range
    have hinside : ∀ row, row.span.Contains x → (row ∈ targetOverlaps db.intervals target ↔
        row ∈ db.intervals.ofTarget target.targetSpecId) := by
      intro row hrow
      rw [mem_targetOverlaps]
      exact and_iff_left ⟨hrow.1.trans_lt hx.2, hx.1.trans_lt hrow.2⟩
    refine or_congr (forall_congr' fun row => ?_) (exists_congr fun row => ?_)
    · rw [imp_not_comm, imp_not_comm (a := row ∈ db.intervals.ofTarget _)]
      exact imp_congr_right fun hrow => (hinside row hrow).not
    · rw [and_left_comm, and_left_comm (a := row ∈ db.intervals.ofTarget _)]
      exact and_congr_right fun hrow => and_congr_left' (hinside row hrow)
  obtain ⟨hin, hout⟩ := hstatus x
  by_cases hx : target.targetStartAt ≤ x ∧ x < target.targetEndAt
  · rw [if_pos hx, proven_eq]
    split_ifs with hunproven
    · exact hin (hranges.mpr ⟨hx, hunproven⟩)
    · exact hout fun h => hunproven (hranges.mp h).2
  · rw [if_neg hx]
    exact hout fun h => hx (hranges.mp h).1

/-- The targets of a job, one after another. Two targets of one spec do what one of them does. -/
theorem classifyTargets_ok (hseparate : Separate db.intervals) {start stop : Instant} (htargets : ∀
      target ∈ targets, (db.markets target.targetSpecId).isSome ∧ target.targetStartAt = start ∧
      target.targetEndAt = stop)
    (hok : targets.foldlM (classifyTarget checksum sha256 call clock) db = .ok db') :
    Separate db'.intervals ∧
      (∀ targetSpecId, (∀ target ∈ targets, target.targetSpecId ≠ targetSpecId) →
        db'.intervals.ofTarget targetSpecId = db.intervals.ofTarget targetSpecId) ∧
      ∀ targetSpecId, (∃ target ∈ targets, target.targetSpecId = targetSpecId) → ∀ x,
        statusAt db'.intervals targetSpecId x =
          if start ≤ x ∧ x < stop then proven (statusAt db.intervals targetSpecId x)
          else statusAt db.intervals targetSpecId x := by
  induction targets generalizing db with
  | nil =>
    obtain rfl := pure_eq_ok.mp hok
    exact ⟨hseparate, fun _ _ => rfl, by simp⟩
  | cons target targets ih =>
    rw [forall_mem_cons] at htargets
    obtain ⟨⟨hmarket, rfl, rfl⟩, hrest⟩ := htargets
    obtain ⟨next, hnext, hok⟩ := bind_eq_ok.mp hok
    obtain ⟨hseparate', hsame, hothers, hstatus⟩ := classifyTarget_ok hseparate hmarket hnext
    obtain ⟨hlast, hothers', hstatus'⟩ := ih hseparate' (hsame.markets ▸ hrest) hok
    -- the spec of the first target, which may be that of a later one too
    have hfirst : ∀ x, statusAt db'.intervals target.targetSpecId x =
        if target.targetStartAt ≤ x ∧ x < target.targetEndAt then
          proven (statusAt db.intervals target.targetSpecId x)
        else statusAt db.intervals target.targetSpecId x := by
      intro x
      by_cases hagain : ∃ other ∈ targets, other.targetSpecId = target.targetSpecId
      · rw [hstatus' _ hagain, hstatus]
        split_ifs
        · exact proven_idem _
        · rfl
      · push Not at hagain
        rw [statusAt, coverageAt, spansOf, hothers' _ hagain]
        exact hstatus x
    refine ⟨hlast, fun targetSpecId hnone => ?_, fun targetSpecId hsome x => ?_⟩
    · rw [forall_mem_cons] at hnone
      exact (hothers' _ hnone.2).trans (hothers _ hnone.1.symm)
    · by_cases hspec : target.targetSpecId = targetSpecId
      · subst hspec
        exact hfirst x
      · have hlater := (exists_mem_cons_iff _ _ _).mp hsome |>.resolve_left hspec
        have hsame : statusAt next.intervals targetSpecId x =
            statusAt db.intervals targetSpecId x := by
          rw [statusAt, coverageAt, spansOf, hothers _ (Ne.symm hspec)]
          rfl
        rw [hstatus' _ hlater, hsame]

end

theorem deadLetterJob_id (errorCode : Option String) (reason : String) (detectedAt : Instant)
    (job : BackfillJob) : (deadLetterJob errorCode reason detectedAt job).id = job.id := rfl

/-- The tables once the job has been buried. -/
def buried (db : DeadLetterTables) (call : DeadLetterCall) : DeadLetterTables :=
  { db with
    toBackfillTables := db.updateJobs (fun job => job.id = call.jobId)
      (deadLetterJob call.errorCode call.reason call.detectedAt) (deadLetterJob_id _ _ _) }

/-- The move returns exactly if the classification of the targets does, and then it has done to
the tables of the queue what `moveBackfillJobToDeadLetter` does. -/
theorem moveToDeadLetter_eq_ok {checksum : CanonicalValue → String} {sha256 : String → String}
    {db' : DeadLetterTables} :
    moveToDeadLetter checksum sha256 clock db call = .ok db' ↔
      ∃ coverage, (deadLetterRows (buried db call) call.jobId).foldlM
          (classifyTarget checksum sha256 call clock) db.coverage = .ok coverage ∧
        db' = { db with
          toBackfillTables := moveBackfillJobToDeadLetter db.toBackfillTables call.jobId
            call.errorCode call.reason call.detectedAt
          coverage := coverage } := by
  refine bind_eq_ok.trans (exists_congr fun coverage => and_congr_right fun _ => ?_)
  rw [pure_eq_ok, eq_comm]
  rfl

/-- The targets of a job that its move to the dead letters fails. -/
def FailedTarget (db : DeadLetterTables) (jobId : ℤ) (target : BackfillTarget) : Prop :=
  target ∈ db.targets.rows ∧ target.backfillJobId = jobId ∧
    target.status ≠ .succeeded ∧ target.status ≠ .stopped ∧ target.status ≠ .paused

theorem unsettled_iff (status : TargetStatus) : status.unsettled = true ↔
    status ≠ .succeeded ∧ status ≠ .stopped ∧ status ≠ .paused := by
  simp [TargetStatus.unsettled]

/-- The rows that are classified are those of the failed targets with a spec. -/
theorem mem_deadLetterRows {jobId : ℤ} {job : BackfillJob} (hjob : db.job? jobId = some job)
    {row : DeadLetterTarget} :
    row ∈ deadLetterRows db jobId ↔ ∃ target, FailedTarget db jobId target ∧
      ∃ spec, target.targetSpecId = some spec ∧ row = {
        targetSpecId := db.specIds spec
        lastFetchManifestId := db.lastFetchManifestIds target.key
        targetStartAt := job.targetStartAt
        targetEndAt := job.targetEndAt } := by
  rw [deadLetterRows, hjob]
  simp only [mem_sortedBy, mem_filterMap, mem_targetsOf, deadLetterRow,
    Option.ite_none_right_eq_some, Option.map_eq_some_iff, unsettled_iff, FailedTarget, and_assoc]
  constructor
  · rintro ⟨target, hmem, hid, h₁, h₂, h₃, spec, hspec, hrow⟩
    exact ⟨target, hmem, hid, h₁, h₂, h₃, spec, hspec, hrow.symm⟩
  · rintro ⟨target, hmem, hid, h₁, h₂, h₃, spec, hspec, hrow⟩
    exact ⟨target, hmem, hid, h₁, h₂, h₃, spec, hspec, hrow.symm⟩

/-- Moving a job to the dead letters fails its unsettled targets, and classifies what these have
not proven of its range as missing. The move returns, if the calendar has room around the source
candles of the failed targets.
SOURCE: postgres_repository.py:3535-3627, coverage_transition.py:20-181 -/
theorem moveToDeadLetter_classifies (checksum : CanonicalValue → String)
    (sha256 : String → String) (clock : ℤ → Instant → Instant) (db : DeadLetterTables)
    (hseparate : Separate db.coverage.intervals)
    (hspecs : ∀ target ∈ db.targets.rows, ∀ spec, target.targetSpecId = some spec →
      (db.coverage.markets (db.specIds spec)).isSome)
    (call : DeadLetterCall) (job : BackfillJob) (hjob : db.job? call.jobId = some job) :
    (∀ db', moveToDeadLetter checksum sha256 clock db call = .ok db' →
      -- the job
      (∃ job', db'.job? call.jobId = some job' ∧ job'.status = .deadLetter ∧
        job'.leaseOwner = none ∧ job'.leaseExpiresAt = none) ∧
      -- its targets
      db'.targets.rows = db.targets.rows.map (fun target =>
        if target.backfillJobId = call.jobId ∧ target.status ≠ .succeeded ∧
            target.status ≠ .stopped ∧ target.status ≠ .paused then
          { target with status := .failed }
        else target) ∧
      -- the coverage of the failed ones
      (∀ target, FailedTarget db call.jobId target → ∀ spec, target.targetSpecId = some spec →
        ∀ x, statusAt db'.coverage.intervals (db.specIds spec) x =
          if (job.targetStartAt ≤ x ∧ x < job.targetEndAt) ∧
              (statusAt db.coverage.intervals (db.specIds spec) x = none ∨
                statusAt db.coverage.intervals (db.specIds spec) x = some .unverified) then
            some .missing
          else statusAt db.coverage.intervals (db.specIds spec) x) ∧
      -- the intervals
      (∀ row ∈ db'.coverage.intervals.rows, row.rangeStartAt < row.rangeEndAt) ∧
      Separate db'.coverage.intervals ∧
      ∀ specId, (∀ target, FailedTarget db call.jobId target → ∀ spec,
          target.targetSpecId = some spec → db.specIds spec ≠ specId) →
        db'.coverage.intervals.ofTarget specId = db.coverage.intervals.ofTarget specId) ∧
    ((∀ target, FailedTarget db call.jobId target → ∀ spec, target.targetSpecId = some spec →
        TargetHasRoom db.coverage (db.specIds spec)) →
      ∃ db', moveToDeadLetter checksum sha256 clock db call = .ok db') := by
  have hmapped := updateJobs_mapped db.toBackfillTables call.jobId
    (deadLetterJob call.errorCode call.reason call.detectedAt) fun _ => rfl
  have hmoved := moveBackfillJobToDeadLetter_mapped db.toBackfillTables call.jobId call.errorCode
    call.reason call.detectedAt
  obtain ⟨hmem, hid⟩ := job?_eq_some.mp hjob
  have hburied : onJob call.jobId (deadLetterJob call.errorCode call.reason call.detectedAt) job =
      deadLetterJob call.errorCode call.reason call.detectedAt job := if_pos hid
  have hupdated : (buried db call).job? call.jobId =
      some (deadLetterJob call.errorCode call.reason call.detectedAt job) :=
    job?_eq_some.mpr ⟨hmapped.mem_jobs.mpr ⟨job, hmem, hburied⟩, hid⟩
  have hrows : ∀ row, row ∈ deadLetterRows (buried db call) call.jobId ↔
      ∃ target, FailedTarget db call.jobId target ∧ ∃ spec, target.targetSpecId = some spec ∧
        row = ⟨db.specIds spec, db.lastFetchManifestIds target.key, job.targetStartAt,
          job.targetEndAt⟩ :=
    fun row => mem_deadLetterRows hupdated
  have htargets : ∀ row ∈ deadLetterRows (buried db call) call.jobId,
      (db.coverage.markets row.targetSpecId).isSome ∧ row.targetStartAt = job.targetStartAt ∧
        row.targetEndAt = job.targetEndAt := by
    intro row hrow
    obtain ⟨target, hfailed, spec, hspec, rfl⟩ := (hrows row).mp hrow
    exact ⟨hspecs target hfailed.1 spec hspec, rfl, rfl⟩
  refine ⟨fun db' hok => ?_, fun hroom => ?_⟩
  · obtain ⟨coverage, hcoverage, rfl⟩ := moveToDeadLetter_eq_ok.mp hok
    obtain ⟨hlast, hothers, hstatus⟩ := classifyTargets_ok hseparate htargets hcoverage
    refine ⟨⟨_, job?_eq_some.mpr ⟨hmoved.mem_jobs.mpr ⟨job, hmem, hburied⟩, hid⟩, rfl, rfl, rfl⟩,
      ?_, ?_, fun row _ => row.range_lt, hlast, ?_⟩
    · refine hmoved.targets.trans (map_congr_left fun target _ => ?_)
      simp only [deadLetterTargets, onTargets, Bool.and_eq_true, decide_eq_true_eq, unsettled_iff]
    · intro target htarget spec hspec x
      rw [hstatus _ ⟨_, (hrows _).mpr ⟨target, htarget, spec, hspec, rfl⟩, rfl⟩ x, proven_eq]
      by_cases hx : job.targetStartAt ≤ x ∧ x < job.targetEndAt
      · simp only [hx, and_self, if_true, true_and]
      · simp only [hx, if_false, false_and]
    · intro specId hnone
      refine hothers specId fun row hrow => ?_
      obtain ⟨target, htarget, spec, hspec, rfl⟩ := (hrows row).mp hrow
      exact hnone target htarget spec hspec
  · have hrooms : ∀ row ∈ deadLetterRows (buried db call) call.jobId,
        TargetHasRoom db.coverage row.targetSpecId := by
      intro row hrow
      obtain ⟨target, htarget, spec, hspec, rfl⟩ := (hrows row).mp hrow
      exact hroom target htarget spec hspec
    obtain ⟨coverage, hcoverage, -⟩ := classifyTargets_isOk checksum sha256 hseparate call clock
      hrooms
    exact ⟨_, moveToDeadLetter_eq_ok.mpr ⟨coverage, hcoverage, rfl⟩⟩

/-- A job over a range with a target that is not settled and one that is, both of one market. -/
def twoTargets (start stop : Instant) (coverage : CoverageTables) : DeadLetterTables where
  jobs := {
    rows := [{
      id := 1
      status := .running
      planId := none
      planTargets := [1, 2]
      targetStartAt := start
      targetEndAt := stop
      idempotencyKey := .manual "plan"
      createdAt := 0 }]
    last := 1
    ascending := pairwise_singleton _ _
    le_last := by simp }
  targets := {
    rows := [
      { backfillJobId := 1, instrumentId := 1, status := .running, targetSpecId := some "KRW-BTC" },
      { backfillJobId := 1, instrumentId := 2, status := .succeeded }]
    unique := by decide }
  candles := .empty
  results := []
  coverage := coverage
  specIds := fun _ => 1
  lastFetchManifestIds := fun _ => none

/-- The move of that job before it is claimed. -/
def exhausted : DeadLetterCall := ⟨1, none, "backfill attempt budget exhausted before claim", 30⟩

/-- The hole between the intervals is missing afterwards, and the rest is what it was. -/
theorem moveToDeadLetter_classifies_twoTargets :
    ∃ db', moveToDeadLetter (fun _ => "") id (fun _ _ => 30) (twoTargets 5 25 twoTables)
        exhausted = .ok db' ∧
      ∀ x, statusAt db'.coverage.intervals 1 x =
        if (5 ≤ x ∧ x < 25) ∧ (statusAt twoTables.intervals 1 x = none ∨
            statusAt twoTables.intervals 1 x = some .unverified) then some .missing
        else statusAt twoTables.intervals 1 x := by
  obtain ⟨hclassifies, hreturns⟩ := moveToDeadLetter_classifies (fun _ => "") id
    (fun _ _ => 30) (twoTargets 5 25 twoTables) twoTables_separate (fun _ _ _ _ => rfl) exhausted
    ((twoTargets 5 25 twoTables).jobs.rows.head (by simp [twoTargets])) rfl
  obtain ⟨db', hok⟩ := hreturns fun _ _ _ _ => twoTables_hasRoom 1
  obtain ⟨-, -, hstatus, -⟩ := hclassifies db' hok
  exact ⟨db', hok, hstatus ((twoTargets 5 25 twoTables).targets.rows.head (by simp [twoTargets]))
    ⟨head_mem _, rfl, by decide, by decide, by decide⟩ "KRW-BTC" rfl⟩

/-- In the last month of the calendar the move raises, and the job stays what it was. -/
theorem moveToDeadLetter_of_last_month : Separate (emptyTables (.nearest lastMonth)).intervals ∧
    ((twoTargets lastMonth (lastMonth + dayMicroseconds)
      (emptyTables (.nearest lastMonth))).job? exhausted.jobId).isSome ∧
    ¬ ∃ db', moveToDeadLetter (fun _ => "") id (fun _ _ => 30)
      (twoTargets lastMonth (lastMonth + dayMicroseconds) (emptyTables (.nearest lastMonth)))
      exhausted = .ok db' := by
  have hfails : (moveToDeadLetter (fun _ => "") id (fun _ _ => 30)
      (twoTargets lastMonth (lastMonth + dayMicroseconds) (emptyTables (.nearest lastMonth)))
      exhausted).isOk = false := by
    decide +kernel
  refine ⟨fun _ => List.Pairwise.nil, rfl, ?_⟩
  rintro ⟨db', hok⟩
  rw [hok] at hfails
  cases hfails

end Goodmoneying.Analysis.DeadLetterCoverage
