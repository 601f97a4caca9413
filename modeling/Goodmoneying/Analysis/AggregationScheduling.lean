import Goodmoneying.Analysis.RollupBuckets
import Goodmoneying.Program.AggregationQueue

/-!
# When a full aggregation follows

Scheduling offers an instrument and unit that lag exactly when no job is open, or the first job that
waits has them among its targets (`offers_iff`). A worker that stops with a job open, by a crash or
by a materialization that raises, leaves it so (`failedTarget_blocks`). Where workers stop only
without an open job (`Orderly`), the next aggregation is offered once there are none
(`aggregation_offered`).
-/

namespace Goodmoneying.Analysis.Aggregation

open List Library Program
open Program.Aggregation

variable {units : List String} {jobs jobs' : AggregationJobs} {job : AggregationJob}
  {key : ℤ × String} {target : AggregationTarget}
variable {unit : String}

/-! ## What is offered -/

/-- The lag condition of `schedule_candle_aggregation`, for an active instrument and a unit. -/
def Lags (data : AggregationData) (target : ℤ × String) : Prop :=
  target.1 ∈ data.activeTargets ∧ target.2 ∈ materializedAggregationUnits ∧
    ∃ source, sourceLatest data target.1 = some source ∧
      rollupLags (rollupLatest data target.1 target.2) target.2 source = .ok true

/-- Scheduling and then claiming gives a job with this target. -/
def Offers (db : AggregationDatabase) (target : ℤ × String) : Prop :=
  ∃ jobs job, scheduleCandleAggregation db.data db.jobs = .ok jobs ∧
    (claimNextCandleAggregationJob jobs).1 = some job ∧
    target ∈ job.targets.map AggregationTarget.key

theorem rollupLags_isOk (h : unit ∈ materializedAggregationUnits) (latest : Option UtcTime)
    (source : UtcTime) : ∃ lags, rollupLags latest unit source = .ok lags := by
  have hgrids : ∀ unit ∈ materializedAggregationUnits, ∃ grid, (unit, grid) ∈ rollupGrids := by
    simp [materializedAggregationUnits, aggregationUnits, rollupGrids]
  obtain ⟨grid, hgrid⟩ := hgrids unit h
  cases latest with
  | none => exact ⟨true, rfl⟩
  | some rollup =>
    unfold rollupLags
    rw [rollupBucketStart_eq hgrid source]
    exact ⟨_, rfl⟩

/-- Scheduling finds exactly the units of an instrument whose rollups lag. -/
theorem laggingUnits_spec (data : AggregationData) (instrumentId : ℤ) (source : UtcTime)
    (hunits : ∀ unit ∈ units, unit ∈ materializedAggregationUnits) :
    ∃ targets, laggingUnits data instrumentId source units = .ok targets ∧
      ∀ target, target ∈ targets ↔ target.1 = instrumentId ∧ target.2 ∈ units ∧
        rollupLags (rollupLatest data instrumentId target.2) target.2 source = .ok true := by
  induction units with
  | nil => exact ⟨[], rfl, by simp⟩
  | cons unit units ih =>
    obtain ⟨rest, hrest, hmem⟩ := ih fun other hother => hunits other (mem_cons_of_mem _ hother)
    obtain ⟨lags, hlags⟩ :=
      rollupLags_isOk (hunits unit mem_cons_self) (rollupLatest data instrumentId unit) source
    refine ⟨if lags then (instrumentId, unit) :: rest else rest, ?_, ?_⟩
    · rw [laggingUnits, hlags, hrest]
      rfl
    · rintro ⟨instrument, other⟩
      cases lags with
      | true =>
        simp only [↓reduceIte, mem_cons, hmem, Prod.mk.injEq]
        constructor
        · rintro (⟨rfl, rfl⟩ | ⟨rfl, hother, hlag⟩)
          · exact ⟨rfl, Or.inl rfl, hlags⟩
          · exact ⟨rfl, Or.inr hother, hlag⟩
        · rintro ⟨rfl, rfl | hother, hlag⟩
          · exact Or.inl ⟨rfl, rfl⟩
          · exact Or.inr ⟨rfl, hother, hlag⟩
      | false =>
        simp only [Bool.false_eq_true, ↓reduceIte, hmem, mem_cons]
        constructor
        · rintro ⟨rfl, hother, hlag⟩
          exact ⟨rfl, Or.inr hother, hlag⟩
        · rintro ⟨rfl, rfl | hother, hlag⟩
          · rw [hlags] at hlag
            cases hlag
          · exact ⟨rfl, hother, hlag⟩

/-- Scheduling finds the targets that lag. -/
theorem laggingTargets_spec (data : AggregationData) (instruments : List ℤ) :
    ∃ targets, laggingTargets data instruments = .ok targets ∧
      ∀ target, target ∈ targets ↔ target.1 ∈ instruments ∧
        target.2 ∈ materializedAggregationUnits ∧
        ∃ source, sourceLatest data target.1 = some source ∧
          rollupLags (rollupLatest data target.1 target.2) target.2 source = .ok true := by
  induction instruments with
  | nil => exact ⟨[], rfl, by simp⟩
  | cons instrumentId instruments ih =>
    obtain ⟨rest, hrest, hmem⟩ := ih
    unfold laggingTargets
    cases hsource : sourceLatest data instrumentId with
    | none =>
      refine ⟨rest, hrest, fun target => ?_⟩
      rw [hmem, mem_cons]
      constructor
      · rintro ⟨hinstrument, hunit, hlag⟩
        exact ⟨Or.inr hinstrument, hunit, hlag⟩
      · rintro ⟨heq | hinstrument, hunit, source, hsome, hlag⟩
        · rw [heq, hsource] at hsome
          cases hsome
        · exact ⟨hinstrument, hunit, source, hsome, hlag⟩
    | some source =>
      obtain ⟨units, hunits, hmemUnits⟩ :=
        laggingUnits_spec data instrumentId source fun unit hunit => hunit
      refine ⟨units ++ rest, ?_, fun target => ?_⟩
      · simp only [hunits, hrest]
        rfl
      · rw [mem_append, hmemUnits, hmem, mem_cons]
        constructor
        · rintro (⟨heq, hunit, hlag⟩ | ⟨hinstrument, hunit, hlag⟩)
          · exact ⟨Or.inl heq, hunit, source, heq ▸ hsource, heq ▸ hlag⟩
          · exact ⟨Or.inr hinstrument, hunit, hlag⟩
        · rintro ⟨heq | hinstrument, hunit, other, hsome, hlag⟩
          · rw [heq, hsource] at hsome
            obtain rfl := Option.some.inj hsome
            exact Or.inl ⟨heq, hunit, heq ▸ hlag⟩
          · exact Or.inr ⟨hinstrument, hunit, other, hsome, hlag⟩

/-- The first job that waits. -/
def firstPending (jobs : AggregationJobs) : Option AggregationJob :=
  jobs.rows.find? fun job => job.status = .pending

theorem claimNext_eq_some : (claimNextCandleAggregationJob jobs).1 = some job ↔
      ∃ row, firstPending jobs = some row ∧ row.start = job := by
  unfold claimNextCandleAggregationJob firstPending
  split
  next hnone => simp [hnone]
  next row hsome => simp [hsome]

theorem insertAggregationJob_rows (jobs : AggregationJobs) (targets : List (ℤ × String)) :
    (insertAggregationJob jobs targets).rows =
      jobs.rows ++ [newAggregationJob targets (jobs.last + 1)] := rfl

/-- The job that is inserted is the first that waits, where no other is open. -/
theorem firstPending_insert (hclosed : ∀ job ∈ jobs.rows, job.isOpen = false)
    (targets : List (ℤ × String)) : firstPending (insertAggregationJob jobs targets) =
      some (newAggregationJob targets (jobs.last + 1)) := by
  unfold firstPending
  rw [insertAggregationJob_rows, List.find?_append, List.find?_eq_none.mpr]
  · rfl
  · intro job hjob hpending
    have hopen := hclosed job hjob
    simp only [AggregationJob.isOpen, Bool.or_eq_false_iff] at hopen
    rw [hopen.1] at hpending
    cases hpending

theorem keys_newAggregationJob (targets : List (ℤ × String)) (id : ℤ) :
    (newAggregationJob targets id).targets.map AggregationTarget.key = targets := by
  simp [newAggregationJob, AggregationTarget.key, Function.comp_def]

/-- A target that lags is offered exactly where no job is open, or the first that waits has it. -/
theorem offers_iff {db : AggregationDatabase} {target : ℤ × String} (h : Lags db.data target) :
    Offers db target ↔ (∀ job ∈ db.jobs.rows, job.isOpen = false) ∨
      ∃ job, firstPending db.jobs = some job ∧ target ∈ job.targets.map AggregationTarget.key := by
  unfold Offers scheduleCandleAggregation
  by_cases hopen : db.jobs.rows.any AggregationJob.isOpen = true
  · have hnot : ¬ ∀ job ∈ db.jobs.rows, job.isOpen = false := by
      obtain ⟨job, hjob, hopen⟩ := any_eq_true.mp hopen
      intro hclosed
      rw [hclosed job hjob] at hopen
      cases hopen
    rw [if_pos hopen, or_iff_right hnot]
    constructor
    · rintro ⟨_, job, ⟨⟩, hclaim, htarget⟩
      obtain ⟨row, hrow, rfl⟩ := claimNext_eq_some.mp hclaim
      exact ⟨row, hrow, htarget⟩
    · rintro ⟨row, hrow, htarget⟩
      exact ⟨_, row.start, rfl, claimNext_eq_some.mpr ⟨row, hrow, rfl⟩, htarget⟩
  · have hclosed : ∀ job ∈ db.jobs.rows, job.isOpen = false := by
      simpa [any_eq_true] using hopen
    rw [if_neg hopen, eq_true hclosed, true_or, iff_true]
    obtain ⟨targets, htargets, hmem⟩ := laggingTargets_spec db.data db.data.activeTargets
    have htarget := (hmem target).mpr h
    have hne : targets ≠ [] := ne_nil_of_mem htarget
    refine ⟨insertAggregationJob db.jobs targets, _, ?_,
      claimNext_eq_some.mpr ⟨_, firstPending_insert hclosed targets, rfl⟩, ?_⟩
    · rw [htargets]
      exact congrArg Except.ok (if_neg hne)
    · have hkeys := keys_newAggregationJob targets (db.jobs.last + 1)
      exact hkeys.symm ▸ htarget

/-! ## Jobs and their workers -/

/-- The job that a worker has. -/
def heldJob : WorkerPhase → Option ℤ
  | .holding jobId _ => some jobId
  | .materializing jobId _ _ => some jobId
  | .marking jobId _ _ _ => some jobId
  | _ => none

/-- The targets that a worker has not finished. -/
def unfinished : WorkerPhase → List (ℤ × String)
  | .holding _ todo => todo.map AggregationTarget.key
  | .materializing _ target todo => target.key :: todo.map AggregationTarget.key
  | .marking _ target _ todo => target.key :: todo.map AggregationTarget.key
  | _ => []

/-- Whether a worker will claim next. -/
def isScheduled (phase : WorkerPhase) : Bool := phase = .scheduled

def pendingCount (jobs : AggregationJobs) : ℕ :=
  jobs.rows.countP fun job => job.status = .pending

/-- Every open job has a worker that goes on with it: one that claims next, or one that holds it
and has all targets left that have not finished. -/
structure Attended (state : AggregationState) : Prop where
  pending : pendingCount state.db.jobs ≤ state.workers.countP isScheduled
  held : ∀ job ∈ state.db.jobs.rows, job.status = .running →
    ∃ phase ∈ state.workers, heldJob phase = some job.id
  distinct : (state.workers.filterMap heldJob).Nodup
  known : ∀ jobId ∈ state.workers.filterMap heldJob, jobId ≤ state.db.jobs.last
  claimed : ∀ job ∈ state.db.jobs.rows, job.status = .pending →
    job.id ∉ state.workers.filterMap heldJob
  left : ∀ phase ∈ state.workers, ∀ job ∈ state.db.jobs.rows, heldJob phase = some job.id →
    ∀ target ∈ job.targets, target.finished = false → target.key ∈ unfinished phase
  unclosed : ∀ job ∈ state.db.jobs.rows, job.isOpen = true →
    ∃ target ∈ job.targets, target.finished = false

/-- Without workers no job of an attended state is open. -/
theorem Attended.closed {state : AggregationState} (h : Attended state)
    (hworkers : state.workers = []) : ∀ job ∈ state.db.jobs.rows, job.isOpen = false := by
  intro job hjob
  have hpending := h.pending
  have hheld := h.held job hjob
  rw [hworkers] at hpending hheld
  rw [countP_nil, Nat.le_zero, pendingCount, countP_eq_zero] at hpending
  unfold AggregationJob.isOpen
  rw [Bool.or_eq_false_iff]
  refine ⟨by simpa using hpending job hjob, ?_⟩
  rw [decide_eq_false_iff_not]
  intro hrunning
  obtain ⟨phase, hphase, -⟩ := hheld hrunning
  exact absurd hphase not_mem_nil

section Steps

variable {db db' : AggregationDatabase} {phase : WorkerPhase} {phase' : Option WorkerPhase}
  {rest workers : List WorkerPhase}
variable {jobId rowsWritten : ℤ} {status : AggregationStatus}

theorem Attended.perm (h : Attended ⟨db, workers⟩) {workers' : List WorkerPhase}
    (hperm : workers.Perm workers') : Attended ⟨db, workers'⟩ where
  pending := by
    have hpending := h.pending
    rwa [List.Perm.countP_eq isScheduled hperm] at hpending
  held job hjob hrunning := by
    obtain ⟨phase, hphase, hheld⟩ := h.held job hjob hrunning
    exact ⟨phase, hperm.mem_iff.mp hphase, hheld⟩
  distinct := (hperm.filterMap heldJob).nodup_iff.mp h.distinct
  known jobId hjobId := h.known jobId ((hperm.filterMap heldJob).mem_iff.mpr hjobId)
  claimed job hjob hpending hheld :=
    h.claimed job hjob hpending ((hperm.filterMap heldJob).mem_iff.mpr hheld)
  left phase hphase := h.left phase (hperm.mem_iff.mpr hphase)
  unclosed := h.unclosed

/-- The jobs of the other workers are other ones. -/
theorem Attended.not_held_rest (h : Attended ⟨db, phase :: rest⟩)
    (hphase : heldJob phase = some jobId) : jobId ∉ rest.filterMap heldJob := by
  have hdistinct := h.distinct
  rw [filterMap_cons_some hphase, nodup_cons] at hdistinct
  exact hdistinct.1

/-- A worker that gives its job to no one does not have a running one; what it goes on with is
the same job, with no fewer targets left. -/
structure GoesOn (db : AggregationDatabase) (phase : WorkerPhase) (rest : List WorkerPhase)
    (phase' : Option WorkerPhase) : Prop where
  pending : pendingCount db.jobs ≤
    phase'.toList.countP isScheduled + rest.countP isScheduled
  held : ∀ job ∈ db.jobs.rows, job.status = .running → heldJob phase = some job.id →
    ∃ next ∈ phase', heldJob next = some job.id
  same : ∀ next ∈ phase', heldJob next = none ∨
    heldJob next = heldJob phase ∧ unfinished phase ⊆ unfinished next

/-- A worker goes on with the job that it holds, or with none. -/
theorem heldJobs_sublist (rest : List WorkerPhase)
    (h : ∀ next ∈ phase', heldJob next = none ∨ heldJob next = heldJob phase) :
    ((phase'.toList ++ rest).filterMap heldJob).Sublist ((phase :: rest).filterMap heldJob) := by
  cases phase' with
  | none => exact (sublist_cons_self phase rest).filterMap heldJob
  | some next =>
    rcases h next rfl with hnone | heq
    · have htail := (sublist_cons_self phase rest).filterMap heldJob
      rwa [← filterMap_cons_none (l := rest) hnone] at htail
    · have hsame : ((some next).toList ++ rest).filterMap heldJob =
          (phase :: rest).filterMap heldJob := by simp [filterMap_cons, heq]
      rw [hsame]

/-- A transaction that leaves the jobs as they are. -/
theorem Attended.goesOn (h : Attended ⟨db, phase :: rest⟩) (hjobs : db'.jobs = db.jobs)
    (hgoesOn : GoesOn db phase rest phase') : Attended ⟨db', phase'.toList ++ rest⟩ := by
  obtain ⟨data', jobs'⟩ := db'
  obtain rfl : jobs' = db.jobs := hjobs
  have hsub := heldJobs_sublist rest fun next hnext => (hgoesOn.same next hnext).imp_right And.left
  refine ⟨?_, fun job hjob hrunning => ?_, h.distinct.sublist hsub,
    fun jobId hjobId => h.known jobId (hsub.subset hjobId),
    fun job hjob hpending hheld => h.claimed job hjob hpending (hsub.subset hheld),
    fun other hother job hjob hheld target htarget hfinished => ?_, h.unclosed⟩
  · rw [countP_append]
    exact hgoesOn.pending
  · obtain ⟨other, hother, hheld⟩ := h.held job hjob hrunning
    rcases mem_cons.mp hother with rfl | hrest
    · obtain ⟨next, hnext, hheld'⟩ := hgoesOn.held job hjob hrunning hheld
      exact ⟨next, mem_append_left _ (Option.mem_toList.mpr hnext), hheld'⟩
    · exact ⟨other, mem_append_right _ hrest, hheld⟩
  · rcases mem_append.mp hother with hnext | hrest
    · rcases hgoesOn.same other (Option.mem_toList.mp hnext) with hnone | ⟨heq, hsubset⟩
      · rw [hnone] at hheld
        cases hheld
      · exact hsubset (h.left phase mem_cons_self job hjob (heq ▸ hheld) target htarget
          hfinished)
    · exact h.left other (mem_cons_of_mem _ hrest) job hjob hheld target htarget hfinished

theorem mark_status (key : ℤ × String) (status : AggregationStatus) (rowsWritten : ℤ)
    (job : AggregationJob) : (job.mark key status rowsWritten).status = job.status ∨
      (job.mark key status rowsWritten).isOpen = false := by
  unfold AggregationJob.mark AggregationJob.isOpen
  dsimp only
  split_ifs <;> simp

/-- A marked job is open only with a target that has not finished. -/
theorem mark_unclosed (key : ℤ × String) (status : AggregationStatus) (rowsWritten : ℤ)
    (hopen : (job.mark key status rowsWritten).isOpen = true) :
    ∃ target ∈ (job.mark key status rowsWritten).targets, target.finished = false := by
  by_contra hnone
  have hall : ((job.targets.map (AggregationTarget.mark key status rowsWritten)).all
      AggregationTarget.finished) = true := by
    rw [all_eq_true]
    intro target htarget
    by_contra hfinished
    exact hnone ⟨target, htarget, Bool.not_eq_true _ ▸ hfinished⟩
  have hstatus : (job.mark key status rowsWritten).status =
      if (job.targets.map (AggregationTarget.mark key status rowsWritten)).any
        fun target => target.status = .failed then .failed else .succeeded := if_pos hall
  simp only [AggregationJob.isOpen, hstatus] at hopen
  split_ifs at hopen <;> simp at hopen

/-- A target of a marked job. -/
theorem mem_mark_targets (h : target ∈ (job.mark key status rowsWritten).targets) :
    (target.key = key ∧ target.status = status) ∨ (target.key ≠ key ∧ target ∈ job.targets) := by
  obtain ⟨old, hold, rfl⟩ := mem_map.mp h
  unfold AggregationTarget.mark
  split_ifs with hkey
  · exact Or.inl ⟨hkey, rfl⟩
  · exact Or.inr ⟨hkey, hold⟩

/-- The jobs after a mark. -/
theorem mem_markCandleAggregationTarget
    (h : job ∈ (markCandleAggregationTarget jobs jobId key status rowsWritten).rows) :
    ∃ old ∈ jobs.rows, job.id = old.id ∧
      ((old.id = jobId ∧ job = old.mark key status rowsWritten) ∨
        (old.id ≠ jobId ∧ job = old)) := by
  unfold markCandleAggregationTarget at h
  rw [IdentityTable.update_rows] at h
  obtain ⟨old, hold, rfl⟩ := mem_map.mp h
  refine ⟨old, hold, ?_⟩
  by_cases hid : old.id = jobId
  · simp only [hid, decide_true, ↓reduceIte, true_and, AggregationJob.mark_id, not_true_eq_false,
      ne_eq, false_and, or_false]
  · simp [hid]

/-- A status that a marked job did not have before is not open. -/
theorem status_of_mem_mark
    (h : job ∈ (markCandleAggregationTarget jobs jobId key status rowsWritten).rows)
    (hopen : job.isOpen = true) : ∃ old ∈ jobs.rows, job.id = old.id ∧ job.status = old.status := by
  obtain ⟨old, hold, hid, ⟨-, rfl⟩ | ⟨-, rfl⟩⟩ := mem_markCandleAggregationTarget h
  · rcases mark_status key status rowsWritten old with hsame | hclosed
    · exact ⟨old, hold, hid, hsame⟩
    · rw [hclosed] at hopen
      cases hopen
  · exact ⟨job, hold, rfl, rfl⟩

theorem pendingCount_mark (jobs : AggregationJobs) (jobId : ℤ) (key : ℤ × String)
    (status : AggregationStatus) (rowsWritten : ℤ) :
    pendingCount (markCandleAggregationTarget jobs jobId key status rowsWritten) ≤
      pendingCount jobs := by
  unfold pendingCount markCandleAggregationTarget
  rw [IdentityTable.update_rows, countP_map]
  refine countP_mono_left fun job _ hpending => ?_
  dsimp only [Function.comp_apply] at hpending
  split_ifs at hpending
  · rcases mark_status key status rowsWritten job with hsame | hclosed
    · rwa [← hsame]
    · unfold AggregationJob.isOpen at hclosed
      rw [Bool.or_eq_false_iff] at hclosed
      rw [hclosed.1] at hpending
      cases hpending
  · exact hpending

/-- A worker marks a target of its job and goes on with the rest, or stops with all finished. -/
theorem Attended.mark (h : Attended ⟨db, phase :: rest⟩) (rowsWritten : ℤ)
    (hphase : heldJob phase = some jobId) (hscheduled : isScheduled phase = false)
    (hkeyLeft : key ∈ unfinished phase) (hnext : ∀ next ∈ phase', heldJob next = some jobId ∧ ∀
      other ∈ unfinished phase, other ∈ unfinished next ∨ other = key ∧ (status = .succeeded ∨
      status = .failed)) (hlast : phase' = none → (status = .succeeded ∨ status = .failed) ∧ ∀ job ∈
      db.jobs.rows, job.id = jobId → ∀ target ∈ job.targets, target.key ≠ key → target.finished =
      true) :
    Attended ⟨{ db with
      jobs := markCandleAggregationTarget db.jobs jobId key status rowsWritten },
      phase'.toList ++ rest⟩ := by
  have hfinished : status = .succeeded ∨ status = .failed →
      ∀ target : AggregationTarget, target.status = status → target.finished = true := by
    rintro (rfl | rfl) target htarget <;> simp [AggregationTarget.finished, htarget]
  have hsub := heldJobs_sublist rest fun next hmem =>
    Or.inr ((hnext next hmem).1.trans hphase.symm)
  have hunclosed : ∀ job ∈ (markCandleAggregationTarget db.jobs jobId key status rowsWritten).rows,
      job.isOpen = true → ∃ target ∈ job.targets, target.finished = false := by
    intro job hjob hopen
    obtain ⟨old, hold, -, ⟨-, rfl⟩ | ⟨-, rfl⟩⟩ := mem_markCandleAggregationTarget hjob
    · exact mark_unclosed key status rowsWritten hopen
    · exact h.unclosed job hold hopen
  have hpending := h.pending
  rw [countP_cons_of_neg (by simp [hscheduled])] at hpending
  refine ⟨?_, fun job hjob hrunning => ?_, h.distinct.sublist hsub,
    fun id hid => h.known id (hsub.subset hid), fun job hjob hstatus hheld => ?_,
    fun other hother job hjob hheld target htarget hunfinished => ?_, hunclosed⟩
  · rw [countP_append]
    exact (pendingCount_mark db.jobs jobId key status rowsWritten).trans
      (hpending.trans (Nat.le_add_left _ _))
  · have hopen : job.isOpen = true := by simp [AggregationJob.isOpen, hrunning]
    obtain ⟨old, hold, hid, hstatus⟩ := status_of_mem_mark hjob hopen
    obtain ⟨other, hother, hheld⟩ := h.held old hold (hstatus.symm.trans hrunning)
    rcases mem_cons.mp hother with rfl | hrest
    · cases hphase' : phase' with
      | some next =>
        refine ⟨next, mem_append_left _ (by simp), ?_⟩
        rw [(hnext next hphase').1, hid, ← hheld, hphase]
      | none =>
        -- the last target has finished, so the job has ended
        exfalso
        obtain ⟨hstatus', hothers⟩ := hlast hphase'
        have hjobId : job.id = jobId := hid.trans (Option.some.inj (hheld.symm.trans hphase))
        obtain ⟨target, htarget, hunfinished⟩ := hunclosed job hjob hopen
        obtain ⟨old', hold', hid', ⟨-, rfl⟩ | ⟨hne, -⟩⟩ := mem_markCandleAggregationTarget hjob
        · rcases mem_mark_targets htarget with ⟨-, hnew⟩ | ⟨hkey, htarget⟩
          · rw [hfinished hstatus' target hnew] at hunfinished
            cases hunfinished
          · rw [hothers old' hold' (hid'.symm.trans hjobId) target htarget hkey] at hunfinished
            cases hunfinished
        · exact hne (hid'.symm.trans hjobId)
    · exact ⟨other, mem_append_right _ hrest, hid ▸ hheld⟩
  · obtain ⟨old, hold, hid, hsame⟩ :=
      status_of_mem_mark hjob (by simp [AggregationJob.isOpen, hstatus])
    exact h.claimed old hold (hsame.symm.trans hstatus) (hid ▸ hsub.subset hheld)
  · obtain ⟨old, hold, hid, hcases⟩ := mem_markCandleAggregationTarget hjob
    rcases mem_append.mp hother with hphase' | hrest
    · obtain ⟨hheld', hkept⟩ := hnext other (Option.mem_toList.mp hphase')
      have hjobId : old.id = jobId := hid.symm.trans (Option.some.inj (hheld.symm.trans hheld'))
      have hleft := h.left phase mem_cons_self old hold (hphase.trans (hjobId ▸ rfl))
      obtain ⟨-, rfl⟩ | ⟨hne, -⟩ := hcases
      · rcases mem_mark_targets htarget with ⟨hkey, hnew⟩ | ⟨hkey, htarget⟩
        · rcases hkept key hkeyLeft with hin | ⟨-, hstatus⟩
          · exact hkey ▸ hin
          · rw [hfinished hstatus target hnew] at hunfinished
            cases hunfinished
        · rcases hkept _ (hleft target htarget hunfinished) with hin | ⟨heq, -⟩
          · exact hin
          · exact absurd heq hkey
      · exact absurd hjobId hne
    · obtain ⟨hjobId, rfl⟩ | ⟨-, rfl⟩ := hcases
      · -- another worker does not have this job
        exfalso
        refine h.not_held_rest hphase (mem_filterMap.mpr ⟨other, hrest, ?_⟩)
        rw [hheld, hid, hjobId]
      · exact h.left other (mem_cons_of_mem _ hrest) job hold hheld target htarget hunfinished

theorem pendingCount_insert (jobs : AggregationJobs) (targets : List (ℤ × String)) :
    pendingCount (insertAggregationJob jobs targets) = pendingCount jobs + 1 := by
  unfold pendingCount
  rw [insertAggregationJob_rows, countP_append]
  rfl

/-- A worker inserts a job, and claims next. -/
theorem Attended.insert {target : ℤ × String} {targets : List (ℤ × String)}
    (h : Attended ⟨db, .scheduling target targets :: rest⟩) :
    Attended ⟨{ db with jobs := insertAggregationJob db.jobs (target :: targets) },
      .scheduled :: rest⟩ := by
  have hlast : ∀ jobId ∈ rest.filterMap heldJob, jobId ≤ db.jobs.last := h.known
  have hnew : ∀ job ∈ (insertAggregationJob db.jobs (target :: targets)).rows,
      job ∈ db.jobs.rows ∨ job = newAggregationJob (target :: targets) (db.jobs.last + 1) := by
    intro job hjob
    rw [insertAggregationJob_rows] at hjob
    exact (mem_append.mp hjob).imp_right mem_singleton.mp
  have hfresh : ∀ other ∈ WorkerPhase.scheduled :: rest,
      heldJob other ≠ some (db.jobs.last + 1) := by
    intro other hother hheld
    rcases mem_cons.mp hother with rfl | hrest
    · cases hheld
    · have hle := hlast _ (mem_filterMap.mpr ⟨other, hrest, hheld⟩)
      omega
  refine ⟨?_, fun job hjob hrunning => ?_, h.distinct, fun jobId hjobId => ?_,
    fun job hjob hpending hheld => ?_, fun other hother job hjob hheld => ?_,
    fun job hjob hopen => ?_⟩
  · have hpending := h.pending
    rw [countP_cons_of_neg (by simp [isScheduled])] at hpending
    rw [pendingCount_insert, countP_cons_of_pos (by simp [isScheduled])]
    exact Nat.succ_le_succ hpending
  · rcases hnew job hjob with hold | rfl
    · obtain ⟨other, hother, hheld⟩ := h.held job hold hrunning
      rcases mem_cons.mp hother with rfl | hrest
      · cases hheld
      · exact ⟨other, mem_cons_of_mem _ hrest, hheld⟩
    · cases hrunning
  · exact (hlast jobId hjobId).trans (Int.le_add_one (le_refl _))
  · rcases hnew job hjob with hold | rfl
    · exact h.claimed job hold hpending hheld
    · obtain ⟨other, hother, hheld⟩ := mem_filterMap.mp hheld
      exact hfresh other hother hheld
  · rcases hnew job hjob with hold | rfl
    · rcases mem_cons.mp hother with rfl | hrest
      · cases hheld
      · exact h.left other (mem_cons_of_mem _ hrest) job hold hheld
    · exact absurd hheld (hfresh other hother)
  · rcases hnew job hjob with hold | rfl
    · exact h.unclosed job hold hopen
    · exact ⟨_, mem_cons_self, rfl⟩

theorem mem_candleAggregationJobTargets :
    target ∈ candleAggregationJobTargets job ↔ target ∈ job.targets :=
  (sortedBy_perm _ job.targets).mem_iff

/-- The jobs after a claim. -/
theorem claimNext_cases (h : claimNextCandleAggregationJob jobs = (some job, jobs')) :
    ∃ row ∈ jobs.rows, row.status = .pending ∧ job = row.start ∧
      jobs'.last = jobs.last ∧
      jobs'.rows = jobs.rows.map fun other => if other.id = row.id then other.start else other := by
  unfold claimNextCandleAggregationJob at h
  split at h
  next => cases h
  next row hfind =>
    obtain ⟨hjob, rfl⟩ := Prod.mk.inj h
    have hpending := List.find?_some hfind
    refine ⟨row, mem_of_find?_eq_some hfind, of_decide_eq_true hpending,
      (Option.some.inj hjob).symm, rfl, ?_⟩
    rw [IdentityTable.update_rows]
    simp only [decide_eq_true_eq]

/-- A claim takes one pending job away. -/
theorem pendingCount_claim {rows : List AggregationJob} {row : AggregationJob} (hrow : row ∈ rows)
    (hpending : row.status = .pending) :
    ((rows.map fun other => if other.id = row.id then other.start else other).countP
      fun job => job.status = .pending) + 1 ≤ rows.countP fun job => job.status = .pending := by
  have hmono : ∀ part : List AggregationJob,
      ((part.map fun other => if other.id = row.id then other.start else other).countP
        fun job => job.status = .pending) ≤ part.countP fun job => job.status = .pending := by
    intro part
    rw [countP_map]
    refine countP_mono_left fun job _ hcounted => ?_
    dsimp only [Function.comp_apply] at hcounted
    split_ifs at hcounted
    · cases hcounted
    · exact hcounted
  obtain ⟨before, after, rfl⟩ := append_of_mem hrow
  rw [map_append, map_cons, if_pos rfl, countP_append, countP_append,
    countP_cons_of_neg (by simp [AggregationJob.start]),
    countP_cons_of_pos (by simp [hpending])]
  have hbefore := hmono before
  have hafter := hmono after
  omega

/-- A worker claims a job, with all its targets to do. -/
theorem Attended.claim (h : Attended ⟨db, .scheduled :: rest⟩)
    (hclaim : claimNextCandleAggregationJob db.jobs = (some job, jobs')) :
    Attended ⟨{ db with jobs := jobs' },
      .holding job.id (candleAggregationJobTargets job) :: rest⟩ := by
  obtain ⟨row, hrow, hpending, rfl, hlast, hrows⟩ := claimNext_cases hclaim
  have hfree : row.id ∉ rest.filterMap heldJob := h.claimed row hrow hpending
  -- a job after the claim is the claimed one, or is as it was
  have hcases : ∀ other ∈ jobs'.rows, other = row.start ∨
      (other.id ≠ row.id ∧ other ∈ db.jobs.rows) := by
    intro other hother
    rw [hrows] at hother
    obtain ⟨old, hold, rfl⟩ := mem_map.mp hother
    split_ifs with hid
    · rw [IdentityTable.eq_of_key hold hrow hid]
      exact Or.inl rfl
    · exact Or.inr ⟨hid, hold⟩
  refine ⟨?_, fun other hother hrunning => ?_, ?_, fun jobId hjobId => ?_,
    fun other hother hstatus hheld => ?_, fun phase hphase other hother hheld => ?_,
    fun other hother hopen => ?_⟩
  · have hcount := h.pending
    rw [countP_cons_of_pos (by simp [isScheduled])] at hcount
    rw [countP_cons_of_neg (by simp [isScheduled])]
    unfold pendingCount at hcount ⊢
    rw [hrows]
    exact Nat.le_of_succ_le_succ ((pendingCount_claim hrow hpending).trans hcount)
  · rcases hcases other hother with rfl | ⟨-, hold⟩
    · exact ⟨_, mem_cons_self, rfl⟩
    · obtain ⟨phase, hphase, hheld⟩ := h.held other hold hrunning
      rcases mem_cons.mp hphase with rfl | hrest
      · cases hheld
      · exact ⟨phase, mem_cons_of_mem _ hrest, hheld⟩
  · exact nodup_cons.mpr ⟨hfree, h.distinct⟩
  · rcases mem_cons.mp (show jobId ∈ row.id :: rest.filterMap heldJob from hjobId) with
      rfl | hrest
    · exact hlast ▸ db.jobs.le_last row hrow
    · exact hlast ▸ h.known jobId hrest
  · rcases hcases other hother with rfl | ⟨hne, hold⟩
    · cases hstatus
    · rcases mem_cons.mp (show other.id ∈ row.id :: rest.filterMap heldJob from hheld) with
        heq | hrest
      · exact hne heq
      · exact h.claimed other hold hstatus hrest
  · intro target htarget hunfinished
    rcases hcases other hother with rfl | ⟨hne, hold⟩
    · rcases mem_cons.mp hphase with rfl | hrest
      · exact mem_map_of_mem (mem_candleAggregationJobTargets.mpr htarget)
      · exact absurd (mem_filterMap.mpr ⟨phase, hrest, hheld⟩) hfree
    · rcases mem_cons.mp hphase with rfl | hrest
      · exact absurd (Option.some.inj hheld).symm hne
      · exact h.left phase (mem_cons_of_mem _ hrest) other hold hheld target htarget
          hunfinished
  · rcases hcases other hother with rfl | ⟨-, hold⟩
    · exact h.unclosed row hrow (by simp [AggregationJob.isOpen, hpending])
    · exact h.unclosed other hold hopen

end Steps

/-! ## Runs -/

/-- A worker that stops here leaves no job without a worker. -/
def MayStop (state : AggregationState) (phase : WorkerPhase) : Prop :=
  match phase with
  | .scheduled => pendingCount state.db.jobs < state.workers.countP isScheduled
  | phase => ∀ job ∈ state.db.jobs.rows, heldJob phase = some job.id → job.status ≠ .running

/-- A crash that leaves no job without a worker, and a materialization that raises on the last
target of its job. -/
def Orderly (state : AggregationState) : AggregationEvent → Prop
  | .crashed phase => MayStop state phase
  | .moved (.marking jobId target none _) => ∀ job ∈ state.db.jobs.rows, job.id = jobId →
      ∀ other ∈ job.targets, other.key ≠ target.key → other.finished = true
  | _ => True

section Runs

variable {db db' : AggregationDatabase} {phase : WorkerPhase} {phase' : Option WorkerPhase}
  {rest : List WorkerPhase} {state state' : AggregationState}

/-- Where another worker goes on, the pending jobs still have workers. -/
theorem Attended.pending_le (h : Attended ⟨db, phase :: rest⟩)
    (hscheduled : isScheduled phase = false) (phase' : Option WorkerPhase) :
    pendingCount db.jobs ≤ phase'.toList.countP isScheduled + rest.countP isScheduled := by
  have hpending := h.pending
  rw [countP_cons_of_neg (by simp [hscheduled])] at hpending
  exact hpending.trans (Nat.le_add_left _ _)

/-- A phase without a job that does not claim next can go on to any other such. -/
theorem Attended.free (h : Attended ⟨db, phase :: rest⟩) (hjobs : db'.jobs = db.jobs)
    (hheld : heldJob phase = none) (hscheduled : isScheduled phase = false)
    (hnext : ∀ next ∈ phase', heldJob next = none) : Attended ⟨db', phase'.toList ++ rest⟩ := by
  refine h.goesOn hjobs ⟨h.pending_le hscheduled phase', ?_,
    fun next hphase' => Or.inl (hnext next hphase')⟩
  intro job _ _ hphase
  rw [hheld] at hphase
  cases hphase

/-- Where no job waits, a worker finds none to claim. -/
theorem claimNext_eq_none (h : claimNextCandleAggregationJob jobs = (none, jobs')) :
    jobs' = jobs ∧ pendingCount jobs = 0 := by
  unfold claimNextCandleAggregationJob at h
  split at h
  next hfind =>
    obtain ⟨-, rfl⟩ := Prod.mk.inj h
    refine ⟨rfl, countP_eq_zero.mpr ?_⟩
    simpa using hfind
  next => cases h

/-- Every transaction but a failure with targets left keeps the jobs attended. -/
theorem Attended.transaction (h : Attended ⟨db, phase :: rest⟩)
    (htransaction : Transaction db phase db' phase')
    (horderly : ∀ jobId target todo, phase = .marking jobId target none todo →
      ∀ job ∈ db.jobs.rows, job.id = jobId → ∀ other ∈ job.targets, other.key ≠ target.key →
        other.finished = true) : Attended ⟨db', phase'.toList ++ rest⟩ := by
  cases htransaction with
  | turnsAway | findsOpen | findsNothing | findsTargets | leaves =>
    exact h.free rfl rfl rfl (by simp [heldJob])
  | inserts target targets => exact h.insert
  | claims job jobs hclaim => exact h.claim hclaim
  | claimsNone jobs hclaim =>
    obtain ⟨rfl, hzero⟩ := claimNext_eq_none hclaim
    refine h.goesOn rfl ⟨hzero.trans_le (Nat.zero_le _), ?_, by simp [heldJob]⟩
    rintro job - - ⟨⟩
  | marksRunning jobId target todo =>
    refine h.mark target.rowsWritten rfl rfl mem_cons_self ?_ (by simp)
    rintro _ ⟨⟩
    exact ⟨rfl, fun other hother => Or.inl hother⟩
  | materializes jobId target todo rollups written =>
    exact h.goesOn rfl ⟨h.pending_le rfl _, by simp [heldJob], by simp [heldJob, unfinished]⟩
  | raises jobId target todo =>
    exact h.goesOn rfl ⟨h.pending_le rfl _, by simp [heldJob], by simp [heldJob, unfinished]⟩
  | marksSucceeded jobId target written todo =>
    refine h.mark written rfl rfl mem_cons_self ?_ (by simp)
    rintro _ ⟨⟩
    refine ⟨rfl, fun other hother => ?_⟩
    rcases mem_cons.mp hother with rfl | hrest
    · exact Or.inr ⟨rfl, Or.inl rfl⟩
    · exact Or.inl hrest
  | marksFailed jobId target todo =>
    exact h.mark target.rowsWritten rfl rfl mem_cons_self (by simp)
      fun _ => ⟨Or.inr rfl, horderly jobId target todo rfl⟩
  | finishes jobId =>
    refine h.goesOn rfl ⟨h.pending_le rfl _, ?_, by simp⟩
    -- all targets of the job have finished, so it has ended
    intro job hjob hrunning hheld
    obtain ⟨target, htarget, hunfinished⟩ :=
      h.unclosed job hjob (by simp [AggregationJob.isOpen, hrunning])
    have hleft := h.left _ mem_cons_self job hjob hheld target htarget hunfinished
    exact absurd hleft not_mem_nil

/-- A crash that may happen keeps the jobs attended. -/
theorem Attended.crash (h : Attended ⟨db, phase :: rest⟩)
    (hstop : MayStop ⟨db, phase :: rest⟩ phase) : Attended ⟨db, rest⟩ := by
  refine @Attended.goesOn db db phase none rest h rfl
    ⟨?_, fun job hjob hrunning hheld => ?_, by simp⟩
  · cases phase with
    | scheduled =>
      have hlt : pendingCount db.jobs < (WorkerPhase.scheduled :: rest).countP isScheduled := hstop
      rw [countP_cons_of_pos (by simp [isScheduled])] at hlt
      rw [Option.toList_none, countP_nil, Nat.zero_add]
      exact Nat.le_of_lt_succ hlt
    | entered | scheduling | elsewhere | holding | materializing | marking =>
      exact h.pending_le rfl none
  · cases phase with
    | scheduled => cases hheld
    | entered | scheduling | elsewhere | holding | materializing | marking =>
      exact absurd hrunning (hstop job hjob hheld)

theorem MayStop.perm {workers workers' : List WorkerPhase} (h : MayStop ⟨db, workers⟩ phase)
    (hperm : workers.Perm workers') : MayStop ⟨db, workers'⟩ phase := by
  cases phase with
  | scheduled =>
    have hlt : pendingCount db.jobs < workers.countP isScheduled := h
    rwa [List.Perm.countP_eq isScheduled hperm] at hlt
  | entered | scheduling | elsewhere | holding | materializing | marking => exact h

theorem Attended.enter {workers : List WorkerPhase} (h : Attended ⟨db, workers⟩) :
    Attended ⟨db, .entered :: workers⟩ where
  pending := by
    rw [countP_cons_of_neg (by simp [isScheduled])]
    exact h.pending
  held job hjob hrunning := by
    obtain ⟨phase, hphase, hheld⟩ := h.held job hjob hrunning
    exact ⟨phase, mem_cons_of_mem _ hphase, hheld⟩
  distinct := h.distinct
  known := h.known
  claimed := h.claimed
  left phase hphase job hjob hheld := by
    rcases mem_cons.mp hphase with rfl | hphase
    · cases hheld
    · exact h.left phase hphase job hjob hheld
  unclosed := h.unclosed

/-- An orderly step keeps every lagging unit attended to. -/
theorem Attended.step (h : Attended state) {event : AggregationEvent}
    (hstep : AggregationStep state event state') (horderly : Orderly state event) :
    Attended state' := by
  cases hstep with
  | changesData data =>
    exact ⟨h.pending, h.held, h.distinct, h.known, h.claimed, h.left, h.unclosed⟩
  | enters => exact h.enter
  | moves db db' before after phase phase' htransaction =>
    have hmoved := (h.perm perm_middle).transaction htransaction
      fun jobId target todo heq => by
        subst heq
        exact horderly
    refine hmoved.perm ?_
    rw [← append_assoc, ← append_assoc]
    exact perm_append_comm.append_right after
  | crashes db before after phase =>
    exact (h.perm perm_middle).crash (horderly.perm perm_middle)

def OrderlyStep (state state' : AggregationState) : Prop :=
  ∃ event, AggregationStep state event state' ∧ Orderly state event

theorem OrderlyStep.step (h : OrderlyStep state state') :
    ∃ event, AggregationStep state event state' := h.imp fun _ => And.left

/-- A run from tables without jobs, and without workers, whose steps are orderly. -/
def OrderlyRun (start state : AggregationState) : Prop :=
  start.db.jobs.rows = [] ∧ start.workers = [] ∧ Relation.ReflTransGen OrderlyStep start state

theorem attended_of_empty (hjobs : state.db.jobs.rows = []) (hworkers : state.workers = []) :
    Attended state := by
  obtain ⟨db, workers⟩ := state
  obtain rfl : workers = [] := hworkers
  have hnone : ∀ job ∈ db.jobs.rows, False := by
    intro job hjob
    rw [hjobs] at hjob
    cases hjob
  refine ⟨?_, fun job hjob => (hnone job hjob).elim, nodup_nil, by simp,
    fun job hjob => (hnone job hjob).elim, by simp, fun job hjob => (hnone job hjob).elim⟩
  rw [pendingCount, hjobs]
  exact Nat.zero_le _

theorem OrderlyRun.attended {start : AggregationState} (h : OrderlyRun start state) :
    Attended state := by
  obtain ⟨hjobs, hworkers, hsteps⟩ := h
  induction hsteps with
  | refl => exact attended_of_empty hjobs hworkers
  | tail _ hstep ih =>
    obtain ⟨event, hstep, horderly⟩ := hstep
    exact ih.step hstep horderly

/-- Where workers stop only without an open job, a target that lags is offered as soon as no
worker is inside `run_once`.
SOURCE: postgres_repository.py:2603-2731; aggregation_worker.py:76-137 -/
theorem aggregation_offered (start state : AggregationState) (hrun : OrderlyRun start state)
    (hworkers : state.workers = []) (target : ℤ × String) (hlags : Lags state.db.data target) :
    Offers state.db target :=
  (offers_iff hlags).mpr (Or.inl (hrun.attended.closed hworkers))

end Runs

/-! ## A job whose first target fails -/

/-- Tables without jobs. -/
def noJobs : AggregationJobs := IdentityTable.empty _

/-- The jobs after the claim of one with these targets. -/
def claimedJobs (keys : List (ℤ × String)) : AggregationJobs :=
  (claimNextCandleAggregationJob (insertAggregationJob noJobs keys)).2

/-- The tables after the first target of this job has failed. -/
def failedDatabase (data : AggregationData) (keys : List (ℤ × String)) (key : ℤ × String) :
    AggregationDatabase where
  data := data
  jobs := markCandleAggregationTarget
    (markCandleAggregationTarget (claimedJobs keys) 1 key .running 0) 1 key .failed 0

/-- A transaction of the only worker. -/
theorem moves_alone {db db' : AggregationDatabase} {phase : WorkerPhase}
    {phase' : Option WorkerPhase} (htransaction : Transaction db phase db' phase')
    (horderly : Orderly ⟨db, [phase]⟩ (.moved phase)) :
    OrderlyStep ⟨db, [phase]⟩ ⟨db', phase'.toList ++ []⟩ :=
  ⟨_, .moves db db' [] [] phase phase' htransaction, horderly⟩

/-- A worker schedules a job, claims it, and its first materialization raises. -/
theorem failing_steps {data : AggregationData} {keys : List (ℤ × String)}
    {todo : List AggregationTarget}
    (htargets : laggingTargets data data.activeTargets = .ok (key :: keys)) (hclaim :
      claimNextCandleAggregationJob (insertAggregationJob noJobs (key :: keys)) = (some job, jobs))
    (htodo : candleAggregationJobTargets job = target :: todo) :
    Relation.ReflTransGen OrderlyStep ⟨⟨data, noJobs⟩, []⟩
      ⟨⟨data, markCandleAggregationTarget jobs job.id target.key .running target.rowsWritten⟩,
        [.marking job.id target none todo]⟩ := by
  have henters : OrderlyStep ⟨⟨data, noJobs⟩, []⟩ ⟨⟨data, noJobs⟩, [.entered]⟩ :=
    ⟨_, .enters _, trivial⟩
  have hfinds := moves_alone (.findsTargets ⟨data, noJobs⟩ key keys rfl htargets) trivial
  have hinserts := moves_alone (.inserts ⟨data, noJobs⟩ key keys) trivial
  have hclaims := moves_alone
    (.claims ⟨data, insertAggregationJob noJobs (key :: keys)⟩ job jobs hclaim) trivial
  rw [htodo] at hclaims
  have hmarks := moves_alone (.marksRunning ⟨data, jobs⟩ job.id target todo) trivial
  have hraises := moves_alone (.raises ⟨data, markCandleAggregationTarget jobs job.id target.key
    .running target.rowsWritten⟩ job.id target todo) trivial
  exact ((((Relation.ReflTransGen.single henters).tail hfinds).tail hinserts).tail hclaims).tail
    hmarks |>.tail hraises

theorem zero_in_calendar : 0 < maxOrdinal * dayMicroseconds := by decide

/-- The beginning of the calendar. -/
def calendarStart : UtcTime := ⟨0, zero_in_calendar⟩

/-- The rollup of a unit at the beginning of the calendar. -/
def firstRollup (unit : String) : RollupRow := ⟨1, unit, calendarStart, calculationVersion⟩

/-- One instrument with a candle; the rollups of the other units are there. -/
def laggingData (units : List String) : AggregationData where
  activeTargets := [1]
  sourceCandles := [(1, calendarStart)]
  rollups := (materializedAggregationUnits.filter fun unit => !units.contains unit).map firstRollup

theorem lags_laggingData
    (htargets : laggingTargets (laggingData units) [1] = .ok (units.map fun unit => (1, unit)))
    (hunit : unit ∈ units) : Lags (laggingData units) (1, unit) := by
  obtain ⟨targets, hok, hmem⟩ := laggingTargets_spec (laggingData units) [1]
  rw [htargets] at hok
  obtain rfl := Except.ok.inj hok
  exact (hmem (1, unit)).mp (mem_map_of_mem hunit)

/-- The worker of the only job reaches the failure of its first target. -/
theorem failing_steps_of_keys {rest : List String} (htargets : laggingTargets (laggingData units)
      [1] = .ok ((unit :: rest).map fun unit => (1, unit))) (htodo : candleAggregationJobTargets
      (newAggregationJob ((unit :: rest).map fun unit => (1, unit)) 1).start = (unit :: rest).map
      fun unit => { instrumentId := 1, candleUnit := unit }) :
    Relation.ReflTransGen OrderlyStep ⟨⟨laggingData units, noJobs⟩, []⟩
      ⟨⟨laggingData units, markCandleAggregationTarget
        (claimedJobs ((unit :: rest).map fun unit => (1, unit))) 1 (1, unit) .running 0⟩,
        [.marking 1 ⟨1, unit, .pending, 0⟩ none
          (rest.map fun unit => { instrumentId := 1, candleUnit := unit })]⟩ :=
  failing_steps htargets rfl htodo

/-- After the only target of a job has failed, it is offered again. -/
theorem aggregation_offered_failed :
    Offers (failedDatabase (laggingData ["3m"]) [(1, "3m")] (1, "3m")) (1, "3m") := by
  have htargets : laggingTargets (laggingData ["3m"]) [1] = .ok [(1, "3m")] := by decide +kernel
  have hsteps := @failing_steps_of_keys ["3m"] "3m" [] htargets (by decide +kernel)
  have hlast : ∀ job ∈ (markCandleAggregationTarget (claimedJobs [(1, "3m")]) 1 (1, "3m")
      .running 0).rows, job.id = 1 → ∀ other ∈ job.targets, other.key ≠ (1, "3m") →
        other.finished = true := by decide +kernel
  have hfails := moves_alone (.marksFailed ⟨laggingData ["3m"], markCandleAggregationTarget
    (claimedJobs [(1, "3m")]) 1 (1, "3m") .running 0⟩ 1 ⟨1, "3m", .pending, 0⟩ []) hlast
  exact aggregation_offered _ _ ⟨rfl, rfl, hsteps.tail hfails⟩ rfl (1, "3m")
    (lags_laggingData htargets mem_cons_self)

/-- The first of two targets fails: the job stays open, and nothing claims it. -/
theorem failedTarget_blocks : ¬ ∀ (start state : AggregationState), start.db.jobs.rows = [] →
    start.workers = [] → Relation.ReflTransGen
      (fun state state' => ∃ event, AggregationStep state event state') start state →
    state.workers = [] → ∀ target, Lags state.db.data target → Offers state.db target := by
  intro hoffered
  have htargets : laggingTargets (laggingData ["3m", "5m"]) [1] =
      .ok [(1, "3m"), (1, "5m")] := by decide +kernel
  have hsteps := @failing_steps_of_keys ["3m", "5m"] "3m" ["5m"] htargets (by decide +kernel)
  have hplain := Relation.ReflTransGen.mono (fun _ _ hstep => OrderlyStep.step hstep) _ _ hsteps
  have hfails := hplain.tail ⟨_, .moves _ _ [] [] _ _ (.marksFailed _ _ _ _)⟩
  have hlags := lags_laggingData htargets (mem_cons_self (a := "3m"))
  have hoffers := hoffered _ _ rfl rfl hfails rfl (1, "3m") hlags
  have hopen : ¬ ∀ job ∈ (failedDatabase (laggingData ["3m", "5m"]) [(1, "3m"), (1, "5m")]
      (1, "3m")).jobs.rows, job.isOpen = false := by decide +kernel
  have hnone : firstPending (failedDatabase (laggingData ["3m", "5m"]) [(1, "3m"), (1, "5m")]
      (1, "3m")).jobs = none := by decide +kernel
  rcases (offers_iff hlags).mp hoffers with hclosed | ⟨job, hjob, -⟩
  · exact hopen hclosed
  · exact Option.some_ne_none job (hjob.symm.trans hnone)

end Goodmoneying.Analysis.Aggregation
