import Goodmoneying.Analysis.OperatorStopSteps

/-!
# Plans, and the backfill work of a market

The steps that insert jobs or move all work on one instrument keep the stops: a plan and its
approval, the resumption and the stop of a market, and the backfill that a market gets. What such a
step does for one instrument leaves the targets of the others alone (`Confined`).
-/

namespace Goodmoneying.Analysis.Backfill

open List Library Program Program.Backfill
open Program.MarketCatalog

variable {target : BackfillTarget} {tables : BackfillTables} {p : BackfillTarget → Bool}
  {job : BackfillJob}
variable {jobId instrumentId : ℤ} {tables' : BackfillTables}

section Insertions

variable {stops : OperatorStops} {tables tables' : BackfillTables}
variable {planId : String} {now : Instant} {instrumentIds : List ℤ}

/-! ## New jobs and targets -/

/-- A new job has no targets, and no stop is about it. -/
theorem StopsHeld.insertJob (hheld : StopsHeld stops tables) {row : ℤ → BackfillJob}
    (hkey : ∀ id, (row id).id = id) :
    StopsHeld stops { tables with jobs := tables.jobs.insert row hkey } := by
  have hnew : ∀ job ∈ tables.jobs.rows, job.id ≠ (row (tables.jobs.last + 1)).id := by
    intro job hjob hid
    have hle := tables.jobs.le_last job hjob
    rw [hkey] at hid
    omega
  exact {
    jobOf := fun target htarget => by
      obtain ⟨job, hjob, hid⟩ := hheld.jobOf target htarget
      exact ⟨job, mem_append_left _ hjob, hid⟩
    fits := fun job hjob target htarget hid => by
      rcases mem_append.mp hjob with hjob | hjob
      · exact hheld.fits job hjob target htarget hid
      · obtain rfl := mem_singleton.mp hjob
        obtain ⟨old, hold, holdId⟩ := hheld.jobOf target htarget
        exact absurd (holdId.trans hid.symm) (hnew old hold)
    specs := hheld.specs
    haltedJob := fun jobId hhalted => by
      obtain ⟨job, hjob, hid⟩ := hheld.haltedJob jobId hhalted
      exact ⟨job, mem_append_left _ hjob, hid⟩
    atRest := fun job hjob hhalted => by
      rcases mem_append.mp hjob with hjob | hjob
      · exact hheld.atRest job hjob hhalted
      · obtain rfl := mem_singleton.mp hjob
        obtain ⟨old, hold, holdId⟩ := hheld.haltedJob _ hhalted
        exact absurd holdId (hnew old hold)
    inactive := hheld.inactive }

theorem insertTarget_jobs (tables : BackfillTables) (target : BackfillTarget) :
    (tables.insertTarget target).jobs = tables.jobs := by
  unfold BackfillTables.insertTarget
  split_ifs <;> rfl

theorem mem_insertTarget {target' : BackfillTarget}
    (h : target' ∈ (tables.insertTarget target).targets.rows) :
    target' ∈ tables.targets.rows ∨ target' = target := by
  unfold BackfillTables.insertTarget at h
  split_ifs at h
  · exact .inl h
  · exact (mem_append.mp h).imp_right mem_singleton.mp

/-- A target that may be worked on: its job is open and does not pause, and no stop is about its
market. -/
structure Workable (stops : OperatorStops) (tables : BackfillTables) (target : BackfillTarget) :
    Prop where
  jobOf : ∃ job ∈ tables.jobs.rows, job.id = target.backfillJobId
  jobOpen : ∀ job ∈ tables.jobs.rows, job.id = target.backfillJobId →
    job.status.open = true ∧ job.status ≠ .paused
  pending : target.status = .pending
  spec : ∀ code, target.targetSpecId = some code →
    target.instrumentId = stops.instrumentId code
  unstopped : ∀ code, stops.stopped code = true → target.instrumentId ≠ stops.instrumentId code

/-- A target that may be worked on is inserted. -/
theorem StopsHeld.insertTarget (hheld : StopsHeld stops tables)
    (hworkable : Workable stops tables target) : StopsHeld stops (tables.insertTarget target) where
  jobOf target' htarget' := by
    rw [insertTarget_jobs]
    rcases mem_insertTarget htarget' with hold | rfl
    · exact hheld.jobOf target' hold
    · exact hworkable.jobOf
  fits job hjob target' htarget' hid := by
    rw [insertTarget_jobs] at hjob
    rcases mem_insertTarget htarget' with hold | rfl
    · exact hheld.fits job hjob target' hold hid
    · exact ⟨fun _ => hworkable.jobOpen job hjob hid, fun _ => by
        rw [hworkable.pending]
        exact fun h => by cases h⟩
  specs target' htarget' := by
    rcases mem_insertTarget htarget' with hold | rfl
    · exact hheld.specs target' hold
    · exact hworkable.spec
  haltedJob := by
    rw [insertTarget_jobs]
    exact hheld.haltedJob
  atRest := by
    rw [insertTarget_jobs]
    exact hheld.atRest
  inactive code hstopped target' htarget' hinstrument := by
    rcases mem_insertTarget htarget' with hold | rfl
    · exact hheld.inactive code hstopped target' hold hinstrument
    · exact absurd hinstrument (hworkable.unstopped code hstopped)

theorem createBackfillPlan_stopsHeld {targetStartAt targetEndAt : Instant}
    (hheld : StopsHeld stops tables)
    (h : createBackfillPlan tables planId now targetStartAt targetEndAt instrumentIds = .ok
      tables') : StopsHeld stops tables' := by
  unfold createBackfillPlan at h
  split_ifs at h
  obtain rfl := Except.ok.inj h
  exact hheld.insertJob _

theorem insertPlanTargets_stopsHeld (hheld : StopsHeld stops tables) (hworkable : ∀ instrumentId ∈
      instrumentIds, Workable stops tables { backfillJobId := jobId, instrumentId := instrumentId
      }) : StopsHeld stops (insertPlanTargets tables jobId instrumentIds) := by
  induction instrumentIds generalizing tables with
  | nil => exact hheld
  | cons instrumentId instrumentIds ih =>
    rw [forall_mem_cons] at hworkable
    refine ih (hheld.insertTarget hworkable.1) fun other hother => ?_
    obtain ⟨hjobOf, hopen, hpending, hspec, hunstopped⟩ := hworkable.2 other hother
    exact ⟨by rw [insertTarget_jobs]; exact hjobOf, by rw [insertTarget_jobs]; exact hopen,
      hpending, hspec, hunstopped⟩

/-- An approval keeps the stops if no stopped market counts as active. -/
theorem approveBackfillJob_stopsHeld {activeMarket : ℤ → Bool} (hheld : StopsHeld stops tables)
    (hactive : ∀ instrumentId, activeMarket instrumentId = true → ∀ code, stops.stopped code = true
      → instrumentId ≠ stops.instrumentId code)
    (h : approveBackfillJob tables activeMarket planId now = .ok tables') :
    StopsHeld stops tables' := by
  unfold approveBackfillJob at h
  cases hplanned : plannedJob tables planId with
  | none => simp [hplanned] at h
  | some planned =>
    simp only [hplanned] at h
    split at h
    · cases h
    · next hrefusals =>
      obtain rfl := Except.ok.inj h
      have hmem := mem_filter.mp (maxBy_spec hplanned).1
      obtain ⟨hjob, hstatus⟩ := hmem
      simp only [Bool.and_eq_true, decide_eq_true_eq] at hstatus
      have hrow : ∀ job ∈ tables.jobs.rows, job.id = planned.id → job.status = .planned :=
        fun job hrow hid => by rw [IdentityTable.eq_of_key hrow hjob hid, hstatus.1]
      have hmapped := updateJobs_mapped tables planned.id (approveJob now) fun _ => rfl
      have happroved : StopsHeld stops (tables.updateJobs (fun job => job.id = planned.id)
          (approveJob now) fun _ => rfl) := by
        refine hmapped.stopsHeld hheld (keepsStops_onJob (fun _ _ => rfl) (fun _ => rfl)
          (fun job hmem hid target _ _ hfit => ⟨fun _ => ⟨rfl, fun hpaused => by cases hpaused⟩,
            fun _ => hfit.unfailed (by rw [hrow job hmem hid]; rfl)⟩)
          (fun job hmem hid _ hrest => ?_) fun _ _ _ _ _ _ hnot => hnot)
        rw [hrow job hmem hid] at hrest
        cases hrest
      refine insertPlanTargets_stopsHeld happroved fun instrumentId hinstrument => {
        jobOf := ⟨_, hmapped.mem_jobs.mpr ⟨planned, hjob, rfl⟩, hmapped.jobIds planned⟩
        jobOpen := fun job' hjob' hid => ?_
        pending := rfl
        spec := fun code hcode => by cases hcode
        unstopped := hactive instrumentId ?_ }
      · rw [hmapped.job_eq hjob hjob' hid, onJob, if_pos rfl]
        exact ⟨rfl, fun hpaused => by cases hpaused⟩
      · have hrefusal := List.findSome?_eq_none_iff.mp hrefusals instrumentId
          (mem_sortedBy.mpr hinstrument)
        unfold approvalRefusal at hrefusal
        split_ifs at hrefusal with _ hinactive
        simpa using hinactive

end Insertions

/-! ## The work of one market -/

/-- A step about one instrument: the jobs stay, none is opened, and the targets of the other
instruments are as they were. -/
structure Confined (instrumentId : ℤ) (tables tables' : BackfillTables) : Prop where
  kept : ∀ job ∈ tables.jobs.rows, ∃ job' ∈ tables'.jobs.rows, job'.id = job.id
  opened : ∀ job ∈ tables.jobs.rows, ∀ job' ∈ tables'.jobs.rows, job'.id = job.id →
    job'.status.open = true → job.status.open = true
  others : ∀ target ∈ tables'.targets.rows, target.instrumentId ≠ instrumentId →
    target ∈ tables.targets.rows

theorem Confined.refl (instrumentId : ℤ) (tables : BackfillTables) :
    Confined instrumentId tables tables where
  kept job hjob := ⟨job, hjob, rfl⟩
  opened _ hjob _ hjob' hid hopen := IdentityTable.eq_of_key hjob' hjob hid ▸ hopen
  others _ htarget _ := htarget

theorem Confined.trans {tables'' : BackfillTables} (h : Confined instrumentId tables tables')
    (h' : Confined instrumentId tables' tables'') : Confined instrumentId tables tables'' where
  kept job hjob := by
    obtain ⟨job', hjob', hid⟩ := h.kept job hjob
    obtain ⟨job'', hjob'', hid'⟩ := h'.kept job' hjob'
    exact ⟨job'', hjob'', hid'.trans hid⟩
  opened job hjob job'' hjob'' hid hopen := by
    obtain ⟨job', hjob', hid'⟩ := h.kept job hjob
    exact h.opened job hjob job' hjob' hid'
      (h'.opened job' hjob' job'' hjob'' (hid.trans hid'.symm) hopen)
  others target htarget hne := h.others target (h'.others target htarget hne) hne

theorem RowsMapped.confined {jobMap : BackfillJob → BackfillJob}
    {targetMap : BackfillTarget → BackfillTarget} (h : RowsMapped tables tables' jobMap targetMap)
    (hopened : ∀ job ∈ tables.jobs.rows, (jobMap job).status.open = true → job.status.open = true)
    (hothers : ∀ target, target.instrumentId ≠ instrumentId → targetMap target = target) :
    Confined instrumentId tables tables' where
  kept job hjob := ⟨jobMap job, h.mem_jobs.mpr ⟨job, hjob, rfl⟩, h.jobIds job⟩
  opened job hjob job' hjob' hid hopen := by
    rw [h.job_eq hjob hjob' hid] at hopen
    exact hopened job hjob hopen
  others target' htarget' hne := by
    obtain ⟨target, htarget, rfl⟩ := h.mem_targets.mp htarget'
    rw [h.target_instrument] at hne
    rw [hothers target hne]
    exact htarget

theorem mem_openJobsWith :
    jobId ∈ openJobsWith tables p ↔ ∃ job ∈ tables.jobs.rows, job.id = jobId ∧
      job.status.open = true ∧ ∃ target ∈ tables.targets.rows,
        target.backfillJobId = jobId ∧ p target = true := by
  simp only [openJobsWith, mem_map, mem_filter, Bool.and_eq_true, any_eq_true, mem_targetsOf]
  constructor
  · rintro ⟨job, ⟨hjob, hopen, target, ⟨htarget, hid⟩, hp⟩, rfl⟩
    exact ⟨job, hjob, rfl, hopen, target, htarget, hid, hp⟩
  · rintro ⟨job, hjob, rfl, hopen, target, htarget, hid, hp⟩
    exact ⟨job, ⟨hjob, hopen, target, ⟨htarget, hid⟩, hp⟩, rfl⟩

/-- A job among listed ones whose row is open. -/
theorem open_of_mem_openJobsWith (hjob : job ∈ tables.jobs.rows)
    (h : job.id ∈ openJobsWith tables p) : job.status.open = true := by
  obtain ⟨row, hrow, hid, hopen, -⟩ := mem_openJobsWith.mp h
  exact IdentityTable.eq_of_key hrow hjob hid ▸ hopen

section Work

variable {stops : OperatorStops} {tables : BackfillTables} {specEligible : TargetSpecId → Bool}
  {instrumentId : ℤ}
variable {status : TargetStatus}
variable {request : BackfillRequest}

/-- The targets that a resumption of the market takes up again. -/
def resumedTarget (tables : BackfillTables) (specEligible : TargetSpecId → Bool)
    (instrumentId : ℤ) (target : BackfillTarget) : Bool :=
  target.backfillJobId ∈ openJobsWith tables (resumable specEligible instrumentId) &&
    target.instrumentId = instrumentId && target.status = .paused

/-- The jobs that it takes up again. -/
def resumedJob (tables : BackfillTables) (specEligible : TargetSpecId → Bool) (instrumentId : ℤ)
    (job : BackfillJob) : Bool :=
  job.id ∈ openJobsWith tables (resumable specEligible instrumentId) && job.status = .paused &&
    ((tables.setTargetStatus (resumedTarget tables specEligible instrumentId) .pending).targetsOf
      job.id).any fun target => target.status.active

theorem resumeMarketBackfillWork_mapped (tables : BackfillTables)
    (specEligible : TargetSpecId → Bool) (instrumentId : ℤ) :
    RowsMapped tables (resumeMarketBackfillWork tables specEligible instrumentId)
      (fun job => if resumedJob tables specEligible instrumentId job then moveJob .pending job
        else job)
      (onTargets (resumedTarget tables specEligible instrumentId) .pending) where
  jobs := rfl
  targets := rfl
  jobIds job := by split_ifs <;> rfl
  targetKeys := onTargets_key _ _

theorem resumedJob_spec (h : resumedJob tables specEligible instrumentId job = true) :
    job.id ∈ openJobsWith tables (resumable specEligible instrumentId) ∧ job.status = .paused := by
  simp only [resumedJob, Bool.and_eq_true, decide_eq_true_eq] at h
  exact h.1

/-- A paused job with a target that is taken up again is taken up again itself. -/
theorem resumedJob_of_target (htarget : target ∈ tables.targets.rows)
    (hid : job.id = target.backfillJobId)
    (hresumed : resumedTarget tables specEligible instrumentId target = true)
    (hpaused : job.status = .paused) : resumedJob tables specEligible instrumentId job = true := by
  have hlisted : job.id ∈ openJobsWith tables (resumable specEligible instrumentId) := by
    simp only [resumedTarget, Bool.and_eq_true, decide_eq_true_eq] at hresumed
    exact hid ▸ hresumed.1.1
  have hmapped := setTargetStatus_mapped tables (resumedTarget tables specEligible instrumentId)
    .pending
  have hmem := mem_targetsOf.mpr ⟨hmapped.mem_targets.mpr ⟨target, htarget, rfl⟩,
    (hmapped.target_job target).trans hid.symm⟩
  have hactive : (onTargets (resumedTarget tables specEligible instrumentId) .pending
      target).status.active = true := by
    rw [onTargets, if_pos hresumed]
    rfl
  simp only [resumedJob, Bool.and_eq_true, decide_eq_true_eq]
  exact ⟨⟨hlisted, hpaused⟩, any_eq_true.mpr ⟨_, hmem, hactive⟩⟩

/-- What a resumption of an instrument takes up again, no stop is about. -/
def Resumes (stops : OperatorStops) (tables : BackfillTables) (specEligible : TargetSpecId → Bool)
    (instrumentId : ℤ) : Prop :=
  ∀ job ∈ tables.jobs.rows, job.status.open = true → ∀ target ∈ tables.targets.rows,
    target.backfillJobId = job.id → resumable specEligible instrumentId target = true →
    stops.halted job.id = false ∧
      ∀ code, stops.stopped code = true → instrumentId ≠ stops.instrumentId code

theorem Resumes.of_mem (h : Resumes stops tables specEligible instrumentId)
    (hmem : jobId ∈ openJobsWith tables (resumable specEligible instrumentId)) :
    stops.halted jobId = false ∧
      ∀ code, stops.stopped code = true → instrumentId ≠ stops.instrumentId code := by
  obtain ⟨job, hjob, rfl, hopen, target, htarget, hid, hresumable⟩ := mem_openJobsWith.mp hmem
  exact h job hjob hopen target htarget hid hresumable

/-- Resuming the work of a market keeps the stops, if it takes up nothing stopped. -/
theorem resumeMarketBackfillWork_stopsHeld (hheld : StopsHeld stops tables)
    (hresumes : Resumes stops tables specEligible instrumentId) :
    StopsHeld stops (resumeMarketBackfillWork tables specEligible instrumentId) := by
  refine (resumeMarketBackfillWork_mapped tables specEligible instrumentId).stopsHeld hheld {
    fits := fun job hjob target htarget hid hfit => ⟨fun hactive => ?_, fun hopen => ?_⟩
    specs := onTargets_spec _ _
    atRest := fun job _ hhalted hrest => ?_
    inactive := fun code hstopped target _ hinstrument hnot => ?_ }
  · by_cases hpaused : job.status = .paused
    · cases hresumed : resumedTarget tables specEligible instrumentId target with
      | true =>
        rw [if_pos (resumedJob_of_target htarget hid hresumed hpaused)]
        exact ⟨rfl, fun h => by cases h⟩
      | false =>
        rw [onTargets, hresumed, if_neg Bool.false_ne_true] at hactive
        exact absurd hpaused (hfit.active hactive).2
    · rw [if_neg fun h => hpaused (resumedJob_spec h).2]
      refine ⟨?_, hpaused⟩
      unfold onTargets at hactive
      split_ifs at hactive with hresumed
      · simp only [resumedTarget, Bool.and_eq_true, decide_eq_true_eq] at hresumed
        exact open_of_mem_openJobsWith hjob (hid ▸ hresumed.1.1)
      · exact (hfit.active hactive).1
  · have hunfailed : target.status ≠ .failed := by
      refine hfit.unfailed ?_
      split_ifs at hopen with hresumed
      · exact open_of_mem_openJobsWith hjob (resumedJob_spec hresumed).1
      · exact hopen
    unfold onTargets
    split_ifs
    · exact fun h => by cases h
    · exact hunfailed
  · split_ifs with hresumed
    · rw [(hresumes.of_mem (resumedJob_spec hresumed).1).1] at hhalted
      cases hhalted
    · exact hrest
  · unfold onTargets
    split_ifs with hresumed
    · simp only [resumedTarget, Bool.and_eq_true, decide_eq_true_eq] at hresumed
      exact absurd (hresumed.1.2.symm.trans hinstrument)
        ((hresumes.of_mem hresumed.1.1).2 code hstopped)
    · exact hnot

theorem resumeMarketBackfillWork_confined (tables : BackfillTables)
    (specEligible : TargetSpecId → Bool) (instrumentId : ℤ) :
    Confined instrumentId tables (resumeMarketBackfillWork tables specEligible instrumentId) := by
  refine (resumeMarketBackfillWork_mapped tables specEligible instrumentId).confined
    (fun job hjob hopen => ?_) fun target hne => ?_
  · split_ifs at hopen with hresumed
    · exact open_of_mem_openJobsWith hjob (resumedJob_spec hresumed).1
    · exact hopen
  · simp [onTargets, resumedTarget, hne]

/-! ## The stop of a market -/

/-- The targets that a stop of the market is about. -/
def stoppedTarget (tables : BackfillTables) (instrumentId : ℤ) (target : BackfillTarget) : Bool :=
  target.backfillJobId ∈ openJobsWith tables (stoppable instrumentId) &&
    stoppable instrumentId target

/-- The tables after its update of the targets. -/
def stoppedTargets (tables : BackfillTables) (status : TargetStatus) (instrumentId : ℤ) :
    BackfillTables :=
  tables.setTargetStatus (stoppedTarget tables instrumentId) status

/-- The jobs that have no work left then. -/
def stoppedJob (tables : BackfillTables) (status : TargetStatus) (instrumentId : ℤ)
    (job : BackfillJob) : Bool :=
  job.id ∈ openJobsWith tables (stoppable instrumentId) &&
    ((stoppedTargets tables status instrumentId).targetsOf job.id).all fun target =>
      !target.status.active

theorem stopMarketBackfillWork_mapped (tables : BackfillTables) (targetStatus : TargetStatus)
    (jobStatus : JobStatus) (instrumentId : ℤ) :
    RowsMapped tables (stopMarketBackfillWork tables targetStatus jobStatus instrumentId)
      (fun job => if stoppedJob tables targetStatus instrumentId job then
        stopJob jobStatus ((stoppedTargets tables targetStatus instrumentId).targetsOf job.id) job
        else job)
      (onTargets (stoppedTarget tables instrumentId) targetStatus) where
  jobs := rfl
  targets := rfl
  jobIds job := by split_ifs <;> rfl
  targetKeys := onTargets_key _ _

theorem stopJob_resting {jobStatus : JobStatus} (h : resting jobStatus = true)
    (targets : List BackfillTarget) (job : BackfillJob) :
    resting (stopJob jobStatus targets job).status = true := by
  simp only [stopJob, moveJob]
  split_ifs
  · rfl
  · exact h

/-- The statuses that a stop gives. -/
structure StopStatus (targetStatus : TargetStatus) (jobStatus : JobStatus) : Prop where
  inactive : targetStatus.active = false
  unfailed : targetStatus ≠ .failed
  resting : resting jobStatus = true

theorem stopStatus_paused : StopStatus .paused .paused := ⟨rfl, by decide, rfl⟩

theorem stopStatus_excluded : StopStatus .stopped .cancelled := ⟨rfl, by decide, rfl⟩

theorem onTargets_not_active (hstatus : status.active = false)
    (hnot : target.status.active = false) : (onTargets p status target).status.active = false := by
  unfold onTargets
  split_ifs
  · exact hstatus
  · exact hnot

theorem onTargets_ne_failed (hstatus : status ≠ .failed) (hnot : target.status ≠ .failed) :
    (onTargets p status target).status ≠ .failed := by
  unfold onTargets
  split_ifs
  · exact hstatus
  · exact hnot

/-- Where new targets are active, the old ones were and have not been changed. -/
theorem active_of_onTargets (hstatus : status.active = false)
    (hactive : (onTargets p status target).status.active = true) :
    target.status.active = true ∧ p target = false := by
  unfold onTargets at hactive
  split_ifs at hactive with hp
  · rw [hstatus] at hactive
    cases hactive
  · exact ⟨hactive, Bool.eq_false_iff.mpr hp⟩

variable {targetStatus : TargetStatus} {jobStatus : JobStatus}

/-- Stopping the work of a market keeps the stops. -/
theorem stopMarketBackfillWork_stopsHeld (hheld : StopsHeld stops tables)
    (hstatus : StopStatus targetStatus jobStatus) :
    StopsHeld stops (stopMarketBackfillWork tables targetStatus jobStatus instrumentId) := by
  have hmapped := stopMarketBackfillWork_mapped tables targetStatus jobStatus instrumentId
  refine hmapped.stopsHeld hheld {
    fits := fun job hjob target htarget hid hfit => ⟨fun hactive => ?_, fun hopen => ?_⟩
    specs := onTargets_spec _ _
    atRest := fun job _ _ hrest => ?_
    inactive := fun _ _ target _ _ hnot => onTargets_not_active hstatus.inactive hnot }
  · have hsame : stoppedJob tables targetStatus instrumentId job = false := by
      by_contra hstopped
      rw [Bool.not_eq_false] at hstopped
      simp only [stoppedJob, Bool.and_eq_true, all_eq_true] at hstopped
      have hset := setTargetStatus_mapped tables (stoppedTarget tables instrumentId) targetStatus
      have hnot := hstopped.2 _ (mem_targetsOf.mpr
        ⟨hset.mem_targets.mpr ⟨target, htarget, rfl⟩, (hset.target_job target).trans hid.symm⟩)
      rw [hactive] at hnot
      cases hnot
    rw [hsame, if_neg Bool.false_ne_true]
    exact hfit.active (active_of_onTargets hstatus.inactive hactive).1
  · refine onTargets_ne_failed hstatus.unfailed (hfit.unfailed ?_)
    split_ifs at hopen with hstopped
    · rw [stoppedJob, Bool.and_eq_true, decide_eq_true_eq] at hstopped
      exact open_of_mem_openJobsWith hjob hstopped.1
    · exact hopen
  · split_ifs
    · exact stopJob_resting hstatus.resting _ job
    · exact hrest

theorem stopMarketBackfillWork_confined (tables : BackfillTables) (targetStatus : TargetStatus)
    (jobStatus : JobStatus) (instrumentId : ℤ) : Confined instrumentId tables
      (stopMarketBackfillWork tables targetStatus jobStatus instrumentId) := by
  refine (stopMarketBackfillWork_mapped tables targetStatus jobStatus instrumentId).confined
    (fun job hjob hopen => ?_) fun target hne => ?_
  · split_ifs at hopen with hstopped
    · rw [stoppedJob, Bool.and_eq_true, decide_eq_true_eq] at hstopped
      exact open_of_mem_openJobsWith hjob hstopped.1
    · exact hopen
  · simp [onTargets, stoppedTarget, stoppable, hne]

/-- After a stop the instrument has no target that is worked on. -/
theorem stopMarketBackfillWork_inactive (hheld : StopsHeld stops tables)
    (hstatus : StopStatus targetStatus jobStatus) :
    ∀ target ∈ (stopMarketBackfillWork tables targetStatus jobStatus instrumentId).targets.rows,
      target.instrumentId = instrumentId → target.status.active = false := by
  have hmapped := stopMarketBackfillWork_mapped tables targetStatus jobStatus instrumentId
  intro target' htarget' hinstrument
  obtain ⟨target, htarget, rfl⟩ := hmapped.mem_targets.mp htarget'
  rw [hmapped.target_instrument] at hinstrument
  by_contra hactive
  rw [Bool.not_eq_false] at hactive
  obtain ⟨hold, hnot⟩ := active_of_onTargets hstatus.inactive hactive
  obtain ⟨job, hjob, hid⟩ := hheld.jobOf target htarget
  -- the job of a target that is worked on is open, so it is listed
  have hopen := ((hheld.fits job hjob target htarget hid).active hold).1
  have hstoppable : stoppable instrumentId target = true := by
    simp [stoppable, hinstrument, hold]
  have hlisted := mem_openJobsWith.mpr ⟨job, hjob, hid, hopen, target, htarget, rfl, hstoppable⟩
  rw [stoppedTarget, hstoppable, Bool.and_true, decide_eq_false_iff_not] at hnot
  exact hnot hlisted

/-! ## A market's state -/

variable {state : SpecStatus}

theorem transitionMarketBackfillWork_stopsHeld (hheld : StopsHeld stops tables)
    (hresumes : state = .active → Resumes stops tables specEligible instrumentId) :
    StopsHeld stops (transitionMarketBackfillWork tables specEligible instrumentId state) := by
  cases state with
  | active => exact resumeMarketBackfillWork_stopsHeld hheld (hresumes rfl)
  | paused => exact stopMarketBackfillWork_stopsHeld hheld stopStatus_paused
  | excluded => exact stopMarketBackfillWork_stopsHeld hheld stopStatus_excluded

theorem transitionMarketBackfillWork_confined (tables : BackfillTables)
    (specEligible : TargetSpecId → Bool) (instrumentId : ℤ) (state : SpecStatus) :
    Confined instrumentId tables
      (transitionMarketBackfillWork tables specEligible instrumentId state) := by
  cases state with
  | active => exact resumeMarketBackfillWork_confined ..
  | paused => exact stopMarketBackfillWork_confined ..
  | excluded => exact stopMarketBackfillWork_confined ..

theorem transitionMarketBackfillWork_inactive (hheld : StopsHeld stops tables)
    (hstate : state ≠ .active) : ∀ target ∈
        (transitionMarketBackfillWork tables specEligible instrumentId state).targets.rows,
      target.instrumentId = instrumentId → target.status.active = false := by
  cases state with
  | active => exact absurd rfl hstate
  | paused => exact stopMarketBackfillWork_inactive hheld stopStatus_paused
  | excluded => exact stopMarketBackfillWork_inactive hheld stopStatus_excluded

/-! ## Work that a new policy supersedes -/

/-- The targets of a job that are superseded. -/
def supersededTarget (jobId instrumentId : ℤ) (target : BackfillTarget) : Bool :=
  target.backfillJobId = jobId && stoppable instrumentId target

/-- One round changes one job at most, to a status at rest, and that when it has no work left. -/
theorem cancelSupersededJob_mapped (changedAt : Instant) (tables : BackfillTables)
    (jobId instrumentId : ℤ) :
    ∃ change, RowsMapped tables (cancelSupersededJob changedAt instrumentId tables jobId)
        (onJob jobId change) (onTargets (supersededTarget jobId instrumentId) .stopped) ∧
      ∀ job, change job = job ∨ resting (change job).status = true ∧
        ∀ target ∈ tables.targets.rows, target.backfillJobId = jobId →
          (onTargets (supersededTarget jobId instrumentId) .stopped target).status.active =
            false := by
  have hmapped := setTargetStatus_mapped tables (supersededTarget jobId instrumentId) .stopped
  unfold cancelSupersededJob
  simp only
  split_ifs with hactive
  · refine ⟨id, ?_, fun job => .inl rfl⟩
    have hid : onJob jobId id = id := by
      funext job
      simp [onJob]
    rw [hid]
    exact hmapped
  · refine ⟨_, hmapped.trans (updateJobs_mapped _ jobId _ _), fun job => .inr
      ⟨stopJob_resting rfl _ job, fun target htarget hjobId => ?_⟩⟩
    by_contra hnew
    rw [Bool.not_eq_false] at hnew
    exact hactive (any_eq_true.mpr ⟨_, mem_targetsOf.mpr
      ⟨hmapped.mem_targets.mpr ⟨target, htarget, rfl⟩,
        (hmapped.target_job target).trans hjobId⟩, hnew⟩)

theorem superseded_not_stoppable (hjobId : target.backfillJobId = jobId) :
    stoppable instrumentId (onTargets (supersededTarget jobId instrumentId) .stopped target) =
      false := by
  unfold onTargets
  split_ifs with hsuperseded
  · simp [stoppable, TargetStatus.active]
  · simpa [supersededTarget, hjobId] using hsuperseded

/-- Between the rounds: the listed jobs are open, and what is left of the work on the instrument is
in them. -/
structure Superseding (stops : OperatorStops) (instrumentId : ℤ) (tables : BackfillTables)
    (jobIds : List ℤ) : Prop where
  held : StopsHeld stops tables
  listed : ∀ job ∈ tables.jobs.rows, job.id ∈ jobIds → job.status.open = true
  left : ∀ job ∈ tables.jobs.rows, job.status.open = true → ∀ target ∈ tables.targets.rows,
    target.backfillJobId = job.id → stoppable instrumentId target = true → job.id ∈ jobIds

/-- One superseded job is cancelled. -/
theorem Superseding.step {jobIds : List ℤ} (changedAt : Instant) (hnot : jobId ∉ jobIds)
    (h : Superseding stops instrumentId tables (jobId :: jobIds)) :
    Superseding stops instrumentId (cancelSupersededJob changedAt instrumentId tables jobId)
      jobIds := by
  obtain ⟨change, hmapped, hchange⟩ := cancelSupersededJob_mapped changedAt tables jobId
    instrumentId
  refine ⟨hmapped.stopsHeld h.held (keepsStops_onJob (fun target hne => ?_) (onTargets_spec _ _)
    (fun job hjob hid target htarget hjobId hfit => ⟨fun hactive => ?_, fun _ => ?_⟩)
    (fun job _ _ _ hrest => ?_) fun _ _ target _ _ _ hnot => onTargets_not_active rfl hnot),
    fun job' hjob' hmem => ?_, fun job' hjob' hopen target' htarget' hjobId hstoppable => ?_⟩
  · simp [onTargets, supersededTarget, hne]
  · rcases hchange job with hsame | ⟨-, hnone⟩
    · rw [hsame]
      exact hfit.active (active_of_onTargets rfl hactive).1
    · rw [hnone target htarget hjobId] at hactive
      cases hactive
  · exact onTargets_ne_failed (by decide)
      (hfit.unfailed (h.listed job hjob (hid ▸ mem_cons_self)))
  · rcases hchange job with hsame | ⟨hresting, -⟩
    · rwa [hsame]
    · exact hresting
  · obtain ⟨job, hjob, rfl⟩ := hmapped.mem_jobs.mp hjob'
    rw [hmapped.jobIds] at hmem
    have hne : job.id ≠ jobId := fun hid => hnot (hid ▸ hmem)
    rw [onJob, if_neg hne]
    exact h.listed job hjob (mem_cons_of_mem _ hmem)
  · obtain ⟨job, hjob, rfl⟩ := hmapped.mem_jobs.mp hjob'
    obtain ⟨target, htarget, rfl⟩ := hmapped.mem_targets.mp htarget'
    rw [hmapped.jobIds, hmapped.target_job] at hjobId
    rw [hmapped.jobIds]
    by_cases hid : job.id = jobId
    · -- the round leaves no work on the instrument in its job
      rw [superseded_not_stoppable (hjobId.trans hid)] at hstoppable
      cases hstoppable
    · rw [onJob, if_neg hid] at hopen
      have hsame : onTargets (supersededTarget jobId instrumentId) .stopped target = target := by
        simp [onTargets, supersededTarget, hjobId, hid]
      rw [hsame] at hstoppable
      exact mem_of_ne_of_mem hid (h.left job hjob hopen target htarget hjobId hstoppable)

theorem cancelSupersededSourceBackfill_superseding (hheld : StopsHeld stops tables)
    (changedAt : Instant) :
    Superseding stops instrumentId (cancelSupersededSourceBackfill tables changedAt instrumentId)
      [] := by
  have hfold : ∀ (jobIds : List ℤ) (tables : BackfillTables), jobIds.Nodup →
      Superseding stops instrumentId tables jobIds →
      Superseding stops instrumentId
        (jobIds.foldl (cancelSupersededJob changedAt instrumentId) tables) [] := by
    intro jobIds
    induction jobIds with
    | nil => exact fun _ _ h => h
    | cons jobId jobIds ih =>
      intro tables hnodup h
      obtain ⟨hnot, hnodup⟩ := nodup_cons.mp hnodup
      exact ih _ hnodup (h.step changedAt hnot)
  refine hfold _ tables ?_ ⟨hheld, fun job hjob hmem => open_of_mem_openJobsWith hjob hmem,
    fun job hjob hopen target htarget hjobId hstoppable => mem_openJobsWith.mpr
      ⟨job, hjob, rfl, hopen, target, htarget, hjobId, hstoppable⟩⟩
  exact (filter_sublist.map _).nodup tables.jobs.nodup_keys

/-! ## The backfill that a market gets -/

/-- A backfill job is ensured by nothing, or by a pending job with one target. -/
theorem ensureBackfillJob_cases (tables : BackfillTables) (request : BackfillRequest) :
    ensureBackfillJob tables request = tables ∨
    ∃ row : ℤ → BackfillJob, ∃ hkey : ∀ id, (row id).id = id, (∀ id, (row id).status = .pending) ∧
      ensureBackfillJob tables request = BackfillTables.insertTarget
        { tables with jobs := tables.jobs.insert row hkey }
        { backfillJobId := tables.jobs.last + 1
          instrumentId := request.instrumentId
          targetSpecId := some request.targetSpecId } := by
  have hinsert : ∀ (startAt : Instant) (key : JobKey),
      insertBackfillJob tables request startAt key = tables ∨
      ∃ row : ℤ → BackfillJob, ∃ hkey : ∀ id, (row id).id = id,
        (∀ id, (row id).status = .pending) ∧
        insertBackfillJob tables request startAt key = BackfillTables.insertTarget
          { tables with jobs := tables.jobs.insert row hkey }
          { backfillJobId := tables.jobs.last + 1
            instrumentId := request.instrumentId
            targetSpecId := some request.targetSpecId } := by
    intro startAt key
    unfold insertBackfillJob
    split_ifs
    · exact .inl rfl
    · exact .inr ⟨_, fun _ => rfl, fun _ => rfl, rfl⟩
  unfold ensureBackfillJob
  split_ifs
  · exact .inl rfl
  · exact .inl rfl
  · cases request.policyKey with
    | some policyKey => exact hinsert _ _
    | none =>
      simp only
      split_ifs
      · exact .inl rfl
      · exact hinsert _ _

/-- A new job keeps the stops, if its market is not stopped. -/
theorem ensureBackfillJob_stopsHeld (hheld : StopsHeld stops tables)
    (hspec : request.instrumentId = stops.instrumentId request.targetSpecId) (hunstopped : ∀ code,
      stops.stopped code = true → request.instrumentId ≠ stops.instrumentId code) :
    StopsHeld stops (ensureBackfillJob tables request) := by
  rcases ensureBackfillJob_cases tables request with h | ⟨row, hkey, hpending, h⟩
  · rwa [h]
  · rw [h]
    refine (hheld.insertJob hkey).insertTarget {
      jobOf := ⟨row (tables.jobs.last + 1), mem_append_right _ mem_cons_self, hkey _⟩
      jobOpen := fun job hjob hid => ?_
      pending := rfl
      spec := fun code hcode => by rw [← Option.some.inj hcode]; exact hspec
      unstopped := hunstopped }
    rcases mem_append.mp hjob with hjob | hjob
    · have hle := tables.jobs.le_last job hjob
      simp only at hid
      omega
    · obtain rfl := mem_singleton.mp hjob
      rw [hpending]
      exact ⟨rfl, fun h => by cases h⟩

/-- A new target is not paused. -/
theorem ensureBackfillJob_paused (h : target ∈ (ensureBackfillJob tables request).targets.rows)
    (hpaused : target.status = .paused) : target ∈ tables.targets.rows := by
  rcases ensureBackfillJob_cases tables request with hsame | ⟨row, hkey, -, hinserted⟩
  · rwa [hsame] at h
  · rw [hinserted] at h
    rcases mem_insertTarget h with hold | rfl
    · exact hold
    · cases hpaused

/-- A new job is confined to its instrument. -/
theorem ensureBackfillJob_confined (tables : BackfillTables) (request : BackfillRequest) :
    Confined request.instrumentId tables (ensureBackfillJob tables request) := by
  rcases ensureBackfillJob_cases tables request with h | ⟨row, hkey, -, h⟩
  · rw [h]
    exact Confined.refl _ tables
  · rw [h]
    exact {
      kept := fun job hjob => ⟨job, by
        rw [insertTarget_jobs]
        exact mem_append_left _ hjob, rfl⟩
      opened := fun job hjob job' hjob' hid hopen => by
        rw [insertTarget_jobs] at hjob'
        rcases mem_append.mp hjob' with hjob' | hjob'
        · exact IdentityTable.eq_of_key hjob' hjob hid ▸ hopen
        · obtain rfl := mem_singleton.mp hjob'
          have hle := tables.jobs.le_last job hjob
          rw [hkey] at hid
          omega
      others := fun target htarget hne => by
        rcases mem_insertTarget htarget with hold | rfl
        · exact hold
        · exact absurd rfl hne }

end Work

end Goodmoneying.Analysis.Backfill
