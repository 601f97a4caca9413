import Goodmoneying.Analysis.BackfillSteps
import Goodmoneying.Program.MarketCatalog

/-!
# What a stop leaves of the backfill jobs

Targets are worked on in open jobs only, and open jobs have no failed target (`TargetFits`). Beside
this a halted job rests, and a stopped market has no target that is worked on (`StopsHeld`). A claim
and the writes of a worker keep it, and so does a control command that restarts no stopped market.
-/

namespace Goodmoneying.Analysis.Backfill

open Library Program Program.Backfill
open Program.MarketCatalog

variable {tables' : BackfillTables} {jobMap : BackfillJob → BackfillJob}
  {targetMap : BackfillTarget → BackfillTarget} {jobId : ℤ} {job : BackfillJob}
  {target : BackfillTarget}
variable {change : BackfillJob → BackfillJob}

/-! ## Jobs, targets and stops -/

/-- The status of a job that has been halted and not been taken up again. -/
def resting (status : JobStatus) : Bool := status ∈ [.paused, .stopped, .cancelled]

/-- A target that is worked on is of an open job that does not pause, and a target that has failed
of a job that is not open. -/
structure TargetFits (job : BackfillJob) (target : BackfillTarget) : Prop where
  active : target.status.active = true → job.status.open = true ∧ job.status ≠ .paused
  unfailed : job.status.open = true → target.status ≠ .failed

/-- The jobs that the operator has halted, the markets that the operator has stopped, and the ids
of the instruments. -/
structure OperatorStops where
  instrumentId : String → ℤ
  halted : ℤ → Bool
  stopped : String → Bool

/-- What holds of the backfill tables at any time. -/
structure StopsHeld (stops : OperatorStops) (tables : BackfillTables) : Prop where
  jobOf : ∀ target ∈ tables.targets.rows, ∃ job ∈ tables.jobs.rows, job.id = target.backfillJobId
  fits : ∀ job ∈ tables.jobs.rows, ∀ target ∈ tables.targets.rows,
    job.id = target.backfillJobId → TargetFits job target
  specs : ∀ target ∈ tables.targets.rows, ∀ code, target.targetSpecId = some code →
    target.instrumentId = stops.instrumentId code
  haltedJob : ∀ jobId, stops.halted jobId = true → ∃ job ∈ tables.jobs.rows, job.id = jobId
  atRest : ∀ job ∈ tables.jobs.rows, stops.halted job.id = true → resting job.status = true
  inactive : ∀ code, stops.stopped code = true → ∀ target ∈ tables.targets.rows,
    target.instrumentId = stops.instrumentId code → target.status.active = false

/-- What a change of the rows has to keep of the stops. -/
structure KeepsStops (stops : OperatorStops) (tables : BackfillTables)
    (jobMap : BackfillJob → BackfillJob) (targetMap : BackfillTarget → BackfillTarget) :
    Prop where
  fits : ∀ job ∈ tables.jobs.rows, ∀ target ∈ tables.targets.rows,
    job.id = target.backfillJobId → TargetFits job target →
      TargetFits (jobMap job) (targetMap target)
  specs : ∀ target, (targetMap target).targetSpecId = target.targetSpecId
  atRest : ∀ job ∈ tables.jobs.rows, stops.halted job.id = true → resting job.status = true →
    resting (jobMap job).status = true
  inactive : ∀ code, stops.stopped code = true → ∀ target ∈ tables.targets.rows,
    target.instrumentId = stops.instrumentId code → target.status.active = false →
      (targetMap target).status.active = false

/-- A change that starts nothing halted or stopped keeps the stops. -/
theorem RowsMapped.stopsHeld {stops : OperatorStops} {tables : BackfillTables}
    (h : RowsMapped tables tables' jobMap targetMap) (hheld : StopsHeld stops tables)
    (hkeeps : KeepsStops stops tables jobMap targetMap) : StopsHeld stops tables' where
  jobOf target' htarget' := by
    obtain ⟨target, htarget, rfl⟩ := h.mem_targets.mp htarget'
    obtain ⟨job, hjob, hid⟩ := hheld.jobOf target htarget
    exact ⟨jobMap job, h.mem_jobs.mpr ⟨job, hjob, rfl⟩,
      (h.jobIds job).trans (hid.trans (h.target_job target).symm)⟩
  fits job' hjob' target' htarget' hid := by
    obtain ⟨job, hjob, rfl⟩ := h.mem_jobs.mp hjob'
    obtain ⟨target, htarget, rfl⟩ := h.mem_targets.mp htarget'
    rw [h.jobIds, h.target_job] at hid
    exact hkeeps.fits job hjob target htarget hid (hheld.fits job hjob target htarget hid)
  specs target' htarget' code hcode := by
    obtain ⟨target, htarget, rfl⟩ := h.mem_targets.mp htarget'
    rw [h.target_instrument]
    exact hheld.specs target htarget code (hkeeps.specs target ▸ hcode)
  haltedJob jobId hhalted := by
    obtain ⟨job, hjob, rfl⟩ := hheld.haltedJob jobId hhalted
    exact ⟨jobMap job, h.mem_jobs.mpr ⟨job, hjob, rfl⟩, h.jobIds job⟩
  atRest job' hjob' hhalted := by
    obtain ⟨job, hjob, rfl⟩ := h.mem_jobs.mp hjob'
    rw [h.jobIds] at hhalted
    exact hkeeps.atRest job hjob hhalted (hheld.atRest job hjob hhalted)
  inactive code hstopped target' htarget' hinstrument := by
    obtain ⟨target, htarget, rfl⟩ := h.mem_targets.mp htarget'
    rw [h.target_instrument] at hinstrument
    exact hkeeps.inactive code hstopped target htarget hinstrument
      (hheld.inactive code hstopped target htarget hinstrument)

section Maps

variable {stops : OperatorStops} {tables : BackfillTables}
variable {call : WriteCall}
variable {now : Instant}

/-- A change of one job and of its targets keeps the stops if the job was not halted, and if
targets that are not worked on stay so. -/
theorem keepsStops_onJob
    (hother : ∀ target, target.backfillJobId ≠ jobId → targetMap target = target)
    (hspecs : ∀ target, (targetMap target).targetSpecId = target.targetSpecId) (hfits : ∀ job ∈
      tables.jobs.rows, job.id = jobId → ∀ target ∈ tables.targets.rows, target.backfillJobId =
      jobId → TargetFits job target → TargetFits (change job) (targetMap target)) (hrest : ∀ job ∈
      tables.jobs.rows, job.id = jobId → stops.halted jobId = true → resting job.status = true →
      resting (change job).status = true) (hinactive : ∀ code, stops.stopped code = true → ∀ target
      ∈ tables.targets.rows, target.backfillJobId = jobId → target.instrumentId = stops.instrumentId
      code → target.status.active = false → (targetMap target).status.active = false) :
    KeepsStops stops tables (onJob jobId change) targetMap where
  fits job hjob target htarget hid hfit := by
    unfold onJob
    split_ifs with hjobId
    · exact hfits job hjob hjobId target htarget (hid.symm.trans hjobId) hfit
    · rw [hother target fun htarget => hjobId (hid.trans htarget)]
      exact hfit
  specs := hspecs
  atRest job hjob hhalted hatRest := by
    unfold onJob
    split_ifs with hjobId
    · exact hrest job hjob hjobId (hjobId ▸ hhalted) hatRest
    · exact hatRest
  inactive code hstopped target htarget hinstrument hnot := by
    by_cases hjobId : target.backfillJobId = jobId
    · exact hinactive code hstopped target htarget hjobId hinstrument hnot
    · rw [hother target hjobId]
      exact hnot

theorem onTargets_spec (p : BackfillTarget → Bool) (status : TargetStatus)
    (target : BackfillTarget) : (onTargets p status target).targetSpecId = target.targetSpecId := by
  unfold onTargets
  split_ifs <;> rfl

/-! ## Claims and writes -/

theorem exhaustedJob_not_resting (h : exhaustedJob now job = true) :
    resting job.status = false := by
  simp only [exhaustedJob, Bool.and_eq_true, Bool.or_eq_true, decide_eq_true_eq] at h
  obtain ⟨-, (h | h) | ⟨h, -⟩⟩ := h <;> rw [h] <;> rfl

theorem claimableJob_status (h : claimableJob now job = true) :
    resting job.status = false ∧ job.status.open = true := by
  simp only [claimableJob, Bool.and_eq_true, Bool.or_eq_true, decide_eq_true_eq] at h
  obtain ⟨-, (h | ⟨h, -⟩) | ⟨h, -⟩⟩ := h <;> rw [h] <;> exact ⟨rfl, rfl⟩

theorem TargetBuried.fits {target' : BackfillTarget} (hjob : job.status = .deadLetter)
    (h : TargetBuried target target') : TargetFits job target' where
  active hactive := by rw [h.not_active] at hactive; cases hactive
  unfailed hopen := by rw [hjob] at hopen; cases hopen

theorem ClaimMapped.stopsHeld {call : ClaimCall}
    (h : ClaimMapped tables tables' call jobMap targetMap) (hheld : StopsHeld stops tables) :
    StopsHeld stops tables' := by
  refine h.mapped.stopsHeld hheld {
    fits := fun job hjob target _ hid hfit => ?_
    specs := fun target => ?_
    atRest := fun job hjob _ hatRest => ?_
    inactive := fun _ _ target _ _ hnot => ?_ }
  · cases h.jobs job hjob with
    | kept hsame htargets => rw [hsame, htargets target hid.symm]; exact hfit
    | buried _ hburied htargets => exact (htargets target hid.symm).fits hburied.status
    | claimed hclaimable hclaimed htargets =>
      rw [hclaimed, htargets target hid.symm]
      exact ⟨fun _ => ⟨rfl, fun hpaused => by cases hpaused⟩,
        fun _ => hfit.unfailed (claimableJob_status hclaimable).2⟩
  · rcases h.targets target with hsame | ⟨hburied, -⟩
    · rw [hsame]
    · rw [hburied]
      split_ifs <;> rfl
  · cases h.jobs job hjob with
    | kept hsame _ => rw [hsame]; exact hatRest
    | buried hexhausted _ _ =>
      rw [exhaustedJob_not_resting hexhausted] at hatRest
      cases hatRest
    | claimed hclaimable _ _ =>
      rw [(claimableJob_status hclaimable).1] at hatRest
      cases hatRest
  · rcases h.targets target with hsame | ⟨hburied, -⟩
    · rw [hsame]; exact hnot
    · exact hburied.not_active

theorem claim_stopsHeld (hheld : StopsHeld stops tables) (call : ClaimCall) :
    StopsHeld stops (claimNextBackfillJob tables call).2 := by
  obtain ⟨jobMap, targetMap, h⟩ := claim_mapped tables call
  exact h.stopsHeld hheld

/-- A halted job is not claimed. -/
theorem claim_not_halted (hheld : StopsHeld stops tables) {call : ClaimCall}
    (h : (claimNextBackfillJob tables call).1 = some job) : stops.halted job.id = false := by
  rcases claim_cases tables call with hclaim | hclaim | ⟨row, hrow, hclaimable, hclaim⟩
  · rw [hclaim] at h
    cases h
  · rw [hclaim] at h
    cases h
  · rw [hclaim] at h
    obtain rfl := Option.some.inj h
    by_contra hhalted
    rw [Bool.not_eq_false] at hhalted
    have hswept := (sweepExhausted_mapped tables call).stopsHeld hheld
    have hrest := hswept.atRest row hrow hhalted
    rw [(claimableJob_status hclaimable).1] at hrest
    cases hrest

/-! ## The writes of a worker -/

/-- Maps that keep the statuses of the jobs and at most go on with active targets. -/
theorem keepsStops_of_status (hjob : ∀ job, (jobMap job).status = job.status)
    (hspecs : ∀ target, (targetMap target).targetSpecId = target.targetSpecId)
    (hactive : ∀ target, (targetMap target).status.active = target.status.active)
    (hfailed : ∀ target, (targetMap target).status = .failed → target.status = .failed) :
    KeepsStops stops tables jobMap targetMap where
  fits job _ target _ _ hfit := by
    refine ⟨fun hnew => ?_, fun hopen hnew => ?_⟩
    · rw [hjob]
      exact hfit.active ((hactive target).symm.trans hnew)
    · exact hfit.unfailed (hjob job ▸ hopen) (hfailed target hnew)
  specs := hspecs
  atRest job _ _ hatRest := by rwa [hjob]
  inactive _ _ target _ _ hnot := by rwa [hactive]

/-- A renewal of a lease changes no status. -/
theorem renewBackfillLease_stopsHeld (hheld : StopsHeld stops tables) :
    StopsHeld stops (renewBackfillLease tables call) :=
  (renewBackfillLease_mapped tables call).stopsHeld hheld
    (keepsStops_of_status (fun job => by split_ifs <;> rfl) (fun _ => rfl) (fun _ => rfl)
      fun _ h => h)

/-- Recording candles keeps the stops. -/
theorem recordBackfillCandles_stopsHeld {ar : Arithmetic} {sha256 : String → String}
    {marketId : ℤ → String → Option ℤ} {candles : List CandleLedger.InstrumentCandle}
    (hheld : StopsHeld stops tables)
    (h : recordBackfillCandles ar sha256 tables call marketId candles = .ok tables') :
    StopsHeld stops tables' := by
  obtain ⟨-, rfl⟩ := recordBackfillCandles_eq_ok h
  refine renewBackfillLease_stopsHeld ?_
  have hstored := storeBackfillCandles_mapped ar sha256 tables call marketId candles
  refine hstored.stopsHeld hheld (keepsStops_of_status (fun _ => rfl) (onTargets_spec _ _)
    (fun target => ?_) fun target => ?_)
  · unfold onTargets
    split_ifs with hpending
    · simp only [Bool.and_eq_true, decide_eq_true_eq] at hpending
      rw [hpending.2]
      rfl
    · rfl
  · unfold onTargets
    split_ifs
    · exact fun h => by cases h
    · exact id

theorem recordBackfillTargetProgress_stopsHeld {progress : TargetProgress}
    (hheld : StopsHeld stops tables)
    (h : recordBackfillTargetProgress tables call progress = .ok tables') :
    StopsHeld stops tables' := by
  obtain ⟨⟨⟩, -, h⟩ := bind_eq_ok.mp h
  obtain rfl := pure_eq_ok.mp h
  have hsame : ∀ target, (onTarget call (setProgress progress) target).status = target.status ∧
      (onTarget call (setProgress progress) target).targetSpecId = target.targetSpecId := by
    intro target
    unfold onTarget
    split_ifs <;> exact ⟨rfl, rfl⟩
  refine renewBackfillLease_stopsHeld
    ((updateTarget_mapped tables call (setProgress progress) fun _ => rfl).stopsHeld hheld
      (keepsStops_of_status (fun _ => rfl) (fun target => (hsame target).2)
        (fun target => by rw [(hsame target).1]) fun target hfailed => ?_))
  rwa [(hsame target).1] at hfailed

theorem statusOfTargets_of_active {targets : List BackfillTarget} (hmem : target ∈ targets)
    (hactive : target.status.active = true) : statusOfTargets targets = .running := by
  unfold statusOfTargets
  rw [if_pos (List.any_eq_true.mpr ⟨target, hmem, hactive⟩)]

end Maps

/-- The targets after the mark of one of them. -/
def marked (call : WriteCall) (mark : TargetMark) : BackfillTarget → BackfillTarget :=
  onTarget call (setMark mark)

section Marks

variable {stops : OperatorStops} {tables tables' : BackfillTables} {call : WriteCall}
  {mark : TargetMark}
variable {active : BackfillTarget}

theorem marked_spec (target : BackfillTarget) :
    (marked call mark target).targetSpecId = target.targetSpecId := by
  unfold marked onTarget
  split_ifs <;> rfl

theorem marked_job (target : BackfillTarget) :
    (marked call mark target).backfillJobId = target.backfillJobId := by
  unfold marked onTarget
  split_ifs <;> rfl

theorem marked_of_ne (h : target.backfillJobId ≠ call.jobId) : marked call mark target = target :=
  if_neg fun hkey => h (congrArg Prod.fst hkey)

/-- A target of a stopped market is not the one that is marked. -/
theorem marked_of_stopped (hlease : LeaseHeld tables call job active)
    (htarget : target ∈ tables.targets.rows) (hnot : target.status.active = false) :
    marked call mark target = target := by
  refine if_neg fun hkey => ?_
  have hsame := KeyedTable.eq_of_key htarget hlease.target_mem (hkey.trans hlease.target_key.symm)
  rw [hsame, hlease.active] at hnot
  cases hnot

/-- What becomes of a running job whose target has been marked keeps the stops. -/
theorem marked_keepsStops (hheld : StopsHeld stops tables)
    (hlease : LeaseHeld tables call job active) {followUp : BackfillTarget → BackfillTarget}
    (hother : ∀ target, target.backfillJobId ≠ call.jobId → followUp target = target)
    (hspecs : ∀ target, (followUp target).targetSpecId = target.targetSpecId) (hfits : ∀ target ∈
      tables.targets.rows, target.backfillJobId = call.jobId → TargetFits (change job) (followUp
      (marked call mark target))) (hinactive : ∀ target, target.status.active = false →
      target.status ≠ .failed → (followUp target).status.active = false) :
    KeepsStops stops tables (onJob call.jobId change) (followUp ∘ marked call mark) := by
  have hrow : ∀ row ∈ tables.jobs.rows, row.id = call.jobId → row = job := fun row hrow hid =>
    IdentityTable.eq_of_key hrow hlease.job_mem (hid.trans hlease.job_id.symm)
  refine keepsStops_onJob (fun target hne => ?_) (fun target => ?_)
    (fun row hmem hid target htarget hjobId _ => ?_) (fun row hmem hid _ hatRest => ?_)
    fun code _ target htarget hjobId _ hnot => ?_
  · rw [Function.comp_apply, marked_of_ne hne, hother target hne]
  · rw [Function.comp_apply, hspecs, marked_spec]
  · rw [hrow row hmem hid]
    exact hfits target htarget hjobId
  · rw [hrow row hmem hid, hlease.running] at hatRest
    cases hatRest
  · rw [Function.comp_apply, marked_of_stopped hlease htarget hnot]
    have hfit := hheld.fits job hlease.job_mem target htarget (hlease.job_id.trans hjobId.symm)
    refine hinactive target hnot (hfit.unfailed ?_)
    rw [hlease.running]
    rfl

/-- Marking a target keeps the stops. -/
theorem markBackfillTarget_stopsHeld {refresh : RefreshCall} (hheld : StopsHeld stops tables)
    (h : markBackfillTarget tables call mark refresh = .ok tables') : StopsHeld stops tables' := by
  obtain ⟨⟨⟩, hassert, h⟩ := bind_eq_ok.mp h
  obtain rfl := pure_eq_ok.mp h
  obtain ⟨job, active, hlease⟩ := assertBackfillWriteLease_ok.mp hassert
  have hmarked := updateTarget_mapped tables call (setMark mark) fun _ => rfl
  have hsettled : job.status.settled = false := by
    rw [hlease.running]
    rfl
  have hrefresh := @refresh_of_unsettled (tables.updateTargets (fun target =>
    target.backfillJobId = call.jobId && target.instrumentId = call.instrumentId)
    (setMark mark) fun _ => rfl) job hlease.job_mem hsettled refresh
  rw [hlease.job_id] at hrefresh
  cases hrefresh with
  | retried retryAt errorCode _ hmapped =>
    rw [hlease.job_id] at hmapped
    refine (hmarked.trans hmapped).stopsHeld hheld (marked_keepsStops hheld hlease
      (fun target hne => ?_) (onTargets_spec _ _) (fun target _ hjobId => ?_)
      fun target hnot hne => ?_)
    · simp [onTargets, hne]
    · refine ⟨fun _ => ⟨rfl, fun hpaused => by cases hpaused⟩, fun _ => ?_⟩
      unfold onTargets
      split_ifs with hfailed
      · exact fun h => by cases h
      · exact fun h => hfailed (by simp [marked_job, hjobId, h])
    · simp [onTargets, hne, hnot]
  | buried errorCode reason detectedAt hmapped =>
    rw [hlease.job_id] at hmapped
    refine (hmarked.trans hmapped).stopsHeld hheld (marked_keepsStops hheld hlease
      (fun target hne => deadLetterTargets_of_ne hne) (onTargets_spec _ _)
      (fun target _ hjobId => ?_) fun target hnot _ => ?_)
    · exact (deadLetterTargets_buried ((marked_job target).trans hjobId)).fits rfl
    · unfold deadLetterTargets onTargets
      split_ifs
      · rfl
      · exact hnot
  | followed now _ hunfailed hmapped =>
    rw [hlease.job_id] at hunfailed hmapped
    refine (hmarked.trans hmapped).stopsHeld hheld (marked_keepsStops hheld hlease
      (fun _ _ => rfl) (fun _ => rfl) (fun target htarget hjobId => ?_) fun _ hnot _ => hnot)
    have hmem := mem_targetsOf.mpr ⟨hmarked.mem_targets.mpr ⟨target, htarget, rfl⟩,
      (marked_job target).trans hjobId⟩
    refine ⟨fun hactive => ?_, fun _ => hunfailed _ hmem⟩
    have hrunning := statusOfTargets_of_active hmem hactive
    simp only [setJobStatus, hrunning]
    exact ⟨rfl, fun hpaused => by cases hpaused⟩

end Marks

/-! ## Stops that begin and end -/

namespace OperatorStops

/-- The stops after a command for a job. -/
def withHalted (stops : OperatorStops) (jobId : ℤ) (halted : Bool) : OperatorStops :=
  { stops with halted := Function.update stops.halted jobId halted }

/-- The stops after a command for a market. -/
def withStopped (stops : OperatorStops) (code : String) (stopped : Bool) : OperatorStops :=
  { stops with stopped := Function.update stops.stopped code stopped }

end OperatorStops

section Changes

variable {stops : OperatorStops} {tables : BackfillTables}
variable {action : ControlAction}

theorem StopsHeld.release (hheld : StopsHeld stops tables) (jobId : ℤ) :
    StopsHeld (stops.withHalted jobId false) tables := by
  have hhalted : ∀ id, (stops.withHalted jobId false).halted id = true →
      stops.halted id = true := by
    intro id h
    simp only [OperatorStops.withHalted, Function.update_apply] at h
    split_ifs at h
    exact h
  exact { hheld with
    haltedJob := fun id h => hheld.haltedJob id (hhalted id h)
    atRest := fun job hjob h => hheld.atRest job hjob (hhalted job.id h) }

theorem StopsHeld.halt (hheld : StopsHeld (stops.withHalted jobId false) tables)
    (hjob : ∃ job ∈ tables.jobs.rows, job.id = jobId)
    (hrest : ∀ job ∈ tables.jobs.rows, job.id = jobId → resting job.status = true) :
    StopsHeld (stops.withHalted jobId true) tables := by
  have hhalted : ∀ id, id ≠ jobId → (stops.withHalted jobId true).halted id = true →
      (stops.withHalted jobId false).halted id = true := by
    intro id hne h
    simpa [OperatorStops.withHalted, hne] using h
  exact { hheld with
    haltedJob := fun id h => by
      by_cases hid : id = jobId
      · exact hid ▸ hjob
      · exact hheld.haltedJob id (hhalted id hid h)
    atRest := fun job hmem h => by
      by_cases hid : job.id = jobId
      · exact hrest job hmem hid
      · exact hheld.atRest job hmem (hhalted job.id hid h) }

theorem StopsHeld.restart (hheld : StopsHeld stops tables) (code : String) :
    StopsHeld (stops.withStopped code false) tables where
  jobOf := hheld.jobOf
  fits := hheld.fits
  specs := hheld.specs
  haltedJob := hheld.haltedJob
  atRest := hheld.atRest
  inactive code' h := by
    simp only [OperatorStops.withStopped, Function.update_apply] at h
    split_ifs at h
    exact hheld.inactive code' h

/-- A market without active targets is stopped. -/
theorem StopsHeld.stop (hheld : StopsHeld stops tables) {code : String}
    (hinactive : ∀ target ∈ tables.targets.rows, target.instrumentId = stops.instrumentId code →
      target.status.active = false) : StopsHeld (stops.withStopped code true) tables where
  jobOf := hheld.jobOf
  fits := hheld.fits
  specs := hheld.specs
  haltedJob := hheld.haltedJob
  atRest := hheld.atRest
  inactive code' h := by
    simp only [OperatorStops.withStopped, Function.update_apply] at h
    split_ifs at h with hcode
    · exact hcode ▸ hinactive
    · exact hheld.inactive code' h

/-! ## Control commands -/

/-- A control command leaves a job and a target of it that fit together. -/
theorem controlJob_fits (haccepts : action.accepts job.status = true)
    (hjobId : target.backfillJobId = jobId) (hfit : TargetFits job target) :
    TargetFits (controlJob action job) (onTargets (fun target => target.backfillJobId = jobId &&
      action.affects target.status) action.targetStatus target) := by
  have hopen : action = .pause → target.status ≠ .failed := by
    rintro rfl
    refine hfit.unfailed ?_
    cases hstatus : job.status <;>
      simp [hstatus, ControlAction.accepts, JobStatus.open] at haccepts ⊢
  constructor
  · cases action <;> cases hstatus : target.status <;>
      simp [onTargets, hjobId, hstatus, ControlAction.affects, ControlAction.targetStatus,
        ControlAction.nextStatus, TargetStatus.active, controlJob, JobStatus.open]
  · cases action <;> cases hstatus : target.status <;>
      simp_all [onTargets, ControlAction.affects, ControlAction.targetStatus,
        ControlAction.nextStatus, TargetStatus.active, controlJob, JobStatus.open]

/-- A control command keeps the stops, with the job halted or released, if a resumption finds no
unfinished target of a stopped market. -/
theorem controlBackfillJob_stopsHeld (hheld : StopsHeld stops tables) (hresume : action.restarts =
      true → ∀ target ∈ tables.targetsOf jobId, target.status ≠ .succeeded → ∀ code, stops.stopped
      code = true → target.instrumentId ≠ stops.instrumentId code)
    (h : controlBackfillJob tables jobId action = .ok tables') :
    StopsHeld (stops.withHalted jobId (!action.restarts)) tables' := by
  obtain ⟨⟨⟩, hread, h⟩ := bind_eq_ok.mp h
  obtain rfl := pure_eq_ok.mp h
  obtain ⟨current, hcurrent, haccepts⟩ : ∃ current, tables.job? jobId = some current ∧
      action.accepts current.status = true := by
    unfold controlRead at hread
    cases hjob : tables.job? jobId with
    | none => simp [hjob] at hread
    | some current =>
      simp only [hjob] at hread
      split_ifs at hread with _ haccepts
      exact ⟨current, rfl, by simpa using haccepts⟩
  obtain ⟨hcurrentMem, hcurrentId⟩ := job?_eq_some.mp hcurrent
  have hrow : ∀ job ∈ tables.jobs.rows, job.id = jobId → job = current := fun job hjob hid =>
    IdentityTable.eq_of_key hjob hcurrentMem (hid.trans hcurrentId.symm)
  have hmapped := controlWrite_mapped tables jobId action
  have hkept : StopsHeld (stops.withHalted jobId false) (controlWrite tables jobId action) := by
    refine hmapped.stopsHeld (hheld.release jobId) (keepsStops_onJob (fun target hne => ?_)
      (onTargets_spec _ _) (fun job hjob hid target htarget hjobId hfit => ?_)
      (fun job _ _ hhalted => ?_) fun code hstopped target htarget hjobId hinstrument hnot => ?_)
    · simp [onTargets, hne]
    · exact controlJob_fits (hrow job hjob hid ▸ haccepts) hjobId hfit
    · simp [OperatorStops.withHalted] at hhalted
    · unfold onTargets
      split_ifs with haffected
      · rw [Bool.and_eq_true, decide_eq_true_eq] at haffected
        cases hrestarts : action.restarts with
        | true =>
          have hunfinished : target.status ≠ .succeeded := by
            intro hsucceeded
            cases action <;> simp [ControlAction.affects, ControlAction.restarts, hsucceeded]
              at haffected hrestarts
          exact absurd hinstrument (hresume hrestarts target (mem_targetsOf.mpr ⟨htarget, hjobId⟩)
            hunfinished code hstopped)
        | false => cases action <;> first | rfl | cases hrestarts
      · exact hnot
  cases hrestarts : action.restarts with
  | true => exact hkept
  | false =>
    refine hkept.halt ⟨_, hmapped.mem_jobs.mpr ⟨current, hcurrentMem, rfl⟩,
      (hmapped.jobIds current).trans hcurrentId⟩ fun job' hjob' hid => ?_
    obtain ⟨job, -, rfl⟩ := hmapped.mem_jobs.mp hjob'
    rw [hmapped.jobIds] at hid
    rw [onJob, if_pos hid]
    cases action <;> first | rfl | cases hrestarts

end Changes

end Goodmoneying.Analysis.Backfill
