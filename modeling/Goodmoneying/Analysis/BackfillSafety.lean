import Goodmoneying.Analysis.BackfillSteps
import Goodmoneying.Library.ConditionalRun

/-!
# The backfill job machine under concurrency

Workers lock the rows of a job before they decide about it; a control command decides by a status
that it has read before, which may miss that the job has succeeded since. In a run in which no
command writes to such a job (`CommandFresh`), every step is safe (`MachineSafe`); a command that
does so takes the job out of `succeeded` again (`stale_pause_reopens`).
-/

namespace Goodmoneying.Analysis.Backfill

open Library Program Program.Backfill
open Goodmoneying.Program.CandleLedger (InstrumentCandle)

variable {job job' : BackfillJob} {call : WriteCall} {targetMap : BackfillTarget → BackfillTarget}
  {db db' : BackfillTables} {jobId : ℤ} {event : BackfillEvent} {ar : Arithmetic}
  {sha256 : String → String} {start : BackfillState}
variable {now : Instant} {jobMap : BackfillJob → BackfillJob} {events : List BackfillEvent}

/-! ## What is safe -/

/-- The attempts of a job are within its budget. -/
def AttemptsInRange (job : BackfillJob) : Prop :=
  0 ≤ job.attemptCount ∧ job.attemptCount ≤ job.maxAttempts

/-- A job has a target, and its targets are finished. -/
def TargetsFinished (db : BackfillTables) (jobId : ℤ) : Prop :=
  db.targetsOf jobId ≠ [] ∧
  ∀ target ∈ db.targetsOf jobId, target.status = .succeeded ∨ target.status = .stopped

/-- What no step takes from a job. -/
structure JobKeeps (job job' : BackfillJob) : Prop where
  succeeded : job.status = .succeeded → job'.status = .succeeded
  attempts : AttemptsInRange job → AttemptsInRange job'
  released : job.status = .running → job'.status ≠ .running →
    job'.leaseOwner = none ∧ job'.leaseExpiresAt = none

/-- Who may change a target: a worker that holds the lease of its job, a claim that moves its
exhausted job to the dead letters, or the command of an operator. -/
inductive TargetWriter (state : BackfillState) (event : BackfillEvent) (target : BackfillTarget) :
    Prop
  | worker (call : WriteCall) (hwrite : event.write? = some call)
      (hjob : call.jobId = target.backfillJobId)
      (hheld : ∃ job target, LeaseHeld state.tables call job target)
  | sweep (call : ClaimCall) (hclaim : event = .claim call) (job : BackfillJob)
      (hjob : job ∈ state.tables.jobs.rows) (hid : target.backfillJobId = job.id)
      (hexhausted : exhaustedJob call.claimedAt job = true)
  | operator (control : ℕ) (action : ControlAction) (hcontrol : event = .controlWrite control)
      (hcommand : state.controls control = some (target.backfillJobId, action))

/-- A safe step of the machine. -/
structure MachineSafe (ar : Arithmetic) (sha256 : String → String) (state : BackfillState)
    (event : BackfillEvent) : Prop where
  /-- No job is lost, and none leaves `succeeded`, its budget of attempts or, with a lease,
  `running`. -/
  kept : ∀ job ∈ state.tables.jobs.rows,
    ∃ job' ∈ (state.after ar sha256 event).tables.jobs.rows, job'.id = job.id ∧ JobKeeps job job'
  attempts : ∀ job ∈ (state.after ar sha256 event).tables.jobs.rows, AttemptsInRange job
  /-- A job that succeeds has targets, and they are finished. -/
  earned : ∀ job ∈ state.tables.jobs.rows,
    ∀ job' ∈ (state.after ar sha256 event).tables.jobs.rows, job'.id = job.id →
      job.status ≠ .succeeded → job'.status = .succeeded →
        TargetsFinished (state.after ar sha256 event).tables job.id
  /-- A write without the lease raises and changes nothing. -/
  refused : ∀ call, event.write? = some call →
    (¬ ∃ job target, LeaseHeld state.tables call job target) →
      (∃ error, state.attempt ar sha256 event = .error error) ∧
        state.after ar sha256 event = state
  /-- Candles are written under the lease. -/
  recorded : (state.after ar sha256 event).tables.candles ≠ state.tables.candles ∨
      (state.after ar sha256 event).tables.results ≠ state.tables.results →
    ∃ call, event.write? = some call ∧ ∃ job target, LeaseHeld state.tables call job target
  /-- Targets are written by those who may. -/
  written : ∀ target ∈ state.tables.targets.rows,
    ∀ target' ∈ (state.after ar sha256 event).tables.targets.rows, target'.key = target.key →
      target' ≠ target → TargetWriter state event target

/-- A command that writes does not write to a job that has succeeded. -/
def CommandFresh (state : BackfillState) : BackfillEvent → Prop
  | .controlWrite control => ∀ jobId action, state.controls control = some (jobId, action) →
      ∀ job ∈ state.tables.jobs.rows, job.id = jobId → job.status ≠ .succeeded
  | _ => True

/-! ## One job -/

theorem JobKeeps.refl (job : BackfillJob) : JobKeeps job job :=
  ⟨id, id, fun hrunning hnot => absurd hrunning hnot⟩

theorem JobKeeps.of_buried (hopen : job.status ≠ .succeeded) (h : JobBuried job job') :
    JobKeeps job job' where
  succeeded hsucceeded := absurd hsucceeded hopen
  attempts hrange := by
    unfold AttemptsInRange
    rw [h.attempts, h.maxAttempts]
    exact hrange
  released _ _ := ⟨h.owner, h.expiry⟩

theorem exhausted_not_succeeded (h : exhaustedJob now job = true) : job.status ≠ .succeeded := by
  intro hsucceeded
  simp [exhaustedJob, hsucceeded] at h

theorem claimable_spec (h : claimableJob now job = true) :
    job.attemptCount < job.maxAttempts ∧ job.status ≠ .succeeded := by
  simp only [claimableJob, Bool.and_eq_true, decide_eq_true_eq] at h
  refine ⟨h.1, fun hsucceeded => ?_⟩
  simp [hsucceeded] at h

theorem JobKeeps.of_claim {call : ClaimCall} (h : claimableJob call.claimedAt job = true) :
    JobKeeps job (claimJob call job) := by
  obtain ⟨hattempts, hopen⟩ := claimable_spec h
  exact {
    succeeded := fun hsucceeded => absurd hsucceeded hopen
    attempts := fun hrange => ⟨Int.add_nonneg hrange.1 Int.one_nonneg, hattempts⟩
    released := fun _ hnot => absurd rfl hnot }

/-- A claim keeps what is asked of its jobs. -/
theorem ClaimedJob.keeps {call : ClaimCall} (h : ClaimedJob call targetMap job job') :
    JobKeeps job job' := by
  cases h with
  | kept hsame _ => exact hsame ▸ JobKeeps.refl job
  | buried hexhausted hburied _ => exact .of_buried (exhausted_not_succeeded hexhausted) hburied
  | claimed hclaimable hclaimed _ => exact hclaimed ▸ .of_claim hclaimable

/-- A claim finishes no job. -/
theorem ClaimedJob.unfinished {call : ClaimCall} (h : ClaimedJob call targetMap job job')
    (hfinished : job'.status = .succeeded) : job.status = .succeeded := by
  cases h with
  | kept hsame _ => exact hsame ▸ hfinished
  | buried _ hburied _ => rw [hburied.status] at hfinished; cases hfinished
  | claimed _ hclaimed _ => rw [hclaimed] at hfinished; cases hfinished

theorem not_settled {status : JobStatus} (h : status.settled = false) :
    status ≠ .succeeded ∧ status ≠ .paused := by
  constructor <;> rintro rfl <;> simp [JobStatus.settled] at h

/-- A job takes one of three statuses from its targets. -/
theorem statusOfTargets_cases (targets : List BackfillTarget) :
    statusOfTargets targets = .running ∨ statusOfTargets targets = .paused ∨
    statusOfTargets targets = .succeeded ∧ ∀ target ∈ targets,
      target.status = .succeeded ∨ target.status = .stopped := by
  unfold statusOfTargets
  split_ifs with hactive hpaused hfinished
  · exact .inl rfl
  · exact .inr (.inl rfl)
  · exact .inr (.inr ⟨rfl, by simpa using hfinished⟩)
  · exact .inl rfl

theorem JobKeeps.of_status (hopen : job.status ≠ .succeeded) (targets : List BackfillTarget)
    (now : Instant) : JobKeeps job (setJobStatus (statusOfTargets targets) now job) where
  succeeded hsucceeded := absurd hsucceeded hopen
  attempts hrange := hrange
  released _ hnot := by
    rcases statusOfTargets_cases targets with h | h | ⟨h, -⟩
    · exact absurd h hnot
    · simp [setJobStatus, h]
    · simp [setJobStatus, h]

theorem JobKeeps.of_retry (hopen : job.status ≠ .succeeded) (retryAt : Instant)
    (errorCode : Option String) : JobKeeps job (waitForRetry retryAt errorCode job) where
  succeeded hsucceeded := absurd hsucceeded hopen
  attempts hrange := hrange
  released _ _ := ⟨rfl, rfl⟩

theorem JobKeeps.of_control (hopen : job.status ≠ .succeeded) (action : ControlAction) :
    JobKeeps job (controlJob action job) where
  succeeded hsucceeded := absurd hsucceeded hopen
  attempts hrange := by
    simp only [AttemptsInRange, controlJob]
    split_ifs
    · exact ⟨le_refl 0, hrange.1.trans hrange.2⟩
    · exact hrange
  released _ _ := ⟨rfl, rfl⟩

theorem controlJob_unfinished (action : ControlAction) (job : BackfillJob) :
    (controlJob action job).status ≠ .succeeded := by
  cases action <;> exact nofun

/-! ## One step -/

/-- The jobs are kept, and those that succeed have earned it. -/
structure JobsSafe (db db' : BackfillTables) : Prop where
  kept : ∀ job ∈ db.jobs.rows, ∃ job' ∈ db'.jobs.rows, job'.id = job.id ∧ JobKeeps job job'
  attempts : (∀ job ∈ db.jobs.rows, AttemptsInRange job) →
    ∀ job' ∈ db'.jobs.rows, AttemptsInRange job'
  earned : ∀ job ∈ db.jobs.rows, ∀ job' ∈ db'.jobs.rows, job'.id = job.id →
    job.status ≠ .succeeded → job'.status = .succeeded → TargetsFinished db' job.id

theorem RowsMapped.jobsSafe (h : RowsMapped db db' jobMap targetMap)
    (hkeeps : ∀ job ∈ db.jobs.rows, JobKeeps job (jobMap job)) (hearned : ∀ job ∈ db.jobs.rows,
      job.status ≠ .succeeded → (jobMap job).status = .succeeded → TargetsFinished db' job.id) :
    JobsSafe db db' where
  kept job hjob := ⟨jobMap job, h.mem_jobs.mpr ⟨job, hjob, rfl⟩, h.jobIds job, hkeeps job hjob⟩
  attempts hrange job' hjob' := by
    obtain ⟨job, hjob, rfl⟩ := h.mem_jobs.mp hjob'
    exact (hkeeps job hjob).attempts (hrange job hjob)
  earned job hjob job' hjob' hid hopen hfinished := by
    rw [h.job_eq hjob hjob' hid] at hfinished
    exact hearned job hjob hopen hfinished

/-- A change of one job that does not finish it. -/
theorem RowsMapped.jobsSafe_onJob {change : BackfillJob → BackfillJob}
    (h : RowsMapped db db' (onJob jobId change) targetMap)
    (hkeeps : ∀ job ∈ db.jobs.rows, job.id = jobId → JobKeeps job (change job)) (hearned : ∀ job ∈
      db.jobs.rows, job.id = jobId → (change job).status = .succeeded → TargetsFinished db' jobId) :
    JobsSafe db db' := by
  refine h.jobsSafe (fun job hjob => ?_) fun job hjob hopen hfinished => ?_
  · unfold onJob
    split_ifs with hid
    · exact hkeeps job hjob hid
    · exact .refl job
  · unfold onJob at hfinished
    split_ifs at hfinished with hid
    · exact hid ▸ hearned job hjob hid hfinished
    · exact absurd hfinished hopen

theorem JobsSafe.refl (db : BackfillTables) : JobsSafe db db :=
  (RowsMapped.refl db).jobsSafe (fun job _ => .refl job) fun _ _ hopen hfinished =>
    absurd hfinished hopen

theorem claim_jobsSafe (db : BackfillTables) (call : ClaimCall) :
    JobsSafe db (claimNextBackfillJob db call).2 := by
  obtain ⟨jobMap, targetMap, h⟩ := claim_mapped db call
  exact h.mapped.jobsSafe (fun job hjob => (h.jobs job hjob).keeps)
    fun job hjob hopen hfinished => absurd ((h.jobs job hjob).unfinished hfinished) hopen

theorem renew_jobsSafe (h : RowsMapped db db' id targetMap) :
    JobsSafe db (renewBackfillLease db' call) := by
  refine (h.trans (renewBackfillLease_mapped db' call)).jobsSafe (fun job _ => ?_)
    fun job _ hopen hfinished => ?_
  · simp only [Function.comp_apply, id_eq]
    split_ifs with hheld
    · exact ⟨fun hsucceeded => hsucceeded, fun hrange => hrange,
        fun _ hnot => absurd hheld.2.1 hnot⟩
    · exact .refl job
  · simp only [Function.comp_apply, id_eq] at hfinished
    split_ifs at hfinished <;> exact absurd hfinished hopen

/-- A refresh of the progress is safe for every job. -/
theorem refresh_jobsSafe (db : BackfillTables) (jobId : ℤ) (call : RefreshCall) :
    JobsSafe db (refreshBackfillJobProgress db jobId call) := by
  rcases refresh_cases db jobId call with h | ⟨job, hjob, rfl, hsettled, h⟩
  · rw [h]
    exact JobsSafe.refl db
  · have hopen := (not_settled hsettled).1
    have hrow : ∀ row ∈ db.jobs.rows, row.id = job.id → row = job :=
      fun row hrow hid => IdentityTable.eq_of_key hrow hjob hid
    cases h with
    | retried retryAt errorCode _ hmapped =>
      refine hmapped.jobsSafe_onJob (fun row hmem hid => ?_) fun _ _ _ hfinished => ?_
      · exact hrow row hmem hid ▸ .of_retry hopen retryAt errorCode
      · cases hfinished
    | buried errorCode reason detectedAt hmapped =>
      refine hmapped.jobsSafe_onJob (fun row hmem hid => ?_) fun _ _ _ hfinished => ?_
      · exact hrow row hmem hid ▸ .of_buried hopen (deadLetterJob_buried ..)
      · cases hfinished
    | followed now htargets _ hmapped =>
      refine hmapped.jobsSafe_onJob (fun row hmem hid => ?_) fun row _ _ hfinished => ?_
      · exact hrow row hmem hid ▸ .of_status hopen _ now
      · -- the targets are the same before and after
        have hsame : (refreshBackfillJobProgress db job.id call).targetsOf job.id =
            db.targetsOf job.id := by
          simp only [BackfillTables.targetsOf, hmapped.targets, List.map_id]
        unfold TargetsFinished
        rw [hsame]
        rcases statusOfTargets_cases (db.targetsOf job.id) with h | h | ⟨-, h⟩
        · cases h.symm.trans hfinished
        · cases h.symm.trans hfinished
        · exact ⟨htargets, h⟩

theorem controlWrite_jobsSafe (action : ControlAction)
    (hfresh : ∀ job ∈ db.jobs.rows, job.id = jobId → job.status ≠ .succeeded) :
    JobsSafe db (controlWrite db jobId action) :=
  (controlWrite_mapped db jobId action).jobsSafe_onJob
    (fun job hjob hid => .of_control (hfresh job hjob hid) action)
    fun job _ _ hfinished => absurd hfinished (controlJob_unfinished action job)

/-! ## The targets of one job -/

/-- Targets of other jobs stay as they are. -/
def OnlyTargetsOf (db db' : BackfillTables) (jobId : ℤ) : Prop :=
  ∀ target ∈ db.targets.rows, ∀ target' ∈ db'.targets.rows, target'.key = target.key →
    target' ≠ target → jobId = target.backfillJobId

theorem RowsMapped.onlyTargetsOf (h : RowsMapped db db' jobMap targetMap)
    (hother : ∀ target, jobId ≠ target.backfillJobId → targetMap target = target) :
    OnlyTargetsOf db db' jobId := by
  intro target htarget target' htarget' hkey hne
  by_contra hjob
  rw [h.target_eq htarget htarget' hkey, hother target hjob] at hne
  exact hne rfl

theorem onTarget_of_ne {change : BackfillTarget → BackfillTarget} {target : BackfillTarget}
    (h : call.jobId ≠ target.backfillJobId) : onTarget call change target = target :=
  if_neg fun hkey => h (congrArg Prod.fst hkey).symm

theorem refresh_mapped (db : BackfillTables) (jobId : ℤ) (call : RefreshCall) : ∃ jobMap targetMap,
      RowsMapped db (refreshBackfillJobProgress db jobId call) jobMap targetMap ∧
      ∀ target, jobId ≠ target.backfillJobId → targetMap target = target := by
  rcases refresh_cases db jobId call with h | ⟨job, -, rfl, -, h⟩
  · exact ⟨id, id, by rw [h]; exact RowsMapped.refl db, fun _ _ => rfl⟩
  · cases h with
    | retried _ _ _ hmapped =>
      exact ⟨_, _, hmapped, fun target hne => by simp [onTargets, hne.symm]⟩
    | buried _ _ _ hmapped =>
      exact ⟨_, _, hmapped, fun target hne => deadLetterTargets_of_ne hne.symm⟩
    | followed _ _ _ hmapped => exact ⟨_, _, hmapped, fun _ _ => rfl⟩

/-! ## The writes of a worker -/

/-- What a write under the lease does. -/
structure WriteSafe (db db' : BackfillTables) (call : WriteCall) : Prop where
  jobs : JobsSafe db db'
  targets : OnlyTargetsOf db db' call.jobId

section Writes

variable {ar : Arithmetic} {sha256 : String → String} {db db' : BackfillTables} {call : WriteCall}

theorem recordBackfillCandles_ok {marketId : ℤ → String → Option ℤ}
    {candles : List InstrumentCandle}
    (h : recordBackfillCandles ar sha256 db call marketId candles = .ok db') :
    assertBackfillWriteLease db call = .ok () ∧ WriteSafe db db' call := by
  obtain ⟨hlease, rfl⟩ := recordBackfillCandles_eq_ok h
  have hstored := storeBackfillCandles_mapped ar sha256 db call marketId candles
  refine ⟨hlease, renew_jobsSafe hstored,
    (hstored.trans (renewBackfillLease_mapped _ call)).onlyTargetsOf fun target hne => ?_⟩
  simp [onTargets, hne.symm]

theorem recordBackfillTargetProgress_ok {progress : TargetProgress}
    (h : recordBackfillTargetProgress db call progress = .ok db') :
    assertBackfillWriteLease db call = .ok () ∧ WriteSafe db db' call := by
  obtain ⟨⟨⟩, hlease, h⟩ := bind_eq_ok.mp h
  obtain rfl := pure_eq_ok.mp h
  have hset := updateTarget_mapped db call (setProgress progress) fun _ => rfl
  exact ⟨hlease, renew_jobsSafe hset,
    (hset.trans (renewBackfillLease_mapped _ call)).onlyTargetsOf fun target hne =>
      onTarget_of_ne hne⟩

theorem markBackfillTarget_ok {mark : TargetMark} {refresh : RefreshCall}
    (h : markBackfillTarget db call mark refresh = .ok db') :
    assertBackfillWriteLease db call = .ok () ∧ WriteSafe db db' call := by
  obtain ⟨⟨⟩, hlease, h⟩ := bind_eq_ok.mp h
  obtain rfl := pure_eq_ok.mp h
  have hset := updateTarget_mapped db call (setMark mark) fun _ => rfl
  have hjobs := refresh_jobsSafe (db.updateTargets (fun target =>
    target.backfillJobId = call.jobId && target.instrumentId = call.instrumentId)
    (setMark mark) fun _ => rfl) call.jobId refresh
  obtain ⟨jobMap, targetMap, hmapped, hother⟩ := refresh_mapped (db.updateTargets (fun target =>
    target.backfillJobId = call.jobId && target.instrumentId = call.instrumentId)
    (setMark mark) fun _ => rfl) call.jobId refresh
  refine ⟨hlease, ⟨hjobs.kept, hjobs.attempts, hjobs.earned⟩,
    (hset.trans hmapped).onlyTargetsOf fun target hne => ?_⟩
  rw [Function.comp_apply, onTarget_of_ne hne, hother target hne]

end Writes

/-! ## Every step and every run -/

section Steps

variable {ar : Arithmetic} {sha256 : String → String} {state : BackfillState}

theorem after_of_ok {state' : BackfillState} (h : state.attempt ar sha256 event = .ok state') :
    state.after ar sha256 event = state' := by
  simp [BackfillState.after, h]

theorem after_of_error {error : BackfillError} (h : state.attempt ar sha256 event = .error error) :
    state.after ar sha256 event = state := by
  simp [BackfillState.after, h]

/-- A step that leaves the tables as they are. -/
theorem machineSafe_of_tables_eq (hattempts : ∀ job ∈ state.tables.jobs.rows, AttemptsInRange job)
    (hrefused : ∀ call, event.write? = some call → ∃ error, state.attempt ar sha256 event = .error
      error) (h : (state.after ar sha256 event).tables = state.tables) :
    MachineSafe ar sha256 state event where
  kept job hjob := ⟨job, h ▸ hjob, rfl, .refl job⟩
  attempts job hjob := hattempts job (h ▸ hjob)
  earned job hjob job' hjob' hid hopen hfinished := by
    rw [h] at hjob'
    exact absurd (IdentityTable.eq_of_key hjob' hjob hid ▸ hfinished) hopen
  refused call hwrite _ := by
    obtain ⟨error, herror⟩ := hrefused call hwrite
    exact ⟨⟨error, herror⟩, after_of_error herror⟩
  recorded hchanged := by simp [h] at hchanged
  written target htarget target' htarget' hkey hne := by
    rw [h] at htarget'
    exact absurd (KeyedTable.eq_of_key htarget' htarget hkey) hne

/-- A write of a worker that is not refused. -/
theorem machineSafe_of_write (hattempts : ∀ job ∈ state.tables.jobs.rows, AttemptsInRange job)
    (hwrite : event.write? = some call)
    (hok : state.attempt ar sha256 event = .ok (state.withTables db'))
    (hlease : assertBackfillWriteLease state.tables call = .ok ())
    (hsafe : WriteSafe state.tables db' call) : MachineSafe ar sha256 state event := by
  have hheld := assertBackfillWriteLease_ok.mp hlease
  have hafter : (state.after ar sha256 event).tables = db' := by rw [after_of_ok hok]; rfl
  exact {
    kept := hafter ▸ hsafe.jobs.kept
    attempts := hafter ▸ hsafe.jobs.attempts hattempts
    earned := hafter ▸ hsafe.jobs.earned
    refused := fun call' hwrite' hnot => by
      obtain rfl := Option.some.inj (hwrite.symm.trans hwrite')
      exact absurd hheld hnot
    recorded := fun _ => ⟨call, hwrite, hheld⟩
    written := fun target htarget target' htarget' hkey hne =>
      .worker call hwrite (hsafe.targets target htarget target' (hafter ▸ htarget') hkey hne)
        hheld }

/-- An attempt to write is safe if what it does when it passes is. -/
theorem machineSafe_of_attempt {result : Except BackfillError BackfillTables}
    (hattempts : ∀ job ∈ state.tables.jobs.rows, AttemptsInRange job)
    (hwrite : event.write? = some call)
    (hattempt : state.attempt ar sha256 event = result.map state.withTables) (hok : ∀ db', result =
      .ok db' → assertBackfillWriteLease state.tables call = .ok () ∧ WriteSafe state.tables db'
      call) : MachineSafe ar sha256 state event := by
  cases hresult : result with
  | ok db' =>
    obtain ⟨hlease, hsafe⟩ := hok db' hresult
    exact machineSafe_of_write hattempts hwrite (by rw [hattempt, hresult]; rfl) hlease hsafe
  | error error =>
    have herror : state.attempt ar sha256 event = .error error := by rw [hattempt, hresult]; rfl
    exact machineSafe_of_tables_eq hattempts (fun _ _ => ⟨error, herror⟩)
      (by rw [after_of_error herror])

theorem claim_machineSafe (hattempts : ∀ job ∈ state.tables.jobs.rows, AttemptsInRange job)
    (call : ClaimCall) : MachineSafe ar sha256 state (.claim call) := by
  have hjobs := claim_jobsSafe state.tables call
  obtain ⟨jobMap, targetMap, h⟩ := claim_mapped state.tables call
  exact {
    kept := hjobs.kept
    attempts := hjobs.attempts hattempts
    earned := hjobs.earned
    refused := fun _ hwrite => nomatch hwrite
    recorded := fun hchanged => by
      rcases hchanged with hchanged | hchanged
      · exact absurd h.candles hchanged
      · exact absurd h.results hchanged
    written := fun target htarget target' htarget' hkey hne => by
      rcases h.targets target with hsame | ⟨-, job, hjob, hid, hexhausted⟩
      · exact absurd ((h.mapped.target_eq htarget htarget' hkey).trans hsame) hne
      · exact .sweep call rfl job hjob hid hexhausted }

/-- A control command that finds the status it has read is safe. -/
theorem controlWrite_machineSafe {control : ℕ}
    (hattempts : ∀ job ∈ state.tables.jobs.rows, AttemptsInRange job)
    (hfresh : CommandFresh state (.controlWrite control)) :
    MachineSafe ar sha256 state (.controlWrite control) := by
  cases hcommand : state.controls control with
  | none =>
    refine machineSafe_of_tables_eq hattempts (fun _ => nofun) ?_
    simp [BackfillState.after, BackfillState.attempt, hcommand]
  | some command =>
    obtain ⟨jobId, action⟩ := command
    have hafter : (state.after ar sha256 (.controlWrite control)).tables =
        controlWrite state.tables jobId action := by
      simp [BackfillState.after, BackfillState.attempt, hcommand]
    have hjobs := controlWrite_jobsSafe action (hfresh jobId action hcommand)
    have honly : OnlyTargetsOf state.tables (controlWrite state.tables jobId action) jobId :=
      (controlWrite_mapped state.tables jobId action).onlyTargetsOf fun target hne => by
        simp [onTargets, hne.symm]
    exact {
      kept := hafter ▸ hjobs.kept
      attempts := hafter ▸ hjobs.attempts hattempts
      earned := hafter ▸ hjobs.earned
      refused := fun _ hwrite => nomatch hwrite
      recorded := fun hchanged => by
        rw [hafter] at hchanged
        exact absurd hchanged (by simp [controlWrite, BackfillTables.setTargetStatus,
          BackfillTables.updateTargets, BackfillTables.updateJobs])
      written := fun target htarget target' htarget' hkey hne =>
        .operator control action rfl (by
          rw [hcommand, honly target htarget target' (hafter ▸ htarget') hkey hne]) }

/-- One step is safe, for every event whose command is fresh. -/
theorem machineSafe_of_fresh (hattempts : ∀ job ∈ state.tables.jobs.rows, AttemptsInRange job)
    (hfresh : CommandFresh state event) : MachineSafe ar sha256 state event := by
  cases event with
  | claim call => exact claim_machineSafe hattempts call
  | recordCandles call marketId candles =>
    exact machineSafe_of_attempt hattempts rfl rfl fun _ => recordBackfillCandles_ok
  | recordProgress call progress =>
    exact machineSafe_of_attempt hattempts rfl rfl fun _ => recordBackfillTargetProgress_ok
  | mark call mark refresh =>
    exact machineSafe_of_attempt hattempts rfl rfl fun _ => markBackfillTarget_ok
  | controlRead control jobId action =>
    refine machineSafe_of_tables_eq hattempts (fun _ => nofun) ?_
    cases h : controlRead state.tables jobId action <;>
      simp [BackfillState.after, BackfillState.attempt, h, Except.map]
  | controlWrite control => exact controlWrite_machineSafe hattempts hfresh

end Steps

/-- Every command of the run that writes is fresh. -/
def CommandsFresh (ar : Arithmetic) (sha256 : String → String) (start : BackfillState)
    (events : List BackfillEvent) : Prop :=
  ∀ before event rest, events = before ++ event :: rest →
    CommandFresh (start.afterEvents ar sha256 before) event

theorem commandsFresh_nil : CommandsFresh ar sha256 start [] := stepsMeet_nil

theorem commandsFresh_cons (hevent : CommandFresh start event)
    (hevents : CommandsFresh ar sha256 (start.after ar sha256 event) events) :
    CommandsFresh ar sha256 start (event :: events) :=
  stepsMeet_cons.mpr ⟨hevent, hevents⟩

/-- The attempts stay in their range throughout a run. -/
theorem afterEvents_attempts (hattempts : ∀ job ∈ start.tables.jobs.rows, AttemptsInRange job)
    (hfresh : CommandsFresh ar sha256 start events) :
    ∀ job ∈ (start.afterEvents ar sha256 events).tables.jobs.rows, AttemptsInRange job := by
  refine @StepsMeet.invariant _ _ _ _ _ _
    (fun state => ∀ job ∈ state.tables.jobs.rows, AttemptsInRange job) hfresh
    (fun state event hrange hevent => ?_) hattempts
  have hstep : MachineSafe ar sha256 state event := machineSafe_of_fresh hrange hevent
  exact hstep.attempts

/-- In a run whose commands are fresh every step is safe.
SOURCE: postgres_repository.py:3086-3169, 3372-3533, 3629-3716, 6216-6345 -/
theorem backfillMachine_safe (ar : Arithmetic) (sha256 : String → String) (start : BackfillState)
    (hattempts : ∀ job ∈ start.tables.jobs.rows, AttemptsInRange job)
    (events : List BackfillEvent) (hfresh : CommandsFresh ar sha256 start events) :
    ∀ before event rest, events = before ++ event :: rest →
      MachineSafe ar sha256 (start.afterEvents ar sha256 before) event := by
  intro before event rest hrun
  have hmeet : StepsMeet (BackfillState.after ar sha256) CommandFresh start
      (before ++ event :: rest) := hrun ▸ hfresh
  exact machineSafe_of_fresh (afterEvents_attempts hattempts hmeet.beginning)
    (hfresh before event rest hrun)

/-! ## A command that comes too late -/

/-- A job at its last target, under the lease of its worker. -/
def finishingJob (id : ℤ) : BackfillJob where
  id := id
  status := .running
  planId := some "plan"
  planTargets := [7]
  targetStartAt := 0
  targetEndAt := 60000000
  idempotencyKey := .manual "plan"
  createdAt := 0
  attemptCount := 1
  leaseOwner := some "worker"
  leaseExpiresAt := some 120000000

def finishingState : BackfillState where
  tables := {
    jobs := (IdentityTable.empty _).insert finishingJob fun _ => rfl
    targets := ⟨[{ backfillJobId := 1, instrumentId := 7, status := .running }],
      List.nodup_singleton _⟩
    candles := .empty
    results := [] }
  controls _ := none

/-- The worker has finished the target. -/
def finishTarget : BackfillEvent :=
  .mark ⟨"worker", 1, 7, 1000000, 1000000⟩ ⟨.succeeded, none, none, none⟩ ⟨1000000, 1000000, none⟩

theorem finishingState_attempts : ∀ job ∈ finishingState.tables.jobs.rows, AttemptsInRange job := by
  intro job hjob
  obtain rfl : job = finishingJob 1 := List.mem_singleton.mp hjob
  exact ⟨by decide, by decide⟩

/-- A command that pauses the job before the worker marks its target. -/
theorem backfillMachine_safe_paused :
    MachineSafe .default id finishingState (.controlRead 0 1 .pause) ∧
    MachineSafe .default id (finishingState.afterEvents .default id [.controlRead 0 1 .pause])
      (.controlWrite 0) ∧
    MachineSafe .default id
      (finishingState.afterEvents .default id [.controlRead 0 1 .pause, .controlWrite 0])
      finishTarget := by
  have hopen : ∀ job ∈
      (finishingState.after .default id (.controlRead 0 1 .pause)).tables.jobs.rows,
      job.status ≠ .succeeded := by decide
  have hfresh : CommandsFresh .default id finishingState
      [.controlRead 0 1 .pause, .controlWrite 0, finishTarget] :=
    commandsFresh_cons trivial (commandsFresh_cons (fun _ _ _ job hjob _ => hopen job hjob)
      (commandsFresh_cons trivial commandsFresh_nil))
  have hsafe := backfillMachine_safe .default id finishingState finishingState_attempts _ hfresh
  exact ⟨hsafe [] _ _ rfl, hsafe [_] _ _ rfl, hsafe [_, _] _ _ rfl⟩

/-- A command reads that the job runs, the worker finishes the job, and the command pauses it. -/
theorem stale_pause_reopens : (∀ job ∈ finishingState.tables.jobs.rows, AttemptsInRange job) ∧
    (finishingState.afterEvents .default id
      [.controlRead 0 1 .pause, finishTarget]).tables.jobs.rows.map
        BackfillJob.status = [.succeeded] ∧
    (finishingState.afterEvents .default id
      [.controlRead 0 1 .pause, finishTarget, .controlWrite 0]).tables.jobs.rows.map
        BackfillJob.status = [.paused] ∧
    ¬ MachineSafe .default id
      (finishingState.afterEvents .default id [.controlRead 0 1 .pause, finishTarget])
      (.controlWrite 0) := by
  refine ⟨finishingState_attempts, by decide, by decide, fun hsafe => ?_⟩
  have hleft : ∀ job ∈ (finishingState.afterEvents .default id
      [.controlRead 0 1 .pause, finishTarget, .controlWrite 0]).tables.jobs.rows,
      job.status ≠ .succeeded := by decide
  have hsucceeded : ∀ job ∈ (finishingState.afterEvents .default id
      [.controlRead 0 1 .pause, finishTarget]).tables.jobs.rows,
      job.status = .succeeded := by decide
  have hrow : ∃ job, job ∈ (finishingState.afterEvents .default id
      [.controlRead 0 1 .pause, finishTarget]).tables.jobs.rows :=
    List.exists_mem_of_ne_nil _ (by decide)
  obtain ⟨job, hjob⟩ := hrow
  obtain ⟨job', hjob', -, hkeeps⟩ := hsafe.kept job hjob
  exact hleft job' hjob' (hkeeps.succeeded (hsucceeded job hjob))

end Goodmoneying.Analysis.Backfill
