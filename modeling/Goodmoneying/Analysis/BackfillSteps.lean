import Goodmoneying.Program.BackfillJobs

/-!
# What a transaction does to the backfill tables

No function removes a row, and those that insert none are maps of the rows of both tables
(`RowsMapped`). For each function its two maps are given here, and the conditions under which it
runs: what a worker's lease was checked for, which job a claim took, and which of three ends a
refreshed job comes to (`refresh_cases`).
-/

namespace Goodmoneying.Analysis.Backfill

open List Library Program Program.Backfill
open Goodmoneying.Program.CandleLedger (InstrumentCandle)

variable {jobId : ℤ} {db : BackfillTables} {job' job : BackfillJob}
  {target' target : BackfillTarget}
variable (call : ClaimCall) (rows : List BackfillJob)

/-! ## Maps of the rows -/

/-- The change of one job. -/
def onJob (jobId : ℤ) (change : BackfillJob → BackfillJob) (job : BackfillJob) : BackfillJob :=
  if job.id = jobId then change job else job

/-- The targets that satisfy `p` get a status. -/
def onTargets (p : BackfillTarget → Bool) (status : TargetStatus) (target : BackfillTarget) :
    BackfillTarget :=
  if p target then { target with status := status } else target

/-- The rows of both tables are changed one by one. -/
structure RowsMapped (db db' : BackfillTables) (jobMap : BackfillJob → BackfillJob)
    (targetMap : BackfillTarget → BackfillTarget) : Prop where
  jobs : db'.jobs.rows = db.jobs.rows.map jobMap
  targets : db'.targets.rows = db.targets.rows.map targetMap
  jobIds : ∀ job, (jobMap job).id = job.id
  targetKeys : ∀ target, (targetMap target).key = target.key

theorem onJob_id {change : BackfillJob → BackfillJob} (hkey : ∀ job, (change job).id = job.id)
    (job : BackfillJob) : (onJob jobId change job).id = job.id := by
  unfold onJob
  split_ifs
  · exact hkey job
  · rfl

theorem onTargets_key (p : BackfillTarget → Bool) (status : TargetStatus)
    (target : BackfillTarget) : (onTargets p status target).key = target.key := by
  unfold onTargets
  split_ifs <;> rfl

theorem RowsMapped.refl (db : BackfillTables) : RowsMapped db db id id :=
  ⟨(map_id _).symm, (map_id _).symm, fun _ => rfl, fun _ => rfl⟩

theorem RowsMapped.trans {db' db'' : BackfillTables} {jobMap jobMap' : BackfillJob → BackfillJob}
    {targetMap targetMap' : BackfillTarget → BackfillTarget}
    (h : RowsMapped db db' jobMap targetMap) (h' : RowsMapped db' db'' jobMap' targetMap') :
    RowsMapped db db'' (jobMap' ∘ jobMap) (targetMap' ∘ targetMap) where
  jobs := by rw [h'.jobs, h.jobs, map_map]
  targets := by rw [h'.targets, h.targets, map_map]
  jobIds job := (h'.jobIds _).trans (h.jobIds job)
  targetKeys target := (h'.targetKeys _).trans (h.targetKeys target)

namespace RowsMapped

variable {db db' : BackfillTables} {jobMap : BackfillJob → BackfillJob}
  {targetMap : BackfillTarget → BackfillTarget}

theorem mem_jobs (h : RowsMapped db db' jobMap targetMap) :
    job' ∈ db'.jobs.rows ↔ ∃ job ∈ db.jobs.rows, jobMap job = job' := by
  rw [h.jobs, mem_map]

theorem mem_targets (h : RowsMapped db db' jobMap targetMap) :
    target' ∈ db'.targets.rows ↔ ∃ target ∈ db.targets.rows, targetMap target = target' := by
  rw [h.targets, mem_map]

/-- The row of a job after the change. -/
theorem job_eq (h : RowsMapped db db' jobMap targetMap) (hjob : job ∈ db.jobs.rows)
    (hjob' : job' ∈ db'.jobs.rows) (hid : job'.id = job.id) : job' = jobMap job := by
  obtain ⟨old, hold, rfl⟩ := h.mem_jobs.mp hjob'
  rw [IdentityTable.eq_of_key hold hjob ((h.jobIds old).symm.trans hid)]

/-- The row of a target after the change. -/
theorem target_eq (h : RowsMapped db db' jobMap targetMap) (htarget : target ∈ db.targets.rows)
    (htarget' : target' ∈ db'.targets.rows) (hkey : target'.key = target.key) :
    target' = targetMap target := by
  obtain ⟨old, hold, rfl⟩ := h.mem_targets.mp htarget'
  rw [KeyedTable.eq_of_key hold htarget ((h.targetKeys old).symm.trans hkey)]

theorem target_job (h : RowsMapped db db' jobMap targetMap) (target : BackfillTarget) :
    (targetMap target).backfillJobId = target.backfillJobId :=
  congrArg Prod.fst (h.targetKeys target)

theorem target_instrument (h : RowsMapped db db' jobMap targetMap) (target : BackfillTarget) :
    (targetMap target).instrumentId = target.instrumentId :=
  congrArg Prod.snd (h.targetKeys target)

end RowsMapped

theorem updateJobs_mapped (db : BackfillTables) (jobId : ℤ) (change : BackfillJob → BackfillJob)
    (hkey : ∀ job, (change job).id = job.id) :
    RowsMapped db (db.updateJobs (fun job => job.id = jobId) change hkey) (onJob jobId change)
      id where
  jobs := by
    simp only [BackfillTables.updateJobs, IdentityTable.update_rows, decide_eq_true_eq]
    rfl
  targets := (map_id _).symm
  jobIds := onJob_id hkey
  targetKeys _ := rfl

theorem setTargetStatus_mapped (db : BackfillTables) (p : BackfillTarget → Bool)
    (status : TargetStatus) :
    RowsMapped db (db.setTargetStatus p status) id (onTargets p status) where
  jobs := (map_id _).symm
  targets := rfl
  jobIds _ := rfl
  targetKeys := onTargets_key p status

/-! ## Rows by their ids -/

theorem job?_eq_some : db.job? jobId = some job ↔ job ∈ db.jobs.rows ∧ job.id = jobId := by
  constructor
  · intro h
    have hfound : decide (job.id = jobId) = true :=
      List.find?_some (p := fun row : BackfillJob => decide (row.id = jobId)) h
    exact ⟨mem_of_find?_eq_some h, of_decide_eq_true hfound⟩
  · rintro ⟨hjob, hid⟩
    cases hfind : db.job? jobId with
    | none =>
      have hnone := List.find?_eq_none.mp hfind job hjob
      simp [hid] at hnone
    | some other =>
      have hfound : decide (other.id = jobId) = true :=
        List.find?_some (p := fun row : BackfillJob => decide (row.id = jobId)) hfind
      rw [IdentityTable.eq_of_key (mem_of_find?_eq_some hfind) hjob
        ((of_decide_eq_true hfound).trans hid.symm)]

theorem mem_targetsOf :
    target ∈ db.targetsOf jobId ↔ target ∈ db.targets.rows ∧ target.backfillJobId = jobId := by
  simp [BackfillTables.targetsOf]

/-! ## Dead letters -/

/-- The move of a job to the dead letters. -/
def deadLetterTargets (jobId : ℤ) : BackfillTarget → BackfillTarget :=
  onTargets (fun target => target.backfillJobId = jobId && target.status.unsettled) .failed

theorem moveBackfillJobToDeadLetter_mapped (db : BackfillTables) (jobId : ℤ)
    (errorCode : Option String) (reason : String) (detectedAt : Instant) :
    RowsMapped db (moveBackfillJobToDeadLetter db jobId errorCode reason detectedAt)
      (onJob jobId (deadLetterJob errorCode reason detectedAt)) (deadLetterTargets jobId) :=
  (updateJobs_mapped db jobId _ _).trans (setTargetStatus_mapped _ _ _)

/-! ## Claims -/

/-- What the moves to the dead letters of a claim make of a job. -/
def buriedJob (job : BackfillJob) : BackfillJob :=
  rows.foldl (fun job row => onJob row.id (deadLetterJob row.lastErrorCode
    "backfill attempt budget exhausted before claim" call.detectedAt) job) job

/-- What they make of a target. -/
def buriedTarget (target : BackfillTarget) : BackfillTarget :=
  rows.foldl (fun target row => deadLetterTargets row.id target) target

theorem foldl_buryExhausted_mapped (db : BackfillTables) :
    RowsMapped db (rows.foldl (buryExhausted call) db) (buriedJob call rows)
      (buriedTarget rows) := by
  induction rows generalizing db with
  | nil => exact RowsMapped.refl db
  | cons row rows ih => exact (moveBackfillJobToDeadLetter_mapped db row.id _ _ _).trans (ih _)

/-- A job after its move to the dead letters. -/
structure JobBuried (job job' : BackfillJob) : Prop where
  status : job'.status = .deadLetter
  owner : job'.leaseOwner = none
  expiry : job'.leaseExpiresAt = none
  attempts : job'.attemptCount = job.attemptCount
  maxAttempts : job'.maxAttempts = job.maxAttempts

theorem deadLetterJob_buried (errorCode : Option String) (reason : String) (detectedAt : Instant)
    (job : BackfillJob) : JobBuried job (deadLetterJob errorCode reason detectedAt job) :=
  ⟨rfl, rfl, rfl, rfl, rfl⟩

theorem JobBuried.trans {job'' : BackfillJob} (h : JobBuried job job') (h' : JobBuried job' job'') :
    JobBuried job job'' :=
  ⟨h'.status, h'.owner, h'.expiry, h'.attempts.trans h.attempts,
    h'.maxAttempts.trans h.maxAttempts⟩

/-- A job is moved to the dead letters if its row is listed, and otherwise left alone. -/
theorem buriedJob_cases (job : BackfillJob) :
    job.id ∉ rows.map BackfillJob.id ∧ buriedJob call rows job = job ∨
      job.id ∈ rows.map BackfillJob.id ∧ JobBuried job (buriedJob call rows job) := by
  induction rows generalizing job with
  | nil => exact .inl ⟨by simp, rfl⟩
  | cons row rows ih =>
    have hstep : buriedJob call (row :: rows) job = buriedJob call rows
      (onJob row.id (deadLetterJob row.lastErrorCode
        "backfill attempt budget exhausted before claim" call.detectedAt) job) := rfl
    rw [hstep]
    by_cases hrow : job.id = row.id
    · have hburied := deadLetterJob_buried row.lastErrorCode
        "backfill attempt budget exhausted before claim" call.detectedAt job
      refine .inr ⟨by simp [hrow], ?_⟩
      rw [onJob, if_pos hrow]
      rcases ih (deadLetterJob row.lastErrorCode
        "backfill attempt budget exhausted before claim" call.detectedAt job) with
        ⟨-, hsame⟩ | ⟨-, hagain⟩
      · rwa [hsame]
      · exact hburied.trans hagain
    · rw [onJob, if_neg hrow]
      rcases ih job with ⟨hnot, hsame⟩ | ⟨hmem, hburied⟩
      · exact .inl ⟨by simp [hrow] at hnot ⊢; exact hnot, hsame⟩
      · exact .inr ⟨mem_cons_of_mem _ hmem, hburied⟩

/-- A target after the move of its job to the dead letters. -/
def TargetBuried (target target' : BackfillTarget) : Prop :=
  target' = if target.status.unsettled then { target with status := .failed } else target

theorem TargetBuried.not_active (h : TargetBuried target target') :
    target'.status.active = false := by
  obtain rfl : target' = _ := h
  cases hstatus : target.status <;> simp [TargetStatus.unsettled, TargetStatus.active, hstatus]

/-- A second move changes nothing. -/
theorem TargetBuried.again {target'' : BackfillTarget} (h : TargetBuried target target')
    (h' : TargetBuried target' target'') : TargetBuried target target'' := by
  obtain rfl : target' = _ := h
  obtain rfl : target'' = _ := h'
  unfold TargetBuried
  split_ifs <;> rfl

theorem deadLetterTargets_buried (h : target.backfillJobId = jobId) :
    TargetBuried target (deadLetterTargets jobId target) := by
  simp [TargetBuried, deadLetterTargets, onTargets, h]

theorem deadLetterTargets_of_ne (h : target.backfillJobId ≠ jobId) :
    deadLetterTargets jobId target = target := by
  simp [deadLetterTargets, onTargets, h]

theorem buriedTarget_cases (target : BackfillTarget) :
    target.backfillJobId ∉ rows.map BackfillJob.id ∧ buriedTarget rows target = target ∨
      target.backfillJobId ∈ rows.map BackfillJob.id ∧
        TargetBuried target (buriedTarget rows target) := by
  induction rows generalizing target with
  | nil => exact .inl ⟨by simp, rfl⟩
  | cons row rows ih =>
    have hstep : buriedTarget (row :: rows) target =
      buriedTarget rows (deadLetterTargets row.id target) := rfl
    rw [hstep]
    by_cases hrow : target.backfillJobId = row.id
    · have hburied := deadLetterTargets_buried hrow
      refine .inr ⟨by simp [hrow], ?_⟩
      rcases ih (deadLetterTargets row.id target) with ⟨-, hsame⟩ | ⟨-, hagain⟩
      · rwa [hsame]
      · exact hburied.again hagain
    · rw [deadLetterTargets_of_ne hrow]
      rcases ih target with ⟨hnot, hsame⟩ | ⟨hmem, hburied⟩
      · exact .inl ⟨by simp [hrow] at hnot ⊢; exact hnot, hsame⟩
      · exact .inr ⟨mem_cons_of_mem _ hmem, hburied⟩

theorem buriedTarget_of_not_mem {rows : List BackfillJob}
    (h : target.backfillJobId ∉ rows.map BackfillJob.id) : buriedTarget rows target = target := by
  rcases buriedTarget_cases rows target with ⟨-, hsame⟩ | ⟨hmem, -⟩
  · exact hsame
  · exact absurd hmem h

/-- The jobs that a claim moves to the dead letters have used up their attempts. -/
theorem exhausted_of_mem {call : ClaimCall} (hjob : job ∈ db.jobs.rows)
    (hmem : job.id ∈ (exhaustedRows db call).map BackfillJob.id) :
    exhaustedJob call.claimedAt job = true := by
  obtain ⟨row, hrow, hid⟩ := mem_map.mp hmem
  obtain ⟨hrow, hexhausted⟩ := mem_filter.mp hrow
  rw [IdentityTable.eq_of_key hrow hjob hid] at hexhausted
  exact (Bool.and_eq_true _ _ ▸ hexhausted).1

theorem claimedRow_spec {call : ClaimCall} (h : claimedRow db call = some job) :
    job ∈ db.jobs.rows ∧ claimableJob call.claimedAt job = true := by
  obtain ⟨hmem, -⟩ := head?_sortedBy h
  obtain ⟨hjob, hclaimable⟩ := mem_filter.mp hmem
  exact ⟨hjob, (Bool.and_eq_true _ _ ▸ hclaimable).1⟩

theorem foldl_buryExhausted_candles (db : BackfillTables) :
    (rows.foldl (buryExhausted call) db).candles = db.candles ∧
      (rows.foldl (buryExhausted call) db).results = db.results := by
  induction rows generalizing db with
  | nil => exact ⟨rfl, rfl⟩
  | cons row rows ih => exact ih _

/-- A claim does nothing, or it moves the exhausted jobs to the dead letters and then takes one
job at most. -/
theorem claim_cases (db : BackfillTables) (call : ClaimCall) :
    claimNextBackfillJob db call = (none, db) ∨
    claimNextBackfillJob db call = (none, sweepExhausted db call) ∨
    ∃ row ∈ (sweepExhausted db call).jobs.rows, claimableJob call.claimedAt row = true ∧
      claimNextBackfillJob db call = (some (claimJob call row),
        (sweepExhausted db call).updateJobs (fun job => job.id = row.id) (claimJob call)
          fun _ => rfl) := by
  unfold claimNextBackfillJob
  split_ifs
  · exact .inl rfl
  · cases hrow : claimedRow (sweepExhausted db call) call with
    | none => exact .inr (.inl (by simp only [hrow]))
    | some row =>
      obtain ⟨hmem, hclaimable⟩ := claimedRow_spec hrow
      exact .inr (.inr ⟨row, hmem, hclaimable, by simp only [hrow]⟩)

/-- What a claim makes of a job and of its targets. -/
inductive ClaimedJob (call : ClaimCall) (targetMap : BackfillTarget → BackfillTarget)
    (job job' : BackfillJob) : Prop
  | kept (hsame : job' = job)
      (htargets : ∀ target, target.backfillJobId = job.id → targetMap target = target)
  | buried (hexhausted : exhaustedJob call.claimedAt job = true) (hburied : JobBuried job job')
      (htargets : ∀ target, target.backfillJobId = job.id →
        TargetBuried target (targetMap target))
  | claimed (hclaimable : claimableJob call.claimedAt job = true)
      (hclaimed : job' = claimJob call job)
      (htargets : ∀ target, target.backfillJobId = job.id → targetMap target = target)

/-- The maps of a claim. -/
structure ClaimMapped (db db' : BackfillTables) (call : ClaimCall)
    (jobMap : BackfillJob → BackfillJob) (targetMap : BackfillTarget → BackfillTarget) :
    Prop where
  mapped : RowsMapped db db' jobMap targetMap
  jobs : ∀ job ∈ db.jobs.rows, ClaimedJob call targetMap job (jobMap job)
  targets : ∀ target, targetMap target = target ∨
    TargetBuried target (targetMap target) ∧ ∃ job ∈ db.jobs.rows,
      target.backfillJobId = job.id ∧ exhaustedJob call.claimedAt job = true
  candles : db'.candles = db.candles
  results : db'.results = db.results

theorem ClaimMapped.refl (db : BackfillTables) (call : ClaimCall) : ClaimMapped db db call id id :=
  ⟨RowsMapped.refl db, fun _ _ => .kept rfl fun _ _ => rfl, fun _ => .inl rfl, rfl, rfl⟩

/-- The sweep buries the jobs that a claim finds without attempts, and their open targets. -/
theorem sweepExhausted_mapped (db : BackfillTables) (call : ClaimCall) :
    ClaimMapped db (sweepExhausted db call) call (buriedJob call (exhaustedRows db call))
      (buriedTarget (exhaustedRows db call)) where
  mapped := foldl_buryExhausted_mapped call _ db
  jobs job hjob := by
    rcases buriedJob_cases call (exhaustedRows db call) job with ⟨hnot, hsame⟩ | ⟨hmem, hburied⟩
    · exact .kept hsame fun target htarget => buriedTarget_of_not_mem (htarget ▸ hnot)
    · refine .buried (exhausted_of_mem hjob hmem) hburied fun target htarget => ?_
      rcases buriedTarget_cases (exhaustedRows db call) target with ⟨hnot, -⟩ | ⟨-, hburied⟩
      · exact absurd (htarget ▸ hmem) hnot
      · exact hburied
  targets target := by
    rcases buriedTarget_cases (exhaustedRows db call) target with ⟨-, hsame⟩ | ⟨hmem, hburied⟩
    · exact .inl hsame
    · obtain ⟨row, hrow, hid⟩ := mem_map.mp hmem
      have hjob := mem_of_mem_filter hrow
      exact .inr ⟨hburied, row, hjob, hid.symm,
        exhausted_of_mem hjob (mem_map_of_mem hrow)⟩
  candles := (foldl_buryExhausted_candles call _ db).1
  results := (foldl_buryExhausted_candles call _ db).2

theorem not_claimable_of_deadLetter {now : Instant} (h : job.status = .deadLetter) :
    claimableJob now job = false := by
  simp [claimableJob, h]

/-- `claim_next_backfill_job`: some jobs go to the dead letters with their targets, one job at
most is claimed, and all others stay as they are. -/
theorem claim_mapped (db : BackfillTables) (call : ClaimCall) : ∃ jobMap targetMap,
      ClaimMapped db (claimNextBackfillJob db call).2 call jobMap targetMap := by
  have hswept := sweepExhausted_mapped db call
  rcases claim_cases db call with h | h | ⟨row, hrow, hclaimable, h⟩
  · exact ⟨id, id, h ▸ ClaimMapped.refl db call⟩
  · exact ⟨_, _, by rw [h]; exact hswept⟩
  · rw [h]
    refine ⟨_, _, hswept.mapped.trans (updateJobs_mapped _ row.id (claimJob call) fun _ => rfl),
      fun job hjob => ?_, hswept.targets, hswept.candles, hswept.results⟩
    simp only [Function.comp_apply]
    by_cases hid : (buriedJob call (exhaustedRows db call) job).id = row.id
    · -- the claimed row is not one that the same claim has buried
      have hrowEq := hswept.mapped.job_eq hjob hrow
        (hid.symm.trans (hswept.mapped.jobIds job))
      rw [hrowEq] at hclaimable
      rw [onJob, if_pos hid]
      rcases buriedJob_cases call (exhaustedRows db call) job with ⟨hnot, hsame⟩ | ⟨-, hburied⟩
      · rw [hsame] at hclaimable ⊢
        exact .claimed hclaimable rfl fun target htarget =>
          buriedTarget_of_not_mem (htarget ▸ hnot)
      · rw [not_claimable_of_deadLetter hburied.status] at hclaimable
        exact absurd hclaimable Bool.false_ne_true
    · rw [onJob, if_neg hid]
      exact hswept.jobs job hjob

/-! ## Leases -/

/-- The job runs under the worker's unexpired lease, and its target is open to writes. -/
structure LeaseHeld (db : BackfillTables) (call : WriteCall) (job : BackfillJob)
    (target : BackfillTarget) : Prop where
  job_mem : job ∈ db.jobs.rows
  job_id : job.id = call.jobId
  target_mem : target ∈ db.targets.rows
  target_key : target.key = (call.jobId, call.instrumentId)
  running : job.status = .running
  owner : job.leaseOwner = some call.workerId
  unexpired : ∃ expiresAt, job.leaseExpiresAt = some expiresAt ∧ call.checkedAt < expiresAt
  active : target.status.active = true

theorem find_target {instrumentId : ℤ} :
    (db.targets.find fun target =>
      target.backfillJobId = jobId && target.instrumentId = instrumentId) = some target ↔
      target ∈ db.targets.rows ∧ target.key = (jobId, instrumentId) := by
  rw [KeyedTable.find_eq_some_iff (k := (jobId, instrumentId))]
  · simp [BackfillTarget.key]
  · simp [BackfillTarget.key]

theorem joinedTarget_eq_some {instrumentId : ℤ} :
    joinedTarget db jobId instrumentId = some (job, target) ↔
      (job ∈ db.jobs.rows ∧ job.id = jobId) ∧
        target ∈ db.targets.rows ∧ target.key = (jobId, instrumentId) := by
  simp only [joinedTarget, Option.bind_eq_some_iff, Option.map_eq_some_iff, Prod.mk.injEq,
    job?_eq_some, find_target]
  constructor
  · rintro ⟨job', hjob', target', htarget', rfl, rfl⟩
    exact ⟨hjob', htarget'⟩
  · rintro ⟨hjob, htarget⟩
    exact ⟨job, hjob, target, htarget, rfl, rfl⟩

theorem leaseExpired_eq_false {now : Instant} : job.leaseExpired now = false ↔
      ∃ expiresAt, job.leaseExpiresAt = some expiresAt ∧ now < expiresAt := by
  cases h : job.leaseExpiresAt <;> simp [BackfillJob.leaseExpired, h]

/-- The check of a lease passes where it is held. -/
theorem assertBackfillWriteLease_ok {call : WriteCall} :
    assertBackfillWriteLease db call = .ok () ↔ ∃ job target, LeaseHeld db call job target := by
  unfold assertBackfillWriteLease
  constructor
  · intro h
    cases hjoin : joinedTarget db call.jobId call.instrumentId with
    | none => simp [hjoin] at h
    | some row =>
      obtain ⟨job, target⟩ := row
      obtain ⟨⟨hjob, hid⟩, htarget, hkey⟩ := joinedTarget_eq_some.mp hjoin
      simp only [hjoin] at h
      split_ifs at h with hactive hlease
      simp only [not_or, not_not, Bool.not_eq_true] at hlease
      exact ⟨job, target, hjob, hid, htarget, hkey, hlease.1, hlease.2.1,
        leaseExpired_eq_false.mp hlease.2.2, by simpa using hactive⟩
  · rintro ⟨job, target, held⟩
    have hjoin : joinedTarget db call.jobId call.instrumentId = some (job, target) :=
      joinedTarget_eq_some.mpr ⟨⟨held.job_mem, held.job_id⟩, held.target_mem, held.target_key⟩
    have hunexpired := leaseExpired_eq_false.mpr held.unexpired
    simp [hjoin, held.active, held.running, held.owner, hunexpired]

theorem renewBackfillLease_mapped (db : BackfillTables) (call : WriteCall) :
    RowsMapped db (renewBackfillLease db call)
      (fun job => if job.id = call.jobId ∧ job.status = .running ∧
          job.leaseOwner = some call.workerId then
        { job with leaseExpiresAt := some (call.renewedAt.addSeconds backfillLeaseSeconds) }
        else job) id where
  jobs := by
    simp [renewBackfillLease, BackfillTables.updateJobs, IdentityTable.update_rows, and_assoc]
  targets := (map_id _).symm
  jobIds job := by split_ifs <;> rfl
  targetKeys _ := rfl

theorem storeBackfillCandles_mapped (ar : Arithmetic) (sha256 : String → String)
    (db : BackfillTables) (call : WriteCall) (marketId : ℤ → String → Option ℤ)
    (candles : List InstrumentCandle) :
    RowsMapped db (storeBackfillCandles ar sha256 db call marketId candles) id
      (onTargets (fun target => target.backfillJobId = call.jobId &&
        target.instrumentId = call.instrumentId && target.status = .pending) .running) where
  jobs := (map_id _).symm
  targets := rfl
  jobIds _ := rfl
  targetKeys := onTargets_key _ _

/-- The candles are stored under the lease, which is renewed. -/
theorem recordBackfillCandles_eq_ok {ar : Arithmetic} {sha256 : String → String}
    {db' : BackfillTables} {call : WriteCall} {marketId : ℤ → String → Option ℤ}
    {candles : List InstrumentCandle}
    (h : recordBackfillCandles ar sha256 db call marketId candles = .ok db') :
    assertBackfillWriteLease db call = .ok () ∧
      db' = renewBackfillLease (storeBackfillCandles ar sha256 db call marketId candles) call := by
  unfold recordBackfillCandles at h
  split_ifs at h
  obtain ⟨⟨⟩, hlease, h⟩ := bind_eq_ok.mp h
  exact ⟨hlease, (pure_eq_ok.mp h).symm⟩

/-! ## The progress of a job -/

/-- What `_refresh_backfill_job_progress` makes of a job that is not settled. -/
inductive Refreshed (db : BackfillTables) (job : BackfillJob) (db' : BackfillTables) : Prop
  /-- A target has failed and there are attempts left. -/
  | retried (retryAt : Instant) (errorCode : Option String)
      (hattempts : job.attemptCount < job.maxAttempts)
      (hmapped : RowsMapped db db' (onJob job.id (waitForRetry retryAt errorCode))
        (onTargets (fun target => target.backfillJobId = job.id && target.status = .failed)
          .pending))
  /-- A target has failed for the last time, or there is none. -/
  | buried (errorCode : Option String) (reason : String) (detectedAt : Instant)
      (hmapped : RowsMapped db db' (onJob job.id (deadLetterJob errorCode reason detectedAt))
        (deadLetterTargets job.id))
  /-- No target has failed. -/
  | followed (now : Instant) (htargets : db.targetsOf job.id ≠ [])
      (hunfailed : ∀ target ∈ db.targetsOf job.id, target.status ≠ .failed)
      (hmapped : RowsMapped db db'
        (onJob job.id (setJobStatus (statusOfTargets (db.targetsOf job.id)) now)) id)

/-- The progress of an unsettled job follows from its targets. -/
theorem refresh_of_unsettled (hjob : job ∈ db.jobs.rows) (hsettled : job.status.settled = false)
    (call : RefreshCall) : Refreshed db job (refreshBackfillJobProgress db job.id call) := by
  unfold refreshBackfillJobProgress
  rw [job?_eq_some.mpr ⟨hjob, rfl⟩, Option.elim_some, hsettled, if_neg Bool.false_ne_true]
  by_cases hempty : (db.targetsOf job.id).isEmpty = true
  · rw [if_pos hempty]
    exact .buried _ _ _ (moveBackfillJobToDeadLetter_mapped db job.id _ _ _)
  · rw [if_neg hempty]
    cases hfailed : maxBy BackfillTarget.instrumentId
        ((db.targetsOf job.id).filter fun target => target.status = .failed) with
    | none =>
      have hnone := maxBy_eq_none.mp hfailed
      refine .followed call.now (by simpa using hempty) ?_
        (updateJobs_mapped db job.id (setJobStatus _ call.now) fun _ => rfl)
      simpa [filter_eq_nil_iff] using hnone
    | some failure =>
      simp only [Option.elim_some]
      unfold refreshFailed
      split_ifs with hattempts
      · exact .retried _ _ hattempts
          ((setTargetStatus_mapped db _ .pending).trans (updateJobs_mapped _ job.id _ _))
      · exact .buried _ _ _ (moveBackfillJobToDeadLetter_mapped db job.id _ _ _)

/-- A refresh does nothing, or it is that of one unsettled job. -/
theorem refresh_cases (db : BackfillTables) (jobId : ℤ) (call : RefreshCall) :
    refreshBackfillJobProgress db jobId call = db ∨
    ∃ job ∈ db.jobs.rows, job.id = jobId ∧ job.status.settled = false ∧
      Refreshed db job (refreshBackfillJobProgress db jobId call) := by
  cases hjob : db.job? jobId with
  | none =>
    refine .inl ?_
    rw [refreshBackfillJobProgress, hjob]
    rfl
  | some job =>
    obtain ⟨hmem, rfl⟩ := job?_eq_some.mp hjob
    cases hsettled : job.status.settled with
    | true =>
      refine .inl ?_
      rw [refreshBackfillJobProgress, hjob, Option.elim_some, hsettled, if_pos rfl]
    | false => exact .inr ⟨job, hmem, rfl, hsettled, refresh_of_unsettled hmem hsettled call⟩

/-! ## Writes and commands -/

/-- The target that a call writes to. -/
def onTarget (call : WriteCall) (change : BackfillTarget → BackfillTarget)
    (target : BackfillTarget) : BackfillTarget :=
  if target.key = (call.jobId, call.instrumentId) then change target else target

/-- A worker's update changes one target. -/
theorem updateTarget_mapped (db : BackfillTables) (call : WriteCall)
    (change : BackfillTarget → BackfillTarget) (hkey : ∀ target, (change target).key = target.key) :
    RowsMapped db (db.updateTargets (fun target => target.backfillJobId = call.jobId &&
      target.instrumentId = call.instrumentId) change hkey) id (onTarget call change) where
  jobs := (map_id _).symm
  targets := by
    simp only [BackfillTables.updateTargets, KeyedTable.update_rows, Bool.and_eq_true,
      decide_eq_true_eq]
    refine map_congr_left fun target _ => ?_
    simp [onTarget, BackfillTarget.key]
  jobIds _ := rfl
  targetKeys target := by
    unfold onTarget
    split_ifs
    · exact hkey target
    · rfl

theorem controlWrite_mapped (db : BackfillTables) (jobId : ℤ) (action : ControlAction) :
    RowsMapped db (controlWrite db jobId action) (onJob jobId (controlJob action))
      (onTargets (fun target => target.backfillJobId = jobId && action.affects target.status)
        action.targetStatus) :=
  (updateJobs_mapped db jobId _ _).trans (setTargetStatus_mapped _ _ _)

end Goodmoneying.Analysis.Backfill
