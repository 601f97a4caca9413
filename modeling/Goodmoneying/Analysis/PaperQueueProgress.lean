import Goodmoneying.Analysis.PaperExecutionSafety

/-!
# When the paper queue stands still

The candidate query of a claim does not look at `attempt_count`, and the update refuses a job
without an attempt left. So a job whose last attempt crashed is a candidate again, and while it is
the first one no other job is claimed. In every reachable state a claim returns a job exactly when
no such job comes before all eligible ones (`claim_returns_job_iff`).
-/

namespace Goodmoneying.Analysis

open Library Program

variable {db : PaperDatabase} {now : Instant} {job : PaperJob}

/-- A job waits, or its lease has expired; its intent is approved for paper and no armed kill
switch covers it. -/
structure Waiting (db : PaperDatabase) (now : Instant) (job : PaperJob) : Prop where
  due : job.status = .pending ∨ (job.status = .retryWait ∧ job.nextRetryAt ≤ now) ∨
    (job.status = .running ∧ ∃ expiresAt, job.leaseExpiresAt = some expiresAt ∧ expiresAt ≤ now)
  approved : ∃ intent bot, db.orderIntents job.orderIntentId = some intent ∧
    db.botInstances intent.botInstanceId = some bot ∧ intent.status = .approved ∧
    bot.stage = .paper ∧ bot.executionMode = .paper ∧
    ∀ scope ∈ riskScopes bot.portfolioId intent.botInstanceId, ∀ row,
      latestSwitch db.killSwitches scope = some row → row.state ≠ .armed

/-- A waiting job with an attempt left. -/
structure Eligible (db : PaperDatabase) (now : Instant) (job : PaperJob) : Prop
    extends Waiting db now job where
  attempts : job.attemptCount < job.maxAttempts

/-- A job whose worker crashed on its last attempt, before all eligible jobs in the order of
the queue. -/
def BlocksQueue (db : PaperDatabase) (now : Instant) (crashed : PaperJob) : Prop :=
  Waiting db now crashed ∧ crashed.status = .running ∧
    crashed.attemptCount = crashed.maxAttempts ∧
    ∀ job ∈ db.jobs.rows, Eligible db now job → claimOrder crashed < claimOrder job

/-- A scope list has no armed switch exactly when no latest switch of it is armed. -/
theorem activeKillSwitch_isNone_iff {switches : List KillSwitch} {scopes : List (String × String)} :
    (activeKillSwitch switches scopes).isNone = true ↔
      ∀ scope ∈ scopes, ∀ row, latestSwitch switches scope = some row → row.state ≠ .armed := by
  simp only [activeKillSwitch, Option.isNone_iff_eq_none, List.findSome?_eq_none_iff,
    Option.filter_eq_none_iff, decide_eq_true_eq]

/-- The condition of the candidate query is that of a waiting job. -/
theorem claimable_iff : claimable db now job = true ↔ Waiting db now job := by
  have hdue : job.due now = true ↔ job.status = .pending ∨
      (job.status = .retryWait ∧ job.nextRetryAt ≤ now) ∨
      (job.status = .running ∧
        ∃ expiresAt, job.leaseExpiresAt = some expiresAt ∧ expiresAt ≤ now) := by
    unfold PaperJob.due
    cases hstatus : job.status <;> simp [Option.any_eq_true]
  have hintent : ((paperIntent? db job.orderIntentId).any fun intent =>
        (activeKillSwitch db.killSwitches
          (riskScopes intent.portfolioId intent.botInstanceId)).isNone) = true ↔
      ∃ intent bot, db.orderIntents job.orderIntentId = some intent ∧
        db.botInstances intent.botInstanceId = some bot ∧ intent.status = .approved ∧
        bot.stage = .paper ∧ bot.executionMode = .paper ∧
        ∀ scope ∈ riskScopes bot.portfolioId intent.botInstanceId, ∀ row,
          latestSwitch db.killSwitches scope = some row → row.state ≠ .armed := by
    cases hrow : db.orderIntents job.orderIntentId with
    | none => simp [paperIntent?, hrow]
    | some intent =>
      cases hbot : db.botInstances intent.botInstanceId with
      | none => simp [paperIntent?, hrow, hbot]
      | some bot =>
        by_cases hpaper : intent.status = .approved ∧ bot.stage = .paper ∧
            bot.executionMode = .paper
        · simp only [paperIntent?, hrow, hbot, hpaper, Option.bind_eq_bind, Option.bind_some,
            and_self, if_true, Option.any_some, activeKillSwitch_isNone_iff]
          simp [hbot, hpaper]
        · simp only [paperIntent?, hrow, hbot, hpaper, Option.bind_eq_bind, Option.bind_some,
            if_false]
          simp only [Option.any_none, Bool.false_eq_true, false_iff]
          rintro ⟨intent', bot', hintent', hbot', hstatus, hstage, hmode, -⟩
          obtain rfl := Option.some.inj hintent'
          obtain rfl := Option.some.inj (hbot.symm.trans hbot')
          exact hpaper ⟨hstatus, hstage, hmode⟩
  rw [claimable, Bool.and_eq_true, hdue, hintent]
  exact ⟨fun h => ⟨h.1, h.2⟩, fun h => ⟨h.due, h.approved⟩⟩

/-- Where nothing is locked, the candidate is the first waiting job in the order of the
queue. -/
theorem claimCandidate?_first (h : claimCandidate? db now (fun _ => false) = some job) :
    job ∈ db.jobs.rows ∧ Waiting db now job ∧
      ∀ other ∈ db.jobs.rows, Waiting db now other → claimOrder job ≤ claimOrder other := by
  obtain ⟨hmem, hfirst⟩ := head?_sortedBy h
  simp only [Bool.not_false, Bool.and_true, List.mem_filter, claimable_iff] at hmem hfirst
  exact ⟨hmem.1, hmem.2, fun other hother hwaiting => hfirst other ⟨hother, hwaiting⟩⟩

/-- Where a job waits and nothing is locked there is a candidate. -/
theorem exists_claimCandidate (hjob : job ∈ db.jobs.rows) (hwaiting : Waiting db now job) :
    ∃ candidate, claimCandidate? db now (fun _ => false) = some candidate := by
  cases hcandidate : claimCandidate? db now (fun _ => false) with
  | some candidate => exact ⟨candidate, rfl⟩
  | none =>
    have hempty := List.head?_eq_none_iff.mp hcandidate
    have hmem : job ∈ sortedBy claimOrder
        (db.jobs.rows.filter fun job => claimable db now job && !false) := by
      rw [mem_sortedBy, List.mem_filter]
      exact ⟨hjob, by simpa using claimable_iff.mpr hwaiting⟩
    rw [hempty] at hmem
    cases hmem

theorem claimOrder_inj {table : JobTable} {other : PaperJob} (hjob : job ∈ table.rows)
    (hother : other ∈ table.rows) (h : claimOrder job = claimOrder other) : job = other :=
  List.inj_on_of_nodup_map table.uniqueId hjob hother
    (congrArg (fun place => (ofLex (ofLex place).2).2) h)

/-- A claim returns its candidate exactly when it has an attempt left. -/
theorem claim_candidate_iff {queriedAt updatedAt : Instant} {workerId : String}
    (hworker : strip workerId ≠ "") (leaseSeconds : ℤ) {candidate : PaperJob}
    (hcandidate : claimCandidate? db queriedAt (fun _ => false) = some candidate) :
    (∃ response db', claimNextPaperExecutionJob queriedAt updatedAt (fun _ => false) db workerId
        leaseSeconds = .ok (some response, db')) ↔
      candidate.attemptCount < candidate.maxAttempts := by
  constructor
  · rintro ⟨response, db', hclaim⟩
    obtain ⟨job, hjob, hattempts, -⟩ := claim_some hclaim
    obtain rfl := Option.some.inj (hcandidate.symm.trans hjob)
    exact hattempts
  · intro hattempts
    obtain ⟨hmem, ⟨-, intent, bot, hintent, hbot, -⟩, -⟩ := claimCandidate?_first hcandidate
    have hnonblank : nonBlank workerId "workerId" = .ok (strip workerId) := if_neg hworker
    -- the join of the response finds the rows that the candidate query joined
    let claimed := candidate.claimed (strip workerId) (updatedAt.addSeconds leaseSeconds)
    let db' : PaperDatabase := { db with
      jobs := db.jobs.update candidate.id
        (fun job => job.claimed (strip workerId) (updatedAt.addSeconds leaseSeconds))
        (fun _ => rfl) (fun _ => rfl) }
    have hfind : db'.jobs.find candidate.id = some claimed := by
      have hreplaced : Replaced db.jobs db'.jobs candidate claimed :=
        update_replaced hmem (fun job => job.claimed _ _) rfl
      have hclaimed : claimed ∈ db'.jobs.rows :=
        hreplaced ▸ List.mem_map.mpr ⟨candidate, hmem, by simp⟩
      exact find_of_mem hclaimed
    have hresponse : ∃ response, paperExecutionJobResponse db' candidate.id = .ok response := by
      have hown : db'.orderIntents claimed.orderIntentId = some intent := hintent
      have hjoin : db'.botInstances intent.botInstanceId = some bot := hbot
      simp [paperExecutionJobResponse, hfind, hown, hjoin]
    obtain ⟨response, hresponse⟩ := hresponse
    refine ⟨response, db', ?_⟩
    simp only [claimNextPaperExecutionJob, hnonblank, ok_bind,
      claimNextPaperExecutionJobInConnection, hcandidate, hattempts, if_true]
    exact bind_eq_ok.mpr ⟨response, hresponse, rfl⟩

/-- In a sound queue a waiting job without an attempt left is one whose worker crashed. -/
theorem SoundQueue.exhausted (hsound : SoundQueue db) (hjob : job ∈ db.jobs.rows)
    (hwaiting : Waiting db now job) (hattempts : ¬ job.attemptCount < job.maxAttempts) :
    job.status = .running ∧ job.attemptCount = job.maxAttempts := by
  have hle := (hsound.checks job hjob).attempts_le
  have hleft := hsound.attempts job hjob
  rcases hwaiting.due with hpending | ⟨hretry, -⟩ | ⟨hrunning, -⟩
  · exact absurd (hleft (Or.inl hpending)) hattempts
  · exact absurd (hleft (Or.inr hretry)) hattempts
  · exact ⟨hrunning, by omega⟩

/-- In every reachable state with an eligible job, a claim returns a job exactly when no job
whose worker crashed on its last attempt comes before all eligible jobs.
SOURCE: portfolio_bot_store.py:212-278 -/
theorem claim_returns_job_iff (ar : Arithmetic) (clock : Instant) (db : PaperDatabase)
    (hfresh : FreshQueue db) (state : PaperState)
    (hrun : Relation.ReflTransGen (PaperStep ar) ⟨clock, db⟩ state)
    (queriedAt updatedAt : Instant) (workerId : String) (hworker : strip workerId ≠ "")
    (leaseSeconds : ℤ) (heligible : ∃ job ∈ state.db.jobs.rows, Eligible state.db queriedAt job) :
    (∃ response db', claimNextPaperExecutionJob queriedAt updatedAt (fun _ => false) state.db
        workerId leaseSeconds = .ok (some response, db')) ↔
      ¬ ∃ crashed ∈ state.db.jobs.rows, BlocksQueue state.db queriedAt crashed := by
  have hsound := run_sound hrun hfresh.sound
  obtain ⟨job, hjob, hjobEligible⟩ := heligible
  obtain ⟨candidate, hcandidate⟩ := exists_claimCandidate hjob hjobEligible.toWaiting
  obtain ⟨hmem, hwaiting, hfirst⟩ := claimCandidate?_first hcandidate
  rw [claim_candidate_iff hworker leaseSeconds hcandidate]
  constructor
  · rintro hattempts ⟨crashed, hcrashed, hcrashedWaiting, -, hexhausted, hbefore⟩
    exact absurd (hfirst crashed hcrashed hcrashedWaiting)
      (not_le.mpr (hbefore candidate hmem ⟨hwaiting, hattempts⟩))
  · intro hnone
    by_contra hattempts
    obtain ⟨hrunning, hexhausted⟩ := hsound.exhausted hmem hwaiting hattempts
    refine hnone ⟨candidate, hmem, hwaiting, hrunning, hexhausted, fun other hother h => ?_⟩
    refine lt_of_le_of_ne (hfirst other hother h.toWaiting) fun hsame => ?_
    obtain rfl := claimOrder_inj hmem hother hsame
    exact hattempts h.attempts

/-- Two jobs as they are inserted. -/
def twoJobs : JobTable := ⟨[insertedJob 1, insertedJob 2], by decide, by decide⟩

/-- The state after claims at the given seconds, by a worker that never reports back. -/
def crashedState (seconds : List ℤ) : PaperState :=
  (seconds.map fun second => (Instant.addSeconds 0 second,
    PaperTransaction.claim (fun _ => false) "worker" 90)).foldl (stateAfter .default)
      ⟨0, approvedDatabase twoJobs⟩

/-- The next claim in such a state. -/
def claimAt (second : ℤ) (state : PaperState) :
    Except StoreError (Option PaperExecutionJobResponse × PaperDatabase) :=
  claimNextPaperExecutionJob (Instant.addSeconds 0 second) (Instant.addSeconds 0 second)
    (fun _ => false) state.db "worker" 90

theorem twoJobs_fresh : FreshQueue (approvedDatabase twoJobs) :=
  approvedDatabase_fresh (by simp [twoJobs, insertedJob_fresh])

theorem eligible_second_job {state : PaperState} (hmem : insertedJob 2 ∈ state.db.jobs.rows)
    (hclaimable : claimable state.db now (insertedJob 2) = true) :
    ∃ job ∈ state.db.jobs.rows, Eligible state.db now job :=
  ⟨insertedJob 2, hmem, claimable_iff.mp hclaimable, by decide⟩

/-- After one crash the next claim returns a job. -/
theorem claim_returns_job_two_jobs :
    ∃ response db', claimAt 91 (crashedState [0]) = .ok (some response, db') := by
  refine (claim_returns_job_iff .default 0 (approvedDatabase twoJobs) twoJobs_fresh
    (crashedState [0]) (run_foldl .default _ _ (by decide)) (Instant.addSeconds 0 91)
    (Instant.addSeconds 0 91) "worker" (by decide) 90
    (eligible_second_job (by decide +kernel) (by decide +kernel))).mpr ?_
  rintro ⟨crashed, hcrashed, -, -, hexhausted, -⟩
  have hleft : ∀ job ∈ (crashedState [0]).db.jobs.rows, job.attemptCount ≠ job.maxAttempts := by
    decide +kernel
  exact hleft crashed hcrashed hexhausted

/-- After three crashes on the first job the next claim returns no job, although the second one
is eligible. -/
theorem claim_blocked_after_crashes : FreshQueue (approvedDatabase twoJobs) ∧
    Relation.ReflTransGen (PaperStep .default) ⟨0, approvedDatabase twoJobs⟩
      (crashedState [0, 91, 182]) ∧
    (∃ job ∈ (crashedState [0, 91, 182]).db.jobs.rows,
      Eligible (crashedState [0, 91, 182]).db (Instant.addSeconds 0 273) job) ∧
    ∃ db', claimAt 273 (crashedState [0, 91, 182]) = .ok (none, db') := by
  refine ⟨twoJobs_fresh, run_foldl .default _ _ (by decide),
    eligible_second_job (by decide +kernel) (by decide +kernel), ?_⟩
  have hnone : (claimAt 273 (crashedState [0, 91, 182])).toOption.map Prod.fst = some none := by
    decide +kernel
  cases hclaim : claimAt 273 (crashedState [0, 91, 182]) with
  | error error => simp [hclaim, Except.toOption] at hnone
  | ok result =>
    obtain ⟨response, db'⟩ := result
    simp only [hclaim, Except.toOption, Option.map_some, Option.some.injEq] at hnone
    exact ⟨db', by rw [hnone]⟩

end Goodmoneying.Analysis
