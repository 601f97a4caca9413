import Mathlib.Logic.Relation
import Goodmoneying.Analysis.PaperQueueSteps

/-!
# Paper execution never fills an intent twice

Whatever the workers and the other parties do, a job has at most one exchange order and one paper
fill, and has them exactly when it has succeeded (`paperExecution_never_fills_twice`). The invariant
`SoundQueue` and the order `Advances` of the rows are kept by every transaction, and so along every
run.
-/

namespace Goodmoneying.Analysis

open List Library Program

variable {job job' : PaperJob} {queriedAt : Instant} {db db' : PaperDatabase}
  {order : ExchangeOrder} {fill : OrderFill} {ar : Arithmetic} {jobId leaseGeneration : ℤ}
  {workerId : String}
variable {now updatedAt : Instant} {state state' : PaperState}

/-! ## One job -/

/-- What a transaction keeps of the job it changes. -/
structure Advances (job job' : PaperJob) : Prop where
  id : job'.id = job.id
  intent : job'.orderIntentId = job.orderIntentId
  maxAttempts : job'.maxAttempts = job.maxAttempts
  generation : job.leaseGeneration ≤ job'.leaseGeneration
  finished : job.status = .succeeded ∨ job.status = .deadLetter → job' = job

theorem Advances.refl (job : PaperJob) : Advances job job :=
  ⟨rfl, rfl, rfl, le_refl _, fun _ => rfl⟩

/-- Two advances make one. -/
theorem Advances.trans {job'' : PaperJob} (h : Advances job job') (h' : Advances job' job'') :
    Advances job job'' where
  id := h'.id.trans h.id
  intent := h'.intent.trans h.intent
  maxAttempts := h'.maxAttempts.trans h.maxAttempts
  generation := h.generation.trans h'.generation
  finished hfinished := by
    obtain rfl := h.finished hfinished
    exact h'.finished hfinished

theorem due_open (h : job.due now = true) :
    ¬ (job.status = .succeeded ∨ job.status = .deadLetter) := by
  rintro (hstatus | hstatus) <;> simp [PaperJob.due, hstatus] at h

/-- A job that is changed was not finished, and has not succeeded. -/
theorem WorkerChange.open (h : WorkerChange queriedAt job job') :
    ¬ (job.status = .succeeded ∨ job.status = .deadLetter) ∧ job'.status ≠ .succeeded := by
  cases h with
  | claimed worker expiresAt hdue hattempts hworker =>
    exact ⟨due_open hdue, by simp [PaperJob.claimed]⟩
  | failed now errorCode message hrunning hcode hmessage =>
    refine ⟨by simp [hrunning], ?_⟩
    simp only [PaperJob.failed]
    split_ifs <;> simp
  | deferred now hrunning => exact ⟨by simp [hrunning], by simp [PaperJob.deferred]⟩

/-- A change is an advance. -/
theorem WorkerChange.advances (h : WorkerChange queriedAt job job') : Advances job job' := by
  have hopen := h.open.1
  cases h with
  | claimed worker expiresAt hdue hattempts hworker =>
    exact ⟨rfl, rfl, rfl, by simp [PaperJob.claimed], fun hfinished => absurd hfinished hopen⟩
  | failed now errorCode message hrunning hcode hmessage =>
    exact ⟨rfl, rfl, rfl, le_refl _, fun hfinished => absurd hfinished hopen⟩
  | deferred now hrunning =>
    exact ⟨rfl, rfl, rfl, le_refl _, fun hfinished => absurd hfinished hopen⟩

theorem completed_advances (hrunning : job.status = .running) : Advances job job.completed :=
  ⟨rfl, rfl, rfl, le_refl _, fun hfinished => by simp [hrunning] at hfinished⟩

/-- A change keeps the constraints. -/
theorem WorkerChange.checks (h : WorkerChange queriedAt job job') (hchecks : JobChecks job) :
    JobChecks job' := by
  have hnonneg := hchecks.attempts_nonneg
  have hgeneration := hchecks.generation
  cases h with
  | claimed worker expiresAt hdue hattempts hworker =>
    exact {
      priority := hchecks.priority
      attempts_nonneg := by simp only [PaperJob.claimed]; omega
      maxAttempts := hchecks.maxAttempts
      attempts_le := by simp only [PaperJob.claimed]; omega
      generation := by simp only [PaperJob.claimed]; omega
      lease := Or.inl ⟨rfl, ⟨worker, rfl, hworker⟩, expiresAt, rfl⟩
      errorCode := by simp [PaperJob.claimed]
      reason := hchecks.reason }
  | failed now errorCode message hrunning hcode hmessage =>
    refine {
      priority := hchecks.priority
      attempts_nonneg := hnonneg
      maxAttempts := hchecks.maxAttempts
      attempts_le := hchecks.attempts_le
      generation := hgeneration
      lease := Or.inr ⟨?_, rfl, rfl⟩
      errorCode := fun code h => Option.some.inj h ▸ hcode
      reason := fun reason h => ?_ }
    · simp only [PaperJob.failed]
      split_ifs <;> simp
    · by_cases hexhausted : job.attemptCount ≥ job.maxAttempts
      · simp only [PaperJob.failed, hexhausted, if_true] at h
        exact Option.some.inj h ▸ hmessage
      · exact hchecks.reason reason (by simpa [PaperJob.failed, hexhausted] using h)
  | deferred now hrunning =>
    have hmax := hchecks.maxAttempts
    have hle := hchecks.attempts_le
    exact {
      priority := hchecks.priority
      attempts_nonneg := by simp [PaperJob.deferred]
      maxAttempts := hmax
      attempts_le := by simp only [PaperJob.deferred]; omega
      generation := hgeneration
      lease := Or.inr ⟨by simp [PaperJob.deferred], rfl, rfl⟩
      errorCode := fun code h => Option.some.inj h ▸ by decide
      reason := hchecks.reason }

/-- A completion keeps the constraints. -/
theorem completed_checks (hchecks : JobChecks job) : JobChecks job.completed where
  priority := hchecks.priority
  attempts_nonneg := hchecks.attempts_nonneg
  maxAttempts := hchecks.maxAttempts
  attempts_le := hchecks.attempts_le
  generation := hchecks.generation
  lease := Or.inr ⟨by simp [PaperJob.completed], rfl, rfl⟩
  errorCode := hchecks.errorCode
  reason := hchecks.reason

/-- A job that waits has an attempt left. -/
def AttemptLeft (job : PaperJob) : Prop :=
  job.status = .pending ∨ job.status = .retryWait → job.attemptCount < job.maxAttempts

/-- A change leaves a waiting job an attempt. -/
theorem WorkerChange.attemptLeft (h : WorkerChange queriedAt job job') (hchecks : JobChecks job) :
    AttemptLeft job' := by
  cases h with
  | claimed worker expiresAt hdue hattempts hworker => simp [AttemptLeft, PaperJob.claimed]
  | failed now errorCode message hrunning hcode hmessage =>
    intro hwaiting
    simp only [PaperJob.failed] at hwaiting ⊢
    by_contra hexhausted
    have hge : job.attemptCount ≥ job.maxAttempts := by omega
    simp [hge] at hwaiting
  | deferred now hrunning =>
    have hmax := hchecks.maxAttempts
    have hle := hchecks.attempts_le
    intro _
    simp only [PaperJob.deferred]
    omega

/-! ## The invariant -/

/-- The orders and fills of a job's intent are those of its status. -/
structure LedgerMatches (db : PaperDatabase) (job : PaperJob) : Prop where
  filled : job.status = .succeeded → ∃ order fill,
    paperOrders db job.orderIntentId = [order] ∧ paperFills db job.orderIntentId = [fill]
  unfilled : job.status ≠ .succeeded → paperOrders db job.orderIntentId = []

/-- What every transaction keeps. -/
structure SoundQueue (db : PaperDatabase) : Prop where
  checks : ∀ job ∈ db.jobs.rows, JobChecks job
  attempts : ∀ job ∈ db.jobs.rows, AttemptLeft job
  ledger : ∀ job ∈ db.jobs.rows, LedgerMatches db job
  orderIds : ∀ order ∈ db.exchangeOrders.rows, order.id < db.exchangeOrders.nextId
  fillOrders : ∀ fill ∈ db.orderFills.rows, fill.exchangeOrderId < db.exchangeOrders.nextId

/-- A queue of fresh jobs is sound. -/
theorem FreshQueue.sound (h : FreshQueue db) : SoundQueue db where
  checks job hjob := by
    obtain ⟨hstatus, hattempts, howner, hexpiry, hgeneration, hcode, hreason, hpriority, hmax⟩ :=
      h.jobs job hjob
    exact {
      priority := hpriority
      attempts_nonneg := hattempts.ge
      maxAttempts := hmax
      attempts_le := by omega
      generation := hgeneration.ge
      lease := Or.inr ⟨by simp [hstatus], howner, hexpiry⟩
      errorCode := by simp [hcode]
      reason := by simp [hreason] }
  attempts job hjob _ := by
    have hattempts := (h.jobs job hjob).attempts
    have hmax := (h.jobs job hjob).maxAttempts
    omega
  ledger job hjob :=
    ⟨fun hstatus => by simp [(h.jobs job hjob).status] at hstatus, fun _ => h.unfilled job hjob⟩
  orderIds := h.orderIds
  fillOrders := h.fillOrders

/-- The ledger of an intent depends on the orders and fills alone. -/
theorem LedgerMatches.congr (horders : db'.exchangeOrders = db.exchangeOrders)
    (hfills : db'.orderFills = db.orderFills) (h : LedgerMatches db job) :
    LedgerMatches db' job := by
  have hpaper : ∀ intent, paperOrders db' intent = paperOrders db intent :=
    fun intent => by rw [paperOrders, paperOrders, horders]
  have hfilled : ∀ intent, paperFills db' intent = paperFills db intent :=
    fun intent => by rw [paperFills, paperFills, hfills, hpaper]
  exact ⟨fun hstatus => by rw [hpaper, hfilled]; exact h.filled hstatus,
    fun hstatus => by rw [hpaper]; exact h.unfilled hstatus⟩

/-- A change of one job keeps the invariant. -/
theorem JobChanged.sound (h : JobChanged queriedAt db db' job job') (hsound : SoundQueue db) :
    SoundQueue db' where
  checks row hrow := by
    rcases mem_replaced h.replaced hrow with rfl | ⟨hrow, -⟩
    · exact h.change.checks (hsound.checks job h.mem)
    · exact hsound.checks row hrow
  attempts row hrow := by
    rcases mem_replaced h.replaced hrow with rfl | ⟨hrow, -⟩
    · exact h.change.attemptLeft (hsound.checks job h.mem)
    · exact hsound.attempts row hrow
  ledger row hrow := by
    rcases mem_replaced h.replaced hrow with rfl | ⟨hrow, -⟩
    · obtain ⟨hopen, hnot⟩ := h.change.open
      have hunfilled := ((hsound.ledger job h.mem).congr h.exchangeOrders h.orderFills).unfilled
        fun hstatus => hopen (Or.inl hstatus)
      exact ⟨fun hstatus => absurd hstatus hnot,
        fun _ => by rw [h.change.advances.intent]; exact hunfilled⟩
    · exact (hsound.ledger row hrow).congr h.exchangeOrders h.orderFills
  orderIds := by rw [h.exchangeOrders]; exact hsound.orderIds
  fillOrders := by rw [h.exchangeOrders, h.orderFills]; exact hsound.fillOrders

/-- The paper orders of an intent after a completion. -/
theorem JobCompleted.paperOrders (h : JobCompleted db db' job order fill) (intent : ℤ) :
    paperOrders db' intent =
      paperOrders db intent ++ if job.orderIntentId = intent then [order] else [] := by
  rw [Analysis.paperOrders, h.orders, filter_append]
  congr 1
  simp [h.intent, h.mode, filter_singleton]

/-- The paper fills of an intent after a completion. -/
theorem JobCompleted.paperFills (h : JobCompleted db db' job order fill) (hsound : SoundQueue db)
    (intent : ℤ) : paperFills db' intent =
      paperFills db intent ++ if job.orderIntentId = intent then [fill] else [] := by
  -- no fill on record belongs to the new order, whose id is fresh
  have hold : ∀ row ∈ db.orderFills.rows,
      row.exchangeOrderId ∈ (Analysis.paperOrders db' intent).map ExchangeOrder.id ↔
        row.exchangeOrderId ∈ (Analysis.paperOrders db intent).map ExchangeOrder.id := by
    intro row hrow
    have hfresh : row.exchangeOrderId ≠ order.id := h.orderId ▸ (hsound.fillOrders row hrow).ne
    rw [h.paperOrders, map_append, mem_append]
    split_ifs <;> simp [hfresh]
  have hnew : fill.exchangeOrderId ∈ (Analysis.paperOrders db' intent).map ExchangeOrder.id ↔
      job.orderIntentId = intent := by
    have hnone : order.id ∉ (Analysis.paperOrders db intent).map ExchangeOrder.id := by
      intro hmem
      obtain ⟨other, hother, hid⟩ := mem_map.mp hmem
      have hlt := hsound.orderIds other (mem_of_mem_filter hother)
      rw [hid, h.orderId] at hlt
      exact lt_irrefl _ hlt
    rw [h.fillOrder, h.paperOrders, map_append, mem_append]
    split_ifs with hown <;> simp [hnone, hown]
  rw [Analysis.paperFills, h.fills, filter_append]
  congr 1
  · refine filter_congr fun row hrow => ?_
    simp only [hold row hrow]
  · rw [filter_singleton]
    simp only [h.source, hnew, true_and, Bool.cond_decide]

/-- A completion keeps the invariant. -/
theorem JobCompleted.sound (h : JobCompleted db db' job order fill) (hsound : SoundQueue db) :
    SoundQueue db' where
  checks row hrow := by
    rcases mem_replaced h.replaced hrow with rfl | ⟨hrow, -⟩
    · exact completed_checks (hsound.checks job h.mem)
    · exact hsound.checks row hrow
  attempts row hrow := by
    rcases mem_replaced h.replaced hrow with rfl | ⟨hrow, -⟩
    · simp [AttemptLeft, PaperJob.completed]
    · exact hsound.attempts row hrow
  ledger row hrow := by
    rcases mem_replaced h.replaced hrow with rfl | ⟨hrow, hother⟩
    · have hbefore := (hsound.ledger job h.mem).unfilled (by simp [h.running])
      have hfills : Analysis.paperFills db job.orderIntentId = [] := by
        simp [Analysis.paperFills, hbefore]
      refine ⟨fun _ => ⟨order, fill, ?_, ?_⟩, fun hnot => absurd rfl hnot⟩
      · simp [h.paperOrders, PaperJob.completed, hbefore]
      · simp [h.paperFills hsound, PaperJob.completed, hfills]
    · have hintent : job.orderIntentId ≠ row.orderIntentId := fun heq =>
        hother (congrArg PaperJob.id
          (inj_on_of_nodup_map db.jobs.uniqueIntent hrow h.mem heq.symm))
      obtain ⟨hfilled, hunfilled⟩ := hsound.ledger row hrow
      refine ⟨fun hstatus => ?_, fun hstatus => ?_⟩
      · simpa [h.paperOrders, h.paperFills hsound, hintent] using hfilled hstatus
      · simpa [h.paperOrders, hintent] using hunfilled hstatus
  orderIds other hother := by
    rw [h.nextId]
    rw [h.orders] at hother
    rcases mem_append.mp hother with hother | hother
    · exact (hsound.orderIds other hother).trans (lt_add_one _)
    · rw [mem_singleton.mp hother, h.orderId]
      exact lt_add_one _
  fillOrders other hother := by
    rw [h.nextId]
    rw [h.fills] at hother
    rcases mem_append.mp hother with hother | hother
    · exact (hsound.fillOrders other hother).trans (lt_add_one _)
    · rw [mem_singleton.mp hother, h.fillOrder, h.orderId]
      exact lt_add_one _

/-- A transaction keeps the invariant. -/
theorem commit_sound (transaction : PaperTransaction) (hsound : SoundQueue db) :
    SoundQueue (transaction.commit ar queriedAt updatedAt db) := by
  rcases commit_cases ar queriedAt updatedAt db transaction with
    ⟨hjobs, horders, hfills⟩ | ⟨job, job', hchanged⟩ | ⟨job, order, fill, hcompleted⟩
  · refine ⟨?_, ?_, ?_, ?_, ?_⟩
    · rw [hjobs]; exact hsound.checks
    · rw [hjobs]; exact hsound.attempts
    · rw [hjobs]; exact fun job hjob => (hsound.ledger job hjob).congr horders hfills
    · rw [horders]; exact hsound.orderIds
    · rw [horders, hfills]; exact hsound.fillOrders
  · exact hchanged.sound hsound
  · exact hcompleted.sound hsound

/-- Every job advances over a transaction. -/
theorem commit_advances (ar : Arithmetic) (queriedAt updatedAt : Instant)
    (transaction : PaperTransaction) (hjob : job ∈ db.jobs.rows) :
    ∃ job' ∈ (transaction.commit ar queriedAt updatedAt db).jobs.rows, Advances job job' := by
  have hreplaced : ∀ {table' : JobTable} {old new : PaperJob}, old ∈ db.jobs.rows →
      Replaced db.jobs table' old new → Advances old new →
      ∃ job' ∈ table'.rows, Advances job job' := by
    intro table' old new hold hreplaced hadvances
    refine ⟨_, hreplaced ▸ mem_map_of_mem hjob, ?_⟩
    by_cases hsame : job.id = old.id
    · obtain rfl := inj_on_of_nodup_map db.jobs.uniqueId hjob hold hsame
      simpa using hadvances
    · simpa [hsame] using Advances.refl job
  rcases commit_cases ar queriedAt updatedAt db transaction with
    ⟨hjobs, -, -⟩ | ⟨old, new, hchanged⟩ | ⟨old, order, fill, hcompleted⟩
  · exact ⟨job, hjobs ▸ hjob, Advances.refl job⟩
  · exact hreplaced hchanged.mem hchanged.replaced hchanged.change.advances
  · exact hreplaced hcompleted.mem hcompleted.replaced (completed_advances hcompleted.running)

/-- The invariant holds along every run. -/
theorem run_sound (hrun : Relation.ReflTransGen (PaperStep ar) state state')
    (hsound : SoundQueue state.db) : SoundQueue state'.db := by
  induction hrun with
  | refl => exact hsound
  | tail _ hstep ih =>
    cases hstep with
    | transaction transaction queriedAt updatedAt hquery hupdate =>
      exact commit_sound transaction ih

/-- Every job advances along every run. -/
theorem run_advances (hrun : Relation.ReflTransGen (PaperStep ar) state state')
    (hjob : job ∈ state.db.jobs.rows) : ∃ job' ∈ state'.db.jobs.rows, Advances job job' := by
  induction hrun with
  | refl => exact ⟨job, hjob, Advances.refl job⟩
  | tail _ hstep ih =>
    obtain ⟨job', hjob', hadvances⟩ := ih
    cases hstep with
    | transaction transaction queriedAt updatedAt hquery hupdate =>
      obtain ⟨job'', hjob'', hadvances'⟩ := commit_advances ar queriedAt updatedAt transaction hjob'
      exact ⟨job'', hjob'', hadvances.trans hadvances'⟩

/-! ## Every interleaving -/

/-- A job has at most one paper order and one paper fill, and has them when it has
succeeded. -/
structure FilledOnce (db : PaperDatabase) (job : PaperJob) : Prop where
  orders_le : (paperOrders db job.orderIntentId).length ≤ 1
  fills_le : (paperFills db job.orderIntentId).length ≤ 1
  orders_iff : paperOrders db job.orderIntentId ≠ [] ↔ job.status = .succeeded
  fills_iff : paperFills db job.orderIntentId ≠ [] ↔ job.status = .succeeded

/-- A ledger that matches holds one order and one fill at most. -/
theorem LedgerMatches.filledOnce (h : LedgerMatches db job) : FilledOnce db job := by
  by_cases hstatus : job.status = .succeeded
  · obtain ⟨order, fill, horders, hfills⟩ := h.filled hstatus
    constructor <;> simp [horders, hfills, hstatus]
  · have horders := h.unfilled hstatus
    have hfills : paperFills db job.orderIntentId = [] := by simp [paperFills, horders]
    constructor <;> simp [horders, hfills, hstatus]

/-- What a call raises whose lease is not the current one: the lease is lost, unless the call
names no worker. -/
def staleError (workerId : String) : StoreError :=
  if strip workerId = "" then .valueError ("workerId" ++ "는 공백일 수 없다.")
  else .leaseLost "paper execution job 임대를 잃었다."

/-- What a completion raises whose lease is not the current one: the check of its times comes
before the transaction. -/
def staleCompletionError (workerId : String) (occurredAt knowledgeAt : Instant) : StoreError :=
  if knowledgeAt < occurredAt then .valueError "knowledgeAt은 occurredAt보다 빠를 수 없다."
  else staleError workerId

/-- A presented lease is not the current one of its job: not its owner, not its generation, or
expired. -/
def StaleLease (db : PaperDatabase) (now : Instant) (jobId : ℤ) (workerId : String)
    (leaseGeneration : ℤ) : Prop :=
  ∀ job ∈ db.jobs.rows, job.id = jobId →
    ¬ (job.status = .running ∧ job.leaseOwner = some (strip workerId) ∧
      job.leaseGeneration = leaseGeneration ∧
      ∃ expiresAt, job.leaseExpiresAt = some expiresAt ∧ now < expiresAt)

/-- No job is locked under a stale lease. -/
theorem StaleLease.not_locked (h : StaleLease db now jobId workerId leaseGeneration) :
    lockedClaimedPaperJob now db jobId (strip workerId) leaseGeneration =
      .error (.leaseLost "paper execution job 임대를 잃었다.") := by
  cases hlocked : lockedClaimedPaperJob now db jobId (strip workerId) leaseGeneration with
  | ok job =>
    obtain ⟨hmem, hid, hlease⟩ := lockedClaimedPaperJob_eq_ok hlocked
    simp only [holdsLease, decide_eq_true_eq, Option.any_eq_true] at hlease
    obtain ⟨hrunning, howner, hgeneration, expiresAt, hexpires, hlt⟩ := hlease
    exact absurd ⟨hrunning, howner, hgeneration, expiresAt, hexpires, by simpa using hlt⟩
      (h job hmem hid)
  | error error =>
    unfold lockedClaimedPaperJob at hlocked
    split at hlocked
    · cases hlocked
    · exact hlocked.symm

/-- A completion under a stale lease is refused. -/
theorem StaleLease.complete (h : StaleLease db queriedAt jobId workerId leaseGeneration)
    (ar : Arithmetic) (updatedAt : Instant) (fillPrice : ℚ) (filledQuantity : Option ℚ)
    (occurredAt knowledgeAt : Instant) (evidence : List (String × CanonicalValue)) :
    completeClaimedPaperExecutionJob ar queriedAt updatedAt db jobId workerId leaseGeneration
      fillPrice filledQuantity occurredAt knowledgeAt evidence =
        .error (staleCompletionError workerId occurredAt knowledgeAt) := by
  unfold completeClaimedPaperExecutionJob staleCompletionError
  by_cases hknown : knowledgeAt < occurredAt
  · simp only [hknown, if_true]
    rfl
  · simp only [hknown, if_false]
    unfold staleError nonBlank
    by_cases hblank : strip workerId = ""
    · simp only [hblank, if_true, error_bind]
    · simp only [hblank, if_false, ok_bind, h.not_locked, error_bind]

/-- A failure under a stale lease is refused. -/
theorem StaleLease.fail (h : StaleLease db queriedAt jobId workerId leaseGeneration)
    (updatedAt : Instant) (errorCode message : String) :
    failClaimedPaperExecutionJob queriedAt updatedAt db jobId workerId leaseGeneration
      errorCode message = .error (staleError workerId) := by
  unfold failClaimedPaperExecutionJob staleError nonBlank
  by_cases hblank : strip workerId = ""
  · simp only [hblank, if_true, error_bind]
  · simp only [hblank, if_false, ok_bind, h.not_locked, error_bind]

/-- A claim raises the generation of the job it returns. -/
theorem claim_generation {locked : ℤ → Bool} {leaseSeconds : ℤ}
    {response : PaperExecutionJobResponse} (h : claimNextPaperExecutionJob queriedAt updatedAt
      locked db workerId leaseSeconds = .ok (some response, db')) :
    ∃ job ∈ db.jobs.rows, ∃ job' ∈ db'.jobs.rows, job'.id = job.id ∧
      response.paperExecutionJobId = job.id ∧ job.leaseGeneration < job'.leaseGeneration ∧
      response.leaseGeneration = job'.leaseGeneration := by
  obtain ⟨job, hcandidate, -, -, hreplaced, -, -, hresponse⟩ := claim_some h
  have hmem := (claimCandidate?_some hcandidate).1
  have hmem' : job.claimed (strip workerId) (updatedAt.addSeconds leaseSeconds) ∈
      db'.jobs.rows := by
    rw [hreplaced]
    exact mem_map.mpr ⟨job, hmem, by simp⟩
  refine ⟨job, hmem, _, hmem', rfl, ?_⟩
  have hfind : db'.jobs.find job.id =
      some (job.claimed (strip workerId) (updatedAt.addSeconds leaseSeconds)) :=
    find_of_mem hmem'
  unfold paperExecutionJobResponse at hresponse
  dsimp only at hresponse
  split at hresponse
  next found hjoined =>
    obtain rfl := Except.ok.inj hresponse
    simp only [hfind, Option.bind_eq_bind, Option.bind_some, Option.bind_eq_some_iff] at hjoined
    obtain ⟨intent, -, bot, -, hjoined⟩ := hjoined
    obtain rfl := Option.some.inj hjoined
    exact ⟨rfl, by simp [PaperJob.claimed], rfl⟩
  next => cases hresponse

/-- Whatever the interleaving of transactions on a queue of fresh jobs: every intent is filled
at most once, and when its job has succeeded; a stale lease is refused without a change; claims
raise the generation, attempts stay within their bounds, and a job is running exactly when it has
an owner and an expiry; a finished job stays as it is.
SOURCE: portfolio_bot_store.py:212-442, 954-1045 -/
theorem paperExecution_never_fills_twice (ar : Arithmetic) (clock : Instant)
    (db : PaperDatabase) (hfresh : FreshQueue db) (state : PaperState)
    (hrun : Relation.ReflTransGen (PaperStep ar) ⟨clock, db⟩ state) :
    -- (a) one order and one fill at most
    (∀ job ∈ state.db.jobs.rows, FilledOnce state.db job) ∧
    -- (b) a stale lease is refused and changes nothing
    (∀ queriedAt updatedAt jobId workerId leaseGeneration,
      StaleLease state.db queriedAt jobId workerId leaseGeneration →
      (∀ fillPrice filledQuantity occurredAt knowledgeAt evidence,
        completeClaimedPaperExecutionJob ar queriedAt updatedAt state.db jobId workerId
          leaseGeneration fillPrice filledQuantity occurredAt knowledgeAt evidence =
            .error (staleCompletionError workerId occurredAt knowledgeAt) ∧
        (PaperTransaction.complete jobId workerId leaseGeneration fillPrice filledQuantity
          occurredAt knowledgeAt evidence).commit ar queriedAt updatedAt state.db = state.db) ∧
      ∀ errorCode message,
        failClaimedPaperExecutionJob queriedAt updatedAt state.db jobId workerId
          leaseGeneration errorCode message = .error (staleError workerId) ∧
        (PaperTransaction.fail jobId workerId leaseGeneration errorCode message).commit ar
          queriedAt updatedAt state.db = state.db) ∧
    -- (c) generations, attempts and leases
    (∀ queriedAt updatedAt locked workerId leaseSeconds response db',
      claimNextPaperExecutionJob queriedAt updatedAt locked state.db workerId leaseSeconds =
        .ok (some response, db') →
      ∃ job ∈ state.db.jobs.rows, ∃ job' ∈ db'.jobs.rows, job'.id = job.id ∧
        response.paperExecutionJobId = job.id ∧ job.leaseGeneration < job'.leaseGeneration ∧
        response.leaseGeneration = job'.leaseGeneration) ∧
    (∀ job ∈ state.db.jobs.rows, 0 ≤ job.attemptCount ∧ job.attemptCount ≤ job.maxAttempts ∧
      (job.status = .running ↔ job.leaseOwner.isSome ∧ job.leaseExpiresAt.isSome)) ∧
    -- (d) later states: generations do not fall, and finished jobs stay
    ∀ later, Relation.ReflTransGen (PaperStep ar) state later → ∀ job ∈ state.db.jobs.rows,
      ∃ job' ∈ later.db.jobs.rows, job'.id = job.id ∧
        job.leaseGeneration ≤ job'.leaseGeneration ∧
        (job.status = .succeeded ∨ job.status = .deadLetter → job' = job) := by
  have hsound := run_sound hrun hfresh.sound
  refine ⟨fun job hjob => (hsound.ledger job hjob).filledOnce, ?_,
    fun _ _ _ _ _ _ _ hclaim => claim_generation hclaim, ?_, ?_⟩
  · intro queriedAt updatedAt jobId workerId leaseGeneration hstale
    constructor
    · intro fillPrice filledQuantity occurredAt knowledgeAt evidence
      have hcall := hstale.complete ar updatedAt fillPrice filledQuantity occurredAt knowledgeAt
        evidence
      exact ⟨hcall, by simp [PaperTransaction.commit, PaperTransaction.run, hcall]⟩
    · intro errorCode message
      have hcall := hstale.fail updatedAt errorCode message
      exact ⟨hcall, by simp [PaperTransaction.commit, PaperTransaction.run, hcall]⟩
  · intro job hjob
    have hchecks := hsound.checks job hjob
    refine ⟨hchecks.attempts_nonneg, hchecks.attempts_le, ?_⟩
    rcases hchecks.lease with ⟨hrunning, ⟨owner, howner, -⟩, expiresAt, hexpires⟩ |
      ⟨hnot, howner, -⟩
    · simp [hrunning, howner, hexpires]
    · simp [hnot, howner]
  · intro later hlater job hjob
    obtain ⟨job', hjob', hadvances⟩ := run_advances hlater hjob
    exact ⟨job', hjob', hadvances.id, hadvances.generation, hadvances.finished⟩

/-! ## One job, claimed and completed -/

/-- A database in which every intent is approved, on one bot in the paper stage. -/
def approvedDatabase (jobs : JobTable) : PaperDatabase where
  jobs := jobs
  orderIntents := fun _ => some {
    botInstanceId := 1
    instrumentId := 1
    side := .buy
    requestedQuantity := some 2
    requestedNotional := none
    status := .approved }
  botInstances := fun _ => some { portfolioId := 1, stage := .paper, executionMode := .paper }
  killSwitches := []
  exchangeOrders := ⟨[], 1, by decide⟩
  orderFills := ⟨[], 1, by decide⟩
  positionProjections := fun _ _ => none

/-- The approved database is a fresh queue when its jobs are fresh. -/
theorem approvedDatabase_fresh {jobs : JobTable} (hjobs : ∀ job ∈ jobs.rows, FreshJob job) :
    FreshQueue (approvedDatabase jobs) where
  jobs := hjobs
  unfilled _ _ := rfl
  orderIds order horder := by simp [approvedDatabase] at horder
  fillOrders fill hfill := by simp [approvedDatabase] at hfill

/-- A job as `INSERT INTO paper_execution_jobs (order_intent_id)` makes it. -/
def insertedJob (id : ℤ) : PaperJob where
  id := id
  orderIntentId := id
  createdAt := 0

theorem insertedJob_fresh (id : ℤ) : FreshJob (insertedJob id) := by
  constructor <;> simp [insertedJob]

/-- The state after a transaction at one reading of the clock. -/
def stateAfter (ar : Arithmetic) (state : PaperState) (timed : Instant × PaperTransaction) :
    PaperState where
  clock := timed.1
  db := timed.2.commit ar timed.1 timed.1 state.db

/-- Transactions in the order of the clock are a run. -/
theorem run_foldl (ar : Arithmetic) (state : PaperState)
    (timeds : List (Instant × PaperTransaction))
    (hclock : (state.clock :: timeds.map Prod.fst).Pairwise (· ≤ ·)) :
    Relation.ReflTransGen (PaperStep ar) state (timeds.foldl (stateAfter ar) state) := by
  induction timeds generalizing state with
  | nil => exact .refl
  | cons timed timeds ih =>
    obtain ⟨hfirst, hrest⟩ := pairwise_cons.mp hclock
    exact .head (.transaction state timed.2 timed.1 timed.1 (hfirst _ (by simp)) le_rfl)
      (ih (stateAfter ar state timed) hrest)

/-- A job is claimed and completed, and its intent is filled once. -/
theorem paperExecution_fills_once_one_job : ∃ state, Relation.ReflTransGen (PaperStep .default)
        ⟨0, approvedDatabase ⟨[insertedJob 1], by decide, by decide⟩⟩ state ∧
      state.db.jobs.rows.map PaperJob.status = [.succeeded] ∧
      ∀ job ∈ state.db.jobs.rows, FilledOnce state.db job := by
  have hfresh : FreshQueue (approvedDatabase ⟨[insertedJob 1], by decide, by decide⟩) :=
    approvedDatabase_fresh (by simpa using insertedJob_fresh 1)
  have hrun := run_foldl .default
    ⟨0, approvedDatabase ⟨[insertedJob 1], by decide, by decide⟩⟩
    [(5, .claim (fun _ => false) "worker" 90), (7, .complete 1 "worker" 1 100 none 3 4 [])]
    (by decide)
  exact ⟨_, hrun, by decide +kernel,
    (paperExecution_never_fills_twice .default 0 _ hfresh _ hrun).1⟩

end Goodmoneying.Analysis
