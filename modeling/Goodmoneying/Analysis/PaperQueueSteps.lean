import Goodmoneying.Program.PaperExecution

/-!
# What a transaction does to the paper queue

A transaction changes at most one job: it is claimed, failed or deferred (`WorkerChange`), or
completed together with an order and a fill of its own (`JobCompleted`). `commit_cases` says
this for every transaction, and what is proved about the queue is derived from it.
-/

namespace Goodmoneying.Analysis

open Library Program

variable {table : JobTable} {job : PaperJob} {now queriedAt updatedAt : Instant}
  {db db' : PaperDatabase} {jobId leaseGeneration : ℤ} {workerId : String} {locked : ℤ → Bool}
  {summary : PaperExecutionJobSummary}
variable {table' : JobTable} {leaseSeconds : ℤ} {ar : Arithmetic} {intent : PaperIntent}
  {occurredAt knowledgeAt : Instant} {evidence : List (String × CanonicalValue)}

/-! ## The rows of the queue -/

/-- The `CHECK` constraints of `paper_execution_jobs`. -/
structure JobChecks (job : PaperJob) : Prop where
  priority : 0 ≤ job.priority
  attempts_nonneg : 0 ≤ job.attemptCount
  maxAttempts : 1 ≤ job.maxAttempts
  attempts_le : job.attemptCount ≤ job.maxAttempts
  generation : 0 ≤ job.leaseGeneration
  lease : (job.status = .running ∧ (∃ owner, job.leaseOwner = some owner ∧ blank owner = false) ∧
      ∃ expiresAt, job.leaseExpiresAt = some expiresAt) ∨
    (job.status ≠ .running ∧ job.leaseOwner = none ∧ job.leaseExpiresAt = none)
  errorCode : ∀ code, job.lastErrorCode = some code → blank code = false
  reason : ∀ reason, job.deadLetterReason = some reason → blank reason = false

/-- A job as its insertion leaves it. -/
structure FreshJob (job : PaperJob) : Prop where
  status : job.status = .pending
  attempts : job.attemptCount = 0
  owner : job.leaseOwner = none
  expiry : job.leaseExpiresAt = none
  generation : job.leaseGeneration = 0
  errorCode : job.lastErrorCode = none
  reason : job.deadLetterReason = none
  priority : 0 ≤ job.priority
  maxAttempts : 1 ≤ job.maxAttempts

/-- The paper orders of an intent. -/
def paperOrders (db : PaperDatabase) (orderIntentId : ℤ) : List ExchangeOrder :=
  db.exchangeOrders.rows.filter fun order =>
    order.orderIntentId = orderIntentId ∧ order.executionMode = .paper

/-- The fills of the paper orders of an intent. -/
def paperFills (db : PaperDatabase) (orderIntentId : ℤ) : List OrderFill :=
  db.orderFills.rows.filter fun fill => fill.fillSource = .paperSimulator ∧
    fill.exchangeOrderId ∈ (paperOrders db orderIntentId).map ExchangeOrder.id

/-- A queue of fresh jobs: none of their intents has a paper order, and the ids and foreign
keys of the order tables are in order. -/
structure FreshQueue (db : PaperDatabase) : Prop where
  jobs : ∀ job ∈ db.jobs.rows, FreshJob job
  unfilled : ∀ job ∈ db.jobs.rows, paperOrders db job.orderIntentId = []
  orderIds : ∀ order ∈ db.exchangeOrders.rows, order.id < db.exchangeOrders.nextId
  fillOrders : ∀ fill ∈ db.orderFills.rows, fill.exchangeOrderId < db.exchangeOrders.nextId

/-! ## What a transaction can do -/

/-- `table'` is `table` with `job'` in the place of `job`. -/
def Replaced (table table' : JobTable) (job job' : PaperJob) : Prop :=
  table'.rows = table.rows.map fun row => if row.id = job.id then job' else row

/-- An update by id replaces the one job of that id. -/
theorem update_replaced (hjob : job ∈ table.rows) (change : PaperJob → PaperJob)
    (hrows : table'.rows = table.rows.map fun row => if row.id = job.id then change row else row) :
    Replaced table table' job (change job) := by
  rw [Replaced, hrows]
  refine List.map_congr_left fun row hrow => ?_
  by_cases hsame : row.id = job.id
  · obtain rfl := List.inj_on_of_nodup_map table.uniqueId hrow hjob hsame
    simp
  · simp [hsame]

/-- A replaced table holds the new job and the other ones. -/
theorem mem_replaced {job' row : PaperJob} (h : Replaced table table' job job')
    (hrow : row ∈ table'.rows) : row = job' ∨ row ∈ table.rows ∧ row.id ≠ job.id := by
  rw [h] at hrow
  obtain ⟨old, hold, rfl⟩ := List.mem_map.mp hrow
  by_cases hsame : old.id = job.id
  · exact Or.inl (by simp [hsame])
  · exact Or.inr ⟨by simpa [hsame] using hold, by simp [hsame]⟩

/-- What the transactions of a worker make of a job, a completion apart. -/
inductive WorkerChange (queriedAt : Instant) : PaperJob → PaperJob → Prop
  | claimed (job : PaperJob) (worker : String) (expiresAt : Instant)
      (hdue : job.due queriedAt = true) (hattempts : job.attemptCount < job.maxAttempts)
      (hworker : blank worker = false) :
      WorkerChange queriedAt job (job.claimed worker expiresAt)
  | failed (job : PaperJob) (now : Instant) (errorCode message : String)
      (hrunning : job.status = .running) (hcode : blank errorCode = false)
      (hmessage : blank message = false) :
      WorkerChange queriedAt job (job.failed now errorCode message)
  | deferred (job : PaperJob) (now : Instant) (hrunning : job.status = .running) :
      WorkerChange queriedAt job (job.deferred now)

/-- The tables that only the transactions of a worker write are the same. -/
structure SameQueue (db db' : PaperDatabase) : Prop where
  jobs : db'.jobs = db.jobs
  exchangeOrders : db'.exchangeOrders = db.exchangeOrders
  orderFills : db'.orderFills = db.orderFills

/-- One job is changed, and neither an order nor a fill. -/
structure JobChanged (queriedAt : Instant) (db db' : PaperDatabase) (job job' : PaperJob) :
    Prop where
  mem : job ∈ db.jobs.rows
  change : WorkerChange queriedAt job job'
  replaced : Replaced db.jobs db'.jobs job job'
  exchangeOrders : db'.exchangeOrders = db.exchangeOrders
  orderFills : db'.orderFills = db.orderFills

/-- A running job is completed, with an order and a fill of its own. -/
structure JobCompleted (db db' : PaperDatabase) (job : PaperJob) (order : ExchangeOrder)
    (fill : OrderFill) : Prop where
  mem : job ∈ db.jobs.rows
  running : job.status = .running
  replaced : Replaced db.jobs db'.jobs job job.completed
  intent : order.orderIntentId = job.orderIntentId
  mode : order.executionMode = .paper
  orderId : order.id = db.exchangeOrders.nextId
  orders : db'.exchangeOrders.rows = db.exchangeOrders.rows ++ [order]
  nextId : db'.exchangeOrders.nextId = db.exchangeOrders.nextId + 1
  fillOrder : fill.exchangeOrderId = order.id
  source : fill.fillSource = .paperSimulator
  fills : db'.orderFills.rows = db.orderFills.rows ++ [fill]

theorem find_some {id : ℤ} (h : table.find id = some job) : job ∈ table.rows ∧ job.id = id :=
  ⟨List.mem_of_find?_eq_some h, by simpa using List.find?_some h⟩

/-- A job of the table is found by its id. -/
theorem find_of_mem (h : job ∈ table.rows) : table.find job.id = some job := by
  cases hfind : table.find job.id with
  | none => simpa using List.find?_eq_none.mp hfind job h
  | some other =>
    obtain ⟨hother, hid⟩ := find_some hfind
    rw [List.inj_on_of_nodup_map table.uniqueId hother h hid]

/-- The locked job is in the table and its lease is the presented one. -/
theorem lockedClaimedPaperJob_eq_ok
    (h : lockedClaimedPaperJob now db jobId workerId leaseGeneration = .ok job) :
    job ∈ db.jobs.rows ∧ job.id = jobId ∧ holdsLease now workerId leaseGeneration job = true := by
  unfold lockedClaimedPaperJob at h
  cases hfilter : (db.jobs.find jobId).filter (holdsLease now workerId leaseGeneration) with
  | none => simp [hfilter] at h
  | some found =>
    rw [hfilter] at h
    obtain rfl := Except.ok.inj h
    obtain ⟨hfound, hlease⟩ := Option.filter_eq_some_iff.mp hfilter
    exact ⟨(find_some hfound).1, (find_some hfound).2, hlease⟩

theorem holdsLease_running (h : holdsLease now workerId leaseGeneration job = true) :
    job.status = .running := by
  simp only [holdsLease, decide_eq_true_eq] at h
  exact h.1

/-- The candidate of a claim can be claimed and is not locked. -/
theorem claimCandidate?_some (h : claimCandidate? db now locked = some job) :
    job ∈ db.jobs.rows ∧ claimable db now job = true := by
  have hmem := mem_sortedBy.mp (List.mem_of_head? h)
  simp only [List.mem_filter, Bool.and_eq_true] at hmem
  exact ⟨hmem.1, hmem.2.1⟩

/-- A claim that returns a job has claimed it. -/
theorem claim_some {response : PaperExecutionJobResponse} (h : claimNextPaperExecutionJob queriedAt
      updatedAt locked db workerId leaseSeconds = .ok (some response, db')) :
    ∃ job, claimCandidate? db queriedAt locked = some job ∧
      job.attemptCount < job.maxAttempts ∧ blank (strip workerId) = false ∧
      Replaced db.jobs db'.jobs job
        (job.claimed (strip workerId) (updatedAt.addSeconds leaseSeconds)) ∧
      db'.exchangeOrders = db.exchangeOrders ∧ db'.orderFills = db.orderFills ∧
      paperExecutionJobResponse db' job.id = .ok response := by
  obtain ⟨worker, hworker, h⟩ := bind_eq_ok.mp h
  obtain ⟨rfl, hblank⟩ := nonBlank_eq_ok hworker
  cases hcandidate : claimCandidate? db queriedAt locked with
  | none => simp [claimNextPaperExecutionJobInConnection, hcandidate] at h
  | some job =>
    have hmem := (claimCandidate?_some hcandidate).1
    by_cases hattempts : job.attemptCount < job.maxAttempts
    · simp only [claimNextPaperExecutionJobInConnection, hcandidate, hattempts, if_true] at h
      obtain ⟨found, hfound, h⟩ := bind_eq_ok.mp h
      obtain ⟨hresponse, rfl⟩ := Prod.mk.inj (pure_eq_ok.mp h)
      obtain rfl := Option.some.inj hresponse
      exact ⟨job, rfl, hattempts, hblank,
        update_replaced hmem (fun row => row.claimed _ _) rfl, rfl, rfl, hfound⟩
    · simp [claimNextPaperExecutionJobInConnection, hcandidate, hattempts] at h

/-- A claim that returns no job changes nothing. -/
theorem claim_none (h : claimNextPaperExecutionJob queriedAt updatedAt locked db workerId
      leaseSeconds = .ok (none, db')) : db' = db := by
  obtain ⟨worker, -, h⟩ := bind_eq_ok.mp h
  cases hcandidate : claimCandidate? db queriedAt locked with
  | none =>
    simp only [claimNextPaperExecutionJobInConnection, hcandidate] at h
    exact (Prod.mk.inj (pure_eq_ok.mp h)).2.symm
  | some job =>
    by_cases hattempts : job.attemptCount < job.maxAttempts
    · simp only [claimNextPaperExecutionJobInConnection, hcandidate, hattempts, if_true] at h
      obtain ⟨found, -, h⟩ := bind_eq_ok.mp h
      cases (Prod.mk.inj (pure_eq_ok.mp h)).1
    · simp only [claimNextPaperExecutionJobInConnection, hcandidate, hattempts, if_false] at h
      exact (Prod.mk.inj (pure_eq_ok.mp h)).2.symm

/-- A recorded fill is a completion of its job. -/
theorem recordPaperFill_completed (hmem : job ∈ db.jobs.rows) (hrunning : job.status = .running)
    (hintent : intent.orderIntentId = job.orderIntentId) {quantity price : ℚ} (h : recordPaperFill
      ar db job intent quantity price occurredAt knowledgeAt evidence = .ok (summary, db')) :
    ∃ order fill, JobCompleted db db' job order fill := by
  obtain ⟨⟨order, orders⟩, horder, h⟩ := bind_eq_ok.mp h
  obtain ⟨⟨fill, fills⟩, hfill, h⟩ := bind_eq_ok.mp h
  obtain ⟨positions, -, h⟩ := bind_eq_ok.mp h
  obtain ⟨-, rfl⟩ := Prod.mk.inj (pure_eq_ok.mp h)
  obtain ⟨horderRow, horders, hnextId⟩ := OrderTable.insert_eq_ok horder
  obtain ⟨hfillRow, hfills, -⟩ := FillTable.insert_eq_ok hfill
  obtain ⟨-, hfillOrder, -, hsource, -⟩ := FillValues.row_eq_ok hfillRow
  exact ⟨order, fill, {
    mem := hmem
    running := hrunning
    replaced := update_replaced hmem PaperJob.completed rfl
    intent := by rw [horderRow]; exact hintent
    mode := by rw [horderRow]; rfl
    orderId := by rw [horderRow]; rfl
    orders := horders
    nextId := hnextId
    fillOrder := hfillOrder
    source := hsource
    fills := hfills }⟩

/-- The intent of the join is the one asked for. -/
theorem paperIntent?_id {orderIntentId : ℤ} (h : paperIntent? db orderIntentId = some intent) :
    intent.orderIntentId = orderIntentId := by
  simp only [paperIntent?, Option.bind_eq_bind, Option.bind_eq_some_iff] at h
  obtain ⟨row, -, bot, -, h⟩ := h
  split_ifs at h
  rw [← Option.some.inj h]

/-- What a successful call of `completeClaimedPaperExecutionJob` did. -/
theorem complete_cases {fillPrice : ℚ} {filledQuantity : Option ℚ} (h :
      completeClaimedPaperExecutionJob ar queriedAt updatedAt db jobId workerId leaseGeneration
      fillPrice filledQuantity occurredAt knowledgeAt evidence = .ok (summary, db')) :
    (∃ job, JobChanged queriedAt db db' job (job.deferred updatedAt)) ∨
      ∃ job order fill, JobCompleted db db' job order fill := by
  obtain ⟨-, h⟩ := guard_eq_ok.mp h
  obtain ⟨worker, -, h⟩ := bind_eq_ok.mp h
  obtain ⟨job, hjob, h⟩ := bind_eq_ok.mp h
  obtain ⟨hmem, -, hlease⟩ := lockedClaimedPaperJob_eq_ok hjob
  have hrunning := holdsLease_running hlease
  obtain ⟨intent, hintent, h⟩ := bind_eq_ok.mp h
  split_ifs at h with hswitch
  · obtain ⟨-, rfl⟩ := Prod.mk.inj (pure_eq_ok.mp h)
    exact Or.inl ⟨job, hmem, .deferred job updatedAt hrunning,
      update_replaced hmem (fun row => row.deferred updatedAt) rfl, rfl, rfl⟩
  · obtain ⟨quantity, -, h⟩ := bind_eq_ok.mp h
    have hid : intent.orderIntentId = job.orderIntentId := by
      unfold paperIntentRow at hintent
      cases hjoined : paperIntent? db job.orderIntentId with
      | none => simp [hjoined] at hintent
      | some joined =>
        rw [hjoined] at hintent
        exact Except.ok.inj hintent ▸ paperIntent?_id hjoined
    obtain ⟨order, fill, hcompleted⟩ := recordPaperFill_completed hmem hrunning hid h
    exact Or.inr ⟨job, order, fill, hcompleted⟩

/-- What a successful call of `failClaimedPaperExecutionJob` did. -/
theorem fail_changed {errorCode message : String} (h : failClaimedPaperExecutionJob queriedAt
      updatedAt db jobId workerId leaseGeneration errorCode message = .ok (summary, db')) :
    ∃ job job', JobChanged queriedAt db db' job job' := by
  obtain ⟨worker, -, h⟩ := bind_eq_ok.mp h
  obtain ⟨job, hjob, h⟩ := bind_eq_ok.mp h
  obtain ⟨hmem, -, hlease⟩ := lockedClaimedPaperJob_eq_ok hjob
  obtain ⟨code, hcode, h⟩ := bind_eq_ok.mp h
  obtain ⟨text, htext, h⟩ := bind_eq_ok.mp h
  obtain ⟨-, rfl⟩ := Prod.mk.inj (pure_eq_ok.mp h)
  exact ⟨job, _, hmem, .failed job updatedAt code text (holdsLease_running hlease)
    (nonBlank_eq_ok hcode).2 (nonBlank_eq_ok htext).2,
    update_replaced hmem (fun row => row.failed updatedAt code text) rfl, rfl, rfl⟩

/-- A transaction leaves the queue, changes one job or completes one.
SOURCE: portfolio_bot_store.py:212-442 -/
theorem commit_cases (ar : Arithmetic) (queriedAt updatedAt : Instant) (db : PaperDatabase)
    (transaction : PaperTransaction) : SameQueue db (transaction.commit ar queriedAt updatedAt db) ∨
    (∃ job job', JobChanged queriedAt db (transaction.commit ar queriedAt updatedAt db) job job') ∨
    ∃ job order fill,
      JobCompleted db (transaction.commit ar queriedAt updatedAt db) job order fill := by
  unfold PaperTransaction.commit
  cases hrun : transaction.run ar queriedAt updatedAt db with
  | error error => exact Or.inl ⟨rfl, rfl, rfl⟩
  | ok db' =>
    cases transaction with
    | claim locked workerId leaseSeconds =>
      obtain ⟨⟨response, committed⟩, hcall, rfl⟩ := map_eq_ok.mp hrun
      cases response with
      | none => exact Or.inl (claim_none hcall ▸ ⟨rfl, rfl, rfl⟩)
      | some response =>
        obtain ⟨job, hcandidate, hattempts, hblank, hreplaced, horders, hfills, -⟩ :=
          claim_some hcall
        obtain ⟨hmem, hclaimable⟩ := claimCandidate?_some hcandidate
        have hdue : job.due queriedAt = true := (Bool.and_eq_true_iff.mp hclaimable).1
        exact Or.inr (Or.inl ⟨job, _, hmem, .claimed job _ _ hdue hattempts hblank, hreplaced,
          horders, hfills⟩)
    | complete jobId workerId leaseGeneration fillPrice filledQuantity occurredAt knowledgeAt
        evidence =>
      obtain ⟨⟨summary, committed⟩, hcall, rfl⟩ := map_eq_ok.mp hrun
      rcases complete_cases hcall with ⟨job, hchanged⟩ | hcompleted
      · exact Or.inr (Or.inl ⟨job, _, hchanged⟩)
      · exact Or.inr (Or.inr hcompleted)
    | fail jobId workerId leaseGeneration errorCode message =>
      obtain ⟨⟨summary, committed⟩, hcall, rfl⟩ := map_eq_ok.mp hrun
      exact Or.inr (Or.inl (fail_changed hcall))
    | other orderIntents botInstances killSwitches positionProjections =>
      obtain rfl := Except.ok.inj hrun
      exact Or.inl ⟨rfl, rfl, rfl⟩

end Goodmoneying.Analysis
