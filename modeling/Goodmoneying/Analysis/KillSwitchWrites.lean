import Goodmoneying.Analysis.RiskLimits
import Goodmoneying.Program.KillSwitchFence

/-!
# What a worker's transaction writes

A commit changes one intent, one job and what is filled for that intent (`WriteEffect`). What the
other transactions have read stays true beside it.
-/

namespace Goodmoneying.Analysis

open List Library Program

variable {workerId : String} {ar : Arithmetic} {updatedAt : Instant} {db db' : TradingDatabase}
variable {orderIntentId leaseSeconds : ℤ} {now : Instant} {row : CreatedIntent}
  {activeSwitch : Option KillSwitch} {candidate : PaperJob}

/-- The candidate query and the statements after it are the claim. -/
theorem claimNextPaperExecutionJob_eq (queriedAt updatedAt : Instant) (locked : ℤ → Bool)
    (db : PaperDatabase) (workerId : String) (leaseSeconds : ℤ) :
    claimNextPaperExecutionJob queriedAt updatedAt locked db workerId leaseSeconds = (do
      let worker ← nonBlank workerId "workerId"
      match claimCandidate? db queriedAt locked with
      | none => pure (none, db)
      | some candidate => claimCandidate updatedAt db candidate worker leaseSeconds) := by
  refine bind_congr fun worker => ?_
  cases hcandidate : claimCandidate? db queriedAt locked with
  | none => simp [claimNextPaperExecutionJobInConnection, hcandidate]
  | some candidate =>
    have hfind := find_of_mem (claimCandidate?_some hcandidate).1
    by_cases hattempts : candidate.attemptCount < candidate.maxAttempts
    · simp only [claimNextPaperExecutionJobInConnection, hcandidate, claimCandidate, hfind,
        hattempts, Option.filter_some, decide_true, Bool.and_self, if_true, Option.elim_some]
    · simp only [claimNextPaperExecutionJobInConnection, hcandidate, claimCandidate, hfind,
        hattempts, Option.filter_some, decide_true, decide_false, Bool.and_false,
        Bool.false_eq_true, if_false, Option.elim_none]

/-- What the writes on one intent make of the intents: its row alone is changed, and not in what
names its bot. -/
structure IntentsWritten (orderIntentId : ℤ) (intents intents' : KeyedTable RiskIntent.id) :
    Prop where
  kept : ∀ row ∈ intents.rows, ∃ row' ∈ intents'.rows, row'.id = row.id ∧
    row'.botInstanceId = row.botInstanceId
  changed : ∀ row' ∈ intents'.rows, row' ∈ intents.rows ∨ row'.id = orderIntentId

theorem IntentsWritten.same (orderIntentId : ℤ) (intents : KeyedTable RiskIntent.id) :
    IntentsWritten orderIntentId intents intents where
  kept := fun row hrow => ⟨row, hrow, rfl, rfl⟩
  changed := fun _ hrow => Or.inl hrow

theorem IntentsWritten.update (intents : KeyedTable RiskIntent.id)
    {change : RiskIntent → RiskIntent} (hid : ∀ row, (change row).id = row.id)
    (hbot : ∀ row, (change row).botInstanceId = row.botInstanceId) :
    IntentsWritten orderIntentId intents
      (intents.update (fun row => row.id = orderIntentId) change hid) where
  kept := by
    intro row hrow
    refine ⟨_, mem_map_of_mem hrow, ?_⟩
    by_cases hown : row.id = orderIntentId
    · simp [hown, hid, hbot]
    · simp [hown]
  changed := by
    intro row' hrow'
    obtain ⟨row, hrow, rfl⟩ := mem_map.mp hrow'
    by_cases hown : row.id = orderIntentId
    · exact Or.inr (by simp [hown, hid])
    · exact Or.inl (by simpa [hown] using hrow)

/-- What a transaction does to the jobs: nothing, a new one of its intent, or another state of the
job that it holds. -/
inductive JobsWritten (transaction : ReadyTransaction) (jobs jobs' : JobTable) : Prop
  | same (h : jobs' = jobs)
  | added (job : PaperJob) (hrows : jobs'.rows = jobs.rows ++ [job])
      (hintent : job.orderIntentId = transaction.orderIntentId) (hstatus : job.status = .pending)
      (hattempts : job.attemptCount = 0)
  | replaced (job job' : PaperJob) (hheld : transaction.job? = some job)
      (hmem : job ∈ jobs.rows) (hreplaced : Replaced jobs jobs' job job')
      (hintent : job'.orderIntentId = transaction.orderIntentId)
      (hattempts : 0 ≤ job.attemptCount → (job.status = .running → 1 ≤ job.attemptCount) →
        0 ≤ job'.attemptCount ∧ (job'.status = .running → 1 ≤ job'.attemptCount))

/-- The rows that a transaction adds or changes are of its intent. -/
structure WriteEffect (transaction : ReadyTransaction) (db db' : TradingDatabase) : Prop where
  bots : db'.botInstances = db.botInstances
  intents : IntentsWritten transaction.orderIntentId db.orderIntents db'.orderIntents
  jobs : JobsWritten transaction db.jobs db'.jobs
  orders : ∀ order ∈ db'.exchangeOrders.rows, order ∈ db.exchangeOrders.rows ∨
    order.orderIntentId = transaction.orderIntentId
  fills : ∀ fill ∈ db'.orderFills.rows, fill ∈ db.orderFills.rows ∨
    ∃ order ∈ db'.exchangeOrders.rows, order.id = fill.exchangeOrderId ∧
      order.orderIntentId = transaction.orderIntentId

theorem insertPaperJob_eq_ok {jobs jobs' : JobTable} {id : ℤ}
    (h : insertPaperJob now jobs id orderIntentId = .ok jobs') :
    jobs' = jobs ∨ ∃ job : PaperJob, jobs'.rows = jobs.rows ++ [job] ∧
      job.orderIntentId = orderIntentId ∧ job.status = .pending ∧ job.attemptCount = 0 := by
  unfold insertPaperJob at h
  split_ifs at h with hintent hid
  · exact Or.inl (Except.ok.inj h).symm
  · obtain rfl := Except.ok.inj h
    exact Or.inr ⟨_, rfl, rfl, rfl, rfl⟩

/-- The tables after a recorded decision. -/
theorem recordRiskDecision_eq_ok {db db' : RiskDatabase} {decision : RiskDecision}
    (h : recordRiskDecision now db row decision workerId = .ok db') :
    db'.orderIntents = db.orderIntents.update (fun other => other.id = row.intent.id)
      (RiskIntent.decide decision) (RiskIntent.decide_id decision) ∧
    (db'.jobs = db.jobs ∨ decision.status = .approved ∧
      ∃ job : PaperJob, db'.jobs.rows = db.jobs.rows ++ [job] ∧
        job.orderIntentId = row.intent.id ∧ job.status = .pending ∧ job.attemptCount = 0) := by
  unfold recordRiskDecision at h
  dsimp only at h
  by_cases hevent : (decisionEvent row decision workerId).uniqueKey ∈
      db.riskEvents.rows.map RiskDecisionEvent.uniqueKey
  · rw [dif_pos hevent] at h
    cases h
  rw [dif_neg hevent] at h
  split_ifs at h with hpaper
  · obtain ⟨jobs, hjobs, h⟩ := bind_eq_ok.mp h
    obtain rfl := pure_eq_ok.mp h
    exact ⟨rfl, (insertPaperJob_eq_ok hjobs).imp_right fun hadded => ⟨hpaper.1, hadded⟩⟩
  · obtain rfl := pure_eq_ok.mp h
    exact ⟨rfl, Or.inl rfl⟩

theorem evaluation_effect {limits : List RiskLimit} (h : (ReadyTransaction.evaluation workerId row
      activeSwitch limits).write ar updatedAt db = .ok db') :
    WriteEffect (.evaluation workerId row activeSwitch limits) db db' := by
  obtain ⟨decision, -, h⟩ := bind_eq_ok.mp h
  obtain ⟨tables, htables, rfl⟩ := map_eq_ok.mp h
  obtain ⟨hintents, hjobs⟩ := recordRiskDecision_eq_ok htables
  exact {
    bots := rfl
    intents := by
      rw [show (db.withRisk tables).orderIntents = tables.orderIntents from rfl, hintents]
      exact IntentsWritten.update _ _ fun _ => rfl
    jobs := by
      rcases hjobs with hsame | ⟨-, job, hrows, hintent, hstatus, hattempts⟩
      · exact .same hsame
      · exact .added job hrows hintent hstatus hattempts
    orders := fun _ horder => Or.inl horder
    fills := fun _ hfill => Or.inl hfill }

/-- A claim of a job of the table claims this job or none. -/
theorem claimCandidate_eq_ok {db db' : PaperDatabase} {response : Option PaperExecutionJobResponse}
    (hmem : candidate ∈ db.jobs.rows)
    (h : claimCandidate updatedAt db candidate workerId leaseSeconds = .ok (response, db')) :
    db' = db ∨ db' = { db with
      jobs := db.jobs.update candidate.id
        (fun job => job.claimed workerId (updatedAt.addSeconds leaseSeconds))
        (fun _ => rfl) (fun _ => rfl) } := by
  unfold claimCandidate at h
  rw [find_of_mem hmem] at h
  by_cases hattempts : candidate.attemptCount < candidate.maxAttempts
  · simp only [Option.filter_some, hattempts, decide_true, Bool.and_self, if_true,
      Option.elim_some] at h
    obtain ⟨found, -, h⟩ := bind_eq_ok.mp h
    exact Or.inr (Prod.mk.inj (pure_eq_ok.mp h)).2.symm
  · simp only [Option.filter_some, hattempts, decide_true, decide_false, Bool.and_false,
      Bool.false_eq_true, if_false, Option.elim_none] at h
    exact Or.inl (Prod.mk.inj (pure_eq_ok.mp h)).2.symm

theorem claim_effect (hmem : candidate ∈ db.jobs.rows)
    (h : (ReadyTransaction.claim workerId leaseSeconds candidate).write ar updatedAt db = .ok db') :
    WriteEffect (.claim workerId leaseSeconds candidate) db db' := by
  obtain ⟨⟨response, tables⟩, hclaim, rfl⟩ := map_eq_ok.mp h
  have hmemPaper : candidate ∈ (db.paper []).jobs.rows := hmem
  rcases claimCandidate_eq_ok hmemPaper hclaim with rfl | rfl
  · exact ⟨rfl, .same _ _, .same rfl, fun _ h => Or.inl h, fun _ h => Or.inl h⟩
  · refine ⟨rfl, .same _ _, ?_, fun _ h => Or.inl h, fun _ h => Or.inl h⟩
    refine .replaced candidate
      (candidate.claimed workerId (updatedAt.addSeconds leaseSeconds)) rfl hmem
      (update_replaced hmem (fun job => job.claimed _ _) rfl) rfl fun hnonneg _ => ?_
    have hcount : (candidate.claimed workerId (updatedAt.addSeconds leaseSeconds)).attemptCount =
      candidate.attemptCount + 1 := rfl
    exact ⟨by omega, fun _ => by omega⟩

/-- What a completion commits. -/
theorem completion_effect {arguments : PaperCompletion} {job : PaperJob} {intent : PaperIntent}
    (hmem : job ∈ db.jobs.rows) (hrunning : job.status = .running)
    (hintent : intent.orderIntentId = job.orderIntentId) (h : (ReadyTransaction.completion arguments
      job intent activeSwitch).write ar updatedAt db = .ok db') :
    WriteEffect (.completion arguments job intent activeSwitch) db db' := by
  have hmemPaper : job ∈ (db.paper []).jobs.rows := hmem
  simp only [ReadyTransaction.write] at h
  split_ifs at h with hswitch
  · obtain rfl := pure_eq_ok.mp h
    refine ⟨rfl, .same _ _, ?_, fun _ h => Or.inl h, fun _ h => Or.inl h⟩
    refine .replaced job (job.deferred updatedAt) rfl hmem
      (update_replaced hmem (fun row => row.deferred updatedAt) rfl) rfl fun _ _ => ?_
    exact ⟨le_max_right _ _, fun hstatus => by cases hstatus⟩
  · obtain ⟨quantity, -, h⟩ := bind_eq_ok.mp h
    obtain ⟨⟨summary, tables⟩, hrecord, h⟩ := bind_eq_ok.mp h
    obtain rfl := pure_eq_ok.mp h
    obtain ⟨order, fill, hcompleted⟩ := recordPaperFill_completed hmemPaper hrunning hintent hrecord
    have horder : order ∈ tables.exchangeOrders.rows := by
      rw [hcompleted.orders]
      exact mem_append_right _ (mem_singleton_self order)
    refine ⟨rfl, ?_, ?_, ?_, ?_⟩
    · rw [ReadyTransaction.orderIntentId, ← hintent]
      exact @IntentsWritten.update intent.orderIntentId db.orderIntents
        (fun row => { row with status := .paperFilled }) (fun _ => rfl) fun _ => rfl
    · exact .replaced job job.completed rfl hmem hcompleted.replaced rfl
        fun hnonneg _ => ⟨hnonneg, fun hstatus => by cases hstatus⟩
    · intro row hrow
      rw [show ((db.withPaper tables).setPaperFilled intent.orderIntentId).exchangeOrders =
        tables.exchangeOrders from rfl, hcompleted.orders] at hrow
      rcases mem_append.mp hrow with hold | hadded
      · exact Or.inl hold
      · exact Or.inr (mem_singleton.mp hadded ▸ hcompleted.intent)
    · intro row hrow
      rw [show ((db.withPaper tables).setPaperFilled intent.orderIntentId).orderFills =
        tables.orderFills from rfl, hcompleted.fills] at hrow
      rcases mem_append.mp hrow with hold | hadded
      · exact Or.inl hold
      · obtain rfl := mem_singleton.mp hadded
        exact Or.inr ⟨order, horder, hcompleted.fillOrder.symm, hcompleted.intent⟩

end Goodmoneying.Analysis
