import Goodmoneying.Analysis.KillSwitchWrites

/-!
# The kill switch is a fence

A worker's transaction reads the switches after it has locked their table, and commits before it
gives the lock up, so what it read is what is committed when it commits (`FenceSound`). Where a
switch is armed over its intent at that moment, it approves nothing, claims nothing and fills
nothing (`killSwitch_fences`).
-/

namespace Goodmoneying.Analysis

open List Library Program

variable {db db' : TradingDatabase} {orderIntentId : ℤ} {job : PaperJob} {intent : PaperIntent}
  {switches : List KillSwitch} {state state' : FenceState} {id : ℕ} {ar : Arithmetic}
  {updatedAt : Instant} {transaction : ReadyTransaction}
variable {portfolioId botInstanceId : ℤ} {killSwitches : LockedTable KillSwitch}
  {jobs jobs' : JobTable} {locked : ℤ → Bool} {row : CreatedIntent} {limits : List RiskLimit}
  {activeSwitch : KillSwitch}

/-! ## What the open transactions have read -/

/-- The intent is of the bot, and the bot of the portfolio. -/
def IntentOf (db : TradingDatabase) (orderIntentId portfolioId botInstanceId : ℤ) : Prop :=
  ∃ row ∈ db.orderIntents.rows, row.id = orderIntentId ∧ row.botInstanceId = botInstanceId ∧
    ∃ bot, db.botInstances botInstanceId = some bot ∧ bot.portfolioId = portfolioId

/-- The selected job still runs, and its intent is the one that was read. -/
structure IntentCurrent (db : TradingDatabase) (job : PaperJob) (intent : PaperIntent) : Prop where
  mem : job ∈ db.jobs.rows
  running : job.status = .running
  sameIntent : intent.orderIntentId = job.orderIntentId
  covers : IntentOf db job.orderIntentId intent.portfolioId intent.botInstanceId

/-- The rows and the switch that a transaction decides by are the committed ones. -/
def ReadyCurrent (db : TradingDatabase) (switches : List KillSwitch) : ReadyTransaction → Prop
  | .evaluation _ row activeSwitch _ =>
    IntentOf db row.intent.id row.bot.portfolioId row.intent.botInstanceId ∧
    activeSwitch = activeKillSwitch switches
      (riskScopes row.bot.portfolioId row.intent.botInstanceId)
  | .claim _ _ candidate => candidate ∈ db.jobs.rows ∧
    ∃ portfolioId botInstanceId, IntentOf db candidate.orderIntentId portfolioId botInstanceId ∧
      activeKillSwitch switches (riskScopes portfolioId botInstanceId) = none
  | .completion _ job intent activeSwitch => IntentCurrent db job intent ∧
    activeSwitch = activeKillSwitch switches
      (riskScopes intent.portfolioId intent.botInstanceId)

/-- What a transaction has read is what is committed. -/
def ReadsCurrent (db : TradingDatabase) (switches : List KillSwitch) : WorkerTransaction → Prop
  | .intentSelected _ row | .evaluationFenced _ row =>
    IntentOf db row.intent.id row.bot.portfolioId row.intent.botInstanceId
  | .switchRead _ row activeSwitch =>
    IntentOf db row.intent.id row.bot.portfolioId row.intent.botInstanceId ∧
    activeSwitch = activeKillSwitch switches
      (riskScopes row.bot.portfolioId row.intent.botInstanceId)
  | .claimFenced .. => True
  | .jobSelected _ job => job ∈ db.jobs.rows ∧ job.status = .running
  | .paperIntentSelected _ job intent | .completionFenced _ job intent =>
    IntentCurrent db job intent
  | .ready transaction => ReadyCurrent db switches transaction

/-- The transaction has locked the table of the switches. -/
def fenced : WorkerTransaction → Bool
  | .intentSelected .. | .jobSelected .. | .paperIntentSelected .. => false
  | .evaluationFenced .. | .switchRead .. | .claimFenced .. | .completionFenced ..
  | .ready _ => true

/-- What the tables keep of the intents and of the held job. -/
structure Keeps (db db' : TradingDatabase) (job? : Option PaperJob) : Prop where
  bots : db'.botInstances = db.botInstances
  intents : ∀ row ∈ db.orderIntents.rows, ∃ row' ∈ db'.orderIntents.rows, row'.id = row.id ∧
    row'.botInstanceId = row.botInstanceId
  jobs : ∀ job, job? = some job → job ∈ db.jobs.rows → job ∈ db'.jobs.rows

theorem Keeps.refl (db : TradingDatabase) (job? : Option PaperJob) : Keeps db db job? :=
  ⟨rfl, fun row hrow => ⟨row, hrow, rfl, rfl⟩, fun _ _ hjob => hjob⟩

theorem IntentOf.keeps {job? : Option PaperJob}
    (h : IntentOf db orderIntentId portfolioId botInstanceId) (hkeeps : Keeps db db' job?) :
    IntentOf db' orderIntentId portfolioId botInstanceId := by
  obtain ⟨row, hrow, hid, hbotId, bot, hbot, hportfolio⟩ := h
  obtain ⟨row', hrow', hsameId, hsameBot⟩ := hkeeps.intents row hrow
  exact ⟨row', hrow', hsameId.trans hid, hsameBot.trans hbotId, bot, hkeeps.bots ▸ hbot,
    hportfolio⟩

/-- The selected intent stays current while its row is held. -/
theorem IntentCurrent.keeps (h : IntentCurrent db job intent) (hkeeps : Keeps db db' (some job)) :
    IntentCurrent db' job intent :=
  ⟨hkeeps.jobs job rfl h.mem, h.running, h.sameIntent, h.covers.keeps hkeeps⟩

/-- What was read stays true while the tables keep it, and the switches while they are locked. -/
theorem ReadsCurrent.keeps {switches' : List KillSwitch} {transaction : WorkerTransaction}
    (h : ReadsCurrent db switches transaction) (hkeeps : Keeps db db' transaction.job?)
    (hswitches : fenced transaction = true → switches' = switches) :
    ReadsCurrent db' switches' transaction := by
  cases transaction with
  | intentSelected _ row => exact IntentOf.keeps h hkeeps
  | evaluationFenced _ row => exact IntentOf.keeps h hkeeps
  | switchRead _ row activeSwitch => exact ⟨IntentOf.keeps h.1 hkeeps, hswitches rfl ▸ h.2⟩
  | claimFenced => trivial
  | jobSelected _ job => exact ⟨hkeeps.jobs job rfl h.1, h.2⟩
  | paperIntentSelected _ job intent => exact IntentCurrent.keeps h hkeeps
  | completionFenced _ job intent => exact IntentCurrent.keeps h hkeeps
  | ready transaction =>
    cases transaction with
    | evaluation _ row activeSwitch _ => exact ⟨IntentOf.keeps h.1 hkeeps, hswitches rfl ▸ h.2⟩
    | claim _ _ candidate =>
      obtain ⟨hmem, portfolioId, botInstanceId, hcovers, hnone⟩ := h
      exact ⟨hkeeps.jobs candidate rfl hmem, portfolioId, botInstanceId, hcovers.keeps hkeeps,
        hswitches rfl ▸ hnone⟩
    | completion _ job intent activeSwitch =>
      exact ⟨IntentCurrent.keeps h.1 hkeeps, hswitches rfl ▸ h.2⟩

/-- A running job has counted its attempt. -/
def AttemptsCounted (jobs : JobTable) : Prop :=
  ∀ job ∈ jobs.rows, 0 ≤ job.attemptCount ∧ (job.status = .running → 1 ≤ job.attemptCount)

/-- The lock of the switches excludes insertions, the transactions that read them hold it, what
the transactions have read is committed, and no two of them hold one job. -/
structure FenceSound (state : FenceState) : Prop where
  exclusive : state.killSwitches.Exclusive
  shared : ∀ id transaction, state.transactions id = some transaction →
    fenced transaction = true → state.killSwitches.shared id = true
  current : ∀ id transaction, state.transactions id = some transaction →
    ReadsCurrent state.db state.killSwitches.rows transaction
  held : ∀ id transaction job, state.transactions id = some transaction →
    transaction.job? = some job → ¬ state.JobHeld id job.id
  attempts : AttemptsCounted state.db.jobs

/-- The state before any transaction. -/
structure Started (state : FenceState) : Prop where
  transactions : ∀ id, state.transactions id = none
  pending : ∀ id, state.killSwitches.pending id = []
  attempts : AttemptsCounted state.db.jobs

theorem Started.sound (h : Started state) : FenceSound state where
  exclusive := fun _ _ other _ => h.pending other
  shared := fun id transaction hopen => by simp [h.transactions id] at hopen
  current := fun id transaction hopen => by simp [h.transactions id] at hopen
  held := fun id transaction job hopen => by simp [h.transactions id] at hopen
  attempts := h.attempts

/-! ## One step -/

/-- A statement of a transaction that reads, and perhaps locks the switches. -/
theorem FenceSound.continue (h : FenceSound state) {transaction : WorkerTransaction}
    (hexclusive : killSwitches.Exclusive) (hrows : killSwitches.rows = state.killSwitches.rows)
    (hothers : ∀ other, state.killSwitches.shared other = true → killSwitches.shared other = true)
    (hshared : fenced transaction = true → killSwitches.shared id = true)
    (hcurrent : ReadsCurrent state.db state.killSwitches.rows transaction)
    (hheld : ∀ job, transaction.job? = some job → ¬ state.JobHeld id job.id) :
    FenceSound { state with
      killSwitches := killSwitches
      transactions := Function.update state.transactions id (some transaction) } := by
  have hbefore : ∀ {other opened},
      Function.update state.transactions id (some transaction) other = some opened →
      (other = id ∧ opened = transaction) ∨
        (other ≠ id ∧ state.transactions other = some opened) := by
    intro other opened hopen
    rcases eq_or_ne other id with rfl | hne
    · rw [Function.update_self] at hopen
      exact Or.inl ⟨rfl, (Option.some.inj hopen).symm⟩
    · exact Or.inr ⟨hne, (Function.update_of_ne hne _ _).symm.trans hopen⟩
  refine ⟨hexclusive, ?_, ?_, ?_, h.attempts⟩
  · intro other opened hopen hfenced
    rcases hbefore hopen with ⟨rfl, rfl⟩ | ⟨-, hopened⟩
    · exact hshared hfenced
    · exact hothers other (h.shared other opened hopened hfenced)
  · intro other opened hopen
    rw [hrows]
    rcases hbefore hopen with ⟨rfl, rfl⟩ | ⟨-, hopened⟩
    · exact hcurrent
    · exact h.current other opened hopened
  · rintro other opened job hopen hjob ⟨third, thirdOpened, thirdJob, hthird, hthirdOpen,
      hthirdJob, hsame⟩
    rcases hbefore hopen with ⟨rfl, rfl⟩ | ⟨hne, hopened⟩
    · obtain ⟨-, hthirdOpened⟩ := (hbefore hthirdOpen).resolve_left fun h => hthird h.1
      exact hheld job hjob ⟨third, thirdOpened, thirdJob, hthird, hthirdOpened, hthirdJob, hsame⟩
    · rcases hbefore hthirdOpen with ⟨rfl, rfl⟩ | ⟨-, hthirdOpened⟩
      · exact hheld thirdJob hthirdJob ⟨other, opened, job, hne, hopened, hjob, hsame.symm⟩
      · exact h.held other opened job hopened hjob
          ⟨third, thirdOpened, thirdJob, hthird, hthirdOpened, hthirdJob, hsame⟩

/-- The end of a transaction, with what it committed. -/
theorem FenceSound.finish (h : FenceSound state) (hexclusive : killSwitches.Exclusive) (hothers : ∀
      other, other ≠ id → state.killSwitches.shared other = true → killSwitches.shared other = true
      ∧ killSwitches.rows = state.killSwitches.rows) (hkeeps : ∀ other transaction, other ≠ id →
      state.transactions other = some transaction → Keeps state.db db transaction.job?)
    (hattempts : AttemptsCounted db.jobs) :
    FenceSound {
      db := db
      killSwitches := killSwitches
      transactions := Function.update state.transactions id none } := by
  have hbefore : ∀ {other transaction},
      Function.update state.transactions id none other = some transaction →
      other ≠ id ∧ state.transactions other = some transaction := by
    intro other transaction hopen
    rcases eq_or_ne other id with rfl | hne
    · simp at hopen
    · exact ⟨hne, (Function.update_of_ne hne _ _).symm.trans hopen⟩
  refine ⟨hexclusive, ?_, ?_, ?_, hattempts⟩
  · intro other transaction hopen hfenced
    obtain ⟨hne, hopened⟩ := hbefore hopen
    exact (hothers other hne (h.shared other transaction hopened hfenced)).1
  · intro other transaction hopen
    obtain ⟨hne, hopened⟩ := hbefore hopen
    refine (h.current other transaction hopened).keeps (hkeeps other transaction hne hopened) ?_
    exact fun hfenced => (hothers other hne (h.shared other transaction hopened hfenced)).2
  · rintro other transaction job hopen hjob ⟨third, thirdOpened, thirdJob, hthird, hthirdOpen,
      hthirdJob, hsame⟩
    obtain ⟨-, hopened⟩ := hbefore hopen
    obtain ⟨-, hthirdOpened⟩ := hbefore hthirdOpen
    exact h.held other transaction job hopened hjob
      ⟨third, thirdOpened, thirdJob, hthird, hthirdOpened, hthirdJob, hsame⟩

/-- The writes of a transaction that is current are of its intent. -/
theorem ReadyCurrent.effect (h : ReadyCurrent db switches transaction)
    (hwrite : transaction.write ar updatedAt db = .ok db') : WriteEffect transaction db db' := by
  cases transaction with
  | evaluation => exact evaluation_effect hwrite
  | claim _ _ candidate => exact claim_effect h.1 hwrite
  | completion _ job intent _ =>
    exact completion_effect h.1.mem h.1.running h.1.sameIntent hwrite

theorem JobsWritten.kept (h : JobsWritten transaction jobs jobs') (hjob : job ∈ jobs.rows)
    (hown : ∀ own, transaction.job? = some own → own.id ≠ job.id) : job ∈ jobs'.rows := by
  cases h with
  | same h => exact h ▸ hjob
  | added new hrows => exact hrows ▸ mem_append_left _ hjob
  | replaced own job' hheld _ hreplaced =>
    rw [hreplaced]
    exact mem_map.mpr ⟨job, hjob, if_neg (hown own hheld).symm⟩

theorem JobsWritten.attempts (h : JobsWritten transaction jobs jobs')
    (hcounted : AttemptsCounted jobs) : AttemptsCounted jobs' := by
  cases h with
  | same h => exact h ▸ hcounted
  | added new hrows _ hstatus hattempts =>
    intro job hjob
    rw [hrows] at hjob
    rcases mem_append.mp hjob with hold | hnew
    · exact hcounted job hold
    · obtain rfl := mem_singleton.mp hnew
      exact ⟨hattempts.ge, fun hrunning => by rw [hstatus] at hrunning; cases hrunning⟩
  | replaced own job' _ hmem hreplaced _ hattempts =>
    intro job hjob
    obtain ⟨hnonneg, hrunning⟩ := hcounted own hmem
    rcases mem_replaced hreplaced hjob with rfl | ⟨hold, -⟩
    · exact hattempts hnonneg hrunning
    · exact hcounted job hold

/-- A commit of a worker keeps the fence sound. -/
theorem WorkerCommit.sound (hcommit : WorkerCommit ar id transaction state state')
    (h : FenceSound state) : FenceSound state' := by
  obtain ⟨updatedAt, db, hready, hwrite⟩ := hcommit
  have heffect := ReadyCurrent.effect (h.current id _ hready) hwrite
  refine h.finish (h.exclusive.commit id) ?_ ?_ (heffect.jobs.attempts h.attempts)
  · intro other hne hshared
    exact ⟨LockedTable.rollback_shared hne hshared, h.exclusive.commit_rows hshared hne.symm⟩
  · intro other opened hne hopen
    refine ⟨heffect.bots, heffect.intents.kept, fun job hheld hjob => ?_⟩
    refine heffect.jobs.kept hjob fun own hown hsame => ?_
    exact h.held other opened job hopen hheld ⟨id, _, own, hne.symm, hready, hown, hsame⟩

/-! ## What the queries read -/

theorem nextCreatedIntent?_covers (h : nextCreatedIntent? (db.risk switches) locked = some row) :
    IntentOf db row.intent.id row.bot.portfolioId row.intent.botInstanceId := by
  obtain ⟨intent, hintent, hcreated⟩ := mem_filterMap.mp (mem_sortedBy.mp (mem_of_head? h))
  simp only [createdIntent?, Option.bind_eq_bind, Option.bind_eq_some_iff] at hcreated
  obtain ⟨bot, hbot, hcreated⟩ := hcreated
  split_ifs at hcreated
  obtain rfl := Option.some.inj hcreated
  exact ⟨intent, (mem_filter.mp hintent).1, rfl, rfl, bot, hbot, rfl⟩

theorem paperIntent?_covers (h : paperIntent? (db.paper switches) orderIntentId = some intent) :
    intent.orderIntentId = orderIntentId ∧
      IntentOf db orderIntentId intent.portfolioId intent.botInstanceId := by
  simp only [paperIntent?, Option.bind_eq_bind, Option.bind_eq_some_iff] at h
  obtain ⟨found, hfound, bot, hbot, h⟩ := h
  split_ifs at h
  obtain rfl := Option.some.inj h
  obtain ⟨row, hrow, rfl⟩ := Option.map_eq_some_iff.mp hfound
  obtain ⟨hmem, hid⟩ := (KeyedTable.find_eq_some_iff (k := orderIntentId)
    (fun _ => of_decide_eq_true)).mp hrow
  exact ⟨rfl, row, hmem, of_decide_eq_true hid, rfl, bot, hbot, rfl⟩

/-- The candidate of a claim is not locked, and no switch is armed over its intent. -/
theorem claimCandidate?_current {queriedAt : Instant} {candidate : PaperJob}
    (h : claimCandidate? (db.paper switches) queriedAt locked = some candidate) :
    locked candidate.id = false ∧ candidate ∈ db.jobs.rows ∧
    ∃ portfolioId botInstanceId, IntentOf db candidate.orderIntentId portfolioId botInstanceId ∧
      activeKillSwitch switches (riskScopes portfolioId botInstanceId) = none := by
  have hmem := mem_sortedBy.mp (mem_of_head? h)
  rw [mem_filter, Bool.and_eq_true, Bool.not_eq_true'] at hmem
  obtain ⟨hrow, hclaimable, hlocked⟩ := hmem
  rw [claimable, Bool.and_eq_true, Option.any_eq_true] at hclaimable
  obtain ⟨-, intent, hintent, hnone⟩ := hclaimable
  exact ⟨hlocked, hrow, intent.portfolioId, intent.botInstanceId, (paperIntent?_covers hintent).2,
    Option.isNone_iff_eq_none.mp hnone⟩

/-! ## Runs -/

/-- Every step keeps the fence sound. -/
theorem FenceStep.sound (hstep : FenceStep ar state state') (h : FenceSound state) :
    FenceSound state' := by
  -- a statement that leaves the switches alone
  have hread : ∀ {id : ℕ} {transaction : WorkerTransaction},
      (fenced transaction = true → state.killSwitches.shared id = true) →
      ReadsCurrent state.db state.killSwitches.rows transaction →
      (∀ job, transaction.job? = some job → ¬ state.JobHeld id job.id) →
      FenceSound (state.continueWith id transaction) :=
    fun hshared hcurrent hheld =>
      h.continue h.exclusive rfl (fun _ hother => hother) hshared hcurrent hheld
  -- `_lock_kill_switch_table`
  have hfence : ∀ {id : ℕ} {transaction : WorkerTransaction}, state.killSwitches.CanShare id →
      ReadsCurrent state.db state.killSwitches.rows transaction →
      (∀ job, transaction.job? = some job → ¬ state.JobHeld id job.id) →
      FenceSound (state.fence id transaction) :=
    fun hlock hcurrent hheld => h.continue (h.exclusive.share hlock) rfl
      (fun _ hother => LockedTable.share_shared hother)
      (fun _ => LockedTable.share_shared_self ..) hcurrent hheld
  have hnoJob : ∀ {id : ℕ} (job : PaperJob), (none : Option PaperJob) = some job →
      ¬ state.JobHeld id job.id := fun _ hnone => by cases hnone
  cases hstep with
  | insertSwitch id row hworker hlock _ =>
    exact { h with exclusive := h.exclusive.insert hlock row }
  | commitSwitches id hworker =>
    have hsame : Function.update state.transactions id none = state.transactions := by
      rw [← show state.transactions id = none from hworker, Function.update_eq_self]
    have hfinish := h.finish (h.exclusive.commit id)
      (fun other hne hshared => ⟨LockedTable.rollback_shared hne hshared,
        h.exclusive.commit_rows hshared hne.symm⟩)
      (fun _ transaction _ _ => Keeps.refl state.db transaction.job?) h.attempts
    rwa [hsame] at hfinish
  | rollback id =>
    exact h.finish (h.exclusive.rollback id)
      (fun other hne hshared => ⟨LockedTable.rollback_shared hne hshared, rfl⟩)
      (fun _ transaction _ _ => Keeps.refl state.db transaction.job?) h.attempts
  | selectIntent id workerId locked row _ _ hrow =>
    exact hread (fun hfenced => by cases hfenced) (nextCreatedIntent?_covers hrow) hnoJob
  | fenceEvaluation id workerId row hopen hlock =>
    have hcurrent := h.current id _ hopen
    exact hfence hlock hcurrent hnoJob
  | readSwitch id workerId row hopen =>
    exact hread (fun _ => h.shared id _ hopen rfl) ⟨h.current id _ hopen, rfl⟩ hnoJob
  | readLimits id workerId row activeSwitch hopen =>
    have hcurrent := h.current id _ hopen
    exact hread (fun _ => h.shared id _ hopen rfl) hcurrent hnoJob
  | fenceClaim id workerId leaseSeconds _ hlock => exact hfence hlock trivial hnoJob
  | selectCandidate id workerId leaseSeconds queriedAt locked candidate hopen hlocked hcandidate =>
    obtain ⟨hfree, hcurrent⟩ := claimCandidate?_current hcandidate
    refine hread (fun _ => h.shared id _ hopen rfl) hcurrent fun job hjob hheld => ?_
    obtain rfl := Option.some.inj hjob
    have hlockedJob := hlocked candidate hcurrent.1 (Or.inl hheld)
    exact Bool.false_ne_true (hfree.symm.trans hlockedJob)
  | selectJob id arguments queriedAt jobId workerId leaseGeneration job _ hlock hjob =>
    obtain ⟨hmem, rfl, hlease⟩ := lockedClaimedPaperJob_eq_ok hjob
    refine hread (fun hfenced => by cases hfenced) ⟨hmem, holdsLease_running hlease⟩ ?_
    intro held hheld
    obtain rfl := Option.some.inj hheld
    exact hlock
  | selectPaperIntent id arguments job intent hopen _ hintent =>
    obtain ⟨hmem, hrunning⟩ := h.current id _ hopen
    have hjoined : paperIntent? (state.db.paper state.killSwitches.rows) job.orderIntentId =
        some intent := by
      unfold paperIntentRow at hintent
      split at hintent
      next joined hjoined => rw [hjoined, Except.ok.inj hintent]
      next => cases hintent
    obtain ⟨hsame, hcovers⟩ := paperIntent?_covers hjoined
    exact hread (fun hfenced => by cases hfenced) ⟨hmem, hrunning, hsame, hcovers⟩
      fun held hheld => h.held id _ held hopen hheld
  | fenceCompletion id arguments job intent hopen hlock =>
    have hcurrent := h.current id _ hopen
    exact hfence hlock hcurrent fun held hheld => h.held id _ held hopen hheld
  | readCompletionSwitch id arguments job intent hopen =>
    exact hread (fun _ => h.shared id _ hopen rfl) ⟨h.current id _ hopen, rfl⟩
      fun held hheld => h.held id _ held hopen hheld
  | commit _ id transaction hcommit => exact WorkerCommit.sound hcommit h

theorem fence_run_sound (hrun : Relation.ReflTransGen (FenceStep ar) state state')
    (h : FenceSound state) : FenceSound state' := by
  induction hrun with
  | refl => exact h
  | tail _ hstep ih => exact FenceStep.sound hstep ih

/-! ## The fence -/

/-- The latest committed switch of the global scope, of the portfolio of the intent or of its bot
is armed. -/
def ArmedOver (state : FenceState) (orderIntentId : ℤ) : Prop :=
  ∃ row ∈ state.db.orderIntents.rows, row.id = orderIntentId ∧
    ∃ bot, state.db.botInstances row.botInstanceId = some bot ∧
      ∃ scope ∈ riskScopes bot.portfolioId row.botInstanceId, ∃ latest,
        latestSwitch state.killSwitches.rows scope = some latest ∧ latest.state = .armed

/-- What a transaction that is current reads of an armed switch. -/
theorem ArmedOver.active (h : ArmedOver state orderIntentId)
    (hcovers : IntentOf state.db orderIntentId portfolioId botInstanceId) :
    activeKillSwitch state.killSwitches.rows (riskScopes portfolioId botInstanceId) ≠ none := by
  obtain ⟨row, hrow, hid, bot, hbot, scope, hscope, latest, hlatest, harmed⟩ := h
  obtain ⟨other, hother, hotherId, rfl, otherBot, hotherBot, rfl⟩ := hcovers
  obtain rfl := KeyedTable.eq_of_key hrow hother (hid.trans hotherId.symm)
  obtain rfl := Option.some.inj (hbot.symm.trans hotherBot)
  intro hnone
  exact activeKillSwitch_isNone_iff.mp (Option.isNone_iff_eq_none.mpr hnone) scope hscope latest
    hlatest harmed

/-- Nothing is approved, queued or filled. -/
structure NothingTraded (db db' : TradingDatabase) : Prop where
  approved : ∀ row ∈ db'.orderIntents.rows, row.status = .approved → row ∈ db.orderIntents.rows
  jobs : db'.jobs = db.jobs
  exchangeOrders : db'.exchangeOrders = db.exchangeOrders
  orderFills : db'.orderFills = db.orderFills
  positionProjections : db'.positionProjections = db.positionProjections

/-- The running job waits again, without its lease and with one attempt less, and nothing else is
changed. -/
structure PutOff (db db' : TradingDatabase) (job : PaperJob) (updatedAt : Instant) : Prop where
  mem : job ∈ db.jobs.rows
  waits : (job.deferred updatedAt).status = .retryWait
  lease : (job.deferred updatedAt).leaseOwner = none ∧
    (job.deferred updatedAt).leaseExpiresAt = none
  attempt : (job.deferred updatedAt).attemptCount = job.attemptCount - 1
  replaced : Replaced db.jobs db'.jobs job (job.deferred updatedAt)
  rest : db' = { db with jobs := db'.jobs }

/-- What the commit of a transaction is under an armed switch: an evaluation approves nothing,
there is no claim, and a completion puts its job back. -/
def Blocked (db db' : TradingDatabase) : ReadyTransaction → Prop
  | .evaluation .. => NothingTraded db db'
  | .claim .. => False
  | .completion _ job _ _ => ∃ updatedAt, PutOff db db' job updatedAt

/-- A decision under an active switch is a rejection. -/
theorem riskDecision_blocked {row : KillSwitch} {intent : RiskIntent}
    {executionMode : ExecutionMode} {decision : RiskDecision}
    (h : riskDecision ar (some row) limits intent executionMode = .ok decision) :
    decision.status = .riskRejected := by
  obtain ⟨notional, -, h⟩ := bind_eq_ok.mp h
  obtain rfl := pure_eq_ok.mp h
  rfl

theorem evaluation_blocked {workerId : String} (h : (ReadyTransaction.evaluation workerId row (some
      activeSwitch) limits).write ar updatedAt db = .ok db') : NothingTraded db db' := by
  obtain ⟨decision, hdecision, h⟩ := bind_eq_ok.mp h
  have hrejected := riskDecision_blocked hdecision
  obtain ⟨tables, htables, rfl⟩ := map_eq_ok.mp h
  obtain ⟨hintents, hjobs⟩ := recordRiskDecision_eq_ok htables
  refine ⟨fun decided hdecided happroved => ?_, ?_, rfl, rfl, rfl⟩
  · rw [show (db.withRisk tables).orderIntents = tables.orderIntents from rfl, hintents] at hdecided
    obtain ⟨other, hother, rfl⟩ := mem_map.mp hdecided
    split_ifs at happroved ⊢ with hown
    · rw [show (other.decide decision).status = decision.status from rfl, hrejected] at happroved
      cases happroved
    · exact hother
  · rcases hjobs with hsame | ⟨happroved, -⟩
    · exact hsame
    · rw [hrejected] at happroved
      cases happroved

theorem completion_blocked {arguments : PaperCompletion} (hmem : job ∈ db.jobs.rows)
    (hattempts : 1 ≤ job.attemptCount) (h : (ReadyTransaction.completion arguments job intent (some
      activeSwitch)).write ar updatedAt db = .ok db') : PutOff db db' job updatedAt := by
  simp only [ReadyTransaction.write, Option.isSome_some, if_true] at h
  obtain rfl := pure_eq_ok.mp h
  exact {
    mem := hmem
    waits := rfl
    lease := ⟨rfl, rfl⟩
    attempt := max_eq_left (by omega)
    replaced := update_replaced hmem (fun row => row.deferred updatedAt) rfl
    rest := rfl }

/-- In every interleaving, what a worker's transaction commits is of its own intent, and where a
switch is armed over that intent at the commit, it approves, claims and fills nothing: a completion
puts its job back and changes nothing else.
SOURCE: portfolio_bot_store.py:212-391, 1028-1155, 1267-1298 -/
theorem killSwitch_fences (ar : Arithmetic) {start state state' : FenceState}
    (hstart : Started start) (hrun : Relation.ReflTransGen (FenceStep ar) start state) {id : ℕ}
    {transaction : ReadyTransaction} (hcommit : WorkerCommit ar id transaction state state') :
    WriteEffect transaction state.db state'.db ∧
    (ArmedOver state transaction.orderIntentId → Blocked state.db state'.db transaction) := by
  have hsound := fence_run_sound hrun hstart.sound
  obtain ⟨updatedAt, db, hready, hwrite⟩ := hcommit
  have hcurrent : ReadyCurrent state.db state.killSwitches.rows transaction :=
    hsound.current id _ hready
  refine ⟨hcurrent.effect hwrite, fun harmed => ?_⟩
  cases transaction with
  | evaluation workerId row activeSwitch limits =>
    obtain ⟨hcovers, rfl⟩ := hcurrent
    obtain ⟨active, hactive⟩ := Option.ne_none_iff_exists'.mp (harmed.active hcovers)
    rw [hactive] at hwrite
    exact evaluation_blocked hwrite
  | claim workerId leaseSeconds candidate =>
    obtain ⟨-, portfolioId, botInstanceId, hcovers, hnone⟩ := hcurrent
    exact harmed.active hcovers hnone
  | completion arguments job intent activeSwitch =>
    obtain ⟨hintent, rfl⟩ := hcurrent
    obtain ⟨active, hactive⟩ := Option.ne_none_iff_exists'.mp (harmed.active hintent.covers)
    rw [hactive] at hwrite
    exact ⟨updatedAt, completion_blocked hintent.mem
      ((hsound.attempts job hintent.mem).2 hintent.running) hwrite⟩

/-! ## A switch armed beside a completion -/

def runningJob : PaperJob := (insertedJob 1).claimed "worker" 90

/-- The order, approved. -/
def approvedOrder : RiskIntent :=
  { unpricedOrder with toOrderIntent := { createdOrder with status := .approved } }

/-- An approved intent whose job runs, before any transaction. -/
def runningJobState : FenceState where
  db := {
    orderIntents := (limitedDatabase approvedOrder).orderIntents
    botInstances := (limitedDatabase approvedOrder).botInstances
    riskLimits := (limitedDatabase approvedOrder).riskLimits
    riskEvents := (limitedDatabase approvedOrder).riskEvents
    jobs := ⟨[runningJob], nodup_singleton _, nodup_singleton _⟩
    nextJobId := 2
    exchangeOrders := (approvedDatabase twoJobs).exchangeOrders
    orderFills := (approvedDatabase twoJobs).orderFills
    positionProjections := fun _ _ => none }
  killSwitches := ⟨[], fun _ => [], fun _ => false⟩
  transactions := fun _ => none

def globalArmed : KillSwitch := ⟨"global", "global", .armed, 1⟩

def paperCompletion : PaperCompletion where
  fillPrice := 10
  filledQuantity := none
  occurredAt := 1
  knowledgeAt := 1
  evidence := []

def runningIntent : PaperIntent where
  orderIntentId := 1
  instrumentId := 1
  side := .buy
  requestedQuantity := some 100
  requestedNotional := some 10
  botInstanceId := 1
  portfolioId := 1

/-- The switch is armed after the completion has selected its job. -/
theorem killSwitch_fences_armedAfterSelection :
    ∃ state state' transaction, WorkerCommit .default 2 transaction state state' ∧
      ArmedOver state transaction.orderIntentId ∧ Blocked state.db state'.db transaction := by
  have hstarted : Started runningJobState := by
    refine ⟨fun _ => rfl, fun _ => rfl, fun job hjob => ?_⟩
    obtain rfl := mem_singleton.mp hjob
    decide
  have hfree : ∀ (state : FenceState) (id : ℕ) (jobId : ℤ),
      (∀ other, other ≠ id → state.transactions other = none) → ¬ state.JobHeld id jobId := by
    rintro state id jobId hnone ⟨other, transaction, job, hne, hopen, -⟩
    cases (hnone other hne).symm.trans hopen
  have hselect := @FenceStep.selectJob .default runningJobState 2 paperCompletion 10 1 "worker" 1
    runningJob ⟨rfl, rfl⟩ (hfree _ _ _ fun _ _ => rfl) rfl
  have hinsert := @FenceStep.insertSwitch .default _ 1 globalArmed
    (rfl : (runningJobState.continueWith 2 (.jobSelected paperCompletion runningJob)).NotWorker 1)
    (fun _ _ => rfl) (by rintro other (h | ⟨_, h⟩) <;> cases h)
  have harmed := @FenceStep.commitSwitches .default { runningJobState.continueWith 2
      (.jobSelected paperCompletion runningJob) with
    killSwitches := runningJobState.killSwitches.insert 1 globalArmed } 1 rfl
  let selected : FenceState := { runningJobState.continueWith 2
      (.jobSelected paperCompletion runningJob) with
    killSwitches := (runningJobState.killSwitches.insert 1 globalArmed).commit 1 }
  have hintent := @FenceStep.selectPaperIntent .default selected 2 paperCompletion runningJob
    runningIntent rfl
    (by
      rintro ⟨other, transaction, hne, hopen, -⟩
      cases (Function.update_of_ne hne _ _).symm.trans hopen)
    rfl
  have hfence := @FenceStep.fenceCompletion .default
    (selected.continueWith 2 (.paperIntentSelected paperCompletion runningJob runningIntent)) 2
    paperCompletion runningJob runningIntent rfl
    (by
      intro other _
      rcases eq_or_ne other 1 with rfl | hne
      · rfl
      · exact (Function.update_of_ne hne _ _).trans (Function.update_of_ne hne _ _))
  let fencedState := (selected.continueWith 2
    (.paperIntentSelected paperCompletion runningJob runningIntent)).fence 2
    (.completionFenced paperCompletion runningJob runningIntent)
  have hread := @FenceStep.readCompletionSwitch .default fencedState 2 paperCompletion runningJob
    runningIntent rfl
  have hactive : activeKillSwitch fencedState.killSwitches.rows (riskScopes
      runningIntent.portfolioId runningIntent.botInstanceId) = some globalArmed := by decide +kernel
  rw [hactive] at hread
  have hrun := Relation.ReflTransGen.refl.tail hselect |>.tail hinsert |>.tail harmed
    |>.tail hintent |>.tail hfence |>.tail hread
  let completion := ReadyTransaction.completion paperCompletion runningJob runningIntent
    (some globalArmed)
  have hcommit := @WorkerCommit.commit .default 2 completion
    (fencedState.continueWith 2 (.ready completion)) 1 _ rfl rfl
  have harmedOver : ArmedOver (fencedState.continueWith 2 (.ready completion)) 1 :=
    ⟨_, mem_singleton_self _, rfl, _, rfl, ("global", "global"), by decide, globalArmed,
      by decide +kernel, rfl⟩
  exact ⟨_, _, _, hcommit, harmedOver,
    (killSwitch_fences .default hstarted hrun hcommit).2 harmedOver⟩

end Goodmoneying.Analysis
