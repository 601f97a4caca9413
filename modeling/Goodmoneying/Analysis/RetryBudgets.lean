import Goodmoneying.Analysis.MicrostructureQueueSafety
import Goodmoneying.Library.RetryBudget
import Goodmoneying.Program.IndicatorQueue

/-!
# When retry budgets hold

Every update of a row of the two invalidation queues is a step of its retry budget, so a row that
waits has an attempt left, and a claim of it is within the limit. A claim of a row whose lease has
expired does not look at the attempts: where the worker of a last attempt crashes, the row is
claimed once more (`lastAttempt_claimedAgain`). The budgets hold in every run whose claims take no
such row over (`retryBudgets_hold`).
-/

namespace Goodmoneying.Analysis

open List Library Program

variable {sha256 : List ℕ → String}
variable {row : MicrostructureInvalidation} {claim : IndicatorClaim} {now : Instant}
  {locked : ℤ → Bool} {event : QueuesEvent}

/-! ## Rows as budgets -/

def indicatorBudget (row : IndicatorInvalidation) : RetryBudget :=
  ⟨row.attemptCount, row.maxAttempts, row.waits⟩

def microstructureBudget (row : MicrostructureInvalidation) : RetryBudget :=
  ⟨row.attemptCount, row.maxAttempts, row.waits⟩

/-- The default of `max_attempts`. -/
theorem five_pos : (0 : ℤ) < 5 := by decide

theorem indicatorBudget_claim (now : Instant) (workerId : String) (row : IndicatorInvalidation) :
    indicatorBudget (row.claim now workerId) = (indicatorBudget row).claim := rfl

theorem indicatorBudget_release (now : Instant) (row : IndicatorInvalidation) :
    indicatorBudget (row.release now) = (indicatorBudget row).putBack := rfl

theorem indicatorBudget_complete (now : Instant) (progress : Option IndicatorProgress)
    (row : IndicatorInvalidation) : indicatorBudget (row.complete now progress) =
      (indicatorBudget row).restart progress.isSome := by
  cases progress <;> rfl

theorem indicatorBudget_fail (now : Instant) (exc : String) (row : IndicatorInvalidation) :
    indicatorBudget (row.fail now exc) = (indicatorBudget row).fail := by
  unfold indicatorBudget IndicatorInvalidation.fail RetryBudget.fail IndicatorInvalidation.waits
  by_cases h : row.maxAttempts ≤ row.attemptCount <;> simp [h]

theorem microstructureBudget_claim (now : Instant) (workerId : String)
    (row : MicrostructureInvalidation) :
    microstructureBudget (row.claim now workerId) = (microstructureBudget row).claim := rfl

theorem microstructureBudget_merge (db : MicrostructureDatabase) (now : Instant)
    (event : MarketEvent) (hwaits : row.waits = true) :
    microstructureBudget (row.merge db now event) = microstructureBudget row := by
  unfold microstructureBudget
  rw [hwaits]
  rfl

theorem microstructureBudget_statusAfterFailure (row row' : MicrostructureInvalidation)
    (hstatus : row'.status = row.statusAfterFailure)
    (hattempts : row'.attemptCount = row.attemptCount)
    (hlimit : row'.maxAttempts = row.maxAttempts) :
    microstructureBudget row' = (microstructureBudget row).fail := by
  unfold microstructureBudget RetryBudget.fail MicrostructureInvalidation.waits
  rw [hstatus, hattempts, hlimit, MicrostructureInvalidation.statusAfterFailure]
  by_cases h : row.maxAttempts ≤ row.attemptCount <;> simp [h]

theorem microstructureBudget_release (now : Instant) (error : String)
    (row : MicrostructureInvalidation) :
    microstructureBudget (row.release now error) = (microstructureBudget row).fail :=
  microstructureBudget_statusAfterFailure row _ rfl rfl rfl

theorem microstructureBudget_fail (now : Instant) (exc : MicrostructureException)
    (row : MicrostructureInvalidation) :
    microstructureBudget (row.fail now exc) = (microstructureBudget row).fail :=
  microstructureBudget_statusAfterFailure row _ rfl rfl rfl

theorem microstructureBudget_restore (previousStatus : InvalidationStatus)
    (row : MicrostructureInvalidation) :
    microstructureBudget (row.restore previousStatus) = (microstructureBudget row).putBack := by
  cases previousStatus <;> rfl

/-! ## What a worker's updates keep -/

section Work

variable {evidence : EvidenceTables} {db db' : MicrostructureDatabase}
  {P : MicrostructureInvalidation → Prop}

theorem updateInvalidations_keeps {p : MicrostructureInvalidation → Bool}
    {change : MicrostructureInvalidation → MicrostructureInvalidation}
    {hid : ∀ row, (change row).id = row.id} (h : ∀ row ∈ db.invalidations.rows, P row)
    (hchange : ∀ row, P row → P (change row))
    (hok : updateInvalidations db p change hid = .ok db') :
    ∀ row ∈ db'.invalidations.rows, P row := by
  obtain ⟨rfl, -⟩ := updateInvalidations_eq_ok hok
  exact IdentityTable.forall_update hid h fun row _ _ hrow => hchange row hrow

/-- A property of rows that the updates of a worker keep. -/
structure KeptByWork (P : MicrostructureInvalidation → Prop) : Prop where
  release : ∀ now error row, P row → P (row.release now error)
  restore : ∀ previousStatus row, P row → P (row.restore previousStatus)
  fail : ∀ now exc row, P row → P (row.fail now exc)
  succeed : ∀ now row, P row → P (row.succeed now)

/-- Work that does not raise keeps it. -/
theorem KeptByWork.work (hkept : KeptByWork P) {clock : WorkClock} {claimed : ClaimedInvalidation}
    (h : ∀ row ∈ db.invalidations.rows, P row)
    (hok : workInvalidation sha256 evidence clock db claimed = .ok db') :
    ∀ row ∈ db'.invalidations.rows, P row := by
  unfold workInvalidation at hok
  split at hok
  next =>
    obtain rfl := Except.ok.inj hok
    exact h
  next live _ =>
    dsimp only at hok
    by_cases hprior : (db.invalidations.rows.any fun row =>
        row.isOf live.key.instrumentId live.key.bucketStartAt && decide (row.id < live.id) &&
          row.isActive) = true
    · rw [if_pos hprior] at hok
      exact updateInvalidations_keeps h (hkept.restore claimed.previousStatus) hok
    rw [if_neg hprior] at hok
    split at hok
    next => exact updateInvalidations_keeps h (hkept.release _ _) hok
    next tradeQuality _ =>
      obtain ⟨candle?, -, hok⟩ := bind_eq_ok.mp hok
      cases candle? with
      | none => exact updateInvalidations_keeps h (hkept.release _ _) hok
      | some candle =>
        dsimp only at hok
        split at hok
        next => cases hok
        next point _ =>
          split at hok
          next sourceAsOf knowledgeAt _ _ =>
            split_ifs at hok
            · obtain rfl := Except.ok.inj hok
              refine IdentityTable.forall_update (MicrostructureInvalidation.succeed_id _) ?_
                fun row _ _ hrow => hkept.succeed _ row hrow
              rwa [insertMaterialization_invalidations]
            · obtain rfl := Except.ok.inj hok
              exact h
          next => exact updateInvalidations_keeps h (hkept.release _ _) hok

/-- Work with its exception handler keeps it. -/
theorem KeptByWork.run (hkept : KeptByWork P) (clock : WorkClock) (failedAt : Instant)
    (claimed : ClaimedInvalidation) (raised : Option MicrostructureException)
    (h : ∀ row ∈ db.invalidations.rows, P row) :
    ∀ row ∈ (runClaimedInvalidation sha256 evidence clock failedAt db claimed
      raised).invalidations.rows, P row := by
  have hhandler : ∀ exc, ∀ row ∈ (runClaimedInvalidation sha256 evidence clock failedAt db claimed
      (some exc)).invalidations.rows, P row := by
    intro exc
    unfold runClaimedInvalidation
    cases hfail : failInvalidation failedAt db claimed exc with
    | error _ => simpa [hfail] using h
    | ok failed =>
      simp only [hfail]
      exact updateInvalidations_keeps h (hkept.fail failedAt exc) hfail
  cases raised with
  | some exc => exact hhandler exc
  | none =>
    unfold runClaimedInvalidation
    dsimp only
    cases hwork : workInvalidation sha256 evidence clock db claimed with
    | ok worked => exact hkept.work h hwork
    | error exc => exact hhandler exc

end Work

/-! ## Claims -/

/-- The invalidation of the microstructure that a claim takes. -/
def takenInvalidation (now : Instant) (locked : ℤ → Bool) (db : MicrostructureDatabase) :
    Option MicrostructureInvalidation :=
  db.invalidations.rows.find? fun row =>
    row.claimable now db.invalidations.rows && !locked row.id

/-- No claim takes over the lease of a last attempt. -/
def TakesNoLastAttempt (state : InvalidationQueues) : QueuesEvent → Prop
  | .indicatorsClaimed claim => ∀ row ∈ indicatorCandidates claim state.indicators.rows,
      row.expired claim.claimedAt = true → row.attemptCount < row.maxAttempts
  | .microstructureClaimed now locked _ =>
      ∀ row ∈ takenInvalidation now locked state.microstructure.db,
        row.status = .running → row.attemptCount < row.maxAttempts
  | _ => True

/-- Every row that is claimed has an attempt left. -/
def ClaimsAttemptLeft (state : InvalidationQueues) : QueuesEvent → Prop
  | .indicatorsClaimed claim => ∀ row ∈ indicatorCandidates claim state.indicators.rows,
      row.attemptCount < row.maxAttempts
  | .microstructureClaimed now locked _ =>
      ∀ row ∈ takenInvalidation now locked state.microstructure.db,
        row.attemptCount < row.maxAttempts
  | _ => True

/-- `0 <= attempt_count <= max_attempts` in both tables. -/
structure WithinAttempts (state : InvalidationQueues) : Prop where
  indicators : ∀ row ∈ state.indicators.rows,
    0 ≤ row.attemptCount ∧ row.attemptCount ≤ row.maxAttempts
  microstructure : ∀ row ∈ state.microstructure.db.invalidations.rows,
    0 ≤ row.attemptCount ∧ row.attemptCount ≤ row.maxAttempts

/-- Every row is within its budget. -/
structure Budgeted (state : InvalidationQueues) : Prop where
  indicators : ∀ row ∈ state.indicators.rows, (indicatorBudget row).Within
  microstructure : ∀ row ∈ state.microstructure.db.invalidations.rows,
    (microstructureBudget row).Within

variable {state state' : InvalidationQueues}

theorem Budgeted.withinAttempts (h : Budgeted state) : WithinAttempts state where
  indicators row hrow := ⟨(h.indicators row hrow).nonneg, (h.indicators row hrow).le_limit⟩
  microstructure row hrow :=
    ⟨(h.microstructure row hrow).nonneg, (h.microstructure row hrow).le_limit⟩

/-- A candidate is a row that is due. -/
theorem mem_indicatorCandidates {rows : List IndicatorInvalidation} {row : IndicatorInvalidation}
    (h : row ∈ indicatorCandidates claim rows) : row ∈ rows ∧ row.due claim.claimedAt = true := by
  unfold indicatorCandidates at h
  split at h
  next => cases h
  next seed _ =>
    split_ifs at h
    · have hfilter := mem_filter.mp (mem_of_mem_take h)
      simp only [Bool.and_eq_true] at hfilter
      exact ⟨hfilter.1, hfilter.2.1.1.2⟩
    · cases h

/-- The invalidation that is taken waits, or its lease has expired. -/
theorem mem_takenInvalidation {db : MicrostructureDatabase}
    (h : row ∈ takenInvalidation now locked db) :
    row ∈ db.invalidations.rows ∧ (row.waits = true ∨ row.status = .running) := by
  have hcondition := List.find?_some h
  simp only [MicrostructureInvalidation.claimable, Bool.and_eq_true, Bool.or_eq_true,
    decide_eq_true_eq] at hcondition
  refine ⟨mem_of_find?_eq_some h, ?_⟩
  exact hcondition.1.1.1.1.imp And.left And.left

/-- Rows that wait have an attempt left; of the others the condition says so. -/
theorem Budgeted.claimsAttemptLeft (h : Budgeted state) (hlast : TakesNoLastAttempt state event) :
    ClaimsAttemptLeft state event := by
  cases event with
  | indicatorsClaimed claim =>
    intro row hrow
    obtain ⟨hmem, hdue⟩ := mem_indicatorCandidates hrow
    rcases Bool.or_eq_true_iff.mp hdue with hwaits | hexpired
    · exact (h.indicators row hmem).left (Bool.and_eq_true_iff.mp hwaits).1
    · exact hlast row hrow hexpired
  | microstructureClaimed now locked workerId =>
    intro row hrow
    obtain ⟨hmem, hwaits | hrunning⟩ := mem_takenInvalidation hrow
    · exact (h.microstructure row hmem).left hwaits
    · exact hlast row hrow hrunning
  | indicatorChanged | indicatorsWorked | evidenceChanged | microstructureStepped => trivial

/-! ## Steps -/

section Indicators

variable {table : IdentityTable IndicatorInvalidation.id}

theorem enqueueIndicator_within (h : ∀ row ∈ table.rows, (indicatorBudget row).Within)
    (now : Instant) (event : IndicatorEvent) :
    ∀ row ∈ (enqueueIndicatorInvalidation now event table).rows, (indicatorBudget row).Within := by
  unfold enqueueIndicatorInvalidation
  split_ifs
  · exact h
  · exact IdentityTable.forall_insert (fun _ => rfl) h (.fresh five_pos)

theorem claimIndicators_within (h : ∀ row ∈ table.rows, (indicatorBudget row).Within)
    (hleft : ∀ row ∈ indicatorCandidates claim table.rows, row.attemptCount < row.maxAttempts) :
    ∀ row ∈ (claimIndicatorInvalidations claim table).2.rows, (indicatorBudget row).Within := by
  unfold claimIndicatorInvalidations
  dsimp only
  split_ifs
  · exact h
  · refine IdentityTable.forall_update (IndicatorInvalidation.claim_id _ _) h
      fun row hrow htaken hwithin => ?_
    obtain ⟨candidate, hcandidate, hid⟩ := mem_map.mp (of_decide_eq_true htaken)
    have heq := IdentityTable.eq_of_key (mem_indicatorCandidates hcandidate).1 hrow hid
    rw [indicatorBudget_claim]
    exact hwithin.claim (heq ▸ hleft candidate hcandidate)

/-- The work on indicators keeps every row within its budget. -/
theorem workIndicators_within (h : ∀ row ∈ table.rows, (indicatorBudget row).Within)
    {calculate : IndicatorCalculation} {clock : IndicatorClock} {claimed : ClaimedIndicators}
    {table' : IdentityTable IndicatorInvalidation.id}
    (hok : workIndicatorInvalidations calculate clock claimed table = .ok table') :
    ∀ row ∈ table'.rows, (indicatorBudget row).Within := by
  unfold workIndicatorInvalidations at hok
  dsimp only at hok
  split_ifs at hok
  · obtain rfl := Except.ok.inj hok
    exact h
  all_goals
    have hlive := @IdentityTable.forall_update _ _ table (fun row => (indicatorBudget row).Within)
      (fun row => row.live clock.renewedAt claimed) (fun row => row.renew clock.renewedAt)
      (IndicatorInvalidation.renew_id clock.renewedAt) h fun row _ _ hrow => hrow
  · obtain rfl := Except.ok.inj hok
    refine IdentityTable.forall_update (IndicatorInvalidation.release_id _) hlive
      fun row _ _ hrow => ?_
    rw [indicatorBudget_release]
    exact hrow.putBack
  · obtain ⟨progress, -, ⟨⟩⟩ := bind_eq_ok.mp hok
  · obtain ⟨progress, -, hok⟩ := bind_eq_ok.mp hok
    obtain rfl := Except.ok.inj hok
    refine IdentityTable.forall_update (IndicatorInvalidation.complete_id _ _) hlive
      fun row _ _ hrow => ?_
    rw [indicatorBudget_complete]
    exact hrow.restart progress.isSome

theorem runIndicators_within (h : ∀ row ∈ table.rows, (indicatorBudget row).Within)
    (calculate : IndicatorCalculation) (clock : IndicatorClock) (raised : Option String)
    (claimed : ClaimedIndicators) :
    ∀ row ∈ (runClaimedIndicators calculate clock raised claimed table).rows,
      (indicatorBudget row).Within := by
  have hhandler : ∀ exc, ∀ row ∈ (failClaimedInvalidations clock.failedAt claimed exc table).rows,
      (indicatorBudget row).Within := by
    intro exc
    refine IdentityTable.forall_update (IndicatorInvalidation.fail_id _ _) h fun row _ _ hrow => ?_
    rw [indicatorBudget_fail]
    exact hrow.fail
  unfold runClaimedIndicators
  cases raised with
  | some exc => exact hhandler exc
  | none =>
    dsimp only
    cases hwork : workIndicatorInvalidations calculate clock claimed table with
    | ok worked => exact workIndicators_within h hwork
    | error exc => exact hhandler exc

end Indicators

section Microstructure

variable {db : MicrostructureDatabase}

theorem within_keptByWork : KeptByWork fun row => (microstructureBudget row).Within where
  release now error row h := by
    rw [microstructureBudget_release]
    exact h.fail
  restore previousStatus row h := by
    rw [microstructureBudget_restore]
    exact h.putBack
  fail now exc row h := by
    rw [microstructureBudget_fail]
    exact h.fail
  succeed now row h := h.succeed

theorem enqueueEvidence_within
    (h : ∀ row ∈ db.invalidations.rows, (microstructureBudget row).Within) (now : Instant)
    (change : EvidenceChange) : ∀ row ∈ (enqueueEvidenceChange now db change).invalidations.rows,
      (microstructureBudget row).Within := by
  unfold enqueueEvidenceChange
  split_ifs
  · exact h
  · exact IdentityTable.forall_insert (fun _ => rfl) h (.fresh five_pos)

theorem enqueueEvidences_within
    (h : ∀ row ∈ db.invalidations.rows, (microstructureBudget row).Within) (now : Instant)
    (changes : List EvidenceChange) :
    ∀ row ∈ (changes.foldl (enqueueEvidenceChange now) db).invalidations.rows,
      (microstructureBudget row).Within := by
  induction changes generalizing db with
  | nil => exact h
  | cons change changes ih => exact ih (enqueueEvidence_within h now change)

theorem enqueueEvent_within (h : ∀ row ∈ db.invalidations.rows, (microstructureBudget row).Within)
    (evidence : EvidenceTables) (now : Instant) (event : MarketEvent) :
    ∀ row ∈ (enqueueMicrostructureInvalidation evidence now db event).invalidations.rows,
      (microstructureBudget row).Within := by
  intro row hrow
  rcases enqueue_cases evidence now db event with ⟨-, hrows⟩ | ⟨-, hrows⟩
  · rw [hrows] at hrow
    obtain ⟨old, hold, rfl⟩ := mem_map.mp hrow
    split_ifs with hmerged
    · rw [microstructureBudget_merge db now event hmerged.1]
      exact h old hold
    · exact h old hold
  · rw [hrows] at hrow
    rcases mem_append.mp hrow with hold | hnew
    · exact h row hold
    · obtain rfl := mem_singleton.mp hnew
      exact .fresh five_pos

theorem claimMicrostructure_within
    (h : ∀ row ∈ db.invalidations.rows, (microstructureBudget row).Within)
    (hleft : ∀ row ∈ takenInvalidation now locked db, row.attemptCount < row.maxAttempts)
    (workerId : String) :
    ∀ row ∈ (claimMicrostructureInvalidation now locked db workerId).2.invalidations.rows,
      (microstructureBudget row).Within := by
  unfold takenInvalidation at hleft
  unfold claimMicrostructureInvalidation
  split
  next => exact h
  next taken htaken =>
    refine IdentityTable.forall_update (MicrostructureInvalidation.claim_id _ _) h
      fun row hrow hid hwithin => ?_
    have heq := IdentityTable.eq_of_key hrow (mem_of_find?_eq_some htaken)
      (of_decide_eq_true hid)
    rw [microstructureBudget_claim]
    exact hwithin.claim (heq ▸ hleft taken htaken)

theorem stepMicrostructure_within {evidence : EvidenceTables} {event : QueueEvent}
    {state state' : MicrostructureState}
    (h : ∀ row ∈ state.db.invalidations.rows, (microstructureBudget row).Within)
    (hevent : ∀ workerId, event ≠ .claimed workerId)
    (hstep : MicrostructureStep sha256 evidence state event state') :
    ∀ row ∈ state'.db.invalidations.rows, (microstructureBudget row).Within := by
  cases hstep with
  | insertsSnapshot row now =>
    refine enqueueEvent_within ?_ evidence now row.event
    exact h
  | insertsTrade row now =>
    refine enqueueEvent_within ?_ evidence now row.event
    exact h
  | claims workerId => exact absurd rfl (hevent workerId)
  | works i claimed clock failedAt raised =>
    exact within_keptByWork.run clock failedAt claimed raised h

end Microstructure

/-- A step whose claims take no last attempt over keeps the budgets. -/
theorem Budgeted.step (h : Budgeted state) (hstep : QueuesStep sha256 state event state')
    (hlast : TakesNoLastAttempt state event) : Budgeted state' := by
  have hleft := h.claimsAttemptLeft hlast
  cases hstep with
  | changesIndicator event now =>
    exact ⟨enqueueIndicator_within h.indicators now event, h.microstructure⟩
  | claimsIndicators claim =>
    exact ⟨claimIndicators_within h.indicators hleft, h.microstructure⟩
  | worksIndicators i claimed calculate clock raised =>
    exact ⟨runIndicators_within h.indicators calculate clock raised claimed, h.microstructure⟩
  | changesEvidence changes now =>
    exact ⟨h.indicators, enqueueEvidences_within h.microstructure now changes⟩
  | stepsMicrostructure evidence event microstructure hevent hmicrostructure =>
    exact ⟨h.indicators, stepMicrostructure_within h.microstructure hevent hmicrostructure⟩
  | claimsMicrostructure now locked workerId =>
    exact ⟨h.indicators, claimMicrostructure_within h.microstructure hleft workerId⟩

/-- A run from empty tables whose claims take no last attempt over. -/
def OrderlyRun (sha256 : List ℕ → String) (start state : InvalidationQueues) : Prop :=
  start.indicators.rows = [] ∧ start.microstructure.db.invalidations.rows = [] ∧
    Relation.ReflTransGen (fun state state' =>
      ∃ event, QueuesStep sha256 state event state' ∧ TakesNoLastAttempt state event) start state

theorem OrderlyRun.budgeted {start : InvalidationQueues} (h : OrderlyRun sha256 start state) :
    Budgeted state := by
  obtain ⟨hindicators, hmicrostructure, hsteps⟩ := h
  induction hsteps with
  | refl => exact ⟨by simp [hindicators], by simp [hmicrostructure]⟩
  | tail _ hstep ih =>
    obtain ⟨event, hstep, hlast⟩ := hstep
    exact ih.step hstep hlast

/-- Where no claim takes over the lease of a last attempt, the attempts stay within their limits,
and no row without an attempt left is claimed.
SOURCE: indicator_store.py:46-133, 384-486; microstructure_store.py:146-323, 718-758 -/
theorem retryBudgets_hold (sha256 : List ℕ → String) (start state : InvalidationQueues)
    (hrun : OrderlyRun sha256 start state) : WithinAttempts state ∧
      ∀ event, TakesNoLastAttempt state event → ClaimsAttemptLeft state event :=
  ⟨hrun.budgeted.withinAttempts, fun _ hlast => hrun.budgeted.claimsAttemptLeft hlast⟩

/-! ## A worker that crashes on every attempt -/

/-- A trade has been inserted into empty tables. -/
def tradeQueued : InvalidationQueues where
  indicators := IdentityTable.empty _
  indicatorWorkers := []
  microstructure := afterTrade emptyState (lateTrade 1 100)

/-- The state after a claim of the microstructure, whose worker does nothing more. -/
def crashedClaim (state : InvalidationQueues) (now : Instant) : InvalidationQueues :=
  { state with
    microstructure := {
      db := (claimMicrostructureInvalidation now (fun _ => false) state.microstructure.db
        "worker").2
      workers := state.microstructure.workers ++
        (claimMicrostructureInvalidation now (fun _ => false) state.microstructure.db
          "worker").1.toList } }

/-- So many claims, each after the lease of the one before has expired. -/
def afterCrashes : ℕ → InvalidationQueues
  | 0 => tradeQueued
  | n + 1 => crashedClaim (afterCrashes n) ((n + 1) * 200 * 1000000)

/-- Tables without rows. -/
def emptyQueues : InvalidationQueues where
  indicators := IdentityTable.empty _
  indicatorWorkers := []
  microstructure := emptyState

theorem tradeQueued_step : QueuesStep sha256 emptyQueues
    (.microstructureStepped (.tradeInserted (lateTrade 1 100))) tradeQueued := by
  refine .stepsMicrostructure emptyQueues quietEvidence _ _ (fun workerId h => by cases h) ?_
  exact afterTrade_step rfl (by decide) (by decide)

theorem crashedClaim_step (state : InvalidationQueues) (now : Instant) :
    QueuesStep sha256 state (.microstructureClaimed now (fun _ => false) "worker")
      (crashedClaim state now) :=
  .claimsMicrostructure state now _ "worker"

/-- A queued row is claimed once, and the worker crashes. -/
theorem retryBudgets_hold_firstClaim : WithinAttempts (afterCrashes 1) ∧
      ∀ event, TakesNoLastAttempt (afterCrashes 1) event →
        ClaimsAttemptLeft (afterCrashes 1) event := by
  refine retryBudgets_hold (fun _ => "") emptyQueues (afterCrashes 1) ⟨rfl, rfl, ?_⟩
  have hleft : ∀ row ∈ tradeQueued.microstructure.db.invalidations.rows,
      row.attemptCount < row.maxAttempts := by decide +kernel
  refine (Relation.ReflTransGen.single ⟨_, tradeQueued_step, trivial⟩).tail
    ⟨_, crashedClaim_step tradeQueued _, fun row hrow _ => ?_⟩
  exact hleft row (mem_takenInvalidation hrow).1

/-- The sixth claim of a row with five attempts. -/
theorem lastAttempt_claimedAgain : ¬ ∀ (sha256 : List ℕ → String)
    (start state : InvalidationQueues), start.indicators.rows = [] →
    start.microstructure.db.invalidations.rows = [] →
    Relation.ReflTransGen (fun state state' => ∃ event, QueuesStep sha256 state event state')
      start state →
    WithinAttempts state ∧ ∀ event, ClaimsAttemptLeft state event := by
  intro hbounded
  have hsteps : ∀ n, Relation.ReflTransGen
      (fun state state' => ∃ event, QueuesStep (fun _ => "") state event state')
      emptyQueues (afterCrashes n) := by
    intro n
    induction n with
    | zero => exact .single ⟨_, tradeQueued_step⟩
    | succ n ih => exact ih.tail ⟨_, crashedClaim_step _ _⟩
  have hexceeded : ∃ row ∈ (afterCrashes 6).microstructure.db.invalidations.rows,
      row.maxAttempts < row.attemptCount := by decide +kernel
  obtain ⟨row, hrow, hlt⟩ := hexceeded
  have hwithin := (hbounded _ _ _ rfl rfl (hsteps 6)).1.microstructure row hrow
  exact absurd hwithin.2 (not_le.mpr hlt)

end Goodmoneying.Analysis
