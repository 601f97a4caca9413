import Mathlib.Logic.Relation
import Goodmoneying.Analysis.BacktestQueueSteps

/-!
# Backtest results are written once

Whatever the workers do, the rows of a result are inserted by one completion at most, under the
current lease (`backtestResults_written_once`). The invariant `SoundRuns` and the order
`RunAdvances` of the rows are kept by every transaction, and so along every run of the system.
-/

namespace Goodmoneying.Analysis

open List Library Program

variable {run run' : BacktestRun} {now : Instant} {ar : Arithmetic} {call : Completion}
  {state state' : BacktestState} {clock : ClockReadings} {db : BacktestDatabase}
  {runId leaseGeneration : ℤ} {workerId : String}
variable {rows : ResultRows} {locked : ℤ → Bool} {leaseSeconds : ℤ}

/-! ## One run -/

/-- The `CHECK` constraints of `backtest_runs` on the columns of the queue. -/
structure RunChecks (run : BacktestRun) : Prop where
  attempts_nonneg : 0 ≤ run.attemptCount
  maxAttempts : 0 < run.maxAttempts
  generation : 0 ≤ run.leaseGeneration
  running : run.status = .running → run.startedAt ≠ none ∧ run.finishedAt = none ∧
    (∃ owner, run.leaseOwner = some owner ∧ blank owner = false) ∧ run.leaseExpiresAt ≠ none
  not_running : run.status ≠ .running → run.leaseOwner = none ∧ run.leaseExpiresAt = none
  queued : run.status = .queued →
    run.startedAt = none ∧ run.finishedAt = none ∧ run.nextRetryAt = none
  retryWait : run.status = .retryWait → run.nextRetryAt ≠ none ∧ run.finishedAt = none
  finished : run.status = .succeeded ∨ run.status = .failed ∨ run.status = .cancelled ∨
    run.status = .deadLetter → run.finishedAt ≠ none
  succeeded : run.status = .succeeded → run.resultHash ≠ none
  deadLetter : run.status = .deadLetter →
    ∃ reason, run.deadLetterReason = some reason ∧ blank reason = false

/-- A run as `create_run` inserts it. -/
structure FreshRun (run : BacktestRun) : Prop where
  status : run.status = .queued
  attempts : run.attemptCount = 0
  maxAttempts : 0 < run.maxAttempts
  generation : run.leaseGeneration = 0
  owner : run.leaseOwner = none
  expiry : run.leaseExpiresAt = none
  startedAt : run.startedAt = none
  finishedAt : run.finishedAt = none
  retryAt : run.nextRetryAt = none

/-- A status that no transaction leaves. -/
def Finished (run : BacktestRun) : Prop :=
  run.status = .succeeded ∨ run.status = .failed ∨ run.status = .deadLetter

/-- What a transaction keeps of a run. -/
structure RunAdvances (run run' : BacktestRun) : Prop where
  id : run'.id = run.id
  maxAttempts : run'.maxAttempts = run.maxAttempts
  generation : run.leaseGeneration ≤ run'.leaseGeneration
  finished : Finished run → run' = run

theorem RunAdvances.refl (run : BacktestRun) : RunAdvances run run :=
  ⟨rfl, rfl, le_refl _, fun _ => rfl⟩

/-- Two advances make one. -/
theorem RunAdvances.trans {run'' : BacktestRun} (h : RunAdvances run run')
    (h' : RunAdvances run' run'') : RunAdvances run run'' where
  id := h'.id.trans h.id
  maxAttempts := h'.maxAttempts.trans h.maxAttempts
  generation := h.generation.trans h'.generation
  finished hfinished := by
    obtain rfl := h.finished hfinished
    exact h'.finished hfinished

/-- A run that can be claimed is queued, due, or held under an expired lease. -/
theorem claimable_iff_due : run.claimable now = true ↔ run.attemptCount < run.maxAttempts ∧
      (run.status = .queued ∨
        (run.status = .retryWait ∧ ∃ retryAt, run.nextRetryAt = some retryAt ∧ retryAt ≤ now) ∨
        (run.status = .running ∧
          ∃ expiresAt, run.leaseExpiresAt = some expiresAt ∧ expiresAt ≤ now)) := by
  unfold BacktestRun.claimable
  cases hstatus : run.status <;> simp [BacktestRun.leaseExpired, Option.any_eq_true]

theorem exhausted_running (h : run.exhausted now = true) :
    run.status = .running ∧ run.maxAttempts ≤ run.attemptCount := by
  simp only [BacktestRun.exhausted, Bool.and_eq_true, decide_eq_true_eq] at h
  exact ⟨h.1.1, h.2⟩

theorem RunChange.id (h : RunChange run run') : run'.id = run.id := by
  cases h <;> rfl

/-- A finished run is not changed, and no other run gets the status of a result. -/
theorem RunChange.status (h : RunChange run run') : (Finished run → run' = run) ∧
      ((run'.status = .succeeded ∨ run'.status = .failed) ↔
        (run.status = .succeeded ∨ run.status = .failed)) := by
  cases h with
  | kept => exact ⟨fun _ => rfl, Iff.rfl⟩
  | deadLettered now hexhausted =>
    have hrunning := (exhausted_running hexhausted).1
    exact ⟨by simp [Finished, hrunning], by simp [BacktestRun.deadLettered, hrunning]⟩
  | claimed owner queriedAt expiresAt now hclaimable howner =>
    have hopen : ¬ Finished run := by
      rintro (hstatus | hstatus | hstatus) <;>
        simp [BacktestRun.claimable, hstatus] at hclaimable
    refine ⟨fun hfinished => absurd hfinished hopen, ?_⟩
    constructor
    · intro hstatus
      simp [BacktestRun.claimed] at hstatus
    · rintro (hstatus | hstatus)
      · exact absurd (Or.inl hstatus) hopen
      · exact absurd (Or.inr (Or.inl hstatus)) hopen
  | failed now code message delay hrunning hcode =>
    refine ⟨by simp [Finished, hrunning], ?_⟩
    simp only [BacktestRun.failed, hrunning]
    split_ifs <;> simp

/-- A change is an advance. -/
theorem RunChange.advances (h : RunChange run run') : RunAdvances run run' := by
  refine ⟨h.id, ?_, ?_, h.status.1⟩
  · cases h <;> rfl
  · cases h with
    | claimed => simp [BacktestRun.claimed]
    | kept => exact le_refl _
    | deadLettered => exact le_refl _
    | failed => exact le_refl _

theorem completed_advances_run (hrunning : run.status = .running) (result : BacktestResult)
    (completedAt : Instant) : RunAdvances run (run.completed result completedAt) :=
  ⟨rfl, rfl, le_refl _, by simp [Finished, hrunning]⟩

/-! ## Constraints -/

theorem deadLettered_checks (hchecks : RunChecks run) (now : Instant) :
    RunChecks (run.deadLettered now) where
  attempts_nonneg := hchecks.attempts_nonneg
  maxAttempts := hchecks.maxAttempts
  generation := hchecks.generation
  running := by simp [BacktestRun.deadLettered]
  not_running := fun _ => ⟨rfl, rfl⟩
  queued := by simp [BacktestRun.deadLettered]
  retryWait := by simp [BacktestRun.deadLettered]
  finished := fun _ => by simp [BacktestRun.deadLettered]
  succeeded := by simp [BacktestRun.deadLettered]
  deadLetter := fun _ => ⟨"retry_attempts_exhausted", rfl, by decide +kernel⟩

theorem claimed_checks (hchecks : RunChecks run) {owner : String} (howner : blank owner = false)
    (expiresAt now : Instant) :
    RunChecks (run.claimed owner expiresAt now (run.leaseGeneration + 1)) where
  attempts_nonneg := by
    have hnonneg := hchecks.attempts_nonneg
    show 0 ≤ run.attemptCount + 1
    omega
  maxAttempts := hchecks.maxAttempts
  generation := by
    have hnonneg := hchecks.generation
    show 0 ≤ run.leaseGeneration + 1
    omega
  running := fun _ =>
    ⟨by simp [BacktestRun.claimed], rfl, ⟨owner, rfl, howner⟩, by simp [BacktestRun.claimed]⟩
  not_running := fun hstatus => absurd rfl hstatus
  queued := by simp [BacktestRun.claimed]
  retryWait := by simp [BacktestRun.claimed]
  finished := by simp [BacktestRun.claimed]
  succeeded := by simp [BacktestRun.claimed]
  deadLetter := by simp [BacktestRun.claimed]

/-- A failure reported by the worker keeps the constraints of the run. -/
theorem failed_checks (hchecks : RunChecks run) (hrunning : run.status = .running) {code : String}
    (hcode : blank code = false) (now : Instant) (message : String) (delay : ℤ) :
    RunChecks (run.failed now code message delay) := by
  have hopen := (hchecks.running hrunning).2.1
  by_cases hexhausted : run.maxAttempts ≤ run.attemptCount
  · exact {
      attempts_nonneg := hchecks.attempts_nonneg
      maxAttempts := hchecks.maxAttempts
      generation := hchecks.generation
      running := by simp [BacktestRun.failed, hexhausted]
      not_running := fun _ => ⟨rfl, rfl⟩
      queued := by simp [BacktestRun.failed, hexhausted]
      retryWait := by simp [BacktestRun.failed, hexhausted]
      finished := fun _ => by simp [BacktestRun.failed, hexhausted]
      succeeded := by simp [BacktestRun.failed, hexhausted]
      deadLetter := fun _ => ⟨code, by simp [BacktestRun.failed, hexhausted], hcode⟩ }
  · exact {
      attempts_nonneg := hchecks.attempts_nonneg
      maxAttempts := hchecks.maxAttempts
      generation := hchecks.generation
      running := by simp [BacktestRun.failed, hexhausted]
      not_running := fun _ => ⟨rfl, rfl⟩
      queued := by simp [BacktestRun.failed, hexhausted]
      retryWait := fun _ => by simp [BacktestRun.failed, hexhausted]
      finished := by simp [BacktestRun.failed, hexhausted]
      succeeded := by simp [BacktestRun.failed, hexhausted]
      deadLetter := by simp [BacktestRun.failed, hexhausted] }

/-- The status of a result is a final one. -/
theorem ofResult_final (status : BacktestRunStatus) :
    QueueStatus.ofResult status ≠ .running ∧ QueueStatus.ofResult status ≠ .queued ∧
      QueueStatus.ofResult status ≠ .retryWait ∧ QueueStatus.ofResult status ≠ .deadLetter := by
  cases status <;> decide

theorem completed_run_checks (hchecks : RunChecks run) (result : BacktestResult)
    (completedAt : Instant) : RunChecks (run.completed result completedAt) := by
  obtain ⟨hrunning, hqueued, hretry, hdead⟩ := ofResult_final result.status
  exact {
    attempts_nonneg := hchecks.attempts_nonneg
    maxAttempts := hchecks.maxAttempts
    generation := hchecks.generation
    running := fun hstatus => absurd hstatus hrunning
    not_running := fun _ => ⟨rfl, rfl⟩
    queued := fun hstatus => absurd hstatus hqueued
    retryWait := fun hstatus => absurd hstatus hretry
    finished := fun _ => by simp [BacktestRun.completed]
    succeeded := fun _ => by simp [BacktestRun.completed]
    deadLetter := fun hstatus => absurd hstatus hdead }

/-- A change keeps the constraints. -/
theorem RunChange.checks (h : RunChange run run') (hchecks : RunChecks run) : RunChecks run' := by
  cases h with
  | kept => exact hchecks
  | deadLettered now hexhausted => exact deadLettered_checks hchecks now
  | claimed owner queriedAt expiresAt now hclaimable howner =>
    exact claimed_checks hchecks howner expiresAt now
  | failed now code message delay hrunning hcode =>
    exact failed_checks hchecks hrunning hcode now message delay

/-- Attempts are counted up to the maximum. -/
theorem RunChange.attempts_le (h : RunChange run run') (hle : run.attemptCount ≤ run.maxAttempts) :
    run'.attemptCount ≤ run'.maxAttempts := by
  cases h with
  | claimed owner queriedAt expiresAt now hclaimable howner =>
    have hleft := (claimable_iff_due.mp hclaimable).1
    show run.attemptCount + 1 ≤ run.maxAttempts
    omega
  | kept => exact hle
  | deadLettered => exact hle
  | failed => exact hle

/-! ## The rows of a result -/

/-- The rows of a completion, inserted where there were none. -/
structure ResultStored (ar : Arithmetic) (call : Completion) (rows : ResultRows) : Prop where
  inserted : insertResult ar {} call.result call.artifacts = .ok rows
  trades : rows.trades.length = call.result.trades.length
  equityPoints : rows.equityPoints.length = call.result.equityPoints.length
  metrics : rows.metrics.length = call.result.metrics.length
  artifacts : rows.artifacts.length = call.artifacts.length

theorem length_appendUnique {α κ : Type} [DecidableEq κ] {key : α → κ} {rows rows' : List α}
    {row : α} (h : appendUnique key rows row = .ok rows') : rows'.length = rows.length + 1 := by
  unfold appendUnique at h
  split_ifs at h
  obtain rfl := Except.ok.inj h
  simp

/-- Inserted rows are as many as the entries of the result. -/
theorem resultStored (h : insertResult ar {} call.result call.artifacts = .ok rows) :
    ResultStored ar call rows := by
  have hinserted := h
  obtain ⟨trades, htrades, h⟩ := bind_eq_ok.mp h
  obtain ⟨equityPoints, hpoints, h⟩ := bind_eq_ok.mp h
  obtain ⟨metrics, hmetrics, h⟩ := bind_eq_ok.mp h
  obtain ⟨artifacts, hartifacts, h⟩ := bind_eq_ok.mp h
  obtain rfl := pure_eq_ok.mp h
  refine ⟨hinserted, ?_, ?_, ?_, ?_⟩
  · have hlength := length_of_foldlM_eq_ok (fun stored item stored' hround => by
      obtain ⟨row, -, hround⟩ := bind_eq_ok.mp hround
      exact length_appendUnique hround) htrades
    simpa using hlength
  · have hlength := length_of_foldlM_eq_ok (fun stored item stored' hround => by
      obtain ⟨row, -, hround⟩ := bind_eq_ok.mp hround
      exact length_appendUnique hround) hpoints
    simpa using hlength
  · have hlength := length_of_foldlM_eq_ok (fun stored item stored' hround => by
      obtain ⟨value, -, hround⟩ := bind_eq_ok.mp hround
      obtain ⟨-, -, hround⟩ := bind_eq_ok.mp hround
      exact length_appendUnique hround) hmetrics
    simpa [(sortedBy_perm Prod.fst call.result.metrics).length_eq] using hlength
  · have hlength := length_of_foldlM_eq_ok (fun stored item stored' hround => by
      obtain ⟨artifactType, -, hround⟩ := bind_eq_ok.mp hround
      obtain ⟨contentHash, -, hround⟩ := bind_eq_ok.mp hround
      obtain ⟨-, -, hround⟩ := bind_eq_ok.mp hround
      exact length_appendUnique hround) hartifacts
    simpa using hlength

/-- The completions of a run. -/
def completionsOf (state : BacktestState) (runId : ℤ) : List Completion :=
  state.completions.filter fun call => call.runId = runId

/-- The rows of a run are those of its one completion, whose status it has. -/
structure WrittenOnce (ar : Arithmetic) (state : BacktestState) (run : BacktestRun) : Prop where
  once : (completionsOf state run.id).length ≤ 1
  written : ∀ call ∈ completionsOf state run.id, run.status = .ofResult call.result.status ∧
    ResultStored ar call (state.db.results run.id)
  status_iff : completionsOf state run.id ≠ [] ↔ run.status = .succeeded ∨ run.status = .failed
  unwritten : completionsOf state run.id = [] → state.db.results run.id = {}

/-! ## The invariant -/

/-- What every transaction keeps. -/
structure SoundRuns (ar : Arithmetic) (state : BacktestState) : Prop where
  checks : ∀ run ∈ state.db.runs.rows, RunChecks run
  attempts_le : ∀ run ∈ state.db.runs.rows, run.attemptCount ≤ run.maxAttempts
  written : ∀ run ∈ state.db.runs.rows, WrittenOnce ar state run

/-- Freshly queued runs, without a result. -/
structure FreshRuns (state : BacktestState) : Prop where
  runs : ∀ run ∈ state.db.runs.rows, FreshRun run
  results : ∀ run ∈ state.db.runs.rows, state.db.results run.id = {}
  completions : state.completions = []

/-- Freshly queued runs are sound. -/
theorem FreshRuns.sound (h : FreshRuns state) : SoundRuns ar state where
  checks run hrun := by
    obtain ⟨hstatus, hattempts, hmax, hgeneration, howner, hexpiry, hstarted, hfinished, hretry⟩ :=
      h.runs run hrun
    exact {
      attempts_nonneg := hattempts.ge
      maxAttempts := hmax
      generation := hgeneration.ge
      running := by simp [hstatus]
      not_running := fun _ => ⟨howner, hexpiry⟩
      queued := fun _ => ⟨hstarted, hfinished, hretry⟩
      retryWait := by simp [hstatus]
      finished := by simp [hstatus]
      succeeded := by simp [hstatus]
      deadLetter := by simp [hstatus] }
  attempts_le run hrun := by
    have hattempts := (h.runs run hrun).attempts
    have hmax := (h.runs run hrun).maxAttempts
    omega
  written run hrun := by
    have hnone : completionsOf state run.id = [] := by simp [completionsOf, h.completions]
    exact {
      once := by simp [hnone]
      written := by simp [hnone]
      status_iff := by simp [hnone, (h.runs run hrun).status]
      unwritten := fun _ => h.results run hrun }

/-- Changes one by one keep the invariant. -/
theorem RunsChanged.sound (h : RunsChanged state.db state'.db)
    (hcompletions : state'.completions = state.completions) (hsound : SoundRuns ar state) :
    SoundRuns ar state' where
  checks run' hrun' := by
    obtain ⟨run, hrun, hchange⟩ := exists_of_forall₂ h.runs run' hrun'
    exact hchange.checks (hsound.checks run hrun)
  attempts_le run' hrun' := by
    obtain ⟨run, hrun, hchange⟩ := exists_of_forall₂ h.runs run' hrun'
    exact hchange.attempts_le (hsound.attempts_le run hrun)
  written run' hrun' := by
    obtain ⟨run, hrun, hchange⟩ := exists_of_forall₂ h.runs run' hrun'
    obtain ⟨honce, hwritten, hstatus, hunwritten⟩ := hsound.written run hrun
    have hsame : completionsOf state' run'.id = completionsOf state run.id := by
      rw [completionsOf, completionsOf, hcompletions, hchange.id]
    have hresults : state'.db.results run'.id = state.db.results run.id := by
      rw [h.results, hchange.id]
    refine ⟨hsame ▸ honce, ?_, ?_, ?_⟩
    · rw [hsame, hresults]
      intro call hcall
      -- a run with a completion is finished, so it has not changed
      have hfinished := hstatus.mp (ne_nil_of_mem hcall)
      have hkept : run' = run := by
        refine hchange.status.1 ?_
        rcases hfinished with hstatus | hstatus
        · exact Or.inl hstatus
        · exact Or.inr (Or.inl hstatus)
      rw [hkept]
      exact hwritten call hcall
    · rw [hsame, hstatus, hchange.status.2]
    · rw [hsame, hresults]
      exact hunwritten

/-- A completion keeps the invariant. -/
theorem RunCompleted.sound {completedAt : Instant}
    (h : RunCompleted ar clock state.db state'.db call completedAt run rows)
    (hcompletions : state'.completions = state.completions ++ [call])
    (hsound : SoundRuns ar state) : SoundRuns ar state' := by
  obtain ⟨hid, hrunning, -⟩ := leasedTo_iff.mp h.leased
  -- a row of the new table is the completed run or an old row of another id
  have hrows : ∀ row' ∈ state'.db.runs.rows, row' = run.completed call.result completedAt ∨
      row' ∈ state.db.runs.rows ∧ row'.id ≠ run.id := by
    intro row' hrow'
    rw [h.runs] at hrow'
    obtain ⟨row, hrow, rfl⟩ := mem_map.mp hrow'
    by_cases hsame : row.id = run.id
    · obtain rfl := KeyedTable.eq_of_key hrow h.mem hsame
      exact Or.inl (by simp)
    · exact Or.inr ⟨by simpa [hsame] using hrow, by simp [hsame]⟩
  have hbefore := hsound.written run h.mem
  have hnone : completionsOf state run.id = [] := by
    by_contra hsome
    rcases hbefore.status_iff.mp hsome with hstatus | hstatus <;> simp [hrunning] at hstatus
  constructor
  · intro row hrow
    rcases hrows row hrow with rfl | ⟨hrow, -⟩
    · exact completed_run_checks (hsound.checks run h.mem) call.result completedAt
    · exact hsound.checks row hrow
  · intro row hrow
    rcases hrows row hrow with rfl | ⟨hrow, -⟩
    · exact hsound.attempts_le run h.mem
    · exact hsound.attempts_le row hrow
  · intro row hrow
    rcases hrows row hrow with rfl | ⟨hrow, hother⟩
    · have hcalls : completionsOf state' run.id = [call] := by
        have hfilter : completionsOf state' run.id = completionsOf state run.id ++ [call] := by
          rw [completionsOf, hcompletions, filter_append, completionsOf]
          simp [hid]
        rw [hfilter, hnone, nil_append]
      have hstored : ResultStored ar call rows := by
        refine resultStored ?_
        rw [← hbefore.unwritten hnone]
        exact h.inserted
      refine ⟨by rw [BacktestRun.completed_id, hcalls]; simp, ?_, ?_, ?_⟩
      · intro other hcall
        rw [BacktestRun.completed_id, hcalls, mem_singleton] at hcall
        subst hcall
        refine ⟨rfl, ?_⟩
        rw [h.results, BacktestRun.completed_id, Function.update_self]
        exact hstored
      · rw [BacktestRun.completed_id, hcalls]
        cases hstatus : call.result.status <;>
          simp [BacktestRun.completed, QueueStatus.ofResult, hstatus]
      · rw [BacktestRun.completed_id, hcalls]
        simp
    · have hcalls : completionsOf state' row.id = completionsOf state row.id := by
        have hcall : ¬ call.runId = row.id := by
          rw [← hid]
          exact fun heq => hother heq.symm
        rw [completionsOf, hcompletions, filter_append, completionsOf]
        simp [hcall]
      have hresults : state'.db.results row.id = state.db.results row.id := by
        rw [h.results, Function.update_of_ne hother]
      obtain ⟨honce, hwritten, hstatus, hunwritten⟩ := hsound.written row hrow
      refine ⟨hcalls ▸ honce, ?_, ?_, ?_⟩
      · rw [hcalls, hresults]
        exact hwritten
      · rw [hcalls]
        exact hstatus
      · rw [hcalls, hresults]
        exact hunwritten

/-- A transaction keeps the invariant. -/
theorem after_sound (clock : ClockReadings) (transaction : BacktestTransaction)
    (hsound : SoundRuns ar state) : SoundRuns ar (state.after ar clock transaction) := by
  rcases after_cases ar clock state transaction with
    ⟨hchanged, hcompletions⟩ | ⟨call, completedAt, run, rows, -, hcompleted, hcompletions⟩
  · exact hchanged.sound hcompletions hsound
  · exact hcompleted.sound hcompletions hsound

/-- A run with what it has in the tables of results goes on over a transaction. -/
theorem after_advances (ar : Arithmetic) (clock : ClockReadings) (transaction : BacktestTransaction)
    (hrun : run ∈ state.db.runs.rows) :
    ∃ run' ∈ (state.after ar clock transaction).db.runs.rows, RunAdvances run run' ∧
      (Finished run →
        (state.after ar clock transaction).db.results run.id = state.db.results run.id) := by
  rcases after_cases ar clock state transaction with
    ⟨hchanged, -⟩ | ⟨call, completedAt, old, rows, -, hcompleted, -⟩
  · obtain ⟨run', hrun', hchange⟩ := exists_of_forall₂ hchanged.runs.flip run hrun
    exact ⟨run', hrun', hchange.advances, fun _ => by rw [hchanged.results]⟩
  · obtain ⟨-, hrunning, -⟩ := leasedTo_iff.mp hcompleted.leased
    rw [hcompleted.runs, hcompleted.results]
    refine ⟨_, mem_map_of_mem hrun, ?_⟩
    by_cases hsame : run.id = old.id
    · obtain rfl := KeyedTable.eq_of_key hrun hcompleted.mem hsame
      rw [if_pos rfl]
      exact ⟨completed_advances_run hrunning call.result completedAt,
        by simp [Finished, hrunning]⟩
    · rw [if_neg hsame]
      exact ⟨RunAdvances.refl run, fun _ => Function.update_of_ne hsame _ _⟩

/-- The invariant holds along every run of the system. -/
theorem steps_sound (hsteps : Relation.ReflTransGen (BacktestStep ar) state state')
    (hsound : SoundRuns ar state) : SoundRuns ar state' := by
  induction hsteps with
  | refl => exact hsound
  | tail _ hstep ih =>
    cases hstep with
    | transaction clock transaction => exact after_sound clock transaction ih

/-- Every run advances along every run of the system, and a finished one keeps its rows. -/
theorem steps_advances (hsteps : Relation.ReflTransGen (BacktestStep ar) state state')
    (hrun : run ∈ state.db.runs.rows) : ∃ run' ∈ state'.db.runs.rows, RunAdvances run run' ∧
      (Finished run → state'.db.results run.id = state.db.results run.id) := by
  induction hsteps with
  | refl => exact ⟨run, hrun, RunAdvances.refl run, fun _ => rfl⟩
  | tail _ hstep ih =>
    obtain ⟨run', hrun', hadvances, hresults⟩ := ih
    cases hstep with
    | transaction clock transaction =>
      obtain ⟨run'', hrun'', hadvances', hresults'⟩ := after_advances ar clock transaction hrun'
      refine ⟨run'', hrun'', hadvances.trans hadvances', fun hfinished => ?_⟩
      have hsame := hadvances.finished hfinished
      subst hsame
      rw [hresults' hfinished, hresults hfinished]

/-! ## Stale leases -/

/-- A presented lease is not the current one of its run: not its owner, not its generation, or
expired. -/
def StaleRunLease (db : BacktestDatabase) (now : Instant) (runId : ℤ) (workerId : String)
    (leaseGeneration : ℤ) : Prop :=
  ∀ run ∈ db.runs.rows, run.id = runId →
    ¬ (run.status = .running ∧ run.leaseOwner = some (strip workerId) ∧
      run.leaseGeneration = leaseGeneration ∧
      ∃ expiresAt, run.leaseExpiresAt = some expiresAt ∧ now < expiresAt)

/-- The queries of the lease find no run exactly under a stale lease. -/
theorem find_leased_none_iff :
    db.runs.find (BacktestRun.leasedTo now runId (strip workerId) leaseGeneration) = none ↔
      StaleRunLease db now runId workerId leaseGeneration := by
  rw [KeyedTable.find_eq_none_iff]
  simp only [← Bool.not_eq_true, leasedTo_iff]
  constructor
  · rintro h run hrun hid hlease
    exact h run hrun ⟨hid, hlease⟩
  · rintro h run hrun ⟨hid, hlease⟩
    exact h run hrun hid hlease

/-- The arguments of a call pass the checks that come before its transaction. -/
structure ValidCall (runId : ℤ) (workerId : String) (leaseGeneration : ℤ) : Prop where
  worker : strip workerId ≠ ""
  runId : 1 ≤ runId
  generation : 1 ≤ leaseGeneration

theorem nonBlank_of_ne {value : String} (h : strip value ≠ "") (field : String) :
    nonBlank value field = .ok (strip value) :=
  if_neg h

theorem atLeastOne_of_le {value : ℤ} (h : 1 ≤ value) (message : String) :
    atLeastOne value message = .ok () :=
  if_neg (by omega)

/-- A completion under a stale lease is refused. -/
theorem StaleRunLease.complete (h : StaleRunLease db clock.queriedAt runId workerId leaseGeneration)
    (hcall : ValidCall runId workerId leaseGeneration) (ar : Arithmetic) (result : BacktestResult)
    (artifacts : List ArtifactInput) (completedAt : Instant) :
    completeClaimedRun ar clock db runId workerId leaseGeneration result artifacts completedAt =
      .error (.leaseLost "백테스트 run 임대가 현재 worker에 속하지 않는다.") := by
  unfold completeClaimedRun
  simp only [nonBlank_of_ne hcall.worker, atLeastOne_of_le hcall.runId,
    atLeastOne_of_le hcall.generation, ok_bind, find_leased_none_iff.mpr h]
  rfl

/-- A failure under a stale lease is refused. -/
theorem StaleRunLease.fail (h : StaleRunLease db clock.updatedAt runId workerId leaseGeneration)
    (hcall : ValidCall runId workerId leaseGeneration) {errorCode message : String}
    (hcode : strip errorCode ≠ "") (hmessage : strip message ≠ "") :
    failClaimedRun clock db runId workerId leaseGeneration errorCode message =
      .error (.leaseLost "백테스트 run 실패 전이를 쓸 임대를 잃었다.") := by
  unfold failClaimedRun
  simp only [nonBlank_of_ne hcall.worker, nonBlank_of_ne hcode, nonBlank_of_ne hmessage,
    atLeastOne_of_le hcall.runId, atLeastOne_of_le hcall.generation, ok_bind,
    find_leased_none_iff.mpr h]
  rfl

/-- A completion that is committed holds its lease until then. -/
theorem StaleRunLease.after_complete
    (h : StaleRunLease state.db clock.updatedAt call.runId call.workerId call.leaseGeneration)
    (completedAt : Instant) : state.after ar clock (.complete call completedAt) = state := by
  unfold BacktestState.after
  cases hrun : (BacktestTransaction.complete call completedAt).run ar clock state.db with
  | error error => rfl
  | ok db' =>
    obtain ⟨⟨saved, committed⟩, hcall, rfl⟩ := map_eq_ok.mp hrun
    obtain ⟨run, rows, hcompleted⟩ := complete_completed hcall
    obtain ⟨hid, hlease⟩ := leasedTo_iff.mp hcompleted.stillLeased
    exact absurd hlease (h run hcompleted.mem hid)

/-- A failure that is committed holds its lease. -/
theorem StaleRunLease.after_fail
    (h : StaleRunLease state.db clock.updatedAt runId workerId leaseGeneration)
    (errorCode message : String) :
    state.after ar clock (.fail runId workerId leaseGeneration errorCode message) = state := by
  unfold BacktestState.after
  cases hrun : (BacktestTransaction.fail runId workerId leaseGeneration errorCode message).run ar
      clock state.db with
  | error error => rfl
  | ok db' =>
    obtain ⟨⟨response, committed⟩, hcall, -⟩ := map_eq_ok.mp hrun
    obtain ⟨owner, howner, hcall⟩ := bind_eq_ok.mp hcall
    obtain ⟨rfl, -⟩ := nonBlank_eq_ok howner
    obtain ⟨code, -, hcall⟩ := bind_eq_ok.mp hcall
    obtain ⟨text, -, hcall⟩ := bind_eq_ok.mp hcall
    obtain ⟨-, -, hcall⟩ := bind_eq_ok.mp hcall
    obtain ⟨-, -, hcall⟩ := bind_eq_ok.mp hcall
    simp only [find_leased_none_iff.mpr h] at hcall
    cases hcall

/-! ## Claims -/

/-- A run is queued, due for its next attempt, or held under an expired lease, and has an
attempt left. -/
structure Claimable (now : Instant) (run : BacktestRun) : Prop where
  attempts : run.attemptCount < run.maxAttempts
  due : run.status = .queued ∨
    (run.status = .retryWait ∧ ∃ retryAt, run.nextRetryAt = some retryAt ∧ retryAt ≤ now) ∨
    (run.status = .running ∧ ∃ expiresAt, run.leaseExpiresAt = some expiresAt ∧ expiresAt ≤ now)

/-- Where a run can be claimed and is not locked, a claim returns a run. -/
theorem claim_returns (hworker : strip workerId ≠ "") (hlease : 1 ≤ leaseSeconds)
    (hrun : run ∈ db.runs.rows) (hclaimable : Claimable clock.queriedAt run)
    (hunlocked : locked run.id = false) :
    ∃ response db', claimNextRun clock locked db workerId leaseSeconds =
      .ok (some response, db') := by
  have hdue : run.claimable clock.queriedAt = true :=
    claimable_iff_due.mpr ⟨hclaimable.attempts, hclaimable.due⟩
  -- the sweep leaves a run with an attempt alone
  have hkept : ¬ run.exhausted clock.sweptAt = true := by
    intro hexhausted
    exact absurd (exhausted_running hexhausted).2 (not_le.mpr hclaimable.attempts)
  have hswept : run ∈ (sweptRuns db.runs clock.sweptAt).rows :=
    mem_sweptRuns.mpr ⟨run, hrun, by rw [if_neg hkept]⟩
  unfold claimNextRun
  simp only [nonBlank_of_ne hworker, ok_bind, if_neg (show ¬ leaseSeconds < 1 by omega)]
  cases hcandidate : runCandidate? (sweptRuns db.runs clock.sweptAt) clock.queriedAt locked with
  | none =>
    have hempty := List.head?_eq_none_iff.mp hcandidate
    have hmem : run ∈ sortedBy runOrder ((sweptRuns db.runs clock.sweptAt).rows.filter fun run =>
        run.claimable clock.queriedAt && !locked run.id) := by
      rw [mem_sortedBy, mem_filter]
      exact ⟨hswept, by simp [hdue, hunlocked]⟩
    rw [hempty] at hmem
    cases hmem
  | some candidate =>
    have hmem := (runCandidate?_some hcandidate).1
    have hfind : (sweptRuns db.runs clock.sweptAt).find
        (BacktestRun.ofGeneration candidate.id candidate.leaseGeneration) = some candidate :=
      find_ofGeneration hmem
    simp only [hfind, Option.map_some]
    exact ⟨_, _, rfl⟩

/-- A claim raises the generation of the run it returns. -/
theorem claim_raises_generation {db' : BacktestDatabase} {response : ClaimedRunResponse}
    (h : claimNextRun clock locked db workerId leaseSeconds = .ok (some response, db')) :
    ∃ run ∈ db.runs.rows, ∃ run' ∈ db'.runs.rows, run'.id = run.id ∧
      response = claimedRunResponse run' ∧ run.leaseGeneration < run'.leaseGeneration := by
  obtain ⟨run, hrun, -, run', hrun', hresponse, rfl⟩ := (claim_cases h).2 response rfl
  exact ⟨run, hrun, _, hrun', rfl, hresponse, lt_add_one run.leaseGeneration⟩

/-! ## Every interleaving -/

/-- Whatever the interleaving of transactions on freshly queued runs: the rows of a run are
inserted by one completion at most, under the current lease, and it has the status of that
result; a stale lease is refused without a change; claims raise the generation, attempts stay
within their bounds, and a run is running exactly when it has an owner and an expiry; a finished
run and its rows stay as they are; and a claim returns a run whenever one can be claimed.
SOURCE: backtest_store.py:121-280 -/
theorem backtestResults_written_once (ar : Arithmetic) (fresh : BacktestState)
    (hfresh : FreshRuns fresh) (state : BacktestState)
    (hsteps : Relation.ReflTransGen (BacktestStep ar) fresh state) :
    -- (a) the rows of a run are those of one completion, which held the lease
    (∀ run ∈ state.db.runs.rows, WrittenOnce ar state run) ∧
    (∀ clock transaction runId,
      (state.after ar clock transaction).db.results runId ≠ state.db.results runId →
      ∃ call completedAt, transaction = .complete call completedAt ∧ call.runId = runId ∧
        ¬ StaleRunLease state.db clock.updatedAt runId call.workerId call.leaseGeneration) ∧
    -- (b) a stale lease is refused and changes nothing
    (∀ clock runId workerId leaseGeneration, ValidCall runId workerId leaseGeneration →
      (StaleRunLease state.db clock.queriedAt runId workerId leaseGeneration →
        ∀ result artifacts completedAt,
          completeClaimedRun ar clock state.db runId workerId leaseGeneration result artifacts
            completedAt = .error (.leaseLost "백테스트 run 임대가 현재 worker에 속하지 않는다.")) ∧
      (StaleRunLease state.db clock.updatedAt runId workerId leaseGeneration →
        ∀ errorCode message, strip errorCode ≠ "" → strip message ≠ "" →
          failClaimedRun clock state.db runId workerId leaseGeneration errorCode message =
            .error (.leaseLost "백테스트 run 실패 전이를 쓸 임대를 잃었다."))) ∧
    (∀ clock runId workerId leaseGeneration,
      StaleRunLease state.db clock.updatedAt runId workerId leaseGeneration →
      (∀ result artifacts completedAt, state.after ar clock
        (.complete ⟨runId, workerId, leaseGeneration, result, artifacts⟩ completedAt) = state) ∧
      ∀ errorCode message, state.after ar clock
        (.fail runId workerId leaseGeneration errorCode message) = state) ∧
    -- (c) generations, attempts and leases
    (∀ clock locked workerId leaseSeconds response db',
      claimNextRun clock locked state.db workerId leaseSeconds = .ok (some response, db') →
      ∃ run ∈ state.db.runs.rows, ∃ run' ∈ db'.runs.rows, run'.id = run.id ∧
        response = claimedRunResponse run' ∧ run.leaseGeneration < run'.leaseGeneration) ∧
    (∀ run ∈ state.db.runs.rows, 0 ≤ run.attemptCount ∧ run.attemptCount ≤ run.maxAttempts ∧
      (run.leaseOwner ≠ none ↔ run.status = .running) ∧
      (run.leaseExpiresAt ≠ none ↔ run.status = .running)) ∧
    -- (d) a finished run and its rows stay as they are
    (∀ state', Relation.ReflTransGen (BacktestStep ar) state state' →
      ∀ run ∈ state.db.runs.rows, ∃ run' ∈ state'.db.runs.rows, run'.id = run.id ∧
        run.leaseGeneration ≤ run'.leaseGeneration ∧
        (Finished run → run' = run ∧ state'.db.results run.id = state.db.results run.id)) ∧
    -- (e) a claim returns a run whenever one can be claimed
    ∀ (clock : ClockReadings) (locked : ℤ → Bool) (workerId : String) (leaseSeconds : ℤ),
      strip workerId ≠ "" → 1 ≤ leaseSeconds →
      (∃ run ∈ state.db.runs.rows, Claimable clock.queriedAt run ∧ locked run.id = false) →
      ∃ response db', claimNextRun clock locked state.db workerId leaseSeconds =
        .ok (some response, db') := by
  have hsound : SoundRuns ar state := steps_sound hsteps hfresh.sound
  refine ⟨hsound.written, ?_, ?_, ?_, ?_, ?_, ?_, ?_⟩
  · intro clock transaction runId hwrites
    rcases after_cases ar clock state transaction with
      ⟨hchanged, -⟩ | ⟨call, completedAt, run, rows, htransaction, hcompleted, -⟩
    · exact absurd (congrFun hchanged.results runId) hwrites
    · obtain ⟨hid, hlease⟩ := leasedTo_iff.mp hcompleted.stillLeased
      have hrunId : runId = run.id := by
        by_contra hother
        rw [hcompleted.results, Function.update_of_ne hother] at hwrites
        exact hwrites rfl
      subst hrunId
      exact ⟨call, completedAt, htransaction, hid.symm,
        fun hstale => hstale run hcompleted.mem rfl hlease⟩
  · intro clock runId workerId leaseGeneration hcall
    exact ⟨fun hstale result artifacts completedAt =>
        hstale.complete hcall ar result artifacts completedAt,
      fun hstale errorCode message hcode hmessage => hstale.fail hcall hcode hmessage⟩
  · intro clock runId workerId leaseGeneration hstale
    refine ⟨fun result artifacts completedAt => ?_,
      fun errorCode message => hstale.after_fail errorCode message⟩
    have hcall : StaleRunLease state.db clock.updatedAt
        (⟨runId, workerId, leaseGeneration, result, artifacts⟩ : Completion).runId workerId
        leaseGeneration := hstale
    exact hcall.after_complete completedAt
  · intro clock locked workerId leaseSeconds response db' hclaim
    exact claim_raises_generation hclaim
  · intro run hrun
    have hchecks := hsound.checks run hrun
    refine ⟨hchecks.attempts_nonneg, hsound.attempts_le run hrun, ?_, ?_⟩
    · constructor
      · intro howner
        by_contra hstatus
        exact howner (hchecks.not_running hstatus).1
      · intro hstatus
        obtain ⟨-, -, ⟨owner, howner, -⟩, -⟩ := hchecks.running hstatus
        simp [howner]
    · constructor
      · intro hexpiry
        by_contra hstatus
        exact hexpiry (hchecks.not_running hstatus).2
      · intro hstatus
        exact (hchecks.running hstatus).2.2.2
  · intro state' hlater run hrun
    obtain ⟨run', hrun', hadvances, hresults⟩ := steps_advances hlater hrun
    exact ⟨run', hrun', hadvances.id, hadvances.generation,
      fun hfinished => ⟨hadvances.finished hfinished, hresults hfinished⟩⟩
  · rintro clock locked workerId leaseSeconds hworker hlease ⟨run, hrun, hclaimable, hunlocked⟩
    exact claim_returns hworker hlease hrun hclaimable hunlocked

/-! ## A run that is claimed and completed -/

/-- A run as `create_run` inserts it. -/
def queuedRun : BacktestRun where
  id := 1
  strategyVersionId := 7
  strategyGraphHash := "graph"
  datasetVersionId := 9
  datasetContentHash := "content"
  engineVersion := "engine-v1"
  inputHash := "input"
  inputPayload := .mapping []
  parameterHash := "parameters"
  seed := 1
  assumptions := assumptions
  idempotencyKey := "key"
  requestId := "request"
  actorId := "operator"
  requestedAt := 0
  reason := "reason"
  requestHash := "request"

/-- The queue of that run. -/
def queuedState : BacktestState where
  db := { runs := ⟨[queuedRun], by decide⟩, results := fun _ => {} }
  completions := []

/-- Readings of a clock that stands still. -/
def readingsAt (now : Instant) : ClockReadings := ⟨now, now, now, le_rfl, le_rfl⟩

/-- A result of the run, with one metric. -/
def queuedResult : BacktestResult where
  status := .succeeded
  inputHash := "input"
  resultHash := "0123456789abcdef0123456789abcdef0123456789abcdef0123456789abcdef"
  assumptions := assumptions
  replayEvents := []
  trades := []
  equityPoints := []
  metrics := [("finalEquity", 100)]
  goldenReplaySignals := []
  errors := []

/-- The state after a claim and a completion. -/
def completedState : BacktestState :=
  (queuedState.after .default (readingsAt 5) (.claim (fun _ => false) "worker" 90)).after .default
    (readingsAt 7) (.complete ⟨1, "worker", 1, queuedResult, []⟩ 7)

theorem queuedState_fresh : FreshRuns queuedState where
  runs run hrun := by
    obtain rfl := mem_singleton.mp hrun
    exact ⟨rfl, rfl, by decide, rfl, rfl, rfl, rfl, rfl, rfl⟩
  results _ _ := rfl
  completions := rfl

/-- The run has succeeded, with the rows of its one completion. -/
theorem backtestResults_written_once_one_run :
    completedState.db.runs.rows.map BacktestRun.status = [.succeeded] ∧
      (completedState.db.results 1).metrics.length = 1 ∧
      ∀ run ∈ completedState.db.runs.rows, WrittenOnce .default completedState run := by
  have hsteps : Relation.ReflTransGen (BacktestStep .default) queuedState completedState :=
    .tail (.single (.transaction queuedState (readingsAt 5) _)) (.transaction _ (readingsAt 7) _)
  exact ⟨by decide +kernel, by decide +kernel,
    (backtestResults_written_once .default queuedState queuedState_fresh completedState hsteps).1⟩

end Goodmoneying.Analysis
