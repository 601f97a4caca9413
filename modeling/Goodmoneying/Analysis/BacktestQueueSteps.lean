import Goodmoneying.Program.BacktestQueue

/-!
# What a transaction does to the queue of backtest runs

A claim may bury exhausted runs and give one run to its worker, a failure changes one run
(`RunChange`), and a completion changes one run together with the rows of its result
(`RunCompleted`). `after_cases` says this of every transaction.
-/

namespace Goodmoneying.Analysis

open List Library Program

variable {now : Instant} {runId leaseGeneration : ℤ} {owner workerId : String} {run : BacktestRun}
  {db db' : BacktestDatabase} {runs : RunTable} {clock : ClockReadings}

/-- What a transaction makes of a run, a completion apart. -/
inductive RunChange : BacktestRun → BacktestRun → Prop
  | kept (run : BacktestRun) : RunChange run run
  | deadLettered (run : BacktestRun) (now : Instant) (hexhausted : run.exhausted now = true) :
      RunChange run (run.deadLettered now)
  | claimed (run : BacktestRun) (owner : String) (queriedAt expiresAt now : Instant)
      (hclaimable : run.claimable queriedAt = true) (howner : blank owner = false) :
      RunChange run (run.claimed owner expiresAt now (run.leaseGeneration + 1))
  | failed (run : BacktestRun) (now : Instant) (code message : String) (delay : ℤ)
      (hrunning : run.status = .running) (hcode : blank code = false) :
      RunChange run (run.failed now code message delay)

/-- The runs of the queue change one by one; no result is written. -/
structure RunsChanged (db db' : BacktestDatabase) : Prop where
  runs : List.Forall₂ RunChange db.runs.rows db'.runs.rows
  results : db'.results = db.results

/-- One run is completed by a call that holds its lease, before and after the rows of the result
are inserted. -/
structure RunCompleted (ar : Arithmetic) (clock : ClockReadings) (db db' : BacktestDatabase)
    (call : Completion) (completedAt : Instant) (run : BacktestRun) (rows : ResultRows) :
    Prop where
  mem : run ∈ db.runs.rows
  leased : run.leasedTo clock.queriedAt call.runId (strip call.workerId) call.leaseGeneration
  stillLeased : run.leasedTo clock.updatedAt call.runId (strip call.workerId) call.leaseGeneration
  inserted : insertResult ar (db.results run.id) call.result call.artifacts = .ok rows
  runs : db'.runs.rows = db.runs.rows.map fun row =>
    if row.id = run.id then row.completed call.result completedAt else row
  results : db'.results = Function.update db.results run.id rows

/-- The condition on a presented lease, in words. -/
theorem leasedTo_iff : run.leasedTo now runId owner leaseGeneration = true ↔
      run.id = runId ∧ run.status = .running ∧ run.leaseOwner = some owner ∧
        run.leaseGeneration = leaseGeneration ∧
        ∃ expiresAt, run.leaseExpiresAt = some expiresAt ∧ now < expiresAt := by
  simp [BacktestRun.leasedTo, Option.any_eq_true, and_assoc]

theorem find_leased :
    db.runs.find (BacktestRun.leasedTo now runId owner leaseGeneration) = some run ↔
      run ∈ db.runs.rows ∧ run.leasedTo now runId owner leaseGeneration = true :=
  KeyedTable.find_eq_some_iff fun _ h => (leasedTo_iff.mp h).1

/-- Among the rows of a table, the condition on the lease of a run picks out that run. -/
theorem leasedTo_iff_id {row : BacktestRun} (hrun : run ∈ db.runs.rows)
    (hleased : run.leasedTo now runId owner leaseGeneration = true) (hrow : row ∈ db.runs.rows) :
    row.leasedTo now runId owner leaseGeneration = true ↔ row.id = run.id := by
  constructor
  · intro h
    exact (leasedTo_iff.mp h).1.trans (leasedTo_iff.mp hleased).1.symm
  · intro h
    rw [KeyedTable.eq_of_key hrow hrun h]
    exact hleased

/-- The candidate of a claim can be claimed and is not locked. -/
theorem runCandidate?_some {locked : ℤ → Bool} (h : runCandidate? runs now locked = some run) :
    run ∈ runs.rows ∧ run.claimable now = true := by
  have hmem := mem_sortedBy.mp (mem_of_head? h)
  simp only [mem_filter, Bool.and_eq_true] at hmem
  exact ⟨hmem.1, hmem.2.1⟩

theorem not_claimable_deadLettered (now now' : Instant) (run : BacktestRun) :
    (run.deadLettered now').claimable now = false := by
  simp [BacktestRun.claimable, BacktestRun.deadLettered]

/-- The first update of a claim buries the exhausted runs. -/
theorem mem_sweptRuns :
    run ∈ (sweptRuns runs now).rows ↔
      ∃ old ∈ runs.rows, run = if old.exhausted now then old.deadLettered now else old := by
  rw [sweptRuns, KeyedTable.update_rows, mem_map]
  simp only [eq_comm]

theorem forall_sweptRuns (runs : RunTable) (now : Instant) :
    List.Forall₂ RunChange runs.rows (sweptRuns runs now).rows := by
  rw [sweptRuns, KeyedTable.update_rows, forall₂_map_right_iff, forall₂_same]
  intro run hrun
  split_ifs with hexhausted
  · exact .deadLettered run now hexhausted
  · exact .kept run

/-- A run of the swept table that can be claimed is as it was before. -/
theorem claimable_of_swept {now' : Instant} (hrun : run ∈ (sweptRuns runs now).rows)
    (hclaimable : run.claimable now' = true) : run ∈ runs.rows ∧ run.exhausted now = false := by
  obtain ⟨old, hold, rfl⟩ := mem_sweptRuns.mp hrun
  cases hexhausted : old.exhausted now with
  | true => simp [hexhausted, not_claimable_deadLettered] at hclaimable
  | false => simpa [hexhausted] using hold

/-- The update of a claim changes its candidate alone. -/
theorem ofGeneration_iff {row : BacktestRun} (hrun : run ∈ runs.rows) (hrow : row ∈ runs.rows) :
    row.ofGeneration run.id run.leaseGeneration = true ↔ row = run := by
  constructor
  · intro h
    simp only [BacktestRun.ofGeneration, Bool.and_eq_true, decide_eq_true_eq] at h
    exact KeyedTable.eq_of_key hrow hrun h.1
  · rintro rfl
    simp [BacktestRun.ofGeneration]

/-- The update of a claim finds its candidate. -/
theorem find_ofGeneration (hrun : run ∈ runs.rows) :
    runs.find (BacktestRun.ofGeneration run.id run.leaseGeneration) = some run := by
  refine (KeyedTable.find_eq_some_iff (k := run.id) ?_).mpr
    ⟨hrun, (ofGeneration_iff hrun hrun).mpr rfl⟩
  intro row hrow
  simp only [BacktestRun.ofGeneration, Bool.and_eq_true, decide_eq_true_eq] at hrow
  exact hrow.1

/-- What a claim did. -/
theorem claim_cases {locked : ℤ → Bool} {leaseSeconds : ℤ} {response : Option ClaimedRunResponse}
    (h : claimNextRun clock locked db workerId leaseSeconds = .ok (response, db')) :
    RunsChanged db db' ∧
    ∀ claimed, response = some claimed → ∃ run ∈ db.runs.rows, run.claimable clock.queriedAt ∧
      ∃ run' ∈ db'.runs.rows, claimed = claimedRunResponse run' ∧
        run' = run.claimed (strip workerId) (clock.updatedAt.addSeconds leaseSeconds)
          clock.updatedAt (run.leaseGeneration + 1) := by
  obtain ⟨owner, howner, h⟩ := bind_eq_ok.mp h
  obtain ⟨rfl, hblank⟩ := nonBlank_eq_ok howner
  obtain ⟨-, h⟩ := guard_eq_ok.mp h
  cases hcandidate : runCandidate? (sweptRuns db.runs clock.sweptAt) clock.queriedAt locked with
  | none =>
    simp only [hcandidate] at h
    obtain ⟨rfl, rfl⟩ := Prod.mk.inj (pure_eq_ok.mp h)
    exact ⟨⟨forall_sweptRuns db.runs clock.sweptAt, rfl⟩, by simp⟩
  | some run =>
    obtain ⟨hmem, hclaimable⟩ := runCandidate?_some hcandidate
    obtain ⟨hold, hkept⟩ := claimable_of_swept hmem hclaimable
    simp only [hcandidate] at h
    obtain ⟨rfl, rfl⟩ := Prod.mk.inj (pure_eq_ok.mp h)
    refine ⟨⟨?_, rfl⟩, ?_⟩
    · -- a run is swept or claimed, not both
      rw [KeyedTable.update_rows, sweptRuns, KeyedTable.update_rows, map_map,
        forall₂_map_right_iff, forall₂_same]
      intro row hrow
      simp only [Function.comp_apply]
      by_cases hsame : row = run
      · obtain rfl := hsame
        simp only [hkept, Bool.false_eq_true, if_false, (ofGeneration_iff hmem hmem).mpr rfl,
          if_true]
        exact .claimed row _ clock.queriedAt _ _ hclaimable hblank
      · have hother : ¬ BacktestRun.ofGeneration run.id run.leaseGeneration
            (if row.exhausted clock.sweptAt then row.deadLettered clock.sweptAt else row) := by
          intro hheld
          have heq := (ofGeneration_iff hmem (mem_sweptRuns.mpr ⟨row, hrow, rfl⟩)).mp hheld
          refine hsame (KeyedTable.eq_of_key hrow hold ?_)
          rw [← heq]
          split_ifs <;> rfl
        rw [if_neg hother]
        split_ifs with hexhausted
        · exact .deadLettered row clock.sweptAt hexhausted
        · exact .kept row
    · intro claimed hclaimed
      rw [find_ofGeneration hmem, Option.map_some, Option.some.injEq] at hclaimed
      refine ⟨run, hold, hclaimable, _, ?_, hclaimed.symm, rfl⟩
      rw [KeyedTable.update_rows]
      exact mem_map.mpr ⟨run, hmem, by simp [(ofGeneration_iff hmem hmem).mpr rfl]⟩

/-- What a successful completion did. -/
theorem complete_completed {ar : Arithmetic} {result : BacktestResult}
    {artifacts : List ArtifactInput} {completedAt : Instant} {saved : SavedRunResponse} (h :
      completeClaimedRun ar clock db runId workerId leaseGeneration result artifacts completedAt =
      .ok (saved, db')) :
    ∃ run rows, RunCompleted ar clock db db' ⟨runId, workerId, leaseGeneration, result, artifacts⟩
      completedAt run rows := by
  obtain ⟨owner, howner, h⟩ := bind_eq_ok.mp h
  obtain ⟨rfl, -⟩ := nonBlank_eq_ok howner
  obtain ⟨-, -, h⟩ := bind_eq_ok.mp h
  obtain ⟨-, -, h⟩ := bind_eq_ok.mp h
  cases hfind : db.runs.find (BacktestRun.leasedTo clock.queriedAt runId (strip workerId)
      leaseGeneration) with
  | none => simp [hfind, throw, throwThe, MonadExceptOf.throw] at h
  | some run =>
    obtain ⟨hmem, hleased⟩ := find_leased.mp hfind
    obtain rfl := (leasedTo_iff.mp hleased).1
    simp only [hfind] at h
    obtain ⟨-, h⟩ := guard_eq_ok.mp h
    obtain ⟨rows, hrows, h⟩ := bind_eq_ok.mp h
    obtain ⟨hstill, h⟩ := guard_eq_ok.mp h
    obtain ⟨-, -, h⟩ := bind_eq_ok.mp h
    -- the row found before the update is the one locked by the query
    have hleasedNow : run.leasedTo clock.updatedAt run.id (strip workerId)
        leaseGeneration = true := by
      cases hother : db.runs.find (BacktestRun.leasedTo clock.updatedAt run.id (strip workerId)
          leaseGeneration) with
      | none => exact absurd (Option.isNone_iff_eq_none.mpr hother) hstill
      | some other =>
        obtain ⟨hotherMem, hotherLeased⟩ := find_leased.mp hother
        have hsame := KeyedTable.eq_of_key hotherMem hmem (leasedTo_iff.mp hotherLeased).1
        exact hsame ▸ hotherLeased
    split at h
    next => cases h
    next saved' hsaved =>
      obtain ⟨-, rfl⟩ := Prod.mk.inj (pure_eq_ok.mp h)
      refine ⟨run, rows, hmem, hleased, hleasedNow, hrows, ?_, rfl⟩
      rw [KeyedTable.update_rows]
      refine map_congr_left fun row hrow => ?_
      simp only [leasedTo_iff_id hmem hleasedNow hrow]

/-- What a successful failure did. -/
theorem failure_changed {errorCode message : String} {response : ClaimedRunResponse} (h :
      failClaimedRun clock db runId workerId leaseGeneration errorCode message = .ok (response,
      db')) : RunsChanged db db' := by
  obtain ⟨owner, -, h⟩ := bind_eq_ok.mp h
  obtain ⟨code, hcode, h⟩ := bind_eq_ok.mp h
  obtain ⟨failureMessage, -, h⟩ := bind_eq_ok.mp h
  obtain ⟨-, -, h⟩ := bind_eq_ok.mp h
  obtain ⟨-, -, h⟩ := bind_eq_ok.mp h
  cases hfind : db.runs.find (BacktestRun.leasedTo clock.updatedAt runId owner leaseGeneration) with
  | none => simp [hfind, throw, throwThe, MonadExceptOf.throw] at h
  | some run =>
    obtain ⟨hmem, hleased⟩ := find_leased.mp hfind
    simp only [hfind] at h
    obtain ⟨delay, -, h⟩ := bind_eq_ok.mp h
    obtain ⟨-, rfl⟩ := Prod.mk.inj (pure_eq_ok.mp h)
    refine ⟨?_, rfl⟩
    rw [KeyedTable.update_rows, forall₂_map_right_iff, forall₂_same]
    intro row hrow
    split_ifs with hrowLeased
    · exact .failed row _ code _ delay (leasedTo_iff.mp hrowLeased).2.1 (nonBlank_eq_ok hcode).2
    · exact .kept row

/-- A transaction changes the runs of the queue one by one, or completes one.
SOURCE: backtest_store.py:121-280 -/
theorem after_cases (ar : Arithmetic) (clock : ClockReadings) (state : BacktestState)
    (transaction : BacktestTransaction) :
    (RunsChanged state.db (state.after ar clock transaction).db ∧
      (state.after ar clock transaction).completions = state.completions) ∨
    ∃ call completedAt run rows, transaction = .complete call completedAt ∧
      RunCompleted ar clock state.db (state.after ar clock transaction).db call completedAt run
        rows ∧
      (state.after ar clock transaction).completions = state.completions ++ [call] := by
  unfold BacktestState.after
  cases hrun : transaction.run ar clock state.db with
  | error error =>
    exact Or.inl ⟨⟨forall₂_same.mpr fun run _ => .kept run, rfl⟩, rfl⟩
  | ok db' =>
    cases transaction with
    | claim locked workerId leaseSeconds =>
      obtain ⟨⟨response, committed⟩, hcall, rfl⟩ := map_eq_ok.mp hrun
      exact Or.inl ⟨(claim_cases hcall).1, append_nil _⟩
    | complete call completedAt =>
      obtain ⟨⟨saved, committed⟩, hcall, rfl⟩ := map_eq_ok.mp hrun
      obtain ⟨run, rows, hcompleted⟩ := complete_completed hcall
      exact Or.inr ⟨call, completedAt, run, rows, rfl, hcompleted, rfl⟩
    | fail runId workerId leaseGeneration errorCode message =>
      obtain ⟨⟨response, committed⟩, hcall, rfl⟩ := map_eq_ok.mp hrun
      exact Or.inl ⟨failure_changed hcall, append_nil _⟩

end Goodmoneying.Analysis
