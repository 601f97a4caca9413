import Goodmoneying.Program.BacktestRuns
import Goodmoneying.Analysis.BacktestQueueSafety

/-!
# The identity of a backtest run

A run is queued under the `input_hash` of its inputs with no signals, and keeps it
(`BacktestRun.identity`). A completion compares it with the hash of inputs and signals
(`completeClaimedRun_accepts_iff`). The table identifies runs by other columns, which leave the
initial cash and the execution model out (`runIdentities_agree_iff`). SHA-256 is a parameter,
injective on the canonical bytes that it is applied to.
-/

namespace Goodmoneying.Analysis

open List Library Program

variable {ar : Arithmetic} {spec : BacktestEngineSpec} {run : BacktestRun} {rows : List BacktestRun}
  {store store' : BacktestStore} {sha256 : List ℕ → String} {tables : VersionTables}
  {command other : BacktestRunRequest} {material material' : RunMaterial}
  {summary : RunSummaryResponse} {idempotencyKey : String} {seed : ℤ}
variable {replayEvents : List BacktestCandleEvent} {signals : List BacktestSignal}
  {run' : BacktestRun} {rows' : List BacktestRun} {clock : ClockReadings} {db : BacktestDatabase}
  {later : BacktestStore}

/-! ## What the hashes are of -/

/-- The canonical bytes that the engine hashes to the `input_hash`. -/
def inputBytes (ar : Arithmetic) (spec : BacktestEngineSpec)
    (replayEvents : List BacktestCandleEvent) (signals : List BacktestSignal) : List ℕ :=
  canonicalJsonBytes (CanonicalValue.json ar (.mapping [
    ("spec", specPayload spec),
    ("events", .list (replayEvents.map eventPayload)),
    ("signals", signalPayloads signals),
    ("assumptions", .list (assumptions.map .text))]))

theorem inputHash_payloadHash (ar : Arithmetic) (sha256 : List ℕ → String)
    (spec : BacktestEngineSpec) (replayEvents : List BacktestCandleEvent)
    (signals : List BacktestSignal) : inputHash (payloadHash ar sha256) spec replayEvents signals =
      sha256 (inputBytes ar spec replayEvents signals) := rfl

/-- A result carries the hash of its inputs, whether it has succeeded or failed. -/
theorem runCandleBacktest_inputHash (ar : Arithmetic) (hash : CanonicalValue → String)
    (spec : BacktestEngineSpec) (candles : List BacktestCandleEvent)
    (signals : List BacktestSignal) : (runCandleBacktest ar hash spec candles signals).inputHash =
      inputHash hash spec (sortedBy eventSortKey candles) signals := by
  unfold runCandleBacktest
  dsimp only
  split_ifs <;> rfl

theorem canonicalJsonBytes_inj {payload other : JsonValue}
    (h : canonicalJsonBytes payload = canonicalJsonBytes other) : payload.dumps = other.dumps :=
  utf8Bytes_inj h

theorem length_jsonItems (ar : Arithmetic) (items : List CanonicalValue) :
    (jsonItems ar items).length = items.length := by
  induction items with
  | nil => rw [jsonItems, length_nil, length_nil]
  | cons item items ih => rw [jsonItems, length_cons, length_cons, ih]

/-- The text of a list determines its length. -/
theorem length_eq_of_dumps_list {items others : List CanonicalValue} (h : (CanonicalValue.json ar
      (.list items)).dumps = (CanonicalValue.json ar (.list others)).dumps) :
    items.length = others.length := by
  rw [CanonicalValue.json, CanonicalValue.json] at h
  have hlength := congrArg List.length (dumps_list_inj h)
  rwa [length_map, length_map, length_jsonItems, length_jsonItems] at hlength

/-- The parts of the bytes of an input. -/
theorem inputBytes_parts {spec' : BacktestEngineSpec} {replayEvents' : List BacktestCandleEvent}
    {signals' : List BacktestSignal}
    (h : inputBytes ar spec replayEvents signals = inputBytes ar spec' replayEvents' signals') :
    (CanonicalValue.json ar (specPayload spec)).dumps =
      (CanonicalValue.json ar (specPayload spec')).dumps ∧
    (CanonicalValue.json ar (signalPayloads signals)).dumps =
      (CanonicalValue.json ar (signalPayloads signals')).dumps := by
  have hdumps := canonicalJsonBytes_inj h
  rw [CanonicalValue.json, CanonicalValue.json] at hdumps
  have hparts := dumpsEntries_inj hdumps rfl (by simp [jsonEntries])
  simp only [jsonEntries, dumpsEntries, List.cons.injEq, Prod.mk.injEq, true_and] at hparts
  exact ⟨hparts.1, hparts.2.2.1⟩

/-- Inputs without signals have the bytes of inputs without signals only. -/
theorem inputBytes_nil_iff :
    inputBytes ar spec replayEvents [] = inputBytes ar spec replayEvents signals ↔
      signals = [] := by
  constructor
  · intro h
    have hlength := length_eq_of_dumps_list (inputBytes_parts h).2
    rw [length_map, length_map, length_zipIdx, length_zipIdx] at hlength
    exact length_eq_zero_iff.mp hlength.symm
  · rintro rfl
    rfl

/-! ## The identity of a run -/

/-- The columns of a run that no update may change, and its id. -/
structure RunIdentity where
  id : ℤ
  strategyVersionId : ℤ
  strategyGraphHash : String
  datasetVersionId : ℤ
  datasetContentHash : String
  engineVersion : String
  inputHash : String
  inputPayload : CanonicalValue
  parameterHash : String
  seed : ℤ
  idempotencyKey : String
  requestId : String
  actorId : String
  requestedAt : Instant
  reason : String
  requestHash : String

/-- The identity of a run. -/
def BacktestRun.identity (run : BacktestRun) : RunIdentity where
  id := run.id
  strategyVersionId := run.strategyVersionId
  strategyGraphHash := run.strategyGraphHash
  datasetVersionId := run.datasetVersionId
  datasetContentHash := run.datasetContentHash
  engineVersion := run.engineVersion
  inputHash := run.inputHash
  inputPayload := run.inputPayload
  parameterHash := run.parameterHash
  seed := run.seed
  idempotencyKey := run.idempotencyKey
  requestId := run.requestId
  actorId := run.actorId
  requestedAt := run.requestedAt
  reason := run.reason
  requestHash := run.requestHash

/-- A transaction keeps what a run is identified by. -/
theorem RunChange.identity (h : RunChange run run') :
    BacktestRun.identity run' = BacktestRun.identity run := by
  cases h <;> rfl

theorem identities_of_changes (h : List.Forall₂ RunChange rows rows') :
    rows'.map BacktestRun.identity = rows.map BacktestRun.identity := by
  induction h with
  | nil => rfl
  | cons hhead _ ih => rw [map_cons, map_cons, hhead.identity, ih]

/-- A worker leaves the identities of the runs as they are. -/
theorem run_identities {db' : BacktestDatabase} {transaction : BacktestTransaction}
    (h : transaction.run ar clock db = .ok db') :
    db'.runs.rows.map BacktestRun.identity = db.runs.rows.map BacktestRun.identity := by
  have hafter : (BacktestState.after ar clock ⟨db, []⟩ transaction).db = db' := by
    rw [BacktestState.after, h]
  rcases after_cases ar clock ⟨db, []⟩ transaction with
    ⟨hchanged, -⟩ | ⟨call, completedAt, run, rows, -, hcompleted, -⟩
  · rw [hafter] at hchanged
    exact identities_of_changes hchanged.runs
  · rw [hafter] at hcompleted
    rw [hcompleted.runs, map_map]
    refine map_congr_left fun row _ => ?_
    simp only [Function.comp_apply]
    split_ifs <;> rfl

theorem steps_identities {state state' : BacktestState}
    (hsteps : Relation.ReflTransGen (BacktestStep ar) state state') :
    state'.db.runs.rows.map BacktestRun.identity = state.db.runs.rows.map BacktestRun.identity := by
  induction hsteps with
  | refl => rfl
  | @tail state _ _ hstep ih =>
    obtain ⟨clock, transaction⟩ := hstep
    rw [← ih]
    unfold BacktestState.after
    cases hrun : transaction.run ar clock state.db with
    | error error => rfl
    | ok db => exact run_identities hrun

/-- Conditions on identities hold of runs of the same identities. -/
theorem any_of_identities {p : BacktestRun → Bool}
    (h : rows'.map BacktestRun.identity = rows.map BacktestRun.identity)
    (hp : ∀ run run', BacktestRun.identity run' = BacktestRun.identity run → p run' = p run) :
    rows'.any p = rows.any p := by
  induction rows generalizing rows' with
  | nil => rw [map_eq_nil_iff.mp h]
  | cons run rows ih =>
    obtain ⟨run', rows', rfl, hhead, htail⟩ := map_eq_cons_iff.mp h
    rw [any_cons, any_cons, hp run run' hhead, ih htail]

/-! ## Creating a run -/

/-- The row that a validated request inserts. -/
def commandRun (ar : Arithmetic) (sha256 : List ℕ → String) (material : RunMaterial)
    (command : BacktestRunRequest) (id : ℤ) : BacktestRun :=
  let parameterHash := canonicalPayloadHash sha256 command.parametersJson
  let spec := engineSpec material command parameterHash
  let candleEvents := loadCandleEvents material.version
  let preview := runCandleBacktest ar (payloadHash ar sha256) spec candleEvents []
  queuedRunRow material command (canonicalPayloadHash sha256 command.json) parameterHash
    (runInputPayload material spec candleEvents preview) preview id

theorem commandRun_id (ar : Arithmetic) (sha256 : List ℕ → String) (material : RunMaterial)
    (command : BacktestRunRequest) (id : ℤ) :
    (commandRun ar sha256 material command id).id = id := rfl

/-- The engine's specification of a validated request. -/
def commandSpec (sha256 : List ℕ → String) (material : RunMaterial)
    (command : BacktestRunRequest) : BacktestEngineSpec :=
  engineSpec material command (canonicalPayloadHash sha256 command.parametersJson)

theorem commandRun_inputHash (ar : Arithmetic) (sha256 : List ℕ → String)
    (material : RunMaterial) (command : BacktestRunRequest) (id : ℤ) :
    (commandRun ar sha256 material command id).inputHash =
      sha256 (inputBytes ar (commandSpec sha256 material command)
        (sortedBy eventSortKey (loadCandleEvents material.version)) []) :=
  runCandleBacktest_inputHash ar (payloadHash ar sha256) _ _ _

/-- What is checked of the columns of an inserted run. -/
structure RunColumns (run : BacktestRun) : Prop where
  seed : ∃ seed, bigintColumn run.seed = .ok seed
  maxAttempts : ∃ maxAttempts, integerColumn run.maxAttempts = .ok maxAttempts
  insertable : run.insertable = true

/-- A run with good columns is inserted unless it violates a `UNIQUE` constraint. -/
theorem RunColumns.insertRun (h : RunColumns run) (store : BacktestStore)
    (hid : run.id = store.nextRunId) : insertRun store run hid =
      if store.queue.runs.rows.any run.clashes then .error .uniqueViolation
      else .ok (store.append run hid) := by
  obtain ⟨⟨seed, hseed⟩, ⟨maxAttempts, hmaxAttempts⟩, hinsertable⟩ := h
  unfold Program.insertRun
  rw [hseed, hmaxAttempts, check, if_pos hinsertable]
  rfl

theorem insertRun_eq_ok {hid : run.id = store.nextRunId} : insertRun store run hid = .ok store' ↔
      RunColumns run ∧ store.queue.runs.rows.any run.clashes = false ∧
        store' = store.append run hid := by
  constructor
  · intro h
    obtain ⟨seed, hseed, h⟩ := bind_eq_ok.mp h
    obtain ⟨maxAttempts, hmaxAttempts, h⟩ := bind_eq_ok.mp h
    obtain ⟨_, hinsertable, h⟩ := bind_eq_ok.mp h
    obtain ⟨hclash, h⟩ := guard_eq_ok.mp h
    refine ⟨⟨⟨seed, hseed⟩, ⟨maxAttempts, hmaxAttempts⟩, ?_⟩, by simpa using hclash,
      (pure_eq_ok.mp h).symm⟩
    unfold check at hinsertable
    split_ifs at hinsertable with hrun
    exact hrun
  · rintro ⟨hcolumns, hclash, rfl⟩
    rw [hcolumns.insertRun, hclash]
    rfl

/-- What `create_run` does under a new idempotency key. -/
theorem createCommandRun_new
    (hnew : ∀ run ∈ store.queue.runs.rows, run.idempotencyKey ≠ command.idempotencyKey) (hmaterial :
      runMaterial tables command.strategyVersionId command.datasetVersionId = some material) :
    createCommandRun ar sha256 tables store command =
      if store.queue.runs.rows.any fun run => run.inputHash =
          (commandRun ar sha256 material command store.nextRunId).inputHash then
        .error (.idempotencyConflict "동일한 백테스트 입력이 이미 다른 멱등 키로 생성됐다.")
      else (do
        let inserted ← insertRun store (commandRun ar sha256 material command store.nextRunId)
          (commandRun_id ar sha256 material command store.nextRunId)
        pure (runSummaryResponse (commandRun ar sha256 material command store.nextRunId),
          inserted)) := by
  have hfind : (store.queue.runs.find fun run => run.idempotencyKey = command.idempotencyKey) =
      none := KeyedTable.find_eq_none_iff.mpr fun run hrun => by simpa using hnew run hrun
  unfold createCommandRun
  simp only [hfind, hmaterial]
  rfl

/-- A successful call under a new idempotency key inserts the run of its command. -/
theorem createCommandRun_eq_ok
    (hnew : ∀ run ∈ store.queue.runs.rows, run.idempotencyKey ≠ command.idempotencyKey)
    (h : createCommandRun ar sha256 tables store command = .ok (summary, store')) :
    ∃ material, runMaterial tables command.strategyVersionId command.datasetVersionId =
        some material ∧
      summary = runSummaryResponse (commandRun ar sha256 material command store.nextRunId) ∧
      RunColumns (commandRun ar sha256 material command store.nextRunId) ∧
      store.queue.runs.rows.any
        (commandRun ar sha256 material command store.nextRunId).clashes = false ∧
      store' = store.append (commandRun ar sha256 material command store.nextRunId)
        (commandRun_id ar sha256 material command store.nextRunId) := by
  cases hmaterial : runMaterial tables command.strategyVersionId command.datasetVersionId with
  | none =>
    have hfind : (store.queue.runs.find fun run =>
        run.idempotencyKey = command.idempotencyKey) = none :=
      KeyedTable.find_eq_none_iff.mpr fun run hrun => by simpa using hnew run hrun
    unfold createCommandRun at h
    simp [hfind, hmaterial, throw, throwThe, MonadExceptOf.throw] at h
  | some material =>
    rw [createCommandRun_new hnew hmaterial] at h
    split_ifs at h
    obtain ⟨inserted, hinserted, h⟩ := bind_eq_ok.mp h
    obtain ⟨hcolumns, hclash, rfl⟩ := insertRun_eq_ok.mp hinserted
    obtain ⟨rfl, rfl⟩ := Prod.mk.inj (pure_eq_ok.mp h)
    exact ⟨material, rfl, rfl, hcolumns, hclash, rfl⟩

/-- Under a known idempotency key the store stays as it is. -/
theorem createCommandRun_known
    (hknown : ∃ run ∈ store.queue.runs.rows, run.idempotencyKey = command.idempotencyKey)
    (h : createCommandRun ar sha256 tables store command = .ok (summary, store')) :
    store' = store := by
  cases hfind : store.queue.runs.find fun run => run.idempotencyKey = command.idempotencyKey with
  | none =>
    obtain ⟨run, hrun, hkey⟩ := hknown
    exact absurd hkey (by simpa using KeyedTable.find_eq_none_iff.mp hfind run hrun)
  | some existing =>
    unfold createCommandRun at h
    simp only [hfind] at h
    obtain ⟨-, h⟩ := guard_eq_ok.mp h
    split at h
    · cases h
    · exact (Prod.mk.inj (pure_eq_ok.mp h)).2.symm

/-- A step of the store keeps the runs, in their identities. -/
theorem store_step_identities (h : BacktestStoreStep ar sha256 tables store store') :
    store.queue.runs.rows.map BacktestRun.identity ⊆
      store'.queue.runs.rows.map BacktestRun.identity := by
  cases h with
  | create request summary hcreate =>
    obtain ⟨command, -, hcreate⟩ := bind_eq_ok.mp hcreate
    by_cases hknown : ∃ run ∈ store.queue.runs.rows, run.idempotencyKey = command.idempotencyKey
    · rw [createCommandRun_known hknown hcreate]
      exact List.Subset.refl _
    · obtain ⟨material, -, -, -, -, rfl⟩ :=
        createCommandRun_eq_ok (fun run hrun hkey => hknown ⟨run, hrun, hkey⟩) hcreate
      exact map_subset _ (subset_append_left _ _)
  | work clock transaction hwork hnext => rw [run_identities hwork]; exact List.Subset.refl _

theorem store_steps_identities
    (h : Relation.ReflTransGen (BacktestStoreStep ar sha256 tables) store store') :
    store.queue.runs.rows.map BacktestRun.identity ⊆
      store'.queue.runs.rows.map BacktestRun.identity := by
  induction h with
  | refl => exact List.Subset.refl _
  | tail _ hstep ih => exact List.Subset.trans ih (store_step_identities hstep)

/-- A run keeps the identity it was created with. -/
theorem identity_of_steps
    (h : Relation.ReflTransGen (BacktestStoreStep ar sha256 tables) store store')
    (hrun : run ∈ store.queue.runs.rows) (hrun' : run' ∈ store'.queue.runs.rows)
    (hid : run'.id = run.id) : BacktestRun.identity run' = BacktestRun.identity run := by
  obtain ⟨other, hother, hsame⟩ := mem_map.mp (store_steps_identities h (mem_map_of_mem hrun))
  have hotherId : other.id = run.id := congrArg RunIdentity.id hsame
  rw [KeyedTable.eq_of_key hrun' hother (hid.trans hotherId.symm), hsame]

/-! ## The check of a completion -/

/-- What `complete_claimed_run` raises where the hashes differ. -/
def inputHashMismatch : StoreError := .valueError "백테스트 result input_hash가 임대 run과 다르다."

theorem store_ne_mismatch (ar : Arithmetic) (value : ℚ) :
    ar.store value ≠ .error inputHashMismatch := by
  unfold Arithmetic.store
  split <;> simp [inputHashMismatch]

theorem check_ne_mismatch (condition : Bool) : check condition ≠ .error inputHashMismatch := by
  unfold check
  split_ifs <;> simp [inputHashMismatch]

theorem integerColumn_ne_mismatch (value : ℤ) :
    integerColumn value ≠ .error inputHashMismatch := by
  unfold integerColumn
  split_ifs <;> simp [inputHashMismatch]

theorem requiredKey_ne_mismatch (key : String) (value : Option String) :
    requiredKey key value ≠ .error inputHashMismatch := by
  unfold requiredKey
  split <;> simp [inputHashMismatch]

theorem appendUnique_ne_mismatch {α κ : Type} [DecidableEq κ] (key : α → κ) (rows : List α)
    (row : α) : appendUnique key rows row ≠ .error inputHashMismatch := by
  unfold appendUnique
  split_ifs <;> simp [inputHashMismatch]

theorem insertTrade_ne_mismatch (ar : Arithmetic) (tradeSequence : ℕ) (trade : BacktestTrade) :
    insertTrade ar tradeSequence trade ≠ .error inputHashMismatch := by
  apply bind_ne_error (integerColumn_ne_mismatch _)
  intro sequence
  iterate 5
    apply bind_ne_error (store_ne_mismatch ar _)
    intro value
  apply bind_ne_error (check_ne_mismatch _)
  intro _
  simp [pure, Except.pure]

theorem insertEquityPoint_ne_mismatch (ar : Arithmetic) (rows : List BacktestEquityPointRow)
    (pointSequence : ℕ) (point : BacktestEquityPoint) :
    insertEquityPoint ar rows pointSequence point ≠ .error inputHashMismatch := by
  apply bind_ne_error (integerColumn_ne_mismatch _)
  intro sequence
  iterate 3
    apply bind_ne_error (store_ne_mismatch ar _)
    intro value
  apply bind_ne_error (check_ne_mismatch _)
  intro _
  split_ifs <;>
    simp [pure, Except.pure, throw, throwThe, MonadExceptOf.throw, inputHashMismatch]

/-- The rows of a result are refused with other exceptions. -/
theorem insertResult_ne_mismatch (ar : Arithmetic) (rows : ResultRows) (result : BacktestResult)
    (artifacts : List ArtifactInput) :
    insertResult ar rows result artifacts ≠ .error inputHashMismatch := by
  apply bind_ne_error
  · refine foldlM_ne_error (fun rows item => ?_) _ _
    exact bind_ne_error (insertTrade_ne_mismatch ar _ _) fun row => appendUnique_ne_mismatch _ _ _
  intro trades
  apply bind_ne_error
  · refine foldlM_ne_error (fun rows item => ?_) _ _
    exact bind_ne_error (insertEquityPoint_ne_mismatch ar _ _ _)
      fun row => appendUnique_ne_mismatch _ _ _
  intro equityPoints
  apply bind_ne_error
  · refine foldlM_ne_error (fun rows item => ?_) _ _
    refine bind_ne_error (store_ne_mismatch ar _) fun value => ?_
    exact bind_ne_error (check_ne_mismatch _) fun _ => appendUnique_ne_mismatch _ _ _
  intro metrics
  apply bind_ne_error
  · refine foldlM_ne_error (fun rows artifact => ?_) _ _
    refine bind_ne_error (requiredKey_ne_mismatch _ _) fun artifactType => ?_
    refine bind_ne_error (requiredKey_ne_mismatch _ _) fun contentHash => ?_
    exact bind_ne_error (check_ne_mismatch _) fun _ => appendUnique_ne_mismatch _ _ _
  intro artifacts
  simp [pure, Except.pure]

/-- Under a live lease the check refuses a result exactly when its hash is not the run's. -/
theorem completeClaimedRun_mismatch_iff {workerId : String} {leaseGeneration : ℤ}
    {result : BacktestResult} {artifacts : List ArtifactInput} {completedAt : Instant}
    (hcall : ValidCall run.id workerId leaseGeneration) (hrun : run ∈ db.runs.rows)
    (hlive : run.leasedTo clock.queriedAt run.id (strip workerId) leaseGeneration = true) :
    completeClaimedRun ar clock db run.id workerId leaseGeneration result artifacts completedAt =
      .error inputHashMismatch ↔ run.inputHash ≠ result.inputHash := by
  unfold completeClaimedRun
  rw [nonBlank_of_ne hcall.worker, ok_bind, atLeastOne_of_le hcall.runId, ok_bind,
    atLeastOne_of_le hcall.generation, ok_bind, find_leased.mpr ⟨hrun, hlive⟩]
  dsimp only
  by_cases hsame : run.inputHash ≠ result.inputHash
  · rw [if_pos hsame]
    exact iff_of_true rfl hsame
  · rw [if_neg hsame]
    refine iff_of_false ?_ hsame
    apply bind_ne_error (insertResult_ne_mismatch ar _ _ _)
    intro rows
    split_ifs
    · simp [throw, throwThe, MonadExceptOf.throw, inputHashMismatch]
    · apply bind_ne_error (check_ne_mismatch _)
      intro _
      split <;> simp [pure, Except.pure, throw, throwThe, MonadExceptOf.throw, inputHashMismatch]

/-! ## Completing a created run -/

/-- The events of a run, sorted. -/
def replayEventsOf (material : RunMaterial) : List BacktestCandleEvent :=
  sortedBy eventSortKey (loadCandleEvents material.version)

/-- A created run keeps the hash of its inputs without signals. -/
theorem inputHash_of_steps {created : BacktestStore} {request : BacktestRunRequest}
    (hcommand : commandPayload request = .ok command)
    (hnew : ∀ run ∈ store.queue.runs.rows, run.idempotencyKey ≠ command.idempotencyKey) (hmaterial :
      runMaterial tables command.strategyVersionId command.datasetVersionId = some material)
    (hcreate : createRun ar sha256 tables store request = .ok (summary, created))
    (hlater : Relation.ReflTransGen (BacktestStoreStep ar sha256 tables) created later)
    (hrun : run ∈ later.queue.runs.rows) (hid : run.id = summary.backtestRunId) : run.inputHash =
      sha256 (inputBytes ar (commandSpec sha256 material command) (replayEventsOf material) []) := by
  rw [createRun, hcommand, ok_bind] at hcreate
  obtain ⟨found, hfound, rfl, -, -, rfl⟩ := createCommandRun_eq_ok hnew hcreate
  obtain rfl := Option.some.inj (hmaterial.symm.trans hfound)
  have hinserted : commandRun ar sha256 material command store.nextRunId ∈
      store.queue.runs.rows ++ [commandRun ar sha256 material command store.nextRunId] :=
    mem_append_right _ (mem_singleton_self _)
  have hidentity := identity_of_steps hlater hinserted hrun hid
  exact (congrArg RunIdentity.inputHash hidentity).trans
    (commandRun_inputHash ar sha256 material command store.nextRunId)

/-- Under a live lease, the check of the input hash accepts the result of a created run exactly
when the strategy has given no signals.
SOURCE: backtest_store.py:195-213, 374-419; backtest_engine.py:130-236, 410-422 -/
theorem completeClaimedRun_accepts_iff (ar : Arithmetic) (sha256 : List ℕ → String)
    (tables : VersionTables) (store created later : BacktestStore)
    (request command : BacktestRunRequest) (summary : RunSummaryResponse) (material : RunMaterial)
    (hcommand : commandPayload request = .ok command)
    (hnew : ∀ run ∈ store.queue.runs.rows, run.idempotencyKey ≠ command.idempotencyKey)
    (hmaterial : runMaterial tables command.strategyVersionId command.datasetVersionId =
      some material)
    (hcreate : createRun ar sha256 tables store request = .ok (summary, created))
    (hlater : Relation.ReflTransGen (BacktestStoreStep ar sha256 tables) created later)
    (run : BacktestRun) (hrun : run ∈ later.queue.runs.rows)
    (hid : run.id = summary.backtestRunId)
    (clock : ClockReadings) (workerId : String) (leaseGeneration : ℤ)
    (hworker : strip workerId ≠ "") (hgeneration : 1 ≤ leaseGeneration)
    (hlive : run.leasedTo clock.queriedAt run.id (strip workerId) leaseGeneration = true)
    (candles : List BacktestCandleEvent)
    (horder : candles.Perm (loadCandleEvents material.version))
    (hkeys : (candles.map eventSortKey).Nodup)
    (signals : List BacktestSignal) (artifacts : List ArtifactInput) (completedAt : Instant)
    (hsha : Set.InjOn sha256
      {bytes | bytes = inputBytes ar (commandSpec sha256 material command)
          (sortedBy eventSortKey candles) [] ∨
        bytes = inputBytes ar (commandSpec sha256 material command)
          (sortedBy eventSortKey candles) signals}) :
    completeClaimedRun ar clock later.queue run.id workerId leaseGeneration
        (runCandleBacktest ar (payloadHash ar sha256) (commandSpec sha256 material command)
          candles signals) artifacts completedAt ≠
      .error (.valueError "백테스트 result input_hash가 임대 run과 다르다.") ↔ signals = [] := by
  have hsorted : sortedBy eventSortKey candles = replayEventsOf material :=
    eq_of_pairwise_le (((sortedBy_perm _ _).trans horder).trans (sortedBy_perm _ _).symm)
      (sortedBy_pairwise _ _) (sortedBy_pairwise _ _)
      ((((sortedBy_perm _ _).trans horder.symm).map eventSortKey).nodup_iff.mpr hkeys)
  have hcall : ValidCall run.id workerId leaseGeneration :=
    ⟨hworker, (later.fresh run hrun).1, hgeneration⟩
  rw [Ne, ← inputHashMismatch, completeClaimedRun_mismatch_iff hcall hrun hlive, not_not,
    runCandleBacktest_inputHash, inputHash_payloadHash,
    inputHash_of_steps hcommand hnew hmaterial hcreate hlater hrun hid, ← hsorted]
  rw [hsha.eq_iff (Or.inl rfl) (Or.inr rfl)]
  exact inputBytes_nil_iff

/-- A published strategy and a sealed dataset of one candle. -/
def oneCandleTables : VersionTables where
  strategyVersions := ⟨[{
    id := 7
    status := .published
    graphHash := "0000000000000000000000000000000000000000000000000000000000000007"
    storedGraphHash :=
      some "0000000000000000000000000000000000000000000000000000000000000007" }], by decide⟩
  datasetVersions := ⟨[{
    id := 9
    contentHash := "0000000000000000000000000000000000000000000000000000000000000009"
    asOf := 120000000
    outputStartAt := 0
    endAt := 60000000
    fillPolicy := "none"
    missingPolicy := "fail"
    sealedAt := some 120000000
    candles := [{
      instrumentId := 1
      marketCode := "KRW-BTC"
      occurredAt := 0
      knowledgeAt := 60000000
      source := .sourceCandleRevision 5
      openPrice := 100
      highPrice := 100
      lowPrice := 100
      closePrice := 100
      tradeVolume := 10
      quality := .available
      contentHash := "0000000000000000000000000000000000000000000000000000000000000005" }] }],
    by decide⟩

/-- The strategy and the dataset. -/
def oneCandleMaterial : RunMaterial where
  strategy := oneCandleTables.strategyVersions.rows.head (by decide)
  version := oneCandleTables.datasetVersions.rows.head (by decide)

/-- No run has been created. -/
def emptyStore : BacktestStore where
  queue := { runs := ⟨[], nodup_nil⟩, results := fun _ => {} }
  nextRunId := 1
  fresh _ hrun := absurd hrun not_mem_nil
  one_le_next := le_rfl

/-- A request under an idempotency key, with a seed and an initial cash. -/
def requestOf (idempotencyKey : String) (seed : ℤ) (initialCash : DecimalArgument) :
    BacktestRunRequest where
  requestId := "request"
  idempotencyKey := idempotencyKey
  actorId := "operator"
  requestedAt := (⟨0, by decide⟩ : UtcTime).datetime
  reason := "research"
  strategyVersionId := 7
  datasetVersionId := 9
  engineVersion := "backtest-core-v1"
  parameters := [("entryQuantity", .text "0.1")]
  seed := seed
  initialCash := initialCash
  execution := {
    feeRate := ⟨0, "0"⟩
    slippageBps := ⟨5, "5"⟩
    latencySeconds := 0
    maxParticipationRate := ⟨1, "1"⟩ }

/-- A hash that tells two texts apart from all others. -/
def threeHashes (first second bytes : List ℕ) : String :=
  if bytes = first then "000000000000000000000000000000000000000000000000000000000000000a"
  else if bytes = second then "000000000000000000000000000000000000000000000000000000000000000b"
  else "000000000000000000000000000000000000000000000000000000000000000c"

theorem isHashText_threeHashes (first second bytes : List ℕ) :
    isHashText (threeHashes first second bytes) = true := by
  unfold threeHashes
  split_ifs <;> decide

/-- A digest that tells three texts apart. -/
theorem threeHashes_injOn (first second third : List ℕ) :
    Set.InjOn (threeHashes first second)
      {bytes | bytes = first ∨ bytes = second ∨ bytes = third} := by
  intro bytes hbytes other hother h
  unfold threeHashes at h
  by_cases hfirst : bytes = first
  · by_cases hfirst' : other = first
    · rw [hfirst, hfirst']
    · rw [if_pos hfirst, if_neg hfirst'] at h
      split_ifs at h <;> exact absurd h (by decide)
  · by_cases hfirst' : other = first
    · rw [if_neg hfirst, if_pos hfirst'] at h
      split_ifs at h <;> exact absurd h (by decide)
    · rw [if_neg hfirst, if_neg hfirst'] at h
      split_ifs at h with hsecond hsecond' hsecond'
      · rw [hsecond, hsecond']
      · exact absurd h (by decide)
      · exact absurd h (by decide)
      · -- both are the third text
        rcases hbytes with hbytes | hbytes | rfl
        · exact absurd hbytes hfirst
        · exact absurd hbytes hsecond
        · rcases hother with hother | hother | rfl
          · exact absurd hother hfirst'
          · exact absurd hother hsecond'
          · rfl

/-- Texts without outer blanks pass as they are. -/
theorem nonBlank_eq_self {value : String} (h : strip value = value) (hne : value ≠ "")
    (field : String) : nonBlank value field = .ok value := by
  rw [nonBlank, h, if_neg hne]

theorem commandPayload_requestOf (seed : ℤ) (initialCash : DecimalArgument)
    (hkey : strip idempotencyKey = idempotencyKey) (hne : idempotencyKey ≠ "") :
    commandPayload (requestOf idempotencyKey seed initialCash) =
      .ok (requestOf idempotencyKey seed initialCash) := by
  have hparameters : parameterPayload [("entryQuantity", .text "0.1")] =
      .ok [("entryQuantity", .text "0.1")] := by
    have hadd : addParameter [] ("entryQuantity", .text "0.1") =
        .ok [("entryQuantity", .text "0.1")] := by
      rw [addParameter, show strip "entryQuantity" = "entryQuantity" by decide +kernel,
        if_neg (by decide), setKey]
    rw [parameterPayload, foldlM_cons, hadd]
    rfl
  unfold commandPayload requestOf
  dsimp only
  rw [nonBlank_eq_self (show strip "request" = "request" by decide +kernel) (by decide),
    nonBlank_eq_self hkey hne,
    nonBlank_eq_self (show strip "operator" = "operator" by decide +kernel) (by decide),
    nonBlank_eq_self (show strip "research" = "research" by decide +kernel) (by decide),
    nonBlank_eq_self (show strip "backtest-core-v1" = "backtest-core-v1" by decide +kernel)
      (by decide), hparameters]
  rfl

theorem runColumns_requestOf (hsha : ∀ bytes, isHashText (sha256 bytes) = true)
    (initialCash : DecimalArgument) (hkey : blank idempotencyKey = false)
    (hseed : bigintColumn seed = .ok seed) (id : ℤ) :
    RunColumns (commandRun .default sha256 oneCandleMaterial
      (requestOf idempotencyKey seed initialCash) id) where
  seed := ⟨seed, hseed⟩
  maxAttempts := ⟨3, rfl⟩
  insertable := by
    have hinput : isHashText (commandRun .default sha256 oneCandleMaterial
        (requestOf idempotencyKey seed initialCash) id).inputHash = true := by
      rw [commandRun_inputHash]
      exact hsha _
    have hgraph : isHashText oneCandleMaterial.strategy.graphHash = true := by decide
    have hcontent : isHashText oneCandleMaterial.version.contentHash = true := by decide
    have hengine : blank "backtest-core-v1" = false := by decide
    have hrequest : blank "request" = false := by decide
    have hactor : blank "operator" = false := by decide
    have hreason : blank "research" = false := by decide
    unfold BacktestRun.insertable
    rw [hinput]
    simp only [commandRun, queuedRunRow, requestOf, canonicalPayloadHash, hsha, hgraph, hcontent,
      hengine, hrequest, hactor, hreason, hkey]
    rfl

theorem runMaterial_oneCandle : runMaterial oneCandleTables 7 9 = some oneCandleMaterial := by
  rfl

/-- The store after a request with the first key. -/
def storeOf (sha256 : List ℕ → String) (request : BacktestRunRequest) : BacktestStore :=
  emptyStore.append (commandRun .default sha256 oneCandleMaterial request 1) rfl

/-- The first run is created. -/
theorem createRun_first (hsha : ∀ bytes, isHashText (sha256 bytes) = true)
    (initialCash : DecimalArgument) (hkey : strip idempotencyKey = idempotencyKey)
    (hne : idempotencyKey ≠ "") (hseed : bigintColumn seed = .ok seed) :
    createRun .default sha256 oneCandleTables emptyStore
        (requestOf idempotencyKey seed initialCash) =
      .ok (runSummaryResponse (commandRun .default sha256 oneCandleMaterial
        (requestOf idempotencyKey seed initialCash) 1),
        storeOf sha256 (requestOf idempotencyKey seed initialCash)) := by
  have hblank := (nonBlank_eq_ok (nonBlank_eq_self hkey hne "idempotencyKey")).2
  rw [createRun, commandPayload_requestOf seed initialCash hkey hne, ok_bind,
    createCommandRun_new (fun _ hrun => absurd hrun not_mem_nil) runMaterial_oneCandle,
    if_neg (by simp [emptyStore]), (runColumns_requestOf hsha initialCash hblank hseed _).insertRun,
    if_neg (by simp [emptyStore])]
  rfl

/-- Ids are in range where the identities are those of a store. -/
theorem fresh_of_identities
    (h : rows.map BacktestRun.identity = store.queue.runs.rows.map BacktestRun.identity) :
    ∀ run ∈ rows, 1 ≤ run.id ∧ run.id < store.nextRunId := by
  intro run hrun
  obtain ⟨other, hother, hsame⟩ := mem_map.mp (h ▸ mem_map_of_mem hrun)
  have hid : other.id = run.id := congrArg RunIdentity.id hsame
  exact hid ▸ store.fresh other hother

/-- A created run is claimed by a worker. -/
theorem exists_claimed (sha256 : List ℕ → String) (request : BacktestRunRequest)
    (hattempts : 0 < request.maxAttempts) :
    ∃ later, Relation.ReflTransGen (BacktestStoreStep .default sha256 oneCandleTables)
        (storeOf sha256 request) later ∧
      ∃ run ∈ later.queue.runs.rows, run.id = 1 ∧
        run.leasedTo (readingsAt 7).queriedAt run.id (strip "worker") 1 = true := by
  have hqueued : commandRun .default sha256 oneCandleMaterial request 1 ∈
      (storeOf sha256 request).queue.runs.rows := mem_singleton_self _
  have hclaims : ∃ response db, claimNextRun (readingsAt 5) (fun _ => false)
      (storeOf sha256 request).queue "worker" 90 = .ok (some response, db) :=
    claim_returns (by decide +kernel) (by decide) hqueued ⟨hattempts, Or.inl rfl⟩ rfl
  obtain ⟨response, db, hclaim⟩ := hclaims
  have hrun : (BacktestTransaction.claim (fun _ => false) "worker" 90).run .default (readingsAt 5)
      (storeOf sha256 request).queue = .ok db := by
    rw [BacktestTransaction.run, hclaim]
    rfl
  let later : BacktestStore := {
    queue := db
    nextRunId := (storeOf sha256 request).nextRunId
    fresh := fresh_of_identities (run_identities hrun)
    one_le_next := (storeOf sha256 request).one_le_next }
  refine ⟨later, .single (.work _ later _ _ hrun rfl), ?_⟩
  obtain ⟨run, hmem, -, run', hrun', -, rfl⟩ := (claim_cases hclaim).2 response rfl
  obtain rfl := mem_singleton.mp hmem
  refine ⟨_, hrun', rfl, leasedTo_iff.mpr ⟨rfl, rfl, rfl, rfl, _, rfl, ?_⟩⟩
  decide

/-- A request for the one candle. -/
def firstRequest : BacktestRunRequest := requestOf "first" 42 ⟨1000000, "1000000"⟩

/-- Its specification, where the hash of its parameters is the first of three. -/
def firstSpec : BacktestEngineSpec :=
  engineSpec oneCandleMaterial firstRequest
    "000000000000000000000000000000000000000000000000000000000000000a"

/-- A hash that tells the parameters of the request and its input without signals apart. -/
def signalHash : List ℕ → String :=
  threeHashes (canonicalJsonBytes firstRequest.parametersJson)
    (inputBytes .default firstSpec (replayEventsOf oneCandleMaterial) [])

theorem commandSpec_firstRequest :
    commandSpec signalHash oneCandleMaterial firstRequest = firstSpec := by
  unfold commandSpec firstSpec canonicalPayloadHash signalHash threeHashes
  rw [if_pos rfl]

/-- A signal to buy on the candle. -/
def buySignal : BacktestSignal where
  occurredAt := 60000000
  knowledgeAt := 60000000
  side := .buy
  baseQuantity := 1

theorem isHashText_signalHash (bytes : List ℕ) : isHashText (signalHash bytes) = true :=
  isHashText_threeHashes _ _ bytes

theorem commandPayload_firstRequest : commandPayload firstRequest = .ok firstRequest :=
  commandPayload_requestOf 42 _ (by decide +kernel) (by decide)

theorem createRun_firstRequest :
    createRun .default signalHash oneCandleTables emptyStore firstRequest =
      .ok (runSummaryResponse (commandRun .default signalHash oneCandleMaterial firstRequest 1),
        storeOf signalHash firstRequest) :=
  createRun_first isHashText_signalHash _ (by decide +kernel) (by decide) rfl

theorem emptyStore_new (idempotencyKey : String) :
    ∀ run ∈ emptyStore.queue.runs.rows, run.idempotencyKey ≠ idempotencyKey :=
  fun _ hrun => absurd hrun not_mem_nil

/-- A result without signals is accepted. -/
theorem completeClaimedRun_accepts_no_signals :
    ∃ later : BacktestStore, ∃ run ∈ later.queue.runs.rows,
      completeClaimedRun .default (readingsAt 7) later.queue run.id "worker" 1
          (runCandleBacktest .default (payloadHash .default signalHash)
            (commandSpec signalHash oneCandleMaterial firstRequest)
            (loadCandleEvents oneCandleMaterial.version) []) [] 7 ≠
        .error (.valueError "백테스트 result input_hash가 임대 run과 다르다.") := by
  obtain ⟨later, hlater, run, hrun, hid, hlive⟩ :=
    exists_claimed signalHash firstRequest (by decide)
  have haccepts := completeClaimedRun_accepts_iff .default signalHash oneCandleTables emptyStore
    (storeOf signalHash firstRequest) later firstRequest firstRequest _ oneCandleMaterial
    commandPayload_firstRequest (emptyStore_new _) runMaterial_oneCandle createRun_firstRequest
    hlater run hrun hid (readingsAt 7) "worker" 1 (by decide +kernel) le_rfl hlive _
    (List.Perm.refl _) (nodup_singleton _) [] [] 7
  refine ⟨later, run, hrun, (haccepts ?_).mpr rfl⟩
  -- without signals there is one text
  intro bytes hbytes other hother _
  exact (hbytes.elim id id).trans (hother.elim id id).symm

/-- The run of one request is claimed, and the result of a strategy with one signal refused. -/
theorem completeClaimedRun_refuses_buySignal :
    Set.InjOn signalHash
      {bytes | bytes = inputBytes .default firstSpec (replayEventsOf oneCandleMaterial) [] ∨
        bytes = inputBytes .default firstSpec (replayEventsOf oneCandleMaterial) [buySignal]} ∧
    createRun .default signalHash oneCandleTables emptyStore firstRequest =
      .ok (runSummaryResponse (commandRun .default signalHash oneCandleMaterial firstRequest 1),
        storeOf signalHash firstRequest) ∧
    ∃ later : BacktestStore,
      Relation.ReflTransGen (BacktestStoreStep .default signalHash oneCandleTables)
        (storeOf signalHash firstRequest) later ∧
      ∃ run ∈ later.queue.runs.rows, run.id = 1 ∧
        run.leasedTo (readingsAt 7).queriedAt run.id (strip "worker") 1 = true ∧
        completeClaimedRun .default (readingsAt 7) later.queue run.id "worker" 1
            (runCandleBacktest .default (payloadHash .default signalHash) firstSpec
              (loadCandleEvents oneCandleMaterial.version) [buySignal]) [] 7 =
          .error (.valueError "백테스트 result input_hash가 임대 run과 다르다.") := by
  have hinj : Set.InjOn signalHash
      {bytes | bytes = inputBytes .default firstSpec (replayEventsOf oneCandleMaterial) [] ∨
        bytes = inputBytes .default firstSpec (replayEventsOf oneCandleMaterial) [buySignal]} :=
    (threeHashes_injOn _ _ _).mono fun _ hbytes => Or.inr hbytes
  obtain ⟨later, hlater, run, hrun, hid, hlive⟩ :=
    exists_claimed signalHash firstRequest (by decide)
  refine ⟨hinj, createRun_firstRequest, later, hlater, run, hrun, hid, hlive, ?_⟩
  rw [← inputHashMismatch, completeClaimedRun_mismatch_iff
    ⟨by decide +kernel, (later.fresh run hrun).1, le_rfl⟩ hrun hlive, runCandleBacktest_inputHash,
    inputHash_payloadHash, inputHash_of_steps commandPayload_firstRequest (emptyStore_new _)
      runMaterial_oneCandle createRun_firstRequest hlater hrun hid, commandSpec_firstRequest]
  intro heq
  have hbytes := hinj (Or.inl rfl) (Or.inr rfl) heq
  exact absurd (inputBytes_nil_iff.mp hbytes) (by simp)

/-! ## Two requests -/

/-- The requests give one strategy version, dataset version, engine version, parameters and
seed. -/
structure SameConfiguration (command other : BacktestRunRequest) : Prop where
  strategyVersionId : command.strategyVersionId = other.strategyVersionId
  datasetVersionId : command.datasetVersionId = other.datasetVersionId
  engineVersion : command.engineVersion = other.engineVersion
  parameters : command.parametersJson.dumps = other.parametersJson.dumps
  seed : command.seed = other.seed

/-- The requests give one initial cash and one execution model, in canonical decimals. -/
structure SameTerms (ar : Arithmetic) (command other : BacktestRunRequest) : Prop where
  initialCash : canonicalDecimal ar command.initialCash.value =
    canonicalDecimal ar other.initialCash.value
  feeRate : canonicalDecimal ar command.execution.feeRate.value =
    canonicalDecimal ar other.execution.feeRate.value
  slippageBps : canonicalDecimal ar command.execution.slippageBps.value =
    canonicalDecimal ar other.execution.slippageBps.value
  latencySeconds : command.execution.latencySeconds = other.execution.latencySeconds
  maxParticipationRate : canonicalDecimal ar command.execution.maxParticipationRate.value =
    canonicalDecimal ar other.execution.maxParticipationRate.value

/-- The canonical bytes that are hashed for a validated request. -/
def hashedBytes (ar : Arithmetic) (sha256 : List ℕ → String) (tables : VersionTables)
    (command : BacktestRunRequest) : Set (List ℕ) :=
  {bytes | bytes = canonicalJsonBytes command.parametersJson ∨
    ∃ material, runMaterial tables command.strategyVersionId command.datasetVersionId =
      some material ∧
      bytes = inputBytes ar (commandSpec sha256 material command) (replayEventsOf material) []}

theorem canonicalDecimal_inj {value other : ℚ}
    (h : (canonicalDecimal ar value).dumps = (canonicalDecimal ar other).dumps) :
    canonicalDecimal ar value = canonicalDecimal ar other :=
  congrArg JsonValue.text (dumps_text_inj h)

/-- The ids of the versions found are those asked for. -/
theorem runMaterial_ids {strategyVersionId datasetVersionId : ℤ}
    (h : runMaterial tables strategyVersionId datasetVersionId = some material) :
    material.strategy.id = strategyVersionId ∧ material.version.id = datasetVersionId := by
  unfold runMaterial at h
  obtain ⟨strategy, hstrategy, h⟩ := Option.bind_eq_some_iff.mp h
  obtain ⟨version, hversion, h⟩ := Option.bind_eq_some_iff.mp h
  obtain rfl := Option.some.inj h
  have hfound := List.find?_some hstrategy
  have hfound' := List.find?_some hversion
  simp only [Bool.and_eq_true, decide_eq_true_eq] at hfound hfound'
  exact ⟨hfound.1.1, hfound'.1⟩

/-- The text of a specification determines its fields, decimals in canonical form. -/
theorem specPayload_fields {other : BacktestEngineSpec} (h : (CanonicalValue.json ar (specPayload
      spec)).dumps = (CanonicalValue.json ar (specPayload other)).dumps) :
    spec.datasetVersionId = other.datasetVersionId ∧
    spec.strategyVersionId = other.strategyVersionId ∧
    spec.engineVersion = other.engineVersion ∧ spec.parameterHash = other.parameterHash ∧
    spec.seed = other.seed ∧
    canonicalDecimal ar spec.initialCash = canonicalDecimal ar other.initialCash ∧
    canonicalDecimal ar spec.execution.feeRate = canonicalDecimal ar other.execution.feeRate ∧
    canonicalDecimal ar spec.execution.slippageBps =
      canonicalDecimal ar other.execution.slippageBps ∧
    spec.execution.latencySeconds = other.execution.latencySeconds ∧
    canonicalDecimal ar spec.execution.maxParticipationRate =
      canonicalDecimal ar other.execution.maxParticipationRate := by
  rw [specPayload, specPayload, CanonicalValue.json, CanonicalValue.json] at h
  have hfields := dumpsEntries_inj h rfl (by simp [jsonEntries])
  simp only [jsonEntries, CanonicalValue.json, dumpsEntries, List.cons.injEq, Prod.mk.injEq,
    true_and, and_true] at hfields
  obtain ⟨hdataset, -, hstrategy, -, hengine, hparameters, hseed, hcash, hexecution⟩ := hfields
  have hmodel := dumpsEntries_inj hexecution rfl (by simp)
  simp only [dumpsEntries, List.cons.injEq, Prod.mk.injEq, true_and, and_true] at hmodel
  obtain ⟨hfee, hslippage, hlatency, hparticipation⟩ := hmodel
  exact ⟨dumps_int_inj hdataset, dumps_int_inj hstrategy, dumps_text_inj hengine,
    dumps_text_inj hparameters, dumps_int_inj hseed, canonicalDecimal_inj hcash,
    canonicalDecimal_inj hfee, canonicalDecimal_inj hslippage, dumps_int_inj hlatency,
    canonicalDecimal_inj hparticipation⟩

/-- Specifications of the same fields, decimals in canonical form, have one canonical payload. -/
theorem specPayload_json_congr (hconfiguration : SameConfiguration command other)
    (hterms : SameTerms ar command other) :
    CanonicalValue.json ar (specPayload (commandSpec sha256 material command)) =
      CanonicalValue.json ar (specPayload (commandSpec sha256 material other)) := by
  simp only [commandSpec, engineSpec, specPayload, CanonicalValue.json, jsonEntries,
    canonicalPayloadHash, canonicalJsonBytes, hconfiguration.engineVersion,
    hconfiguration.parameters, hconfiguration.seed, hterms.initialCash, hterms.feeRate,
    hterms.slippageBps, hterms.latencySeconds, hterms.maxParticipationRate]

/-- The hashes of the inputs of two requests are equal exactly when the requests agree in
configuration and terms. -/
theorem commandRun_inputHash_eq_iff (hmaterial : runMaterial tables command.strategyVersionId
      command.datasetVersionId = some material) (hmaterial' : runMaterial tables
      other.strategyVersionId other.datasetVersionId = some material') (hsha : Set.InjOn sha256
      (hashedBytes ar sha256 tables command ∪ hashedBytes ar sha256 tables other)) (id id' : ℤ) :
    (commandRun ar sha256 material command id).inputHash =
        (commandRun ar sha256 material' other id').inputHash ↔
      SameConfiguration command other ∧ SameTerms ar command other := by
  rw [commandRun_inputHash, commandRun_inputHash]
  constructor
  · intro h
    have hbytes := hsha (Or.inl (Or.inr ⟨material, hmaterial, rfl⟩))
      (Or.inr (Or.inr ⟨material', hmaterial', rfl⟩)) h
    obtain ⟨hdataset, hstrategy, hengine, hparameters, hseed, hcash, hfee, hslippage, hlatency,
      hparticipation⟩ := specPayload_fields (inputBytes_parts hbytes).1
    have hids := runMaterial_ids hmaterial
    have hids' := runMaterial_ids hmaterial'
    have htexts := hsha (Or.inl (Or.inl rfl)) (Or.inr (Or.inl rfl)) hparameters
    exact ⟨⟨hids.1.symm.trans (hstrategy.trans hids'.1), hids.2.symm.trans (hdataset.trans hids'.2),
      hengine, canonicalJsonBytes_inj htexts, hseed⟩,
      ⟨hcash, hfee, hslippage, hlatency, hparticipation⟩⟩
  · rintro ⟨hconfiguration, hterms⟩
    rw [hconfiguration.strategyVersionId, hconfiguration.datasetVersionId, hmaterial'] at hmaterial
    obtain rfl := Option.some.inj hmaterial
    simp only [inputBytes, CanonicalValue.json, jsonEntries,
      specPayload_json_congr hconfiguration hterms]

/-- The columns of the first `UNIQUE` constraint are those of the configuration. -/
theorem commandRun_configuration_eq_iff (hmaterial : runMaterial tables command.strategyVersionId
      command.datasetVersionId = some material) (hmaterial' : runMaterial tables
      other.strategyVersionId other.datasetVersionId = some material') (hsha : Set.InjOn sha256
      (hashedBytes ar sha256 tables command ∪ hashedBytes ar sha256 tables other)) (id id' : ℤ) :
    (commandRun ar sha256 material command id).configuration =
        (commandRun ar sha256 material' other id').configuration ↔
      SameConfiguration command other := by
  obtain ⟨hstrategy, hdataset⟩ := runMaterial_ids hmaterial
  obtain ⟨hstrategy', hdataset'⟩ := runMaterial_ids hmaterial'
  have hparameters : canonicalPayloadHash sha256 command.parametersJson =
      canonicalPayloadHash sha256 other.parametersJson ↔
        command.parametersJson.dumps = other.parametersJson.dumps := by
    unfold canonicalPayloadHash
    rw [hsha.eq_iff (Or.inl (Or.inl rfl)) (Or.inr (Or.inl rfl))]
    exact ⟨canonicalJsonBytes_inj, congrArg utf8Bytes⟩
  unfold BacktestRun.configuration commandRun queuedRunRow
  simp only [Prod.mk.injEq, hstrategy, hstrategy', hdataset, hdataset', hparameters]
  constructor
  · rintro ⟨h₁, h₂, h₃, h₄, h₅⟩
    exact ⟨h₁, h₂, h₃, h₄, h₅⟩
  · rintro ⟨h₁, h₂, h₃, h₄, h₅⟩
    exact ⟨h₁, h₂, h₃, h₄, h₅⟩

theorem clashes_iff {other : BacktestRun} : run.clashes other = true ↔
    run.configuration = other.configuration ∨ run.inputHash = other.inputHash ∨
      run.idempotencyKey = other.idempotencyKey := by
  simp [BacktestRun.clashes, or_assoc]

/-- A clash is one of identities. -/
theorem clashes_identity {other other' : BacktestRun}
    (h : BacktestRun.identity other' = BacktestRun.identity other) :
    run.clashes other' = run.clashes other := by
  unfold BacktestRun.clashes BacktestRun.configuration
  rw [show other'.strategyVersionId = _ from congrArg RunIdentity.strategyVersionId h,
    show other'.datasetVersionId = _ from congrArg RunIdentity.datasetVersionId h,
    show other'.engineVersion = _ from congrArg RunIdentity.engineVersion h,
    show other'.parameterHash = _ from congrArg RunIdentity.parameterHash h,
    show other'.seed = _ from congrArg RunIdentity.seed h,
    show other'.inputHash = _ from congrArg RunIdentity.inputHash h,
    show other'.idempotencyKey = _ from congrArg RunIdentity.idempotencyKey h]
  rfl

/-- The runs of a store and the run of a first request: what a second request finds, which could
have been stored without the first. -/
theorem createCommandRun_second (hmaterial' : runMaterial tables other.strategyVersionId
      other.datasetVersionId = some material')
    (hkeys : command.idempotencyKey ≠ other.idempotencyKey)
    (hcolumns : RunColumns (commandRun ar sha256 material' other store.nextRunId)) (halone :
      store.queue.runs.rows.any (commandRun ar sha256 material' other store.nextRunId).clashes =
      false) (hlater : later.queue.runs.rows.map BacktestRun.identity = (store.queue.runs.rows ++
      [commandRun ar sha256 material command store.nextRunId]).map BacktestRun.identity) :
    ((commandRun ar sha256 material command store.nextRunId).inputHash =
        (commandRun ar sha256 material' other store.nextRunId).inputHash →
      createCommandRun ar sha256 tables later other =
        .error (.idempotencyConflict "동일한 백테스트 입력이 이미 다른 멱등 키로 생성됐다.")) ∧
    ((commandRun ar sha256 material command store.nextRunId).inputHash ≠
        (commandRun ar sha256 material' other store.nextRunId).inputHash →
      (createCommandRun ar sha256 tables later other = .error .uniqueViolation ↔
        (commandRun ar sha256 material command store.nextRunId).configuration =
          (commandRun ar sha256 material' other store.nextRunId).configuration)) := by
  have hnone := any_eq_false.mp halone
  have hany : ∀ p : BacktestRun → Bool, (∀ run run', BacktestRun.identity run' =
      BacktestRun.identity run → p run' = p run) → store.queue.runs.rows.any p = false →
      later.queue.runs.rows.any p = p (commandRun ar sha256 material command store.nextRunId) := by
    intro p hp hrows
    rw [any_of_identities hlater hp, any_append, hrows, any_cons, any_nil,
      Bool.false_or, Bool.or_false]
  have hnew : ∀ run ∈ later.queue.runs.rows, run.idempotencyKey ≠ other.idempotencyKey := by
    have hkeysAny := hany (fun run => run.idempotencyKey = other.idempotencyKey) ?_ ?_
    · intro run hrun hkey
      have hfalse := any_eq_false.mp (hkeysAny.trans (decide_eq_false hkeys)) run hrun
      exact hfalse (by simpa using hkey)
    · intro run run' h
      rw [show run'.idempotencyKey = _ from congrArg RunIdentity.idempotencyKey h]
      rfl
    · rw [any_eq_false]
      intro run hrun hkey
      exact hnone run hrun (clashes_iff.mpr (Or.inr (Or.inr (of_decide_eq_true hkey).symm)))
  have hhash : later.queue.runs.rows.any (fun run => run.inputHash =
      (commandRun ar sha256 material' other later.nextRunId).inputHash) = decide
      ((commandRun ar sha256 material command store.nextRunId).inputHash =
        (commandRun ar sha256 material' other store.nextRunId).inputHash) := by
    rw [hany]
    · rfl
    · intro run run' h
      rw [show run'.inputHash = _ from congrArg RunIdentity.inputHash h]
      rfl
    · rw [any_eq_false]
      intro run hrun heq
      exact hnone run hrun (clashes_iff.mpr (Or.inr (Or.inl (of_decide_eq_true heq).symm)))
  have hclash : later.queue.runs.rows.any
      (commandRun ar sha256 material' other later.nextRunId).clashes =
      (commandRun ar sha256 material' other store.nextRunId).clashes
        (commandRun ar sha256 material command store.nextRunId) :=
    hany _ (fun _ _ => clashes_identity) halone
  rw [createCommandRun_new hnew hmaterial', hhash]
  constructor
  · intro hsame
    rw [if_pos (by simpa using hsame)]
  · intro hdifferent
    have hcolumns' : RunColumns (commandRun ar sha256 material' other later.nextRunId) :=
      ⟨hcolumns.seed, hcolumns.maxAttempts, hcolumns.insertable⟩
    rw [if_neg (by simpa using hdifferent), hcolumns'.insertRun, hclash]
    have hiff : (commandRun ar sha256 material' other store.nextRunId).clashes
        (commandRun ar sha256 material command store.nextRunId) = true ↔
        (commandRun ar sha256 material command store.nextRunId).configuration =
          (commandRun ar sha256 material' other store.nextRunId).configuration := by
      rw [clashes_iff]
      constructor
      · rintro (h | h | h)
        · exact h.symm
        · exact absurd h.symm hdifferent
        · exact absurd h.symm hkeys
      · intro h
        exact Or.inl h.symm
    rw [← hiff]
    cases (commandRun ar sha256 material' other store.nextRunId).clashes
        (commandRun ar sha256 material command store.nextRunId) with
    | true => simp
    | false => simp [pure, Except.pure]

/-- The second of two requests, the first stored and worked on: refused as a duplicate where the
hashes are equal, and in no violation of a `UNIQUE` constraint where they are not, exactly when
the requests do not agree in configuration while they differ in initial cash or execution.
SOURCE: backtest_store.py:300-469; backtest_engine.py:410-467;
20260718000200_p4_backtest_runs.sql:8-47 -/
theorem runIdentities_agree_iff (ar : Arithmetic) (sha256 : List ℕ → String)
    (tables : VersionTables) (store stored alone later : BacktestStore)
    (first second command other : BacktestRunRequest) (summary summary' : RunSummaryResponse)
    (hfirst : commandPayload first = .ok command) (hsecond : commandPayload second = .ok other)
    (hkeys : command.idempotencyKey ≠ other.idempotencyKey)
    (hnew : ∀ run ∈ store.queue.runs.rows, run.idempotencyKey ≠ command.idempotencyKey ∧
      run.idempotencyKey ≠ other.idempotencyKey)
    (hstored : createRun ar sha256 tables store first = .ok (summary, stored))
    (halone : createRun ar sha256 tables store second = .ok (summary', alone))
    (completions : List Completion) (state : BacktestState)
    (hworked : Relation.ReflTransGen (BacktestStep ar) ⟨stored.queue, completions⟩ state)
    (hlater : later.queue = state.db) (hsha : Set.InjOn sha256
      (hashedBytes ar sha256 tables command ∪ hashedBytes ar sha256 tables other)) :
    ((summary.inputHash = summary'.inputHash →
        createRun ar sha256 tables later second =
          .error (.idempotencyConflict "동일한 백테스트 입력이 이미 다른 멱등 키로 생성됐다.")) ∧
      (summary.inputHash ≠ summary'.inputHash →
        createRun ar sha256 tables later second ≠ .error .uniqueViolation)) ↔
      ¬ (SameConfiguration command other ∧ ¬ SameTerms ar command other) := by
  rw [createRun, hfirst, ok_bind] at hstored
  rw [createRun, hsecond, ok_bind] at halone ⊢
  obtain ⟨material, hmaterial, rfl, -, -, rfl⟩ :=
    createCommandRun_eq_ok (fun run hrun => (hnew run hrun).1) hstored
  obtain ⟨material', hmaterial', rfl, hcolumns, hclash, -⟩ :=
    createCommandRun_eq_ok (fun run hrun => (hnew run hrun).2) halone
  have hidentities := steps_identities hworked
  rw [← hlater] at hidentities
  obtain ⟨hduplicate, hviolation⟩ := createCommandRun_second hmaterial' hkeys hcolumns hclash
    hidentities
  have hhash := commandRun_inputHash_eq_iff hmaterial hmaterial' hsha store.nextRunId
    store.nextRunId
  have hconfiguration := commandRun_configuration_eq_iff hmaterial hmaterial' hsha
    store.nextRunId store.nextRunId
  constructor
  · rintro ⟨-, hunviolated⟩ ⟨hsame, hterms⟩
    have hdifferent := fun h => hterms (hhash.mp h).2
    exact hunviolated hdifferent ((hviolation hdifferent).mpr (hconfiguration.mpr hsame))
  · intro hcondition
    refine ⟨hduplicate, fun hdifferent hviolated => hcondition ?_⟩
    have hsame := hconfiguration.mp ((hviolation hdifferent).mp hviolated)
    exact ⟨hsame, fun hterms => hdifferent (hhash.mpr ⟨hsame, hterms⟩)⟩

theorem runSummaryResponse_inputHash (run : BacktestRun) :
    (runSummaryResponse run).inputHash = run.inputHash := rfl

/-- The first request with another seed. -/
def reseededRequest : BacktestRunRequest := requestOf "second" 43 ⟨1000000, "1000000"⟩

/-- The first request with another initial cash. -/
def richerRequest : BacktestRunRequest := requestOf "second" 42 ⟨2000000, "2000000"⟩

theorem runMaterial_requestOf {initialCash : DecimalArgument} (h : runMaterial oneCandleTables
      (requestOf idempotencyKey seed initialCash).strategyVersionId (requestOf idempotencyKey seed
      initialCash).datasetVersionId = some material) : material = oneCandleMaterial :=
  Option.some.inj (h.symm.trans runMaterial_oneCandle)

/-- The hash of signals tells the first request from any other with its parameters. -/
theorem signalHash_injOn (idempotencyKey : String) (seed : ℤ) (initialCash : DecimalArgument) :
    Set.InjOn signalHash (hashedBytes .default signalHash oneCandleTables firstRequest ∪
      hashedBytes .default signalHash oneCandleTables
        (requestOf idempotencyKey seed initialCash)) := by
  refine (threeHashes_injOn _ _ (inputBytes .default (commandSpec signalHash oneCandleMaterial
    (requestOf idempotencyKey seed initialCash)) (replayEventsOf oneCandleMaterial) [])).mono ?_
  rintro bytes ((hbytes | ⟨material, hmaterial, hbytes⟩) | hbytes | ⟨material, hmaterial, hbytes⟩)
  · exact Or.inl hbytes
  · obtain rfl := runMaterial_requestOf hmaterial
    rw [commandSpec_firstRequest] at hbytes
    exact Or.inr (Or.inl hbytes)
  · exact Or.inl hbytes
  · obtain rfl := runMaterial_requestOf hmaterial
    exact Or.inr (Or.inr hbytes)

theorem createRun_second (initialCash : DecimalArgument) (hseed : bigintColumn seed = .ok seed) :
    createRun .default signalHash oneCandleTables emptyStore (requestOf "second" seed initialCash) =
      .ok (runSummaryResponse (commandRun .default signalHash oneCandleMaterial
        (requestOf "second" seed initialCash) 1),
        storeOf signalHash (requestOf "second" seed initialCash)) :=
  createRun_first isHashText_signalHash _ (by decide +kernel) (by decide) hseed

/-- After the first request, the one with another seed violates no constraint. -/
theorem runIdentities_agree_reseeded :
    createRun .default signalHash oneCandleTables (storeOf signalHash firstRequest)
      reseededRequest ≠ .error .uniqueViolation := by
  have hinj : Set.InjOn signalHash
      (hashedBytes .default signalHash oneCandleTables firstRequest ∪
        hashedBytes .default signalHash oneCandleTables reseededRequest) := signalHash_injOn _ _ _
  have hreseeded : createRun .default signalHash oneCandleTables emptyStore reseededRequest =
      .ok (runSummaryResponse (commandRun .default signalHash oneCandleMaterial reseededRequest 1),
        storeOf signalHash reseededRequest) := createRun_second _ rfl
  have hagree := (runIdentities_agree_iff .default signalHash oneCandleTables emptyStore
    (storeOf signalHash firstRequest) (storeOf signalHash reseededRequest)
    (storeOf signalHash firstRequest) firstRequest reseededRequest firstRequest reseededRequest _ _
    commandPayload_firstRequest
    (commandPayload_requestOf 43 _ (by decide +kernel) (by decide)) (by decide)
    (fun _ hrun => absurd hrun not_mem_nil) createRun_firstRequest hreseeded []
    ⟨(storeOf signalHash firstRequest).queue, []⟩ .refl rfl hinj).mpr
    fun h => absurd h.1.seed (by decide)
  have hhash := commandRun_inputHash_eq_iff runMaterial_oneCandle runMaterial_oneCandle hinj 1 1
  apply hagree.2
  intro hsame
  rw [runSummaryResponse_inputHash, runSummaryResponse_inputHash] at hsame
  exact absurd (hhash.mp hsame).1.seed (by decide)

/-- After the first request, the one with another initial cash violates the first `UNIQUE`
constraint, though its input hash is another. -/
theorem runIdentities_differ_richer :
    Set.InjOn signalHash (hashedBytes .default signalHash oneCandleTables firstRequest ∪
      hashedBytes .default signalHash oneCandleTables richerRequest) ∧
    createRun .default signalHash oneCandleTables emptyStore firstRequest =
      .ok (runSummaryResponse (commandRun .default signalHash oneCandleMaterial firstRequest 1),
        storeOf signalHash firstRequest) ∧
    createRun .default signalHash oneCandleTables emptyStore richerRequest =
      .ok (runSummaryResponse (commandRun .default signalHash oneCandleMaterial richerRequest 1),
        storeOf signalHash richerRequest) ∧
    (commandRun .default signalHash oneCandleMaterial firstRequest 1).inputHash ≠
      (commandRun .default signalHash oneCandleMaterial richerRequest 1).inputHash ∧
    createRun .default signalHash oneCandleTables (storeOf signalHash firstRequest)
      richerRequest = .error .uniqueViolation := by
  have hinj := signalHash_injOn "second" 42 ⟨2000000, "2000000"⟩
  have hterms : ¬ SameTerms .default firstRequest richerRequest := by
    intro hterms
    have htext := JsonValue.text.inj hterms.initialCash
    exact absurd htext (by decide +kernel)
  have hdifferent : (commandRun .default signalHash oneCandleMaterial firstRequest 1).inputHash ≠
      (commandRun .default signalHash oneCandleMaterial richerRequest 1).inputHash := fun h =>
    hterms ((commandRun_inputHash_eq_iff runMaterial_oneCandle runMaterial_oneCandle hinj
      1 1).mp h).2
  have hsame : SameConfiguration firstRequest richerRequest := ⟨rfl, rfl, rfl, rfl, rfl⟩
  refine ⟨hinj, createRun_firstRequest, createRun_second _ rfl, hdifferent, ?_⟩
  rw [createRun, richerRequest,
    commandPayload_requestOf 42 _ (show strip "second" = "second" by decide +kernel) (by decide),
    ok_bind]
  refine ((createCommandRun_second runMaterial_oneCandle (by decide)
    (runColumns_requestOf isHashText_signalHash _ (by decide) rfl _) rfl rfl).2 hdifferent).mpr ?_
  exact (commandRun_configuration_eq_iff runMaterial_oneCandle runMaterial_oneCandle hinj
    1 1).mpr hsame

end Goodmoneying.Analysis
