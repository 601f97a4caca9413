import Goodmoneying.Program.BacktestQueue
import Goodmoneying.Program.DatasetVersions
import Goodmoneying.Program.UtcTimes

/-!
# Creating backtest runs

`create_run` of `backtest_store.py`: a request is validated, its strategy version, dataset
version and candle events are frozen, and a run is queued under the `input_hash` of the engine.
The `UNIQUE` constraints are those of `20260718000200_p4_backtest_runs.sql`.

`canonical_payload_hash` is built here from `canonical_json_bytes`, with SHA-256 as a parameter.
Each attempt is one transaction under the locks of its idempotency key and of its input hash; the
level of isolation raises no serialisation failure, so that the first attempt decides. In
`input_payload` decimals and times stand for their texts.
-/

namespace Goodmoneying.Program

open Library

/-! ## Canonical payloads -/

/-- `_canonical_value` of a datetime in UTC, given by its instant; outside the calendar there is
none. -/
def canonicalInstant (value : Instant) : JsonValue :=
  if h : 0 ≤ value ∧ value.toNat < maxOrdinal * dayMicroseconds then
    canonicalTime (UtcTime.datetime ⟨value.toNat, h.2⟩)
  else .null

/-- `_canonical_value` of a decimal: `format(value.normalize(), "f")`. -/
def canonicalDecimal (ar : Arithmetic) (value : ℚ) : JsonValue :=
  .text (.ofList (plainText (ar.context value)))

mutual

/-- `_canonical_value`. -/
def CanonicalValue.json (ar : Arithmetic) : CanonicalValue → JsonValue
  | .null => .null
  | .bool value => .bool value
  | .int value => .int value
  | .text value => .text value
  | .decimal value => canonicalDecimal ar value
  | .datetime value => canonicalInstant value
  | .list items => .list (jsonItems ar items)
  | .mapping entries => .mapping (jsonEntries ar entries)

/-- `_canonical_value` of the items of a sequence. -/
def jsonItems (ar : Arithmetic) : List CanonicalValue → List JsonValue
  | [] => []
  | item :: items => item.json ar :: jsonItems ar items

/-- `_canonical_value` of the items of a mapping. -/
def jsonEntries (ar : Arithmetic) : List (String × CanonicalValue) → List (String × JsonValue)
  | [] => []
  | (key, item) :: entries => (key, item.json ar) :: jsonEntries ar entries

end

/-- `canonical_payload_hash`, of a payload before `_canonical_value`. -/
def payloadHash (ar : Arithmetic) (sha256 : List ℕ → String) (payload : CanonicalValue) : String :=
  canonicalPayloadHash sha256 (payload.json ar)

/-! ## Requests -/

/-- A `Decimal` argument: its value, and its `str`. -/
structure DecimalArgument where
  value : ℚ
  str : String

/-- A value of `parameters`. -/
inductive ParameterValue where
  | null
  | bool (value : Bool)
  | int (value : ℤ)
  | text (value : String)

/-- The JSON of a parameter. -/
def ParameterValue.json : ParameterValue → JsonValue
  | .null => .null
  | .bool value => .bool value
  | .int value => .int value
  | .text value => .text value

/-- The `execution` argument. -/
structure ExecutionArgument where
  feeRate : DecimalArgument
  slippageBps : DecimalArgument
  latencySeconds : ℤ
  maxParticipationRate : DecimalArgument

/-- The arguments of `create_run`. -/
structure BacktestRunRequest where
  requestId : String
  idempotencyKey : String
  actorId : String
  requestedAt : Datetime
  reason : String
  strategyVersionId : ℤ
  datasetVersionId : ℤ
  engineVersion : String
  parameters : List (String × ParameterValue)
  seed : ℤ
  initialCash : DecimalArgument
  execution : ExecutionArgument
  maxAttempts : ℤ := 3

/-- `_positive_int`. -/
def positiveInt (value : ℤ) (field : String) : Except StoreError ℤ :=
  if value < 1 then .error (.valueError (field ++ "는 1 이상 정수여야 한다.")) else .ok value

/-- `mapping[key] = value`. -/
def setKey {α : Type} (key : String) (value : α) : List (String × α) → List (String × α)
  | [] => [(key, value)]
  | entry :: entries =>
    if entry.1 = key then (key, value) :: entries else entry :: setKey key value entries

/-- One round of `_parameter_payload`. -/
def addParameter (result : List (String × ParameterValue)) (item : String × ParameterValue) :
    Except StoreError (List (String × ParameterValue)) :=
  if strip item.1 = "" then .error (.valueError "parameters key는 공백이 아닌 문자열이어야 한다.")
  else .ok (setKey (strip item.1) item.2 result)

/-- `_parameter_payload`. -/
def parameterPayload (parameters : List (String × ParameterValue)) :
    Except StoreError (List (String × ParameterValue)) :=
  parameters.foldlM addParameter []

/-- `_execution_payload`. -/
def executionPayload (execution : ExecutionArgument) : Except StoreError ExecutionArgument :=
  if execution.latencySeconds < 0 then
    .error (.valueError "execution latencySeconds는 0 이상 정수다.")
  else .ok execution

/-- `command_payload`: the arguments after their validation. -/
def commandPayload (request : BacktestRunRequest) : Except StoreError BacktestRunRequest := do
  pure {
    requestId := ← nonBlank request.requestId "requestId"
    idempotencyKey := ← nonBlank request.idempotencyKey "idempotencyKey"
    actorId := ← nonBlank request.actorId "actorId"
    requestedAt := request.requestedAt
    reason := ← nonBlank request.reason "reason"
    strategyVersionId := ← positiveInt request.strategyVersionId "strategyVersionId"
    datasetVersionId := ← positiveInt request.datasetVersionId "datasetVersionId"
    engineVersion := ← nonBlank request.engineVersion "engineVersion"
    parameters := ← parameterPayload request.parameters
    seed := request.seed
    initialCash := request.initialCash
    execution := ← executionPayload request.execution
    maxAttempts := ← positiveInt request.maxAttempts "maxAttempts" }

/-- `command_payload["parameters"]`, as JSON. -/
def BacktestRunRequest.parametersJson (command : BacktestRunRequest) : JsonValue :=
  .mapping (command.parameters.map fun entry => (entry.1, entry.2.json))

/-- `command_payload`, as JSON. -/
def BacktestRunRequest.json (command : BacktestRunRequest) : JsonValue :=
  .mapping [
    ("requestId", .text command.requestId),
    ("idempotencyKey", .text command.idempotencyKey),
    ("actorId", .text command.actorId),
    ("requestedAt", .text command.requestedAt.isoformat),
    ("reason", .text command.reason),
    ("strategyVersionId", .int command.strategyVersionId),
    ("datasetVersionId", .int command.datasetVersionId),
    ("engineVersion", .text command.engineVersion),
    ("parameters", command.parametersJson),
    ("seed", .int command.seed),
    ("initialCash", .text command.initialCash.str),
    ("execution", .mapping [
      ("feeRate", .text command.execution.feeRate.str),
      ("slippageBps", .text command.execution.slippageBps.str),
      ("latencySeconds", .int command.execution.latencySeconds),
      ("maxParticipationRate", .text command.execution.maxParticipationRate.str)]),
    ("maxAttempts", .int command.maxAttempts)]

/-! ## Frozen inputs -/

/-- `strategy_versions.status`. -/
inductive StrategyStatus where
  | draft | validated | published | retired
  deriving DecidableEq, Repr

/-- A row of `strategy_versions`, with the hash of its row of `strategy_graphs`. -/
structure StrategyVersion where
  id : ℤ
  status : StrategyStatus
  graphHash : String
  storedGraphHash : Option String

/-- The row of `source_candle_revisions` or `candle_rollups` that a candle refers to. -/
inductive CandleSource where
  | sourceCandleRevision (id : ℤ)
  | candleRollup (id : ℤ)

/-- `stable_sequence`. -/
def CandleSource.stableSequence : CandleSource → String
  | .sourceCandleRevision id => "source:" ++ toString id
  | .candleRollup id => "rollup:" ++ toString id

/-- A row of `dataset_version_candles`, joined with its instrument and its source. -/
structure DatasetVersionCandle where
  instrumentId : ℤ
  marketCode : String
  occurredAt : Instant
  knowledgeAt : Instant
  source : CandleSource
  openPrice : ℚ
  highPrice : ℚ
  lowPrice : ℚ
  closePrice : ℚ
  tradeVolume : ℚ
  quality : BacktestQuality
  contentHash : String

/-- A row of `dataset_versions`, with its rows of `dataset_version_candles`. -/
structure DatasetVersion where
  id : ℤ
  contentHash : String
  asOf : Instant
  outputStartAt : Instant
  endAt : Instant
  fillPolicy : String
  missingPolicy : String
  sealedAt : Option Instant
  candles : List DatasetVersionCandle

/-- The versions that runs are made of; published and sealed versions do not change. -/
structure VersionTables where
  strategyVersions : KeyedTable StrategyVersion.id
  datasetVersions : KeyedTable DatasetVersion.id

/-- The row of the `material` query. -/
structure RunMaterial where
  strategy : StrategyVersion
  version : DatasetVersion

/-- The `material` query. -/
def runMaterial (tables : VersionTables) (strategyVersionId datasetVersionId : ℤ) :
    Option RunMaterial := do
  let strategy ← tables.strategyVersions.find fun strategy =>
    strategy.id = strategyVersionId && strategy.status = .published &&
      strategy.storedGraphHash = some strategy.graphHash
  let version ← tables.datasetVersions.find fun version =>
    version.id = datasetVersionId && version.sealedAt.isSome
  pure ⟨strategy, version⟩

/-- The event of a row of `_load_candle_events`. -/
def DatasetVersionCandle.event (candle : DatasetVersionCandle) : BacktestCandleEvent where
  instrumentId := candle.instrumentId
  marketCode := candle.marketCode
  occurredAt := candle.occurredAt
  knowledgeAt := candle.knowledgeAt
  stableSequence := candle.source.stableSequence
  openPrice := candle.openPrice
  high := candle.highPrice
  low := candle.lowPrice
  close := candle.closePrice
  volume := candle.tradeVolume
  quality := candle.quality
  contentHash := candle.contentHash

/-- `_load_candle_events`. -/
def loadCandleEvents (version : DatasetVersion) : List BacktestCandleEvent :=
  (sortedBy (fun candle : DatasetVersionCandle =>
    toLex (candle.knowledgeAt, candle.source.stableSequence)) version.candles).map
      DatasetVersionCandle.event

/-- The `spec` of `create_run`. -/
def engineSpec (material : RunMaterial) (command : BacktestRunRequest) (parameterHash : String) :
    BacktestEngineSpec where
  datasetVersionId := material.version.id
  datasetContentHash := material.version.contentHash
  strategyVersionId := material.strategy.id
  strategyGraphHash := material.strategy.graphHash
  engineVersion := command.engineVersion
  parameterHash := parameterHash
  seed := command.seed
  initialCash := command.initialCash.value
  execution := {
    feeRate := command.execution.feeRate.value
    slippageBps := command.execution.slippageBps.value
    latencySeconds := command.execution.latencySeconds
    maxParticipationRate := command.execution.maxParticipationRate.value }

/-- `input_payload`. -/
def runInputPayload (material : RunMaterial) (spec : BacktestEngineSpec)
    (candleEvents : List BacktestCandleEvent) (preview : BacktestResult) : CanonicalValue :=
  .mapping [
    ("kind", .text "backtest-run-input-v1"),
    ("spec", specPayload spec),
    ("events", .list (candleEvents.map eventPayload)),
    ("signals", .list []),
    ("assumptions", .list (preview.assumptions.map .text)),
    ("dataset", .mapping [
      ("asOf", .datetime material.version.asOf),
      ("from", .datetime material.version.outputStartAt),
      ("to", .datetime material.version.endAt),
      ("fillPolicy", .text material.version.fillPolicy),
      ("missingPolicy", .text material.version.missingPolicy)])]

/-! ## The table of runs -/

/-- The tables of the queue, and the next value of the identity column of `backtest_runs`. -/
structure BacktestStore where
  queue : BacktestDatabase
  nextRunId : ℤ
  fresh : ∀ run ∈ queue.runs.rows, 1 ≤ run.id ∧ run.id < nextRunId
  one_le_next : 1 ≤ nextRunId

/-- The columns of the first `UNIQUE` constraint of `backtest_runs`. -/
def BacktestRun.configuration (run : BacktestRun) : ℤ × ℤ × String × String × ℤ :=
  (run.strategyVersionId, run.datasetVersionId, run.engineVersion, run.parameterHash, run.seed)

/-- Two rows of `backtest_runs` violate a `UNIQUE` constraint. -/
def BacktestRun.clashes (run other : BacktestRun) : Bool :=
  run.configuration = other.configuration || run.inputHash = other.inputHash ||
  run.idempotencyKey = other.idempotencyKey

/-- The range of a `BIGINT` column. -/
def bigintColumn (value : ℤ) : Except StoreError ℤ :=
  if -9223372036854775808 ≤ value ∧ value ≤ 9223372036854775807 then .ok value
  else .error .numericValueOutOfRange

/-- The `CHECK` constraints on the columns that an inserted run gives. -/
def BacktestRun.insertable (run : BacktestRun) : Bool :=
  isHashText run.strategyGraphHash && isHashText run.datasetContentHash &&
  isHashText run.inputHash && isHashText run.parameterHash && isHashText run.requestHash &&
  !blank run.engineVersion && !blank run.idempotencyKey && !blank run.requestId &&
  !blank run.actorId && !blank run.reason && 0 < run.maxAttempts

/-- The store with a run under the next id. -/
def BacktestStore.append (store : BacktestStore) (run : BacktestRun)
    (hid : run.id = store.nextRunId) : BacktestStore where
  queue := {
    runs := {
      rows := store.queue.runs.rows ++ [run]
      unique := by
        rw [List.map_append, List.nodup_append]
        refine ⟨store.queue.runs.unique, List.nodup_singleton _, ?_⟩
        intro id hmem other hother
        obtain ⟨row, hrow, rfl⟩ := List.mem_map.mp hmem
        obtain rfl : other = run.id := by simpa using hother
        exact ne_of_lt (hid ▸ (store.fresh row hrow).2) }
    results := store.queue.results }
  nextRunId := store.nextRunId + 1
  fresh := by
    intro row hrow
    rcases List.mem_append.mp hrow with hrow | hrow
    · exact ⟨(store.fresh row hrow).1, lt_trans (store.fresh row hrow).2 (lt_add_one _)⟩
    · obtain rfl : row = run := by simpa using hrow
      exact ⟨hid ▸ store.one_le_next, hid ▸ lt_add_one _⟩
  one_le_next := le_trans store.one_le_next (le_of_lt (lt_add_one _))

/-- `INSERT INTO backtest_runs`. -/
def insertRun (store : BacktestStore) (run : BacktestRun) (hid : run.id = store.nextRunId) :
    Except StoreError BacktestStore := do
  let _ ← bigintColumn run.seed
  let _ ← integerColumn run.maxAttempts
  check run.insertable
  if store.queue.runs.rows.any run.clashes then throw .uniqueViolation
  pure (store.append run hid)

/-- What `_run_summary_response` returns. -/
structure RunSummaryResponse where
  backtestRunId : ℤ
  strategyVersionId : ℤ
  datasetVersionId : ℤ
  engineVersion : String
  status : String
  inputHash : String
  resultHash : Option String
  requestedAt : Instant
  startedAt : Option Instant
  finishedAt : Option Instant

/-- `_run_summary_response`. -/
def runSummaryResponse (run : BacktestRun) : RunSummaryResponse where
  backtestRunId := run.id
  strategyVersionId := run.strategyVersionId
  datasetVersionId := run.datasetVersionId
  engineVersion := run.engineVersion
  status := runStatus run.status
  inputHash := run.inputHash
  resultHash := run.resultHash
  requestedAt := run.requestedAt
  startedAt := run.startedAt
  finishedAt := run.finishedAt

/-- The row that `create_run` inserts. -/
def queuedRunRow (material : RunMaterial) (command : BacktestRunRequest)
    (requestHash parameterHash : String) (inputPayload : CanonicalValue)
    (preview : BacktestResult) (id : ℤ) : BacktestRun where
  id := id
  strategyVersionId := material.strategy.id
  strategyGraphHash := material.strategy.graphHash
  datasetVersionId := material.version.id
  datasetContentHash := material.version.contentHash
  engineVersion := command.engineVersion
  inputHash := preview.inputHash
  inputPayload := inputPayload
  parameterHash := parameterHash
  seed := command.seed
  assumptions := preview.assumptions
  idempotencyKey := command.idempotencyKey
  requestId := command.requestId
  actorId := command.actorId
  requestedAt := command.requestedAt.instant
  reason := command.reason
  requestHash := requestHash
  maxAttempts := command.maxAttempts

/-- `create_run` of validated arguments: a replay, or a new run. -/
def createCommandRun (ar : Arithmetic) (sha256 : List ℕ → String) (tables : VersionTables)
    (store : BacktestStore) (command : BacktestRunRequest) :
    Except StoreError (RunSummaryResponse × BacktestStore) := do
  let requestHash := canonicalPayloadHash sha256 command.json
  let parameterHash := canonicalPayloadHash sha256 command.parametersJson
  match store.queue.runs.find fun run => run.idempotencyKey = command.idempotencyKey with
  | some existing =>
    if existing.requestHash ≠ requestHash then
      throw (.idempotencyConflict "멱등 키의 기존 백테스트 실행 요청과 본문이 다르다.")
    match store.queue.runs.find fun run => run.id = existing.id with
    | none => throw .assertionError
    | some replay => pure (runSummaryResponse replay, store)
  | none =>
    match runMaterial tables command.strategyVersionId command.datasetVersionId with
    | none =>
      throw (.inputNotReady
        "published 전략 version과 sealed 데이터셋 version만 백테스트 실행에 사용할 수 있다.")
    | some material =>
      let spec := engineSpec material command parameterHash
      let candleEvents := loadCandleEvents material.version
      let preview := runCandleBacktest ar (payloadHash ar sha256) spec candleEvents []
      let inputPayload := runInputPayload material spec candleEvents preview
      if store.queue.runs.rows.any fun run => run.inputHash = preview.inputHash then
        throw (.idempotencyConflict "동일한 백테스트 입력이 이미 다른 멱등 키로 생성됐다.")
      let run := queuedRunRow material command requestHash parameterHash inputPayload preview
        store.nextRunId
      let inserted ← insertRun store run rfl
      pure (runSummaryResponse run, inserted)

/-- `create_run`. -/
def createRun (ar : Arithmetic) (sha256 : List ℕ → String) (tables : VersionTables)
    (store : BacktestStore) (request : BacktestRunRequest) :
    Except StoreError (RunSummaryResponse × BacktestStore) := do
  let command ← commandPayload request
  createCommandRun ar sha256 tables store command

/-! ## Interleavings -/

/-- A committed transaction: a run is created, or a worker claims, completes or fails one. -/
inductive BacktestStoreStep (ar : Arithmetic) (sha256 : List ℕ → String) (tables : VersionTables) :
    BacktestStore → BacktestStore → Prop
  | create (store store' : BacktestStore) (request : BacktestRunRequest)
      (summary : RunSummaryResponse)
      (hcreate : createRun ar sha256 tables store request = .ok (summary, store')) :
      BacktestStoreStep ar sha256 tables store store'
  | work (store store' : BacktestStore) (clock : ClockReadings)
      (transaction : BacktestTransaction)
      (hwork : transaction.run ar clock store.queue = .ok store'.queue)
      (hnext : store'.nextRunId = store.nextRunId) :
      BacktestStoreStep ar sha256 tables store store'

end Goodmoneying.Program
