import Goodmoneying.Program.BackfillJobs

/-!
# Market catalog and target states

`sync_market_catalog` and `set_market_target_state` of `data_foundation_repository.py`, and what
both do to the backfill jobs of a market.

A market has one spec for each data type, all under the default policy and with the candle unit
`1m`, so market and data type stand for the id of a spec. `instruments`, `markets` and
`collection_targets` have one row for a market code, which are joined here. Coverage, manifests,
legacy plans and the audit log are left out: nothing here reads them.
-/

namespace Goodmoneying.Program.MarketCatalog

open Library Program.Backfill

/-! ## Tables -/

/-- `collection_target_specs.data_type`. -/
inductive DataType where
  | sourceCandle | tradeEvent | orderbookSnapshot | tickerSnapshot
  deriving DecidableEq, Repr

/-- The data types of `build_default_krw_targets`. -/
def DataType.defaults : List DataType :=
  [.sourceCandle, .tradeEvent, .orderbookSnapshot, .tickerSnapshot]

/-- `collection_target_specs.status`, and the states an operator may ask for. -/
inductive SpecStatus where
  | active | paused | excluded
  deriving DecidableEq, Repr

/-- `collection_target_specs.state_reason`. -/
inductive StateReason where
  | catalogMissing | marketInactive | operatorPaused | operatorExcluded | policyDataTypeDisabled
  deriving DecidableEq, Repr

/-- A row of `collection_target_specs`. -/
structure TargetSpec where
  rangeStartAt : Instant
  candleUnit : Option String
  retentionDays : Option ℤ := none
  priority : ℤ := 100
  continuous : Bool := true
  autoManaged : Bool := true
  status : SpecStatus
  stateReason : Option StateReason
  excludedBy : Option String := none
  exclusionReason : Option String := none
  deriving DecidableEq

/-- A row of `collection_subscription_desires`. -/
structure SubscriptionDesire where
  subscribed : Bool
  generation : ℤ := 1
  deriving DecidableEq

/-- `market_status_history.trading_status`, as the catalog writes it. -/
inductive TradingStatus where
  | active | inactive
  deriving DecidableEq, Repr

/-- The row of `market_status_history` that is still valid. -/
structure StatusRevision where
  tradingStatus : TradingStatus
  sourcePayloadChecksum : String
  validFrom : Instant
  deriving DecidableEq

/-- A market, with the status of its instrument and of its collection target. -/
structure Market where
  marketCode : String
  koreanName : String
  englishName : String
  instrumentActive : Bool
  collectionActive : Option Bool := none
  history : Option StatusRevision := none
  deriving DecidableEq

/-- `MarketCatalogItem`; `marketEvent` is the text of its JSON. -/
structure MarketCatalogItem where
  marketCode : String
  koreanName : String
  englishName : String
  marketWarning : String
  tradable : Bool
  marketEvent : String := "{}"

/-- `MarketCollectionPolicySettings`. -/
structure PolicySettings where
  startAt : Instant
  dataTypes : List DataType
  candleUnit : String
  retentionDays : Option ℤ
  priority : ℤ
  continuous : Bool

/-- The arguments of `set_market_target_state`. -/
structure TargetStateCommand where
  marketCode : String
  state : SpecStatus
  actor : String
  reason : String
  changedAt : Instant
  requestId : String
  idempotencyKey : String
  requestedAt : Instant
  policy : Option PolicySettings

/-- What the key of a policy backfill is computed of. -/
structure PolicyPayload where
  targetSpecId : TargetSpecId
  policyGeneration : ℤ
  startAt : Instant
  candleUnit : Option String
  retentionDays : Option ℤ
  priority : ℤ
  continuous : Bool

/-- The ids that the tables give to the instruments, and the digests of payloads. -/
structure CatalogEnvironment where
  instrumentId : String → ℤ
  instrumentId_injective : Function.Injective instrumentId
  statusChecksum : MarketCatalogItem → String
  payloadHash : TargetStateCommand → String
  policyKey : PolicyPayload → String

structure MarketDatabase where
  backfill : BackfillTables
  markets : KeyedTable Market.marketCode
  specs : String → DataType → Option TargetSpec
  desires : String → DataType → Option SubscriptionDesire
  /-- `command_idempotency_records` of this command: the hash of its payload. -/
  commands : String → Option String

inductive MarketError where
  | valueError (message : String)
  | idempotencyConflict (message : String)
  | checkViolation
  deriving DecidableEq, Repr

/-- `DEFAULT_KRW_START_AT`: 2024-01-01. -/
def defaultKrwStartAt : Instant := 63839664000000000

/-- `POLICY_DISABLED_REASON`. -/
def policyDisabledReason : String := "policy:data-type-disabled"

/-! ## The backfill work of a market -/

section BackfillWork

variable (tables : BackfillTables)

/-- The jobs whose status is open and that have a target such as asked for. -/
def openJobsWith (p : BackfillTarget → Bool) : List ℤ :=
  (tables.jobs.rows.filter fun job => job.status.open && (tables.targetsOf job.id).any p).map
    BackfillJob.id

/-- The targets that an active market takes up again. `specEligible` tells whether a spec is active
and not disabled by a policy. -/
def resumable (specEligible : TargetSpecId → Bool) (instrumentId : ℤ) (target : BackfillTarget) :
    Bool :=
  target.instrumentId = instrumentId && target.status = .paused &&
  target.targetSpecId.all specEligible

/-- The targets that a market's stop is about. -/
def stoppable (instrumentId : ℤ) (target : BackfillTarget) : Bool :=
  target.instrumentId = instrumentId && (target.status.active || target.status = .paused)

/-- A job goes to another status and loses its lease. -/
def moveJob (status : JobStatus) (job : BackfillJob) : BackfillJob :=
  { job with
    status := status
    leaseOwner := none
    leaseExpiresAt := none }

/-- `_transition_market_backfill_work` with `state == "active"`. -/
def resumeMarketBackfillWork (specEligible : TargetSpecId → Bool) (instrumentId : ℤ) :
    BackfillTables :=
  let eligibleJobIds := openJobsWith tables (resumable specEligible instrumentId)
  let resumed := tables.setTargetStatus (fun target => target.backfillJobId ∈ eligibleJobIds &&
    target.instrumentId = instrumentId && target.status = .paused) .pending
  resumed.updateJobs (fun job => job.id ∈ eligibleJobIds && job.status = .paused &&
    (resumed.targetsOf job.id).any fun target => target.status.active) (moveJob .pending)
    fun _ => rfl

/-- What a stop makes of a job without active targets. -/
def stopJob (jobStatus : JobStatus) (targets : List BackfillTarget) (job : BackfillJob) :
    BackfillJob :=
  moveJob (if targets.any fun target => target.status = .paused then .paused else jobStatus) job

/-- `_transition_market_backfill_work` with another state: the statuses of the targets and of the
jobs that have no paused target. -/
def stopMarketBackfillWork (targetStatus : TargetStatus) (jobStatus : JobStatus)
    (instrumentId : ℤ) : BackfillTables :=
  let affectedJobIds := openJobsWith tables (stoppable instrumentId)
  let stopped := tables.setTargetStatus (fun target => target.backfillJobId ∈ affectedJobIds &&
    stoppable instrumentId target) targetStatus
  stopped.updateJobs (fun job => job.id ∈ affectedJobIds &&
    (stopped.targetsOf job.id).all fun target => !target.status.active)
    (fun job => stopJob jobStatus (stopped.targetsOf job.id) job) fun _ => rfl

/-- `_transition_market_backfill_work`. -/
def transitionMarketBackfillWork (specEligible : TargetSpecId → Bool) (instrumentId : ℤ) :
    SpecStatus → BackfillTables
  | .active => resumeMarketBackfillWork tables specEligible instrumentId
  | .paused => stopMarketBackfillWork tables .paused .paused instrumentId
  | .excluded => stopMarketBackfillWork tables .stopped .cancelled instrumentId

/-- One round of `_cancel_superseded_source_backfill`. -/
def cancelSupersededJob (changedAt : Instant) (instrumentId : ℤ) (tables : BackfillTables)
    (jobId : ℤ) : BackfillTables :=
  let stopped := tables.setTargetStatus (fun target => target.backfillJobId = jobId &&
    stoppable instrumentId target) .stopped
  if (stopped.targetsOf jobId).any fun target => target.status.active then stopped
  else
    stopped.updateJobs (fun job => job.id = jobId) (fun job =>
      let moved := stopJob .cancelled (stopped.targetsOf jobId) job
      { moved with
        nextRetryAt := none
        finishedAt := if moved.status = .cancelled then job.finishedAt <|> some changedAt
          else job.finishedAt }) fun _ => rfl

/-- `_cancel_superseded_source_backfill`. -/
def cancelSupersededSourceBackfill (changedAt : Instant) (instrumentId : ℤ) : BackfillTables :=
  (openJobsWith tables (stoppable instrumentId)).foldl (cancelSupersededJob changedAt instrumentId)
    tables

/-- The arguments of `_ensure_backfill_job`, and the clock of the database. -/
structure BackfillRequest where
  targetSpecId : TargetSpecId
  instrumentId : ℤ
  startAt : Instant
  endAt : Instant
  priority : ℤ
  policyKey : Option String
  now : Instant

/-- A job that already collects the instrument. -/
def activeJob (instrumentId : ℤ) (job : BackfillJob) : Bool :=
  job.status.open && ((tables.targetsOf job.id).any (stoppable instrumentId) ||
    ((tables.targetsOf job.id).isEmpty && decide (instrumentId ∈ job.planTargets)))

/-- The end of what the succeeded jobs of a spec have collected. -/
def completedUntil (targetSpecId : TargetSpecId) : Option Instant :=
  (maxBy BackfillJob.targetEndAt (tables.jobs.rows.filter fun job =>
    job.status = .succeeded && (tables.targetsOf job.id).any fun target =>
      target.targetSpecId = some targetSpecId)).map BackfillJob.targetEndAt

/-- `INSERT INTO backfill_jobs … ON CONFLICT (idempotency_key) DO NOTHING`, with the target. -/
def insertBackfillJob (request : BackfillRequest) (startAt : Instant) (key : JobKey) :
    BackfillTables :=
  if tables.jobs.rows.any fun job => job.idempotencyKey = key then tables
  else
    let job (id : ℤ) : BackfillJob := {
      id := id
      status := .pending
      planId := none
      planTargets := [request.instrumentId]
      targetStartAt := startAt
      targetEndAt := request.endAt
      idempotencyKey := key
      priority := request.priority
      createdAt := request.now
      approvedBy := some "system"
      approvedAt := some request.now }
    let inserted : BackfillTables := { tables with jobs := tables.jobs.insert job fun _ => rfl }
    inserted.insertTarget {
      backfillJobId := inserted.jobs.last
      instrumentId := request.instrumentId
      targetSpecId := some request.targetSpecId }

/-- `_ensure_backfill_job`. -/
def ensureBackfillJob (request : BackfillRequest) : BackfillTables :=
  if request.startAt ≥ request.endAt then tables
  else if tables.jobs.rows.any (activeJob tables request.instrumentId) then tables
  else match request.policyKey with
    | some policyKey =>
      insertBackfillJob tables request request.startAt (.policy request.targetSpecId policyKey)
    | none =>
      let startAt := (completedUntil tables request.targetSpecId).elim request.startAt
        (max request.startAt)
      if startAt ≥ request.endAt then tables
      else insertBackfillJob tables request startAt
        (.default request.targetSpecId startAt request.endAt)

end BackfillWork

/-! ## The catalog -/

namespace MarketDatabase

/-- `UPDATE … WHERE` of the row of a market. -/
def updateMarket (db : MarketDatabase) (marketCode : String) (change : Market → Market)
    (hkey : ∀ market, (change market).marketCode = market.marketCode) : MarketDatabase :=
  { db with
    markets := db.markets.update (fun market => market.marketCode = marketCode) change hkey }

def market? (db : MarketDatabase) (marketCode : String) : Option Market :=
  db.markets.find fun market => market.marketCode = marketCode

/-- The collection target of a market, if it has one, gets another status. -/
def setCollectionTarget (db : MarketDatabase) (marketCode : String) (active : Bool) :
    MarketDatabase :=
  db.updateMarket marketCode (fun market =>
    { market with collectionActive := market.collectionActive.map fun _ => active }) fun _ => rfl

def withBackfill (db : MarketDatabase) (tables : BackfillTables) : MarketDatabase :=
  { db with backfill := tables }

def setSpec (db : MarketDatabase) (marketCode : String) (dataType : DataType)
    (spec : TargetSpec) : MarketDatabase :=
  { db with
    specs := Function.update db.specs marketCode
      (Function.update (db.specs marketCode) dataType (some spec)) }

def setDesire (db : MarketDatabase) (marketCode : String) (dataType : DataType)
    (desire : SubscriptionDesire) : MarketDatabase :=
  { db with
    desires := Function.update db.desires marketCode
      (Function.update (db.desires marketCode) dataType (some desire)) }

/-- The `source_candle` spec of the market is active and not disabled by a policy. -/
def specEligible (db : MarketDatabase) (targetSpecId : TargetSpecId) : Bool :=
  (db.specs targetSpecId .sourceCandle).any fun spec =>
    spec.status = .active && spec.exclusionReason ≠ some policyDisabledReason

end MarketDatabase

/-- `market_code.partition("-")`: the quote currency, whether there is a separator, the base. -/
def partitionCode (marketCode : String) : String × Bool × String :=
  let chars := marketCode.toList
  let rest := chars.dropWhile (· ≠ '-')
  (String.ofList (chars.takeWhile (· ≠ '-')), !rest.isEmpty, String.ofList rest.tail)

/-- `item.quote_currency`. -/
def MarketCatalogItem.quoteCurrency (item : MarketCatalogItem) : String :=
  (partitionCode item.marketCode).1

/-- The row of a market that is listed for the first time. -/
def listedMarket (item : MarketCatalogItem) : Market where
  marketCode := item.marketCode
  koreanName := item.koreanName
  englishName := item.englishName
  instrumentActive := item.tradable

/-- Insertion or update of the rows of the item in `instruments` and `markets`. -/
def upsertMarket (db : MarketDatabase) (item : MarketCatalogItem) : MarketDatabase :=
  if h : db.markets.rows.any fun market => market.marketCode = item.marketCode then
    db.updateMarket item.marketCode (fun market => { market with
      koreanName := item.koreanName
      englishName := item.englishName
      instrumentActive := item.tradable }) fun _ => rfl
  else
    { db with markets := db.markets.insert (listedMarket item) (KeyedTable.not_mem_keys h) }

section Catalog

variable (env : CatalogEnvironment)

/-- The trading status of `_status_fingerprint`. -/
def itemStatus (tradable : Bool) : TradingStatus := if tradable then .active else .inactive

/-- `_record_status_revision`; the periods of a market's revisions are not empty. -/
def recordStatusRevision (db : MarketDatabase) (item : MarketCatalogItem) (observedAt : Instant) :
    Except MarketError MarketDatabase :=
  let revision : StatusRevision := ⟨itemStatus item.tradable, env.statusChecksum item, observedAt⟩
  let recorded := db.updateMarket item.marketCode
    (fun market => { market with history := some revision }) fun _ => rfl
  match (db.market? item.marketCode).bind Market.history with
  | none => .ok recorded
  | some current =>
    if current.sourcePayloadChecksum = env.statusChecksum item then .ok db
    else if observedAt ≤ current.validFrom then .error .checkViolation
    else .ok recorded

/-- `_ensure_legacy_collection_target`. -/
def ensureLegacyCollectionTarget (db : MarketDatabase) (item : MarketCatalogItem) :
    MarketDatabase :=
  db.updateMarket item.marketCode
    (fun market => { market with collectionActive := some item.tradable }) fun _ => rfl

/-- A spec that the sync leaves as the operator has put it. -/
def TargetSpec.held (spec : TargetSpec) : Bool :=
  spec.status = .excluded ||
  spec.stateReason ∈ [some .operatorPaused, some .policyDataTypeDisabled]

/-- What the tradability of a market makes of the state of its specs. -/
def catalogState (tradable : Bool) : SpecStatus × Option StateReason :=
  if tradable then (.active, none) else (.paused, some .marketInactive)

/-- The spec of a data type after the sync. -/
def syncedSpec (item : MarketCatalogItem) (dataType : DataType) : Option TargetSpec → TargetSpec
  | none => {
      rangeStartAt := defaultKrwStartAt
      candleUnit := if dataType = .sourceCandle then some "1m" else none
      status := (catalogState item.tradable).1
      stateReason := (catalogState item.tradable).2 }
  | some spec =>
    if spec.autoManaged then
      { spec with
        rangeStartAt := min spec.rangeStartAt defaultKrwStartAt
        retentionDays := none
        priority := 100
        continuous := true
        status := if spec.status = .excluded then .excluded else (catalogState item.tradable).1
        stateReason := if spec.status = .excluded then spec.stateReason
          else (catalogState item.tradable).2 }
    else if spec.held then spec
    else { spec with
      status := (catalogState item.tradable).1
      stateReason := (catalogState item.tradable).2 }

/-- The desire of a subscription after the sync. -/
def syncedDesire (subscribed : Bool) : Option SubscriptionDesire → SubscriptionDesire
  | none => { subscribed := subscribed }
  | some desire => {
      subscribed := subscribed
      generation := if desire.subscribed ≠ subscribed then desire.generation + 1
        else desire.generation }

/-- One round of the loop over the default targets, with whether the market is collected. -/
def syncTarget (item : MarketCatalogItem) (observedAt : Instant) (state : MarketDatabase × Bool)
    (dataType : DataType) : MarketDatabase × Bool :=
  let db := state.1
  let spec := syncedSpec item dataType (db.specs item.marketCode dataType)
  let active : Bool := spec.status = .active
  let stored := db.setSpec item.marketCode dataType spec
  let ensured :=
    if dataType = .sourceCandle && active then
      stored.withBackfill (ensureBackfillJob stored.backfill {
        targetSpecId := item.marketCode
        instrumentId := env.instrumentId item.marketCode
        startAt := defaultKrwStartAt
        endAt := observedAt
        priority := 100
        policyKey := none
        now := observedAt })
    else stored
  (ensured.setDesire item.marketCode dataType
    (syncedDesire (active && item.tradable && spec.continuous)
      (db.desires item.marketCode dataType)), state.2 || active)

/-- The loop over the default targets. -/
def syncTargets (db : MarketDatabase) (item : MarketCatalogItem) (observedAt : Instant) :
    MarketDatabase × Bool :=
  DataType.defaults.foldl (syncTarget env item observedAt)
    (ensureLegacyCollectionTarget db item, false)

/-- The backfill work of a market that the catalog lists. -/
def syncBackfillWork (db : MarketDatabase) (item : MarketCatalogItem) : MarketDatabase :=
  db.withBackfill (transitionMarketBackfillWork db.backfill db.specEligible
    (env.instrumentId item.marketCode) (if item.tradable then .active else .paused))

/-- The collection of a `KRW` market, up to its backfill work. -/
def syncCollection (db : MarketDatabase) (item : MarketCatalogItem) (observedAt : Instant) :
    MarketDatabase :=
  let synced := syncTargets env db item observedAt
  synced.1.setCollectionTarget item.marketCode synced.2

/-- The market of the item, before its collection. -/
def syncMarket (db : MarketDatabase) (item : MarketCatalogItem) (observedAt : Instant) :
    Except MarketError MarketDatabase :=
  let parts := partitionCode item.marketCode
  if !parts.2.1 || parts.1 = "" || parts.2.2 = "" then
    .error (.valueError ("잘못된 Upbit market_code다: " ++ item.marketCode))
  else recordStatusRevision env (upsertMarket db item) item observedAt

/-- One round of the loop over the catalog. -/
def syncItem (observedAt : Instant) (db : MarketDatabase) (item : MarketCatalogItem) :
    Except MarketError MarketDatabase := do
  let recorded ← syncMarket env db item observedAt
  if item.quoteCurrency ≠ "KRW" then pure recorded
  else pure (syncBackfillWork env (syncCollection env recorded item observedAt) item)

/-- A spec of a market that the catalog no longer lists. -/
def missingSpec (spec : TargetSpec) : TargetSpec :=
  { spec with
    status := if spec.status = .excluded then .excluded else .paused
    stateReason := if spec.status = .excluded then spec.stateReason
      else if spec.stateReason ∈ [some .operatorPaused, some .policyDataTypeDisabled] then
        spec.stateReason
      else some .catalogMissing }

/-- The desire of a subscription of such a market. -/
def missingDesire (desire : SubscriptionDesire) : SubscriptionDesire where
  subscribed := false
  generation := if desire.subscribed then desire.generation + 1 else desire.generation

/-- One round of `_mark_missing_markets_inactive`. -/
def markMissingMarket (observedAt : Instant) (db : MarketDatabase) (market : Market) :
    Except MarketError MarketDatabase := do
  let item : MarketCatalogItem := {
    marketCode := market.marketCode
    koreanName := market.koreanName
    englishName := market.englishName
    marketWarning := "NONE"
    tradable := false }
  let recorded ← recordStatusRevision env db item observedAt
  let paused : MarketDatabase := { recorded with
    specs := Function.update recorded.specs market.marketCode
      fun dataType => (recorded.specs market.marketCode dataType).map missingSpec
    desires := Function.update recorded.desires market.marketCode
      fun dataType => (recorded.desires market.marketCode dataType).map missingDesire }
  let stopped := paused.withBackfill (stopMarketBackfillWork paused.backfill .paused .paused
    (env.instrumentId market.marketCode))
  pure (stopped.setCollectionTarget market.marketCode false)

/-- The active markets that the catalog does not list. -/
def missingMarkets (db : MarketDatabase) (catalog : List MarketCatalogItem) : List Market :=
  db.markets.rows.filter fun market =>
    (market.history.any fun revision => revision.tradingStatus = .active) &&
    market.marketCode ∉ catalog.map MarketCatalogItem.marketCode

/-- `sync_market_catalog`. -/
def syncMarketCatalog (db : MarketDatabase) (catalog : List MarketCatalogItem)
    (observedAt : Instant) : Except MarketError MarketDatabase :=
  if catalog = [] then
    .error (.valueError "빈 시장 카탈로그로 기존 시장 상태를 변경할 수 없다.")
  else if ¬ (catalog.map MarketCatalogItem.marketCode).Nodup then
    .error (.valueError "시장 카탈로그에 중복 market_code가 있다.")
  else do
    let synced ← catalog.foldlM (syncItem env observedAt) db
    (missingMarkets synced catalog).foldlM (markMissingMarket env observedAt) synced

end Catalog

/-! ## The target state of a market -/

/-- `MarketCollectionPolicySettings.validate`. -/
def PolicySettings.validate (policy : PolicySettings) (changedAt : Instant) :
    Except MarketError Unit :=
  if policy.startAt ≥ changedAt then
    .error (.valueError "정책 시작 시각은 변경 시각보다 이전이어야 한다.")
  else if policy.dataTypes = [] then
    .error (.valueError "수집 데이터 유형은 최소 한 개 이상이어야 한다.")
  else if ¬ policy.dataTypes.Nodup then
    .error (.valueError "수집 데이터 유형은 중복될 수 없다.")
  else if policy.candleUnit ≠ "1m" then
    .error (.valueError "현재 백필 워커가 지원하는 캔들 주기는 1m뿐이다.")
  else if policy.retentionDays.any fun days => days < 1 || 36500 < days then
    .error (.valueError "보존 기간은 1일 이상 36500일 이하여야 한다.")
  else if policy.priority < 1 ∨ 1000 < policy.priority then
    .error (.valueError "우선순위는 1 이상 1000 이하여야 한다.")
  else .ok ()

/-- The data types that the command selects. -/
def selectedDataTypes (command : TargetStateCommand) (specs : DataType → Option TargetSpec)
    (dataType : DataType) : Bool :=
  match command.policy with
  | some policy => dataType ∈ policy.dataTypes
  | none => (specs dataType).any fun spec => spec.exclusionReason ≠ some policyDisabledReason

/-- The configuration of a spec. -/
def TargetSpec.configuration (spec : TargetSpec) :
    Instant × Option String × Option ℤ × ℤ × Bool :=
  (spec.rangeStartAt, spec.candleUnit, spec.retentionDays, spec.priority, spec.continuous)

/-- The spec with the configuration of a policy. -/
def configuredSpec (policy : Option PolicySettings) (dataType : DataType) (spec : TargetSpec) :
    TargetSpec :=
  policy.elim spec fun policy => { spec with
    rangeStartAt := policy.startAt
    candleUnit := if dataType = .sourceCandle then some policy.candleUnit else spec.candleUnit
    retentionDays := policy.retentionDays
    priority := policy.priority
    continuous := policy.continuous }

/-- The reason of a state that an operator asks for. -/
def operatorReason : SpecStatus → Option StateReason
  | .active => none
  | .paused => some .operatorPaused
  | .excluded => some .operatorExcluded

/-- The spec of a data type after the command. -/
def commandedSpec (command : TargetStateCommand) (selected : Bool) (dataType : DataType)
    (spec : TargetSpec) : TargetSpec :=
  let status := if selected then command.state else .paused
  { configuredSpec command.policy dataType spec with
    autoManaged := false
    status := status
    stateReason := if selected then operatorReason command.state
      else some .policyDataTypeDisabled
    excludedBy := if status = .excluded then some command.actor else none
    exclusionReason := if selected then
        if command.state = .excluded then some command.reason else none
      else some policyDisabledReason }

/-- `policy_changed`. -/
def policyChanged (command : TargetStateCommand) (selected : Bool) (dataType : DataType)
    (spec : TargetSpec) : Bool :=
  let selectedBefore : Bool := spec.exclusionReason ≠ some policyDisabledReason
  selectedBefore ≠ selected || (selected &&
    decide (spec.configuration ≠ (configuredSpec command.policy dataType spec).configuration))

/-- The desire of a subscription after the command. -/
def commandedDesire (subscribed changed : Bool) : Option SubscriptionDesire → SubscriptionDesire
  | none => { subscribed := subscribed }
  | some desire => {
      subscribed := subscribed
      generation := desire.generation + if desire.subscribed ≠ subscribed || changed then 1 else 0 }

section Command

variable (env : CatalogEnvironment)

/-- The specs and the desires of the market after the command. -/
def commandSpecs (db : MarketDatabase) (command : TargetStateCommand) : MarketDatabase :=
  let specs := db.specs command.marketCode
  let selected := selectedDataTypes command specs
  { db with
    specs := Function.update db.specs command.marketCode fun dataType =>
      (specs dataType).map (commandedSpec command (selected dataType) dataType)
    desires := Function.update db.desires command.marketCode fun dataType =>
      (specs dataType).elim (db.desires command.marketCode dataType) fun spec =>
        some (commandedDesire
          (selected dataType && command.state = .active &&
            (configuredSpec command.policy dataType spec).continuous)
          (policyChanged command (selected dataType) dataType spec)
          (db.desires command.marketCode dataType)) }

/-- The backfills that a new policy of the candles supersedes. -/
def commandSuperseded (specs : DataType → Option TargetSpec) (db : MarketDatabase)
    (command : TargetStateCommand) : BackfillTables :=
  if command.policy.isSome && (specs .sourceCandle).any
      (policyChanged command (selectedDataTypes command specs .sourceCandle) .sourceCandle) then
    cancelSupersededSourceBackfill db.backfill command.changedAt
      (env.instrumentId command.marketCode)
  else db.backfill

/-- The backfill of a market that is active again or under a new policy. -/
def commandBackfill (specs : DataType → Option TargetSpec) (db : MarketDatabase)
    (command : TargetStateCommand) : BackfillTables :=
  (specs .sourceCandle).elim db.backfill fun spec =>
    if selectedDataTypes command specs .sourceCandle && command.state = .active &&
        (command.policy.isSome || spec.status = .excluded) then
      let configured := configuredSpec command.policy .sourceCandle spec
      let generation := (db.desires command.marketCode .sourceCandle).elim 0
        SubscriptionDesire.generation
      ensureBackfillJob db.backfill {
        targetSpecId := command.marketCode
        instrumentId := env.instrumentId command.marketCode
        startAt := configured.rangeStartAt
        endAt := command.changedAt
        priority := configured.priority
        policyKey := some (env.policyKey {
          targetSpecId := command.marketCode
          policyGeneration := generation
          startAt := configured.rangeStartAt
          candleUnit := configured.candleUnit
          retentionDays := configured.retentionDays
          priority := configured.priority
          continuous := configured.continuous })
        now := command.changedAt }
    else db.backfill

/-- The backfill work of the market after its specs have been commanded. -/
def commandTransition (specs : DataType → Option TargetSpec) (db : MarketDatabase)
    (command : TargetStateCommand) : MarketDatabase :=
  let transitioned := db.withBackfill (transitionMarketBackfillWork
    (commandSuperseded env specs db command) db.specEligible
    (env.instrumentId command.marketCode) command.state)
  transitioned.withBackfill (commandBackfill env specs transitioned command)

/-- The checks of the arguments. -/
def checkCommand (command : TargetStateCommand) : Except MarketError Unit :=
  if command.actor = "" ∨ command.reason = "" ∨ command.requestId = "" ∨
      command.idempotencyKey = "" then
    .error (.valueError "수집 대상 변경 envelope와 reason은 필수다.")
  else command.policy.elim (.ok ()) fun policy => policy.validate command.changedAt

/-- The checks of the market that the command names. -/
def checkMarket (db : MarketDatabase) (command : TargetStateCommand) : Except MarketError Unit :=
  match db.market? command.marketCode with
  | none => .error (.valueError "변경할 시장을 찾을 수 없다.")
  | some market =>
    if command.state = .active ∧ market.history.map StatusRevision.tradingStatus ≠ some .active then
      .error (.valueError "거래 중단 시장은 수집 활성화할 수 없다.")
    else if DataType.defaults.all fun dataType =>
        (db.specs command.marketCode dataType).isNone then
      .error (.valueError "해당 시장에 적용할 KRW 기본 정책이 없다.")
    else .ok ()

/-- What a command does that is not a repetition. -/
def applyCommand (db : MarketDatabase) (command : TargetStateCommand) : MarketDatabase :=
  let specs := db.specs command.marketCode
  let transitioned := commandTransition env specs (commandSpecs db command) command
  let targeted := transitioned.setCollectionTarget command.marketCode (command.state = .active)
  { targeted with
    commands := Function.update targeted.commands command.idempotencyKey
      (some (env.payloadHash command)) }

/-- `set_market_target_state`; the first result tells whether the command was new. -/
def setMarketTargetState (db : MarketDatabase) (command : TargetStateCommand) :
    Except MarketError (Bool × MarketDatabase) := do
  checkCommand command
  match db.commands command.idempotencyKey with
  | some payloadHash =>
    if payloadHash ≠ env.payloadHash command then
      .error (.idempotencyConflict "동일 idempotencyKey를 다른 payload에 재사용할 수 없다.")
    else .ok (false, db)
  | none =>
    checkMarket db command
    .ok (true, applyCommand env db command)

/-- Whether the instrument is collected, as `approve_backfill_job` reads it. -/
def activeMarket (db : MarketDatabase) (instrumentId : ℤ) : Bool :=
  db.markets.rows.any fun market => env.instrumentId market.marketCode = instrumentId &&
    market.collectionActive = some true && market.instrumentActive

end Command

/-- The tables before anything has been collected. -/
def MarketDatabase.empty : MarketDatabase where
  backfill := {
    jobs := .empty _
    targets := ⟨[], List.nodup_nil⟩
    candles := .empty
    results := [] }
  markets := ⟨[], List.nodup_nil⟩
  specs _ _ := none
  desires _ _ := none
  commands _ := none

/-- The calls that write specs and desires. -/
inductive MarketCall where
  | syncCatalog (catalog : List MarketCatalogItem) (observedAt : Instant)
  | setTargetState (command : TargetStateCommand)

namespace MarketDatabase

variable (env : CatalogEnvironment)

/-- The tables after a call; one that raises is rolled back. -/
def after (db : MarketDatabase) : MarketCall → MarketDatabase
  | .syncCatalog catalog observedAt =>
    (syncMarketCatalog env db catalog observedAt).toOption.getD db
  | .setTargetState command =>
    (setMarketTargetState env db command).toOption.elim db Prod.snd

/-- The tables after a sequence of calls. -/
def afterCalls (db : MarketDatabase) (calls : List MarketCall) : MarketDatabase :=
  calls.foldl (after env) db

end MarketDatabase

/-! ## The operator and the workers -/

/-- The database, the jobs that a control command has paused or stopped and none has taken up
again, and the markets that were put to `paused` or `excluded` and not to `active` since. -/
structure OperatorState where
  db : MarketDatabase
  halted : ℤ → Bool
  stopped : String → Bool

/-- A call of the catalog, of the operator or of a worker. -/
inductive OperatorEvent where
  | syncCatalog (catalog : List MarketCatalogItem) (observedAt : Instant)
  | setTargetState (command : TargetStateCommand)
  | createPlan (planId : String) (now targetStartAt targetEndAt : Instant)
      (instrumentIds : List ℤ)
  | approve (planId : String) (now : Instant)
  | control (jobId : ℤ) (action : ControlAction)
  | claim (call : ClaimCall)
  | mark (call : WriteCall) (mark : TargetMark) (refresh : RefreshCall)
  | recordCandles (call : WriteCall) (marketId : ℤ → String → Option ℤ)
      (candles : List CandleLedger.InstrumentCandle)
  | recordProgress (call : WriteCall) (progress : TargetProgress)

namespace OperatorState

variable (ar : Arithmetic) (sha256 : String → String) (env : CatalogEnvironment)

def withDatabase (state : OperatorState) (db : MarketDatabase) : OperatorState :=
  { state with db := db }

def withBackfill (state : OperatorState) (tables : BackfillTables) : OperatorState :=
  state.withDatabase (state.db.withBackfill tables)

/-- The result of a call on the backfill tables; one that raises is rolled back. -/
def withResult (state : OperatorState) (result : Except BackfillError BackfillTables) :
    OperatorState :=
  result.toOption.elim state state.withBackfill

/-- A command for a market is remembered when it is new. -/
def withCommand (state : OperatorState) (command : TargetStateCommand)
    (result : Bool × MarketDatabase) : OperatorState :=
  if result.1 then
    { state with
      db := result.2
      stopped := Function.update state.stopped command.marketCode (command.state ≠ .active) }
  else state

/-- A command for a job is remembered. -/
def withControl (state : OperatorState) (jobId : ℤ) (action : ControlAction)
    (tables : BackfillTables) : OperatorState :=
  { state.withBackfill tables with
    halted := Function.update state.halted jobId (!action.restarts) }

/-- The state after a call; one that raises is rolled back. -/
def after (state : OperatorState) : OperatorEvent → OperatorState
  | .syncCatalog catalog observedAt =>
    (syncMarketCatalog env state.db catalog observedAt).toOption.elim state state.withDatabase
  | .setTargetState command =>
    (setMarketTargetState env state.db command).toOption.elim state (state.withCommand command)
  | .createPlan planId now targetStartAt targetEndAt instrumentIds =>
    state.withResult (createBackfillPlan state.db.backfill planId now targetStartAt targetEndAt
      instrumentIds)
  | .approve planId now =>
    state.withResult (approveBackfillJob state.db.backfill (activeMarket env state.db) planId now)
  | .control jobId action =>
    (controlBackfillJob state.db.backfill jobId action).toOption.elim state
      (state.withControl jobId action)
  | .claim call => state.withBackfill (claimNextBackfillJob state.db.backfill call).2
  | .mark call mark refresh =>
    state.withResult (markBackfillTarget state.db.backfill call mark refresh)
  | .recordCandles call marketId candles =>
    state.withResult (recordBackfillCandles ar sha256 state.db.backfill call marketId candles)
  | .recordProgress call progress =>
    state.withResult (recordBackfillTargetProgress state.db.backfill call progress)

/-- The state after a run. -/
def afterEvents (state : OperatorState) (events : List OperatorEvent) : OperatorState :=
  events.foldl (after ar sha256 env) state

end OperatorState

def OperatorState.initial : OperatorState where
  db := .empty
  halted _ := false
  stopped _ := false

end Goodmoneying.Program.MarketCatalog
