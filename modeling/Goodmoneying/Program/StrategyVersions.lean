import Goodmoneying.Program.Listings
import Goodmoneying.Program.StrategyGraph

/-!
# Publishing strategy versions

`publish_version` of `strategy_store.py` on the tables of migration
`20260718000100_p3_strategy_versions.sql`. Any number of connections publish between each other,
statement by statement, under read committed: one lock is taken by the idempotency key, another by
the strategy before its last number is read, and both are held to the end of the transaction. What a
transaction has written is seen by itself alone until it commits, and stands in its stage. `advance`
runs the next statement of a publisher; one that waits changes nothing.
-/

namespace Goodmoneying.Program.StrategyVersions

open Library

/-! ## Rows -/

/-- A row of `strategy_versions`; `published_at` is `requested_at`, and the schema and the status
are the same in all rows. -/
structure StrategyVersionRow where
  id : ℤ
  strategyId : ℤ
  version : ℤ
  graphHash : String
  validation : StrategyValidationResult
  idempotencyKey : String
  requestId : String
  actorId : String
  requestedAt : Instant
  reason : String
  requestHash : String
  createdAt : Instant

/-- A row of `strategy_graphs`. -/
structure StrategyGraphRow where
  strategyVersionId : ℤ
  graph : GraphMapping
  graphHash : String

/-- The unique columns of `strategy_versions`. -/
def clash (row other : StrategyVersionRow) : Bool :=
  row.id = other.id || row.idempotencyKey = other.idempotencyKey ||
    (row.strategyId = other.strategyId && row.version = other.version) ||
    (row.strategyId = other.strategyId && row.graphHash = other.graphHash)

/-! ## Requests -/

/-- What the interpreter adds: the hexadecimal digits of the SHA-256 of bytes. -/
structure HashingInterpreter extends Interpreter where
  hexdigest : List ℕ → String

/-- The arguments of `publish_version`. -/
structure PublishArguments where
  strategyId : ℤ
  requestId : String
  idempotencyKey : String
  actorId : String
  requestedAt : Datetime
  reason : String
  graph : GraphValue

/-- What `publish_version` has made of its arguments when it opens a connection. -/
structure PublishRequest (py : HashingInterpreter) where
  strategyId : ℤ
  requestId : String
  idempotencyKey : String
  actorId : String
  requestedAt : Datetime
  reason : String
  graph : GraphMapping
  validation : StrategyValidationResult
  validates : validateStrategyGraph py.toInterpreter graph = .ok validation
  valid : validation.valid = true

/-- What the checks of the arguments raise: `TypeError` or `ValueError`. -/
inductive ArgumentError where
  | unhashable (error : UnhashableError)
  | store (error : StoreError)

/-- The checks of the arguments of `publish_version`. -/
def publishRequest (py : HashingInterpreter) (arguments : PublishArguments) :
    Except ArgumentError (PublishRequest py) :=
  match arguments.graph with
  | .mapping graph =>
    match validates : validateStrategyGraph py.toInterpreter graph with
    | .error error => .error (.unhashable error)
    | .ok validation =>
      if valid : validation.valid = true then do
        let requestId ← (nonBlank arguments.requestId "requestId").mapError .store
        let idempotencyKey ← (nonBlank arguments.idempotencyKey "idempotencyKey").mapError .store
        let actorId ← (nonBlank arguments.actorId "actorId").mapError .store
        let reason ← (nonBlank arguments.reason "reason").mapError .store
        pure {
          strategyId := arguments.strategyId
          requestId, idempotencyKey, actorId
          requestedAt := arguments.requestedAt
          reason, graph, validation, validates, valid }
      else
        let codes := validation.errors.map fun error => error.code.text
        .error (.store (.valueError (",".intercalate codes)))
  | _ => .error (.store (.valueError "전략 graph는 객체여야 한다."))

namespace PublishRequest

variable {py : HashingInterpreter} (request : PublishRequest py)

/-- The payload of a publication. -/
def payload : JsonValue :=
  .mapping [
    ("strategyId", .int request.strategyId),
    ("requestId", .text request.requestId),
    ("idempotencyKey", .text request.idempotencyKey),
    ("actorId", .text request.actorId),
    ("requestedAt", .text request.requestedAt.isoformat),
    ("reason", .text request.reason),
    ("graphHash", .text request.validation.graphHash)]

/-- `_hash(payload)`. -/
def requestHash : String := canonicalPayloadHash py.hexdigest request.payload

end PublishRequest

/-! ## Transactions -/

/-- The row of `INSERT INTO strategy_versions`. -/
def newVersion {py : HashingInterpreter} (request : PublishRequest py) (id version : ℤ)
    (createdAt : Instant) : StrategyVersionRow where
  id := id
  strategyId := request.strategyId
  version := version
  graphHash := request.validation.graphHash
  validation := request.validation
  idempotencyKey := request.idempotencyKey
  requestId := request.requestId
  actorId := request.actorId
  requestedAt := request.requestedAt.instant
  reason := request.reason
  requestHash := request.requestHash
  createdAt := createdAt

/-- The row of `INSERT INTO strategy_graphs`. -/
def newGraph {py : HashingInterpreter} (request : PublishRequest py) (id : ℤ) : StrategyGraphRow where
  strategyVersionId := id
  graph := request.graph
  graphHash := request.validation.graphHash

/-- The advisory locks of `publish_version`. -/
inductive StrategyLock where
  | version (idempotencyKey : String)
  | sequence (strategyId : ℤ)
  deriving DecidableEq, Repr

/-- A publisher between two of its statements, with what it has read and what `RETURNING` gave. -/
inductive PublishStage (py : HashingInterpreter) where
  | idle
  | started (request : PublishRequest py)
  | keyLocked (request : PublishRequest py)
  | unclaimed (request : PublishRequest py)
  | found (request : PublishRequest py)
  | sequenceLocked (request : PublishRequest py)
  | numbered (request : PublishRequest py) (version : ℤ)
  | inserted (request : PublishRequest py) (id version : ℤ) (createdAt : Instant)
  | written (request : PublishRequest py) (id version : ℤ) (createdAt : Instant)

namespace PublishStage

variable {py : HashingInterpreter}

/-- The locks of the transaction. -/
def locks : PublishStage py → List StrategyLock
  | idle | started _ => []
  | keyLocked request | unclaimed request | found request => [.version request.idempotencyKey]
  | sequenceLocked request | numbered request _ | inserted request .. | written request .. =>
    [.version request.idempotencyKey, .sequence request.strategyId]

/-- The version that the transaction has written. -/
def row : PublishStage py → Option StrategyVersionRow
  | inserted request id version createdAt | written request id version createdAt =>
    some (newVersion request id version createdAt)
  | _ => none

/-- The graph that the transaction has written. -/
def graph : PublishStage py → Option StrategyGraphRow
  | written request id .. => some (newGraph request id)
  | _ => none

end PublishStage

/-- What `_version_response` returns. -/
structure StrategyVersionResponse where
  row : StrategyVersionRow
  graph : GraphMapping

/-- A call of `publish_version` that has ended, with what it returned or raised. -/
structure PublishOutcome (py : HashingInterpreter) where
  request : PublishRequest py
  result : Except StoreError StrategyVersionResponse

/-- What is committed, in the order of the commits, the stages of `n` connections, and what the
calls that have ended returned. `nextId` is the sequence of the version ids. -/
structure StrategyDatabase (py : HashingInterpreter) (n : ℕ) where
  definitions : List ℤ
  versions : List StrategyVersionRow
  graphs : List StrategyGraphRow
  nextId : ℤ
  stages : Fin n → PublishStage py
  outcomes : List (PublishOutcome py)

/-- `_version_response`. -/
def versionResponse (graphs : List StrategyGraphRow) (row : StrategyVersionRow) :
    StrategyVersionResponse where
  row := row
  graph := ((graphs.find? fun graph => graph.strategyVersionId = row.id).map
    StrategyGraphRow.graph).getD []

/-- The versions of a strategy. -/
def versionsOf (rows : List StrategyVersionRow) (strategyId : ℤ) : List StrategyVersionRow :=
  rows.filter fun row => row.strategyId = strategyId

/-- `graph_json->>'schema_version' = 'strategy-graph-v1'`; no value passes the check too. -/
def schemaCheck (graph : GraphMapping) : Bool :=
  match graph.get "schema_version" with
  | .text schema => schema = "strategy-graph-v1"
  | .null => true
  | _ => false

namespace StrategyDatabase

variable {py : HashingInterpreter} {n : ℕ}

def initial (py : HashingInterpreter) (n : ℕ) : StrategyDatabase py n where
  definitions := []
  versions := []
  graphs := []
  nextId := 1
  stages := fun _ => .idle
  outcomes := []

/-- The next stage of a publisher. -/
def withStage (db : StrategyDatabase py n) (id : Fin n) (stage : PublishStage py) :
    StrategyDatabase py n :=
  { db with stages := Function.update db.stages id stage }

/-- The end of a call; what its transaction has written and not committed is gone. -/
def finish (db : StrategyDatabase py n) (id : Fin n) (request : PublishRequest py)
    (result : Except StoreError StrategyVersionResponse) : StrategyDatabase py n :=
  { db.withStage id .idle with outcomes := db.outcomes ++ [⟨request, result⟩] }

/-- The return of a call with a row. -/
def respond (db : StrategyDatabase py n) (id : Fin n) (request : PublishRequest py)
    (row : StrategyVersionRow) : StrategyDatabase py n :=
  db.finish id request (.ok (versionResponse db.graphs row))

/-- `COMMIT` of a version and its graph. -/
def commit (db : StrategyDatabase py n) (row : StrategyVersionRow) (graph : StrategyGraphRow) :
    StrategyDatabase py n :=
  { db with
    versions := db.versions ++ [row]
    graphs := db.graphs ++ [graph] }

/-- The next value of the sequence. -/
def draw (db : StrategyDatabase py n) : StrategyDatabase py n :=
  { db with nextId := db.nextId + 1 }

/-- A transaction has the lock. -/
def Locked (db : StrategyDatabase py n) (lock : StrategyLock) : Prop :=
  ∃ id, lock ∈ (db.stages id).locks

instance (db : StrategyDatabase py n) (lock : StrategyLock) : Decidable (db.Locked lock) :=
  inferInstanceAs (Decidable (∃ id, lock ∈ (db.stages id).locks))

/-- The next statement of a publisher. -/
def advance (db : StrategyDatabase py n) (id : Fin n) (now : Instant) : StrategyDatabase py n :=
  match db.stages id with
  | .idle => db
  | .started request =>
    if db.Locked (.version request.idempotencyKey) then db
    else db.withStage id (.keyLocked request)
  | .keyLocked request =>
    match db.versions.find? fun row => row.idempotencyKey = request.idempotencyKey with
    | some row =>
      if row.requestHash ≠ request.requestHash then
        db.finish id request
          (.error (.idempotencyConflict "멱등 키의 기존 전략 버전 요청과 본문이 다르다."))
      else db.respond id request row
    | none => db.withStage id (.unclaimed request)
  | .unclaimed request =>
    if request.strategyId ∈ db.definitions then db.withStage id (.found request)
    else db.finish id request (.error (.valueError "전략 정의가 없다."))
  | .found request =>
    if db.Locked (.sequence request.strategyId) then db
    else db.withStage id (.sequenceLocked request)
  | .sequenceLocked request =>
    db.withStage id (.numbered request
      (coalesceMax ((versionsOf db.versions request.strategyId).map StrategyVersionRow.version) + 1))
  | .numbered request version =>
    let row := newVersion request db.nextId version now
    -- the sequence moves on even where the row is refused
    if db.versions.any (clash row) then db.draw.finish id request (.error .uniqueViolation)
    else if ∃ other, (db.stages other).row.any (clash row) then db
    else db.draw.withStage id (.inserted request db.nextId version now)
  | .inserted request versionId version createdAt =>
    if schemaCheck request.graph = false then db.finish id request (.error .checkViolation)
    else if db.graphs.any fun other => other.strategyVersionId = versionId then
      db.finish id request (.error .uniqueViolation)
    else if ∃ other, (db.stages other).graph.any fun other =>
        other.strategyVersionId = versionId then db
    else db.withStage id (.written request versionId version createdAt)
  | .written request versionId version createdAt =>
    let row := newVersion request versionId version createdAt
    (db.commit row (newGraph request versionId)).respond id request row

end StrategyDatabase

/-- What happens next: a call begins, a publisher runs a statement, a connection is lost, or a
strategy is defined. -/
inductive StrategyEvent (n : ℕ) where
  | begin (id : Fin n) (arguments : PublishArguments)
  | advance (id : Fin n) (now : Instant)
  | abort (id : Fin n)
  | define (strategyId : ℤ)

namespace StrategyDatabase

variable {py : HashingInterpreter} {n : ℕ}

/-- One event; a connection runs one call at a time, and a call whose arguments are refused opens
none. -/
def perform (db : StrategyDatabase py n) : StrategyEvent n → StrategyDatabase py n
  | .begin id arguments =>
    match db.stages id, publishRequest py arguments with
    | .idle, .ok request => db.withStage id (.started request)
    | _, _ => db
  | .advance id now => db.advance id now
  | .abort id => db.withStage id .idle
  | .define strategyId => { db with definitions := db.definitions ++ [strategyId] }

/-- Any order of the events of the connections. -/
def run (db : StrategyDatabase py n) (events : List (StrategyEvent n)) :
    StrategyDatabase py n :=
  events.foldl perform db

end StrategyDatabase

end Goodmoneying.Program.StrategyVersions
