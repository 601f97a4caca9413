import Goodmoneying.Library.Base64
import Goodmoneying.Library.JsonReader
import Goodmoneying.Library.Keyset
import Goodmoneying.Program.BacktestRuns
import Goodmoneying.Program.DatasetTables

/-!
# Listings

`list_runs`, `list_run_trades` and `list_run_equity_points` of `backtest_store.py`, `list_builds`
and `list_versions` of `dataset_version_store.py`, with the cursors of both. A listing reads the
database with several queries, and a query sees what is committed when it starts: `seen k` is what
the query number `k` of a request sees.

Every exception of a decoder becomes a cursor mismatch. The texts of a cursor are ASCII, so that
`ensure_ascii` changes nothing of it.
-/

namespace Goodmoneying.Program

open Library

/-- The exceptions of the listings: `ValueError`, `BacktestCursorMismatchError` or
`DatasetCursorMismatchError`, and the 404 of an endpoint. -/
inductive ListingError where
  | valueError (message : String)
  | cursorMismatch (message : String)
  | notFound (code : String)
  deriving DecidableEq, Repr

/-! ## Texts of cursors -/

/-- `urlsafe_b64encode(json.dumps(envelope, …).encode()).decode().rstrip("=")`. -/
def cursorText (envelope : JsonValue) : String :=
  .ofList (unpadded (b64encode (utf8Bytes envelope.dumps)))

/-- `json.loads(urlsafe_b64decode(value + "=" * (-len(value) % 4)).decode())`. -/
def readCursorText (value : String) : Option JsonValue := do
  let bytes ← b64decode (padded value.toList)
  let text ← utf8Text bytes
  JsonValue.loads text

/-- `mapping.get(key)`. -/
def getKey (key : String) (entries : List (String × JsonValue)) : Option JsonValue :=
  (entries.find? fun entry => entry.1 = key).map Prod.snd

/-! ## Cursors of backtests -/

section Backtest

variable (hmacSha256 : List ℕ → List (Fin 256))

/-- `hexdigest`. -/
def hexdigest (digest : List (Fin 256)) : String :=
  .ofList (digest.flatMap fun byte => [Nat.digitChar (byte.val / 16), Nat.digitChar (byte.val % 16)])

/-- `_cursor_digest`; the secret is that of the process. -/
def cursorDigest (payload : JsonValue) : String :=
  hexdigest (hmacSha256 (utf8Bytes payload.dumps))

/-- The envelope of a payload. -/
def signedEnvelope (kind : String) (payload : JsonValue) : JsonValue :=
  .mapping [
    ("kind", .text kind),
    ("payload", payload),
    ("digest", .text (cursorDigest hmacSha256 payload))]

/-- The part that `_decode_list_cursor` and `_decode_result_cursor` have in common: the payload of
a cursor. The `subject` stands in their messages. -/
def signedPayload (subject kind value : String) :
    Except ListingError (List (String × JsonValue)) := do
  if strip value = "" then throw (.cursorMismatch ("유효하지 않은 " ++ subject ++ "다."))
  match readCursorText value with
  | none => throw (.cursorMismatch ("유효하지 않은 " ++ subject ++ "다."))
  | some (.mapping envelope) =>
    match getKey "kind" envelope with
    | some (.text found) =>
      if found ≠ kind then
        throw (.cursorMismatch (subject ++ "가 현재 조회 문맥과 다릅니다."))
    | _ => throw (.cursorMismatch (subject ++ "가 현재 조회 문맥과 다릅니다."))
    match getKey "payload" envelope with
    | some (.mapping payload) =>
      match getKey "digest" envelope with
      | some (.text digest) =>
        -- `hmac.compare_digest` takes ASCII texts only
        if digest.toList.any fun c => 128 ≤ c.toNat then
          throw (.cursorMismatch ("유효하지 않은 " ++ subject ++ "다."))
        if digest ≠ cursorDigest hmacSha256 (.mapping payload) then
          throw (.cursorMismatch (subject ++ " 무결성 검증에 실패했다."))
        pure payload
      | _ => throw (.cursorMismatch (subject ++ " 무결성 검증에 실패했다."))
    | _ => throw (.cursorMismatch ("유효하지 않은 " ++ subject ++ " 구조다."))
  | some _ => throw (.cursorMismatch ("유효하지 않은 " ++ subject ++ " 구조다."))

/-- `type(payload.get(key)) is int`, else the cursor is refused. -/
def intEntry (subject key : String) (payload : List (String × JsonValue)) :
    Except ListingError ℤ :=
  match getKey key payload with
  | some (.int value) => .ok value
  | _ => .error (.cursorMismatch ("유효하지 않은 " ++ subject ++ " 구조다."))

/-- `_LIST_CURSOR_KIND`. -/
def listCursorKind : String := "backtest-run-list-v1"

/-- `_TRADE_CURSOR_KIND`. -/
def tradeCursorKind : String := "backtest-trade-list-v1"

/-- `_EQUITY_CURSOR_KIND`. -/
def equityCursorKind : String := "backtest-equity-list-v1"

/-- A cursor of the runs, in messages. -/
def listCursorSubject : String := "백테스트 run 목록 cursor"

/-- A cursor of the rows of a run, in messages. -/
def resultCursorSubject : String := "백테스트 결과 cursor"

/-- `_encode_list_cursor` of the runs. -/
def encodeRunListCursor (ceiling lastId : ℤ) : String :=
  cursorText (signedEnvelope hmacSha256 listCursorKind
    (.mapping [("ceiling", .int ceiling), ("lastId", .int lastId)]))

/-- `_decode_list_cursor` of the runs: the ceiling and the last id. -/
def decodeRunListCursor (value : String) : Except ListingError (ℤ × ℤ) := do
  let payload ← signedPayload hmacSha256 listCursorSubject listCursorKind value
  let ceiling ← intEntry listCursorSubject "ceiling" payload
  let lastId ← intEntry listCursorSubject "lastId" payload
  if ceiling < 0 ∨ lastId < 1 ∨ lastId > ceiling + 1 then
    throw (.cursorMismatch ("유효하지 않은 " ++ listCursorSubject ++ " 범위다."))
  pure (ceiling, lastId)

/-- `_encode_result_cursor`. -/
def encodeResultCursor (kind : String) (backtestRunId ceiling lastSequence : ℤ) : String :=
  cursorText (signedEnvelope hmacSha256 kind
    (.mapping [("backtestRunId", .int backtestRunId), ("ceiling", .int ceiling),
      ("lastSequence", .int lastSequence)]))

/-- `_decode_result_cursor`: the run, the ceiling and the last sequence. -/
def decodeResultCursor (expectedKind value : String) : Except ListingError (ℤ × ℤ × ℤ) := do
  let payload ← signedPayload hmacSha256 resultCursorSubject expectedKind value
  let runId ← intEntry resultCursorSubject "backtestRunId" payload
  let ceiling ← intEntry resultCursorSubject "ceiling" payload
  let lastSequence ← intEntry resultCursorSubject "lastSequence" payload
  if runId < 1 ∨ ceiling < 0 ∨ lastSequence < 0 ∨ lastSequence > ceiling then
    throw (.cursorMismatch ("유효하지 않은 " ++ resultCursorSubject ++ " 범위다."))
  pure (runId, ceiling, lastSequence)

/-! ## Listings of backtests -/

/-- `SELECT COALESCE(MAX(key), 0)`. -/
def coalesceMax (keys : List ℤ) : ℤ := keys.max?.getD 0

/-- The second query of `list_runs`, and what it makes of the rows. -/
def runPage (runs : RunTable) (pageSize : ℕ) (ceiling lastId : ℤ) :
    Page RunSummaryResponse String :=
  let rows := (sortedBy (fun run => OrderDual.toDual run.id)
    (runs.rows.filter fun run => run.id ≤ ceiling ∧ run.id < lastId)).take (pageSize + 1)
  let page := rows.take pageSize
  { items := page.map runSummaryResponse
    nextCursor :=
      if pageSize < rows.length then
        page.getLast?.map fun run => encodeRunListCursor hmacSha256 ceiling run.id
      else none }

/-- `list_runs`. -/
def listRuns (seen : ℕ → RunTable) (pageSize : ℤ) (cursor : Option String) :
    Except ListingError (Page RunSummaryResponse String) := do
  if pageSize < 1 then throw (.valueError "pageSize는 1 이상 정수여야 한다.")
  let (ceiling, lastId) ←
    match cursor with
    | none =>
      let ceiling := coalesceMax ((seen 0).rows.map BacktestRun.id)
      pure (ceiling, ceiling + 1)
    | some cursor => decodeRunListCursor hmacSha256 cursor
  pure (runPage hmacSha256 (seen 1) pageSize.toNat ceiling lastId)

/-- A row of `backtest_trades` or `backtest_equity_points` with its `run_id`. -/
structure RunChild (α : Type) where
  runId : ℤ
  row : α

/-- The key of a row in its table: `UNIQUE (run_id, …_sequence)`. -/
def RunChild.key {α : Type} (sequence : α → ℤ) (child : RunChild α) : ℤ × ℤ :=
  (child.runId, sequence child.row)

/-- `backtest_runs`, and a table of rows of runs. -/
structure RunResults {α : Type} (sequence : α → ℤ) where
  runs : RunTable
  children : KeyedTable (RunChild.key sequence)

/-- What `_list_run_child_rows` returns. -/
structure RunPage (ι : Type) extends Page ι String where
  backtestRunId : ℤ

/-- The sequences of the rows of a run. -/
def sequencesOf {α : Type} {sequence : α → ℤ} (results : RunResults sequence)
    (backtestRunId : ℤ) : List ℤ :=
  (results.children.rows.filter fun child => child.runId = backtestRunId).map fun child =>
    sequence child.row

/-- The last query of `_list_run_child_rows`, and what it makes of the rows. -/
def runChildPage {α ι : Type} {sequence : α → ℤ} (rowMapper : α → ι)
    (results : RunResults sequence) (backtestRunId : ℤ) (pageSize : ℕ) (cursorKind : String)
    (ceiling lastSequence : ℤ) : RunPage ι :=
  let rows := (sortedBy (fun child => sequence child.row)
    (results.children.rows.filter fun child => child.runId = backtestRunId ∧
      sequence child.row ≤ ceiling ∧ sequence child.row > lastSequence)).take (pageSize + 1)
  let page := rows.take pageSize
  { backtestRunId := backtestRunId
    items := page.map fun child => rowMapper child.row
    nextCursor :=
      if pageSize < rows.length then
        page.getLast?.map fun child =>
          encodeResultCursor hmacSha256 cursorKind backtestRunId ceiling (sequence child.row)
      else none }

/-- `_list_run_child_rows`. -/
def listRunChildRows {α ι : Type} (sequence : α → ℤ) (rowMapper : α → ι)
    (seen : ℕ → RunResults sequence) (backtestRunId pageSize : ℤ) (cursor : Option String)
    (cursorKind : String) : Except ListingError (Option (RunPage ι)) := do
  if pageSize < 1 then throw (.valueError "pageSize는 1 이상 정수여야 한다.")
  match (seen 0).runs.find fun run => run.id = backtestRunId with
  | none => pure none
  | some _ =>
    let (ceiling, lastSequence) ←
      match cursor with
      | none => pure (coalesceMax (sequencesOf (seen 1) backtestRunId), 0)
      | some cursor => do
        let (cursorRunId, ceiling, lastSequence) ←
          decodeResultCursor hmacSha256 cursorKind cursor
        if cursorRunId ≠ backtestRunId then
          throw (.cursorMismatch "백테스트 결과 cursor가 현재 조회 문맥과 다릅니다.")
        pure (ceiling, lastSequence)
    pure (some (runChildPage hmacSha256 rowMapper (seen 2) backtestRunId pageSize.toNat cursorKind
      ceiling lastSequence))

/-- `_positive_int`, of an argument of a listing. -/
def positiveArgument (value : ℤ) (field : String) : Except ListingError ℤ :=
  if value < 1 then .error (.valueError (field ++ "는 1 이상 정수여야 한다.")) else .ok value

/-- `list_run_trades`; a row of the page has the columns that `_trade_response` returns. -/
def listRunTrades (seen : ℕ → RunResults BacktestTradeRow.tradeSequence)
    (backtestRunId pageSize : ℤ) (cursor : Option String) :
    Except ListingError (Option (RunPage BacktestTradeRow)) := do
  let runId ← positiveArgument backtestRunId "backtestRunId"
  let pageSize ← positiveArgument pageSize "pageSize"
  listRunChildRows hmacSha256 BacktestTradeRow.tradeSequence id seen runId pageSize cursor
    tradeCursorKind

/-- `list_run_equity_points`; a row of the page has the columns that `_equity_point_response`
returns. -/
def listRunEquityPoints (seen : ℕ → RunResults BacktestEquityPointRow.pointSequence)
    (backtestRunId pageSize : ℤ) (cursor : Option String) :
    Except ListingError (Option (RunPage BacktestEquityPointRow)) := do
  let runId ← positiveArgument backtestRunId "backtestRunId"
  let pageSize ← positiveArgument pageSize "pageSize"
  listRunChildRows hmacSha256 BacktestEquityPointRow.pointSequence id seen runId pageSize cursor
    equityCursorKind

/-- The endpoints `list_backtest_trades` and `list_backtest_equity_points`: a run that does not
exist is a 404. -/
def orNotFound {ι : Type} (result : Except ListingError (Option (RunPage ι))) :
    Except ListingError (Page ι String) := do
  match ← result with
  | none => throw (.notFound "BACKTEST_RUN_NOT_FOUND")
  | some page => pure page.toPage

end Backtest

/-! ## Listings of datasets -/

section Dataset

variable (sha256 : List ℕ → String)

/-- `_encode_list_cursor` of the datasets. -/
def encodeDatasetCursor (ceiling lastId : ℤ) : String :=
  let payload := .mapping [("ceiling", .int ceiling), ("lastId", .int lastId)]
  cursorText (.mapping [("payload", payload), ("hash", .text (canonicalPayloadHash sha256 payload))])

/-- `_decode_list_cursor` of the datasets, of a value that is not `None`. -/
def decodeDatasetCursor (value : String) : Except ListingError (ℤ × ℤ) := do
  let invalid := ListingError.cursorMismatch "유효하지 않은 dataset version cursor다."
  let badStructure := ListingError.cursorMismatch "유효하지 않은 dataset version cursor 구조다."
  let integrity := ListingError.cursorMismatch "dataset version cursor 무결성 검증에 실패했다."
  let range := ListingError.cursorMismatch "유효하지 않은 dataset version cursor 범위다."
  -- `urlsafe_b64decode` takes ASCII texts only
  if value.toList.any fun c => 128 ≤ c.toNat then throw invalid
  match readCursorText value with
  | none => throw invalid
  | some (.mapping envelope) =>
    match getKey "payload" envelope with
    | none => throw invalid
    | some (.mapping payload) =>
      match getKey "hash" envelope with
      | none => throw invalid
      | some (.text hash) =>
        if hash ≠ canonicalPayloadHash sha256 (.mapping payload) then throw integrity
        if ¬ (payload.length = 2 ∧ (getKey "ceiling" payload).isSome ∧
            (getKey "lastId" payload).isSome) then throw badStructure
        match getKey "ceiling" payload, getKey "lastId" payload with
        | some (.int ceiling), some (.int lastId) =>
          if ceiling < 0 ∨ lastId < 1 ∨ lastId > ceiling then throw range
          pure (ceiling, lastId)
        | _, _ => throw range
      | some _ => throw integrity
    | some _ => throw badStructure
  | some _ => throw badStructure

/-- The second query of a listing of datasets: the ids of a page, and the cursor of the next. -/
def idPage (ids : List ℤ) (limit : ℕ) (ceiling lastId : ℤ) : Page ℤ String :=
  let rows := (sortedBy OrderDual.toDual (ids.filter fun id => id ≤ ceiling ∧ id < lastId)).take
    (limit + 1)
  let page := rows.take limit
  { items := page
    nextCursor :=
      if limit < rows.length then
        page.getLast?.map fun id => encodeDatasetCursor sha256 ceiling id
      else none }

/-- The first two queries of a listing of datasets. -/
def listIds (atCeiling atRows : List ℤ) (limit : ℕ) (cursor : Option String) :
    Except ListingError (Page ℤ String) := do
  let (ceiling, lastId) ←
    match cursor with
    | none => pure (coalesceMax atCeiling, coalesceMax atCeiling + 1)
    | some cursor => decodeDatasetCursor sha256 cursor
  pure (idPage sha256 atRows limit ceiling lastId)

/-- `list_builds`; each `get_build` is a query of its own. -/
def listBuilds (seen : ℕ → BuildTable) (pageSize : ℕ) (cursor : Option String) :
    Except ListingError (Page BuildResponse String) := do
  let page ← listIds sha256 ((seen 0).rows.map DatasetBuild.id)
    ((seen 1).rows.map DatasetBuild.id) pageSize cursor
  pure {
    items := page.items.zipIdx.filterMap fun item => getBuild (seen (item.2 + 2)) item.1
    nextCursor := page.nextCursor }

/-- The ids of the sealed versions. -/
def sealedIds (tables : DatasetVersionTables) : List ℤ :=
  (tables.versions.rows.filter fun version => version.sealedAt.isSome).map DatasetVersionRow.id

/-- `list_versions`; each `get_version` makes two queries. -/
def listVersions (seen : ℕ → DatasetVersionTables) (pageSize : ℕ) (cursor : Option String) :
    Except ListingError (Page VersionResponse String) := do
  let page ← listIds sha256 (sealedIds (seen 0)) (sealedIds (seen 1)) pageSize cursor
  pure {
    items := page.items.zipIdx.filterMap fun item =>
      getVersion (seen (2 * item.2 + 2)) (seen (2 * item.2 + 3)) item.1
    nextCursor := page.nextCursor }

end Dataset

end Goodmoneying.Program
