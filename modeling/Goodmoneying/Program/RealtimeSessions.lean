import Mathlib.Data.String.Basic
import Mathlib.Logic.Relation
import Goodmoneying.Library.Grouping
import Goodmoneying.Library.KeyedTable
import Goodmoneying.Program.UtcTimes

/-!
# Realtime sessions

`open_realtime_connection_session`, `_record_realtime_session_progress` and
`close_realtime_connection_session` of `postgres_repository.py`, on the tables of migration
`20260717001200_p2_microstructure.sql`, and `_connection_qualities` of
`microstructure_store.py`, which reads what they record. A worker runs its sessions one after
another: it opens a session, records batches of frames and closes it, failed or not.

`sha256` stands for the hexadecimal SHA-256 of a text. A fingerprint writes a time that was read from
the table in UTC and all others in KST; here all are in KST, since no minute is recorded twice.
-/

namespace Goodmoneying.Program

open Library

/-! ## Tables -/

/-- `SourceQuality`, and the columns of that name. -/
inductive SourceQuality where
  | available | noTrade | missing | unavailable | unverified
  deriving DecidableEq, Repr

/-- `subscription_scope`. -/
structure SubscriptionScope where
  marketIds : List ℤ
  dataTypes : List String
  deriving DecidableEq, Repr

/-- `realtime_connection_sessions.status`. -/
inductive SessionStatus where
  | active | closed | disconnected | failed
  deriving DecidableEq, Repr

/-- A row of `realtime_connection_sessions`. -/
structure RealtimeSession where
  connectionId : String
  subscriptionGeneration : ℤ
  subscriptionScope : SubscriptionScope
  connectedAt : Instant
  disconnectedAt : Option Instant := none
  status : SessionStatus := .active
  firstFrameSequence : Option ℤ := none
  lastFrameSequence : ℤ := 0
  lastReceivedAt : Option Instant := none
  disconnectReason : Option String := none
  deriving DecidableEq, Repr

/-- The values of an `INSERT INTO realtime_connection_quality_intervals`. -/
structure IntervalValues where
  connectionId : String
  marketId : Option ℤ
  dataType : String
  rangeStartAt : Instant
  rangeEndAt : Instant
  quality : SourceQuality
  reasonCode : String
  fingerprint : String
  detectedAt : Instant
  deriving DecidableEq, Repr

/-- A row of `realtime_connection_quality_intervals`. -/
structure QualityInterval extends IntervalValues where
  id : ℤ
  deriving DecidableEq, Repr

/-- A row of `markets`. -/
structure MarketRow where
  id : ℤ
  legacyInstrumentId : Option ℤ
  deriving DecidableEq, Repr

structure RealtimeDatabase where
  markets : List MarketRow
  sessions : KeyedTable RealtimeSession.connectionId
  intervals : List QualityInterval
  lastIntervalId : ℤ

/-- The text of a fingerprint: of an interval of `_insert_realtime_connection_quality`, or of a
minute of a connection that went on. -/
inductive FingerprintText where
  | interval (connectionId : String) (marketId : Option ℤ) (dataType : String)
      (rangeStartAt rangeEndAt : Instant) (quality : SourceQuality) (reasonCode : String)
  | minute (connectionId dataType : String) (rangeStartAt rangeEndAt : Instant)
  deriving DecidableEq

/-- `SourceQuality` as it is written. -/
def SourceQuality.text : SourceQuality → String
  | .available => "available"
  | .noTrade => "no_trade"
  | .missing => "missing"
  | .unavailable => "unavailable"
  | .unverified => "unverified"

theorem kst_bound : |(32400000000 : ℤ)| < dayMicroseconds := by decide

/-- `isoformat()` of a time in KST; outside the calendar there is none. -/
def kstText (value : Instant) : String :=
  let offset : UtcOffset := ⟨32400000000, kst_bound⟩
  let wallClock := value + offset.microseconds
  if h : 0 ≤ wallClock ∧ wallClock.toNat < maxOrdinal * dayMicroseconds then
    Datetime.isoformat { UtcTime.datetime ⟨wallClock.toNat, h.2⟩ with utcoffset := offset }
  else ""

def FingerprintText.text : FingerprintText → String
  | .interval connectionId marketId dataType rangeStartAt rangeEndAt quality reasonCode =>
    "|".intercalate [connectionId, (marketId.map toString).getD "None", dataType,
      kstText rangeStartAt, kstText rangeEndAt, quality.text, reasonCode]
  | .minute connectionId dataType rangeStartAt rangeEndAt =>
    "|".intercalate [connectionId, dataType, kstText rangeStartAt, kstText rangeEndAt, "available"]

/-- `INSERT … ON CONFLICT (connection_id, fingerprint) DO NOTHING`; the sequence of the ids goes on
either way. -/
def RealtimeDatabase.insertInterval (db : RealtimeDatabase) (values : IntervalValues) :
    RealtimeDatabase :=
  let db := { db with lastIntervalId := db.lastIntervalId + 1 }
  if db.intervals.any fun row =>
      row.connectionId = values.connectionId && row.fingerprint = values.fingerprint then db
  else { db with intervals := db.intervals ++ [{ values with id := db.lastIntervalId }] }

/-- The values that `_insert_realtime_connection_quality` inserts. -/
def connectionQualityValues (sha256 : String → String) (connectionId : String)
    (marketId : Option ℤ) (dataType : String) (rangeStartAt rangeEndAt : Instant)
    (quality : SourceQuality) (reasonCode : String) (detectedAt : Instant) : IntervalValues where
  connectionId := connectionId
  marketId := marketId
  dataType := dataType
  rangeStartAt := rangeStartAt
  rangeEndAt := rangeEndAt
  quality := quality
  reasonCode := reasonCode
  fingerprint := sha256 (FingerprintText.interval connectionId marketId dataType rangeStartAt
    rangeEndAt quality reasonCode).text
  detectedAt := detectedAt

/-! ## Minutes -/

/-- `timedelta(minutes=1)`. -/
abbrev minute : ℤ := 60000000

/-- `minute_bucket`: the zone it computes in is a whole number of minutes away from UTC. -/
def minuteBucket (value : ℤ) : ℤ := value - value % minute

/-- The minute of the time, or the next one where the time is inside of it. -/
def fullMinute (value : ℤ) : ℤ :=
  if minuteBucket value < value then minuteBucket value + minute else minuteBucket value

/-- The starts of the minutes from `start` up to `stop`. -/
def minuteStarts (start stop : ℤ) : List ℤ :=
  (List.range ((stop - start + (minute - 1)) / minute).toNat).map fun (i : ℕ) => start + i * minute

/-! ## Opening a session -/

/-- The query for the sessions that failed before, the last one first. -/
def previousSessions (sessions : List RealtimeSession) (connectionId : String)
    (connectedAt : Instant) : List RealtimeSession :=
  (sortedBy (fun session => -(session.disconnectedAt.getD 0))
    (sessions.filter fun session =>
      session.connectionId ≠ connectionId &&
      (session.status = .failed || session.status = .disconnected) &&
      session.disconnectedAt.any (· < connectedAt))).take 100

/-- The gap that ends with the new session, for one market of an earlier one. -/
def reconnectionGap (sha256 : String → String) (connectedAt : Instant)
    (dataType : String) (previous : RealtimeSession) (marketId : ℤ) : IntervalValues :=
  connectionQualityValues sha256 previous.connectionId (some marketId) dataType
    (minuteBucket (previous.disconnectedAt.getD 0)) (fullMinute connectedAt) .missing
    "reconnection_gap" connectedAt

/-- The loop over the earlier sessions: the gaps of one data type, for the markets that are not
resolved yet. -/
def reconnectionGaps (sha256 : String → String) (connectedAt : Instant)
    (dataType : String) : List ℤ → List RealtimeSession → List IntervalValues
  | _, [] => []
  | unresolved, previous :: rest =>
    if dataType ∉ previous.subscriptionScope.dataTypes then
      reconnectionGaps sha256 connectedAt dataType unresolved rest
    else
      let shared := unresolved.filter (· ∈ previous.subscriptionScope.marketIds)
      let gaps :=
        if minuteBucket (previous.disconnectedAt.getD 0) < fullMinute connectedAt then
          shared.map (reconnectionGap sha256 connectedAt dataType previous)
        else []
      let left := unresolved.filter (· ∉ previous.subscriptionScope.marketIds)
      if shared = [] then reconnectionGaps sha256 connectedAt dataType unresolved rest
      else if left = [] then gaps
      else gaps ++ reconnectionGaps sha256 connectedAt dataType left rest

/-- The scope of a session: the markets of the instruments, and the data types, each once. -/
def sessionScope (markets : List MarketRow) (instrumentIds : List ℤ) (dataTypes : List String) :
    SubscriptionScope where
  marketIds := sortedBy id ((markets.filter fun market =>
    market.legacyInstrumentId.any (· ∈ instrumentIds)).map MarketRow.id)
  dataTypes := sortedBy id dataTypes.dedup

/-- `open_realtime_connection_session`. -/
def openRealtimeConnectionSession (sha256 : String → String) (db : RealtimeDatabase)
    (connectionId : String) (subscriptionGeneration : ℤ) (instrumentIds : List ℤ)
    (dataTypes : List String) (connectedAt : Instant) : RealtimeDatabase :=
  let scope := sessionScope db.markets instrumentIds dataTypes
  let session : RealtimeSession := {
    connectionId := connectionId
    subscriptionGeneration := subscriptionGeneration
    subscriptionScope := scope
    connectedAt := connectedAt }
  let db :=
    if hnew : connectionId ∉ db.sessions.rows.map RealtimeSession.connectionId then
      { db with sessions := db.sessions.insert session hnew }
    else db
  let previous := previousSessions db.sessions.rows connectionId connectedAt
  scope.dataTypes.foldl (fun db dataType =>
    (reconnectionGaps sha256 connectedAt dataType scope.marketIds previous).foldl
      RealtimeDatabase.insertInterval db) db

/-! ## Frames -/

/-- What the progress of a session reads of a frame. -/
structure FrameReceipt where
  connectionId : String
  frameSequence : ℤ
  receivedAt : Instant
  deriving DecidableEq, Repr

/-- The columns of a session after more of its frames. -/
def RealtimeSession.progress (session : RealtimeSession) (firstSequence lastSequence : ℤ)
    (lastReceivedAt : Instant) : RealtimeSession :=
  { session with
    firstFrameSequence := some (min (session.firstFrameSequence.getD firstSequence) firstSequence)
    lastFrameSequence := max session.lastFrameSequence lastSequence
    lastReceivedAt := some (max (session.lastReceivedAt.getD lastReceivedAt) lastReceivedAt) }

theorem RealtimeSession.progress_connectionId (firstSequence lastSequence : ℤ)
    (lastReceivedAt : Instant) (session : RealtimeSession) :
    (session.progress firstSequence lastSequence lastReceivedAt).connectionId =
      session.connectionId := rfl

/-- `COALESCE(MAX(range_end_at), default)` of the intervals of a session and a data type that
satisfy `p`. -/
def latestEnd (intervals : List QualityInterval) (connectionId dataType : String)
    (p : QualityInterval → Bool) (default : Instant) : Instant :=
  (((intervals.filter fun row =>
    row.connectionId = connectionId && row.dataType = dataType && p row).map
      fun row => row.rangeEndAt).max?).getD default

/-- A minute in which the connection went on. -/
def continuousMinute (sha256 : String → String) (connectionId dataType : String)
    (detectedAt bucketStart : Instant) : IntervalValues where
  connectionId := connectionId
  marketId := none
  dataType := dataType
  rangeStartAt := bucketStart
  rangeEndAt := bucketStart + minute
  quality := .available
  reasonCode := "continuous_connection"
  fingerprint := sha256
    (FingerprintText.minute connectionId dataType bucketStart (bucketStart + minute)).text
  detectedAt := detectedAt

/-- The minutes of one data type that are complete now and were not recorded before. -/
def recordMinutes (sha256 : String → String) (session : RealtimeSession)
    (lastReceivedAt : Instant) (db : RealtimeDatabase) (dataType : String) : RealtimeDatabase :=
  let firstMinute := fullMinute session.connectedAt
  let latest := latestEnd db.intervals session.connectionId dataType
    (fun row => row.quality = .available) firstMinute
  ((minuteStarts (max firstMinute latest) (minuteBucket lastReceivedAt)).map
    (continuousMinute sha256 session.connectionId dataType lastReceivedAt)).foldl
      RealtimeDatabase.insertInterval db

/-- The progress of one connection. -/
def recordProgress (sha256 : String → String) (db : RealtimeDatabase)
    (group : Group String FrameReceipt) : Except String RealtimeDatabase :=
  match (group.items.map FrameReceipt.frameSequence).min?,
      (group.items.map FrameReceipt.frameSequence).max?,
      (group.items.map FrameReceipt.receivedAt).max?,
      db.sessions.find (fun session => session.connectionId = group.key) with
  | some firstSequence, some lastSequence, some lastReceivedAt, some session =>
    .ok (session.subscriptionScope.dataTypes.foldl (recordMinutes sha256 session lastReceivedAt)
      { db with
        sessions := db.sessions.update (fun row => row.connectionId = group.key)
          (fun row => row.progress firstSequence lastSequence lastReceivedAt)
          (RealtimeSession.progress_connectionId firstSequence lastSequence lastReceivedAt) })
  | _, _, _, _ => .error "실시간 원문 receipt에 대응하는 연결 세션이 없다."

/-- `_record_realtime_session_progress`. -/
def recordRealtimeSessionProgress (sha256 : String → String) (db : RealtimeDatabase)
    (frames : List FrameReceipt) : Except String RealtimeDatabase :=
  (grouped (frames.map fun frame => (frame.connectionId, frame))).foldlM (recordProgress sha256) db

/-! ## Closing a session -/

/-- What closing a session records for one data type: the begun first minute, the minutes that a
failure left open, and the begun last one. -/
def closeDataType (sha256 : String → String) (session : RealtimeSession)
    (disconnectedAt : Instant) (failed : Bool) (reason : Option String) (db : RealtimeDatabase)
    (dataType : String) : RealtimeDatabase :=
  let connectedAt := session.connectedAt
  let values := connectionQualityValues sha256 session.connectionId none dataType
  let firstFullMinute := fullMinute connectedAt
  let completedThrough := minuteBucket disconnectedAt
  let firstPartialStart := minuteBucket connectedAt
  let firstPartialEnd := fullMinute (min firstFullMinute disconnectedAt)
  let db :=
    if firstPartialStart < connectedAt ∧ connectedAt < disconnectedAt ∧
        firstPartialStart < firstPartialEnd then
      db.insertInterval (values firstPartialStart firstPartialEnd .unverified
        (reason.getD "partial_connection_interval") disconnectedAt)
    else db
  let latest := latestEnd db.intervals session.connectionId dataType (fun _ => true) firstFullMinute
  let missingStart := max firstFullMinute latest
  let db :=
    if failed = true ∧ missingStart < completedThrough then
      db.insertInterval (values missingStart completedThrough .missing
        (reason.getD "connection_failed") disconnectedAt)
    else db
  let partialStart := max (max connectedAt completedThrough) latest
  if partialStart < disconnectedAt then
    db.insertInterval (values (minuteBucket partialStart) (fullMinute disconnectedAt) .unverified
      (reason.getD "partial_connection_interval") disconnectedAt)
  else db

/-- The columns of a session that is closed. -/
def RealtimeSession.close (session : RealtimeSession) (disconnectedAt : Instant) (failed : Bool)
    (reason : Option String) : RealtimeSession :=
  { session with
    disconnectedAt := some disconnectedAt
    status := if failed then .failed else .closed
    disconnectReason := reason }

theorem RealtimeSession.close_connectionId (disconnectedAt : Instant) (failed : Bool)
    (reason : Option String) (session : RealtimeSession) :
    (session.close disconnectedAt failed reason).connectionId = session.connectionId := rfl

/-- `close_realtime_connection_session`. -/
def closeRealtimeConnectionSession (sha256 : String → String) (db : RealtimeDatabase)
    (connectionId : String) (disconnectedAt : Instant) (failed : Bool) (reason : Option String) :
    RealtimeDatabase :=
  let isOpen : RealtimeSession → Bool := fun session =>
    session.connectionId = connectionId && session.status = .active
  let db :=
    match db.sessions.find isOpen with
    | some session => session.subscriptionScope.dataTypes.foldl
        (closeDataType sha256 session disconnectedAt failed reason) db
    | none => db
  { db with
    sessions := db.sessions.update isOpen (fun session => session.close disconnectedAt failed reason)
      (RealtimeSession.close_connectionId disconnectedAt failed reason) }

/-! ## Reading the quality of a minute -/

/-- `ConnectionQualityEvidence`. -/
structure ConnectionQualityEvidence where
  intervalId : ℤ
  quality : SourceQuality
  sourceAsOf : Instant
  knowledgeAt : Instant
  deriving DecidableEq, Repr

/-- Whether a session has the market and the data type in its scope. -/
def RealtimeSession.covers (session : RealtimeSession) (marketId : ℤ) (dataType : String) : Bool :=
  marketId ∈ session.subscriptionScope.marketIds && dataType ∈ session.subscriptionScope.dataTypes

/-- The rows of the query of `_connection_qualities` of one data type. -/
def qualityRows (db : RealtimeDatabase) (marketId : ℤ) (startedAt endedAt asOf ceiling : ℤ)
    (dataType : String) : List QualityInterval :=
  db.intervals.filter fun row =>
    row.dataType = dataType &&
    (db.sessions.rows.any fun session =>
      session.connectionId = row.connectionId &&
      (row.marketId = some marketId ||
        (row.marketId.isNone && session.covers marketId dataType))) &&
    row.rangeStartAt ≤ startedAt && endedAt ≤ row.rangeEndAt && row.detectedAt ≤ asOf &&
    row.id ≤ ceiling

/-- The row of `DISTINCT ON (data_type)`: the one detected last. -/
def latestQuality (db : RealtimeDatabase) (marketId : ℤ) (startedAt endedAt asOf ceiling : ℤ)
    (dataType : String) : Option QualityInterval :=
  maxBy (fun row => toLex (row.detectedAt, row.id))
    (qualityRows db marketId startedAt endedAt asOf ceiling dataType)

/-- `ConnectionQualityEvidence` of a row. -/
def QualityInterval.evidence (row : QualityInterval) : ConnectionQualityEvidence where
  intervalId := row.id
  quality := row.quality
  sourceAsOf := row.rangeEndAt
  knowledgeAt := row.detectedAt

/-- `_connection_qualities`. -/
def connectionQualities (db : RealtimeDatabase) (marketId : ℤ) (startedAt endedAt asOf : Instant)
    (ceiling : ℤ) : List (String × ConnectionQualityEvidence) :=
  ["orderbook_snapshot", "trade_event"].filterMap fun dataType =>
    (latestQuality db marketId startedAt endedAt asOf ceiling dataType).map fun row =>
      (dataType, row.evidence)

/-! ## Histories -/

/-- The database, the time of the last event, and the open session. -/
structure RealtimeHistory where
  db : RealtimeDatabase
  clock : Instant
  current : Option String

/-- What a worker does with its sessions. -/
inductive RealtimeEvent where
  | opened (connectionId : String) (subscriptionGeneration : ℤ) (instrumentIds : List ℤ)
      (dataTypes : List String) (connectedAt : Instant)
  | received (frames : List FrameReceipt)
  | closed (disconnectedAt : Instant) (failed : Bool) (reason : Option String)

/-- One event of a worker: its sessions follow one another, and its times grow. -/
inductive RealtimeStep (sha256 : String → String) :
    RealtimeHistory → RealtimeEvent → RealtimeHistory → Prop
  | opens (state : RealtimeHistory) (connectionId : String) (subscriptionGeneration : ℤ)
      (instrumentIds : List ℤ) (dataTypes : List String) (connectedAt : Instant)
      (hidle : state.current = none)
      (hnew : connectionId ∉ state.db.sessions.rows.map RealtimeSession.connectionId)
      (htime : state.clock < connectedAt) :
      RealtimeStep sha256 state
        (.opened connectionId subscriptionGeneration instrumentIds dataTypes connectedAt) {
        db := openRealtimeConnectionSession sha256 state.db connectionId subscriptionGeneration
          instrumentIds dataTypes connectedAt
        clock := connectedAt
        current := some connectionId }
  | records (state : RealtimeHistory) (connectionId : String) (frames : List FrameReceipt)
      (db : RealtimeDatabase) (hcurrent : state.current = some connectionId)
      (hframes : ∀ frame ∈ frames, frame.connectionId = connectionId)
      (htimes : ∀ frame ∈ frames, state.clock < frame.receivedAt)
      (horder : (frames.map FrameReceipt.receivedAt).Pairwise (· < ·))
      (hrecord : recordRealtimeSessionProgress sha256 state.db frames = .ok db) :
      RealtimeStep sha256 state (.received frames) {
        state with
        db := db
        clock := (frames.map FrameReceipt.receivedAt).foldl max state.clock }
  | closes (state : RealtimeHistory) (connectionId : String) (disconnectedAt : Instant)
      (failed : Bool) (reason : Option String) (hcurrent : state.current = some connectionId)
      (htime : state.clock < disconnectedAt) :
      RealtimeStep sha256 state (.closed disconnectedAt failed reason) {
        db := closeRealtimeConnectionSession sha256 state.db connectionId disconnectedAt failed
          reason
        clock := disconnectedAt
        current := none }

/-- Before the first session. -/
def RealtimeHistory.start (markets : List MarketRow) (clock : Instant) : RealtimeHistory where
  db := ⟨markets, ⟨[], List.nodup_nil⟩, [], 0⟩
  clock := clock
  current := none

end Goodmoneying.Program
