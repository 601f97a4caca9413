import Goodmoneying.Library.TextReplacement
import Goodmoneying.Program.AnalysisSubscription
import Goodmoneying.Program.Listings

/-!
# Realtime streams

`realtimeStream.ts`, by which the browser follows the sequence numbers of streams, and
`RealtimeEnvelopeBuilder` of `realtime_stream.py`, by which the server counts them. A stream is a
topic with a scope. An envelope is what the browser has read and taken for one, with a whole number
as its sequence.

The tracker is that of `AnalysisSubscription`, which follows the envelopes of one topic and puts the
analysis messages in the place of payloads.
-/

namespace Goodmoneying.Program

open Library

/-! ## Envelopes -/

/-- `RealtimeStreamMessageType`, `StreamMessageType` -/
inductive StreamMessageType where
  | subscribed
  | event
  | heartbeat
  | snapshotRequired
  | slowConsumer
  | error
  deriving DecidableEq, Repr

/-- `RealtimeStreamEnvelope<TPayload>` -/
structure RealtimeStreamEnvelope (P : Type) where
  schemaVersion : String
  topic : String
  scope : String
  eventId : String
  sequence : ℤ
  cursor : String
  occurredAt : String
  publishedAt : String
  messageType : StreamMessageType
  payload : P
  deriving DecidableEq, Repr

variable {P : Type}

/-- `streamKey` -/
def RealtimeStreamEnvelope.streamKey (envelope : RealtimeStreamEnvelope P) : String :=
  envelope.topic ++ "\x00" ++ envelope.scope

/-- The envelope belongs to the stream. -/
def RealtimeStreamEnvelope.OfStream (topic scope : String) (envelope : RealtimeStreamEnvelope P) :
    Prop :=
  envelope.topic = topic ∧ envelope.scope = scope

instance (topic scope : String) (envelope : RealtimeStreamEnvelope P) :
    Decidable (envelope.OfStream topic scope) :=
  inferInstanceAs (Decidable (_ ∧ _))

/-! ## The browser -/

/-- `RealtimeStreamConsumeResult<TPayload>` -/
inductive RealtimeStreamConsumeResult (P : Type) where
  | payload (payload : P) (cursor : String)
  | heartbeat (cursor : String)
  | snapshotRequired (message cursor : String)
  | ignored (cursor : Option String)
  deriving DecidableEq, Repr

section

-- `payload.message`, where the payload is an object and that is a string
variable (messageOf : P → Option String)

/-- `consumeRealtimeEnvelope` -/
def consumeRealtimeEnvelope (tracker : StreamTracker) (envelope : RealtimeStreamEnvelope P) :
    StreamTracker × RealtimeStreamConsumeResult P :=
  let streamKey := envelope.streamKey
  let lastSequence := tracker.lastSequenceByStream streamKey
  if envelope.messageType = .subscribed then
    ((tracker.resume streamKey).setLastSequence streamKey envelope.sequence,
      .payload envelope.payload envelope.cursor)
  else if tracker.pausedStreams streamKey then
    (tracker, .snapshotRequired "실시간 스트림 누락 이후 REST snapshot 복구가 필요합니다."
      envelope.cursor)
  else if envelope.messageType = .heartbeat then
    match lastSequence with
    | some lastSequence =>
      if envelope.sequence > lastSequence then
        (tracker.pause streamKey, .snapshotRequired
          ("실시간 heartbeat가 미수신 sequence(" ++ toString lastSequence ++ " → " ++
            toString envelope.sequence ++ ")를 보고해 REST snapshot 복구가 필요합니다.")
          envelope.cursor)
      else (tracker, .heartbeat envelope.cursor)
    | none =>
      (tracker.setLastSequence streamKey envelope.sequence, .heartbeat envelope.cursor)
  else if envelope.messageType = .snapshotRequired ∨ envelope.messageType = .slowConsumer then
    (tracker.pause streamKey,
      .snapshotRequired (snapshotRequiredMessage (messageOf envelope.payload)) envelope.cursor)
  else if envelope.messageType = .error then
    (tracker, .payload envelope.payload envelope.cursor)
  else
    match lastSequence with
    | some lastSequence =>
      if envelope.sequence ≤ lastSequence then (tracker, .ignored envelope.cursor)
      else if envelope.sequence ≠ lastSequence + 1 then
        (tracker.pause streamKey, .snapshotRequired
          ("실시간 스트림 sequence gap(" ++ toString lastSequence ++ " → " ++
            toString envelope.sequence ++ ")이 감지되어 REST snapshot 복구가 필요합니다.")
          envelope.cursor)
      else
        (tracker.setLastSequence streamKey envelope.sequence,
          .payload envelope.payload envelope.cursor)
    | none =>
      (tracker.setLastSequence streamKey envelope.sequence,
        .payload envelope.payload envelope.cursor)

/-- Envelopes that are consumed one after another, with the results. -/
def consumeAll (tracker : StreamTracker) :
    List (RealtimeStreamEnvelope P) →
      List (RealtimeStreamEnvelope P × RealtimeStreamConsumeResult P)
  | [] => []
  | envelope :: envelopes =>
    (envelope, (consumeRealtimeEnvelope messageOf tracker envelope).2) ::
      consumeAll (consumeRealtimeEnvelope messageOf tracker envelope).1 envelopes

/-- What a new tracker makes of the envelopes of one stream, among others. -/
def streamResults (topic scope : String) (envelopes : List (RealtimeStreamEnvelope P)) :
    List (RealtimeStreamEnvelope P × RealtimeStreamConsumeResult P) :=
  (consumeAll messageOf createRealtimeStreamTracker envelopes).filter fun entry =>
    entry.1.OfStream topic scope

end

/-! ## Cursors -/

/-- `StreamCursorContext` -/
structure StreamCursorContext where
  topic : String
  scope : String
  sequence : ℤ
  snapshotVersion : String
  issuedAt : UtcTime
  expiresAt : UtcTime
  deriving DecidableEq

/-- `value.isoformat().replace("+00:00", "Z")` -/
def streamTime (value : UtcTime) : String :=
  .ofList (replaceAll "+00:00".toList "Z".toList value.datetime.isoformat.toList)

/-- `_base64_url_encode` -/
def base64UrlEncode (bytes : List ℕ) : String := .ofList (unpadded (b64encode bytes))

section

-- `hmac.new(secret, payload, hashlib.sha256).digest()`
variable (hmacSha256 : List ℕ → List ℕ → List (Fin 256))

/-- `encode_stream_cursor` -/
def encodeStreamCursor (context : StreamCursorContext) (secret : String) : String :=
  let payload := canonicalJsonBytes (.mapping [
    ("topic", .text context.topic),
    ("scope", .text context.scope),
    ("sequence", .int context.sequence),
    ("snapshotVersion", .text context.snapshotVersion),
    ("issuedAt", .text (streamTime context.issuedAt)),
    ("expiresAt", .text (streamTime context.expiresAt))])
  let signature := hmacSha256 (utf8Bytes secret) payload
  base64UrlEncode payload ++ "." ++ base64UrlEncode (signature.map Fin.val)

/-- `StreamCursorError`, and an exception that `decode_stream_cursor` lets through. -/
inductive StreamCursorError where
  | tampered (message : String)
  | mismatch (message : String)
  | expired (message : String)
  | raised (error : PythonError)
  deriving DecidableEq, Repr

/-- `_base64_url_decode` -/
def base64UrlDecode (text : List Char) : Option (List ℕ) :=
  if text.all fun c => c.toNat < 128 then b64decode (padded text) else none

/-- `_parse_utc`, of the texts `isoformat` writes. -/
def parseUtc (value : String) : Except PythonError UtcTime := do
  let value ← Datetime.fromisoformat
    (.ofList (replaceAll "Z".toList "+00:00".toList value.toList))
  (UtcTime.ofDatetime value).addTimedelta (-value.utcoffset.microseconds)

-- `str` of a list or a mapping, and `int` of a text
variable (repr : JsonValue → String) (intOfText : String → Option ℤ)

/-- `str(value)` -/
def jsonStr : JsonValue → String
  | .text value => value
  | .int value => toString value
  | .bool value => if value then "True" else "False"
  | .null => "None"
  | value => repr value

/-- `int(value)` -/
def jsonInt : JsonValue → Option ℤ
  | .int value => some value
  | .bool value => some (if value then 1 else 0)
  | .text value => intOfText value
  | _ => none

/-- The `try` around `json.loads` and the context; the payload is UTF-8. -/
def readCursorContext (payload : List ℕ) : Except StreamCursorError StreamCursorContext := do
  let tampered := StreamCursorError.tampered "stream cursor payload가 올바르지 않습니다."
  let caught {α : Type} : Except PythonError α → Except StreamCursorError α
    | .ok value => .ok value
    | .error (.overflowError message) => .error (.raised (.overflowError message))
    | .error _ => .error tampered
  let some (.mapping raw) := utf8Text payload >>= JsonValue.loads | throw tampered
  let get (key other : String) := jsonStr repr (((getKey key raw).or (getKey other raw)).getD .null)
  let some topic := getKey "topic" raw | throw tampered
  let some scope := getKey "scope" raw | throw tampered
  let some sequence := getKey "sequence" raw >>= jsonInt intOfText | throw tampered
  let issuedAt ← caught (parseUtc (get "issuedAt" "issued_at"))
  let expiresAt ← caught (parseUtc (get "expiresAt" "expires_at"))
  return {
    topic := jsonStr repr topic
    scope := jsonStr repr scope
    sequence := sequence
    snapshotVersion := get "snapshotVersion" "snapshot_version"
    issuedAt := issuedAt
    expiresAt := expiresAt }

/-- `decode_stream_cursor`; `topic` and `scope` are what is left of two arguments each. -/
def decodeStreamCursor (cursor secret : String) (topic scope : Option String) (now : UtcTime) :
    Except StreamCursorError StreamCursorContext := do
  let malformed := StreamCursorError.tampered "stream cursor 형식이 올바르지 않습니다."
  let some topic := topic | throw (.mismatch "stream cursor 검증 topic/scope가 필요합니다.")
  let some scope := scope | throw (.mismatch "stream cursor 검증 topic/scope가 필요합니다.")
  let _ :: signatureToken := cursor.toList.dropWhile (· ≠ '.') | throw malformed
  let some payload := base64UrlDecode (cursor.toList.takeWhile (· ≠ '.')) | throw malformed
  let some signature := base64UrlDecode signatureToken | throw malformed
  if signature ≠ (hmacSha256 (utf8Bytes secret) payload).map Fin.val then
    throw (.tampered "stream cursor 서명이 올바르지 않습니다.")
  let context ← readCursorContext repr intOfText payload
  if context.topic ≠ topic ∨ context.scope ≠ scope then
    throw (.mismatch "stream cursor 문맥이 현재 구독과 다릅니다.")
  if context.expiresAt ≤ now then throw (.expired "stream cursor가 만료되었습니다.")
  if context.sequence < 0 then
    throw (.tampered "stream cursor sequence가 올바르지 않습니다.")
  return context

/-! ## The server -/

/-- `RealtimeEnvelopeBuilder`; the time that a cursor is kept for is in microseconds. -/
structure RealtimeEnvelopeBuilder where
  topic : String
  scope : String
  cursorSecret : String
  snapshotVersion : String := "analysis-snapshot-v1"
  sequence : ℤ := 0
  cursorTtl : ℤ := 24 * 3600000000
  deriving DecidableEq

/-- The arguments of a `make`, with what `uuid4` gives. `now` is what `_as_utc` makes of it. -/
structure StreamSend (P : Type) where
  messageType : StreamMessageType
  payload : P
  now : UtcTime
  incrementSequence : Option Bool := none
  eventId : String

/-- The types that advance the sequence. -/
def StreamMessageType.isCounted (messageType : StreamMessageType) : Bool :=
  messageType = .subscribed ∨ messageType = .event

/-- `increment_sequence`, with its default. -/
def StreamSend.increments (send : StreamSend P) : Bool :=
  send.incrementSequence.getD send.messageType.isCounted

/-- `make`. A time to live that ends behind the calendar is an `OverflowError`, after the sequence
has been advanced. -/
def RealtimeEnvelopeBuilder.make (builder : RealtimeEnvelopeBuilder) (send : StreamSend P) :
    RealtimeEnvelopeBuilder × Except PythonError (RealtimeStreamEnvelope P) :=
  let builder :=
    if send.increments then { builder with sequence := builder.sequence + 1 } else builder
  let publishedAt := send.now
  (builder, do
    let expiresAt ← publishedAt.addTimedelta builder.cursorTtl
    let cursor := encodeStreamCursor hmacSha256 {
      topic := builder.topic
      scope := builder.scope
      sequence := builder.sequence
      snapshotVersion := builder.snapshotVersion
      issuedAt := publishedAt
      expiresAt := expiresAt } builder.cursorSecret
    return {
      schemaVersion := "1.0"
      topic := builder.topic
      scope := builder.scope
      eventId := send.eventId
      sequence := builder.sequence
      cursor := cursor
      occurredAt := streamTime publishedAt
      publishedAt := streamTime publishedAt
      messageType := send.messageType
      payload := send.payload })

/-- `resume_from`, with the message of a `StreamCursorError`. -/
def RealtimeEnvelopeBuilder.resumeFrom (builder : RealtimeEnvelopeBuilder)
    (cursorContext : StreamCursorContext) : Except String RealtimeEnvelopeBuilder :=
  if cursorContext.topic ≠ builder.topic ∨ cursorContext.scope ≠ builder.scope then
    .error "stream cursor 문맥이 현재 구독과 다릅니다."
  else if cursorContext.snapshotVersion ≠ builder.snapshotVersion then
    .error "stream cursor snapshot version이 현재 snapshot과 다릅니다."
  else .ok { builder with sequence := cursorContext.sequence }

/-- The envelopes that a builder makes, one after another. -/
def RealtimeEnvelopeBuilder.makeAll (builder : RealtimeEnvelopeBuilder) :
    List (StreamSend P) → List (RealtimeStreamEnvelope P)
  | [] => []
  | send :: sends =>
    let (builder, made) := builder.make hmacSha256 send
    match made with
    | .ok envelope => envelope :: builder.makeAll sends
    | .error _ => builder.makeAll sends

end

end Goodmoneying.Program
