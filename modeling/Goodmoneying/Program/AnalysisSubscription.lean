import Mathlib.Data.Int.Notation
import Goodmoneying.Program.AnalysisStream

/-!
# Subscriptions of the live analysis stream

`useRealtimeAnalysis.ts` with the envelopes of `realtimeStream.ts`, for the time that one socket is
the current one, which is as long as an instrument is selected. The browser numbers its
subscriptions, matches the answers of the server with them in order, and applies messages once the
last one is accepted.

The server is what `stream_coin_analysis` is taken to be here: it answers every subscription in
order with a session, an error or a request for a snapshot, and sends data of the subscription
that it acknowledged last. Both directions of the socket keep the order.
-/

namespace Goodmoneying.Program

open Library

variable {β : Type}

/-! ## Envelopes -/

/-- `message_type` and what is read of the payload. -/
inductive StreamPayload (β : Type) where
  | subscribed (subscriptionId : String)
  | event (message : AnalysisMessage β)
  | heartbeat
  | snapshotRequired (message : Option String)
  | slowConsumer (message : Option String)
  | error (code message : String)
  deriving DecidableEq, Repr

/-- `RealtimeStreamEnvelope` -/
structure StreamEnvelope (β : Type) where
  topic : String
  scope : String
  sequence : ℤ
  payload : StreamPayload β
  deriving DecidableEq, Repr

/-- `RealtimeStreamTracker` -/
structure StreamTracker where
  lastSequenceByStream : String → Option ℤ
  pausedStreams : String → Bool

/-- `createRealtimeStreamTracker` -/
def createRealtimeStreamTracker : StreamTracker where
  lastSequenceByStream := fun _ => none
  pausedStreams := fun _ => false

/-- `pausedStreams.add` -/
def StreamTracker.pause (tracker : StreamTracker) (stream : String) : StreamTracker :=
  { tracker with
    pausedStreams := fun other => if other = stream then true else tracker.pausedStreams other }

/-- `lastSequenceByStream.set` -/
def StreamTracker.setLastSequence (tracker : StreamTracker) (stream : String) (sequence : ℤ) :
    StreamTracker :=
  { tracker with
    lastSequenceByStream := fun other =>
      if other = stream then some sequence else tracker.lastSequenceByStream other }

/-- `pausedStreams.delete` -/
def StreamTracker.resume (tracker : StreamTracker) (stream : String) : StreamTracker :=
  { tracker with
    pausedStreams := fun other => if other = stream then false else tracker.pausedStreams other }

/-- The stream that an envelope belongs to. -/
def StreamEnvelope.streamKey (envelope : StreamEnvelope β) : String :=
  envelope.topic ++ "\x00" ++ envelope.scope

/-- `AnalysisStreamConsumeResult` -/
inductive StreamConsumeResult (β : Type) where
  | message (message : AnalysisMessage β)
  | heartbeat
  | snapshotRequired (message : String)
  | ignored
  deriving DecidableEq, Repr

/-- `snapshotRequiredMessage` -/
def snapshotRequiredMessage (message : Option String) : String :=
  message.getD "실시간 스트림 복구가 필요합니다."

/-- `consumeRealtimeEnvelope` and, for the envelope of a session, the message that
`consumeAnalysisStreamMessage` makes of it. -/
def consumeAnalysisStreamMessage (tracker : StreamTracker) (envelope : StreamEnvelope β) :
    StreamTracker × StreamConsumeResult β :=
  let stream := envelope.streamKey
  let sequence := envelope.sequence
  match envelope.payload with
  | .subscribed subscriptionId =>
    ((tracker.resume stream).setLastSequence stream sequence, .message (.session subscriptionId))
  | payload =>
    if tracker.pausedStreams stream then
      (tracker, .snapshotRequired "실시간 스트림 누락 이후 REST snapshot 복구가 필요합니다.")
    else
      match payload with
      | .subscribed subscriptionId => (tracker, .message (.session subscriptionId))
      | .heartbeat =>
        match tracker.lastSequenceByStream stream with
        | some lastSequence =>
          if lastSequence < sequence then
            (tracker.pause stream, .snapshotRequired
              ("실시간 heartbeat가 미수신 sequence(" ++ toString lastSequence ++ " → " ++
                toString sequence ++ ")를 보고해 REST snapshot 복구가 필요합니다."))
          else (tracker, .heartbeat)
        | none => (tracker.setLastSequence stream sequence, .heartbeat)
      | .snapshotRequired message =>
        (tracker.pause stream, .snapshotRequired (snapshotRequiredMessage message))
      | .slowConsumer message =>
        (tracker.pause stream, .snapshotRequired (snapshotRequiredMessage message))
      | .error code message => (tracker, .message (.error code message))
      | .event message =>
        match tracker.lastSequenceByStream stream with
        | some lastSequence =>
          if sequence ≤ lastSequence then (tracker, .ignored)
          else if sequence ≠ lastSequence + 1 then
            (tracker.pause stream, .snapshotRequired
              ("실시간 스트림 sequence gap(" ++ toString lastSequence ++ " → " ++
                toString sequence ++ ")이 감지되어 REST snapshot 복구가 필요합니다."))
          else (tracker.setLastSequence stream sequence, .message message)
        | none => (tracker.setLastSequence stream sequence, .message message)

/-! ## The gate -/

/-- What a subscription is sent for. -/
inductive SubscriptionPurpose where
  | normal
  | recovery
  deriving DecidableEq, Repr

/-- `SubscriptionGate` of the socket. -/
structure SubscriptionGate where
  nextGeneration : ℕ
  currentGeneration : ℕ
  acceptedGeneration : Option ℕ
  pendingGenerations : List (ℕ × SubscriptionPurpose)
  deriving DecidableEq, Repr

/-- `createSubscriptionGate` -/
def createSubscriptionGate : SubscriptionGate := ⟨0, 0, none, []⟩

/-- `recordSubscriptionGeneration` -/
def recordSubscriptionGeneration (gate : SubscriptionGate) (purpose : SubscriptionPurpose) :
    SubscriptionGate where
  nextGeneration := gate.nextGeneration + 1
  currentGeneration := gate.nextGeneration + 1
  acceptedGeneration := none
  pendingGenerations := gate.pendingGenerations ++ [(gate.nextGeneration + 1, purpose)]

/-- `acceptSubscriptionGeneration` -/
def acceptSubscriptionGeneration (gate : SubscriptionGate) :
    SubscriptionGate × Option SubscriptionPurpose :=
  match gate.pendingGenerations with
  | [] => (gate, none)
  | (generation, purpose) :: pending =>
    let gate := { gate with pendingGenerations := pending }
    if generation ≠ gate.currentGeneration then (gate, none)
    else ({ gate with acceptedGeneration := some generation }, some purpose)

/-- `hasPendingGeneration` -/
def hasPendingGeneration (gate : SubscriptionGate) : Bool := !gate.pendingGenerations.isEmpty

/-- `rejectSubscriptionGeneration` -/
def rejectSubscriptionGeneration (gate : SubscriptionGate) : SubscriptionGate × Bool :=
  match gate.pendingGenerations with
  | [] => (gate, false)
  | (generation, _) :: pending =>
    ({ gate with pendingGenerations := pending }, generation = gate.currentGeneration)

/-- `isCurrentGenerationAccepted` -/
def isCurrentGenerationAccepted (gate : SubscriptionGate) : Bool :=
  0 < gate.currentGeneration ∧ gate.acceptedGeneration = some gate.currentGeneration

/-! ## The browser -/

/-- `AnalysisUnit` -/
inductive AnalysisUnit where
  | m1 | m3 | m5 | m10 | m15 | m30 | h1 | h4 | d1 | w1 | month1
  deriving DecidableEq, Repr

/-- The text of a unit. -/
def AnalysisUnit.text : AnalysisUnit → String
  | .m1 => "1m"
  | .m3 => "3m"
  | .m5 => "5m"
  | .m10 => "10m"
  | .m15 => "15m"
  | .m30 => "30m"
  | .h1 => "1h"
  | .h4 => "4h"
  | .d1 => "1d"
  | .w1 => "1w"
  | .month1 => "1M"

/-- What is subscribed to. -/
structure Subscription where
  instrumentId : ℕ
  unit : AnalysisUnit
  rangeDays : ℕ
  deriving DecidableEq, Repr

/-- What `sendSubscription` sends, topic and payload apart. -/
structure SubscribeMessage where
  subscription : Subscription
  resumeCursor : Option String
  deriving DecidableEq, Repr

/-- `recoveryKey`. -/
def Subscription.recoveryKey (subscription : Subscription) : String :=
  toString subscription.instrumentId ++ ":" ++ subscription.unit.text ++ ":" ++
    toString subscription.rangeDays

/-- The key of a message that is sent. -/
def SubscribeMessage.key (message : SubscribeMessage) : String :=
  message.subscription.recoveryKey ++ ":" ++ message.resumeCursor.getD ""

/-- `connectionStatus` -/
inductive ConnectionStatus where
  | connecting
  | live
  | offline
  deriving DecidableEq, Repr

/-- `streamRecoveryStatus` -/
inductive StreamRecoveryStatus where
  | ready
  | snapshotRequired
  deriving DecidableEq, Repr

/-- A recovery whose snapshot is being fetched. -/
structure Recovery where
  recoveryGeneration : ℕ
  subscription : Subscription
  deriving DecidableEq, Repr

/-- `AnalysisRecoverySnapshot`, as far as it is read. -/
structure AnalysisRecoverySnapshot (β : Type) where
  cursor : String
  payload : AnalysisSnapshot β
  deriving DecidableEq, Repr

/-- The refs and states of the hook. `effectPending` says that the selection was rendered and its
effect has not run. -/
structure AnalysisClient (β : Type) where
  selection : Subscription
  effectPending : Bool
  opened : Bool
  lastSentKey : Option String
  gate : SubscriptionGate
  tracker : StreamTracker
  recoveryGeneration : ℕ
  recoveries : List Recovery
  state : AnalysisState β
  connectionStatus : ConnectionStatus
  streamRecoveryStatus : StreamRecoveryStatus

/-- `connect`, with a socket that is not open yet. -/
def AnalysisClient.connect (selection : Subscription) (recoveryGeneration : ℕ)
    (state : AnalysisState β) (streamRecoveryStatus : StreamRecoveryStatus) :
    AnalysisClient β where
  selection := selection
  effectPending := false
  opened := false
  lastSentKey := none
  gate := createSubscriptionGate
  tracker := createRealtimeStreamTracker
  recoveryGeneration := recoveryGeneration
  recoveries := []
  state := state
  connectionStatus := .connecting
  streamRecoveryStatus := streamRecoveryStatus

/-- `sendSubscriptionIfChanged` and, where something was sent, `recordSubscriptionGeneration`. -/
def subscribe (client : AnalysisClient β) (message : SubscribeMessage)
    (purpose : SubscriptionPurpose) : AnalysisClient β × List SubscribeMessage :=
  if client.lastSentKey = some message.key then (client, [])
  else
    ({ client with
        lastSentKey := some message.key
        gate := recordSubscriptionGeneration client.gate purpose },
      [message])

/-- `socket.onopen` -/
def onopen (client : AnalysisClient β) : AnalysisClient β × List SubscribeMessage :=
  subscribe { client with opened := true } ⟨client.selection, none⟩ .normal

/-- The effect of a selection. -/
def selectionEffect (client : AnalysisClient β) : AnalysisClient β × List SubscribeMessage :=
  let client := { client with effectPending := false }
  if client.opened then subscribe client ⟨client.selection, none⟩ .normal
  else (client, [])

/-- `recoverFromSnapshotRequired` up to its `fetch`. -/
def startRecovery (client : AnalysisClient β) : AnalysisClient β :=
  { client with
    recoveryGeneration := client.recoveryGeneration + 1
    recoveries := client.recoveries ++ [⟨client.recoveryGeneration + 1, client.selection⟩] }

/-- `socket.onmessage`, with the message that it applied. -/
def onmessage (client : AnalysisClient β) (envelope : StreamEnvelope β) :
    AnalysisClient β × Option (AnalysisMessage β) :=
  let consumed := consumeAnalysisStreamMessage client.tracker envelope
  let client := { client with tracker := consumed.1 }
  match consumed.2 with
  | .heartbeat => ({ client with connectionStatus := .live }, none)
  | .ignored => ({ client with connectionStatus := .live }, none)
  | .snapshotRequired message =>
    (startRecovery
      { client with
        streamRecoveryStatus := .snapshotRequired
        connectionStatus := .live
        state := { client.state with error := some message } },
      none)
  | .message (.session _) =>
    let (gate, accepted) := acceptSubscriptionGeneration client.gate
    match accepted with
    | none => ({ client with gate := gate }, none)
    | some purpose =>
      ({ client with
          gate := gate
          state := if purpose = .normal then initialAnalysisState else client.state
          streamRecoveryStatus := .ready
          connectionStatus := .live },
        none)
  | .message message =>
    let apply (client : AnalysisClient β) : AnalysisClient β × Option (AnalysisMessage β) :=
      ({ client with
          connectionStatus := .live
          state := applyAnalysisMessage client.state message },
        some message)
    match message, hasPendingGeneration client.gate with
    | .error _ _, true =>
      let (gate, rejected) := rejectSubscriptionGeneration client.gate
      if rejected then apply { client with gate := gate }
      else ({ client with gate := gate }, none)
    | _, _ => if isCurrentGenerationAccepted client.gate then apply client else (client, none)

/-- The rest of `recoverFromSnapshotRequired`, with the snapshot. -/
def finishRecovery (client : AnalysisClient β) (recovery : Recovery)
    (snapshot : AnalysisRecoverySnapshot β) : AnalysisClient β × List SubscribeMessage :=
  if client.recoveryGeneration ≠ recovery.recoveryGeneration ∨
      client.selection.recoveryKey ≠ recovery.subscription.recoveryKey then (client, [])
  else
    let client := { client with
      state := {
        instrument := some snapshot.payload.instrument
        candles := snapshot.payload.candles
        indicators := snapshot.payload.indicatorPoints
        market := some snapshot.payload.market
        error := none }
      streamRecoveryStatus := .ready }
    let (client, sent) := subscribe client ⟨recovery.subscription, some snapshot.cursor⟩ .recovery
    ({ client with tracker := createRealtimeStreamTracker }, sent)

/-- The rest of `recoverFromSnapshotRequired` where the snapshot is refused or does not come;
`reason` stands in the message. -/
def failRecovery (client : AnalysisClient β) (reason : String) : AnalysisClient β :=
  { client with
    state := { client.state with error := some ("REST snapshot 복구 실패(" ++ reason ++ ")") } }

/-! ## The connection -/

/-- A message on its way to the browser. Answers and data have the number of the subscription they
belong to, which is one for the first that was sent. -/
inductive ServerMessage (β : Type) where
  | answer (number : ℕ) (envelope : StreamEnvelope β)
  | data (number : ℕ) (envelope : StreamEnvelope β)
  | control (envelope : StreamEnvelope β)
  deriving DecidableEq, Repr

def ServerMessage.envelope : ServerMessage β → StreamEnvelope β
  | .answer _ envelope => envelope
  | .data _ envelope => envelope
  | .control envelope => envelope

/-- The answers: a session, an error or a request for a snapshot. -/
inductive AnswerKind where
  | session
  | error
  | snapshotRequired
  deriving DecidableEq, Repr

/-- What an envelope is as an answer to a subscription. -/
def StreamPayload.answerKind : StreamPayload β → Option AnswerKind
  | .subscribed _ => some .session
  | .error _ _ => some .error
  | .snapshotRequired _ => some .snapshotRequired
  | _ => none

/-- An event that is data of a subscription. -/
def StreamPayload.isData : StreamPayload β → Bool
  | .event (.session _) => false
  | .event (.error _ _) => false
  | .event _ => true
  | _ => false

/-- What the server sends beside answers and data. -/
def StreamPayload.isControl : StreamPayload β → Bool
  | .heartbeat => true
  | .slowConsumer _ => true
  | _ => false

/-- Browser and server of one socket. `answered` and `acknowledged` are the server's: how many
subscriptions it has answered, and which one it acknowledged last. `arrived` and `lastAnswer` say
how many answers have come to the browser, and what the last one of them was. -/
structure AnalysisConnection (β : Type) where
  client : AnalysisClient β
  subscribes : List SubscribeMessage
  answered : ℕ
  acknowledged : Option ℕ
  toBrowser : List (ServerMessage β)
  arrived : ℕ
  lastAnswer : Option AnswerKind

/-- A socket that is not open yet. -/
def AnalysisConnection.connect (client : AnalysisClient β) : AnalysisConnection β where
  client := client
  subscribes := []
  answered := 0
  acknowledged := none
  toBrowser := []
  arrived := 0
  lastAnswer := none

/-- What can happen next. Recoveries are named by their place among those that were started. -/
inductive ConnectionAction (β : Type) where
  | socketOpens
  | select (subscription : Subscription)
  | effectRuns
  | recoverySucceeds (place : ℕ) (snapshot : AnalysisRecoverySnapshot β)
  | recoveryFails (place : ℕ) (reason : String)
  | serverAnswers (envelope : StreamEnvelope β)
  | serverSends (envelope : StreamEnvelope β)
  | browserReceives
  deriving DecidableEq, Repr

/-- The connection with what the browser did and sent. -/
def AnalysisConnection.afterSend (connection : AnalysisConnection β)
    (sent : AnalysisClient β × List SubscribeMessage) : AnalysisConnection β :=
  { connection with
    client := sent.1
    subscribes := connection.subscribes ++ sent.2 }

/-- The connection after the next message has come to the browser. -/
def AnalysisConnection.afterReceipt (connection : AnalysisConnection β)
    (message : ServerMessage β) (rest : List (ServerMessage β)) : AnalysisConnection β :=
  let connection := { connection with
    client := (onmessage connection.client message.envelope).1
    toBrowser := rest }
  match message with
  | .answer _ envelope =>
    { connection with
      arrived := connection.arrived + 1
      lastAnswer := envelope.payload.answerKind }
  | _ => connection

/-- One step of browser, server or network; none where the action is not possible. -/
def connectionStep (connection : AnalysisConnection β) :
    ConnectionAction β → Option (AnalysisConnection β)
  | .socketOpens =>
    if connection.client.opened then none
    else some (connection.afterSend (onopen connection.client))
  | .select subscription =>
    some { connection with
      client := { connection.client with
        selection := subscription
        effectPending :=
          connection.client.effectPending || connection.client.selection ≠ subscription } }
  | .effectRuns =>
    if connection.client.effectPending then
      some (connection.afterSend (selectionEffect connection.client))
    else none
  | .recoverySucceeds place snapshot =>
    match connection.client.recoveries[place]? with
    | some recovery =>
      some (connection.afterSend (finishRecovery
        { connection.client with recoveries := connection.client.recoveries.eraseIdx place }
        recovery snapshot))
    | none => none
  | .recoveryFails place reason =>
    match connection.client.recoveries[place]? with
    | some _ =>
      some { connection with
        client := failRecovery
          { connection.client with recoveries := connection.client.recoveries.eraseIdx place }
          reason }
    | none => none
  | .serverAnswers envelope =>
    match envelope.payload.answerKind with
    | some kind =>
      if connection.answered < connection.subscribes.length then
        some { connection with
          answered := connection.answered + 1
          acknowledged :=
            if kind = .session then some (connection.answered + 1) else connection.acknowledged
          toBrowser := connection.toBrowser ++ [.answer (connection.answered + 1) envelope] }
      else none
    | none => none
  | .serverSends envelope =>
    if envelope.payload.isControl then
      some { connection with toBrowser := connection.toBrowser ++ [.control envelope] }
    else
      match envelope.payload.isData, connection.acknowledged with
      | true, some number =>
        some { connection with toBrowser := connection.toBrowser ++ [.data number envelope] }
      | _, _ => none
  | .browserReceives =>
    match connection.toBrowser with
    | message :: rest => some (connection.afterReceipt message rest)
    | [] => none

/-- The states that steps lead to, where every step is one that `allowed` admits. -/
inductive ConnectionReaches (allowed : AnalysisConnection β → ConnectionAction β → Prop)
    (start : AnalysisConnection β) : AnalysisConnection β → Prop where
  | start : ConnectionReaches allowed start start
  | step {connection next : AnalysisConnection β} (action : ConnectionAction β)
      (hreach : ConnectionReaches allowed start connection)
      (hallowed : allowed connection action)
      (hstep : connectionStep connection action = some next) :
      ConnectionReaches allowed start next

/-- The connection after the actions, in their order. -/
def connectionRun (connection : AnalysisConnection β) :
    List (ConnectionAction β) → Option (AnalysisConnection β)
  | [] => some connection
  | action :: actions => (connectionStep connection action).bind fun next =>
      connectionRun next actions

end Goodmoneying.Program
