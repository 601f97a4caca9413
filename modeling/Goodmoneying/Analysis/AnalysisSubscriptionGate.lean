import Mathlib.Data.List.Range
import Mathlib.Order.Nat
import Goodmoneying.Program.AnalysisSubscription

/-!
# The gate of the live analysis stream

The browser takes a generation off its queue for a session and for an error, and none for a
request for a snapshot. It therefore never takes off more than have been answered: data is applied
for the last subscription only. Where every answer takes one off, the queue is where the answers
are, and the session that answers the last subscription opens the gate.
-/

namespace Goodmoneying.Analysis

open Library Program

variable {β : Type}
variable {gate : SubscriptionGate} {sent popped : ℕ} {heard : Option ℕ} {client : AnalysisClient β}
  {envelope : StreamEnvelope β} {rest : List (ServerMessage β)} {connection : AnalysisConnection β}
variable {subscriptionId : String} {acknowledged : Option ℕ} {arrived answered : ℕ}
  {messages : List (ServerMessage β)}

/-! ## Generations -/

/-- A gate with so many subscriptions sent and so many taken off its queue. -/
structure GateCounts (gate : SubscriptionGate) (sent popped : ℕ) : Prop where
  next : gate.nextGeneration = sent
  current : gate.currentGeneration = sent
  popped_le : popped ≤ sent
  pending : gate.pendingGenerations.map Prod.fst = List.range' (popped + 1) (sent - popped)

theorem GateCounts.record (h : GateCounts gate sent popped) (purpose : SubscriptionPurpose) :
    GateCounts (recordSubscriptionGeneration gate purpose) (sent + 1) popped where
  next := by simp [recordSubscriptionGeneration, h.next]
  current := by simp [recordSubscriptionGeneration, h.next]
  popped_le := Nat.le_succ_of_le h.popped_le
  pending := by
    have hle := h.popped_le
    rw [recordSubscriptionGeneration, List.map_append, h.pending, h.next,
      show sent + 1 - popped = (sent - popped) + 1 by omega, List.range'_concat]
    simp
    omega

/-- The next generation of the queue, where one is left. -/
theorem GateCounts.pending_cons (h : GateCounts gate sent popped) (hlt : popped < sent) :
    ∃ purpose pending, gate.pendingGenerations = (popped + 1, purpose) :: pending ∧
      pending.map Prod.fst = List.range' (popped + 2) (sent - (popped + 1)) := by
  have hpending := h.pending
  rw [show sent - popped = (sent - (popped + 1)) + 1 by omega, List.range'_succ] at hpending
  obtain ⟨⟨generation, purpose⟩, pending, heq, hfirst, hrest⟩ := List.map_eq_cons_iff.mp hpending
  obtain rfl : generation = popped + 1 := hfirst
  exact ⟨purpose, pending, heq, hrest⟩

/-- A session takes one generation off, and accepts it where it is the current one. -/
theorem GateCounts.accept (h : GateCounts gate sent popped) (hlt : popped < sent) :
    GateCounts (acceptSubscriptionGeneration gate).1 sent (popped + 1) ∧
      (acceptSubscriptionGeneration gate).1.acceptedGeneration =
        if popped + 1 = sent then some sent else gate.acceptedGeneration := by
  obtain ⟨purpose, pending, hcons, hrest⟩ := h.pending_cons hlt
  have haccept : acceptSubscriptionGeneration gate =
      if popped + 1 ≠ gate.currentGeneration then
        ({ gate with pendingGenerations := pending }, none)
      else
        ({ gate with
            pendingGenerations := pending
            acceptedGeneration := some (popped + 1) }, some purpose) := by
    simp only [acceptSubscriptionGeneration, hcons]
  rw [haccept]
  by_cases hlast : popped + 1 = sent
  · rw [if_neg (by simp [h.current, hlast]), if_pos hlast]
    exact ⟨⟨h.next, h.current, hlt, hrest⟩, by rw [hlast]⟩
  · rw [if_pos (by simp [h.current, hlast]), if_neg hlast]
    exact ⟨⟨h.next, h.current, hlt, hrest⟩, rfl⟩

/-- An error takes one generation off. -/
theorem GateCounts.reject (h : GateCounts gate sent popped) (hlt : popped < sent) :
    GateCounts (rejectSubscriptionGeneration gate).1 sent (popped + 1) ∧
      (rejectSubscriptionGeneration gate).1.acceptedGeneration = gate.acceptedGeneration := by
  obtain ⟨purpose, pending, hcons, hrest⟩ := h.pending_cons hlt
  unfold rejectSubscriptionGeneration
  rw [hcons]
  exact ⟨⟨h.next, h.current, hlt, hrest⟩, rfl⟩

/-! ## What a message does to the gate -/

section Messages

variable (client : AnalysisClient β) (envelope : StreamEnvelope β)
variable {message : AnalysisMessage β} {code : String}

/-- What the tracker does not pass on leaves the gate, and is not applied. -/
theorem onmessage_of_not_message
    (h : ∀ message, (consumeAnalysisStreamMessage client.tracker envelope).2 ≠ .message message) :
    (onmessage client envelope).1.gate = client.gate ∧ (onmessage client envelope).2 = none := by
  cases hconsumed : (consumeAnalysisStreamMessage client.tracker envelope).2 with
  | heartbeat => simp [onmessage, hconsumed]
  | ignored => simp [onmessage, hconsumed]
  | snapshotRequired => simp [onmessage, hconsumed, startRecovery]
  | message message => exact absurd hconsumed (h message)

/-- Data that the tracker passes on is applied where the gate is open. -/
theorem onmessage_of_data (hdata : (StreamPayload.event message).isData = true)
    (h : (consumeAnalysisStreamMessage client.tracker envelope).2 = .message message) :
    (onmessage client envelope).1.gate = client.gate ∧
      (onmessage client envelope).1.state =
        (if isCurrentGenerationAccepted client.gate then
          applyAnalysisMessage client.state message else client.state) ∧
      (onmessage client envelope).2 =
        if isCurrentGenerationAccepted client.gate then some message else none := by
  unfold onmessage
  simp only [h]
  cases message with
  | session => simp [StreamPayload.isData] at hdata
  | error => simp [StreamPayload.isData] at hdata
  | _ =>
    dsimp only
    split_ifs
    · exact ⟨rfl, rfl, rfl⟩
    · exact ⟨rfl, rfl, rfl⟩

/-- The tracker passes the message of an event on or keeps it. -/
theorem consume_event {other : AnalysisMessage β} (hpayload : envelope.payload = .event message)
    (h : (consumeAnalysisStreamMessage client.tracker envelope).2 = .message other) :
    other = message := by
  unfold consumeAnalysisStreamMessage at h
  rw [hpayload] at h
  dsimp only at h
  split_ifs at h
  · split at h
    · split_ifs at h
      · exact (StreamConsumeResult.message.inj h).symm
    · exact (StreamConsumeResult.message.inj h).symm

theorem consume_control (hcontrol : envelope.payload.isControl = true)
    (message : AnalysisMessage β) :
    (consumeAnalysisStreamMessage client.tracker envelope).2 ≠ .message message := by
  unfold consumeAnalysisStreamMessage
  cases hpayload : envelope.payload with
  | heartbeat =>
    dsimp only
    split_ifs
    · simp
    · split
      · split_ifs <;> simp
      · simp
  | slowConsumer =>
    dsimp only
    split_ifs <;> simp
  | _ => simp [hpayload, StreamPayload.isControl] at hcontrol

/-- Data leaves the gate, and where it is applied the gate is open. -/
theorem onmessage_data (hdata : envelope.payload.isData = true) :
    (onmessage client envelope).1.gate = client.gate ∧
      ((onmessage client envelope).2 ≠ none → isCurrentGenerationAccepted client.gate = true) := by
  obtain ⟨message, hpayload⟩ : ∃ message, envelope.payload = .event message := by
    cases hpayload : envelope.payload with
    | event message => exact ⟨message, rfl⟩
    | _ => simp [hpayload, StreamPayload.isData] at hdata
  by_cases hmessage :
      (consumeAnalysisStreamMessage client.tracker envelope).2 = .message message
  · have hdone := onmessage_of_data client envelope (hpayload ▸ hdata) hmessage
    refine ⟨hdone.1, fun happlied => ?_⟩
    rw [hdone.2.2] at happlied
    by_contra hclosed
    exact happlied (if_neg hclosed)
  · have hkept := onmessage_of_not_message client envelope fun other hother =>
      hmessage (consume_event client envelope hpayload hother ▸ hother)
    exact ⟨hkept.1, fun happlied => absurd hkept.2 happlied⟩

theorem onmessage_subscribed (h : envelope.payload = .subscribed subscriptionId) :
    (onmessage client envelope).1.gate = (acceptSubscriptionGeneration client.gate).1 := by
  unfold onmessage consumeAnalysisStreamMessage
  rw [h]
  dsimp only
  cases (acceptSubscriptionGeneration client.gate).2 <;> rfl

theorem onmessage_snapshotRequired {message : Option String}
    (h : envelope.payload = .snapshotRequired message) :
    (onmessage client envelope).1.gate = client.gate := by
  refine (onmessage_of_not_message client envelope fun other => ?_).1
  unfold consumeAnalysisStreamMessage
  rw [h]
  dsimp only
  split_ifs <;> simp

/-- An error is not seen as such while its stream is paused. -/
theorem onmessage_error_paused {message : String} (h : envelope.payload = .error code message)
    (hpaused : client.tracker.pausedStreams envelope.streamKey = true) :
    (onmessage client envelope).1.gate = client.gate := by
  refine (onmessage_of_not_message client envelope fun other => ?_).1
  unfold consumeAnalysisStreamMessage
  rw [h]
  dsimp only
  rw [if_pos hpaused]
  simp

theorem onmessage_error {message : String} (h : envelope.payload = .error code message)
    (hpaused : client.tracker.pausedStreams envelope.streamKey = false) :
    (onmessage client envelope).1.gate = (rejectSubscriptionGeneration client.gate).1 := by
  have hconsumed : consumeAnalysisStreamMessage client.tracker envelope =
      (client.tracker, .message (.error code message)) := by
    unfold consumeAnalysisStreamMessage
    rw [h]
    dsimp only
    rw [if_neg (by simp [hpaused])]
  unfold onmessage
  rw [hconsumed]
  dsimp only
  cases hpending : client.gate.pendingGenerations with
  | nil =>
    simp only [hasPendingGeneration, rejectSubscriptionGeneration, hpending, List.isEmpty_nil,
      Bool.not_true]
    split_ifs <;> rfl
  | cons first pending =>
    simp only [hasPendingGeneration, rejectSubscriptionGeneration, hpending, List.isEmpty_cons,
      Bool.not_false]
    split_ifs <;> rfl

end Messages

/-! ## Messages on their way -/

/-- The messages on their way to a browser to which so many answers have come, and which has heard
the subscription `heard` acknowledged last, are those of a server that has given `answered` answers
and acknowledged `acknowledged` last. -/
inductive InOrder : Option ℕ → ℕ → List (ServerMessage β) → Option ℕ → ℕ → Prop where
  | nil {heard : Option ℕ} {arrived : ℕ} : InOrder heard arrived [] heard arrived
  | answer {heard acknowledged : Option ℕ} {arrived answered : ℕ} {envelope : StreamEnvelope β}
      {kind : AnswerKind} {rest : List (ServerMessage β)}
      (hkind : envelope.payload.answerKind = some kind)
      (hrest : InOrder (if kind = .session then some (arrived + 1) else heard) (arrived + 1) rest
        acknowledged answered) :
      InOrder heard arrived (.answer (arrived + 1) envelope :: rest) acknowledged answered
  | data {acknowledged : Option ℕ} {number arrived answered : ℕ} {envelope : StreamEnvelope β}
      {rest : List (ServerMessage β)} (hdata : envelope.payload.isData = true)
      (hrest : InOrder (some number) arrived rest acknowledged answered) :
      InOrder (some number) arrived (.data number envelope :: rest) acknowledged answered
  | control {heard acknowledged : Option ℕ} {arrived answered : ℕ} {envelope : StreamEnvelope β}
      {rest : List (ServerMessage β)} (hcontrol : envelope.payload.isControl = true)
      (hrest : InOrder heard arrived rest acknowledged answered) :
      InOrder heard arrived (.control envelope :: rest) acknowledged answered

theorem InOrder.append {between : Option ℕ} {middle : ℕ} {later : List (ServerMessage β)}
    (h : InOrder heard arrived messages between middle)
    (hlater : InOrder between middle later acknowledged answered) :
    InOrder heard arrived (messages ++ later) acknowledged answered := by
  induction h with
  | nil => exact hlater
  | answer hkind _ ih => exact .answer hkind (ih hlater)
  | data hdata _ ih => exact .data hdata (ih hlater)
  | control hcontrol _ ih => exact .control hcontrol (ih hlater)

theorem InOrder.arrived_le (h : InOrder heard arrived messages acknowledged answered) :
    arrived ≤ answered := by
  induction h with
  | nil => exact le_rfl
  | answer _ _ ih => omega
  | data _ _ ih => exact ih
  | control _ _ ih => exact ih

/-! ## The invariant -/

/-- So many generations were taken off the queue, and the subscription `heard` was acknowledged
last of those whose answer has come. -/
structure GateInvariant (connection : AnalysisConnection β) (popped : ℕ) (heard : Option ℕ) :
    Prop where
  counts : GateCounts connection.client.gate connection.subscribes.length popped
  popped_le : popped ≤ connection.arrived
  order : InOrder heard connection.arrived connection.toBrowser connection.acknowledged
    connection.answered
  answered_le : connection.answered ≤ connection.subscribes.length
  arrived_pos : connection.lastAnswer ≠ none → 0 < connection.arrived
  -- an open gate is that of the last subscription
  safe : connection.client.gate.acceptedGeneration = some connection.subscribes.length →
    heard = some connection.subscribes.length ∧
      connection.arrived = connection.subscribes.length
  -- the gate is open after the last answer, where every answer took a generation off
  live : popped = connection.arrived → connection.lastAnswer = some .session →
    connection.arrived = connection.subscribes.length →
      connection.client.gate.acceptedGeneration = some connection.subscribes.length

/-- What the browser may do to its gate on its own: nothing, or record what it sent. -/
def SendsOneOrNone (client : AnalysisClient β)
    (sent : AnalysisClient β × List SubscribeMessage) : Prop :=
  sent.1.gate = client.gate ∧ sent.2 = [] ∨
    ∃ purpose message, sent.1.gate = recordSubscriptionGeneration client.gate purpose ∧
      sent.2 = [message]

theorem subscribe_sends (client : AnalysisClient β) (message : SubscribeMessage)
    (purpose : SubscriptionPurpose) : SendsOneOrNone client (subscribe client message purpose) := by
  unfold subscribe
  split_ifs
  · exact Or.inl ⟨rfl, rfl⟩
  · exact Or.inr ⟨purpose, message, rfl, rfl⟩

theorem onopen_sends (client : AnalysisClient β) : SendsOneOrNone client (onopen client) :=
  subscribe_sends { client with opened := true } _ _

theorem selectionEffect_sends (client : AnalysisClient β) :
    SendsOneOrNone client (selectionEffect client) := by
  unfold selectionEffect
  dsimp only
  split_ifs
  · exact subscribe_sends { client with effectPending := false } _ _
  · exact Or.inl ⟨rfl, rfl⟩

theorem finishRecovery_sends (client : AnalysisClient β) (recovery : Recovery)
    (snapshot : AnalysisRecoverySnapshot β) :
    SendsOneOrNone client (finishRecovery client recovery snapshot) := by
  unfold finishRecovery
  split_ifs
  · exact Or.inl ⟨rfl, rfl⟩
  · dsimp only
    rcases subscribe_sends { client with
        state := {
          instrument := some snapshot.payload.instrument
          candles := snapshot.payload.candles
          indicators := snapshot.payload.indicatorPoints
          market := some snapshot.payload.market
          error := none }
        streamRecoveryStatus := .ready }
      ⟨recovery.subscription, some snapshot.cursor⟩ .recovery with
      ⟨hgate, hsent⟩ | ⟨purpose, message, hgate, hsent⟩
    · exact Or.inl ⟨hgate, hsent⟩
    · exact Or.inr ⟨purpose, message, hgate, hsent⟩

namespace GateInvariant

variable {connection : AnalysisConnection β} {popped : ℕ} {heard : Option ℕ}

/-- The browser did something to its client other than its gate. -/
theorem of_client (h : GateInvariant connection popped heard)
    (hgate : client.gate = connection.client.gate) :
    GateInvariant { connection with client := client } popped heard where
  counts := by rw [hgate]; exact h.counts
  popped_le := h.popped_le
  order := h.order
  answered_le := h.answered_le
  arrived_pos := h.arrived_pos
  safe := by rw [hgate]; exact h.safe
  live := by rw [hgate]; exact h.live

/-- Recording a subscription closes the gate. -/
theorem afterSend (h : GateInvariant connection popped heard)
    {sent : AnalysisClient β × List SubscribeMessage}
    (hsends : SendsOneOrNone connection.client sent) :
    GateInvariant (connection.afterSend sent) popped heard := by
  rcases hsends with ⟨hgate, hsent⟩ | ⟨purpose, message, hgate, hsent⟩
  · have hsame : connection.afterSend sent = { connection with client := sent.1 } := by
      simp [AnalysisConnection.afterSend, hsent]
    rw [hsame]
    exact h.of_client hgate
  · have hlength : (connection.afterSend sent).subscribes.length =
        connection.subscribes.length + 1 := by
      simp [AnalysisConnection.afterSend, hsent]
    have harrived : connection.arrived ≤ connection.subscribes.length :=
      h.order.arrived_le.trans h.answered_le
    refine ⟨?_, h.popped_le, h.order, ?_, h.arrived_pos, ?_, ?_⟩
    · rw [hlength]
      exact hgate ▸ h.counts.record purpose
    · rw [hlength]
      exact Nat.le_succ_of_le h.answered_le
    · intro haccepted
      have hclosed : (connection.afterSend sent).client.gate.acceptedGeneration = none := by
        simp [AnalysisConnection.afterSend, hgate, recordSubscriptionGeneration]
      rw [hclosed] at haccepted
      cases haccepted
    · intro _ _ hall
      rw [hlength] at hall
      have : connection.arrived = connection.subscribes.length + 1 := hall
      omega

/-- An answer other than a session leaves a closed gate closed. -/
theorem afterReceipt_closed (h : GateInvariant connection popped heard) {kind : AnswerKind}
    {taken : ℕ} (hkind : envelope.payload.answerKind = some kind) (hsession : kind ≠ .session)
    (horder : InOrder heard (connection.arrived + 1) rest connection.acknowledged
      connection.answered) (hcounts : GateCounts (onmessage connection.client envelope).1.gate
      connection.subscribes.length taken) (htaken : taken ≤ connection.arrived + 1) (haccepted :
      (onmessage connection.client envelope).1.gate.acceptedGeneration =
      connection.client.gate.acceptedGeneration) :
    GateInvariant (connection.afterReceipt (.answer (connection.arrived + 1) envelope) rest) taken
      heard where
  counts := hcounts
  popped_le := htaken
  order := horder
  answered_le := h.answered_le
  arrived_pos := fun _ => Nat.succ_pos _
  safe := by
    intro hopen
    have hbefore := h.safe (haccepted.symm.trans hopen)
    have hlater := horder.arrived_le.trans h.answered_le
    omega
  live := by
    intro _ hlast
    exact absurd (Option.some.inj (hkind.symm.trans hlast)) hsession

/-- The session of an answer opens the gate where it takes off the last generation. -/
theorem afterReceipt_session (h : GateInvariant connection popped heard)
    (hpayload : envelope.payload = .subscribed subscriptionId) (horder : InOrder (some
      (connection.arrived + 1)) (connection.arrived + 1) rest connection.acknowledged
      connection.answered) :
    GateInvariant (connection.afterReceipt (.answer (connection.arrived + 1) envelope) rest)
      (popped + 1) (some (connection.arrived + 1)) := by
  have harrived : connection.arrived < connection.subscribes.length :=
    horder.arrived_le.trans h.answered_le
  have hpopped := h.popped_le
  obtain ⟨hcounts, haccepted⟩ := h.counts.accept (hpopped.trans_lt harrived)
  rw [← onmessage_subscribed connection.client envelope hpayload] at hcounts haccepted
  refine ⟨hcounts, Nat.succ_le_succ hpopped, horder, h.answered_le, fun _ => Nat.succ_pos _,
    ?_, ?_⟩
  · intro hopen
    change (onmessage connection.client envelope).1.gate.acceptedGeneration =
      some connection.subscribes.length at hopen
    change some (connection.arrived + 1) = some connection.subscribes.length ∧
      connection.arrived + 1 = connection.subscribes.length
    have hlast : connection.arrived + 1 = connection.subscribes.length := by
      rw [haccepted] at hopen
      split_ifs at hopen with hcurrent
      · omega
      · have := (h.safe hopen).2
        omega
    exact ⟨by rw [hlast], hlast⟩
  · intro hall _ hlast
    change popped + 1 = connection.arrived + 1 at hall
    change connection.arrived + 1 = connection.subscribes.length at hlast
    change (onmessage connection.client envelope).1.gate.acceptedGeneration = _
    rw [haccepted, if_pos (by omega)]
    rfl

end GateInvariant

/-- The answers that take a generation off the queue of the browser: not the request for a
snapshot, and not an error that comes while its stream is paused in the browser's tracker. -/
def takesGeneration (client : AnalysisClient β) (envelope : StreamEnvelope β) : Bool :=
  match envelope.payload with
  | .snapshotRequired _ => false
  | .error _ _ => !client.tracker.pausedStreams envelope.streamKey
  | _ => true

/-- The browser takes the answer to its oldest open subscription. -/
theorem GateInvariant.afterAnswer {number : ℕ} (h : GateInvariant connection popped heard)
    (hbrowser : connection.toBrowser = .answer number envelope :: rest) : ∃ taken heard',
      GateInvariant (connection.afterReceipt (.answer number envelope) rest) taken heard' ∧
        (takesGeneration connection.client envelope = true → popped = connection.arrived →
          taken = connection.arrived + 1) := by
  have horder := h.order
  rw [hbrowser] at horder
  obtain _ | ⟨hkind, hrest⟩ := horder
  have harrived : connection.arrived < connection.subscribes.length :=
    hrest.arrived_le.trans h.answered_le
  have hpopped := h.popped_le
  unfold takesGeneration
  cases hpayload : envelope.payload with
  | subscribed subscriptionId =>
    rw [hpayload] at hkind
    obtain rfl := Option.some.inj hkind
    exact ⟨popped + 1, _, h.afterReceipt_session hpayload hrest, fun _ heq => by rw [heq]⟩
  | snapshotRequired message =>
    have hgate := onmessage_snapshotRequired connection.client envelope hpayload
    obtain rfl : _ = AnswerKind.snapshotRequired := by
      simpa [hpayload, StreamPayload.answerKind, eq_comm] using hkind
    exact ⟨popped, heard, h.afterReceipt_closed hkind (by simp) hrest (hgate ▸ h.counts)
      (by omega) (by rw [hgate]), by simp⟩
  | error code message =>
    obtain rfl : _ = AnswerKind.error := by
      simpa [hpayload, StreamPayload.answerKind, eq_comm] using hkind
    cases hpaused : connection.client.tracker.pausedStreams envelope.streamKey with
    | true =>
      have hgate := onmessage_error_paused connection.client envelope hpayload hpaused
      exact ⟨popped, heard, h.afterReceipt_closed hkind (by simp) hrest (hgate ▸ h.counts)
        (by omega) (by rw [hgate]), by simp⟩
    | false =>
      have hgate := onmessage_error connection.client envelope hpayload hpaused
      obtain ⟨hcounts, haccepted⟩ := h.counts.reject (hpopped.trans_lt harrived)
      exact ⟨popped + 1, heard, h.afterReceipt_closed hkind (by simp) hrest (hgate ▸ hcounts)
        (by omega) (by rw [hgate, haccepted]), fun _ heq => by rw [heq]⟩
  | event => simp [hpayload, StreamPayload.answerKind] at hkind
  | heartbeat => simp [hpayload, StreamPayload.answerKind] at hkind
  | slowConsumer => simp [hpayload, StreamPayload.answerKind] at hkind

/-- The answer that the browser receives in a step, if it receives one, takes a generation off. -/
def AnswersTakeGeneration (connection : AnalysisConnection β) (action : ConnectionAction β) :
    Prop :=
  action = .browserReceives → ∀ number envelope rest,
    connection.toBrowser = .answer number envelope :: rest →
      takesGeneration connection.client envelope = true

/-! ## Steps and runs -/

/-- Data and control messages leave the gate and what has been answered. -/
theorem GateInvariant.afterOther (h : GateInvariant connection popped heard)
    {message : ServerMessage β} (hbrowser : connection.toBrowser = message :: rest)
    (hmessage : ∀ number envelope, message ≠ .answer number envelope) :
    GateInvariant (connection.afterReceipt message rest) popped heard ∧
      (connection.afterReceipt message rest).arrived = connection.arrived := by
  have horder := h.order
  rw [hbrowser] at horder
  have hother : ∀ envelope : StreamEnvelope β,
      (envelope.payload.isData = true ∨ envelope.payload.isControl = true) →
        (onmessage connection.client envelope).1.gate = connection.client.gate := by
    rintro envelope (hdata | hcontrol)
    · exact (onmessage_data connection.client envelope hdata).1
    · exact (onmessage_of_not_message connection.client envelope
        (consume_control connection.client envelope hcontrol)).1
  cases message with
  | answer number envelope => exact absurd rfl (hmessage number envelope)
  | data number envelope =>
    obtain _ | _ | ⟨hdata, hrest⟩ := horder
    have hgate := hother envelope (Or.inl hdata)
    exact ⟨⟨hgate ▸ h.counts, h.popped_le, hrest, h.answered_le, h.arrived_pos, hgate ▸ h.safe,
      hgate ▸ h.live⟩, rfl⟩
  | control envelope =>
    obtain _ | _ | _ | ⟨hcontrol, hrest⟩ := horder
    have hgate := hother envelope (Or.inr hcontrol)
    exact ⟨⟨hgate ▸ h.counts, h.popped_le, hrest, h.answered_le, h.arrived_pos, hgate ▸ h.safe,
      hgate ▸ h.live⟩, rfl⟩

/-- One step keeps the invariant; the queue is where the answers are if the step takes a
generation off for its answer. -/
theorem GateInvariant.step {next : AnalysisConnection β} {action : ConnectionAction β}
    (h : GateInvariant connection popped heard)
    (hstep : connectionStep connection action = some next) :
    ∃ taken heard', GateInvariant next taken heard' ∧
      (AnswersTakeGeneration connection action → popped = connection.arrived →
        taken = next.arrived) := by
  cases action with
  | socketOpens =>
    simp only [connectionStep] at hstep
    split_ifs at hstep
    obtain rfl := Option.some.inj hstep
    exact ⟨popped, heard, h.afterSend (onopen_sends _), fun _ heq => heq⟩
  | select subscription =>
    obtain rfl := Option.some.inj hstep
    exact ⟨popped, heard, h.of_client rfl, fun _ heq => heq⟩
  | effectRuns =>
    simp only [connectionStep] at hstep
    split_ifs at hstep
    obtain rfl := Option.some.inj hstep
    exact ⟨popped, heard, h.afterSend (selectionEffect_sends _), fun _ heq => heq⟩
  | recoverySucceeds place snapshot =>
    simp only [connectionStep] at hstep
    split at hstep
    · obtain rfl := Option.some.inj hstep
      exact ⟨popped, heard, h.afterSend (finishRecovery_sends
        { connection.client with
          recoveries := connection.client.recoveries.eraseIdx place } _ _), fun _ heq => heq⟩
    · cases hstep
  | recoveryFails place reason =>
    simp only [connectionStep] at hstep
    split at hstep
    · obtain rfl := Option.some.inj hstep
      exact ⟨popped, heard, h.of_client rfl, fun _ heq => heq⟩
    · cases hstep
  | serverAnswers envelope =>
    simp only [connectionStep] at hstep
    split at hstep
    · next kind hkind =>
      by_cases hlt : connection.answered < connection.subscribes.length
      · rw [if_pos hlt] at hstep
        obtain rfl := Option.some.inj hstep
        exact ⟨popped, heard, ⟨h.counts, h.popped_le, h.order.append (.answer hkind .nil), hlt,
          h.arrived_pos, h.safe, h.live⟩, fun _ heq => heq⟩
      · rw [if_neg hlt] at hstep
        cases hstep
    · cases hstep
  | serverSends envelope =>
    simp only [connectionStep] at hstep
    split_ifs at hstep with hcontrol
    · obtain rfl := Option.some.inj hstep
      exact ⟨popped, heard, ⟨h.counts, h.popped_le, h.order.append (.control hcontrol .nil),
        h.answered_le, h.arrived_pos, h.safe, h.live⟩, fun _ heq => heq⟩
    · split at hstep
      · next number hdata hnumber =>
        obtain rfl := Option.some.inj hstep
        have horder := h.order
        rw [hnumber] at horder
        refine ⟨popped, heard, ⟨h.counts, h.popped_le, ?_, h.answered_le, h.arrived_pos, h.safe,
          h.live⟩, fun _ heq => heq⟩
        rw [hnumber]
        exact horder.append (.data hdata .nil)
      · cases hstep
  | browserReceives =>
    simp only [connectionStep] at hstep
    split at hstep
    · next message rest hbrowser =>
      obtain rfl := Option.some.inj hstep
      cases message with
      | answer number envelope =>
        obtain ⟨taken, heard', hafter, htaken⟩ := h.afterAnswer hbrowser
        exact ⟨taken, heard', hafter, fun htakes heq =>
          htaken (htakes rfl number envelope rest hbrowser) heq⟩
      | data number envelope =>
        obtain ⟨hafter, harrived⟩ := h.afterOther hbrowser (by simp)
        exact ⟨popped, heard, hafter, fun _ heq => heq.trans harrived.symm⟩
      | control envelope =>
        obtain ⟨hafter, harrived⟩ := h.afterOther hbrowser (by simp)
        exact ⟨popped, heard, hafter, fun _ heq => heq.trans harrived.symm⟩
    · cases hstep

/-- A connection that has just been made. -/
theorem gateInvariant_connect (hgate : client.gate = createSubscriptionGate) :
    GateInvariant (.connect client) 0 none where
  counts := by
    rw [show (AnalysisConnection.connect client).client.gate = createSubscriptionGate from hgate]
    exact ⟨rfl, rfl, le_rfl, rfl⟩
  popped_le := le_rfl
  order := .nil
  answered_le := le_rfl
  arrived_pos := fun hlast => absurd rfl hlast
  safe := by
    rw [show (AnalysisConnection.connect client).client.gate = createSubscriptionGate from hgate]
    intro hopen
    cases hopen
  live := by
    intro _ hlast
    cases hlast

/-- Every state that steps lead to satisfies the invariant, and the queue is where the answers are
if every step took a generation off for its answer. -/
theorem gateInvariant_of_reaches {allowed : AnalysisConnection β → ConnectionAction β → Prop}
    (hgate : client.gate = createSubscriptionGate)
    (h : ConnectionReaches allowed (.connect client) connection) :
    ∃ popped heard, GateInvariant connection popped heard ∧
      ((∀ connection action, allowed connection action →
        AnswersTakeGeneration connection action) → popped = connection.arrived) := by
  induction h with
  | start => exact ⟨0, none, gateInvariant_connect hgate, fun _ => rfl⟩
  | step action _ hallowed hstep ih =>
    obtain ⟨popped, heard, hinvariant, harrived⟩ := ih
    obtain ⟨taken, heard', hnext, htaken⟩ := hinvariant.step hstep
    exact ⟨taken, heard', hnext, fun hall => htaken (hall _ _ hallowed) (harrived hall)⟩

/-! ## The two properties -/

/-- Data that is applied belongs to the subscription that the browser sent last. -/
def AppliesLastOnly (connection : AnalysisConnection β) : Prop :=
  ∀ number envelope rest, connection.toBrowser = .data number envelope :: rest →
    (onmessage connection.client envelope).2 ≠ none → number = connection.subscribes.length

/-- Once every subscription is answered and the last answer was a session, the gate is open, and
the data that the tracker passes on is applied. -/
def FollowsAcknowledged (connection : AnalysisConnection β) : Prop :=
  connection.arrived = connection.subscribes.length → connection.lastAnswer = some .session →
    connection.client.gate.acceptedGeneration = some connection.client.gate.currentGeneration ∧
      ∀ number envelope rest message, connection.toBrowser = .data number envelope :: rest →
        (consumeAnalysisStreamMessage connection.client.tracker envelope).2 = .message message →
          (onmessage connection.client envelope).2 = some message ∧
            (onmessage connection.client envelope).1.state =
              applyAnalysisMessage connection.client.state message

theorem GateInvariant.appliesLastOnly (h : GateInvariant connection popped heard) :
    AppliesLastOnly connection := by
  intro number envelope rest hbrowser happlied
  have horder := h.order
  rw [hbrowser] at horder
  obtain _ | _ | ⟨hdata, hrest⟩ := horder
  have hopen := (onmessage_data connection.client envelope hdata).2 happlied
  have haccepted : connection.client.gate.acceptedGeneration =
      some connection.subscribes.length := by
    have := (of_decide_eq_true hopen).2
    rwa [h.counts.current] at this
  exact Option.some.inj (h.safe haccepted).1

theorem GateInvariant.followsAcknowledged (h : GateInvariant connection popped heard)
    (hpopped : popped = connection.arrived) : FollowsAcknowledged connection := by
  intro hall hlast
  have haccepted : connection.client.gate.acceptedGeneration =
      some connection.client.gate.currentGeneration := by
    rw [h.live hpopped hlast hall, h.counts.current]
  refine ⟨haccepted, fun number envelope rest message hbrowser hmessage => ?_⟩
  have horder := h.order
  rw [hbrowser] at horder
  obtain _ | _ | ⟨hdata, hrest⟩ := horder
  obtain ⟨event, hpayload⟩ : ∃ event, envelope.payload = .event event := by
    cases hpayload : envelope.payload with
    | event event => exact ⟨event, rfl⟩
    | _ => simp [hpayload, StreamPayload.isData] at hdata
  have hevent := consume_event connection.client envelope hpayload hmessage
  have hpositive : 0 < connection.client.gate.currentGeneration := by
    rw [h.counts.current, ← hall]
    exact h.arrived_pos (by simp [hlast])
  have hopen : isCurrentGenerationAccepted connection.client.gate = true :=
    decide_eq_true ⟨hpositive, haccepted⟩
  have hdone := onmessage_of_data connection.client envelope
    (hevent ▸ hpayload ▸ hdata) hmessage
  rw [if_pos hopen, if_pos hopen] at hdone
  exact ⟨hdone.2.2, hdone.2.1⟩

/-- On one socket the data that is applied always belongs to the last subscription; and where every
answer takes a generation off, the session that answers the last subscription opens the gate.
SOURCE: useRealtimeAnalysis.ts:110-151, 194-304, 327-401; main.py:1619-1731 -/
theorem subscriptionGate_safe_and_live (selection : Subscription) (recoveryGeneration : ℕ)
    (state : AnalysisState β) (status : StreamRecoveryStatus) :
    (∀ connection, ConnectionReaches (fun _ _ => True)
      (.connect (.connect selection recoveryGeneration state status)) connection →
        AppliesLastOnly connection) ∧
    ∀ connection, ConnectionReaches AnswersTakeGeneration
      (.connect (.connect selection recoveryGeneration state status)) connection →
        AppliesLastOnly connection ∧ FollowsAcknowledged connection := by
  refine ⟨fun connection hreaches => ?_, fun connection hreaches => ?_⟩
  · obtain ⟨popped, heard, h, -⟩ := gateInvariant_of_reaches rfl hreaches
    exact h.appliesLastOnly
  · obtain ⟨popped, heard, h, hpopped⟩ := gateInvariant_of_reaches rfl hreaches
    exact ⟨h.appliesLastOnly, h.followsAcknowledged (hpopped fun _ _ htakes => htakes)⟩

/-- A browser that has selected the instrument 1. -/
def selectedOne : AnalysisClient Unit :=
  .connect ⟨1, .m1, 1⟩ 0 initialAnalysisState .ready

/-- An envelope of the stream of the instrument 1. -/
def envelopeOne (sequence : ℤ) (payload : StreamPayload Unit) : StreamEnvelope Unit :=
  ⟨"analysis.instrument:1:1m:1", "operator:local", sequence, payload⟩

/-- A socket opens, and the subscription that it sends is acknowledged. -/
theorem subscriptionGate_safe_and_live_selectedOne :
    ∃ connection, ConnectionReaches AnswersTakeGeneration (.connect selectedOne) connection ∧
      connection.lastAnswer = some .session ∧ AppliesLastOnly connection ∧
      FollowsAcknowledged connection := by
  have hopened : ConnectionReaches AnswersTakeGeneration (.connect selectedOne) _ :=
    .step .socketOpens .start (fun h => nomatch h) rfl
  have hanswered := ConnectionReaches.step (.serverAnswers (envelopeOne 1 (.subscribed "a")))
    hopened (fun h => nomatch h) rfl
  have hreceived := ConnectionReaches.step .browserReceives hanswered
    (by
      intro _ number envelope rest hbrowser
      obtain rfl : envelopeOne 1 (.subscribed "a") = envelope := by
        exact (ServerMessage.answer.inj (List.cons.inj hbrowser).1).2
      rfl) rfl
  exact ⟨_, hreceived, rfl, (subscriptionGate_safe_and_live ⟨1, .m1, 1⟩ 0 initialAnalysisState
    .ready).2 _ hreceived⟩

theorem reaches_of_run {start last : AnalysisConnection β} {actions : List (ConnectionAction β)}
    (hreach : ConnectionReaches (fun _ _ => True) start connection)
    (hrun : connectionRun connection actions = some last) :
    ConnectionReaches (fun _ _ => True) start last := by
  induction actions generalizing connection with
  | nil => exact Option.some.inj hrun ▸ hreach
  | cons action actions ih =>
    obtain ⟨next, hstep, hrest⟩ := Option.bind_eq_some_iff.mp hrun
    exact ih (.step action hreach trivial hstep) hrest

/-- The REST snapshot of a recovery. -/
def snapshotOne (cursor : String) : AnalysisRecoverySnapshot Unit :=
  ⟨cursor, ⟨(), "1m", [], [], [], ⟨(), (), ()⟩⟩⟩

/-- A gap is recovered from with a cursor that expires before the server reads it, and the recovery
from that is acknowledged. -/
def expiredCursor : List (ConnectionAction Unit) := [
  .socketOpens,
  .serverAnswers (envelopeOne 1 (.subscribed "a")), .browserReceives,
  .serverSends (envelopeOne 5 (.event (.market ⟨(), (), ()⟩))), .browserReceives,
  .recoverySucceeds 0 (snapshotOne "first"),
  .serverAnswers (envelopeOne 0 (.snapshotRequired none)), .browserReceives,
  .recoverySucceeds 0 (snapshotOne "second"),
  .serverAnswers (envelopeOne 9 (.subscribed "b")), .browserReceives]

/-- The generation of the expired cursor stays in the queue, and the gate stays closed. -/
theorem gate_stays_closed :
    ¬ ∀ connection, ConnectionReaches (fun _ _ => True) (.connect selectedOne) connection →
      AppliesLastOnly connection ∧ FollowsAcknowledged connection := by
  intro h
  have hrun : (connectionRun (.connect selectedOne) expiredCursor).map (fun connection =>
      (connection.arrived, connection.subscribes.length, connection.lastAnswer,
        connection.client.gate.acceptedGeneration)) = some (3, 3, some .session, none) := by
    decide +kernel
  obtain ⟨connection, hconnection, hlast⟩ := Option.map_eq_some_iff.mp hrun
  simp only [Prod.mk.injEq] at hlast
  obtain ⟨harrived, hsent, hanswer, haccepted⟩ := hlast
  have hfollows := (h connection (reaches_of_run .start hconnection)).2
  have hopen := (hfollows (harrived.trans hsent.symm) hanswer).1
  rw [haccepted] at hopen
  cases hopen

end Goodmoneying.Analysis
