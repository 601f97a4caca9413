import Mathlib.Data.List.Pairwise
import Goodmoneying.Library.GapDetection
import Goodmoneying.Library.SeparatedFields
import Goodmoneying.Program.RealtimeStream

/-!
# A stream with a hole is noticed

What `consumeRealtimeEnvelope` does with the envelopes of one stream is what a receiver of numbered
items does, whatever other streams there are (`map_streamResults`), where no topic contains the
separator. `RealtimeEnvelopeBuilder` numbers its envelopes (`numbering_makeAll`). So each envelope
of one builder that is checked is either answered with a request for a snapshot or comes after all
events were delivered (`consumeRealtimeEnvelope_noSilentHole`).
-/

namespace Goodmoneying.Analysis.StreamGaps

open List Library.GapDetection
open Program

variable {P : Type}
variable {envelope : RealtimeStreamEnvelope P} {tracker : StreamTracker}
variable {other : StreamTracker} {topic scope : String}

/-! ## Envelopes as signals -/

/-- What an envelope tells a receiver. -/
def signal (envelope : RealtimeStreamEnvelope P) : Signal :=
  match envelope.messageType with
  | .subscribed => .start envelope.sequence
  | .event => .item envelope.sequence
  | .heartbeat => .beat envelope.sequence
  | .snapshotRequired => .alarm
  | .slowConsumer => .alarm
  | .error => .aside

/-- The kind of a result. -/
def answer : RealtimeStreamConsumeResult P → Answer
  | .payload _ _ => .passed
  | .heartbeat _ => .heard
  | .snapshotRequired _ _ => .lost
  | .ignored _ => .ignored

/-- What a tracker knows of one stream. -/
def view (tracker : StreamTracker) (key : String) : Receiver where
  last := tracker.lastSequenceByStream key
  stopped := tracker.pausedStreams key

section Views

variable (tracker : StreamTracker) (key : String)

@[simp] theorem view_new : view createRealtimeStreamTracker key = .new := rfl

@[simp] theorem view_pause : view (tracker.pause key) key = (view tracker key).stop := by
  simp [view, StreamTracker.pause, Receiver.stop]

@[simp] theorem view_setLastSequence (sequence : ℤ) :
    view (tracker.setLastSequence key sequence) key =
      { view tracker key with last := some sequence } := by
  simp [view, StreamTracker.setLastSequence]

@[simp] theorem view_resume :
    view (tracker.resume key) key = { view tracker key with stopped := false } := by
  simp [view, StreamTracker.resume]

variable {tracker key} {other : String}

theorem view_pause_ne (h : other ≠ key) : view (tracker.pause key) other = view tracker other := by
  simp [view, StreamTracker.pause, h]

theorem view_setLastSequence_ne (h : other ≠ key) (sequence : ℤ) :
    view (tracker.setLastSequence key sequence) other = view tracker other := by
  simp [view, StreamTracker.setLastSequence, h]

theorem view_resume_ne (h : other ≠ key) :
    view (tracker.resume key) other = view tracker other := by
  simp [view, StreamTracker.resume, h]

end Views

theorem isStart_signal :
    (signal envelope).isStart = false ↔ envelope.messageType ≠ .subscribed := by
  cases htype : envelope.messageType <;> simp [signal, Signal.isStart, htype]

variable (messageOf : P → Option String)

/-- A stream that is paused stays as it is, until it is subscribed anew. -/
theorem consume_of_paused (hpaused : tracker.pausedStreams envelope.streamKey = true)
    (htype : envelope.messageType ≠ .subscribed) :
    ∃ message, consumeRealtimeEnvelope messageOf tracker envelope =
      (tracker, .snapshotRequired message envelope.cursor) :=
  ⟨_, by rw [consumeRealtimeEnvelope, if_neg htype, if_pos hpaused]⟩

/-- Consuming an envelope is receiving its signal, in the stream that it belongs to. -/
theorem consume_receive (tracker : StreamTracker) (envelope : RealtimeStreamEnvelope P) :
    view (consumeRealtimeEnvelope messageOf tracker envelope).1 envelope.streamKey =
        ((view tracker envelope.streamKey).receive (signal envelope)).1 ∧
      answer (consumeRealtimeEnvelope messageOf tracker envelope).2 =
        ((view tracker envelope.streamKey).receive (signal envelope)).2 := by
  by_cases hsubscribed : envelope.messageType = .subscribed
  · simp [consumeRealtimeEnvelope, signal, hsubscribed, Receiver.receive, answer]
  cases hpaused : tracker.pausedStreams envelope.streamKey with
  | true =>
    obtain ⟨message, hconsumed⟩ := consume_of_paused messageOf hpaused hsubscribed
    rw [hconsumed, Receiver.receive_of_stopped hpaused (isStart_signal.mpr hsubscribed)]
    exact ⟨rfl, rfl⟩
  | false =>
    have hview : view tracker envelope.streamKey =
        ⟨tracker.lastSequenceByStream envelope.streamKey, false⟩ := by
      rw [view, hpaused]
    simp only [consumeRealtimeEnvelope, hpaused, hview]
    cases htype : envelope.messageType with
    | subscribed => exact absurd htype hsubscribed
    | event =>
      cases hlast : tracker.lastSequenceByStream envelope.streamKey with
      | none => simp [signal, htype, Receiver.receive, answer, hview]
      | some q =>
        simp only [signal, htype, Receiver.receive, reduceCtorEq, or_self, if_false]
        by_cases hold : envelope.sequence ≤ q
        · simp [hold, answer, hview, hlast]
        · by_cases hnext : envelope.sequence = q + 1
          · simp [hnext, answer, hview]
          · simp [hold, hnext, answer, hview, hlast]
    | heartbeat =>
      cases hlast : tracker.lastSequenceByStream envelope.streamKey with
      | none => simp [signal, htype, Receiver.receive, answer, hview]
      | some q =>
        by_cases hlost : q < envelope.sequence
        · simp [signal, htype, Receiver.receive, hlost, answer, hview, hlast]
        · simp [signal, htype, Receiver.receive, hlost, answer, hview, hlast]
    | snapshotRequired => simp [signal, htype, Receiver.receive, answer, hview]
    | slowConsumer => simp [signal, htype, Receiver.receive, answer, hview]
    | error => simp [signal, htype, Receiver.receive, answer, hview]

/-- Consuming an envelope keeps the tracker, pauses the stream of the envelope or notes its sequence
number, and returns no payload but that of the envelope. -/
theorem consume_cases (tracker : StreamTracker) (envelope : RealtimeStreamEnvelope P) :
    ((consumeRealtimeEnvelope messageOf tracker envelope).1 = tracker ∨
      (consumeRealtimeEnvelope messageOf tracker envelope).1 = tracker.pause envelope.streamKey ∨
      (consumeRealtimeEnvelope messageOf tracker envelope).1 =
        tracker.setLastSequence envelope.streamKey envelope.sequence ∨
      (consumeRealtimeEnvelope messageOf tracker envelope).1 =
        (tracker.resume envelope.streamKey).setLastSequence envelope.streamKey envelope.sequence) ∧
    ((consumeRealtimeEnvelope messageOf tracker envelope).2 =
        .payload envelope.payload envelope.cursor ∨
      answer (consumeRealtimeEnvelope messageOf tracker envelope).2 ≠ .passed) := by
  unfold consumeRealtimeEnvelope
  dsimp only
  split
  · exact ⟨by simp, .inl rfl⟩
  split
  · exact ⟨by simp, .inr (by simp [answer])⟩
  split
  · split
    · split
      · exact ⟨by simp, .inr (by simp [answer])⟩
      · exact ⟨by simp, .inr (by simp [answer])⟩
    · exact ⟨by simp, .inr (by simp [answer])⟩
  split
  · exact ⟨by simp, .inr (by simp [answer])⟩
  split
  · exact ⟨by simp, .inl rfl⟩
  split
  · split
    · exact ⟨by simp, .inr (by simp [answer])⟩
    · split
      · exact ⟨by simp, .inr (by simp [answer])⟩
      · exact ⟨by simp, .inl rfl⟩
  · exact ⟨by simp, .inl rfl⟩

/-- Consuming an envelope changes nothing of other streams. -/
theorem consume_of_ne (tracker : StreamTracker) {key : String} (h : key ≠ envelope.streamKey) :
    view (consumeRealtimeEnvelope messageOf tracker envelope).1 key = view tracker key := by
  obtain hnext | hnext | hnext | hnext := (consume_cases messageOf tracker envelope).1
  · rw [hnext]
  · rw [hnext, view_pause_ne h]
  · rw [hnext, view_setLastSequence_ne h]
  · rw [hnext, view_setLastSequence_ne h, view_resume_ne h]

/-- The result depends on what the tracker knows of the stream only. -/
theorem consume_congr (h : view tracker envelope.streamKey = view other envelope.streamKey) :
    (consumeRealtimeEnvelope messageOf tracker envelope).2 =
      (consumeRealtimeEnvelope messageOf other envelope).2 := by
  obtain ⟨hlast, hpaused⟩ := Receiver.mk.inj h
  simp only [consumeRealtimeEnvelope, hlast, hpaused]
  -- the states differ, the results do not
  cases other.lastSequenceByStream envelope.streamKey with
  | none => simp only [apply_ite Prod.snd]
  | some q => simp only [apply_ite Prod.snd]

/-! ## Streams -/

/-- A topic without the separator of topic and scope. -/
def PlainTopic (topic : String) : Prop := '\x00' ∉ topic.toList

instance (topic : String) : Decidable (PlainTopic topic) :=
  inferInstanceAs (Decidable (¬ _))

/-- Streams with plain topics have different keys. -/
theorem ofStream_of_streamKey_eq (hplain : PlainTopic envelope.topic) (htopic : PlainTopic topic)
    (h : topic ++ "\x00" ++ scope = envelope.streamKey) : envelope.OfStream topic scope := by
  have hkeys : scope.toList.reverse ++ '\x00' :: topic.toList.reverse =
      envelope.scope.toList.reverse ++ '\x00' :: envelope.topic.toList.reverse := by
    have hlist := congrArg (fun key : String => key.toList.reverse) h
    simpa [RealtimeStreamEnvelope.streamKey] using hlist
  obtain ⟨hscope, hname⟩ := Library.append_separator_inj
    (fun hmem => htopic (mem_reverse.mp hmem))
    (fun hmem => hplain (mem_reverse.mp hmem)) hkeys
  rw [reverse_inj, String.toList_inj] at hscope hname
  exact ⟨hname.symm, hscope.symm⟩

theorem streamKey_of_ofStream (h : envelope.OfStream topic scope) :
    envelope.streamKey = topic ++ "\x00" ++ scope := by
  rw [RealtimeStreamEnvelope.streamKey, h.1, h.2]

/-- An envelope with the kind of its result. -/
def answered (entry : RealtimeStreamEnvelope P × RealtimeStreamConsumeResult P) :
    RealtimeStreamEnvelope P × Answer :=
  (entry.1, answer entry.2)

section

variable {messageOf} {topic scope : String} {envelopes : List (RealtimeStreamEnvelope P)}

/-- Two trackers that know the same of a stream make the same of its envelopes, with those of
other streams or alone. -/
theorem consumeAll_alone (hplain : ∀ envelope ∈ envelopes, PlainTopic envelope.topic)
    (htopic : PlainTopic topic)
    (hview : view tracker (topic ++ "\x00" ++ scope) = view other (topic ++ "\x00" ++ scope)) :
    ((consumeAll messageOf tracker envelopes).filter fun entry => entry.1.OfStream topic scope) =
      consumeAll messageOf other
        (envelopes.filter fun envelope => envelope.OfStream topic scope) := by
  induction envelopes generalizing tracker other with
  | nil => rfl
  | cons envelope envelopes ih =>
    rw [forall_mem_cons] at hplain
    rw [consumeAll]
    by_cases hof : envelope.OfStream topic scope
    · have hkey := streamKey_of_ofStream hof
      rw [← hkey] at hview
      rw [filter_cons_of_pos (by simpa using hof),
        filter_cons_of_pos (by simpa using hof), consumeAll, consume_congr messageOf hview]
      congr 1
      refine ih hplain.2 ?_
      rw [← hkey, (consume_receive messageOf tracker envelope).1,
        (consume_receive messageOf other envelope).1, hview]
    · have hkey : topic ++ "\x00" ++ scope ≠ envelope.streamKey := fun heq =>
        hof (ofStream_of_streamKey_eq hplain.1 htopic heq)
      rw [filter_cons_of_neg (by simpa using hof), filter_cons_of_neg (by simpa using hof)]
      refine ih hplain.2 ?_
      rw [consume_of_ne messageOf tracker hkey, hview]

/-- A tracker that follows the envelopes of one stream is a receiver. -/
theorem map_consumeAll (hstream : ∀ envelope ∈ envelopes, envelope.OfStream topic scope) :
    (consumeAll messageOf tracker envelopes).map answered =
      (view tracker (topic ++ "\x00" ++ scope)).log signal envelopes := by
  induction envelopes generalizing tracker with
  | nil => rfl
  | cons envelope envelopes ih =>
    rw [forall_mem_cons] at hstream
    obtain ⟨hnext, hanswer⟩ := consume_receive messageOf tracker envelope
    rw [streamKey_of_ofStream hstream.1] at hnext hanswer
    rw [consumeAll, map_cons, ih hstream.2, Receiver.log, hnext, answered, hanswer]

theorem streamResults_alone (hplain : ∀ envelope ∈ envelopes, PlainTopic envelope.topic)
    (htopic : PlainTopic topic) : streamResults messageOf topic scope envelopes =
      consumeAll messageOf createRealtimeStreamTracker
        (envelopes.filter fun envelope => envelope.OfStream topic scope) :=
  consumeAll_alone hplain htopic rfl

/-- The answers to one stream are those of a receiver of numbered items. -/
theorem map_streamResults (hplain : ∀ envelope ∈ envelopes, PlainTopic envelope.topic)
    (htopic : PlainTopic topic) : (streamResults messageOf topic scope envelopes).map answered =
      Receiver.new.log signal (envelopes.filter fun envelope => envelope.OfStream topic scope) := by
  have hfilter : ∀ envelope ∈ envelopes.filter fun envelope => envelope.OfStream topic scope,
      envelope.OfStream topic scope := by
    intro envelope hmem
    simpa using (mem_filter.mp hmem).2
  rw [streamResults_alone hplain htopic, map_consumeAll hfilter, view_new]

end

/-! ## Without a hole -/

/-- Envelopes with their results. -/
abbrev StreamLog (P : Type) := List (RealtimeStreamEnvelope P × RealtimeStreamConsumeResult P)

/-- A request for a snapshot. -/
def IsSnapshotRequired : RealtimeStreamConsumeResult P → Prop
  | .snapshotRequired _ _ => True
  | _ => False

def IsPayload : RealtimeStreamConsumeResult P → Prop
  | .payload _ _ => True
  | _ => False

def IsIgnored : RealtimeStreamConsumeResult P → Prop
  | .ignored _ => True
  | _ => False

/-- The sequence of an event that is returned as payload. -/
def deliveredEvent (entry : RealtimeStreamEnvelope P × RealtimeStreamConsumeResult P) :
    Option ℤ :=
  match entry.1.messageType, entry.2 with
  | .event, .payload _ _ => some entry.1.sequence
  | _, _ => none

/-- The sequence of a session, or of an event that is returned as payload. -/
def deliveredSequence (entry : RealtimeStreamEnvelope P × RealtimeStreamConsumeResult P) :
    Option ℤ :=
  match entry.1.messageType, entry.2 with
  | .subscribed, _ => some entry.1.sequence
  | .event, .payload _ _ => some entry.1.sequence
  | _, _ => none

/-- The sequence delivered last. -/
def lastDelivered (log : StreamLog P) : Option ℤ := (log.filterMap deliveredSequence).getLast?

def NoSubscribed (log : StreamLog P) : Prop := ∀ entry ∈ log, entry.1.messageType ≠ .subscribed

/-- A snapshot has been requested, and no session has begun since. -/
def Paused (log : StreamLog P) : Prop :=
  ∃ before entry after, log = before ++ entry :: after ∧ IsSnapshotRequired entry.2 ∧
    NoSubscribed after

/-- A later sequence than the next one, a heartbeat above the last sequence, or a message that the
stream cannot go on. -/
def ShowsHole (last : Option ℤ) (envelope : RealtimeStreamEnvelope P) : Prop :=
  match envelope.messageType with
  | .event => ∃ q ∈ last, q + 1 < envelope.sequence
  | .heartbeat => ∃ q ∈ last, q < envelope.sequence
  | .snapshotRequired => True
  | .slowConsumer => True
  | .subscribed => False
  | .error => False

/-- The envelopes of a stream with their results, in which no hole is hidden. -/
structure WithoutHole (log : StreamLog P) : Prop where
  /-- From a session to the next one, the events that are delivered are numbered on. -/
  consecutive : ∀ before session between rest, log = before ++ session :: (between ++ rest) →
    session.1.messageType = .subscribed → NoSubscribed between →
    ∃ k : ℕ, between.filterMap deliveredEvent =
      (List.range k).map fun i : ℕ => session.1.sequence + 1 + i
  /-- Where a hole shows, and after it up to the next session, snapshots are requested. -/
  stops : ∀ before entry after rest, log = before ++ entry :: (after ++ rest) →
    ShowsHole (lastDelivered before) entry.1 → NoSubscribed after →
    ∀ other ∈ entry :: after, IsSnapshotRequired other.2
  /-- Repeated and older events are ignored, unless the stream is paused. -/
  ignores : ∀ before entry rest, log = before ++ entry :: rest →
    entry.1.messageType = .event → (∃ q ∈ lastDelivered before, entry.1.sequence ≤ q) →
    ¬ Paused before → IsIgnored entry.2

section

variable {entry : RealtimeStreamEnvelope P × RealtimeStreamConsumeResult P} {log : StreamLog P}
variable {result : RealtimeStreamConsumeResult P}

theorem answer_eq_lost : answer result = .lost ↔ IsSnapshotRequired result := by
  cases result <;> simp [answer, IsSnapshotRequired]

theorem answer_eq_ignored : answer result = .ignored ↔ IsIgnored result := by
  cases result <;> simp [answer, IsIgnored]

theorem answer_eq_passed : answer result = .passed ↔ IsPayload result := by
  cases result <;> simp [answer, IsPayload]

theorem passedItem_answered : passedItem signal (answered entry) = deliveredEvent entry := by
  obtain ⟨envelope, result⟩ := entry
  cases htype : envelope.messageType <;> cases result <;>
    simp [passedItem, answered, signal, deliveredEvent, answer, htype]

theorem passedNumber_answered : passedNumber signal (answered entry) = deliveredSequence entry := by
  obtain ⟨envelope, result⟩ := entry
  cases htype : envelope.messageType <;> cases result <;>
    simp [passedNumber, answered, signal, deliveredSequence, answer, htype]

theorem lastPassed_answered : lastPassed signal (log.map answered) = lastDelivered log := by
  rw [lastPassed, lastDelivered, filterMap_map]
  congr 2
  exact funext fun entry => passedNumber_answered

theorem isItem_signal : (signal envelope).isItem = true ↔ envelope.messageType = .event := by
  cases htype : envelope.messageType <;> simp [signal, Signal.isItem, htype]

theorem isCounted_signal : (signal envelope).isCounted = envelope.messageType.isCounted := by
  cases htype : envelope.messageType <;>
    simp [signal, Signal.isCounted, StreamMessageType.isCounted, htype]

theorem number_signal {n : ℤ} (h : (signal envelope).number = some n) : n = envelope.sequence := by
  cases htype : envelope.messageType <;> simp [signal, Signal.number, htype] at h <;>
    exact h.symm

theorem number_signal_ne_none
    (h : envelope.messageType = .event ∨ envelope.messageType = .heartbeat) :
    (signal envelope).number ≠ none := by
  rcases h with h | h <;> simp [signal, Signal.number, h]

theorem signal_ne_aside (h : envelope.messageType ≠ .error) : signal envelope ≠ .aside := by
  cases htype : envelope.messageType <;> simp_all [signal]

theorem noStart_answered : NoStart signal (log.map answered) ↔ NoSubscribed log := by
  rw [NoStart, forall_mem_map]
  exact forall₂_congr fun entry _ => isStart_signal

theorem tellsLoss_signal {last : Option ℤ} :
    TellsLoss last (signal envelope) ↔ ShowsHole last envelope := by
  cases htype : envelope.messageType <;> simp [TellsLoss, ShowsHole, signal, htype]

theorem paused_of_halted (h : Halted signal (log.map answered)) : Paused log := by
  obtain ⟨before, entry, after, hlog, hlost, hafter⟩ := h
  obtain ⟨before, rest, rfl, rfl, hrest⟩ := map_eq_append_iff.mp hlog
  obtain ⟨entry, after, rfl, rfl, rfl⟩ := map_eq_cons_iff.mp hrest
  exact ⟨before, entry, after, rfl, answer_eq_lost.mp hlost, noStart_answered.mp hafter⟩

/-- What a receiver makes of the signals of a stream hides no hole. -/
theorem withoutHole_of_receiver {envelopes : List (RealtimeStreamEnvelope P)}
    (h : log.map answered = Receiver.new.log signal envelopes) : WithoutHole log where
  consecutive before session between rest hlog hsession hbetween := by
    rw [hlog, map_append, map_cons, map_append] at h
    have hafter := (Receiver.log_eq_append_cons h.symm).2
    have hbetween' := (Receiver.log_eq_append hafter).1
    have hlast : (((Receiver.new.after signal ((before.map answered).map Prod.fst)).receive
        (signal session.1)).1).last = some session.1.sequence := by
      simp [signal, hsession, Receiver.receive]
    have hstart : ∀ m ∈ (between.map answered).map Prod.fst, (signal m).isStart = false := by
      intro m hm
      obtain ⟨entry, hentry, rfl⟩ := mem_map.mp hm
      exact noStart_answered.mpr hbetween entry hentry
    obtain ⟨k, hk⟩ := Receiver.passedItems_log hlast hstart
    refine ⟨k, ?_⟩
    calc between.filterMap deliveredEvent
        = (between.map answered).filterMap (passedItem signal) := by
          rw [filterMap_map]
          exact congrArg (List.filterMap · between) (funext fun entry =>
            passedItem_answered.symm)
      _ = _ := by rw [← hk]; exact congrArg (List.filterMap (passedItem signal)) hbetween'.symm
  stops before entry after rest hlog hhole hafter := by
    rw [hlog, map_append, map_cons, map_append] at h
    have hlost := Receiver.lost_of_tellsLoss h.symm
      (by rw [lastPassed_answered]; exact tellsLoss_signal.mpr hhole)
      (noStart_answered.mpr hafter)
    intro other hother
    refine answer_eq_lost.mp (hlost (answered other) ?_)
    rw [← map_cons]
    exact mem_map_of_mem hother
  ignores before entry rest hlog hevent hold hpaused := by
    obtain ⟨q, hq, hle⟩ := hold
    rw [hlog, map_append, map_cons] at h
    have hitem : signal (answered entry).1 = .item entry.1.sequence := by
      simp [signal, answered, hevent]
    obtain hignored | ⟨hhalted, -⟩ := Receiver.ignored_of_le h.symm hitem
      (by rw [lastPassed_answered]; exact hq) hle
    · exact answer_eq_ignored.mp hignored
    · exact absurd (paused_of_halted hhalted) hpaused

end

/-! ## The sender -/

/-- Sessions and events advance the sequence: `increment_sequence` does not turn it off. -/
def Counts (send : StreamSend P) : Prop :=
  send.messageType.isCounted = true → send.incrementSequence ≠ some false

instance (send : StreamSend P) : Decidable (Counts send) :=
  inferInstanceAs (Decidable (_ → _))

section

variable {hmacSha256 : List ℕ → List ℕ → List (Fin 256)} {builder : RealtimeEnvelopeBuilder}

variable (hmacSha256 builder) in
/-- What a `make` does to the builder. -/
theorem make_builder (send : StreamSend P) :
    (builder.make hmacSha256 send).1 =
      { builder with
        sequence := builder.sequence + if send.increments then 1 else 0 } := by
  unfold RealtimeEnvelopeBuilder.make
  split_ifs <;> simp

/-- The envelope of a `make` has the sequence and the stream of the builder. -/
theorem make_envelope {send : StreamSend P} (h : (builder.make hmacSha256 send).2 = .ok envelope) :
    envelope.sequence = builder.sequence + (if send.increments then 1 else 0) ∧
      envelope.messageType = send.messageType ∧ envelope.OfStream builder.topic builder.scope := by
  have hbuilder := make_builder hmacSha256 builder send
  unfold RealtimeEnvelopeBuilder.make at h hbuilder
  dsimp only at h hbuilder
  rw [hbuilder] at h
  obtain ⟨expiresAt, -, hmade⟩ := Library.bind_eq_ok.mp h
  rw [← Library.pure_eq_ok.mp hmade]
  exact ⟨rfl, rfl, rfl, rfl⟩

/-- An envelope that is sent after another one. -/
def SentAfter (first second : RealtimeStreamEnvelope P) : Prop :=
  first.sequence ≤ second.sequence ∧
    (second.messageType.isCounted = true → first.sequence < second.sequence)

/-- Envelopes that a builder makes are sent one after another. -/
theorem makeAll_sequences {sends : List (StreamSend P)} (hcounts : ∀ send ∈ sends, Counts send) :
    (builder.makeAll hmacSha256 sends).Pairwise SentAfter ∧
      ∀ envelope ∈ builder.makeAll hmacSha256 sends, envelope.OfStream builder.topic builder.scope ∧
        builder.sequence ≤ envelope.sequence ∧
          (envelope.messageType.isCounted = true → builder.sequence < envelope.sequence) := by
  induction sends generalizing builder with
  | nil => simp [RealtimeEnvelopeBuilder.makeAll]
  | cons send sends ih =>
    rw [forall_mem_cons] at hcounts
    have hbuilder := make_builder hmacSha256 builder send
    have hincrements : send.messageType.isCounted = true → send.increments = true := by
      intro hcounted
      have hnot := hcounts.1 hcounted
      rw [StreamSend.increments]
      cases hincrement : send.incrementSequence with
      | none => simpa using hcounted
      | some increment => cases increment <;> simp_all
    obtain ⟨hsorted, hlater⟩ := @ih (builder.make hmacSha256 send).1 hcounts.2
    have hgrown : builder.sequence ≤ (builder.make hmacSha256 send).1.sequence := by
      rw [hbuilder]
      dsimp only
      split_ifs <;> omega
    have hrest : ∀ envelope ∈ (builder.make hmacSha256 send).1.makeAll hmacSha256 sends,
        envelope.OfStream builder.topic builder.scope ∧ builder.sequence ≤ envelope.sequence ∧
          (envelope.messageType.isCounted = true → builder.sequence < envelope.sequence) := by
      intro envelope hmem
      obtain ⟨hof, hle, hlt⟩ := hlater envelope hmem
      refine ⟨by rwa [hbuilder] at hof, by omega, fun hcounted => ?_⟩
      have := hlt hcounted
      omega
    rw [RealtimeEnvelopeBuilder.makeAll]
    cases hmade : (builder.make hmacSha256 send).2 with
    | error e => simpa only [hmade] using ⟨hsorted, hrest⟩
    | ok envelope =>
      obtain ⟨hsequence, htype, hof⟩ := make_envelope hmade
      have hsame : envelope.sequence = (builder.make hmacSha256 send).1.sequence := by
        rw [hbuilder, hsequence]
      simp only [hmade, pairwise_cons, forall_mem_cons]
      refine ⟨⟨fun other hmem => ?_, hsorted⟩, ⟨hof, by omega, fun hcounted => ?_⟩, hrest⟩
      · obtain ⟨-, hle, hlt⟩ := hlater other hmem
        exact ⟨by omega, fun hcounted => by have := hlt hcounted; omega⟩
      · rw [hsequence, if_pos (hincrements (htype ▸ hcounted))]
        omega

/-- The envelopes of a builder, numbered by their sequences. -/
theorem numbering_makeAll {sends : List (StreamSend P)} (hcounts : ∀ send ∈ sends, Counts send) :
    Numbering (fun k => signal ((builder.makeAll hmacSha256 sends).get k))
      (fun k => ((builder.makeAll hmacSha256 sends).get k).sequence) := by
  have hsent : (builder.makeAll hmacSha256 sends).Pairwise SentAfter :=
    (makeAll_sequences hcounts).1
  have hsorted := pairwise_iff_get.mp hsent
  refine ⟨fun a b hle => ?_, fun {a b} hlt hcounted => (hsorted a b hlt).2 ?_,
    fun a n hn => number_signal hn⟩
  · rcases hle.lt_or_eq with hlt | rfl
    · exact (hsorted a b hlt).1
    · exact le_rfl
  · rwa [isCounted_signal] at hcounted

end

/-! ## The channel -/

/-- Of the envelopes `sent`, those that arrived with their results. Where one is checked, which is
not a session and not an error, a snapshot is requested, or all events sent before it were
delivered: since the last session that arrived, or since the first arrival of an event or of a
heartbeat. -/
def NoticesLoss (sent : List (RealtimeStreamEnvelope P))
    (arrived : List (Fin sent.length × RealtimeStreamConsumeResult P)) : Prop :=
  ∀ before j x between i y rest, arrived = before ++ (j, x) :: (between ++ (i, y) :: rest) →
    (sent.get j).messageType = .subscribed ∨
      before = [] ∧ ((sent.get j).messageType = .event ∨ (sent.get j).messageType = .heartbeat) →
    (∀ entry ∈ between, (sent.get entry.1).messageType ≠ .subscribed) →
    (sent.get i).messageType ≠ .subscribed → (sent.get i).messageType ≠ .error →
    IsSnapshotRequired y ∨ ∀ m, j < m → m < i → (sent.get m).messageType = .event →
      ∃ entry ∈ between, entry.1 = m ∧ IsPayload entry.2

/-- What arrives of numbered envelopes, in whatever order and however often, notices a loss. -/
theorem noticesLoss {sent : List (RealtimeStreamEnvelope P)} {arrivals : List (Fin sent.length)}
    {log : StreamLog P}
    (hnumbering : Numbering (fun k => signal (sent.get k)) (fun k => (sent.get k).sequence))
    (hlog : log.map answered = Receiver.new.log signal (arrivals.map sent.get)) :
    NoticesLoss sent (arrivals.zip (log.map Prod.snd)) := by
  intro before j x between i y rest harrived hbasis hbetween hsession herror
  have hreceived : (arrivals.zip (log.map Prod.snd)).map
      (fun entry => (entry.1, answer entry.2)) =
        Receiver.new.log (signal ∘ sent.get) arrivals := by
    rw [Receiver.log_map] at hlog
    have hanswers : (log.map Prod.snd).map answer =
        (Receiver.new.log (signal ∘ sent.get) arrivals).map Prod.snd := by
      have hsnd := congrArg (List.map Prod.snd) hlog
      rw [map_map, map_map] at hsnd
      rw [map_map]
      exact hsnd
    calc (arrivals.zip (log.map Prod.snd)).map (Prod.map id answer)
        = arrivals.zip ((log.map Prod.snd).map answer) := zip_map_right.symm
      _ = arrivals.zip ((Receiver.new.log (signal ∘ sent.get) arrivals).map Prod.snd) := by
          rw [hanswers]
      _ = _ := (zip_of_prod (Receiver.map_fst_log arrivals) rfl).symm
  rw [harrived, map_append, map_cons, map_append, map_cons] at hreceived
  have hpassed := hnumbering.all_passed hreceived.symm
    (hbasis.imp (fun h => by simp [signal, h, Signal.isStart, -get_eq_getElem])
      fun ⟨hnil, h⟩ => ⟨by rw [hnil, map_nil], number_signal_ne_none h⟩)
    (by
      intro entry hentry
      obtain ⟨other, hother, rfl⟩ := mem_map.mp hentry
      exact isStart_signal.mpr (hbetween other hother))
    (isStart_signal.mpr hsession)
    (signal_ne_aside herror)
  refine hpassed.imp answer_eq_lost.mp fun hall m hj hi hevent => ?_
  obtain ⟨entry, hentry, heq⟩ := mem_map.mp
    (hall m hj hi (isItem_signal.mpr hevent))
  obtain ⟨hname, hanswer⟩ := Prod.mk.inj heq
  exact ⟨entry, hentry, hname, answer_eq_passed.mp hanswer⟩

/-- The browser never shows a stream with a silent hole: what it makes of a stream is what it makes
of its envelopes alone, it hides no hole, and of what a builder has sent it notices a loss.
SOURCE: realtimeStream.ts:22-118, realtime_stream.py:48-99 -/
theorem consumeRealtimeEnvelope_noSilentHole {envelopes : List (RealtimeStreamEnvelope P)}
    (hplain : ∀ envelope ∈ envelopes, PlainTopic envelope.topic) {topic : String}
    (htopic : PlainTopic topic) (scope : String) : streamResults messageOf topic scope envelopes =
        consumeAll messageOf createRealtimeStreamTracker
          (envelopes.filter fun envelope => envelope.OfStream topic scope) ∧
      WithoutHole (streamResults messageOf topic scope envelopes) ∧
      ∀ (hmacSha256 : List ℕ → List ℕ → List (Fin 256)) (builder : RealtimeEnvelopeBuilder)
        (sends : List (StreamSend P)) (arrivals : List (Fin
          (builder.makeAll hmacSha256 sends).length)),
        (∀ send ∈ sends, Counts send) →
        (envelopes.filter fun envelope => envelope.OfStream topic scope) =
          arrivals.map (builder.makeAll hmacSha256 sends).get →
        NoticesLoss (builder.makeAll hmacSha256 sends)
          (arrivals.zip ((streamResults messageOf topic scope envelopes).map Prod.snd)) := by
  have hresults : (streamResults messageOf topic scope envelopes).map answered =
      Receiver.new.log signal
        (envelopes.filter fun envelope => envelope.OfStream topic scope) :=
    map_streamResults hplain htopic
  refine ⟨streamResults_alone hplain htopic, withoutHole_of_receiver hresults,
    fun hmacSha256 builder sends arrivals hcounts hfilter => ?_⟩
  rw [hfilter] at hresults
  exact noticesLoss (numbering_makeAll hcounts) hresults

/-- An envelope without payload. -/
def bareEnvelope (topic scope : String) (messageType : StreamMessageType) (sequence : ℤ) :
    RealtimeStreamEnvelope Unit where
  schemaVersion := "1.0"
  topic := topic
  scope := scope
  eventId := ""
  sequence := sequence
  cursor := ""
  occurredAt := "2026-07-18T01:00:00Z"
  publishedAt := "2026-07-18T01:00:00Z"
  messageType := messageType
  payload := ()

/-- The arguments of a `make` at the beginning of the calendar. -/
def bareSend (messageType : StreamMessageType) (incrementSequence : Option Bool) :
    StreamSend Unit where
  messageType := messageType
  payload := ()
  now := ⟨0, UtcTime.zero_in_calendar⟩
  incrementSequence := incrementSequence
  eventId := ""

/-- What a new builder sends. -/
def bareSent (sends : List (StreamSend Unit)) : List (RealtimeStreamEnvelope Unit) :=
  ({ topic := "analysis", scope := "operator:local", cursorSecret := "secret" :
    RealtimeEnvelopeBuilder }).makeAll (fun _ _ => []) sends

/-- The answers to the envelopes. -/
def bareAnswers (envelopes : List (RealtimeStreamEnvelope Unit)) : List Answer :=
  (consumeAll (fun _ => none) createRealtimeStreamTracker envelopes).map fun entry =>
    answer entry.2

/-- A session, two events and a heartbeat. -/
def heartbeatSends : List (StreamSend Unit) :=
  [bareSend .subscribed none, bareSend .event none, bareSend .event none,
    bareSend .heartbeat (some false)]

/-- The second event is lost. -/
def heartbeatArrivals : List (Fin (bareSent heartbeatSends).length) :=
  [⟨0, by decide⟩, ⟨1, by decide⟩, ⟨3, by decide⟩]

/-- The heartbeat tells of the event that was lost. -/
theorem consumeRealtimeEnvelope_noSilentHole_heartbeat :
    bareAnswers (heartbeatArrivals.map (bareSent heartbeatSends).get) = [.passed, .passed, .lost] ∧
      NoticesLoss (bareSent heartbeatSends) (heartbeatArrivals.zip
        ((streamResults (fun _ => none) "analysis" "operator:local"
          (heartbeatArrivals.map (bareSent heartbeatSends).get)).map Prod.snd)) :=
  ⟨by decide, (consumeRealtimeEnvelope_noSilentHole (fun _ => none) (by decide) (by decide) _).2.2
    _ _ _ _ (by decide) (by rfl)⟩

/-- Every envelope that arrives is answered with a request for a snapshot, or all events sent before
it have been delivered. -/
def NeverSilent (sent : List (RealtimeStreamEnvelope P))
    (arrived : List (Fin sent.length × RealtimeStreamConsumeResult P)) : Prop :=
  ∀ before i y rest, arrived = before ++ (i, y) :: rest →
    IsSnapshotRequired y ∨ ∀ m < i, (sent.get m).messageType = .event →
      ∃ entry ∈ before, entry.1 = m ∧ IsPayload entry.2

/-- Repeated and older events are ignored. -/
def IgnoresOld (log : StreamLog P) : Prop :=
  ∀ before entry rest, log = before ++ entry :: rest → entry.1.messageType = .event →
    (∃ q ∈ lastDelivered before, entry.1.sequence ≤ q) → IsIgnored entry.2

/-- An error that arrives after a lost event is returned as payload, an old event of a stream that
is paused is not ignored, and two streams share a key where a topic has the separator in it. -/
theorem consumeRealtimeEnvelope_hidesHole :
    (¬ ∀ (sends : List (StreamSend Unit)) (arrivals : List (Fin (bareSent sends).length)),
      arrivals.Pairwise (· ≤ ·) → NeverSilent (bareSent sends) (arrivals.zip
        ((streamResults (fun _ => none) "analysis" "operator:local"
          (arrivals.map (bareSent sends).get)).map Prod.snd))) ∧
    (¬ ∀ envelopes : List (RealtimeStreamEnvelope Unit),
      (∀ envelope ∈ envelopes, envelope.OfStream "t" "s") →
        IgnoresOld (streamResults (fun _ => none) "t" "s" envelopes)) ∧
    ¬ ∀ (envelopes : List (RealtimeStreamEnvelope Unit)) (topic scope : String),
      streamResults (fun _ => none) topic scope envelopes =
        consumeAll (fun _ => none) createRealtimeStreamTracker
          (envelopes.filter fun envelope => envelope.OfStream topic scope) := by
  refine ⟨fun hnever => ?_, fun hignores => ?_, fun halone => ?_⟩
  · have hloss := hnever [bareSend .subscribed none, bareSend .event none, bareSend .error none]
      [⟨0, by decide⟩, ⟨2, by decide⟩] (by decide) [(⟨0, by decide⟩, _)] ⟨2, by decide⟩ _ [] rfl
    rcases hloss with hlost | hdelivered
    · exact hlost
    · obtain ⟨entry, hentry, hfirst, -⟩ := hdelivered ⟨1, by decide⟩ (by decide) (by decide)
      rw [mem_singleton.mp hentry] at hfirst
      exact absurd hfirst (by decide)
  · exact hignores [bareEnvelope "t" "s" .subscribed 1, bareEnvelope "t" "s" .event 3,
      bareEnvelope "t" "s" .event 1] (by decide) [_, _] _ [] rfl rfl ⟨1, by decide, by decide⟩
  · have hshared := congrArg (List.map fun entry => answer entry.2)
      (halone [bareEnvelope "t" "s\x00u" .subscribed 1, bareEnvelope "t\x00s" "u" .event 5,
        bareEnvelope "t" "s\x00u" .event 2] "t" "s\x00u")
    revert hshared
    decide

/-! ## The stream of an analysis -/

section

variable {β : Type}

/-- `message_type` of a payload. -/
def payloadType : StreamPayload β → StreamMessageType
  | .subscribed _ => .subscribed
  | .event _ => .event
  | .heartbeat => .heartbeat
  | .snapshotRequired _ => .snapshotRequired
  | .slowConsumer _ => .slowConsumer
  | .error _ _ => .error

/-- `payload.message` where it is read. -/
def payloadMessage : StreamPayload β → Option String
  | .snapshotRequired message => message
  | .slowConsumer message => message
  | _ => none

/-- The message that a payload is returned as. -/
def payloadResult : StreamPayload β → Option (StreamConsumeResult β)
  | .subscribed subscriptionId => some (.message (.session subscriptionId))
  | .event message => some (.message message)
  | .error code message => some (.message (.error code message))
  | _ => none

/-- What the hook makes of a result. -/
def analysisResult : RealtimeStreamConsumeResult (StreamPayload β) → Option (StreamConsumeResult β)
  | .payload payload _ => payloadResult payload
  | .heartbeat _ => some .heartbeat
  | .snapshotRequired message _ => some (.snapshotRequired message)
  | .ignored _ => some .ignored

/-- The envelopes of an analysis are consumed as those of any stream. -/
theorem consumeAnalysisStreamMessage_eq (tracker : StreamTracker)
    {envelope : RealtimeStreamEnvelope (StreamPayload β)}
    (htype : envelope.messageType = payloadType envelope.payload) :
    (consumeAnalysisStreamMessage tracker
        ⟨envelope.topic, envelope.scope, envelope.sequence, envelope.payload⟩).1 =
        (consumeRealtimeEnvelope payloadMessage tracker envelope).1 ∧
      some (consumeAnalysisStreamMessage tracker
        ⟨envelope.topic, envelope.scope, envelope.sequence, envelope.payload⟩).2 =
        analysisResult (consumeRealtimeEnvelope payloadMessage tracker envelope).2 := by
  have hkey : StreamEnvelope.streamKey
      ⟨envelope.topic, envelope.scope, envelope.sequence, envelope.payload⟩ =
        envelope.streamKey := rfl
  unfold consumeAnalysisStreamMessage consumeRealtimeEnvelope
  rw [hkey]
  cases hpayload : envelope.payload with
  | subscribed subscriptionId =>
    simp [htype, hpayload, payloadType, analysisResult, payloadResult]
  | event message =>
    simp only [htype, hpayload, payloadType, reduceCtorEq, or_self, if_false]
    by_cases hpaused : tracker.pausedStreams envelope.streamKey
    · simp [hpaused, analysisResult]
    · cases tracker.lastSequenceByStream envelope.streamKey with
      | none => simp [hpaused, analysisResult, payloadResult]
      | some q =>
        simp only [hpaused, if_false, Bool.false_eq_true]
        split_ifs <;> simp [analysisResult, payloadResult]
  | heartbeat =>
    simp only [htype, hpayload, payloadType, reduceCtorEq, if_true, if_false]
    by_cases hpaused : tracker.pausedStreams envelope.streamKey
    · simp [hpaused, analysisResult]
    · cases tracker.lastSequenceByStream envelope.streamKey with
      | none => simp [hpaused, analysisResult]
      | some q =>
        simp only [hpaused, if_false, Bool.false_eq_true, gt_iff_lt]
        split_ifs <;> simp [analysisResult]
  | snapshotRequired message =>
    simp only [htype, hpayload, payloadType, reduceCtorEq, true_or, if_true, if_false]
    split_ifs <;> simp [analysisResult, payloadMessage]
  | slowConsumer message =>
    simp only [htype, hpayload, payloadType, reduceCtorEq, or_true, if_true, if_false]
    split_ifs <;> simp [analysisResult, payloadMessage]
  | error code message =>
    simp only [htype, hpayload, payloadType, reduceCtorEq, or_self, if_true, if_false]
    split_ifs <;> simp [analysisResult, payloadResult]

end

end Goodmoneying.Analysis.StreamGaps
