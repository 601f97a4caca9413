import Mathlib.Algebra.Order.Ring.Int
import Mathlib.Data.Int.ConditionallyCompleteOrder
import Mathlib.Data.List.Induction
import Mathlib.Order.ConditionallyCompleteLattice.Finset
import Mathlib.Order.Monotone.Defs

/-!
# Detecting gaps by sequence numbers

A receiver of numbered items remembers the last number and stops where a number is missing, until a
new start. Between two starts it passes items with consecutive numbers (`Receiver.passedItems_log`).
If a sender counts its starts and items, and its beats tell the count, then whatever the channel
loses, repeats or reorders: when a signal that is checked is not answered as lost, all items sent
since the last start have been passed (`Numbering.all_passed`).
-/

namespace Goodmoneying.Library.GapDetection

open List

variable {n : ℤ}

/-! ## The receiver -/

/-- What a receiver is told: a start or an item with its number, a beat with the number of the last
one, an alarm, or something that is not numbered. -/
inductive Signal where
  | start (n : ℤ)
  | item (n : ℤ)
  | beat (n : ℤ)
  | alarm
  | aside
  deriving DecidableEq

/-- What a receiver does with a signal. -/
inductive Answer where
  | passed | heard | lost | ignored
  deriving DecidableEq

/-- The last number, and whether a number is missing. -/
structure Receiver where
  last : Option ℤ
  stopped : Bool

namespace Receiver

def new : Receiver := ⟨none, false⟩

def stop (r : Receiver) : Receiver := { r with stopped := true }

/-- The state after a signal, and the answer. -/
def receive (r : Receiver) : Signal → Receiver × Answer
  | .start n => (⟨some n, false⟩, .passed)
  | .item n =>
    if r.stopped then (r, .lost)
    else match r.last with
      | none => (⟨some n, false⟩, .passed)
      | some q =>
        if n ≤ q then (r, .ignored)
        else if n = q + 1 then (⟨some n, false⟩, .passed)
        else (r.stop, .lost)
  | .beat n =>
    if r.stopped then (r, .lost)
    else match r.last with
      | none => (⟨some n, false⟩, .heard)
      | some q => if q < n then (r.stop, .lost) else (r, .heard)
  | .alarm => (r.stop, .lost)
  | .aside => if r.stopped then (r, .lost) else (r, .passed)

end Receiver

/-- A signal after which the numbers count from anew. -/
def Signal.isStart : Signal → Bool
  | .start _ => true
  | _ => false

variable {μ : Type} (signal : μ → Signal)

/-- Messages with the answers they get. -/
abbrev Log (μ : Type) := List (μ × Answer)

/-- The number of an item that has been passed. -/
def passedItem (entry : μ × Answer) : Option ℤ :=
  match signal entry.1, entry.2 with
  | .item n, .passed => some n
  | _, _ => none

/-- The number of a start or of an item that has been passed. -/
def passedNumber (entry : μ × Answer) : Option ℤ :=
  match signal entry.1, entry.2 with
  | .start n, _ => some n
  | .item n, .passed => some n
  | _, _ => none

/-- The last number delivered. -/
def lastPassed (log : Log μ) : Option ℤ := (log.filterMap (passedNumber signal)).getLast?

/-- No message of the log is a start. -/
def NoStart (log : Log μ) : Prop := ∀ entry ∈ log, (signal entry.1).isStart = false

/-- A message has been answered as lost, and no start has come since. -/
def Halted (log : Log μ) : Prop :=
  ∃ before entry after, log = before ++ entry :: after ∧ entry.2 = .lost ∧ NoStart signal after

/-- The message tells that something is missing: after the number `last`, if there is one. -/
def TellsLoss (last : Option ℤ) : Signal → Prop
  | .item n => ∃ q ∈ last, q + 1 < n
  | .beat n => ∃ q ∈ last, q < n
  | .alarm => True
  | .start _ => False
  | .aside => False

variable {signal}

variable {m : μ}

theorem passedItem_item (h : signal m = .item n) : passedItem signal (m, .passed) = some n := by
  simp [passedItem, h]

theorem passedNumber_item (h : signal m = .item n) : passedNumber signal (m, .passed) = some n := by
  simp [passedNumber, h]

/-! ## Logs -/

variable {s : Signal}

namespace Receiver

variable (signal) in
/-- The state after the messages. -/
def after (r : Receiver) (messages : List μ) : Receiver :=
  messages.foldl (fun r m => (r.receive (signal m)).1) r

variable (signal) in
/-- The messages with the answers they get. -/
def log (r : Receiver) : List μ → Log μ
  | [] => []
  | m :: messages => (m, (r.receive (signal m)).2) :: log (r.receive (signal m)).1 messages

variable {r : Receiver}

theorem after_cons (m : μ) (messages : List μ) :
    r.after signal (m :: messages) = (r.receive (signal m)).1.after signal messages := rfl

theorem log_append (messages others : List μ) : r.log signal (messages ++ others) =
      r.log signal messages ++ (r.after signal messages).log signal others := by
  induction messages generalizing r with
  | nil => rfl
  | cons m messages ih => rw [cons_append, log, ih, log, after_cons, cons_append]

theorem map_fst_log (messages : List μ) : (r.log signal messages).map Prod.fst = messages := by
  induction messages generalizing r with
  | nil => rfl
  | cons m messages ih => rw [log, map_cons, ih]

/-- The log of messages that have names. -/
theorem log_map {ν : Type} (name : ν → μ) (names : List ν) : r.log signal (names.map name) =
      (r.log (signal ∘ name) names).map fun entry => (name entry.1, entry.2) := by
  induction names generalizing r with
  | nil => rfl
  | cons m names ih => rw [map_cons, log, ih, log, map_cons]; rfl

/-- A part of the log is the log of the messages of that part. -/
theorem log_eq_append {messages : List μ} {before rest : Log μ}
    (h : r.log signal messages = before ++ rest) : r.log signal (before.map Prod.fst) = before ∧
      (r.after signal (before.map Prod.fst)).log signal (rest.map Prod.fst) = rest := by
  have hmessages : messages = before.map Prod.fst ++ rest.map Prod.fst := by
    rw [← map_append, ← h, map_fst_log]
  rw [hmessages, log_append] at h
  refine append_inj h ?_
  rw [← length_map Prod.fst, map_fst_log, length_map]

/-- One message of the log, after those before it. -/
theorem log_eq_append_cons {messages : List μ} {before rest : Log μ} {entry : μ × Answer}
    (h : r.log signal messages = before ++ entry :: rest) :
    ((r.after signal (before.map Prod.fst)).receive (signal entry.1)).2 = entry.2 ∧
      ((r.after signal (before.map Prod.fst)).receive (signal entry.1)).1.log signal
        (rest.map Prod.fst) = rest := by
  have hrest := (log_eq_append h).2
  rw [map_cons, log, List.cons.injEq] at hrest
  exact ⟨congrArg Prod.snd hrest.1, hrest.2⟩

/-! ## Between two starts -/

/-- After it has stopped, a receiver answers everything as lost, up to the next start. -/
theorem receive_of_stopped (hr : r.stopped = true) (hs : s.isStart = false) :
    r.receive s = (r, .lost) := by
  cases s with
  | start n => simp [Signal.isStart] at hs
  | item n => simp [receive, hr]
  | beat n => simp [receive, hr]
  | alarm => simp [receive, stop, ← hr]
  | aside => simp [receive, hr]

theorem log_of_stopped (hr : r.stopped = true) {messages : List μ}
    (hstart : ∀ m ∈ messages, (signal m).isStart = false) :
    ∀ entry ∈ r.log signal messages, entry.2 = .lost := by
  induction messages generalizing r with
  | nil => simp [log]
  | cons m messages ih =>
    rw [forall_mem_cons] at hstart
    rw [log, forall_mem_cons, receive_of_stopped hr hstart.1]
    exact ⟨rfl, ih hr hstart.2⟩

/-- A signal without a start keeps the last number or passes the next one. -/
theorem receive_cases {q : ℤ} (hlast : r.last = some q) (hs : s.isStart = false) :
    (r.receive s).1.last = some q ∧ (∀ n, s = .item n → (r.receive s).2 ≠ .passed) ∨
      s = .item (q + 1) ∧ (r.receive s).2 = .passed ∧ r.stopped = false ∧
        (r.receive s).1 = ⟨some (q + 1), false⟩ := by
  cases s with
  | start n => simp [Signal.isStart] at hs
  | item n =>
    simp only [receive, hlast]
    split_ifs with hstopped hold hnext
    · exact .inl ⟨hlast, by simp⟩
    · exact .inl ⟨hlast, by simp⟩
    · subst hnext
      exact .inr ⟨rfl, rfl, by simpa using hstopped, rfl⟩
    · exact .inl ⟨hlast, by simp⟩
  | beat n =>
    simp only [receive, hlast]
    split_ifs <;> exact .inl ⟨hlast, by simp⟩
  | alarm => exact .inl ⟨hlast, by simp⟩
  | aside =>
    simp only [receive]
    split_ifs <;> exact .inl ⟨hlast, by simp⟩

/-- The items passed up to the next start have consecutive numbers. -/
theorem passedItems_log {q : ℤ} (hlast : r.last = some q) {messages : List μ}
    (hstart : ∀ m ∈ messages, (signal m).isStart = false) :
    ∃ k : ℕ, (r.log signal messages).filterMap (passedItem signal) =
      (List.range k).map fun i : ℕ => q + 1 + i := by
  induction messages generalizing r q with
  | nil => exact ⟨0, rfl⟩
  | cons m messages ih =>
    rw [forall_mem_cons] at hstart
    obtain ⟨hkept, hnot⟩ | ⟨hitem, hpassed, -, hnext⟩ := receive_cases hlast hstart.1
    · obtain ⟨k, hk⟩ := ih hkept hstart.2
      refine ⟨k, ?_⟩
      have hnone : passedItem signal (m, (r.receive (signal m)).2) = none := by
        unfold passedItem
        split
        next n hsignal hanswer => exact absurd hanswer (hnot n hsignal)
        next => rfl
      rw [log, filterMap_cons_none hnone, hk]
    · have hlast' : (r.receive (signal m)).1.last = some (q + 1) := by rw [hnext]
      obtain ⟨k, hk⟩ := ih hlast' hstart.2
      refine ⟨k + 1, ?_⟩
      have hsome : passedItem signal (m, (r.receive (signal m)).2) = some (q + 1) := by
        rw [hpassed, passedItem_item hitem]
      rw [log, filterMap_cons_some hsome, hk, range_succ_eq_map, map_cons, map_map]
      congr 1
      · simp
      · refine map_congr_left fun i _ => ?_
        simp only [Function.comp_apply, Nat.cast_succ]
        omega

/-! ## Stopping -/

/-- A start is passed, and the receiver goes on. -/
theorem receive_of_isStart (hs : s.isStart = true) :
    (r.receive s).2 = .passed ∧ (r.receive s).1.stopped = false := by
  cases s with
  | start n => exact ⟨rfl, rfl⟩
  | item n => simp [Signal.isStart] at hs
  | beat n => simp [Signal.isStart] at hs
  | alarm => simp [Signal.isStart] at hs
  | aside => simp [Signal.isStart] at hs

/-- A receiver that goes on stops at the signals that it answers as lost. -/
theorem stopped_receive_iff (hr : r.stopped = false) :
    (r.receive s).1.stopped = true ↔ (r.receive s).2 = .lost := by
  cases s with
  | start n => simp [receive]
  | item n =>
    cases hlast : r.last with
    | none => simp [receive, hr, hlast]
    | some q =>
      simp only [receive, hr, hlast]
      split_ifs <;> simp_all [stop]
  | beat n =>
    cases hlast : r.last with
    | none => simp [receive, hr, hlast]
    | some q =>
      simp only [receive, hr, hlast]
      split_ifs <;> simp_all [stop]
  | alarm => simp [receive, stop]
  | aside => simp [receive, hr]

/-- An answer of loss leaves the receiver stopped. -/
theorem stopped_of_lost (h : (r.receive s).2 = .lost) : (r.receive s).1.stopped = true := by
  cases hr : r.stopped with
  | false => exact (stopped_receive_iff hr).mpr h
  | true =>
    cases hs : s.isStart with
    | false => rwa [receive_of_stopped hr hs]
    | true =>
      rw [(receive_of_isStart hs).1] at h
      cases h

/-- After an answer of loss everything is lost, up to the next start. -/
theorem lost_after {messages : List μ} {before after rest : Log μ} {entry : μ × Answer}
    (h : r.log signal messages = before ++ entry :: (after ++ rest)) (hlost : entry.2 = .lost)
    (hstart : NoStart signal after) : ∀ other ∈ after, other.2 = .lost := by
  obtain ⟨hanswer, hlog⟩ := log_eq_append_cons h
  have hafter := (log_eq_append hlog).1
  rw [← hafter]
  refine log_of_stopped (stopped_of_lost (hanswer.trans hlost)) fun m hm => ?_
  obtain ⟨other, hother, rfl⟩ := mem_map.mp hm
  exact hstart other hother

/-- A receiver stops at a signal that it answers as lost. -/
theorem stopped_receive (h : (r.receive s).1.stopped = true) :
    s.isStart = false ∧ (r.stopped = true ∨ (r.receive s).2 = .lost) := by
  constructor
  · by_contra hstart
    rw [(receive_of_isStart (Bool.eq_true_of_not_eq_false hstart)).2] at h
    cases h
  · cases hr : r.stopped with
    | true => exact .inl rfl
    | false => exact .inr ((stopped_receive_iff hr).mp h)

theorem log_concat (messages : List μ) (m : μ) : r.log signal (messages ++ [m]) =
      r.log signal messages ++ [(m, ((r.after signal messages).receive (signal m)).2)] := by
  rw [log_append, log, log]

theorem after_concat (messages : List μ) (m : μ) :
    r.after signal (messages ++ [m]) = ((r.after signal messages).receive (signal m)).1 := by
  simp [after]

/-- What has stopped a receiver stands in its log. -/
theorem halted_of_stopped {messages : List μ} (h : (new.after signal messages).stopped = true) :
    Halted signal (new.log signal messages) := by
  induction messages using List.reverseRecOn with
  | nil => simp [after, new] at h
  | append_singleton messages m ih =>
    rw [after_concat] at h
    rw [log_concat]
    obtain ⟨hstart, hstopped | hlost⟩ := stopped_receive h
    · obtain ⟨before, entry, rest, hlog, hentry, hrest⟩ := ih hstopped
      rw [hlog, append_assoc, cons_append]
      refine ⟨before, entry, _, rfl, hentry, fun other hother => ?_⟩
      rcases mem_append.mp hother with hother | hother
      · exact hrest other hother
      · rwa [mem_singleton.mp hother]
    · exact ⟨_, _, [], rfl, hlost, by simp [NoStart]⟩

/-- A number that has been passed is remembered. -/
theorem last_of_passedNumber (h : passedNumber signal (m, (r.receive (signal m)).2) = some n) :
    (r.receive (signal m)).1.last = some n := by
  unfold passedNumber at h
  split at h
  next n' answer hsignal =>
    rw [hsignal, ← h]
    rfl
  next n' hsignal hpassed =>
    dsimp only at hsignal hpassed
    rw [hsignal] at hpassed ⊢
    simp only [receive] at hpassed ⊢
    cases hlast : r.last with
    | none =>
      simp only [hlast] at hpassed ⊢
      split_ifs at hpassed ⊢
      exact h
    | some q =>
      simp only [hlast] at hpassed ⊢
      split_ifs at hpassed ⊢
      exact h
  next => simp at h

theorem last_of_passedNumber_none {q : ℤ}
    (h : passedNumber signal (m, (r.receive (signal m)).2) = none) (hlast : r.last = some q) :
    (r.receive (signal m)).1.last = some q := by
  cases hsignal : signal m with
  | start n => simp [passedNumber, hsignal] at h
  | _ =>
    rw [← hsignal]
    obtain ⟨hkept, -⟩ | ⟨hitem, hpassed, -, -⟩ :=
      receive_cases hlast (s := signal m) (by rw [hsignal]; rfl)
    · exact hkept
    · rw [hpassed, passedNumber_item hitem] at h
      simp at h

/-- What has been passed last is the last number of the receiver. -/
theorem last_of_lastPassed {messages : List μ} {q : ℤ}
    (h : lastPassed signal (new.log signal messages) = some q) :
    (new.after signal messages).last = some q := by
  induction messages using List.reverseRecOn with
  | nil => simp [lastPassed, log] at h
  | append_singleton messages m ih =>
    rw [log_concat, lastPassed, filterMap_append, List.getLast?_append] at h
    rw [after_concat]
    cases hnumber : passedNumber signal
        (m, ((new.after signal messages).receive (signal m)).2) with
    | none =>
      rw [filterMap_cons_none hnumber, filterMap_nil, List.getLast?_nil, Option.none_or] at h
      exact last_of_passedNumber_none hnumber (ih h)
    | some n =>
      rw [filterMap_cons_some hnumber, filterMap_nil, List.getLast?_singleton,
        Option.some_or, Option.some.injEq] at h
      rw [last_of_passedNumber hnumber, h]

/-- Where a message tells of a loss, everything is lost from there up to the next start. -/
theorem lost_of_tellsLoss {messages : List μ} {before after rest : Log μ} {entry : μ × Answer}
    (h : new.log signal messages = before ++ entry :: (after ++ rest))
    (htells : TellsLoss (lastPassed signal before) (signal entry.1))
    (hstart : NoStart signal after) : ∀ other ∈ entry :: after, other.2 = .lost := by
  have hanswer := (log_eq_append_cons h).1
  have hbefore := (log_eq_append h).1
  have hlast : ∀ q, lastPassed signal before = some q →
      (new.after signal (before.map Prod.fst)).last = some q := by
    intro q hq
    rw [← hbefore] at hq
    exact last_of_lastPassed hq
  have hlost : entry.2 = .lost := by
    rw [← hanswer]
    cases hsignal : signal entry.1 with
    | start n => simp [TellsLoss, hsignal] at htells
    | item n =>
      rw [hsignal] at htells
      obtain ⟨q, hq, hn⟩ := htells
      simp only [receive, hlast q hq]
      split_ifs with hstopped hold hnext
      · rfl
      · omega
      · omega
      · rfl
    | beat n =>
      rw [hsignal] at htells
      obtain ⟨q, hq, hn⟩ := htells
      simp only [receive, hlast q hq]
      split_ifs <;> rfl
    | alarm => rfl
    | aside => simp [TellsLoss, hsignal] at htells
  rw [forall_mem_cons]
  exact ⟨hlost, lost_after h hlost hstart⟩

/-- An item that is not newer than the last one passed is ignored, or the receiver has stopped. -/
theorem ignored_of_le {messages : List μ} {before rest : Log μ} {entry : μ × Answer} {q : ℤ}
    (h : new.log signal messages = before ++ entry :: rest) (hitem : signal entry.1 = .item n)
    (hlast : lastPassed signal before = some q) (hle : n ≤ q) :
    entry.2 = .ignored ∨ Halted signal before ∧ entry.2 = .lost := by
  have hanswer := (log_eq_append_cons h).1
  have hbefore := (log_eq_append h).1
  rw [← hbefore] at hlast ⊢
  rw [← hanswer, hitem]
  simp only [receive, last_of_lastPassed hlast, if_pos hle]
  split_ifs with hstopped
  · exact .inr ⟨halted_of_stopped hstopped, rfl⟩
  · exact .inl rfl

end Receiver

/-! ## Numbered messages -/

/-- The number that a signal tells. -/
def Signal.number : Signal → Option ℤ
  | .start n => some n
  | .item n => some n
  | .beat n => some n
  | _ => none

/-- Starts and items are counted. -/
def Signal.isCounted : Signal → Bool
  | .start _ => true
  | .item _ => true
  | _ => false

def Signal.isItem : Signal → Bool
  | .item _ => true
  | _ => false

theorem Signal.isCounted_of_isItem (h : s.isItem = true) : s.isCounted = true := by
  cases s <;> simp_all [isItem, isCounted]

/-- Messages in the order they are sent in, with the count of starts and items that each one
tells. -/
structure Numbering {ι : Type} [LinearOrder ι] (signal : ι → Signal) (count : ι → ℤ) : Prop where
  mono : Monotone count
  strict : ∀ {a b : ι}, a < b → (signal b).isCounted = true → count a < count b
  number : ∀ (a : ι) (n : ℤ), (signal a).number = some n → n = count a

namespace Numbering

variable {ι : Type} [LinearOrder ι] {signal : ι → Signal} {count : ι → ℤ}
variable {j : ι} {r : Receiver} {seen : Log ι}
variable {a i : ι}

/-- The receiver has stopped, or all items after the message `j` up to its number have been
passed. -/
def Covered (signal : ι → Signal) (count : ι → ℤ) (j : ι) (r : Receiver) (seen : Log ι) : Prop :=
  r.stopped = true ∨ ∃ q, r.last = some q ∧
    ∀ m, j < m → (signal m).isItem = true → count m ≤ q → (m, Answer.passed) ∈ seen

theorem eq_of_count_eq (h : Numbering signal count) {b : ι} (ha : (signal a).isCounted = true)
    (hb : (signal b).isCounted = true) (heq : count a = count b) : a = b := by
  rcases lt_trichotomy a b with hlt | heq' | hlt
  · have := h.strict hlt hb
    omega
  · exact heq'
  · have := h.strict hlt ha
    omega

theorem Covered.receive (hcovered : Covered signal count j r seen) (h : Numbering signal count)
    (ha : (signal a).isStart = false) :
    Covered signal count j (r.receive (signal a)).1 (seen ++ [(a, (r.receive (signal a)).2)]) := by
  rcases hcovered with hstopped | ⟨q, hlast, hseen⟩
  · exact .inl ((Receiver.receive_of_stopped hstopped ha).symm ▸ hstopped)
  · right
    obtain ⟨hkept, -⟩ | ⟨hitem, hpassed, -, hnext⟩ := Receiver.receive_cases hlast ha
    · exact ⟨q, hkept, fun m hm hmitem hle => mem_append_left _ (hseen m hm hmitem hle)⟩
    · refine ⟨q + 1, by rw [hnext], fun m hm hmitem hle => ?_⟩
      rw [hpassed]
      have hcount : q + 1 = count a := h.number a (q + 1) (by rw [hitem]; rfl)
      by_cases hold : count m ≤ q
      · exact mem_append_left _ (hseen m hm hmitem hold)
      · have hma : m = a := h.eq_of_count_eq (Signal.isCounted_of_isItem hmitem)
          (by rw [hitem]; rfl) (by omega)
        simp [hma]

theorem Covered.log (hcovered : Covered signal count j r seen) (h : Numbering signal count)
    {messages : List ι} (hstart : ∀ m ∈ messages, (signal m).isStart = false) :
    Covered signal count j (r.after signal messages) (seen ++ r.log signal messages) := by
  induction messages generalizing r seen with
  | nil => simpa [Receiver.log, Receiver.after] using hcovered
  | cons m messages ih =>
    rw [forall_mem_cons] at hstart
    rw [Receiver.log, Receiver.after_cons, append_cons]
    exact ih (hcovered.receive h hstart.1) hstart.2

/-- A message that is checked is answered as lost, unless everything before it is covered. -/
theorem Covered.answer (hcovered : Covered signal count j r seen) (h : Numbering signal count)
    (hstart : (signal i).isStart = false) (haside : signal i ≠ .aside) :
    (r.receive (signal i)).2 = .lost ∨
      ∀ m, j < m → m < i → (signal m).isItem = true → (m, Answer.passed) ∈ seen := by
  rcases hcovered with hstopped | ⟨q, hlast, hseen⟩
  · exact .inl (congrArg Prod.snd (Receiver.receive_of_stopped hstopped hstart))
  · cases hsignal : signal i with
    | start n => simp [Signal.isStart, hsignal] at hstart
    | item n =>
      have hn : n = count i := h.number i n (by rw [hsignal]; rfl)
      have hcovers : n ≤ q + 1 →
          ∀ m, j < m → m < i → (signal m).isItem = true → (m, Answer.passed) ∈ seen := by
        intro hle m hj hi hitem
        have hlt := h.strict hi (by rw [hsignal]; rfl)
        exact hseen m hj hitem (by omega)
      simp only [Receiver.receive, hlast]
      split_ifs with hstopped hold hnext
      · exact .inl rfl
      · exact .inr (hcovers (by omega))
      · exact .inr (hcovers (by omega))
      · exact .inl rfl
    | beat n =>
      have hn : n = count i := h.number i n (by rw [hsignal]; rfl)
      simp only [Receiver.receive, hlast]
      split_ifs with hstopped hlater
      · exact .inl rfl
      · exact .inl rfl
      · refine .inr fun m hj hi hitem => hseen m hj hitem ?_
        have hle := h.mono hi.le
        omega
    | alarm => exact .inl rfl
    | aside => exact absurd hsignal haside

/-- The receiver counts from the message `j`: a start, or the first one that arrives. -/
theorem Covered.basis (h : Numbering signal count)
    (hbasis : (signal j).isStart = true ∨ r = .new ∧ (signal j).number ≠ none) :
    Covered signal count j (r.receive (signal j)).1 [] := by
  have hreceive : (r.receive (signal j)).1.last = some (count j) := by
    cases hsignal : signal j with
    | start n => rw [h.number j n (by rw [hsignal]; rfl)]; rfl
    | item n =>
      rw [hsignal] at hbasis
      obtain hstart | ⟨rfl, -⟩ := hbasis
      · simp [Signal.isStart] at hstart
      · rw [h.number j n (by rw [hsignal]; rfl)]; rfl
    | beat n =>
      rw [hsignal] at hbasis
      obtain hstart | ⟨rfl, -⟩ := hbasis
      · simp [Signal.isStart] at hstart
      · rw [h.number j n (by rw [hsignal]; rfl)]; rfl
    | alarm => simp [hsignal, Signal.isStart, Signal.number] at hbasis
    | aside => simp [hsignal, Signal.isStart, Signal.number] at hbasis
  refine .inr ⟨count j, hreceive, fun m hm hitem hle => ?_⟩
  have hlt := h.strict hm (Signal.isCounted_of_isItem hitem)
  omega

/-- Whatever arrives, in whatever order: a message that is checked is answered as lost, or all
items sent before it, since the message from which the receiver counts, have been passed. -/
theorem all_passed (h : Numbering signal count) {arrivals : List ι} {before between rest : Log ι}
    {x y : Answer}
    (hlog : Receiver.new.log signal arrivals = before ++ (j, x) :: (between ++ (i, y) :: rest))
    (hbasis : (signal j).isStart = true ∨ before = [] ∧ (signal j).number ≠ none)
    (hbetween : NoStart signal between) (hstart : (signal i).isStart = false)
    (haside : signal i ≠ .aside) :
    y = .lost ∨ ∀ m, j < m → m < i → (signal m).isItem = true → (m, Answer.passed) ∈ between := by
  obtain ⟨-, hafter⟩ := Receiver.log_eq_append_cons hlog
  obtain ⟨hlogged, -⟩ := Receiver.log_eq_append hafter
  obtain ⟨hanswer, -⟩ := Receiver.log_eq_append_cons hafter
  have hfirst : Covered signal count j
      ((Receiver.new.after signal (before.map Prod.fst)).receive (signal j)).1 [] := by
    refine Covered.basis h (hbasis.imp_right fun ⟨hnil, hnumber⟩ => ⟨?_, hnumber⟩)
    rw [hnil]
    rfl
  have hmessages : ∀ m ∈ between.map Prod.fst, (signal m).isStart = false := by
    intro m hm
    obtain ⟨entry, hentry, rfl⟩ := mem_map.mp hm
    exact hbetween entry hentry
  have hcovered := hfirst.log h hmessages
  rw [hlogged, nil_append] at hcovered
  exact (hcovered.answer h hstart haside).imp_left hanswer.symm.trans

end Numbering

end Goodmoneying.Library.GapDetection
