import Goodmoneying.Analysis.KeysetPagination
import Goodmoneying.Analysis.StreamGaps

/-!
# Cursors of a stream

A cursor reads back as the context that it was made of (`decodeStreamCursor_encode`), so a builder
that is resumed from the cursor of an envelope goes on as the one that made it
(`resumed_stream_continues`).
-/

namespace Goodmoneying.Analysis.StreamGaps

open List Library Program

/-- A time as the stream writes it is read as that time. -/
theorem parseUtc_streamTime (t : UtcTime) : parseUtc (streamTime t) = .ok t := by
  let date := t.datetime.date
  let text := fixedDigits 4 date.year ++ '-' :: (fixedDigits 2 date.month ++
    '-' :: (fixedDigits 2 date.day ++ 'T' :: clockText true t.datetime.timeOfDay))
  have htext : t.datetime.isoformat.toList = text ++ "+00:00".toList := by
    have hzero : UtcOffset.text ⟨0, by decide⟩ = "+00:00".toList := by decide
    have hoffset : t.datetime.utcoffset.text = "+00:00".toList := hzero
    simp only [Datetime.isoformat, String.toList_ofList, hoffset, text, date, append_assoc,
      cons_append]
  have hchar : ∀ c ∈ text, c ≠ '+' ∧ c ≠ 'Z' := by
    intro c hc
    have hkind : c.isDigit = true ∨ c ∈ ['-', 'T', ':', '.'] := by
      simp only [text, mem_append, mem_cons] at hc
      grind [isDigit_of_mem_fixedDigits, mem_clockText]
    constructor <;> rintro rfl <;> revert hkind <;> decide
  have hwritten : streamTime t = .ofList (text ++ ['Z']) :=
    congrArg String.ofList ((congrArg _ htext).trans (replaceAll_append fun h => (hchar _ h).1 rfl))
  have hread : String.ofList (Library.replaceAll "Z".toList "+00:00".toList (streamTime t).toList) =
      t.datetime.isoformat := by
    rw [hwritten, @String.toList_ofList (text ++ ['Z']),
      ← @String.ofList_toList t.datetime.isoformat, htext]
    exact congrArg _ (replaceAll_append fun h => (hchar _ h).2 rfl)
  rw [parseUtc, hread, fromisoformat_isoformat, ok_bind, UtcTime.ofDatetime_datetime,
    UtcTime.addTimedelta_eq_ok]
  exact (add_zero _).symm

/-- The entries of a cursor, in the order of their keys. -/
def cursorEntries (context : StreamCursorContext) : List (String × JsonValue) := [
  ("expiresAt", .text (streamTime context.expiresAt)),
  ("issuedAt", .text (streamTime context.issuedAt)),
  ("scope", .text context.scope),
  ("sequence", .int context.sequence),
  ("snapshotVersion", .text context.snapshotVersion),
  ("topic", .text context.topic)]

theorem base64UrlEncode_ascii (bytes : List ℕ) :
    ∀ c ∈ (base64UrlEncode bytes).toList, c.toNat < 128 ∧ c ≠ '.' := by
  intro c hc
  rw [base64UrlEncode, String.toList_ofList, unpadded_b64encode] at hc
  obtain ⟨n, rfl⟩ := mem_b64digits hc
  have hpoint : ∀ m : Fin 64, sextetChar m ≠ '.' := by decide
  refine ⟨(sextetChar_plain n).1, ?_⟩
  by_cases hn : n < 64
  · exact hpoint ⟨n, hn⟩
  · rw [sextetChar, if_neg (by omega), if_neg (by omega), if_neg (by omega), if_neg (by omega)]
    decide

theorem base64UrlDecode_encode {bytes : List ℕ} (h : ∀ b ∈ bytes, b < 256) :
    base64UrlDecode (base64UrlEncode bytes).toList = some bytes := by
  have hascii : ((base64UrlEncode bytes).toList.all fun c => c.toNat < 128) = true :=
    all_eq_true.mpr fun c hc => decide_eq_true (base64UrlEncode_ascii bytes c hc).1
  rw [base64UrlDecode, if_pos hascii, base64UrlEncode, String.toList_ofList, padded_unpadded,
    b64decode_b64encode h]

variable (hmacSha256 : List ℕ → List ℕ → List (Fin 256)) (repr : JsonValue → String)
  (intOfText : String → Option ℤ)

theorem loads_canonicalJsonBytes {value : JsonValue} (h : value.Canonical) :
    utf8Text (canonicalJsonBytes value) >>= JsonValue.loads = some value := by
  rw [canonicalJsonBytes, utf8Text_utf8Bytes]
  exact loads_dumps h

theorem readCursorContext_entries (context : StreamCursorContext) :
    readCursorContext repr intOfText (canonicalJsonBytes (.mapping (cursorEntries context))) =
      .ok context := by
  have hcanonical : (JsonValue.mapping (cursorEntries context)).Canonical := by
    refine .mapping _ ?_ ?_
    · change List.Pairwise (· < ·) ["expiresAt", "issuedAt", "scope", "sequence",
        "snapshotVersion", "topic"]
      decide
    · simp only [cursorEntries, forall_mem_cons]
      exact ⟨.text _, .text _, .text _, .int _, .text _, .text _, by simp⟩
  have hloads := loads_canonicalJsonBytes hcanonical
  unfold readCursorContext
  simp only [hloads]
  simp [getKey, cursorEntries, jsonStr, jsonInt, parseUtc_streamTime]

/-- Whose cursor it is, whether it has expired, and its sequence are all that is looked at in a
cursor of the own secret. -/
theorem decodeStreamCursor_encode (context : StreamCursorContext) (secret topic scope : String)
    (now : UtcTime) :
    decodeStreamCursor hmacSha256 repr intOfText (encodeStreamCursor hmacSha256 context secret)
        secret (some topic) (some scope) now =
      if context.topic ≠ topic ∨ context.scope ≠ scope then
        .error (.mismatch "stream cursor 문맥이 현재 구독과 다릅니다.")
      else if context.expiresAt ≤ now then .error (.expired "stream cursor가 만료되었습니다.")
      else if context.sequence < 0 then
        .error (.tampered "stream cursor sequence가 올바르지 않습니다.")
      else .ok context := by
  let payload := canonicalJsonBytes (.mapping (cursorEntries context))
  let signature := (hmacSha256 (utf8Bytes secret) payload).map Fin.val
  have hcursor : (encodeStreamCursor hmacSha256 context secret).toList =
      (base64UrlEncode payload).toList ++ '.' :: (base64UrlEncode signature).toList := by
    have hpayload : canonicalJsonBytes (.mapping _) = payload := congrArg utf8Bytes
      (dumps_mapping_of_perm ((reverse_perm [_, _, _, _, _, _]).symm.trans
        ((((reverse_perm [_, _, _]).symm.append_right [_]).cons _).cons _))
        (by decide : ["topic", "scope", "sequence", "snapshotVersion", "issuedAt",
          "expiresAt"].Nodup))
    rw [encodeStreamCursor, hpayload, String.toList_append, String.toList_append]
    simp [signature]
  have hpoint : ∀ c ∈ (base64UrlEncode payload).toList, (decide (c ≠ '.')) = true :=
    fun c hc => decide_eq_true (base64UrlEncode_ascii payload c hc).2
  have htake : (encodeStreamCursor hmacSha256 context secret).toList.takeWhile (· ≠ '.') =
      (base64UrlEncode payload).toList := by
    rw [hcursor, takeWhile_append_of_pos hpoint]
    simp
  have hdrop : (encodeStreamCursor hmacSha256 context secret).toList.dropWhile (· ≠ '.') =
      '.' :: (base64UrlEncode signature).toList := by
    rw [hcursor, dropWhile_append_of_pos hpoint]
    simp
  have hpayload : base64UrlDecode (base64UrlEncode payload).toList = some payload :=
    base64UrlDecode_encode (lt_of_mem_utf8Bytes _)
  have hsignature : base64UrlDecode (base64UrlEncode signature).toList = some signature :=
    base64UrlDecode_encode (by simp [signature])
  have hcontext : readCursorContext repr intOfText payload = .ok context :=
    readCursorContext_entries repr intOfText context
  unfold decodeStreamCursor
  simp only [htake, hdrop, hpayload, hsignature, hcontext]
  rw [if_neg (not_not.mpr rfl), ok_bind]
  split_ifs <;> rfl

variable {P : Type}

/-- The builder after what it has been asked to send. -/
def builderAfter (builder : RealtimeEnvelopeBuilder) (sends : List (StreamSend P)) :
    RealtimeEnvelopeBuilder :=
  sends.foldl (fun builder send => (builder.make hmacSha256 send).1) builder

/-- Only the sequence of a builder changes, and it does not fall. -/
theorem builderAfter_spec (builder : RealtimeEnvelopeBuilder) (sends : List (StreamSend P)) :
    ∃ sequence, builder.sequence ≤ sequence ∧
      builderAfter hmacSha256 builder sends = { builder with sequence := sequence } := by
  induction sends generalizing builder with
  | nil => exact ⟨_, le_rfl, rfl⟩
  | cons send sends ih =>
    obtain ⟨sequence, hle, heq⟩ := ih (builder.make hmacSha256 send).1
    refine ⟨sequence, ?_, heq.trans ?_⟩
    · refine le_trans ?_ hle
      unfold RealtimeEnvelopeBuilder.make
      split_ifs <;> simp
    · unfold RealtimeEnvelopeBuilder.make
      split_ifs <;> rfl

/-- What is asked for later is made by the builder as it is then. -/
theorem makeAll_append (builder : RealtimeEnvelopeBuilder) (before after : List (StreamSend P)) :
    builder.makeAll hmacSha256 (before ++ after) = builder.makeAll hmacSha256 before ++
      (builderAfter hmacSha256 builder before).makeAll hmacSha256 after := by
  induction before generalizing builder with
  | nil => rfl
  | cons send before ih =>
    rw [cons_append, RealtimeEnvelopeBuilder.makeAll, RealtimeEnvelopeBuilder.makeAll]
    cases hmade : (builder.make hmacSha256 send).2 <;> simp only [hmade, ih] <;> rfl

/-- The cursor of an envelope has the sequence of the builder after it. -/
theorem make_cursor {builder : RealtimeEnvelopeBuilder} {send : StreamSend P}
    {envelope : RealtimeStreamEnvelope P} (h : (builder.make hmacSha256 send).2 = .ok envelope) :
    ∃ expiresAt, send.now.addTimedelta builder.cursorTtl = .ok expiresAt ∧
      envelope.cursor = encodeStreamCursor hmacSha256 ⟨builder.topic, builder.scope,
        (builder.make hmacSha256 send).1.sequence, builder.snapshotVersion, send.now, expiresAt⟩
          builder.cursorSecret := by
  unfold RealtimeEnvelopeBuilder.make at h ⊢
  split_ifs at h ⊢ <;>
    obtain ⟨expiresAt, hexpires, henvelope⟩ := bind_eq_ok.mp h <;>
    exact ⟨expiresAt, hexpires, (congrArg RealtimeStreamEnvelope.cursor
      (Except.ok.inj henvelope)).symm⟩

/-- The cursor of any envelope that a builder makes is refused in another topic or scope and from
its expiry on. Until then, every builder of this stream can be resumed from it, and makes what the
first one makes after the envelope.
SOURCE: realtime_stream.py:48-99, 102-158, 186-206 -/
theorem resumed_stream_continues (builder : RealtimeEnvelopeBuilder) (hstart : 0 ≤ builder.sequence)
    (before : List (StreamSend P)) (send : StreamSend P) (after : List (StreamSend P))
    {envelope : RealtimeStreamEnvelope P}
    (hmade : ((builderAfter hmacSha256 builder before).make hmacSha256 send).2 = .ok envelope) :
    ∃ context resumed,
      send.now.addTimedelta builder.cursorTtl = .ok context.expiresAt ∧
      (∀ topic scope now, decodeStreamCursor hmacSha256 repr intOfText envelope.cursor
        builder.cursorSecret (some topic) (some scope) now =
          if builder.topic ≠ topic ∨ builder.scope ≠ scope then
            .error (.mismatch "stream cursor 문맥이 현재 구독과 다릅니다.")
          else if context.expiresAt ≤ now then
            .error (.expired "stream cursor가 만료되었습니다.")
          else .ok context) ∧
      (∀ sequence, { builder with sequence := sequence }.resumeFrom context = .ok resumed) ∧
      builder.makeAll hmacSha256 (before ++ send :: after) =
        builder.makeAll hmacSha256 before ++ envelope :: resumed.makeAll hmacSha256 after := by
  obtain ⟨current, hle, hbefore⟩ := builderAfter_spec hmacSha256 builder before
  obtain ⟨sequence, hle', hafter⟩ := builderAfter_spec hmacSha256 builder (before ++ [send])
  have hnext : ((builderAfter hmacSha256 builder before).make hmacSha256 send).1 =
      { builder with sequence := sequence } := by
    rw [← hafter, builderAfter, builderAfter, foldl_append]
    rfl
  obtain ⟨expiresAt, hexpires, hcursor⟩ := make_cursor hmacSha256 hmade
  rw [hnext, hbefore] at hcursor
  rw [hbefore] at hexpires
  refine ⟨⟨builder.topic, builder.scope, sequence, builder.snapshotVersion, send.now, expiresAt⟩,
    { builder with sequence := sequence }, hexpires, fun topic scope now => ?_, fun _ => ?_, ?_⟩
  · rw [hcursor, decodeStreamCursor_encode]
    have hsequence : ¬ sequence < 0 := not_lt.mpr (hstart.trans hle')
    simp only [hsequence, if_false]
  · simp [RealtimeEnvelopeBuilder.resumeFrom]
  · rw [makeAll_append, RealtimeEnvelopeBuilder.makeAll]
    simp only [hmade, hnext]

/-- A session is resumed from its first envelope, and the event comes next. -/
theorem resumed_stream_session :
    ∃ (envelope : RealtimeStreamEnvelope Unit) (context : StreamCursorContext)
      (resumed : RealtimeEnvelopeBuilder),
      decodeStreamCursor (fun _ _ => []) (fun _ => "") (fun _ => none) envelope.cursor "secret"
        (some "analysis") (some "operator:local") ⟨0, UtcTime.zero_in_calendar⟩ = .ok context ∧
      bareSent [bareSend .subscribed none, bareSend .event none] =
        envelope :: resumed.makeAll (fun _ _ => []) [bareSend .event none] := by
  obtain ⟨context, resumed, hexpires, hdecode, -, hrest⟩ :=
    resumed_stream_continues (fun _ _ => []) (fun _ => "") (fun _ => none)
      { topic := "analysis", scope := "operator:local", cursorSecret := "secret" } le_rfl []
      (bareSend .subscribed none) [bareSend .event none] rfl
  refine ⟨_, context, resumed, (hdecode _ _ _).trans ?_, hrest⟩
  rw [UtcTime.addTimedelta_eq_ok] at hexpires
  have hlater : ¬ context.expiresAt ≤ ⟨0, UtcTime.zero_in_calendar⟩ := by
    change ¬ context.expiresAt.microseconds ≤ 0
    simp only [bareSend] at hexpires
    omega
  rw [if_neg (by decide), if_neg hlater]

end Goodmoneying.Analysis.StreamGaps
