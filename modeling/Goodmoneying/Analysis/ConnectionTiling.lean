import Goodmoneying.Library.SeparatedFields
import Goodmoneying.Library.SeparateSteps
import Goodmoneying.Analysis.ReconnectionGaps

/-!
# The quality intervals of a connection

While frames come in, the whole minutes since the first full one are recorded once each
(`Recorded.recordMinutes`). Closing adds the begun first minute, the minutes that a failure left
open, and the begun last one (`closeDataType_closed`). Together they are disjoint and cover the
connection; after a clean close the minutes behind the last recorded one are left out
(`connectionQuality_tiles`).
-/

namespace Goodmoneying.Analysis.ConnectionTiling

open List Library Program

variable {start stop connectedAt disconnectedAt through : ℤ} {other : String}
variable (rows : List QualityInterval) (value : ℤ)

/-! ## Minutes -/

theorem fullMinute_ge : value ≤ fullMinute value := by
  unfold fullMinute minuteBucket minute
  split_ifs <;> omega

theorem fullMinute_cases : (fullMinute value = minuteBucket value ∧ value = minuteBucket value ∨
      fullMinute value = minuteBucket value + minute ∧ minuteBucket value < value) ∧
      value < minuteBucket value + minute := by
  unfold fullMinute minuteBucket minute
  split_ifs <;> omega

theorem minuteStarts_of_le (h : stop ≤ start) : minuteStarts start stop = [] := by
  have hzero : ((stop - start + (minute - 1)) / minute).toNat = 0 := by
    unfold minute
    omega
  rw [minuteStarts, hzero, range_zero, map_nil]

/-- The minutes up to a border and the minutes from there. -/
theorem minuteStarts_append {middle : ℤ} (hstart : minute ∣ start) (hmiddle : minute ∣ middle)
    (hle : start ≤ middle) (hle' : middle ≤ stop) :
    minuteStarts start middle ++ minuteStarts middle stop = minuteStarts start stop := by
  obtain ⟨a, rfl⟩ := hstart
  obtain ⟨b, rfl⟩ := hmiddle
  have hcount : ((stop - minute * a + (minute - 1)) / minute).toNat =
      ((minute * b - minute * a + (minute - 1)) / minute).toNat +
        ((stop - minute * b + (minute - 1)) / minute).toNat := by
    unfold minute at *
    omega
  have hshift : ∀ i : ℕ, minute * b + i * minute = minute * a +
      ((((minute * b - minute * a + (minute - 1)) / minute).toNat + i : ℕ) : ℤ) * minute := by
    intro i
    unfold minute at *
    omega
  unfold minuteStarts
  rw [hcount, range_add, map_append, map_map]
  congr 1
  exact map_congr_left fun i _ => hshift i

/-- A time lies in one of the minutes between two borders exactly if it lies between the borders. -/
theorem exists_mem_minuteStarts_iff (hstart : minute ∣ start) (hstop : minute ∣ stop) (x : ℤ) :
    (∃ s ∈ minuteStarts start stop, s ≤ x ∧ x < s + minute) ↔ start ≤ x ∧ x < stop := by
  constructor
  · rintro ⟨s, hs, hle, hlt⟩
    obtain ⟨hfrom, -, hto⟩ := mem_minuteStarts hstart hstop hs
    omega
  · rintro ⟨hle, hlt⟩
    obtain ⟨a, rfl⟩ := hstart
    obtain ⟨b, rfl⟩ := hstop
    refine ⟨minute * a + ((x - minute * a) / minute).toNat * minute, mem_map.mpr
      ⟨((x - minute * a) / minute).toNat, mem_range.mpr ?_, rfl⟩, ?_, ?_⟩ <;>
      unfold minute at * <;> omega

theorem minuteStarts_sorted (start stop : ℤ) : (minuteStarts start stop).Pairwise (· < ·) := by
  rw [minuteStarts, pairwise_map]
  refine pairwise_lt_range.imp fun {i j} hlt => ?_
  unfold minute
  omega

/-! ## Recorded intervals -/

/-- An interval of time with a quality. -/
structure QualitySpan where
  start : ℤ
  stop : ℤ
  quality : SourceQuality

/-- The interval of a row. -/
def spanOf (values : IntervalValues) : QualitySpan :=
  ⟨values.rangeStartAt, values.rangeEndAt, values.quality⟩

/-- The rows of a connection and a data type. -/
def rowsOf (db : RealtimeDatabase) (connectionId dataType : String) : List QualityInterval :=
  db.intervals.filter fun row => row.connectionId = connectionId && row.dataType = dataType

/-- The intervals recorded of a connection and a data type. -/
def spans (db : RealtimeDatabase) (connectionId dataType : String) : List QualitySpan :=
  (rowsOf db connectionId dataType).map fun row => spanOf row.toIntervalValues

/-- The text of which the fingerprint of a row is made. -/
def fingerprintText (values : IntervalValues) : FingerprintText :=
  if values.quality = .available then
    .minute values.connectionId values.dataType values.rangeStartAt values.rangeEndAt
  else
    .interval values.connectionId values.marketId values.dataType values.rangeStartAt
      values.rangeEndAt values.quality values.reasonCode

/-- The values are of the connection, of no single market, and have their fingerprint, that of one
of the texts. -/
structure Writes (sha256 : String → String) (texts : Set FingerprintText) (connectionId : String)
    (values : IntervalValues) : Prop where
  connectionId : values.connectionId = connectionId
  marketId : values.marketId = none
  mem : fingerprintText values ∈ texts
  fingerprint : values.fingerprint = sha256 (fingerprintText values).text

/-- What is recorded of a connection so far. -/
def Written (sha256 : String → String) (texts : Set FingerprintText) (connectionId : String)
    (db : RealtimeDatabase) : Prop :=
  ∀ row ∈ db.intervals, row.connectionId = connectionId →
    Writes sha256 texts connectionId row.toIntervalValues

section

variable {sha256 : String → String} {texts : Set FingerprintText} {connectionId dataType : String}
  {db : RealtimeDatabase} {values : IntervalValues}
variable {many : List IntervalValues}

/-- A row of the session is inserted. -/
theorem Written.insert (h : Written sha256 texts connectionId db)
    (hvalues : Writes sha256 texts connectionId values) :
    Written sha256 texts connectionId (db.insertInterval values) := by
  intro row hrow hid
  rcases mem_insertInterval hrow with hrow | hrow
  · exact h row hrow hid
  · exact hrow ▸ hvalues

/-- Texts of one fingerprint are of one data type and one start. -/
theorem fingerprintText_inj {other : IntervalValues}
    (h : fingerprintText values = fingerprintText other) :
    values.dataType = other.dataType ∧ values.rangeStartAt = other.rangeStartAt := by
  unfold fingerprintText at h
  split_ifs at h <;> simp_all

/-- An interval of another data type does not show. -/
theorem spans_insert_of_ne (h : values.dataType ≠ dataType) :
    spans (db.insertInterval values) connectionId dataType = spans db connectionId dataType := by
  unfold spans rowsOf RealtimeDatabase.insertInterval
  dsimp only
  split_ifs
  · rfl
  · simp [filter_append, h]

/-- An interval with a new start is added. -/
theorem spans_insert (hinj : Set.InjOn (fun text => sha256 text.text) texts)
    (h : Written sha256 texts connectionId db)
    (hvalues : Writes sha256 texts connectionId values) (htype : values.dataType = dataType)
    (hnew : values.rangeStartAt ∉ (spans db connectionId dataType).map QualitySpan.start) :
    spans (db.insertInterval values) connectionId dataType =
      spans db connectionId dataType ++ [spanOf values] := by
  have hfresh : ¬ (db.intervals.any fun row => row.connectionId = values.connectionId &&
      row.fingerprint = values.fingerprint) = true := by
    intro hany
    obtain ⟨row, hrow, hsame⟩ := any_eq_true.mp hany
    simp only [Bool.and_eq_true, decide_eq_true_eq] at hsame
    have hid : row.connectionId = connectionId := hsame.1.trans hvalues.connectionId
    have hold := h row hrow hid
    obtain ⟨htype', hstart⟩ := fingerprintText_inj (hinj hold.mem hvalues.mem
      ((hold.fingerprint.symm.trans hsame.2).trans hvalues.fingerprint))
    refine hnew (mem_map.mpr ⟨_, mem_map.mpr ⟨row, mem_filter.mpr ⟨hrow, ?_⟩, rfl⟩,
      hstart⟩)
    simp [hid, htype', htype]
  unfold spans rowsOf RealtimeDatabase.insertInterval
  dsimp only
  rw [if_neg hfresh]
  simp only [filter_append, map_append, filter_cons, filter_nil,
    hvalues.connectionId, htype, decide_true, Bool.and_self, if_true, map_cons, map_nil]

theorem Written.foldl_insert (h : Written sha256 texts connectionId db)
    (hmany : ∀ values ∈ many, Writes sha256 texts connectionId values) :
    Written sha256 texts connectionId (many.foldl RealtimeDatabase.insertInterval db) := by
  induction many generalizing db with
  | nil => exact h
  | cons values many ih =>
    rw [forall_mem_cons] at hmany
    exact ih (h.insert hmany.1) hmany.2

/-- Intervals with new starts are added one after another. -/
theorem spans_foldl_insert (hinj : Set.InjOn (fun text => sha256 text.text) texts)
    (h : Written sha256 texts connectionId db)
    (hmany : ∀ values ∈ many, Writes sha256 texts connectionId values ∧ values.dataType = dataType)
    (hnew : ((spans db connectionId dataType).map QualitySpan.start ++ many.map fun values =>
      values.rangeStartAt).Nodup) :
    spans (many.foldl RealtimeDatabase.insertInterval db) connectionId dataType =
      spans db connectionId dataType ++ many.map spanOf := by
  induction many generalizing db with
  | nil => rw [foldl_nil, map_nil, append_nil]
  | cons values many ih =>
    rw [forall_mem_cons] at hmany
    rw [map_cons, nodup_middle, nodup_cons, mem_append, not_or] at hnew
    have hstep := spans_insert hinj h hmany.1.1 hmany.1.2 hnew.1.1
    rw [foldl_cons, ih (h.insert hmany.1.1) hmany.2, hstep, map_cons, append_assoc,
      singleton_append]
    rw [hstep, map_append, map_singleton, append_assoc, singleton_append, nodup_middle, nodup_cons]
    exact ⟨by rw [mem_append, not_or]; exact hnew.1, hnew.2⟩

theorem spans_foldl_insert_of_ne (hmany : ∀ values ∈ many, values.dataType ≠ dataType) :
    spans (many.foldl RealtimeDatabase.insertInterval db) connectionId dataType =
      spans db connectionId dataType := by
  induction many generalizing db with
  | nil => rfl
  | cons values many ih =>
    rw [forall_mem_cons] at hmany
    rw [foldl_cons, ih hmany.2, spans_insert_of_ne hmany.1]

end

/-! ## The minutes of a connection -/

/-- Whole minutes between two borders, each available. -/
def minuteSpans (start stop : ℤ) : List QualitySpan :=
  (minuteStarts start stop).map fun s => ⟨s, s + minute, .available⟩

theorem map_start_minuteSpans (start stop : ℤ) :
    (minuteSpans start stop).map QualitySpan.start = minuteStarts start stop := by
  rw [minuteSpans, map_map]
  exact map_id _

theorem max?_getD_eq {l : List ℤ} {last default : ℤ} (hle : ∀ x ∈ l, x ≤ last)
    (hlast : last ∈ l ∨ l = [] ∧ default = last) : l.max?.getD default = last := by
  rcases hlast with hmem | ⟨rfl, rfl⟩
  · rw [List.max?_eq_some_iff.mpr ⟨hmem, hle⟩, Option.getD_some]
  · rfl

/-- The last end of whole minutes up to a border is the border. -/
theorem mem_stop_minuteSpans (hstart : minute ∣ start) (hstop : minute ∣ stop) :
    (∀ x ∈ (minuteSpans start stop).map QualitySpan.stop, x ≤ stop) ∧
      (start < stop → stop ∈ (minuteSpans start stop).map QualitySpan.stop) := by
  rw [minuteSpans, map_map]
  constructor
  · intro x hx
    obtain ⟨s, hs, rfl⟩ := mem_map.mp hx
    exact (mem_minuteStarts hstart hstop hs).2.2
  · intro hlt
    obtain ⟨s, hs, hle, hlt'⟩ := (exists_mem_minuteStarts_iff hstart hstop (stop - 1)).mpr (by omega)
    obtain ⟨-, hdvd, hto⟩ := mem_minuteStarts hstart hstop hs
    refine mem_map.mpr ⟨s, hs, ?_⟩
    have hwhole : s + minute = stop := by
      unfold minute at *
      omega
    exact hwhole

/-- The texts of the fingerprints of a session up to its end: of minutes in it, and of what its end
adds. -/
def sessionTexts (session : RealtimeSession) (disconnectedAt : Instant) (reason : Option String) :
    Set FingerprintText :=
  {text | ∃ dataType ∈ session.subscriptionScope.dataTypes, ∃ start stop,
    minuteBucket session.connectedAt ≤ start ∧ start < stop ∧ minute ∣ stop ∧
    stop ≤ fullMinute disconnectedAt ∧
    (text = .minute session.connectionId dataType start stop ∨
      ∃ quality, ∃ reasonCode ∈ [reason.getD "partial_connection_interval",
        reason.getD "connection_failed"],
        text = .interval session.connectionId none dataType start stop quality reasonCode)}

/-- No two texts of the session have one SHA-256. -/
def Distinguished (sha256 : String → String) (session : RealtimeSession) (disconnectedAt : Instant)
    (reason : Option String) : Prop :=
  Set.InjOn (fun text => sha256 text.text) (sessionTexts session disconnectedAt reason)

section

variable {sha256 : String → String} {dataType : String} {db : RealtimeDatabase}
  {session : RealtimeSession} {through disconnectedAt : ℤ} {reason : Option String}
variable {lastReceivedAt : ℤ}

theorem latestEnd_eq (q : SourceQuality → Bool) (connectionId dataType : String) (default : ℤ) :
    latestEnd db.intervals connectionId dataType (fun row => q row.quality) default =
      (((spans db connectionId dataType).filter fun span => q span.quality).map
        QualitySpan.stop).max?.getD default := by
  unfold latestEnd spans rowsOf
  rw [filter_map, map_map, filter_filter]
  congr 3
  exact filter_congr fun row _ => by simp [spanOf, Bool.and_comm]

/-- Intervals of the session end at borders of minutes. -/
theorem minute_dvd_of_mem_sessionTexts {values : IntervalValues}
    (h : fingerprintText values ∈ sessionTexts session disconnectedAt reason) :
    minute ∣ values.rangeEndAt := by
  obtain ⟨dataType, -, start, stop, -, -, hdvd, -, htext⟩ := h
  have hstop : values.rangeEndAt = stop := by
    unfold fingerprintText at htext
    rcases htext with htext | ⟨quality, reasonCode, -, htext⟩ <;> split_ifs at htext
    · exact (FingerprintText.minute.inj htext).2.2.2
    · exact (FingerprintText.interval.inj htext).2.2.2.2.1
  rwa [hstop]

/-- The minutes that are complete by a frame of the session, of a data type in scope. -/
theorem Written.writes_minutes
    (h : Written sha256 (sessionTexts session disconnectedAt reason) session.connectionId db)
    (htype : dataType ∈ session.subscriptionScope.dataTypes)
    (hreceived : lastReceivedAt ≤ disconnectedAt) :
    ∀ values ∈ (minuteStarts (max (fullMinute session.connectedAt) (latestEnd db.intervals
        session.connectionId dataType (fun row => row.quality = .available)
          (fullMinute session.connectedAt))) (minuteBucket lastReceivedAt)).map
        (continuousMinute sha256 session.connectionId dataType lastReceivedAt),
      Writes sha256 (sessionTexts session disconnectedAt reason) session.connectionId values ∧
        values.dataType = dataType := by
  intro values hvalues
  obtain ⟨start, hstart, rfl⟩ := mem_map.mp hvalues
  obtain ⟨hfrom, hdvd, hto⟩ := mem_recordedMinutes (minute_dvd_latestEnd
    (minute_dvd_fullMinute session.connectedAt) fun row hrow hid _ =>
      minute_dvd_of_mem_sessionTexts (h row hrow hid).mem) hstart
  have hbucket : minuteBucket session.connectedAt ≤ start :=
    (minuteBucket_le _).trans ((fullMinute_ge _).trans hfrom)
  exact ⟨⟨rfl, rfl, ⟨dataType, htype, start, start + minute, hbucket, lt_add_of_pos_right _
    (by decide), hdvd, (hto.trans hreceived).trans (fullMinute_ge _), Or.inl rfl⟩, rfl⟩, rfl⟩

/-- What is recorded of a data type while frames come in. -/
structure Recorded (sha256 : String → String) (session : RealtimeSession) (disconnectedAt : Instant)
    (reason : Option String) (through : ℤ) (dataType : String) (db : RealtimeDatabase) : Prop where
  written : Written sha256 (sessionTexts session disconnectedAt reason) session.connectionId db
  spans : spans db session.connectionId dataType =
    minuteSpans (fullMinute session.connectedAt) through

/-- The minutes that are complete by now are recorded. -/
theorem Recorded.recordMinutes (hinj : Distinguished sha256 session disconnectedAt reason)
    (hdvd : minute ∣ through) (hle : fullMinute session.connectedAt ≤ through)
    (htype : dataType ∈ session.subscriptionScope.dataTypes)
    (hreceived : lastReceivedAt ≤ disconnectedAt)
    (h : Recorded sha256 session disconnectedAt reason through dataType db) :
    Recorded sha256 session disconnectedAt reason (max through (minuteBucket lastReceivedAt))
      dataType (recordMinutes sha256 session lastReceivedAt db dataType) := by
  have hfirst := minute_dvd_fullMinute session.connectedAt
  obtain ⟨hends, hend⟩ := mem_stop_minuteSpans hfirst hdvd
  have hlatest : latestEnd db.intervals session.connectionId dataType
      (fun row => row.quality = .available) (fullMinute session.connectedAt) = through := by
    rw [latestEnd_eq (fun quality => quality = .available), h.spans]
    have hall : (minuteSpans (fullMinute session.connectedAt) through).filter
        (fun span => span.quality = .available) =
        minuteSpans (fullMinute session.connectedAt) through := by
      refine filter_eq_self.mpr fun span hspan => ?_
      obtain ⟨s, -, rfl⟩ := mem_map.mp hspan
      rfl
    rw [hall]
    refine max?_getD_eq hends ?_
    rcases hle.eq_or_lt with heq | hlt
    · exact Or.inr ⟨by rw [heq, minuteSpans, minuteStarts_of_le le_rfl]; rfl, heq⟩
    · exact Or.inl (hend hlt)
  have hmany := h.written.writes_minutes htype hreceived
  rw [hlatest, max_eq_right hle] at hmany
  have hrecord : Program.recordMinutes sha256 session lastReceivedAt db dataType =
      ((minuteStarts through (minuteBucket lastReceivedAt)).map
        (continuousMinute sha256 session.connectionId dataType lastReceivedAt)).foldl
          RealtimeDatabase.insertInterval db := by
    rw [Program.recordMinutes, hlatest, max_eq_right hle]
  rw [hrecord]
  refine ⟨h.written.foldl_insert fun values hvalues => (hmany values hvalues).1, ?_⟩
  rcases le_total (minuteBucket lastReceivedAt) through with hback | hon
  · rw [minuteStarts_of_le hback, max_eq_left hback]
    exact h.spans
  · have happend := minuteStarts_append hfirst hdvd hle hon
    have hstarts : ((minuteStarts through (minuteBucket lastReceivedAt)).map
        (continuousMinute sha256 session.connectionId dataType lastReceivedAt)).map
          (fun values => values.rangeStartAt) =
        minuteStarts through (minuteBucket lastReceivedAt) := by
      rw [map_map]
      exact map_id _
    rw [max_eq_right hon, spans_foldl_insert hinj h.written hmany, h.spans]
    · rw [minuteSpans, minuteSpans, ← happend, map_append, map_map]
      rfl
    · rw [h.spans, map_start_minuteSpans, hstarts, happend]
      exact (minuteStarts_sorted _ _).imp ne_of_lt

/-- Another data type is not touched. -/
theorem Recorded.recordMinutes_of_ne (hne : other ≠ dataType)
    (hother : other ∈ session.subscriptionScope.dataTypes)
    (hreceived : lastReceivedAt ≤ disconnectedAt)
    (h : Recorded sha256 session disconnectedAt reason through dataType db) :
    Recorded sha256 session disconnectedAt reason through dataType
      (Program.recordMinutes sha256 session lastReceivedAt db other) := by
  have hmany := h.written.writes_minutes hother hreceived
  unfold Program.recordMinutes
  refine ⟨h.written.foldl_insert fun values hvalues => (hmany values hvalues).1, ?_⟩
  rw [spans_foldl_insert_of_ne, h.spans]
  exact forall_mem_map.mpr fun start _ => hne

end

/-! ## A session while frames come in -/

/-- The session is open, and its whole minutes up to a time are recorded for every data type. -/
structure Live (sha256 : String → String) (session : RealtimeSession) (disconnectedAt : Instant)
    (reason : Option String) (frames : List FrameReceipt) (db : RealtimeDatabase) (through : ℤ) :
    Prop where
  found : ∃ row, db.sessions.find (fun row => row.connectionId = session.connectionId) = some row ∧
    row.connectedAt = session.connectedAt ∧ row.subscriptionScope = session.subscriptionScope ∧
    row.status = .active
  dvd : minute ∣ through
  first_le : fullMinute session.connectedAt ≤ through
  reached : through = fullMinute session.connectedAt ∨
    ∃ frame ∈ frames, through ≤ minuteBucket frame.receivedAt
  recorded : ∀ dataType ∈ session.subscriptionScope.dataTypes,
    Recorded sha256 session disconnectedAt reason through dataType db

section

variable {sha256 : String → String} {session : RealtimeSession} {disconnectedAt : ℤ}
  {reason : Option String} {frames : List FrameReceipt} {db : RealtimeDatabase} {through : ℤ}

/-- A batch of frames of the session. -/
theorem Live.batch (hinj : Distinguished sha256 session disconnectedAt reason)
    (hnodup : session.subscriptionScope.dataTypes.Nodup)
    (h : Live sha256 session disconnectedAt reason frames db through) {batch : List FrameReceipt}
    (hbatch : ∀ frame ∈ batch, frame.connectionId = session.connectionId)
    (hreceived : ∀ frame ∈ batch, frame.receivedAt ≤ disconnectedAt) :
    ∃ db' through', recordRealtimeSessionProgress sha256 db batch = .ok db' ∧
      Live sha256 session disconnectedAt reason (frames ++ batch) db' through' := by
  by_cases hnil : batch = []
  · subst hnil
    rw [append_nil]
    exact ⟨db, through, rfl, h⟩
  obtain ⟨row, hfound, hconnected, hscope, hactive⟩ := h.found
  have hid : row.connectionId = session.connectionId := by
    simpa using List.find?_some hfound
  have hpairs : (batch.map fun frame => (frame.connectionId, frame)) ≠ [] := by simpa using hnil
  obtain ⟨hitems, hgrouped⟩ := grouped_of_key hpairs (forall_mem_map.mpr hbatch)
  have hsnd : (batch.map fun frame => (frame.connectionId, frame)).map Prod.snd = batch := by
    rw [map_map]
    exact map_id _
  obtain ⟨first, hfirst⟩ := Option.ne_none_iff_exists'.mp
    (show (batch.map FrameReceipt.frameSequence).min? ≠ none by simpa [List.min?_eq_none_iff])
  obtain ⟨last, hlast⟩ := Option.ne_none_iff_exists'.mp
    (show (batch.map FrameReceipt.frameSequence).max? ≠ none by simpa [List.max?_eq_none_iff])
  obtain ⟨received, hlatest⟩ := Option.ne_none_iff_exists'.mp
    (show (batch.map FrameReceipt.receivedAt).max? ≠ none by simpa [List.max?_eq_none_iff])
  obtain ⟨frame, hframe, rfl⟩ := mem_map.mp (List.max?_mem hlatest)
  -- what is recorded reads the opening of the session only
  have hread : recordMinutes sha256 row frame.receivedAt =
      recordMinutes sha256 session frame.receivedAt := by
    funext db dataType
    simp only [recordMinutes, hid, hconnected]
  have hrecord : recordRealtimeSessionProgress sha256 db batch =
      .ok (session.subscriptionScope.dataTypes.foldl
        (recordMinutes sha256 session frame.receivedAt) { db with
          sessions := db.sessions.update (fun row => row.connectionId = session.connectionId)
            (fun row => row.progress first last frame.receivedAt)
            (RealtimeSession.progress_connectionId first last frame.receivedAt) }) := by
    rw [recordRealtimeSessionProgress, hgrouped, foldlM_cons]
    simp only [recordProgress, hsnd, hfirst, hlast, hlatest, hfound, hscope, hread]
    rfl
  refine ⟨_, max through (minuteBucket frame.receivedAt), hrecord, ?_, ?_, ?_, ?_, ?_⟩
  · have hsessions : ∀ db' : RealtimeDatabase, (session.subscriptionScope.dataTypes.foldl
        (recordMinutes sha256 session frame.receivedAt) db').sessions = db'.sessions := fun db' =>
      foldl_keeps (P := fun state => state.sessions = db'.sessions) (fun dataType _ state hstate =>
        (recordMinutes_sessions session frame.receivedAt state dataType).trans hstate) rfl
    refine ⟨row.progress first last frame.receivedAt, ?_, hconnected, hscope, hactive⟩
    rw [hsessions, KeyedTable.find_update_key, hfound, Option.map_some, if_pos rfl]
  · rcases max_choice through (minuteBucket frame.receivedAt) with heq | heq <;> rw [heq]
    · exact h.dvd
    · exact minute_dvd_minuteBucket frame.receivedAt
  · exact h.first_le.trans (le_max_left _ _)
  · rcases max_choice through (minuteBucket frame.receivedAt) with heq | heq <;> rw [heq]
    · refine h.reached.imp_right ?_
      rintro ⟨other, hother, hle⟩
      exact ⟨other, mem_append_left _ hother, hle⟩
    · exact Or.inr ⟨frame, mem_append_right _ hframe, le_rfl⟩
  · intro dataType htype
    refine foldl_each
      (fun dataType db => Recorded sha256 session disconnectedAt reason through dataType db)
      (Recorded sha256 session disconnectedAt reason
        (max through (minuteBucket frame.receivedAt))) hnodup
      (fun _ htype _ hbefore =>
        hbefore.recordMinutes hinj h.dvd h.first_le htype (hreceived frame hframe))
      (fun _ _ hother hne _ hbefore =>
        hbefore.recordMinutes_of_ne hne hother (hreceived frame hframe))
      (fun _ _ hother hne _ hafter =>
        hafter.recordMinutes_of_ne hne hother (hreceived frame hframe)) htype ?_
    exact ⟨(h.recorded dataType htype).written, (h.recorded dataType htype).spans⟩

/-- The batches of a connection, one after another. -/
theorem Live.batches (hinj : Distinguished sha256 session disconnectedAt reason)
    (hnodup : session.subscriptionScope.dataTypes.Nodup) {batches : List (List FrameReceipt)}
    (h : Live sha256 session disconnectedAt reason frames db through)
    (hbatches : ∀ batch ∈ batches, ∀ frame ∈ batch, frame.connectionId = session.connectionId)
    (hreceived : ∀ batch ∈ batches, ∀ frame ∈ batch, frame.receivedAt ≤ disconnectedAt) :
    ∃ db' through', batches.foldlM (recordRealtimeSessionProgress sha256) db = .ok db' ∧
      Live sha256 session disconnectedAt reason (frames ++ batches.flatten) db' through' := by
  induction batches generalizing db through frames with
  | nil => exact ⟨db, through, rfl, by simpa using h⟩
  | cons batch batches ih =>
    rw [forall_mem_cons] at hbatches hreceived
    obtain ⟨next, through', hnext, hlive⟩ := h.batch hinj hnodup hbatches.1 hreceived.1
    obtain ⟨db', through'', hrest, hlive⟩ := ih hlive hbatches.2 hreceived.2
    refine ⟨db', through'', ?_, by rwa [flatten_cons, ← append_assoc]⟩
    rw [foldlM_cons, hnext]
    exact hrest

end

/-! ## Opening the session -/

/-- The foreign key of the intervals: every one is of a session. -/
def Referenced (db : RealtimeDatabase) : Prop :=
  ∀ row ∈ db.intervals, row.connectionId ∈ db.sessions.rows.map RealtimeSession.connectionId

theorem sessionScope_nodup (markets : List MarketRow) (instrumentIds : List ℤ)
    (dataTypes : List String) : (sessionScope markets instrumentIds dataTypes).dataTypes.Nodup :=
  (sortedBy_perm id dataTypes.dedup).nodup_iff.mpr dataTypes.nodup_dedup

section

variable {sha256 : String → String} {db db' : RealtimeDatabase} {opened : RealtimeSession}

/-- Nothing is recorded of the session when it is opened: gaps are of earlier sessions. -/
theorem Opened.connectionId_ne (hopened : Opened sha256 db db' opened) (href : Referenced db) :
    ∀ row ∈ db'.intervals, row.connectionId ≠ opened.connectionId := by
  intro row hrow hid
  rcases hopened.intervals row hrow with hrow | ⟨dataType, -, hgap⟩
  · obtain ⟨session, hsession, hsame⟩ := mem_map.mp (href row hrow)
    exact hopened.fresh session hsession (hsame.trans hid)
  · obtain ⟨before, previous, after, marketId, -, hlist, -, -, hvalues⟩ := mem_reconnectionGaps hgap
    have hprevious := (mem_previousSessions (hlist ▸ mem_append_right before
      mem_cons_self : previous ∈ _)).2.1
    exact hprevious ((congrArg IntervalValues.connectionId hvalues).symm.trans hid)

theorem Opened.live (hopened : Opened sha256 db db' opened) (href : Referenced db)
    (disconnectedAt : ℤ) (reason : Option String) :
    Live sha256 opened disconnectedAt reason [] db' (fullMinute opened.connectedAt) := by
  have hnone := Opened.connectionId_ne hopened href
  refine ⟨⟨opened, ?_, rfl, rfl, hopened.active⟩, minute_dvd_fullMinute _, le_rfl, Or.inl rfl, ?_⟩
  · refine (KeyedTable.find_eq_some_iff (k := opened.connectionId) fun _ =>
      of_decide_eq_true).mpr ⟨?_, ?_⟩
    · exact hopened.mem_sessions.mpr (Or.inr rfl)
    · simp
  · intro dataType _
    refine ⟨fun row hrow hid => absurd hid (hnone row hrow), ?_⟩
    have hempty : minuteSpans (fullMinute opened.connectedAt) (fullMinute opened.connectedAt) =
        [] := by
      rw [minuteSpans, minuteStarts_of_le le_rfl, map_nil]
    rw [spans, rowsOf, filter_eq_nil_iff.mpr, map_nil]
    · exact hempty.symm
    · intro row hrow
      simp [hnone row hrow]

end

/-! ## Closing the session -/

/-- The minute in which the session was opened, where it was not opened with the minute. -/
def firstPartial (connectedAt : ℤ) : List QualitySpan :=
  if minuteBucket connectedAt < connectedAt then
    [⟨minuteBucket connectedAt, fullMinute connectedAt, .unverified⟩] else []

/-- The minutes that a failure left open. -/
def missingTail (disconnectedAt through : ℤ) (failed : Bool) : List QualitySpan :=
  if failed = true ∧ through < minuteBucket disconnectedAt then
    [⟨through, minuteBucket disconnectedAt, .missing⟩] else []

/-- The minute in which the session was closed, where it is not the first one. -/
def lastPartial (connectedAt disconnectedAt : ℤ) : List QualitySpan :=
  if fullMinute connectedAt ≤ minuteBucket disconnectedAt ∧
      minuteBucket disconnectedAt < disconnectedAt then
    [⟨minuteBucket disconnectedAt, fullMinute disconnectedAt, .unverified⟩] else []

/-- The intervals of a connection and a data type that is closed. -/
def tiles (connectedAt disconnectedAt through : ℤ) (failed : Bool) : List QualitySpan :=
  minuteSpans (fullMinute connectedAt) through ++ firstPartial connectedAt ++
    missingTail disconnectedAt through failed ++ lastPartial connectedAt disconnectedAt

variable {span : QualitySpan}

theorem mem_firstPartial :
    span ∈ firstPartial connectedAt ↔ minuteBucket connectedAt < connectedAt ∧
      span = ⟨minuteBucket connectedAt, fullMinute connectedAt, .unverified⟩ := by
  simp [firstPartial]

theorem mem_missingTail {failed : Bool} : span ∈ missingTail disconnectedAt through failed ↔
      (failed = true ∧ through < minuteBucket disconnectedAt) ∧
        span = ⟨through, minuteBucket disconnectedAt, .missing⟩ := by
  simp [missingTail]

theorem mem_lastPartial : span ∈ lastPartial connectedAt disconnectedAt ↔
      (fullMinute connectedAt ≤ minuteBucket disconnectedAt ∧
        minuteBucket disconnectedAt < disconnectedAt) ∧
      span = ⟨minuteBucket disconnectedAt, fullMinute disconnectedAt, .unverified⟩ := by
  simp [lastPartial]

/-- The begun first minute does not change the last end. -/
theorem latest_of_firstPartial (hdvd : minute ∣ through) (hle : fullMinute connectedAt ≤ through) :
    ((minuteSpans (fullMinute connectedAt) through ++ firstPartial connectedAt).map
      QualitySpan.stop).max?.getD (fullMinute connectedAt) = through := by
  obtain ⟨hends, hend⟩ := mem_stop_minuteSpans (minute_dvd_fullMinute connectedAt) hdvd
  rw [map_append]
  refine max?_getD_eq (fun x hx => ?_) ?_
  · rcases mem_append.mp hx with hx | hx
    · exact hends x hx
    · obtain ⟨span, hspan, rfl⟩ := mem_map.mp hx
      rw [(mem_firstPartial.mp hspan).2]
      exact hle
  · rcases hle.eq_or_lt with heq | hlt
    · rw [← heq, minuteSpans, minuteStarts_of_le le_rfl]
      by_cases hbegun : minuteBucket connectedAt < connectedAt <;> simp [firstPartial, hbegun]
    · exact Or.inl (mem_append_left _ (hend hlt))

section

variable {sha256 : String → String} {session : RealtimeSession} {dataType : String}
  {db : RealtimeDatabase} {through disconnectedAt : ℤ} {failed : Bool} {reason : Option String}

/-- What is recorded of a data type when the session is closed. -/
structure Closed (sha256 : String → String) (session : RealtimeSession) (disconnectedAt : Instant)
    (reason : Option String) (failed : Bool) (through : ℤ) (dataType : String)
    (db : RealtimeDatabase) : Prop where
  written : Written sha256 (sessionTexts session disconnectedAt reason) session.connectionId db
  spans : spans db session.connectionId dataType =
    tiles session.connectedAt disconnectedAt through failed

/-- What is recorded without a market, neither empty nor outside of the session. -/
theorem writes_connectionQualityValues (htype : dataType ∈ session.subscriptionScope.dataTypes)
    (hstart : minuteBucket session.connectedAt ≤ start) (hlt : start < stop) (hdvd : minute ∣ stop)
    (hstop : stop ≤ fullMinute disconnectedAt) {quality : SourceQuality}
    (hquality : quality ≠ .available) {reasonCode : String} (hreason : reasonCode ∈ [reason.getD
      "partial_connection_interval", reason.getD "connection_failed"]) :
    Writes sha256 (sessionTexts session disconnectedAt reason) session.connectionId
      (connectionQualityValues sha256 session.connectionId none dataType start stop quality
        reasonCode disconnectedAt) := by
  have htext : fingerprintText (connectionQualityValues sha256 session.connectionId none dataType
      start stop quality reasonCode disconnectedAt) =
      .interval session.connectionId none dataType start stop quality reasonCode := by
    rw [fingerprintText, if_neg (by exact hquality)]
    rfl
  refine ⟨rfl, rfl, ?_, by rw [htext]; rfl⟩
  rw [htext]
  exact ⟨dataType, htype, start, stop, hstart, hlt, hdvd, hstop,
    Or.inr ⟨quality, reasonCode, hreason, rfl⟩⟩

theorem writes_firstPartial (htype : dataType ∈ session.subscriptionScope.dataTypes)
    (h : minuteBucket session.connectedAt < session.connectedAt ∧
      session.connectedAt < disconnectedAt ∧ minuteBucket session.connectedAt <
        fullMinute (min (fullMinute session.connectedAt) disconnectedAt)) :
    Writes sha256 (sessionTexts session disconnectedAt reason) session.connectionId
      (connectionQualityValues sha256 session.connectionId none dataType
        (minuteBucket session.connectedAt)
        (fullMinute (min (fullMinute session.connectedAt) disconnectedAt)) .unverified
        (reason.getD "partial_connection_interval") disconnectedAt) :=
  writes_connectionQualityValues htype le_rfl h.2.2 (minute_dvd_fullMinute _)
    (fullMinute_mono (min_le_right _ _)) (by decide) mem_cons_self

theorem writes_missingTail (htype : dataType ∈ session.subscriptionScope.dataTypes) {latest : ℤ}
    (h : failed = true ∧ max (fullMinute session.connectedAt) latest < minuteBucket disconnectedAt) :
    Writes sha256 (sessionTexts session disconnectedAt reason) session.connectionId
      (connectionQualityValues sha256 session.connectionId none dataType
        (max (fullMinute session.connectedAt) latest) (minuteBucket disconnectedAt) .missing
        (reason.getD "connection_failed") disconnectedAt) :=
  writes_connectionQualityValues htype
    (((minuteBucket_le _).trans (fullMinute_ge _)).trans (le_max_left _ _)) h.2
    (minute_dvd_minuteBucket _) ((minuteBucket_le _).trans (fullMinute_ge _)) (by decide)
    (mem_cons_of_mem _ mem_cons_self)

theorem writes_lastPartial (htype : dataType ∈ session.subscriptionScope.dataTypes) {latest : ℤ}
    (h : max (max session.connectedAt (minuteBucket disconnectedAt)) latest < disconnectedAt) :
    Writes sha256 (sessionTexts session disconnectedAt reason) session.connectionId
      (connectionQualityValues sha256 session.connectionId none dataType
        (minuteBucket (max (max session.connectedAt (minuteBucket disconnectedAt)) latest))
        (fullMinute disconnectedAt) .unverified (reason.getD "partial_connection_interval")
        disconnectedAt) :=
  writes_connectionQualityValues htype
    (le_minuteBucket (minute_dvd_minuteBucket _) ((minuteBucket_le _).trans
      ((le_max_left _ _).trans (le_max_left _ _))))
    ((minuteBucket_le _).trans_lt (h.trans_le (fullMinute_ge _))) (minute_dvd_fullMinute _) le_rfl
    (by decide) mem_cons_self

/-- An interval with a new start is added where a condition holds. -/
theorem spans_insert_if (hinj : Distinguished sha256 session disconnectedAt reason)
    {values : IntervalValues} {p : Prop} [Decidable p]
    (h : Written sha256 (sessionTexts session disconnectedAt reason) session.connectionId db)
    (hvalues : p → Writes sha256 (sessionTexts session disconnectedAt reason)
      session.connectionId values) (htype : values.dataType = dataType)
    (hnew : p → values.rangeStartAt ∉
      (spans db session.connectionId dataType).map QualitySpan.start) :
    Written sha256 (sessionTexts session disconnectedAt reason) session.connectionId
        (if p then db.insertInterval values else db) ∧
      spans (if p then db.insertInterval values else db) session.connectionId dataType =
        spans db session.connectionId dataType ++ if p then [spanOf values] else [] := by
  split_ifs with hp
  · exact ⟨h.insert (hvalues hp), spans_insert hinj h (hvalues hp) htype (hnew hp)⟩
  · exact ⟨h, (append_nil _).symm⟩

/-- The begun first minute ends with the first full one. -/
theorem firstPartialEnd_eq (hbegun : minuteBucket connectedAt < connectedAt)
    (hlt : connectedAt < disconnectedAt) :
    fullMinute (min (fullMinute connectedAt) disconnectedAt) = fullMinute connectedAt := by
  unfold fullMinute minuteBucket minute at *
  split_ifs <;> omega

/-- The begun last minute, where it is not the first one. -/
theorem partialStart_lt_iff (hlt : connectedAt < disconnectedAt)
    (hle : fullMinute connectedAt ≤ through)
    (hreached : through = fullMinute connectedAt ∨ through ≤ minuteBucket disconnectedAt) :
    max (max connectedAt (minuteBucket disconnectedAt)) through < disconnectedAt ↔
      fullMinute connectedAt ≤ minuteBucket disconnectedAt ∧
        minuteBucket disconnectedAt < disconnectedAt := by
  have hconnected := fullMinute_ge connectedAt
  have hdisconnected := minuteBucket_le disconnectedAt
  have hdvd := minute_dvd_fullMinute connectedAt
  have hfloor : fullMinute connectedAt ≤ disconnectedAt →
      fullMinute connectedAt ≤ minuteBucket disconnectedAt := le_minuteBucket hdvd
  omega

theorem partialStart_eq (hle : fullMinute connectedAt ≤ minuteBucket disconnectedAt)
    (hreached : through = fullMinute connectedAt ∨ through ≤ minuteBucket disconnectedAt) :
    max (max connectedAt (minuteBucket disconnectedAt)) through = minuteBucket disconnectedAt := by
  have hconnected := fullMinute_ge connectedAt
  omega

theorem minuteBucket_minuteBucket : minuteBucket (minuteBucket value) = minuteBucket value := by
  unfold minuteBucket minute
  omega

/-- Starts of whole minutes up to a border lie before it. -/
theorem lt_of_mem_start {x : ℤ} (hstart : minute ∣ start) (hstop : minute ∣ stop)
    (h : x ∈ (minuteSpans start stop).map QualitySpan.start) : start ≤ x ∧ x < stop := by
  rw [map_start_minuteSpans] at h
  obtain ⟨hle, -, hlt⟩ := mem_minuteStarts hstart hstop h
  unfold minute at hlt
  omega

/-- Closing adds the begun minutes, and the ones that a failure left open. -/
theorem closeDataType_closed (hinj : Distinguished sha256 session disconnectedAt reason)
    (htype : dataType ∈ session.subscriptionScope.dataTypes)
    (hlt : session.connectedAt < disconnectedAt) (hdvd : minute ∣ through)
    (hle : fullMinute session.connectedAt ≤ through)
    (hreached : through = fullMinute session.connectedAt ∨ through ≤ minuteBucket disconnectedAt)
    (h : Recorded sha256 session disconnectedAt reason through dataType db) :
    Closed sha256 session disconnectedAt reason failed through dataType
      (closeDataType sha256 session disconnectedAt failed reason db dataType) := by
  have hfirst := minute_dvd_fullMinute session.connectedAt
  have hfloor : minuteBucket session.connectedAt < session.connectedAt →
      minuteBucket session.connectedAt < fullMinute session.connectedAt :=
    fun hbegun => hbegun.trans_le (fullMinute_ge _)
  have hstarts : ∀ {x : ℤ}, x ∈ (minuteSpans (fullMinute session.connectedAt) through).map
      QualitySpan.start → fullMinute session.connectedAt ≤ x ∧ x < through :=
    lt_of_mem_start hfirst hdvd
  have hbefore : ∀ {x : ℤ}, x ∈ (firstPartial session.connectedAt).map QualitySpan.start →
      x < fullMinute session.connectedAt := by
    intro x hx
    obtain ⟨span, hspan, rfl⟩ := mem_map.mp hx
    obtain ⟨hbegun, rfl⟩ := mem_firstPartial.mp hspan
    exact hfloor hbegun
  -- the begun first minute
  obtain ⟨hw₁, hs₁⟩ := spans_insert_if (p := minuteBucket session.connectedAt <
      session.connectedAt ∧ session.connectedAt < disconnectedAt ∧ minuteBucket
      session.connectedAt < fullMinute (min (fullMinute session.connectedAt) disconnectedAt))
    hinj h.written (writes_firstPartial htype) (Eq.refl dataType) (by
      rintro ⟨hbegun, -⟩ hmem
      rw [h.spans] at hmem
      exact absurd (hstarts hmem).1 (not_le.mpr (hfloor hbegun)))
  unfold Program.closeDataType
  dsimp only
  generalize (if minuteBucket session.connectedAt < session.connectedAt ∧
      session.connectedAt < disconnectedAt ∧ minuteBucket session.connectedAt <
        fullMinute (min (fullMinute session.connectedAt) disconnectedAt) then
    db.insertInterval _ else db) = db₁ at hw₁ hs₁ ⊢
  replace hs₁ : spans db₁ session.connectionId dataType =
      minuteSpans (fullMinute session.connectedAt) through ++
        firstPartial session.connectedAt := by
    rw [hs₁, h.spans, firstPartial]
    congr 1
    by_cases hbegun : minuteBucket session.connectedAt < session.connectedAt
    · have hend := firstPartialEnd_eq hbegun hlt
      simp [hbegun, hlt, hend, hfloor hbegun, spanOf, connectionQualityValues]
    · simp [hbegun]
  have hlatest : latestEnd db₁.intervals session.connectionId dataType (fun _ => true)
      (fullMinute session.connectedAt) = through := by
    rw [latestEnd_eq (fun _ => true), filter_true, hs₁]
    exact latest_of_firstPartial hdvd hle
  rw [hlatest, max_eq_right hle]
  -- the minutes that a failure left open
  have htail : failed = true ∧ max (fullMinute session.connectedAt) through <
      minuteBucket disconnectedAt → Writes sha256 (sessionTexts session disconnectedAt reason)
        session.connectionId _ := writes_missingTail htype
  rw [max_eq_right hle] at htail
  obtain ⟨hw₂, hs₂⟩ := spans_insert_if (p := failed = true ∧ through < minuteBucket disconnectedAt)
    hinj hw₁ htail (Eq.refl dataType) (by
      rintro ⟨-, hopen⟩ hmem
      rw [hs₁, map_append, mem_append] at hmem
      rcases hmem with hmem | hmem
      · exact absurd (hstarts hmem).2 (lt_irrefl _)
      · exact absurd (hbefore hmem) (by simpa [connectionQualityValues] using hle))
  generalize (if failed = true ∧ through < minuteBucket disconnectedAt then
    db₁.insertInterval _ else db₁) = db₂ at hw₂ hs₂ ⊢
  replace hs₂ : spans db₂ session.connectionId dataType =
      minuteSpans (fullMinute session.connectedAt) through ++ firstPartial session.connectedAt ++
        missingTail disconnectedAt through failed := by
    rw [hs₂, hs₁]
    rfl
  -- the begun last minute
  have hlast := partialStart_lt_iff hlt hle hreached
  have hnew : max (max session.connectedAt (minuteBucket disconnectedAt)) through <
      disconnectedAt → minuteBucket (max (max session.connectedAt (minuteBucket disconnectedAt))
        through) ∉ (spans db₂ session.connectionId dataType).map QualitySpan.start := by
    intro hopen hmem
    have hfull := (hlast.mp hopen).1
    rw [partialStart_eq hfull hreached, minuteBucket_minuteBucket, hs₂, map_append,
      map_append, mem_append, mem_append] at hmem
    rcases hmem with (hmem | hmem) | hmem
    · have hwithin := (hstarts hmem).2
      omega
    · exact absurd (hbefore hmem) (not_lt.mpr hfull)
    · obtain ⟨span, hspan, hstart⟩ := mem_map.mp hmem
      obtain ⟨⟨-, hwithin⟩, rfl⟩ := mem_missingTail.mp hspan
      exact absurd hstart hwithin.ne
  obtain ⟨hw₃, hs₃⟩ := spans_insert_if hinj hw₂ (writes_lastPartial htype) (Eq.refl dataType) hnew
  refine ⟨hw₃, ?_⟩
  rw [hs₃, hs₂, tiles]
  congr 1
  by_cases hopen : fullMinute session.connectedAt ≤ minuteBucket disconnectedAt ∧
      minuteBucket disconnectedAt < disconnectedAt
  · rw [if_pos (hlast.mpr hopen), lastPartial, if_pos hopen, partialStart_eq hopen.1 hreached,
      minuteBucket_minuteBucket]
    rfl
  · rw [if_neg (hlast.not.mpr hopen), lastPartial, if_neg hopen]

/-- Closing a data type inserts intervals of the session and of this type. -/
theorem closeDataType_keeps {P : RealtimeDatabase → Prop}
    (htype : dataType ∈ session.subscriptionScope.dataTypes)
    (hinsert : ∀ db values, Writes sha256 (sessionTexts session disconnectedAt reason)
      session.connectionId values → values.dataType = dataType → P db →
        P (db.insertInterval values)) (h : P db) :
    P (closeDataType sha256 session disconnectedAt failed reason db dataType) := by
  have hif : ∀ (db : RealtimeDatabase) (p : Prop) [Decidable p] (values : IntervalValues),
      (p → Writes sha256 (sessionTexts session disconnectedAt reason) session.connectionId values) →
      values.dataType = dataType → P db → P (if p then db.insertInterval values else db) := by
    intro db p _ values hvalues htype hdb
    split_ifs with hp
    · exact hinsert db values (hvalues hp) htype hdb
    · exact hdb
  exact hif _ _ _ (writes_lastPartial htype) rfl (hif _ _ _ (writes_missingTail htype) rfl
    (hif _ _ _ (writes_firstPartial htype) rfl h))

/-- Another data type is not touched. -/
theorem Recorded.closeDataType_of_ne (hne : other ≠ dataType)
    (hother : other ∈ session.subscriptionScope.dataTypes)
    (h : Recorded sha256 session disconnectedAt reason through dataType db) :
    Recorded sha256 session disconnectedAt reason through dataType
      (closeDataType sha256 session disconnectedAt failed reason db other) :=
  closeDataType_keeps (P := Recorded sha256 session disconnectedAt reason through dataType) hother
    (fun _ _ hvalues htype hdb => ⟨hdb.written.insert hvalues,
      (spans_insert_of_ne (htype.trans_ne hne)).trans hdb.spans⟩) h

theorem Closed.closeDataType_of_ne (hne : other ≠ dataType)
    (hother : other ∈ session.subscriptionScope.dataTypes)
    (h : Closed sha256 session disconnectedAt reason failed through dataType db) :
    Closed sha256 session disconnectedAt reason failed through dataType
      (closeDataType sha256 session disconnectedAt failed reason db other) :=
  closeDataType_keeps (P := Closed sha256 session disconnectedAt reason failed through dataType)
    hother (fun _ _ hvalues htype hdb => ⟨hdb.written.insert hvalues,
      (spans_insert_of_ne (htype.trans_ne hne)).trans hdb.spans⟩) h

/-- The session is closed for every data type of its scope. -/
theorem Live.close (hinj : Distinguished sha256 session disconnectedAt reason)
    (hnodup : session.subscriptionScope.dataTypes.Nodup) {frames : List FrameReceipt}
    (hlt : session.connectedAt < disconnectedAt)
    (hframes : ∀ frame ∈ frames, frame.receivedAt ≤ disconnectedAt)
    (h : Live sha256 session disconnectedAt reason frames db through)
    (htype : dataType ∈ session.subscriptionScope.dataTypes) :
    Closed sha256 session disconnectedAt reason failed through dataType
      (closeRealtimeConnectionSession sha256 db session.connectionId disconnectedAt failed
        reason) := by
  obtain ⟨row, hfound, hconnected, hscope, hactive⟩ := h.found
  obtain ⟨hrow, hid⟩ := (KeyedTable.find_eq_some_iff fun _ => of_decide_eq_true).mp hfound
  replace hid := of_decide_eq_true hid
  have hopen : db.sessions.find (fun row => row.connectionId = session.connectionId &&
      row.status = .active) = some row :=
    (KeyedTable.find_eq_some_iff (k := session.connectionId) (by simp +contextual)).mpr
      ⟨hrow, by simp [hid, hactive]⟩
  have hread : closeDataType sha256 row disconnectedAt failed reason =
      closeDataType sha256 session disconnectedAt failed reason := by
    funext db dataType
    simp only [closeDataType, hid, hconnected]
  have hreached : through = fullMinute session.connectedAt ∨
      through ≤ minuteBucket disconnectedAt := by
    refine h.reached.imp id fun ⟨frame, hframe, hle⟩ => le_minuteBucket h.dvd ?_
    exact hle.trans ((minuteBucket_le _).trans (hframes frame hframe))
  have hclosed : Closed sha256 session disconnectedAt reason failed through dataType
      (session.subscriptionScope.dataTypes.foldl
        (closeDataType sha256 session disconnectedAt failed reason) db) :=
    foldl_each (fun dataType db => Recorded sha256 session disconnectedAt reason through dataType db)
      (Closed sha256 session disconnectedAt reason failed through) hnodup
      (fun _ htype _ hbefore =>
        closeDataType_closed hinj htype hlt h.dvd h.first_le hreached hbefore)
      (fun _ _ hother hne _ hbefore => hbefore.closeDataType_of_ne hne hother)
      (fun _ _ hother hne _ hafter => hafter.closeDataType_of_ne hne hother) htype
      (h.recorded dataType htype)
  unfold closeRealtimeConnectionSession
  dsimp only
  rw [hopen]
  dsimp only
  rw [hread, hscope]
  exact ⟨hclosed.written, hclosed.spans⟩

end

/-! ## What the intervals cover -/

/-- Intervals of which none reaches into another one. -/
def Apart (a b : QualitySpan) : Prop := a.stop ≤ b.start ∨ b.stop ≤ a.start

section

variable {connectedAt disconnectedAt through : ℤ} {failed : Bool}

theorem mem_tiles : span ∈ tiles connectedAt disconnectedAt through failed ↔
      (∃ s ∈ minuteStarts (fullMinute connectedAt) through, span = ⟨s, s + minute, .available⟩) ∨
      (minuteBucket connectedAt < connectedAt ∧
        span = ⟨minuteBucket connectedAt, fullMinute connectedAt, .unverified⟩) ∨
      ((failed = true ∧ through < minuteBucket disconnectedAt) ∧
        span = ⟨through, minuteBucket disconnectedAt, .missing⟩) ∨
      ((fullMinute connectedAt ≤ minuteBucket disconnectedAt ∧
          minuteBucket disconnectedAt < disconnectedAt) ∧
        span = ⟨minuteBucket disconnectedAt, fullMinute disconnectedAt, .unverified⟩) := by
  simp only [tiles, mem_append, mem_firstPartial, mem_missingTail, mem_lastPartial,
    minuteSpans, mem_map, or_assoc, eq_comm (a := span)]

/-- The intervals are of whole minutes, and not empty. -/
theorem aligned_of_mem_tiles (hdvd : minute ∣ through)
    (h : span ∈ tiles connectedAt disconnectedAt through failed) :
    span.start < span.stop ∧ minute ∣ span.start ∧ minute ∣ span.stop := by
  have hfirst := minute_dvd_fullMinute connectedAt
  rcases mem_tiles.mp h with ⟨s, hs, rfl⟩ | ⟨hbegun, rfl⟩ | ⟨⟨-, hopen⟩, rfl⟩ | ⟨⟨-, hbegun⟩, rfl⟩
  · obtain ⟨-, hstart, -⟩ := mem_minuteStarts hfirst hdvd hs
    exact ⟨lt_add_of_pos_right s (by decide), hstart, hstart.add (dvd_refl minute)⟩
  · exact ⟨hbegun.trans_le (fullMinute_ge _), minute_dvd_minuteBucket _, hfirst⟩
  · exact ⟨hopen, hdvd, minute_dvd_minuteBucket _⟩
  · exact ⟨hbegun.trans_le (fullMinute_ge _), minute_dvd_minuteBucket _, minute_dvd_fullMinute _⟩

/-- The intervals are disjoint. -/
theorem tiles_apart (hdvd : minute ∣ through) (hle : fullMinute connectedAt ≤ through)
    (hreached : through = fullMinute connectedAt ∨ through ≤ minuteBucket disconnectedAt) :
    (tiles connectedAt disconnectedAt through failed).Pairwise Apart := by
  have hfirst := minute_dvd_fullMinute connectedAt
  have hwithin : ∀ span ∈ minuteSpans (fullMinute connectedAt) through,
      fullMinute connectedAt ≤ span.start ∧ span.stop ≤ through := by
    intro span hspan
    obtain ⟨s, hs, rfl⟩ := mem_map.mp hspan
    obtain ⟨hfrom, -, hto⟩ := mem_minuteStarts hfirst hdvd hs
    exact ⟨hfrom, hto⟩
  have hminutes : (minuteSpans (fullMinute connectedAt) through).Pairwise Apart := by
    rw [minuteSpans, pairwise_map]
    refine (List.Pairwise.and_mem.mp (minuteStarts_sorted _ _)).imp ?_
    rintro a b ⟨ha, hb, hab⟩
    obtain ⟨-, hdvda, -⟩ := mem_minuteStarts hfirst hdvd ha
    obtain ⟨-, hdvdb, -⟩ := mem_minuteStarts hfirst hdvd hb
    left
    show a + minute ≤ b
    unfold minute at *
    omega
  have hpairwise : ∀ (p : Prop) [Decidable p] (span : QualitySpan),
      (if p then [span] else []).Pairwise Apart := by
    intro p _ span
    split_ifs <;> simp
  unfold tiles Apart at *
  rw [pairwise_append, pairwise_append, pairwise_append]
  refine ⟨⟨⟨hminutes, hpairwise _ _, ?_⟩, hpairwise _ _, ?_⟩, hpairwise _ _, ?_⟩
  · intro a ha b hb
    obtain ⟨hbegun, rfl⟩ := mem_firstPartial.mp hb
    exact Or.inr (hwithin a ha).1
  · intro a ha b hb
    obtain ⟨⟨-, hopen⟩, rfl⟩ := mem_missingTail.mp hb
    rcases mem_append.mp ha with ha | ha
    · exact Or.inl (hwithin a ha).2
    · obtain ⟨hbegun, rfl⟩ := mem_firstPartial.mp ha
      exact Or.inl hle
  · intro a ha b hb
    obtain ⟨⟨hfull, -⟩, rfl⟩ := mem_lastPartial.mp hb
    left
    rcases mem_append.mp ha with ha | ha
    · rcases mem_append.mp ha with ha | ha
      · have hstop := (hwithin a ha).2
        show a.stop ≤ minuteBucket disconnectedAt
        omega
      · obtain ⟨hbegun, rfl⟩ := mem_firstPartial.mp ha
        exact hfull
    · obtain ⟨⟨-, hopen⟩, rfl⟩ := mem_missingTail.mp ha
      exact le_rfl

/-- What the intervals cover. -/
theorem covered_by_tiles (hlt : connectedAt < disconnectedAt) (hdvd : minute ∣ through)
    (hle : fullMinute connectedAt ≤ through)
    (hreached : through = fullMinute connectedAt ∨ through ≤ minuteBucket disconnectedAt) (x : ℤ) :
    (∃ span ∈ tiles connectedAt disconnectedAt through failed, span.start ≤ x ∧ x < span.stop) ↔
      (minuteBucket connectedAt ≤ x ∧ x < fullMinute disconnectedAt) ∧
        ¬ (failed = false ∧ through ≤ x ∧ x < minuteBucket disconnectedAt) := by
  have hminutes := exists_mem_minuteStarts_iff (minute_dvd_fullMinute connectedAt) hdvd x
  have hsplit : (∃ span ∈ tiles connectedAt disconnectedAt through failed,
      span.start ≤ x ∧ x < span.stop) ↔ (fullMinute connectedAt ≤ x ∧ x < through) ∨
      (minuteBucket connectedAt < connectedAt ∧ minuteBucket connectedAt ≤ x ∧
        x < fullMinute connectedAt) ∨
      ((failed = true ∧ through < minuteBucket disconnectedAt) ∧ through ≤ x ∧
        x < minuteBucket disconnectedAt) ∨
      ((fullMinute connectedAt ≤ minuteBucket disconnectedAt ∧
          minuteBucket disconnectedAt < disconnectedAt) ∧
        minuteBucket disconnectedAt ≤ x ∧ x < fullMinute disconnectedAt) := by
    rw [← hminutes]
    simp only [mem_tiles]
    constructor
    · rintro ⟨span, ⟨s, hs, rfl⟩ | ⟨hp, rfl⟩ | ⟨hp, rfl⟩ | ⟨hp, rfl⟩, hx⟩
      · exact Or.inl ⟨s, hs, hx⟩
      · exact Or.inr (Or.inl ⟨hp, hx⟩)
      · exact Or.inr (Or.inr (Or.inl ⟨hp, hx⟩))
      · exact Or.inr (Or.inr (Or.inr ⟨hp, hx⟩))
    · rintro (⟨s, hs, hx⟩ | ⟨hp, hx⟩ | ⟨hp, hx⟩ | ⟨hp, hx⟩)
      · exact ⟨_, Or.inl ⟨s, hs, rfl⟩, hx⟩
      · exact ⟨_, Or.inr (Or.inl ⟨hp, rfl⟩), hx⟩
      · exact ⟨_, Or.inr (Or.inr (Or.inl ⟨hp, rfl⟩)), hx⟩
      · exact ⟨_, Or.inr (Or.inr (Or.inr ⟨hp, rfl⟩)), hx⟩
  rw [hsplit]
  clear hsplit hminutes
  obtain ⟨hc, hfloor⟩ := fullMinute_cases connectedAt
  obtain ⟨hd, hfloor'⟩ := fullMinute_cases disconnectedAt
  have hdvd' := minute_dvd_minuteBucket connectedAt
  have hdvd'' := minute_dvd_minuteBucket disconnectedAt
  unfold minute at *
  cases failed
  · simp only [Bool.false_eq_true, false_and, true_and, eq_self, false_or]
    omega
  · simp only [Bool.true_eq_false, false_and, true_and, eq_self, not_false_eq_true, and_true]
    omega

/-- The available intervals are the whole minutes, up to the last available end. -/
theorem latest_available (hdvd : minute ∣ through) (hle : fullMinute connectedAt ≤ through) :
    (((tiles connectedAt disconnectedAt through failed).filter fun span =>
      span.quality = .available).map QualitySpan.stop).max?.getD (fullMinute connectedAt) =
        through := by
  obtain ⟨hends, hend⟩ := mem_stop_minuteSpans (minute_dvd_fullMinute connectedAt) hdvd
  have hfilter : ((tiles connectedAt disconnectedAt through failed).filter fun span =>
      span.quality = .available) = minuteSpans (fullMinute connectedAt) through := by
    have hif : ∀ (p : Prop) [Decidable p] (span : QualitySpan), span.quality ≠ .available →
        (if p then [span] else []).filter (fun span => span.quality = .available) = [] := by
      intro p _ span hquality
      split_ifs <;> simp [hquality]
    rw [tiles, filter_append, filter_append, filter_append, firstPartial, missingTail,
      lastPartial, hif _ _ (by simp), hif _ _ (by simp), hif _ _ (by simp), append_nil,
      append_nil, append_nil]
    exact filter_eq_self.mpr (forall_mem_map.mpr fun s _ => by simp)
  rw [hfilter]
  refine max?_getD_eq hends ?_
  rcases hle.eq_or_lt with heq | hlt
  · exact Or.inr ⟨by rw [heq, minuteSpans, minuteStarts_of_le le_rfl]; rfl, heq⟩
  · exact Or.inl (hend hlt)

end

/-! ## The intervals of a connection -/

/-- The rows of a connection and a data type, of no single market. -/
def connectionIntervals (db : RealtimeDatabase) (connectionId dataType : String) :
    List QualityInterval :=
  db.intervals.filter fun row =>
    row.connectionId = connectionId && row.dataType = dataType && row.marketId.isNone

/-- A time lies in one of the intervals. -/
def Covered (time : Instant) : Prop :=
  ∃ row ∈ rows, row.rangeStartAt ≤ time ∧ time < row.rangeEndAt

/-- The last end of an available interval, or the first full minute where there is none. -/
def lastAvailableEnd (connectedAt : Instant) : Instant :=
  (((rows.filter fun row => row.quality = .available).map fun row =>
    row.rangeEndAt).max?).getD (fullMinute connectedAt)

/-- The intervals of a connection that received frames and was closed: whole minutes, disjoint, and
available ones between the opening and the last frame. After a failure they cover the minutes from
the opening to the close, after a clean close those but the ones behind the last available end. -/
structure TilesConnection (rows : List QualityInterval) (frames : List FrameReceipt)
    (connectedAt disconnectedAt : Instant) (failed : Bool) : Prop where
  aligned : ∀ row ∈ rows, row.rangeStartAt < row.rangeEndAt ∧ minute ∣ row.rangeStartAt ∧
    minute ∣ row.rangeEndAt
  apart : rows.Pairwise fun row other =>
    row.rangeEndAt ≤ other.rangeStartAt ∨ other.rangeEndAt ≤ row.rangeStartAt
  available : ∀ row ∈ rows, row.quality = .available → connectedAt ≤ row.rangeStartAt ∧
    ∃ last, (frames.map FrameReceipt.receivedAt).max? = some last ∧ row.rangeEndAt ≤ last
  failure : failed = true → ∀ time, Covered rows time ↔
    minuteBucket connectedAt ≤ time ∧ time < fullMinute disconnectedAt
  clean : failed = false → ∀ time, Covered rows time ↔
    (minuteBucket connectedAt ≤ time ∧ time < fullMinute disconnectedAt) ∧
      ¬ (lastAvailableEnd rows connectedAt ≤ time ∧ time < minuteBucket disconnectedAt)

theorem lastAvailableEnd_eq (connectedAt : ℤ) :
    lastAvailableEnd rows connectedAt =
      (((rows.map fun row => spanOf row.toIntervalValues).filter fun span =>
        span.quality = .available).map QualitySpan.stop).max?.getD (fullMinute connectedAt) := by
  rw [filter_map, map_map]
  rfl

/-- Rows with the intervals of a closed connection tile it. -/
theorem tilesConnection_of_spans {rows : List QualityInterval} {frames : List FrameReceipt}
    {failed : Bool} (hrows : (rows.map fun row => spanOf row.toIntervalValues) = tiles connectedAt
      disconnectedAt through failed) (hlt : connectedAt < disconnectedAt) (hdvd : minute ∣ through)
    (hle : fullMinute connectedAt ≤ through) (hreached : through = fullMinute connectedAt ∨ ∃ frame
      ∈ frames, through ≤ minuteBucket frame.receivedAt)
    (hframes : ∀ frame ∈ frames, frame.receivedAt ≤ disconnectedAt) :
    TilesConnection rows frames connectedAt disconnectedAt failed := by
  have hspan : ∀ row ∈ rows, spanOf row.toIntervalValues ∈
      tiles connectedAt disconnectedAt through failed :=
    fun row hrow => hrows ▸ mem_map_of_mem hrow
  have hclose : through = fullMinute connectedAt ∨ through ≤ minuteBucket disconnectedAt := by
    refine hreached.imp id fun ⟨frame, hframe, hle⟩ => le_minuteBucket hdvd ?_
    exact hle.trans ((minuteBucket_le _).trans (hframes frame hframe))
  have hcovered : ∀ time, Covered rows time ↔
      (minuteBucket connectedAt ≤ time ∧ time < fullMinute disconnectedAt) ∧
        ¬ (failed = false ∧ through ≤ time ∧ time < minuteBucket disconnectedAt) := by
    intro time
    rw [← covered_by_tiles hlt hdvd hle hclose, ← hrows]
    simp only [Covered, mem_map, exists_exists_and_eq_and, spanOf]
  refine ⟨fun row hrow => aligned_of_mem_tiles hdvd (hspan row hrow), ?_, ?_, ?_, ?_⟩
  · have hapart : (tiles connectedAt disconnectedAt through failed).Pairwise Apart :=
      tiles_apart hdvd hle hclose
    rw [← hrows, pairwise_map] at hapart
    exact hapart
  · intro row hrow havailable
    have hminute : ∃ s ∈ minuteStarts (fullMinute connectedAt) through,
        spanOf row.toIntervalValues = ⟨s, s + minute, .available⟩ := by
      have hquality : (spanOf row.toIntervalValues).quality = .available := havailable
      rcases mem_tiles.mp (hspan row hrow) with h | ⟨-, h⟩ | ⟨-, h⟩ | ⟨-, h⟩
      · exact h
      all_goals
        rw [h] at hquality
        cases hquality
    obtain ⟨s, hs, hrow⟩ := hminute
    obtain ⟨hfrom, -, hto⟩ := mem_minuteStarts (minute_dvd_fullMinute connectedAt) hdvd hs
    have hstart : row.rangeStartAt = s := congrArg QualitySpan.start hrow
    have hstop : row.rangeEndAt = s + minute := congrArg QualitySpan.stop hrow
    refine ⟨hstart ▸ (fullMinute_ge connectedAt).trans hfrom, ?_⟩
    rcases hreached with hnone | ⟨frame, hframe, hlast⟩
    · unfold minute at hto
      omega
    · have hmem := mem_map_of_mem (f := FrameReceipt.receivedAt) hframe
      obtain ⟨last, hmax⟩ := Option.ne_none_iff_exists'.mp
        (show (frames.map FrameReceipt.receivedAt).max? ≠ none by
          simpa [List.max?_eq_none_iff] using ne_nil_of_mem hframe)
      refine ⟨last, hmax, ?_⟩
      calc row.rangeEndAt = s + minute := hstop
        _ ≤ through := hto
        _ ≤ minuteBucket frame.receivedAt := hlast
        _ ≤ frame.receivedAt := minuteBucket_le frame.receivedAt
        _ ≤ last := (List.max?_eq_some_iff.mp hmax).2 _ hmem
  · rintro rfl time
    simpa using hcovered time
  · rintro rfl time
    rw [lastAvailableEnd_eq, hrows, latest_available hdvd hle]
    simpa using hcovered time

/-- A time that has a text in KST. -/
def InCalendar : Prop :=
  0 ≤ value + 32400000000 ∧ value + 32400000000 < (maxOrdinal * dayMicroseconds : ℕ)

instance (value : ℤ) : Decidable (InCalendar value) := inferInstanceAs (Decidable (_ ∧ _))

theorem kstText_inj {value other : ℤ} (hvalue : InCalendar value) (hother : InCalendar other)
    (h : kstText value = kstText other) : value = other := by
  have hrange : ∀ {value : ℤ}, InCalendar value → 0 ≤ value + 32400000000 ∧
      (value + 32400000000).toNat < maxOrdinal * dayMicroseconds := by
    rintro value ⟨hfirst, hlast⟩
    exact ⟨hfirst, by omega⟩
  rw [kstText, kstText] at h
  dsimp only at h
  rw [dif_pos (hrange hvalue), dif_pos (hrange hother)] at h
  have hdatetime := Except.ok.inj ((fromisoformat_isoformat _).symm.trans
    ((congrArg Datetime.fromisoformat h).trans (fromisoformat_isoformat _)))
  have htime := congrArg UtcTime.ofDatetime hdatetime
  have hmicros := congrArg UtcTime.microseconds ((UtcTime.ofDatetime_datetime
    ⟨_, (hrange hvalue).2⟩).symm.trans (htime.trans (UtcTime.ofDatetime_datetime
      ⟨_, (hrange hother).2⟩)))
  have hfirst := hvalue.1
  have hsecond := hother.1
  simp only at hmicros
  omega

theorem bar_not_mem_kstText : '|' ∉ (kstText value).toList := by
  unfold kstText
  dsimp only
  split_ifs
  · intro hmem
    have hchar := mem_isoformat hmem
    revert hchar
    decide
  · simp

theorem toList_interval (connectionId dataType : String) (start stop : ℤ) (quality : SourceQuality)
    (reasonCode : String) :
    (FingerprintText.interval connectionId none dataType start stop quality reasonCode).text.toList =
      connectionId.toList ++ (separated '|' ["None".toList, dataType.toList, (kstText start).toList,
        (kstText stop).toList] ++ separated '|' [quality.text.toList, reasonCode.toList]) := by
  simp [FingerprintText.text]

theorem toList_minute (connectionId dataType : String) (start stop : ℤ) :
    (FingerprintText.minute connectionId dataType start stop).text.toList =
      connectionId.toList ++ (separated '|' [dataType.toList, (kstText start).toList,
        (kstText stop).toList, "available".toList] ++ []) := by
  simp [FingerprintText.text]

section

variable {session : RealtimeSession} {disconnectedAt : ℤ} {reason : Option String}

/-- Texts of a session with data types without bars, within the calendar, are read in one way. -/
theorem text_injOn_sessionTexts
    (hplain : ∀ dataType ∈ session.subscriptionScope.dataTypes, '|' ∉ dataType.toList)
    (hfirst : InCalendar (minuteBucket session.connectedAt))
    (hlast : InCalendar (fullMinute disconnectedAt)) :
    Set.InjOn FingerprintText.text (sessionTexts session disconnectedAt reason) := by
  have hcalendar : ∀ {start stop : ℤ}, minuteBucket session.connectedAt ≤ start → start < stop →
      stop ≤ fullMinute disconnectedAt → InCalendar start ∧ InCalendar stop := by
    intro start stop hstart hlt hstop
    unfold InCalendar at *
    omega
  have hquality : ∀ quality : SourceQuality, '|' ∉ quality.text.toList := by
    intro quality
    cases quality <;> decide
  rintro _ ⟨dataType, htype, start, stop, hstart, hlt, -, hstop, htext⟩ _ ⟨dataType', htype', start',
    stop', hstart', hlt', -, hstop', htext'⟩ h
  obtain ⟨hin, hend⟩ := hcalendar hstart hlt hstop
  obtain ⟨hin', hend'⟩ := hcalendar hstart' hlt' hstop'
  have hbar := hplain dataType htype
  have hbar' := hplain dataType' htype'
  replace h := congrArg String.toList h
  rcases htext with rfl | ⟨quality, reasonCode, -, rfl⟩ <;>
    rcases htext' with rfl | ⟨quality', reasonCode', -, rfl⟩ <;>
    simp only [toList_minute, toList_interval] at h
  · obtain ⟨hfields, -⟩ := separated_append_inj (append_cancel_left h) rfl
      (by simp [hbar, bar_not_mem_kstText]) (by simp [hbar', bar_not_mem_kstText]) (by simp)
      (by simp)
    simp only [List.cons.injEq, String.toList_inj, and_true] at hfields
    rw [hfields.1, kstText_inj hin hin' hfields.2.1, kstText_inj hend hend' hfields.2.2]
  -- behind four fields a minute ends, and an interval does not
  · obtain ⟨-, hrest⟩ := separated_append_inj (append_cancel_left h) rfl
      (by simp [hbar, bar_not_mem_kstText]) (by simp [hbar', bar_not_mem_kstText]) (by simp)
      (by simp [eq_comm])
    simp at hrest
  · obtain ⟨-, hrest⟩ := separated_append_inj (append_cancel_left h) rfl
      (by simp [hbar, bar_not_mem_kstText]) (by simp [hbar', bar_not_mem_kstText])
      (by simp [eq_comm]) (by simp)
    simp at hrest
  · obtain ⟨hfields, hrest⟩ := separated_append_inj (append_cancel_left h) rfl
      (by simp [hbar, bar_not_mem_kstText]) (by simp [hbar', bar_not_mem_kstText])
      (by simp [eq_comm]) (by simp [eq_comm])
    simp only [List.cons.injEq, String.toList_inj, true_and, and_true] at hfields
    have hlast : separated '|' [quality.text.toList] ++ '|' :: reasonCode.toList =
        separated '|' [quality'.text.toList] ++ '|' :: reasonCode'.toList := by
      simpa using hrest
    obtain ⟨hlast, hreason⟩ := separated_append_inj hlast rfl (by simp [hquality])
      (by simp [hquality]) (by simp [eq_comm]) (by simp [eq_comm])
    have hsame : quality = quality' := by
      have htext : quality.text = quality'.text := by simpa [String.toList_inj] using hlast
      revert htext
      cases quality <;> cases quality' <;> decide
    rw [hfields.1, kstText_inj hin hin' hfields.2.1, kstText_inj hend hend' hfields.2.2, hsame,
      String.toList_inj.mp (List.cons.inj hreason).2]

/-- For such a session it is enough that SHA-256 has no collision among its texts. -/
theorem distinguished_of_injOn {sha256 : String → String}
    (hplain : ∀ dataType ∈ session.subscriptionScope.dataTypes, '|' ∉ dataType.toList)
    (hfirst : InCalendar (minuteBucket session.connectedAt))
    (hlast : InCalendar (fullMinute disconnectedAt))
    (hsha : Set.InjOn sha256 (FingerprintText.text '' sessionTexts session disconnectedAt reason)) :
    Distinguished sha256 session disconnectedAt reason :=
  hsha.comp (text_injOn_sessionTexts hplain hfirst hlast) (Set.mapsTo_image _ _)

end

end Goodmoneying.Analysis.ConnectionTiling
