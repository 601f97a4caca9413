import Goodmoneying.Library.ExceptRules
import Goodmoneying.Program.RealtimeSessions

/-!
# The gaps between connections

What `open_realtime_connection_session` records as the gap before a connection begins with the last
session that failed: the minutes of sessions that were closed without a failure since lie in it
(`cleanClose_missing`). Where no such session recorded a minute (`AfterFailures`), no gap contains a
recorded minute (`gap_between_connections`), since sessions follow one another (`SoundSessions`).
-/

namespace Goodmoneying.Analysis

open List Library Program

variable {start value ended disconnectedAt lastReceivedAt : ℤ} {values : IntervalValues}
  {row : QualityInterval} {connectedAt : Instant} {dataType connectionId : String}
  {sessions before after : List RealtimeSession} {session previous : RealtimeSession}
variable {subscriptionGeneration : ℤ} {instrumentIds : List ℤ} {dataTypes : List String}
  {db' : RealtimeDatabase} {state : RealtimeHistory}

/-! ## Minutes -/

theorem minuteBucket_le (value : ℤ) : minuteBucket value ≤ value := by
  unfold minuteBucket minute at *
  omega

theorem minute_dvd_minuteBucket (value : ℤ) : minute ∣ minuteBucket value := by
  unfold minuteBucket minute at *
  omega

/-- The minute of a time is the last one that begins by then. -/
theorem le_minuteBucket (hdvd : minute ∣ start) (h : start ≤ value) :
    start ≤ minuteBucket value := by
  unfold minuteBucket minute at *
  omega

theorem minute_dvd_fullMinute (value : ℤ) : minute ∣ fullMinute value := by
  unfold fullMinute minuteBucket minute
  split_ifs <;> omega

theorem fullMinute_mono {other : ℤ} (h : value ≤ other) : fullMinute value ≤ fullMinute other := by
  unfold fullMinute minuteBucket minute
  split_ifs <;> omega

/-- Minutes between two borders of minutes are whole. -/
theorem mem_minuteStarts {stop : ℤ} (hstart : minute ∣ start) (hstop : minute ∣ stop)
    (h : value ∈ minuteStarts start stop) :
    start ≤ value ∧ minute ∣ value ∧ value + minute ≤ stop := by
  obtain ⟨i, hi, rfl⟩ := mem_map.mp h
  have hlt := mem_range.mp hi
  obtain ⟨a, rfl⟩ := hstart
  obtain ⟨b, rfl⟩ := hstop
  unfold minute at *
  exact ⟨by omega, ⟨a + i, by ring⟩, by omega⟩

/-! ## Recorded intervals -/

theorem insertInterval_sessions (db : RealtimeDatabase) (values : IntervalValues) :
    (db.insertInterval values).sessions = db.sessions := by
  unfold RealtimeDatabase.insertInterval
  dsimp only
  split_ifs <;> rfl

/-- A row after an insertion was there, or has the values inserted. -/
theorem mem_insertInterval {db : RealtimeDatabase}
    (h : row ∈ (db.insertInterval values).intervals) :
    row ∈ db.intervals ∨ row.toIntervalValues = values := by
  unfold RealtimeDatabase.insertInterval at h
  dsimp only at h
  split_ifs at h
  · exact Or.inl h
  · rcases mem_append.mp h with h | h
    · exact Or.inl h
    · obtain rfl := mem_singleton.mp h
      exact Or.inr rfl

theorem foldl_insertInterval_sessions (db : RealtimeDatabase) (values : List IntervalValues) :
    (values.foldl RealtimeDatabase.insertInterval db).sessions = db.sessions := by
  induction values generalizing db with
  | nil => rfl
  | cons first values ih => rw [foldl_cons, ih, insertInterval_sessions]

theorem mem_foldl_insertInterval {db : RealtimeDatabase} {values : List IntervalValues}
    (h : row ∈ (values.foldl RealtimeDatabase.insertInterval db).intervals) :
    row ∈ db.intervals ∨ row.toIntervalValues ∈ values := by
  induction values generalizing db with
  | nil => exact Or.inl h
  | cons first values ih =>
    rcases ih h with h | h
    · rcases mem_insertInterval h with h | rfl
      · exact Or.inl h
      · exact Or.inr mem_cons_self
    · exact Or.inr (mem_cons_of_mem _ h)

/-- A gap between two connections, for a market. -/
def IsGap (row : QualityInterval) (marketId : ℤ) : Prop :=
  row.reasonCode = "reconnection_gap" ∧ row.marketId = some marketId

/-- The gaps of a data type: each from a session with the market and the data type in its scope,
and no later one of the list has them. -/
theorem mem_reconnectionGaps {sha256 : String → String} {unresolved : List ℤ}
    (h : values ∈ reconnectionGaps sha256 connectedAt dataType unresolved sessions) :
    ∃ before previous after, ∃ marketId ∈ unresolved, sessions = before ++ previous :: after ∧
      previous.covers marketId dataType = true ∧
      (∀ session ∈ before, session.covers marketId dataType = false) ∧
      values = reconnectionGap sha256 connectedAt dataType previous marketId := by
  induction sessions generalizing unresolved with
  | nil => simp [reconnectionGaps] at h
  | cons previous rest ih =>
    -- what is found later in the list, for markets that `previous` does not have
    have hlater : ∀ left : List ℤ, (∀ marketId ∈ left, marketId ∈ unresolved ∧
        previous.covers marketId dataType = false) →
        values ∈ reconnectionGaps sha256 connectedAt dataType left rest →
        ∃ before other after, ∃ marketId ∈ unresolved, previous :: rest = before ++ other :: after ∧
          other.covers marketId dataType = true ∧
          (∀ session ∈ before, session.covers marketId dataType = false) ∧
          values = reconnectionGap sha256 connectedAt dataType other marketId := by
      intro left hleft hvalues
      obtain ⟨before, other, after, marketId, hmarket, rfl, hcovers, hbefore, hrow⟩ := ih hvalues
      obtain ⟨hunresolved, hprevious⟩ := hleft marketId hmarket
      refine ⟨previous :: before, other, after, marketId, hunresolved, rfl, hcovers, ?_, hrow⟩
      intro session hsession
      rcases mem_cons.mp hsession with rfl | hsession
      · exact hprevious
      · exact hbefore session hsession
    rw [reconnectionGaps] at h
    dsimp only at h
    by_cases htype : dataType ∈ previous.subscriptionScope.dataTypes
    · rw [if_neg (not_not.mpr htype)] at h
      have hgaps : values ∈ (if minuteBucket (previous.disconnectedAt.getD 0) <
          fullMinute connectedAt then (unresolved.filter
            (· ∈ previous.subscriptionScope.marketIds)).map
              (reconnectionGap sha256 connectedAt dataType previous) else []) →
          ∃ before other after, ∃ marketId ∈ unresolved,
            previous :: rest = before ++ other :: after ∧
            other.covers marketId dataType = true ∧
            (∀ session ∈ before, session.covers marketId dataType = false) ∧
            values = reconnectionGap sha256 connectedAt dataType other marketId := by
        intro hvalues
        split_ifs at hvalues
        · obtain ⟨marketId, hmarket, rfl⟩ := mem_map.mp hvalues
          obtain ⟨hunresolved, hshared⟩ := mem_filter.mp hmarket
          exact ⟨[], previous, rest, marketId, hunresolved, rfl,
            by simpa [RealtimeSession.covers, htype] using hshared, by simp, rfl⟩
        · simp at hvalues
      have hleft : ∀ marketId ∈ unresolved.filter (· ∉ previous.subscriptionScope.marketIds),
          marketId ∈ unresolved ∧ previous.covers marketId dataType = false := by
        intro marketId hmarket
        obtain ⟨hunresolved, hmarket⟩ := mem_filter.mp hmarket
        exact ⟨hunresolved, by simp [RealtimeSession.covers, of_decide_eq_true hmarket]⟩
      by_cases hshared : unresolved.filter (· ∈ previous.subscriptionScope.marketIds) = []
      · rw [if_pos hshared] at h
        refine hlater unresolved (fun marketId hmarket => ⟨hmarket, ?_⟩) h
        have hnot := filter_eq_nil_iff.mp hshared marketId hmarket
        simp [RealtimeSession.covers] at hnot ⊢
        simp [hnot]
      · rw [if_neg hshared] at h
        split_ifs at h with hnone hgap hgap
        · exact hgaps (by rwa [if_pos hgap])
        · exact hgaps (by rwa [if_neg hgap])
        · rcases mem_append.mp h with h | h
          · exact hgaps (by rwa [if_pos hgap])
          · exact hlater _ hleft h
        · rcases mem_append.mp h with h | h
          · exact hgaps (by rwa [if_neg hgap])
          · exact hlater _ hleft h
    · rw [if_pos htype] at h
      refine hlater unresolved (fun marketId hmarket => ⟨hmarket, ?_⟩) h
      simp [RealtimeSession.covers, htype]

/-! ## Sessions that follow one another -/

/-- Whether a session ended with a failure. -/
def RealtimeSessionFailed (session : RealtimeSession) : Prop :=
  session.status = .failed ∨ session.status = .disconnected

/-- What holds between the events of a worker. -/
structure SoundSessions (db : RealtimeDatabase) (clock : ℤ) (current : Option String) : Prop where
  active : ∀ session ∈ db.sessions.rows, session.status = .active →
    current = some session.connectionId ∧ session.disconnectedAt = none
  isOpen : ∀ session ∈ db.sessions.rows, current = some session.connectionId →
    session.status = .active
  ended : ∀ session ∈ db.sessions.rows, session.status ≠ .active →
    ∃ disconnectedAt, session.disconnectedAt = some disconnectedAt ∧
      session.connectedAt ≤ disconnectedAt ∧ disconnectedAt ≤ clock
  begun : ∀ session ∈ db.sessions.rows, session.connectedAt ≤ clock
  distinct : ∀ session ∈ db.sessions.rows, ∀ other ∈ db.sessions.rows,
    session.connectedAt = other.connectedAt → session.connectionId = other.connectionId
  sequential : ∀ session ∈ db.sessions.rows, ∀ other ∈ db.sessions.rows,
    session.connectedAt < other.connectedAt →
      ∃ disconnectedAt, session.disconnectedAt = some disconnectedAt ∧
        disconnectedAt < other.connectedAt
  minutes : ∀ row ∈ db.intervals, row.quality = .available →
    ∃ session ∈ db.sessions.rows, session.connectionId = row.connectionId ∧
      row.dataType ∈ session.subscriptionScope.dataTypes ∧
      fullMinute session.connectedAt ≤ row.rangeStartAt ∧ minute ∣ row.rangeEndAt ∧
      row.rangeEndAt = row.rangeStartAt + minute ∧ row.rangeEndAt ≤ clock ∧
      ∀ disconnectedAt, session.disconnectedAt = some disconnectedAt →
        row.rangeEndAt ≤ disconnectedAt
  gaps : ∀ row ∈ db.intervals, ∀ marketId, IsGap row marketId →
    ∃ session ∈ db.sessions.rows, row.rangeEndAt = fullMinute session.connectedAt
  apart : ∀ gap ∈ db.intervals, ∀ marketId, IsGap gap marketId → ∀ row ∈ db.intervals,
    row.quality = .available → row.dataType = gap.dataType →
    ∀ session ∈ db.sessions.rows, session.connectionId = row.connectionId →
      marketId ∈ session.subscriptionScope.marketIds →
        row.rangeEndAt ≤ gap.rangeStartAt ∨ gap.rangeEndAt ≤ row.rangeStartAt

variable {sha256 : String → String} {db : RealtimeDatabase} {clock : ℤ}
  {current : Option String}

/-- Time passes. -/
theorem SoundSessions.mono (h : SoundSessions db clock current) {clock' : ℤ}
    (hclock : clock ≤ clock') : SoundSessions db clock' current := by
  refine { h with ended := ?_, begun := ?_, minutes := ?_ }
  · intro session hsession hended
    obtain ⟨disconnectedAt, heq, hle, hlast⟩ := h.ended session hsession hended
    exact ⟨disconnectedAt, heq, hle, hlast.trans hclock⟩
  · intro session hsession
    exact (h.begun session hsession).trans hclock
  · intro row hrow hquality
    obtain ⟨session, hsession, hid, htype, hfrom, hdvd, hend, hle, hbefore⟩ :=
      h.minutes row hrow hquality
    exact ⟨session, hsession, hid, htype, hfrom, hdvd, hend, hle.trans hclock, hbefore⟩

/-- The open session is the last one. -/
theorem SoundSessions.le_active (h : SoundSessions db clock current) {other : RealtimeSession}
    (hsession : session ∈ db.sessions.rows) (hactive : session.status = .active)
    (hother : other ∈ db.sessions.rows) : other.connectedAt ≤ session.connectedAt := by
  by_contra hlt
  obtain ⟨disconnectedAt, hsome, -⟩ := h.sequential session hsession other hother (not_le.mp hlt)
  rw [(h.active session hsession hactive).2] at hsome
  cases hsome

/-- Rows that are neither minutes nor gaps change nothing. -/
theorem SoundSessions.insertOther (h : SoundSessions db clock current)
    (hquality : values.quality ≠ .available) (hmarket : values.marketId = none) :
    SoundSessions (db.insertInterval values) clock current := by
  have hsessions := insertInterval_sessions db values
  have hminute : ∀ row ∈ (db.insertInterval values).intervals, row.quality = .available →
      row ∈ db.intervals := by
    intro row hrow havailable
    rcases mem_insertInterval hrow with hrow | rfl
    · exact hrow
    · exact absurd havailable hquality
  have hgap : ∀ row ∈ (db.insertInterval values).intervals, ∀ marketId, IsGap row marketId →
      row ∈ db.intervals := by
    intro row hrow marketId hisGap
    rcases mem_insertInterval hrow with hrow | rfl
    · exact hrow
    · exact absurd (hmarket.symm.trans hisGap.2) (by simp)
  constructor <;> rw [hsessions]
  case active => exact h.active
  case isOpen => exact h.isOpen
  case ended => exact h.ended
  case begun => exact h.begun
  case distinct => exact h.distinct
  case sequential => exact h.sequential
  case minutes =>
    exact fun row hrow havailable => h.minutes row (hminute row hrow havailable) havailable
  case gaps =>
    exact fun row hrow marketId hisGap => h.gaps row (hgap row hrow marketId hisGap) marketId hisGap
  case apart =>
    intro gap hrow marketId hisGap row hrow' havailable
    exact h.apart gap (hgap gap hrow marketId hisGap) marketId hisGap row
      (hminute row hrow' havailable) havailable

/-- Minutes in which the open session went on lie after every gap. -/
theorem SoundSessions.insertMinutes (h : SoundSessions db clock current)
    (hsession : session ∈ db.sessions.rows) (hactive : session.status = .active)
    {values : List IntervalValues} (hvalues : ∀ value ∈ values, value.connectionId =
      session.connectionId ∧ value.marketId = none ∧ value.dataType ∈
      session.subscriptionScope.dataTypes ∧ fullMinute session.connectedAt ≤ value.rangeStartAt ∧
      minute ∣ value.rangeEndAt ∧ value.rangeEndAt = value.rangeStartAt + minute ∧ value.rangeEndAt
      ≤ clock) : SoundSessions (values.foldl RealtimeDatabase.insertInterval db) clock current := by
  have hsessions := foldl_insertInterval_sessions db values
  have hgap : ∀ row ∈ (values.foldl RealtimeDatabase.insertInterval db).intervals, ∀ marketId,
      IsGap row marketId → row ∈ db.intervals := by
    intro row hrow marketId hisGap
    rcases mem_foldl_insertInterval hrow with hrow | hrow
    · exact hrow
    · exact absurd ((hvalues _ hrow).2.1.symm.trans hisGap.2) (by simp)
  constructor <;> rw [hsessions]
  case active => exact h.active
  case isOpen => exact h.isOpen
  case ended => exact h.ended
  case begun => exact h.begun
  case distinct => exact h.distinct
  case sequential => exact h.sequential
  case minutes =>
    intro row hrow havailable
    rcases mem_foldl_insertInterval hrow with hrow | hrow
    · exact h.minutes row hrow havailable
    · obtain ⟨hid, -, htype, hfrom, hdvd, hend, hle⟩ := hvalues _ hrow
      refine ⟨session, hsession, hid.symm, htype, hfrom, hdvd, hend, hle, ?_⟩
      intro disconnectedAt hsome
      rw [(h.active session hsession hactive).2] at hsome
      cases hsome
  case gaps =>
    exact fun row hrow marketId hisGap => h.gaps row (hgap row hrow marketId hisGap) marketId hisGap
  case apart =>
    intro gap hrow marketId hisGap row hrow' havailable htype other hother hid hmarket
    have hgapRow := hgap gap hrow marketId hisGap
    rcases mem_foldl_insertInterval hrow' with hrow' | hrow'
    · exact h.apart gap hgapRow marketId hisGap row hrow' havailable htype other hother hid hmarket
    · obtain ⟨last, hlast, hend⟩ := h.gaps gap hgapRow marketId hisGap
      have hbefore := fullMinute_mono (h.le_active hsession hactive hlast)
      exact Or.inr (hend ▸ hbefore.trans (hvalues _ hrow').2.2.2.1)

/-! ## Opening a session -/

/-- The worker opens a session for a market and a data type only where no session that recorded
a minute of them was closed without a failure since the last one that failed. -/
def AfterFailures (db : RealtimeDatabase) : RealtimeEvent → Prop
  | .opened _ _ instrumentIds dataTypes _ =>
    ∀ marketId ∈ (sessionScope db.markets instrumentIds dataTypes).marketIds,
    ∀ dataType ∈ (sessionScope db.markets instrumentIds dataTypes).dataTypes,
    ∀ clean ∈ db.sessions.rows, clean.status = .closed → clean.covers marketId dataType = true →
      (∃ row ∈ db.intervals, row.connectionId = clean.connectionId ∧ row.dataType = dataType ∧
        row.quality = .available) →
      ∀ failed ∈ db.sessions.rows, RealtimeSessionFailed failed →
        failed.covers marketId dataType = true → failed.connectedAt < clean.connectedAt →
          ∃ later ∈ db.sessions.rows, RealtimeSessionFailed later ∧
            later.covers marketId dataType = true ∧ clean.connectedAt < later.connectedAt
  | _ => True

theorem mem_previousSessions (h : session ∈ previousSessions sessions connectionId connectedAt) :
    session ∈ sessions ∧ session.connectionId ≠ connectionId ∧ RealtimeSessionFailed session := by
  have hmem := mem_sortedBy.mp (mem_of_mem_take h)
  simp only [mem_filter, Bool.and_eq_true, Bool.or_eq_true, decide_eq_true_eq] at hmem
  exact ⟨hmem.1, hmem.2.1.1, hmem.2.1.2⟩

/-- The failed sessions that ended after one of the list stand before it. -/
theorem mem_before_of_previousSessions
    (hlist : previousSessions sessions connectionId connectedAt = before ++ previous :: after)
    (hsession : session ∈ sessions) (hid : session.connectionId ≠ connectionId)
    (hfailed : RealtimeSessionFailed session) {endedLater : ℤ}
    (hprevious : previous.disconnectedAt = some ended)
    (hlater : session.disconnectedAt = some endedLater) (hlt : ended < endedLater)
    (hbefore : endedLater < connectedAt) : session ∈ before := by
  let rows := sessions.filter fun session =>
    session.connectionId ≠ connectionId &&
    (session.status = .failed || session.status = .disconnected) &&
    session.disconnectedAt.any (· < connectedAt)
  have hmem : session ∈ rows := by
    rw [mem_filter]
    refine ⟨hsession, ?_⟩
    rcases hfailed with hstatus | hstatus <;> simp [hid, hstatus, hlater, hbefore]
  let key : RealtimeSession → ℤ := fun session => -(session.disconnectedAt.getD 0)
  have hsorted := sortedBy_pairwise key rows
  have hsplit : sortedBy key rows =
      before ++ previous :: (after ++ (sortedBy key rows).drop 100) := by
    rw [← cons_append, ← append_assoc, ← hlist]
    exact (take_append_drop 100 _).symm
  rw [hsplit, pairwise_append, pairwise_cons] at hsorted
  have hin : session ∈ before ++ previous :: (after ++ (sortedBy key rows).drop 100) :=
    hsplit ▸ mem_sortedBy.mpr hmem
  rcases mem_append.mp hin with hin | hin
  · exact hin
  · rcases mem_cons.mp hin with rfl | hin
    · rw [hprevious] at hlater
      exact absurd (Option.some.inj hlater) hlt.ne
    · have hle := hsorted.2.1.1 session hin
      simp only [key, hprevious, hlater, Option.getD_some] at hle
      omega

/-- The row of a session that is opened. -/
def openedSession (markets : List MarketRow) (connectionId : String)
    (subscriptionGeneration : ℤ) (instrumentIds : List ℤ) (dataTypes : List String)
    (connectedAt : Instant) : RealtimeSession where
  connectionId := connectionId
  subscriptionGeneration := subscriptionGeneration
  subscriptionScope := sessionScope markets instrumentIds dataTypes
  connectedAt := connectedAt

/-- A session has been opened: it stands last, and the rows that are new are gaps before it. -/
structure Opened (sha256 : String → String) (db db' : RealtimeDatabase)
    (session : RealtimeSession) : Prop where
  sessions : db'.sessions.rows = db.sessions.rows ++ [session]
  active : session.status = .active
  running : session.disconnectedAt = none
  fresh : ∀ other ∈ db.sessions.rows, other.connectionId ≠ session.connectionId
  intervals : ∀ row ∈ db'.intervals, row ∈ db.intervals ∨
    ∃ dataType ∈ session.subscriptionScope.dataTypes,
      row.toIntervalValues ∈ reconnectionGaps sha256 session.connectedAt dataType
        session.subscriptionScope.marketIds
        (previousSessions db'.sessions.rows session.connectionId session.connectedAt)

/-- The insertions of one data type after another. -/
theorem foldl_insertTypes (types : List String) (gaps : String → List IntervalValues)
    (start : RealtimeDatabase) :
    (types.foldl (fun db dataType => (gaps dataType).foldl RealtimeDatabase.insertInterval db)
      start).sessions = start.sessions ∧
    ∀ row ∈ (types.foldl (fun db dataType =>
      (gaps dataType).foldl RealtimeDatabase.insertInterval db) start).intervals,
      row ∈ start.intervals ∨ ∃ dataType ∈ types, row.toIntervalValues ∈ gaps dataType := by
  induction types generalizing start with
  | nil => exact ⟨rfl, fun row hrow => Or.inl hrow⟩
  | cons first types ih =>
    obtain ⟨hsessions, hrows⟩ := ih ((gaps first).foldl RealtimeDatabase.insertInterval start)
    refine ⟨hsessions.trans (foldl_insertInterval_sessions _ _), fun row hrow => ?_⟩
    rcases hrows row hrow with hrow | ⟨dataType, htype, hrow⟩
    · rcases mem_foldl_insertInterval hrow with hrow | hrow
      · exact Or.inl hrow
      · exact Or.inr ⟨first, mem_cons_self, hrow⟩
    · exact Or.inr ⟨dataType, mem_cons_of_mem _ htype, hrow⟩

/-- What opening a session does. -/
theorem opened_openRealtimeConnectionSession
    (hnew : connectionId ∉ db.sessions.rows.map RealtimeSession.connectionId) :
    Opened sha256 db (openRealtimeConnectionSession sha256 db connectionId subscriptionGeneration
      instrumentIds dataTypes connectedAt) (openedSession db.markets connectionId
        subscriptionGeneration instrumentIds dataTypes connectedAt) := by
  unfold openRealtimeConnectionSession
  dsimp only
  rw [dif_pos hnew]
  obtain ⟨hsessions, hrows⟩ :=
    foldl_insertTypes (sessionScope db.markets instrumentIds dataTypes).dataTypes _ _
  constructor
  case sessions => exact congrArg KeyedTable.rows hsessions
  case active => rfl
  case running => rfl
  case fresh =>
    rintro other hother rfl
    exact hnew (mem_map_of_mem hother)
  case intervals =>
    rw [hsessions]
    exact hrows

/-- Where no session is open, every session has ended. -/
theorem SoundSessions.ended_of_idle (h : SoundSessions db clock none)
    (hsession : session ∈ db.sessions.rows) : ∃ disconnectedAt,
      session.disconnectedAt = some disconnectedAt ∧ session.connectedAt ≤ disconnectedAt ∧
        disconnectedAt ≤ clock := by
  refine h.ended session hsession fun hactive => ?_
  cases (h.active session hsession hactive).1

section Opening

variable {db' : RealtimeDatabase} {opened : RealtimeSession}
variable {marketId : ℤ} {owner : RealtimeSession}
variable {ownerEnded : ℤ}

/-- A session after the opening was there before, or is the one opened. -/
theorem Opened.mem_sessions (h : Opened sha256 db db' opened) :
    session ∈ db'.sessions.rows ↔ session ∈ db.sessions.rows ∨ session = opened := by
  rw [h.sessions, mem_append, mem_singleton]

/-- The rows of minutes are old rows. -/
theorem Opened.mem_intervals (h : Opened sha256 db db' opened) (hrow : row ∈ db'.intervals)
    (havailable : row.quality = .available) : row ∈ db.intervals := by
  rcases h.intervals row hrow with hrow | ⟨dataType, -, hgap⟩
  · exact hrow
  · obtain ⟨-, previous, -, marketId, -, -, -, -, heq⟩ := mem_reconnectionGaps hgap
    have hquality : row.quality = .missing := congrArg IntervalValues.quality heq
    rw [hquality] at havailable
    cases havailable

/-- The session opened begins after all others. -/
theorem SoundSessions.distinct_of_opened (h : SoundSessions db clock none)
    (hopened : Opened sha256 db db' opened) (htime : clock < opened.connectedAt) :
    ∀ session ∈ db'.sessions.rows, ∀ other ∈ db'.sessions.rows,
      session.connectedAt = other.connectedAt → session.connectionId = other.connectionId := by
  intro session hsession other hother heq
  rcases hopened.mem_sessions.mp hsession with hsession | rfl <;>
    rcases hopened.mem_sessions.mp hother with hother | rfl
  · exact h.distinct session hsession other hother heq
  · exact absurd heq ((h.begun session hsession).trans_lt htime).ne
  · exact absurd heq ((h.begun other hother).trans_lt htime).ne'
  · rfl

theorem SoundSessions.sequential_of_opened (h : SoundSessions db clock none)
    (hopened : Opened sha256 db db' opened) (htime : clock < opened.connectedAt) :
    ∀ session ∈ db'.sessions.rows, ∀ other ∈ db'.sessions.rows,
      session.connectedAt < other.connectedAt →
        ∃ disconnectedAt, session.disconnectedAt = some disconnectedAt ∧
          disconnectedAt < other.connectedAt := by
  intro session hsession other hother hlt
  rcases hopened.mem_sessions.mp hsession with hsession | rfl <;>
    rcases hopened.mem_sessions.mp hother with hother | rfl
  · exact h.sequential session hsession other hother hlt
  · obtain ⟨disconnectedAt, hsome, -, hlast⟩ := h.ended_of_idle hsession
    exact ⟨disconnectedAt, hsome, hlast.trans_lt htime⟩
  · exact absurd hlt ((h.begun other hother).trans_lt htime).not_gt
  · exact absurd hlt (lt_irrefl _)

theorem SoundSessions.gaps_of_opened (h : SoundSessions db clock none)
    (hopened : Opened sha256 db db' opened) : ∀ row ∈ db'.intervals, ∀ marketId,
      IsGap row marketId →
        ∃ session ∈ db'.sessions.rows, row.rangeEndAt = fullMinute session.connectedAt := by
  intro row hrow marketId hisGap
  rcases hopened.intervals row hrow with hrow | ⟨dataType, -, hgap⟩
  · obtain ⟨session, hsession, hend⟩ := h.gaps row hrow marketId hisGap
    exact ⟨session, hopened.mem_sessions.mpr (Or.inl hsession), hend⟩
  · obtain ⟨-, previous, -, market, -, -, -, -, heq⟩ := mem_reconnectionGaps hgap
    exact ⟨opened, hopened.mem_sessions.mpr (Or.inr rfl), congrArg IntervalValues.rangeEndAt heq⟩

/-- A failed session that ended after the one a gap begins with stands before it in the list, and
does not have the market and the data type in its scope. -/
theorem SoundSessions.not_ended_after (h : SoundSessions db clock none)
    (hopened : Opened sha256 db db' opened) (htime : clock < opened.connectedAt)
    {later : RealtimeSession} (hlist : previousSessions db'.sessions.rows opened.connectionId
      opened.connectedAt = before ++ previous :: after)
    (hbefore : ∀ session ∈ before, session.covers marketId dataType = false)
    (hlater : later ∈ db.sessions.rows) (hfailed : RealtimeSessionFailed later)
    (hcovers : later.covers marketId dataType = true) {laterEnded : ℤ}
    (hended : previous.disconnectedAt = some ended)
    (hlaterEnded : later.disconnectedAt = some laterEnded) : laterEnded ≤ ended := by
  by_contra hlt
  obtain ⟨d, hd, -, hclock⟩ := h.ended_of_idle hlater
  obtain rfl := Option.some.inj (hd.symm.trans hlaterEnded)
  have hmem := mem_before_of_previousSessions hlist (hopened.mem_sessions.mpr (Or.inl hlater))
    (hopened.fresh later hlater) hfailed hended hlaterEnded (not_le.mp hlt) (hclock.trans_lt htime)
  rw [hbefore later hmem] at hcovers
  cases hcovers

/-- Sessions follow one another, so the one that ended later began later. -/
theorem SoundSessions.begins_after (h : SoundSessions db clock none)
    (hprevious : previous ∈ db.sessions.rows) (howner : owner ∈ db.sessions.rows)
    (hne : previous ≠ owner) (hended : previous.disconnectedAt = some ended)
    (hownerEnded : owner.disconnectedAt = some ownerEnded) (hlt : ended < ownerEnded) :
    previous.connectedAt < owner.connectedAt := by
  rcases lt_trichotomy previous.connectedAt owner.connectedAt with hlt' | heq | hgt
  · exact hlt'
  · exact absurd (KeyedTable.eq_of_key hprevious howner
      (h.distinct previous hprevious owner howner heq)) hne
  · obtain ⟨d, hd, hdlt⟩ := h.sequential owner howner previous hprevious hgt
    obtain rfl := Option.some.inj (hd.symm.trans hownerEnded)
    obtain ⟨d', hd', hconnected, -⟩ := h.ended_of_idle hprevious
    obtain rfl := Option.some.inj (hd'.symm.trans hended)
    exact absurd hlt (not_lt.mpr (hdlt.le.trans hconnected))

/-- A session with a minute of the market and the data type of a gap ended no later than the session
that the gap begins with. -/
theorem SoundSessions.ended_le (h : SoundSessions db clock none)
    (hopened : Opened sha256 db db' opened) (htime : clock < opened.connectedAt) (hlist :
      previousSessions db'.sessions.rows opened.connectionId opened.connectedAt = before ++ previous
      :: after) (hbefore : ∀ session ∈ before, session.covers marketId dataType = false)
    (hprevious : previous ∈ db.sessions.rows) (hpreviousFailed : RealtimeSessionFailed previous)
    (howner : owner ∈ db.sessions.rows) (hcovers : owner.covers marketId dataType = true) (hafter :
      owner.status = .closed → previous.connectedAt < owner.connectedAt → ∃ later ∈
      db.sessions.rows, RealtimeSessionFailed later ∧ later.covers marketId dataType = true ∧
      owner.connectedAt < later.connectedAt) (hended : previous.disconnectedAt = some ended)
    (hownerEnded : owner.disconnectedAt = some ownerEnded) : ownerEnded ≤ ended := by
  by_cases hfailed : RealtimeSessionFailed owner
  · exact h.not_ended_after hopened htime hlist hbefore howner hfailed hcovers hended hownerEnded
  by_contra hlt
  have hclean : owner.status = .closed := by
    have hnotActive : owner.status ≠ .active := by
      intro hactive
      cases (h.active owner howner hactive).1
    unfold RealtimeSessionFailed at hfailed
    cases hstatus : owner.status <;> simp_all
  have hne : previous ≠ owner := by
    rintro rfl
    exact hfailed hpreviousFailed
  -- a failed session began after the clean one had ended, and ended later still
  obtain ⟨later, hlater, hlaterFailed, hlaterCovers, hlaterAfter⟩ :=
    hafter hclean (h.begins_after hprevious howner hne hended hownerEnded (not_le.mp hlt))
  obtain ⟨laterEnded, hlaterEnded, hlaterConnected, -⟩ := h.ended_of_idle hlater
  obtain ⟨d, hd, hdlt⟩ := h.sequential owner howner later hlater hlaterAfter
  obtain rfl := Option.some.inj (hd.symm.trans hownerEnded)
  have hle := h.not_ended_after hopened htime hlist hbefore hlater hlaterFailed hlaterCovers hended
    hlaterEnded
  exact hlt ((hdlt.le.trans hlaterConnected).trans hle)

/-- A gap before the session opened begins after the minutes of its market and data type. -/
theorem SoundSessions.minute_before_gap (h : SoundSessions db clock none)
    (hopened : Opened sha256 db db' opened) (htime : clock < opened.connectedAt) (hgap : values ∈
      reconnectionGaps sha256 opened.connectedAt dataType opened.subscriptionScope.marketIds
      (previousSessions db'.sessions.rows opened.connectionId opened.connectedAt))
    (hmarket : values.marketId = some marketId) (hrow : row ∈ db.intervals)
    (havailable : row.quality = .available) (howner : owner ∈ db.sessions.rows)
    (hid : owner.connectionId = row.connectionId) (hcovers : owner.covers marketId dataType = true)
    (hafter : marketId ∈ opened.subscriptionScope.marketIds → ∀ previous ∈ db.sessions.rows,
      RealtimeSessionFailed previous → previous.covers marketId dataType = true → owner.status =
      .closed → previous.connectedAt < owner.connectedAt → ∃ later ∈ db.sessions.rows,
      RealtimeSessionFailed later ∧ later.covers marketId dataType = true ∧ owner.connectedAt <
      later.connectedAt) : row.rangeEndAt ≤ values.rangeStartAt := by
  obtain ⟨before, previous, after, market, hmarketId, hlist, hpreviousCovers, hbefore, rfl⟩ :=
    mem_reconnectionGaps hgap
  obtain rfl : market = marketId := Option.some.inj hmarket
  obtain ⟨hmem, hne, hfailed⟩ := mem_previousSessions
    (hlist ▸ mem_append_right before mem_cons_self)
  have hprevious : previous ∈ db.sessions.rows := by
    rcases hopened.mem_sessions.mp hmem with hmem | rfl
    · exact hmem
    · exact absurd rfl hne
  obtain ⟨ended, hended, -⟩ := h.ended_of_idle hprevious
  obtain ⟨ownerEnded, hownerEnded, -⟩ := h.ended_of_idle howner
  obtain ⟨session, hsession, hsessionId, -, -, hdvd, -, -, hlast⟩ := h.minutes row hrow havailable
  obtain rfl := KeyedTable.eq_of_key hsession howner (hsessionId.trans hid.symm)
  have hle := h.ended_le hopened htime hlist hbefore hprevious hfailed howner hcovers
    (hafter hmarketId previous hprevious hfailed hpreviousCovers) hended hownerEnded
  have hstart : (reconnectionGap sha256 opened.connectedAt dataType previous market).rangeStartAt =
      minuteBucket ended := by
    rw [← Option.getD_some (a := ended), ← hended]
    rfl
  rw [hstart]
  exact le_minuteBucket hdvd ((hlast ownerEnded hownerEnded).trans hle)

/-- Opening a session keeps the sessions sound. -/
theorem SoundSessions.opens (h : SoundSessions db clock none) {connectedAt : ℤ}
    (hnew : connectionId ∉ db.sessions.rows.map RealtimeSession.connectionId)
    (htime : clock < connectedAt) (hafter : AfterFailures db (.opened connectionId
      subscriptionGeneration instrumentIds dataTypes connectedAt)) :
    SoundSessions (openRealtimeConnectionSession sha256 db connectionId subscriptionGeneration
      instrumentIds dataTypes connectedAt) connectedAt (some connectionId) := by
  have hopened : Opened sha256 db _ (openedSession db.markets connectionId subscriptionGeneration
      instrumentIds dataTypes connectedAt) := opened_openRealtimeConnectionSession hnew
  constructor
  case active =>
    intro session hsession hactive
    rcases hopened.mem_sessions.mp hsession with hsession | rfl
    · cases (h.active session hsession hactive).1
    · exact ⟨rfl, rfl⟩
  case isOpen =>
    intro session hsession hcurrent
    rcases hopened.mem_sessions.mp hsession with hsession | rfl
    · exact absurd (Option.some.inj hcurrent).symm (hopened.fresh session hsession)
    · rfl
  case ended =>
    intro session hsession hended
    rcases hopened.mem_sessions.mp hsession with hsession | rfl
    · obtain ⟨disconnectedAt, hsome, hle, hlast⟩ := h.ended_of_idle hsession
      exact ⟨disconnectedAt, hsome, hle, hlast.trans htime.le⟩
    · exact absurd rfl hended
  case begun =>
    intro session hsession
    rcases hopened.mem_sessions.mp hsession with hsession | rfl
    · exact (h.begun session hsession).trans htime.le
    · exact le_rfl
  case distinct => exact h.distinct_of_opened hopened htime
  case sequential => exact h.sequential_of_opened hopened htime
  case minutes =>
    intro row hrow havailable
    obtain ⟨session, hsession, hid, htype, hfrom, hdvd, hend, hle, hbefore⟩ :=
      h.minutes row (hopened.mem_intervals hrow havailable) havailable
    exact ⟨session, hopened.mem_sessions.mpr (Or.inl hsession), hid, htype, hfrom, hdvd, hend,
      hle.trans htime.le, hbefore⟩
  case gaps => exact h.gaps_of_opened hopened
  case apart =>
    intro gap hgap marketId hisGap row hrow havailable htype session hsession hid hmarket
    replace hrow := hopened.mem_intervals hrow havailable
    -- the minute is of a session that was closed before
    replace hsession : session ∈ db.sessions.rows := by
      rcases hopened.mem_sessions.mp hsession with hsession | rfl
      · exact hsession
      · obtain ⟨owner, howner, hownerId, -⟩ := h.minutes row hrow havailable
        exact absurd (hownerId.trans hid.symm) (hopened.fresh owner howner)
    rcases hopened.intervals gap hgap with hgap | ⟨dataType, hdataType, hgap⟩
    · exact h.apart gap hgap marketId hisGap row hrow havailable htype session hsession hid hmarket
    · obtain ⟨_, previous, _, market, -, -, -, -, heq⟩ := mem_reconnectionGaps hgap
      have hgapType : gap.dataType = dataType := congrArg IntervalValues.dataType heq
      obtain ⟨owner, howner, hownerId, hownerType, -⟩ := h.minutes row hrow havailable
      obtain rfl := KeyedTable.eq_of_key howner hsession (hownerId.trans hid.symm)
      have hcovers : owner.covers marketId dataType = true := by
        simp only [RealtimeSession.covers, Bool.and_eq_true, decide_eq_true_eq]
        exact ⟨hmarket, by rwa [← hgapType, ← htype]⟩
      refine Or.inl (h.minute_before_gap hopened htime hgap hisGap.2 hrow havailable hsession hid
        hcovers fun hmarketId previous hprevious hfailed hpreviousCovers hclosed hlt => ?_)
      exact hafter marketId hmarketId dataType hdataType owner hsession hclosed hcovers
        ⟨row, hrow, hid.symm, htype.trans hgapType, havailable⟩ previous hprevious hfailed
        hpreviousCovers hlt

end Opening

/-! ## Frames, and the end of a session -/

/-- Sessions of one connection, scope and beginning. -/
structure SameOpening (session session' : RealtimeSession) : Prop where
  connectionId : session'.connectionId = session.connectionId
  scope : session'.subscriptionScope = session.subscriptionScope
  connectedAt : session'.connectedAt = session.connectedAt

/-- Sessions that agree in what the gaps depend on. -/
structure SameSession (session session' : RealtimeSession) : Prop
    extends SameOpening session session' where
  disconnectedAt : session'.disconnectedAt = session.disconnectedAt
  status : session'.status = session.status

/-- A session when the open one is closed. -/
structure ClosedSession (disconnectedAt : Instant) (session session' : RealtimeSession) : Prop
    extends SameOpening session session' where
  inactive : session'.status ≠ .active
  ended : session.status = .active ∧ session'.disconnectedAt = some disconnectedAt ∨
    session.status ≠ .active ∧ session'.disconnectedAt = session.disconnectedAt

section Frames

variable {db' : RealtimeDatabase}

theorem SoundSessions.distinct_of_opening (h : SoundSessions db clock current)
    (hopening : ∀ session' ∈ db'.sessions.rows, ∃ session ∈ db.sessions.rows,
      SameOpening session session') : ∀ session ∈ db'.sessions.rows, ∀ other ∈ db'.sessions.rows,
      session.connectedAt = other.connectedAt → session.connectionId = other.connectionId := by
  intro session' hsession' other' hother' hconnected
  obtain ⟨session, hsession, heq⟩ := hopening session' hsession'
  obtain ⟨other, hother, heqOther⟩ := hopening other' hother'
  rw [heq.connectedAt, heqOther.connectedAt] at hconnected
  rw [heq.connectionId, heqOther.connectionId]
  exact h.distinct session hsession other hother hconnected

theorem SoundSessions.gaps_of_opening (h : SoundSessions db clock current)
    (hopening : ∀ session ∈ db.sessions.rows, ∃ session' ∈ db'.sessions.rows,
      SameOpening session session') (hintervals : db'.intervals = db.intervals) :
    ∀ row ∈ db'.intervals, ∀ marketId, IsGap row marketId →
      ∃ session ∈ db'.sessions.rows, row.rangeEndAt = fullMinute session.connectedAt := by
  intro row hrow marketId hisGap
  obtain ⟨session, hsession, hend⟩ := h.gaps row (hintervals ▸ hrow) marketId hisGap
  obtain ⟨session', hsession', heq⟩ := hopening session hsession
  exact ⟨session', hsession', heq.connectedAt ▸ hend⟩

theorem SoundSessions.apart_of_opening (h : SoundSessions db clock current)
    (hopening : ∀ session' ∈ db'.sessions.rows, ∃ session ∈ db.sessions.rows,
      SameOpening session session') (hintervals : db'.intervals = db.intervals) :
    ∀ gap ∈ db'.intervals, ∀ marketId, IsGap gap marketId → ∀ row ∈ db'.intervals,
      row.quality = .available → row.dataType = gap.dataType →
      ∀ session ∈ db'.sessions.rows, session.connectionId = row.connectionId →
        marketId ∈ session.subscriptionScope.marketIds →
          row.rangeEndAt ≤ gap.rangeStartAt ∨ gap.rangeEndAt ≤ row.rangeStartAt := by
  intro gap hgap marketId hisGap row hrow havailable htype session' hsession' hid hmarket
  obtain ⟨session, hsession, heq⟩ := hopening session' hsession'
  exact h.apart gap (hintervals ▸ hgap) marketId hisGap row (hintervals ▸ hrow) havailable htype
    session hsession (heq.connectionId ▸ hid) (heq.scope ▸ hmarket)

/-- Sessions may change in their progress. -/
theorem SoundSessions.of_same (h : SoundSessions db clock current)
    (hsame : List.Forall₂ SameSession db.sessions.rows db'.sessions.rows)
    (hintervals : db'.intervals = db.intervals) : SoundSessions db' clock current := by
  have hfrom : ∀ session' ∈ db'.sessions.rows, ∃ session ∈ db.sessions.rows,
      SameSession session session' := exists_of_forall₂ hsame
  have hto : ∀ session ∈ db.sessions.rows, ∃ session' ∈ db'.sessions.rows,
      SameSession session session' := exists_of_forall₂ hsame.flip
  have hopening : ∀ session' ∈ db'.sessions.rows, ∃ session ∈ db.sessions.rows,
      SameOpening session session' := fun session' hsession' =>
    (hfrom session' hsession').imp fun _ => And.imp_right SameSession.toSameOpening
  constructor
  case active =>
    intro session' hsession' hactive
    obtain ⟨session, hsession, heq⟩ := hfrom session' hsession'
    rw [heq.connectionId, heq.disconnectedAt]
    exact h.active session hsession (heq.status ▸ hactive)
  case isOpen =>
    intro session' hsession' hcurrent
    obtain ⟨session, hsession, heq⟩ := hfrom session' hsession'
    rw [heq.status]
    exact h.isOpen session hsession (heq.connectionId ▸ hcurrent)
  case ended =>
    intro session' hsession' hended
    obtain ⟨session, hsession, heq⟩ := hfrom session' hsession'
    rw [heq.disconnectedAt, heq.connectedAt]
    exact h.ended session hsession (heq.status ▸ hended)
  case begun =>
    intro session' hsession'
    obtain ⟨session, hsession, heq⟩ := hfrom session' hsession'
    rw [heq.connectedAt]
    exact h.begun session hsession
  case distinct => exact h.distinct_of_opening hopening
  case sequential =>
    intro session' hsession' other' hother' hlt
    obtain ⟨session, hsession, heq⟩ := hfrom session' hsession'
    obtain ⟨other, hother, heqOther⟩ := hfrom other' hother'
    rw [heq.connectedAt, heqOther.connectedAt] at hlt
    rw [heq.disconnectedAt, heqOther.connectedAt]
    exact h.sequential session hsession other hother hlt
  case minutes =>
    intro row hrow havailable
    obtain ⟨session, hsession, hid, htype, hstart, hdvd, hend, hle, hbefore⟩ :=
      h.minutes row (hintervals ▸ hrow) havailable
    obtain ⟨session', hsession', heq⟩ := hto session hsession
    exact ⟨session', hsession', heq.connectionId.trans hid, heq.scope ▸ htype,
      heq.connectedAt ▸ hstart, hdvd, hend, hle, heq.disconnectedAt ▸ hbefore⟩
  case gaps =>
    exact h.gaps_of_opening (fun session hsession =>
      (hto session hsession).imp fun _ => And.imp_right SameSession.toSameOpening) hintervals
  case apart => exact h.apart_of_opening hopening hintervals

/-- Sessions that began before the open one ended before it began. -/
theorem SoundSessions.sequential_of_closed (h : SoundSessions db clock current) (hfrom : ∀ session'
      ∈ db'.sessions.rows, ∃ session ∈ db.sessions.rows, ClosedSession disconnectedAt session
      session') : ∀ session ∈ db'.sessions.rows, ∀ other ∈ db'.sessions.rows,
      session.connectedAt < other.connectedAt →
        ∃ disconnectedAt, session.disconnectedAt = some disconnectedAt ∧
          disconnectedAt < other.connectedAt := by
  intro session' hsession' other' hother' hlt
  obtain ⟨session, hsession, heq⟩ := hfrom session' hsession'
  obtain ⟨other, hother, heqOther⟩ := hfrom other' hother'
  rw [heq.connectedAt, heqOther.connectedAt] at hlt
  rcases heq.ended with ⟨hactive, -⟩ | ⟨-, hended⟩
  · exact absurd hlt (h.le_active hsession hactive hother).not_gt
  · rw [hended, heqOther.connectedAt]
    exact h.sequential session hsession other hother hlt

theorem SoundSessions.minutes_of_closed (h : SoundSessions db clock current)
    (htime : clock < disconnectedAt) (hto : ∀ session ∈ db.sessions.rows, ∃ session' ∈
      db'.sessions.rows, ClosedSession disconnectedAt session session')
    (hintervals : db'.intervals = db.intervals) : ∀ row ∈ db'.intervals, row.quality = .available →
      ∃ session ∈ db'.sessions.rows, session.connectionId = row.connectionId ∧
        row.dataType ∈ session.subscriptionScope.dataTypes ∧
        fullMinute session.connectedAt ≤ row.rangeStartAt ∧ minute ∣ row.rangeEndAt ∧
        row.rangeEndAt = row.rangeStartAt + minute ∧ row.rangeEndAt ≤ disconnectedAt ∧
        ∀ disconnectedAt, session.disconnectedAt = some disconnectedAt →
          row.rangeEndAt ≤ disconnectedAt := by
  intro row hrow havailable
  obtain ⟨session, hsession, hid, htype, hstart, hdvd, hend, hle, hbefore⟩ :=
    h.minutes row (hintervals ▸ hrow) havailable
  obtain ⟨session', hsession', heq⟩ := hto session hsession
  refine ⟨session', hsession', heq.connectionId.trans hid, heq.scope ▸ htype,
    heq.connectedAt ▸ hstart, hdvd, hend, hle.trans htime.le, fun d hd => ?_⟩
  rcases heq.ended with ⟨-, hended⟩ | ⟨-, hended⟩
  · obtain rfl := Option.some.inj (hended.symm.trans hd)
    exact hle.trans htime.le
  · exact hbefore d (hended.symm.trans hd)

/-- The open session may be closed. -/
theorem SoundSessions.of_closed (h : SoundSessions db clock current)
    (htime : clock < disconnectedAt)
    (hclosed : List.Forall₂ (ClosedSession disconnectedAt) db.sessions.rows db'.sessions.rows)
    (hintervals : db'.intervals = db.intervals) : SoundSessions db' disconnectedAt none := by
  have hfrom : ∀ session' ∈ db'.sessions.rows, ∃ session ∈ db.sessions.rows,
      ClosedSession disconnectedAt session session' := exists_of_forall₂ hclosed
  have hto : ∀ session ∈ db.sessions.rows, ∃ session' ∈ db'.sessions.rows,
      ClosedSession disconnectedAt session session' := exists_of_forall₂ hclosed.flip
  have hopening : ∀ session' ∈ db'.sessions.rows, ∃ session ∈ db.sessions.rows,
      SameOpening session session' := fun session' hsession' =>
    (hfrom session' hsession').imp fun _ => And.imp_right ClosedSession.toSameOpening
  constructor
  case active =>
    intro session' hsession' hactive
    obtain ⟨session, -, heq⟩ := hfrom session' hsession'
    exact absurd hactive heq.inactive
  case isOpen => exact fun _ _ => nofun
  case ended =>
    intro session' hsession' _
    obtain ⟨session, hsession, heq⟩ := hfrom session' hsession'
    rw [heq.connectedAt]
    rcases heq.ended with ⟨-, hended⟩ | ⟨hinactive, hended⟩
    · exact ⟨disconnectedAt, hended, (h.begun session hsession).trans htime.le, le_rfl⟩
    · obtain ⟨d, hd, hle, hlast⟩ := h.ended session hsession hinactive
      exact ⟨d, hended.trans hd, hle, hlast.trans htime.le⟩
  case begun =>
    intro session' hsession'
    obtain ⟨session, hsession, heq⟩ := hfrom session' hsession'
    rw [heq.connectedAt]
    exact (h.begun session hsession).trans htime.le
  case distinct => exact h.distinct_of_opening hopening
  case sequential => exact h.sequential_of_closed hfrom
  case minutes => exact h.minutes_of_closed htime hto hintervals
  case gaps =>
    exact h.gaps_of_opening (fun session hsession =>
      (hto session hsession).imp fun _ => And.imp_right ClosedSession.toSameOpening) hintervals
  case apart => exact h.apart_of_opening hopening hintervals

end Frames

/-- The latest end of intervals that end at borders of minutes is a border of minutes. -/
theorem minute_dvd_latestEnd {intervals : List QualityInterval} {p : QualityInterval → Bool}
    {default : ℤ} (hdefault : minute ∣ default) (hrows : ∀ row ∈ intervals, row.connectionId =
      connectionId → p row = true → minute ∣ row.rangeEndAt) :
    minute ∣ latestEnd intervals connectionId dataType p default := by
  unfold latestEnd
  cases hmax : ((intervals.filter fun row => row.connectionId = connectionId &&
      row.dataType = dataType && p row).map fun row => row.rangeEndAt).max? with
  | none => exact hdefault
  | some value =>
    obtain ⟨row, hrow, rfl⟩ := mem_map.mp (List.max?_mem hmax)
    obtain ⟨hmem, hcondition⟩ := mem_filter.mp hrow
    simp only [Bool.and_eq_true, decide_eq_true_eq] at hcondition
    exact hrows row hmem hcondition.1.1 hcondition.2

/-- Minutes of the recording begin with the first full one, and end by the last frame. -/
theorem mem_recordedMinutes {connectedAt latest : ℤ} (hlatest : minute ∣ latest) (hstart : start ∈
      minuteStarts (max (fullMinute connectedAt) latest) (minuteBucket lastReceivedAt)) :
    fullMinute connectedAt ≤ start ∧ minute ∣ start + minute ∧ start + minute ≤ lastReceivedAt := by
  have hmax : minute ∣ max (fullMinute connectedAt) latest := by
    rcases max_choice (fullMinute connectedAt) latest with heq | heq
    · rw [heq]
      exact minute_dvd_fullMinute connectedAt
    · rw [heq]
      exact hlatest
  obtain ⟨hfrom, hdvd, hto⟩ := mem_minuteStarts hmax (minute_dvd_minuteBucket lastReceivedAt) hstart
  exact ⟨(le_max_left _ _).trans hfrom, dvd_add hdvd (dvd_refl _),
    hto.trans (minuteBucket_le lastReceivedAt)⟩

theorem recordMinutes_sessions (session : RealtimeSession) (lastReceivedAt : Instant)
    (db : RealtimeDatabase) (dataType : String) :
    (recordMinutes sha256 session lastReceivedAt db dataType).sessions = db.sessions :=
  foldl_insertInterval_sessions _ _

theorem SoundSessions.recordMinutes (h : SoundSessions db clock current)
    (hsession : session ∈ db.sessions.rows) (hactive : session.status = .active)
    (hclock : lastReceivedAt ≤ clock) (htype : dataType ∈ session.subscriptionScope.dataTypes) :
    SoundSessions (recordMinutes sha256 session lastReceivedAt db dataType) clock current := by
  refine h.insertMinutes hsession hactive fun value hvalue => ?_
  obtain ⟨start, hstart, rfl⟩ := mem_map.mp hvalue
  obtain ⟨hfrom, hdvd, hto⟩ := mem_recordedMinutes (minute_dvd_latestEnd
    (minute_dvd_fullMinute session.connectedAt) fun row hrow _ havailable => by
      obtain ⟨-, -, -, -, -, hdvd, -⟩ := h.minutes row hrow (of_decide_eq_true havailable)
      exact hdvd) hstart
  exact ⟨rfl, rfl, htype, hfrom, hdvd, rfl, hto.trans hclock⟩

theorem SoundSessions.recordTypes (h : SoundSessions db clock current)
    (hsession : session ∈ db.sessions.rows) (hactive : session.status = .active)
    (hclock : lastReceivedAt ≤ clock) {types : List String}
    (htypes : types ⊆ session.subscriptionScope.dataTypes) :
    SoundSessions (types.foldl (Program.recordMinutes sha256 session lastReceivedAt) db) clock
      current := by
  induction types generalizing db with
  | nil => exact h
  | cons first types ih =>
    obtain ⟨hfirst, htypes⟩ := cons_subset.mp htypes
    refine ih (h.recordMinutes hsession hactive hclock hfirst) ?_ htypes
    rw [recordMinutes_sessions]
    exact hsession

/-- The progress of the open session. -/
theorem SoundSessions.recordProgress (h : SoundSessions db clock current)
    {group : Group String FrameReceipt} (hcurrent : current = some group.key)
    (hclock : ∀ frame ∈ group.items, frame.receivedAt ≤ clock)
    (hrecord : recordProgress sha256 db group = .ok db') : SoundSessions db' clock current := by
  unfold Program.recordProgress at hrecord
  split at hrecord
  next firstSequence lastSequence lastReceivedAt session hfirst hlast hreceived hfind =>
    obtain rfl := Except.ok.inj hrecord
    have hsession := mem_of_find?_eq_some hfind
    have hkey : session.connectionId = group.key := by
      have hfound := List.find?_some hfind
      exact of_decide_eq_true hfound
    have hactive := h.isOpen session hsession (hkey ▸ hcurrent)
    obtain ⟨frame, hframe, rfl⟩ := mem_map.mp (List.max?_mem hreceived)
    -- the session with its progress is the open one
    have hsame : List.Forall₂ SameSession db.sessions.rows
        (db.sessions.update (fun row => row.connectionId = group.key)
          (fun row => row.progress firstSequence lastSequence frame.receivedAt)
          (RealtimeSession.progress_connectionId firstSequence lastSequence frame.receivedAt)).rows
        := by
      rw [KeyedTable.update_rows, forall₂_map_right_iff, forall₂_same]
      intro row _
      split_ifs <;> exact ⟨⟨rfl, rfl, rfl⟩, rfl, rfl⟩
    have hprogress : SoundSessions { db with
        sessions := db.sessions.update (fun row => row.connectionId = group.key)
          (fun row => row.progress firstSequence lastSequence frame.receivedAt)
          (RealtimeSession.progress_connectionId firstSequence lastSequence frame.receivedAt) }
        clock current := h.of_same hsame rfl
    obtain ⟨session', hsession', heq⟩ := exists_of_forall₂ hsame.flip session hsession
    have hminutes : SoundSessions (session'.subscriptionScope.dataTypes.foldl
        (Program.recordMinutes sha256 session' frame.receivedAt) _) clock current :=
      hprogress.recordTypes hsession' (heq.status.trans hactive) (hclock frame hframe)
        (List.Subset.refl _)
    -- what is recorded does not read the progress
    have hread : Program.recordMinutes sha256 session' frame.receivedAt =
        Program.recordMinutes sha256 session frame.receivedAt := by
      funext db dataType
      simp only [Program.recordMinutes, heq.connectionId, heq.connectedAt]
    rw [hread, heq.scope] at hminutes
    exact hminutes
  next => cases hrecord

/-- Recording a batch of frames keeps the sessions sound. -/
theorem SoundSessions.records (h : SoundSessions db clock current)
    (hcurrent : current = some connectionId) {frames : List FrameReceipt}
    (hframes : ∀ frame ∈ frames, frame.connectionId = connectionId)
    (hclock : ∀ frame ∈ frames, frame.receivedAt ≤ clock)
    (hrecord : recordRealtimeSessionProgress sha256 db frames = .ok db') :
    SoundSessions db' clock current := by
  have hgroups : ∀ group ∈ grouped (frames.map fun frame => (frame.connectionId, frame)),
      group.key = connectionId ∧ ∀ frame ∈ group.items, frame ∈ frames := by
    intro group hgroup
    obtain ⟨pair, hpair, hkey⟩ := mem_map.mp
      (mem_map_key_grouped.mp (mem_map_of_mem (f := Group.key) hgroup))
    obtain ⟨frame, hframe, rfl⟩ := mem_map.mp hpair
    refine ⟨hkey ▸ hframes frame hframe, fun item hitem => ?_⟩
    rw [(groups_grouped _).items_eq group hgroup] at hitem
    obtain ⟨pair, hpair, rfl⟩ := mem_map.mp hitem
    obtain ⟨other, hother, rfl⟩ := mem_map.mp (mem_filter.mp hpair).1
    exact hother
  unfold recordRealtimeSessionProgress at hrecord
  revert hgroups hrecord
  generalize grouped (frames.map fun frame => (frame.connectionId, frame)) = groups
  intro hrecord hgroups
  induction groups generalizing db with
  | nil =>
    obtain rfl := Except.ok.inj hrecord
    exact h
  | cons group groups ih =>
    rw [foldlM_cons] at hrecord
    obtain ⟨next, hnext, hrecord⟩ := bind_eq_ok.mp hrecord
    obtain ⟨hkey, hitems⟩ := hgroups group mem_cons_self
    refine ih (h.recordProgress (hkey ▸ hcurrent) (fun frame hframe => ?_) hnext) hrecord
      fun group hgroup => hgroups group (mem_cons_of_mem _ hgroup)
    exact hclock frame (hitems frame hframe)

theorem closeDataType_sessions (session : RealtimeSession) (disconnectedAt : Instant)
    (failed : Bool) (reason : Option String) (db : RealtimeDatabase) (dataType : String) :
    (closeDataType sha256 session disconnectedAt failed reason db dataType).sessions =
      db.sessions := by
  unfold closeDataType
  dsimp only
  split_ifs <;> simp only [insertInterval_sessions]

/-- What is recorded at the end of a session is neither a minute nor a gap. -/
theorem SoundSessions.closeDataType (h : SoundSessions db clock current)
    (session : RealtimeSession) (disconnectedAt : Instant) (failed : Bool) (reason : Option String)
    (dataType : String) :
    SoundSessions (closeDataType sha256 session disconnectedAt failed reason db dataType) clock
      current := by
  have hinsert : ∀ {db : RealtimeDatabase}, SoundSessions db clock current →
      ∀ (p : Prop) [Decidable p] (start stop : Instant) (quality : SourceQuality)
        (reasonCode : String), quality ≠ .available →
        SoundSessions (if p then db.insertInterval (connectionQualityValues sha256
          session.connectionId none dataType start stop quality reasonCode disconnectedAt)
          else db) clock current := by
    intro db hdb p _ start stop quality reasonCode hquality
    split_ifs
    · exact hdb.insertOther hquality rfl
    · exact hdb
  unfold Program.closeDataType
  exact hinsert (hinsert (hinsert h _ _ _ _ _ (by decide)) _ _ _ _ _ (by decide)) _ _ _ _ _
    (by decide)

theorem SoundSessions.closeTypes (h : SoundSessions db clock current) (session : RealtimeSession)
    (disconnectedAt : Instant) (failed : Bool) (reason : Option String) (types : List String) :
    SoundSessions (types.foldl (Program.closeDataType sha256 session disconnectedAt failed reason)
      db) clock current ∧
    (types.foldl (Program.closeDataType sha256 session disconnectedAt failed reason) db).sessions =
      db.sessions := by
  induction types generalizing db with
  | nil => exact ⟨h, rfl⟩
  | cons first types ih =>
    obtain ⟨hsound, hsessions⟩ := ih (h.closeDataType session disconnectedAt failed reason first)
    exact ⟨hsound, hsessions.trans (closeDataType_sessions session disconnectedAt failed reason db
      first)⟩

/-- A session is closed: nothing is open after it. -/
theorem SoundSessions.closes (h : SoundSessions db clock (some connectionId))
    (htime : clock < disconnectedAt) (failed : Bool) (reason : Option String) :
    SoundSessions (closeRealtimeConnectionSession sha256 db connectionId disconnectedAt failed
      reason) disconnectedAt none := by
  -- the rows that closing records
  obtain ⟨recorded, hrecorded, hsound⟩ : ∃ recorded,
      closeRealtimeConnectionSession sha256 db connectionId disconnectedAt failed reason =
        { recorded with
          sessions := recorded.sessions.update (fun session =>
            session.connectionId = connectionId && session.status = .active)
            (fun session => session.close disconnectedAt failed reason)
            (RealtimeSession.close_connectionId disconnectedAt failed reason) } ∧
      SoundSessions recorded clock (some connectionId) := by
    unfold closeRealtimeConnectionSession
    dsimp only
    split
    next session hfind =>
      obtain ⟨hsound, -⟩ := h.closeTypes session disconnectedAt failed
        reason session.subscriptionScope.dataTypes
      exact ⟨_, rfl, hsound⟩
    next => exact ⟨db, rfl, h⟩
  rw [hrecorded]
  refine hsound.of_closed htime ?_ rfl
  rw [KeyedTable.update_rows, forall₂_map_right_iff, forall₂_same]
  intro session hsession
  by_cases hactive : session.status = .active
  · have hid : session.connectionId = connectionId :=
      (Option.some.inj (hsound.active session hsession hactive).1).symm
    rw [if_pos (by simp [hid, hactive])]
    refine ⟨⟨rfl, rfl, rfl⟩, ?_, Or.inl ⟨hactive, rfl⟩⟩
    cases failed <;> simp [RealtimeSession.close]
  · rw [if_neg (by simp [hactive])]
    exact ⟨⟨rfl, rfl, rfl⟩, hactive, Or.inr ⟨hactive, rfl⟩⟩

/-! ## Histories -/

theorem le_foldl_max (values : List ℤ) (start : ℤ) :
    start ≤ values.foldl max start ∧ ∀ value ∈ values, value ≤ values.foldl max start := by
  induction values generalizing start with
  | nil => simp
  | cons first values ih =>
    obtain ⟨hstart, hvalues⟩ := ih (max start first)
    refine ⟨(le_max_left _ _).trans hstart, fun value hvalue => ?_⟩
    rcases mem_cons.mp hvalue with rfl | hvalue
    · exact (le_max_right _ _).trans hstart
    · exact hvalues value hvalue

theorem realtimeStep_sound {state' : RealtimeHistory} {event : RealtimeEvent}
    (hstep : RealtimeStep sha256 state event state') (hafter : AfterFailures state.db event)
    (h : SoundSessions state.db state.clock state.current) :
    SoundSessions state'.db state'.clock state'.current := by
  cases hstep with
  | opens connectionId subscriptionGeneration instrumentIds dataTypes connectedAt hidle hnew
      htime =>
    rw [hidle] at h
    exact h.opens hnew htime hafter
  | records connectionId frames db hcurrent hframes htimes horder hrecord =>
    obtain ⟨hclock, hvalues⟩ := le_foldl_max (frames.map FrameReceipt.receivedAt) state.clock
    exact (h.mono hclock).records hcurrent hframes
      (fun frame hframe => hvalues _ (mem_map_of_mem hframe)) hrecord
  | closes connectionId disconnectedAt failed reason hcurrent htime =>
    rw [hcurrent] at h
    exact h.closes htime failed reason

theorem sound_start (markets : List MarketRow) (clock : ℤ) :
    SoundSessions (RealtimeHistory.start markets clock).db clock none := by
  constructor <;> intro row hrow <;> cases hrow

theorem histories_sound {markets : List MarketRow} (hsteps : Relation.ReflTransGen (fun state state'
      => ∃ event, RealtimeStep sha256 state event state' ∧ AfterFailures state.db event) (.start
      markets start) state) : SoundSessions state.db state.clock state.current := by
  induction hsteps with
  | refl => exact sound_start markets start
  | tail _ hstep ih =>
    obtain ⟨event, hstep, hafter⟩ := hstep
    exact realtimeStep_sound hstep hafter ih

/-- No gap contains a minute that was recorded as available, and no gap is what the quality of
such a minute is read from. -/
def GapsApart (db : RealtimeDatabase) : Prop :=
  ∀ row ∈ db.intervals, row.quality = .available → ∀ session ∈ db.sessions.rows,
    session.connectionId = row.connectionId → ∀ marketId ∈ session.subscriptionScope.marketIds,
      (∀ gap ∈ db.intervals, IsGap gap marketId → gap.dataType = row.dataType →
        ¬ (gap.rangeStartAt ≤ row.rangeStartAt ∧ row.rangeEndAt ≤ gap.rangeEndAt)) ∧
      ∀ asOf ceiling latest, latestQuality db marketId row.rangeStartAt row.rangeEndAt asOf ceiling
        row.dataType = some latest → ∀ gapMarketId, ¬ IsGap latest gapMarketId

/-- Gaps are apart from the recorded minutes in every history in which no session is opened for what
a session that was closed without a failure has recorded since the last one that failed.
SOURCE: postgres_repository.py:244-423, microstructure_store.py:330-381 -/
theorem gap_between_connections (sha256 : String → String) (markets : List MarketRow)
    (start : ℤ) (state : RealtimeHistory)
    (hsteps : Relation.ReflTransGen (fun state state' => ∃ event,
      RealtimeStep sha256 state event state' ∧ AfterFailures state.db event)
      (.start markets start) state) : GapsApart state.db := by
  have hsound := histories_sound hsteps
  intro row hrow havailable session hsession hid marketId hmarket
  have hminute : row.rangeEndAt = row.rangeStartAt + minute := by
    obtain ⟨-, -, -, -, -, -, hend, -⟩ := hsound.minutes row hrow havailable
    exact hend
  have hgaps : ∀ gap ∈ state.db.intervals, IsGap gap marketId → gap.dataType = row.dataType →
      ¬ (gap.rangeStartAt ≤ row.rangeStartAt ∧ row.rangeEndAt ≤ gap.rangeEndAt) := by
    rintro gap hgap hisGap htype ⟨hfrom, hto⟩
    unfold minute at hminute
    rcases hsound.apart gap hgap marketId hisGap row hrow havailable htype.symm session hsession
      hid hmarket with hbefore | hafter
    · have hle : row.rangeEndAt ≤ row.rangeStartAt := hbefore.trans hfrom
      rw [hminute] at hle
      exact absurd hle (by simp)
    · have hle : row.rangeEndAt ≤ row.rangeStartAt := hto.trans hafter
      rw [hminute] at hle
      exact absurd hle (by simp)
  refine ⟨hgaps, fun asOf ceiling latest hlatest gapMarketId hisGap => ?_⟩
  obtain ⟨hmem, hcondition⟩ := mem_filter.mp (maxBy_spec hlatest).1
  simp only [Bool.and_eq_true, decide_eq_true_eq, any_eq_true, Bool.or_eq_true] at hcondition
  obtain ⟨⟨⟨⟨⟨htype, owner, -, -, hscope⟩, hfrom⟩, hto⟩, -⟩, -⟩ := hcondition
  -- a gap is of a market, so it is of the market that is read
  rcases hscope with hscope | hscope
  · have hsame : gapMarketId = marketId := Option.some.inj (hisGap.2.symm.trans hscope)
    exact hgaps latest hmem (hsame ▸ hisGap) htype ⟨hfrom, hto⟩
  · rw [hisGap.2] at hscope
    exact absurd hscope.1 (by simp)

/-! ## A session that is closed without a failure -/

/-- The seconds of the events below. -/
def second (n : ℤ) : ℤ := n * 1000000

def firstOpened : RealtimeHistory where
  db := openRealtimeConnectionSession id (RealtimeHistory.start [⟨1, some 1⟩] 0).db "first"
    0 [1] ["trade_event"] (second 10)
  clock := second 10
  current := some "first"

/-- A session failed in its first minute. -/
def firstFailed : RealtimeHistory where
  db := closeRealtimeConnectionSession id firstOpened.db "first" (second 50) true none
  clock := second 50
  current := none

def secondOpened : RealtimeHistory where
  db := openRealtimeConnectionSession id firstFailed.db "second" 0 [1] ["trade_event"]
    (second 60)
  clock := second 60
  current := some "second"

/-- The next session goes on for a whole minute. -/
def secondReceived : RealtimeHistory where
  db := (recordRealtimeSessionProgress id secondOpened.db
    [⟨"second", 1, second 130⟩]).toOption.getD secondOpened.db
  clock := second 130
  current := some "second"

/-- It is closed without a failure. -/
def secondClosed : RealtimeHistory where
  db := closeRealtimeConnectionSession id secondReceived.db "second" (second 140) false none
  clock := second 140
  current := none

def thirdOpened : RealtimeHistory where
  db := openRealtimeConnectionSession id secondClosed.db "third" 0 [1] ["trade_event"]
    (second 150)
  clock := second 150
  current := some "third"

theorem secondReceived_recorded : recordRealtimeSessionProgress id secondOpened.db
    [⟨"second", 1, second 130⟩] = .ok secondReceived.db := by
  have hisOk : (recordRealtimeSessionProgress id secondOpened.db
      [⟨"second", 1, second 130⟩]).isOk = true := by
    decide +kernel
  obtain ⟨db, hdb⟩ := exists_ok_of_isOk hisOk
  rw [secondReceived, hdb]
  rfl

/-- The events up to the frames of the second session. -/
theorem secondReceived_steps : RealtimeStep id (.start [⟨1, some 1⟩] 0)
      (.opened "first" 0 [1] ["trade_event"] (second 10)) firstOpened ∧
    RealtimeStep id firstOpened (.closed (second 50) true none) firstFailed ∧
    RealtimeStep id firstFailed (.opened "second" 0 [1] ["trade_event"] (second 60)) secondOpened ∧
    RealtimeStep id secondOpened (.received [⟨"second", 1, second 130⟩]) secondReceived :=
  ⟨.opens _ "first" 0 [1] ["trade_event"] (second 10) rfl (by decide) (by decide),
    .closes firstOpened "first" (second 50) true none rfl (by decide),
    .opens firstFailed "second" 0 [1] ["trade_event"] (second 60) rfl (by decide) (by decide),
    .records secondOpened "second" [⟨"second", 1, second 130⟩] secondReceived.db rfl (by decide)
      (by decide) (by decide) secondReceived_recorded⟩

/-- The gap before the third session begins with the failed one, and contains the minute of the
one in between. -/
theorem cleanClose_missing : ¬ ∀ (sha256 : String → String) (markets : List MarketRow)
    (start : ℤ) (state : RealtimeHistory),
    Relation.ReflTransGen (fun state state' => ∃ event, RealtimeStep sha256 state event state')
      (.start markets start) state → GapsApart state.db := by
  intro hapart
  obtain ⟨hopens, hfails, hreopens, hreceives⟩ := secondReceived_steps
  have hcloses : RealtimeStep id secondReceived (.closed (second 140) false none)
      secondClosed :=
    .closes secondReceived "second" (second 140) false none rfl (by decide)
  have hthird : RealtimeStep id secondClosed
      (.opened "third" 0 [1] ["trade_event"] (second 150)) thirdOpened :=
    .opens secondClosed "third" 0 [1] ["trade_event"] (second 150) rfl (by decide +kernel)
      (by decide)
  have hsteps : Relation.ReflTransGen (fun state state' => ∃ event,
      RealtimeStep id state event state') (.start [⟨1, some 1⟩] 0) thirdOpened :=
    (((((Relation.ReflTransGen.single ⟨_, hopens⟩).tail ⟨_, hfails⟩).tail ⟨_, hreopens⟩).tail
      ⟨_, hreceives⟩).tail ⟨_, hcloses⟩).tail ⟨_, hthird⟩
  have hcontained : ∃ row ∈ thirdOpened.db.intervals, row.quality = .available ∧
      ∃ session ∈ thirdOpened.db.sessions.rows, session.connectionId = row.connectionId ∧
        1 ∈ session.subscriptionScope.marketIds ∧
        ∃ gap ∈ thirdOpened.db.intervals, (gap.reasonCode = "reconnection_gap" ∧
          gap.marketId = some 1) ∧ gap.dataType = row.dataType ∧
          gap.rangeStartAt ≤ row.rangeStartAt ∧ row.rangeEndAt ≤ gap.rangeEndAt := by
    decide +kernel
  obtain ⟨row, hrow, havailable, session, hsession, hid, hmarket, gap, hgap, hisGap, htype, hfrom,
    hto⟩ := hcontained
  exact (hapart _ _ _ _ hsteps row hrow havailable session hsession hid 1 hmarket).1 gap hgap
    hisGap htype ⟨hfrom, hto⟩

/-- Up to the second session the gaps are apart from what was recorded. -/
theorem gap_between_connections_secondReceived : GapsApart secondReceived.db := by
  obtain ⟨hopens, hfails, hreopens, hreceives⟩ := secondReceived_steps
  have hfirst : AfterFailures (RealtimeHistory.start [⟨1, some 1⟩] 0).db
      (.opened "first" 0 [1] ["trade_event"] (second 10)) := by
    intro marketId _ dataType _ clean hclean
    cases hclean
  have hsecond : AfterFailures firstFailed.db
      (.opened "second" 0 [1] ["trade_event"] (second 60)) := by
    have hnone : ∀ session ∈ firstFailed.db.sessions.rows, session.status ≠ .closed := by
      decide +kernel
    intro marketId _ dataType _ clean hclean hclosed
    exact absurd hclosed (hnone clean hclean)
  exact gap_between_connections id [⟨1, some 1⟩] 0 secondReceived
    ((((Relation.ReflTransGen.single ⟨_, hopens, hfirst⟩).tail ⟨_, hfails, trivial⟩).tail
      ⟨_, hreopens, hsecond⟩).tail ⟨_, hreceives, trivial⟩)

end Goodmoneying.Analysis
