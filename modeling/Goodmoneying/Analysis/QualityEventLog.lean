import Goodmoneying.Analysis.CoverageRecomputation

/-!
# The quality event log and the coverage of a target

A target that starts without intervals and events has at every instant the status that the latest
event there says, as long as no status comes back at one and the same time (`ComesBack`,
`qualityEventLog_determines_coverage`). The event of a status that does is dropped, because its key
is in the log already, and the log no longer says what the intervals do.
-/

namespace Goodmoneying.Analysis

open List Library Program

variable {events : QualityEventTable} {targetSpecId : ℤ} {x : Instant} {event : QualityEvent}
  {transition : Span Instant (Option CoverageState)}
variable {events' : QualityEventTable} {created : List QualityEvent} {call : CoverageCall}
  {target : ℤ} {calls : List CoverageCall}

/-! ## The latest event -/

/-- The event is about the target at the instant. -/
def covers (targetSpecId : ℤ) (x : Instant) (event : QualityEvent) : Bool :=
  event.targetSpecId = targetSpecId ∧ event.rangeStartAt ≤ x ∧ x < event.rangeEndAt

/-- The event of the greatest id about a target at an instant. -/
def latestEvent? (events : QualityEventTable) (targetSpecId : ℤ) (x : Instant) :
    Option QualityEvent :=
  (sortedBy (fun event => -event.id) (events.rows.filter (covers targetSpecId x))).head?

/-- The log says of a target what its intervals do. -/
def LogAgrees (db : CoverageDatabase) (targetSpecId : ℤ) : Prop :=
  ∀ x, statusAt db.intervals targetSpecId x =
    (latestEvent? db.events targetSpecId x).map QualityEvent.newStatus

/-- The latest event is one of the events there, of the greatest id. -/
theorem latestEvent?_some (h : latestEvent? events targetSpecId x = some event) :
    event ∈ events.rows ∧ covers targetSpecId x event = true ∧
      ∀ other ∈ events.rows, covers targetSpecId x other = true → other.id ≤ event.id := by
  obtain ⟨hmem, hlatest⟩ := head?_sortedBy h
  obtain ⟨hevent, hcovers⟩ := mem_filter.mp hmem
  exact ⟨hevent, hcovers, fun other hother hcovered =>
    neg_le_neg_iff.mp (hlatest other (mem_filter.mpr ⟨hother, hcovered⟩))⟩

/-- There is no latest event where no event is. -/
theorem latestEvent?_eq_none_iff : latestEvent? events targetSpecId x = none ↔
      ∀ event ∈ events.rows, covers targetSpecId x event = false := by
  rw [latestEvent?, List.head?_eq_none_iff, ← length_eq_zero_iff,
    (sortedBy_perm _ _).length_eq, length_eq_zero_iff, filter_eq_nil_iff]
  simp

/-- Events that are not there leave the latest event as it was. -/
theorem latestEvent?_append_of_not_covers (hrows : events'.rows = events.rows ++ created)
    (hnone : ∀ event ∈ created, covers targetSpecId x event = false) :
    latestEvent? events' targetSpecId x = latestEvent? events targetSpecId x := by
  have hfilter : created.filter (covers targetSpecId x) = [] :=
    filter_eq_nil_iff.mpr fun event hevent => by simp [hnone event hevent]
  rw [latestEvent?, hrows, filter_append, hfilter, append_nil, latestEvent?]

/-- Events of later ids, one of them there, hold the latest event. -/
theorem latestEvent?_append_of_covers (hrows : events'.rows = events.rows ++ created)
    (hlater : ∀ event ∈ created, events.nextId ≤ event.id) (hevent : event ∈ created)
    (hcovers : covers targetSpecId x event = true) :
    ∃ last ∈ created, latestEvent? events' targetSpecId x = some last := by
  have hmem : event ∈ events'.rows := hrows ▸ mem_append_right _ hevent
  cases hlast : latestEvent? events' targetSpecId x with
  | none =>
    rw [latestEvent?_eq_none_iff.mp hlast event hmem] at hcovers
    cases hcovers
  | some last =>
    obtain ⟨hlastMem, -, hgreatest⟩ := latestEvent?_some hlast
    have hid : events.nextId ≤ last.id := (hlater event hevent).trans (hgreatest event hmem hcovers)
    cases mem_append.mp (hrows ▸ hlastMem) with
    | inl hold => exact absurd hid (not_le.mpr (events.fresh last hold))
    | inr hnew => exact ⟨last, hnew, rfl⟩

/-! ## Logging -/

/-- The key that the event of a transition will have. -/
def transitionKey (checksum : CanonicalValue → String) (call : CoverageCall)
    (transition : Span Instant (Option CoverageState)) : ℤ × String × Instant × String :=
  (transitionEvent checksum call transition).uniqueKey

/-- No transition is dropped: their keys are new and different. -/
def AllLogged (checksum : CanonicalValue → String) (call : CoverageCall)
    (events : QualityEventTable) (transitions : List (Span Instant (Option CoverageState))) :
    Prop :=
  (transitions.map (transitionKey checksum call) ++
    events.rows.map QualityEvent.uniqueKey).Nodup

/-- The event logs the transition. -/
def Logs (checksum : CanonicalValue → String) (call : CoverageCall) (event : QualityEvent)
    (transition : Span Instant (Option CoverageState)) : Prop :=
  event = { transitionEvent checksum call transition with id := event.id }

/-- The event of a transition covers the transition for the target of the call. -/
theorem Logs.covers_iff {checksum : CanonicalValue → String}
    (h : Logs checksum call event transition) :
    covers target x event = true ↔ call.targetSpecId = target ∧ transition.Contains x := by
  rw [h]
  exact decide_eq_true_iff

/-- The log gets events of transitions, of later ids, and one for each transition if none is
dropped. -/
theorem logTransitions_rows (checksum : CanonicalValue → String) (call : CoverageCall)
    (events : QualityEventTable) (transitions : List (Span Instant (Option CoverageState))) :
    ∃ created, (logTransitions checksum call events transitions).rows = events.rows ++ created ∧
      (∀ event ∈ created, events.nextId ≤ event.id ∧
        ∃ transition ∈ transitions, Logs checksum call event transition) ∧
      (AllLogged checksum call events transitions →
        ∀ transition ∈ transitions, ∃ event ∈ created, Logs checksum call event transition) := by
  induction transitions generalizing events with
  | nil => exact ⟨[], by simp [logTransitions]⟩
  | cons transition transitions ih =>
    obtain ⟨created, hcreated, hevents, htransitions⟩ :=
      ih (events.insert (transitionEvent checksum call transition))
    have hnext : (events.insert (transitionEvent checksum call transition)).nextId =
        events.nextId + 1 := by
      unfold QualityEventTable.insert
      split_ifs <;> rfl
    rw [hnext] at hevents
    have hlater : ∀ event ∈ created, events.nextId ≤ event.id ∧
        ∃ other ∈ transition :: transitions, Logs checksum call event other := by
      intro event hevent
      obtain ⟨hid, other, hother, hlogs⟩ := hevents event hevent
      exact ⟨(lt_add_one _).le.trans hid, other, mem_cons_of_mem _ hother, hlogs⟩
    rw [logTransitions, foldl_cons, ← logTransitions, hcreated]
    by_cases hused : (transitionEvent checksum call transition).uniqueKey ∈
        events.rows.map QualityEvent.uniqueKey
    · -- the insertion is dropped
      refine ⟨created, by rw [QualityEventTable.insert, dif_pos hused], hlater, fun hlogged => ?_⟩
      exact absurd (mem_append_right _ hused) (nodup_cons.mp hlogged).1
    · let event : QualityEvent := { transitionEvent checksum call transition with
        id := events.nextId }
      have hrows : (events.insert (transitionEvent checksum call transition)).rows =
          events.rows ++ [event] := by
        rw [QualityEventTable.insert, dif_neg hused]
      refine ⟨event :: created, by rw [hrows]; simp, ?_, fun hlogged => ?_⟩
      · exact forall_mem_cons.mpr ⟨⟨le_rfl, transition, by simp, rfl⟩, hlater⟩
      · have hlogged' : AllLogged checksum call
            (events.insert (transitionEvent checksum call transition)) transitions := by
          rw [AllLogged, hrows, map_append, ← append_assoc]
          exact (perm_append_singleton _ _).nodup_iff.mpr hlogged
        refine forall_mem_cons.mpr ⟨⟨event, by simp, rfl⟩, fun other hother => ?_⟩
        obtain ⟨logged, hmem, hlogs⟩ := htransitions hlogged' other hother
        exact ⟨logged, mem_cons_of_mem _ hmem, hlogs⟩

/-- The payloads of one call tell its transitions apart, and it from calls of another status,
reason or manifest. -/
theorem fingerprintPayload_inj {call' : CoverageCall}
    {transition' : Span Instant (Option CoverageState)}
    (h : fingerprintPayload call transition = fingerprintPayload call' transition') :
    call.status = call'.status ∧ transition.start = transition'.start ∧
      call.reasonCode = call'.reasonCode ∧ call.manifestId = call'.manifestId := by
  have htext : ∀ state state' : CoverageState, state.text = state'.text → state = state' := by
    intro state state' heq
    cases state <;> cases state' <;> first | rfl | exact absurd heq (by decide)
  simp only [fingerprintPayload, CanonicalValue.mapping.injEq, List.cons.injEq, Prod.mk.injEq,
    true_and, CanonicalValue.text.injEq, CanonicalValue.datetime.injEq, and_true] at h
  obtain ⟨-, -, hstatus, hstart, -, hreason, hmanifest⟩ := h
  refine ⟨htext _ _ hstatus, hstart, hreason, ?_⟩
  cases hid : call.manifestId <;> cases hid' : call'.manifestId <;> simp_all

/-! ## One call -/

/-- The transitions that a call logs. -/
def loggedTransitions (db : CoverageTables) (call : CoverageCall) :
    List (Span Instant (Option CoverageState)) :=
  if call.rangeStartAt < call.rangeEndAt ∧ (db.markets call.targetSpecId).isSome then
    coverageTransitions call (overlappingIntervals db.intervals call)
  else []

section

variable {checksum : CanonicalValue → String} {sha256 : String → String} {db db' : CoverageTables}
  {call : CoverageCall} {target : ℤ}

/-- What a call that returns has done to the log. -/
theorem events_of_classification (hseparate : Separate db.intervals)
    (hok : replaceCoverageWithClassification checksum sha256 db call = .ok db') :
    db'.events = logTransitions checksum call db.events (loggedTransitions db call) := by
  unfold loggedTransitions
  split_ifs with hcall
  · obtain ⟨hreplaced, -⟩ := replaceCoverage_of_classification hok
    obtain ⟨inner, hinner, -, -, -, hevents⟩ :=
      replaceCoverage_refines_assign checksum hseparate hcall.2 hcall.1
    obtain rfl := Except.ok.inj (hreplaced.symm.trans hinner)
    exact hevents
  · rw [not_and_or, not_lt, Option.not_isSome_iff_eq_none] at hcall
    obtain rfl := Except.ok.inj (hok.symm.trans (classification_unchanged _ _ hcall))
    rfl

/-- A call whose own transitions are not dropped keeps the log in agreement with the intervals of
a target. -/
theorem classification_logAgrees (hseparate : Separate db.intervals)
    (hlogged : call.targetSpecId = target →
      AllLogged checksum call db.events (loggedTransitions db call))
    (hok : replaceCoverageWithClassification checksum sha256 db call = .ok db')
    (hagrees : LogAgrees db.toCoverageDatabase target) :
    LogAgrees db'.toCoverageDatabase target := by
  by_cases hcall : call.rangeStartAt < call.rangeEndAt ∧ (db.markets call.targetSpecId).isSome
  · obtain ⟨created, hrows, hcreated, hall⟩ :=
      logTransitions_rows checksum call db.events (loggedTransitions db call)
    rw [← events_of_classification hseparate hok] at hrows
    rw [loggedTransitions, if_pos hcall] at hcreated hall hlogged
    intro x
    rw [statusAt_classification hseparate hcall.2 hcall.1 hok target x]
    by_cases hx : ∃ event ∈ created, covers target x event = true
    · -- a created event is later than all others there, and says the new status
      obtain ⟨event, hevent, hcovers⟩ := hx
      obtain ⟨-, transition, htransition, hlogs⟩ := hcreated event hevent
      obtain ⟨htarget, hcontains⟩ := hlogs.covers_iff.mp hcovers
      have hinside := ((exists_mem_transitions_iff hseparate).mp
        ⟨transition, htransition, hcontains, rfl⟩).1
      obtain ⟨last, hnew, hlast⟩ := latestEvent?_append_of_covers hrows
        (fun event hevent => (hcreated event hevent).1) hevent hcovers
      obtain ⟨-, transition', -, hlogs'⟩ := hcreated last hnew
      rw [if_pos ⟨htarget.symm, hinside⟩, hlast, Option.map_some, hlogs']
      rfl
    · have hnone : ∀ event ∈ created, covers target x event = false := fun event hevent => by
        simpa using fun h => hx ⟨event, hevent, h⟩
      rw [latestEvent?_append_of_not_covers hrows hnone, ← hagrees x]
      split_ifs with hinside
      · -- without a transition the status was the new one already
        by_contra hdifferent
        obtain ⟨htarget, hinside⟩ := hinside
        obtain ⟨transition, htransition, hcontains, -⟩ :=
          (exists_mem_transitions_iff hseparate).mpr
            ⟨hinside, htarget ▸ rfl, fun h => hdifferent (htarget ▸ h.symm)⟩
        obtain ⟨event, hevent, hlogs⟩ := hall (hlogged htarget.symm) transition htransition
        have hcovers := hlogs.covers_iff.mpr ⟨htarget.symm, hcontains⟩
        rw [hnone event hevent] at hcovers
        cases hcovers
      · rfl
  · rw [not_and_or, not_lt, Option.not_isSome_iff_eq_none] at hcall
    obtain rfl := Except.ok.inj (hok.symm.trans (classification_unchanged _ _ hcall))
    exact hagrees

end

/-! ## Sequences of calls -/

/-- The call is about the target at the instant. -/
def Sets (call : CoverageCall) (targetSpecId : ℤ) (x : Instant) : Prop :=
  call.targetSpecId = targetSpecId ∧ call.rangeStartAt ≤ x ∧ x < call.rangeEndAt

/-- A call gives an instant a status again that it had, and lost in between, by calls of the same
time, reason and manifest. -/
def ComesBack (targetSpecId : ℤ) (calls : List CoverageCall) : Prop :=
  ∃ first between again x, [first, between, again].Sublist calls ∧
    Sets first targetSpecId x ∧ Sets between targetSpecId x ∧ Sets again targetSpecId x ∧
    between.status ≠ first.status ∧ again.status = first.status ∧
    again.assessedAt = first.assessedAt ∧ again.reasonCode = first.reasonCode ∧
    again.manifestId = first.manifestId

/-- Nothing comes back at growing times. -/
theorem not_comesBack_of_increasing
    (h : calls.Pairwise fun call later => call.assessedAt < later.assessedAt) :
    ¬ ComesBack targetSpecId calls := by
  rintro ⟨first, between, again, x, hsublist, -, -, -, -, -, htime, -⟩
  have hlt := (pairwise_cons.mp (h.sublist hsublist)).1 again (by simp)
  exact hlt.ne' htime

/-- The payloads that a sequence of calls has the checksum computed of. -/
def runPayloads (checksum : CanonicalValue → String) (sha256 : String → String) :
    CoverageTables → List CoverageCall → List CanonicalValue
  | _, [] => []
  | db, call :: calls => (loggedTransitions db call).map (fingerprintPayload call) ++
    match replaceCoverageWithClassification checksum sha256 db call with
    | .ok db' => runPayloads checksum sha256 db' calls
    | .error _ => []

/-- The call of an event, and whether the instant at its start has kept the status of the call. -/
def Stems (checksum : CanonicalValue → String) (targetSpecId : ℤ) (done : List CoverageCall)
    (payloads : List CanonicalValue) (db : CoverageTables) (event : QualityEvent) : Prop :=
  ∃ before first after transition, done = before ++ first :: after ∧
    Logs checksum first event transition ∧ fingerprintPayload first transition ∈ payloads ∧
    Sets first targetSpecId transition.start ∧
    (statusAt db.intervals targetSpecId transition.start = some first.status ∨
      ∃ between ∈ after, Sets between targetSpecId transition.start ∧
        between.status ≠ first.status)

/-- The log of a target says what its intervals do, and all its events stem from the calls that
are done. -/
structure Explained (checksum : CanonicalValue → String) (targetSpecId : ℤ)
    (done : List CoverageCall) (payloads : List CanonicalValue) (db : CoverageTables) : Prop where
  separate : Separate db.intervals
  agrees : LogAgrees db.toCoverageDatabase targetSpecId
  stems : ∀ event ∈ db.events.rows, event.targetSpecId = targetSpecId →
    Stems checksum targetSpecId done payloads db event

section

variable {checksum : CanonicalValue → String} {sha256 : String → String} {db db' : CoverageTables}
  {call : CoverageCall} {targetSpecId : ℤ} {done : List CoverageCall}
  {payloads : List CanonicalValue}

/-- A logged transition starts where the call changes the status. -/
theorem mem_loggedTransitions (hseparate : Separate db.intervals)
    (h : transition ∈ loggedTransitions db call) : Sets call call.targetSpecId transition.start ∧
      statusAt db.intervals call.targetSpecId transition.start ≠ some call.status := by
  unfold loggedTransitions at h
  split_ifs at h
  · obtain ⟨hinside, hchanged⟩ := ((transitions_correct hseparate call).changed _).mp
      ⟨transition, h, le_rfl, transition.start_lt⟩
    exact ⟨⟨rfl, hinside⟩, hchanged⟩
  · cases h

/-- A status that the call does not take away stays. -/
theorem statusAt_kept (hseparate : Separate db.intervals)
    (hok : replaceCoverageWithClassification checksum sha256 db call = .ok db')
    {status : CoverageState} (h : statusAt db.intervals targetSpecId x = some status)
    (hcall : Sets call targetSpecId x → call.status = status) :
    statusAt db'.intervals targetSpecId x = some status := by
  by_cases hchanges : call.rangeStartAt < call.rangeEndAt ∧ (db.markets call.targetSpecId).isSome
  · rw [statusAt_classification hseparate hchanges.2 hchanges.1 hok]
    split_ifs with hsets
    · exact congrArg some (hcall ⟨hsets.1.symm, hsets.2⟩)
    · exact h
  · rw [not_and_or, not_lt, Option.not_isSome_iff_eq_none] at hchanges
    obtain rfl := Except.ok.inj (hok.symm.trans (classification_unchanged _ _ hchanges))
    exact h

/-- No transition of a call is dropped that brings no status back. -/
theorem Explained.allLogged (h : Explained checksum targetSpecId done payloads db)
    (hcollision : Set.InjOn checksum {payload | payload ∈
      payloads ++ (loggedTransitions db call).map (fingerprintPayload call)})
    (hback : ¬ ComesBack targetSpecId (done ++ [call])) (htarget : call.targetSpecId = targetSpecId) :
    AllLogged checksum call db.events (loggedTransitions db call) := by
  have hpaid : ∀ transition ∈ loggedTransitions db call, fingerprintPayload call transition ∈
      payloads ++ (loggedTransitions db call).map (fingerprintPayload call) :=
    fun transition hmem => mem_append_right _ (mem_map_of_mem hmem)
  have hapart : (loggedTransitions db call).Pairwise Library.Apart := by
    unfold loggedTransitions
    split_ifs
    · exact transitions_pairwise h.separate call
    · exact List.Pairwise.nil
  refine List.Nodup.append ?_ db.events.unique (disjoint_left.mpr ?_)
  · refine pairwise_map.mpr (hapart.imp_of_mem fun {a b} ha hb hdisjoint hkey => ?_)
    have hfingerprint := (Prod.mk.inj (Prod.mk.inj (Prod.mk.inj hkey).2).2).2
    obtain ⟨-, hstart, -⟩ :=
      fingerprintPayload_inj (hcollision (hpaid a ha) (hpaid b hb) hfingerprint)
    rcases hdisjoint with hle | hle
    · exact absurd (hle.trans hstart.ge) (not_le.mpr a.start_lt)
    · exact absurd (hle.trans hstart.le) (not_le.mpr b.start_lt)
  · -- an event with the key of a transition stems from a call with all that comes back
    intro key hkey hused
    obtain ⟨transition, hmem, rfl⟩ := mem_map.mp hkey
    obtain ⟨event, hevent, hsame⟩ := mem_map.mp hused
    obtain ⟨hspec, hrest⟩ := Prod.mk.inj hsame
    obtain ⟨-, hrest⟩ := Prod.mk.inj hrest
    obtain ⟨htime, hfingerprint⟩ := Prod.mk.inj hrest
    obtain ⟨before, first, after, logged, hdone, hlogs, hpaid', hsets, hstatus⟩ :=
      h.stems event hevent (hspec.trans htarget)
    have htime' : event.detectedAt = first.assessedAt := congrArg QualityEvent.detectedAt hlogs
    have hfingerprint' : event.fingerprint = checksum (fingerprintPayload first logged) :=
      congrArg QualityEvent.fingerprint hlogs
    obtain ⟨hsameStatus, hstart, hreason, hmanifest⟩ := fingerprintPayload_inj
      (hcollision (hpaid transition hmem) (mem_append_left _ hpaid')
        (hfingerprint.symm.trans hfingerprint'))
    obtain ⟨hsets', hchanged⟩ := mem_loggedTransitions h.separate hmem
    rw [htarget, hstart] at hsets' hchanged
    rcases hstatus with hstatus | ⟨between, hbetween, hsets'', hdifferent⟩
    · exact hchanged (hstatus.trans (congrArg some hsameStatus.symm))
    · refine hback ⟨first, between, call, logged.start, ?_, hsets, hsets'', hsets', hdifferent,
        hsameStatus, htime.symm.trans htime', hreason, hmanifest⟩
      rw [hdone, append_assoc]
      refine List.Sublist.trans ?_ (sublist_append_right before _)
      exact ((singleton_sublist.mpr hbetween).append (List.Sublist.refl [call])).cons_cons first

/-- One call of the sequence. -/
theorem Explained.step (h : Explained checksum targetSpecId done payloads db)
    (hcollision : Set.InjOn checksum {payload | payload ∈
      payloads ++ (loggedTransitions db call).map (fingerprintPayload call)})
    (hback : ¬ ComesBack targetSpecId (done ++ [call]))
    (hok : replaceCoverageWithClassification checksum sha256 db call = .ok db') :
    Explained checksum targetSpecId (done ++ [call])
      (payloads ++ (loggedTransitions db call).map (fingerprintPayload call)) db' where
  separate := classification_separate h.separate hok
  agrees := classification_logAgrees h.separate (h.allLogged hcollision hback) hok h.agrees
  stems event hevent htarget := by
    obtain ⟨created, hrows, hcreated, -⟩ :=
      logTransitions_rows checksum call db.events (loggedTransitions db call)
    rw [events_of_classification h.separate hok, hrows] at hevent
    rcases mem_append.mp hevent with hold | hnew
    · obtain ⟨before, first, after, logged, hdone, hlogs, hpaid, hsets, hstatus⟩ :=
        h.stems event hold htarget
      refine ⟨before, first, after ++ [call], logged, by rw [hdone]; simp, hlogs,
        mem_append_left _ hpaid, hsets, ?_⟩
      by_cases hlost : Sets call targetSpecId logged.start ∧ call.status ≠ first.status
      · exact Or.inr ⟨call, by simp, hlost⟩
      · rcases hstatus with hstatus | ⟨between, hbetween, hlater⟩
        · refine Or.inl (statusAt_kept h.separate hok hstatus fun hcall => ?_)
          exact not_not.mp fun hdifferent => hlost ⟨hcall, hdifferent⟩
        · exact Or.inr ⟨between, mem_append_left _ hbetween, hlater⟩
    · obtain ⟨-, transition, hmem, hlogs⟩ := hcreated event hnew
      have hspec : call.targetSpecId = targetSpecId :=
        (congrArg QualityEvent.targetSpecId hlogs).symm.trans htarget
      have hsets := (mem_loggedTransitions h.separate hmem).1
      have hchanges : call.rangeStartAt < call.rangeEndAt ∧
          (db.markets call.targetSpecId).isSome := by
        by_contra hchanges
        rw [loggedTransitions, if_neg hchanges] at hmem
        cases hmem
      refine ⟨done, call, [], transition, rfl, hlogs,
        mem_append_right _ (mem_map_of_mem hmem), hspec ▸ hsets, Or.inl ?_⟩
      rw [statusAt_classification h.separate hchanges.2 hchanges.1 hok, if_pos ⟨hspec.symm, hsets.2⟩]

/-- A whole sequence. -/
theorem Explained.run (h : Explained checksum targetSpecId done payloads db) (hcollision : Set.InjOn
      checksum {payload | payload ∈ payloads ++ runPayloads checksum sha256 db calls})
    (hback : ¬ ComesBack targetSpecId (done ++ calls))
    (hok : replaceAll checksum sha256 db calls = .ok db') :
    LogAgrees db'.toCoverageDatabase targetSpecId := by
  induction calls generalizing db done payloads with
  | nil =>
    obtain rfl := pure_eq_ok.mp hok
    exact h.agrees
  | cons call calls ih =>
    obtain ⟨next, hnext, hrest⟩ := bind_eq_ok.mp hok
    rw [runPayloads, hnext, ← append_assoc] at hcollision
    have hstep := h.step (hcollision.mono fun payload hmem => mem_append_left _ hmem)
      (fun ⟨first, between, again, x, hsublist, hfacts⟩ => hback ⟨first, between, again, x,
        hsublist.trans (List.Sublist.append_left (singleton_sublist.mpr (by simp)) done),
        hfacts⟩) hnext
    exact ih hstep hcollision (by rwa [append_assoc]) hrest

end

/-- A target without intervals and events agrees with its log. -/
theorem logAgrees_of_empty {db : CoverageDatabase} (hintervals : db.intervals.ofTarget target = [])
    (hevents : ∀ event ∈ db.events.rows, event.targetSpecId ≠ target) : LogAgrees db target := by
  intro x
  have hstatus : statusAt db.intervals target x = none :=
    statusAt_eq_none_iff.mpr fun row hrow => by simp [hintervals] at hrow
  have hlatest : latestEvent? db.events target x = none :=
    latestEvent?_eq_none_iff.mpr fun event hevent => by simp [covers, hevents event hevent]
  rw [hstatus, hlatest]
  rfl

/-- Tables without coverage, and with a source candle far from the ends of the calendar. -/
def emptyCoverage : CoverageTables := emptyTables ⟨738500 * dayMicroseconds, by decide⟩

/-- A checksum of the texts and numbers of a payload. -/
def entriesChecksum : CanonicalValue → String
  | .mapping entries => String.intercalate "," (entries.map fun entry =>
    match entry.2 with
    | .text value => value
    | .int value | .datetime value => toString value
    | _ => "null")
  | _ => ""

/-- Calls that make [0, 10) available and missing by turns, at the given times. -/
def alternate (times : List Instant) : List CoverageCall :=
  times.zipIdx.map fun entry =>
    callAt entry.1 0 10 (if entry.2 % 2 = 0 then .available else .missing)

end Goodmoneying.Analysis
