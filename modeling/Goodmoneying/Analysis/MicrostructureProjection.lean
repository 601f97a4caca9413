import Goodmoneying.Analysis.MicrostructureProjectionSteps

/-!
# The projection of the microstructure

An invalidation with the key of a minute takes all events that come while it waits. An event that
comes later makes a row of its own, with its own knowledge time: the inputs that are known later are
not read for it, and its materialization ranks behind the earlier one (`laterInserted_lost`). Where
no such event is known before the others (`InKnowledgeOrder`), nothing is lost
(`projection_computedFromAll`).
-/

namespace Goodmoneying.Analysis

open List Library Program

variable {sha256 : List ℕ → String} {evidence : EvidenceTables}
  {db db' : MicrostructureDatabase} {instrumentId : ℤ} {bucketStartAt knownAt : Instant}
variable {state : MicrostructureState} {startAt endAt asOf : Instant} {afterAt : Option Instant}
  {row : MicrostructureMaterialization}

/-! ## Runs -/

/-- Before the first event of a minute: its evidence may have made invalidations and
materializations. -/
structure FreshBucket (sha256 : List ℕ → String) (knownAt : Instant) (instrumentId : ℤ)
    (bucketStartAt : Instant) (db : MicrostructureDatabase) : Prop where
  no_events : bucketEvents db instrumentId bucketStartAt = []
  leases : LeasesRunning db.invalidations.rows
  waitingUnique : WaitingKeysUnique db.invalidations.rows
  inOrder : ∀ row ∈ db.invalidations.rows, ∀ other ∈ db.invalidations.rows,
    row.isOf instrumentId bucketStartAt = true → other.isOf instrumentId bucketStartAt = true →
    row.id < other.id → row.isActive = true → other.waits = true
  rows : ∀ row ∈ db.invalidations.rows, row.isOf instrumentId bucketStartAt = true →
    Within db instrumentId row.frontier ∧ row.knowledgeAt ≤ knownAt
  materializations : ∀ row ∈ db.materializations.rows,
    materializationOf instrumentId bucketStartAt row →
    Within db instrumentId (pointFrontier row.point) ∧ row.knowledgeAt ≤ knownAt ∧
    ComputedFromAll sha256 db instrumentId bucketStartAt row

theorem FreshBucket.sound (h : FreshBucket sha256 knownAt instrumentId bucketStartAt db)
    (evidence : EvidenceTables) : BucketSound evidence knownAt instrumentId bucketStartAt db where
  leases := h.leases
  waitingUnique := h.waitingUnique
  inOrder := h.inOrder
  rows_within row hrow hrowOf := (h.rows row hrow hrowOf).1
  rows_known row hrow hrowOf := Or.inl (h.rows row hrow hrowOf).2
  rows_evidence row hrow hrowOf _ := (h.rows row hrow hrowOf).2
  materializations_within row hrow hrowOf := (h.materializations row hrow hrowOf).1
  materializations_known row hrow hrowOf := Or.inl (h.materializations row hrow hrowOf).2.1
  events_known event hevent := by
    rw [h.no_events] at hevent
    cases hevent
  events_received event hevent := by
    rw [h.no_events] at hevent
    cases hevent

/-- The event that is inserted. -/
def insertedEvent : QueueEvent → Option MarketEvent
  | .snapshotInserted row => some row.event
  | .tradeInserted row => some row.event
  | .claimed _ => none
  | .worked _ => none

/-- One transaction: an event of the minute is known after its evidence, and comes in the order of
knowledge. -/
def OrderlyStep (sha256 : List ℕ → String) (evidence : EvidenceTables) (knownAt : Instant)
    (instrumentId : ℤ) (bucketStartAt : Instant) (state state' : MicrostructureState) : Prop :=
  ∃ queueEvent, MicrostructureStep sha256 evidence state queueEvent state' ∧
    ∀ event ∈ insertedEvent queueEvent, eventOf instrumentId bucketStartAt event = true →
      knownAt < event.knowledgeAt ∧ InKnowledgeOrder evidence state.db event

/-- An event that comes in order is enqueued. -/
theorem inserts_keeps {event : MarketEvent}
    (hevidence : EvidenceKnown evidence knownAt instrumentId bucketStartAt)
    (hmarket : marketOf evidence event.instrumentId = some event.marketId)
    (horderly : eventOf instrumentId bucketStartAt event = true →
      knownAt < event.knowledgeAt ∧ InKnowledgeOrder evidence db event)
    (hsound : BucketSound evidence knownAt instrumentId bucketStartAt db)
    (h : Projected sha256 evidence instrumentId bucketStartAt db)
    (hinserted : EventInserted db db' event) (now : Instant) :
    BucketSound evidence knownAt instrumentId bucketStartAt
        (enqueueMicrostructureInvalidation evidence now db' event) ∧
      Projected sha256 evidence instrumentId bucketStartAt
        (enqueueMicrostructureInvalidation evidence now db' event) := by
  have hevent : Known evidence knownAt instrumentId bucketStartAt event := fun hof =>
    ⟨(horderly hof).1, key_eq_bucketKey hevidence hof hmarket (horderly hof).1⟩
  exact ⟨hsound.enqueue hinserted hevent now,
    h.enqueue hsound hinserted hevent (fun hof => (horderly hof).2) now⟩

/-- Every orderly step keeps the minute sound and its projection complete. -/
theorem OrderlyStep.keeps {state' : MicrostructureState}
    (hevidence : EvidenceKnown evidence knownAt instrumentId bucketStartAt)
    (hdvd : minute ∣ bucketStartAt)
    (hstep : OrderlyStep sha256 evidence knownAt instrumentId bucketStartAt state state')
    (hsound : BucketSound evidence knownAt instrumentId bucketStartAt state.db)
    (h : Projected sha256 evidence instrumentId bucketStartAt state.db) :
    BucketSound evidence knownAt instrumentId bucketStartAt state'.db ∧
      Projected sha256 evidence instrumentId bucketStartAt state'.db := by
  obtain ⟨queueEvent, hstep, horderly⟩ := hstep
  cases hstep with
  | insertsSnapshot row now hmarket hid =>
    exact inserts_keeps hevidence hmarket (horderly row.event rfl) hsound h
      (eventInserted_snapshot hid) now
  | insertsTrade row now hmarket hid =>
    exact inserts_keeps hevidence hmarket (horderly row.event rfl) hsound h
      (eventInserted_trade hid) now
  | claims workerId now locked claimed db hclaim => exact claim_keeps hsound h hclaim
  | works i claimed clock failedAt raised =>
    rcases runClaimedInvalidation_cases clock failedAt claimed raised with heq | hback | hwork
    · rw [heq]
      exact ⟨hsound, h⟩
    · exact putsBack_keeps hsound h hback
    · obtain ⟨live, new, hworked⟩ := hwork.worked
      exact ⟨hsound.worked hworked (hsound.leases.materializes hwork),
        h.worked hdvd hsound hworked⟩

theorem orderlySteps_keep {start : MicrostructureState}
    (hevidence : EvidenceKnown evidence knownAt instrumentId bucketStartAt)
    (hdvd : minute ∣ bucketStartAt)
    (hstart : FreshBucket sha256 knownAt instrumentId bucketStartAt start.db) (hsteps :
      Relation.ReflTransGen (OrderlyStep sha256 evidence knownAt instrumentId bucketStartAt) start
      state) : BucketSound evidence knownAt instrumentId bucketStartAt state.db ∧
      Projected sha256 evidence instrumentId bucketStartAt state.db := by
  induction hsteps with
  | refl => exact ⟨hstart.sound evidence, Or.inl ⟨hstart.no_events,
      fun row hrow hrowOf => (hstart.materializations row hrow hrowOf).2.2⟩⟩
  | tail _ hstep ih => exact hstep.keeps hevidence hdvd ih.1 ih.2

/-! ## What the reader shows -/

theorem mem_projectedRows {ceiling : ℤ} {calculationVersion : Option String} :
    row ∈ projectedRows db instrumentId startAt endAt asOf afterAt ceiling calculationVersion ↔
      row ∈ db.materializations.rows ∧ row.instrumentId = instrumentId ∧
      startAt ≤ row.point.startedAt ∧ row.point.startedAt < endAt ∧
      afterAt.all (· < row.point.startedAt) = true ∧ row.knowledgeAt ≤ asOf ∧ row.id ≤ ceiling ∧
      calculationVersion.all (row.point.calculationVersion = ·) = true := by
  simp [projectedRows, and_assoc]

/-- The row that is shown is within the ceiling of a reading that knows the events. -/
theorem Shown.id_le_ceiling (h : Shown sha256 db instrumentId bucketStartAt row)
    (hknown : row.knowledgeAt ≤ asOf) :
    row.id ≤ microstructureProjectionCeiling db instrumentId asOf := by
  refine le_coalesceMax (mem_map.mpr ⟨row, mem_filter.mpr ⟨h.mem, ?_⟩, rfl⟩)
  simp [h.isOf.1, hknown]

/-- What is shown is of the current calculation. -/
theorem Shown.calculationVersion (h : Shown sha256 db instrumentId bucketStartAt row) :
    row.point.calculationVersion = microstructureCalculationVersion := by
  obtain ⟨frontier, bucket, hpoint, -⟩ := h.computed.point
  exact (calculateMicrostructureBucket_eq_ok hpoint).2.1

theorem Shown.known_le (h : Shown sha256 db instrumentId bucketStartAt row)
    (hsound : BucketSound evidence knownAt instrumentId bucketStartAt db)
    (hsome : bucketEvents db instrumentId bucketStartAt ≠ [])
    (hasOf : ∀ event ∈ bucketEvents db instrumentId bucketStartAt, event.knowledgeAt ≤ asOf) :
    row.knowledgeAt ≤ asOf := by
  obtain ⟨event, hevent⟩ := exists_mem_of_ne_nil _ hsome
  rcases hsound.materializations_known row h.mem h.isOf with hle | ⟨event', hevent', hle⟩
  · exact hle.trans ((hsound.events_known event hevent).le.trans (hasOf event hevent))
  · exact hle.trans (hasOf event' hevent')

/-- A row of the minute that ranks first is the one that is shown. -/
theorem Shown.eq_of_ranksFirst {other : MicrostructureMaterialization}
    {rows : List MicrostructureMaterialization} (h : Shown sha256 db instrumentId bucketStartAt row)
    (hrow : row ∈ rows) (hother : other ∈ db.materializations.rows)
    (hotherOf : materializationOf instrumentId bucketStartAt other)
    (hfirst : ranksFirst rows other = true) : other = row := by
  have hrank := all_eq_true.mp hfirst row hrow
  simp only [decide_eq_true_eq] at hrank
  have heq := le_antisymm (h.first other hother hotherOf)
    (hrank (h.isOf.2.trans hotherOf.2.symm))
  exact IdentityTable.eq_of_key hother h.mem (congrArg Prod.snd (toLex_inj.mp heq))

/-- What a reading shows of the minute was computed from all of its events, and where it has any
something is shown. -/
def ProjectsAll (sha256 : List ℕ → String) (db : MicrostructureDatabase) (instrumentId : ℤ)
    (bucketStartAt asOf : Instant) : Prop :=
  (∀ startAt endAt afterAt limit calculationVersion,
    calculationVersion.all (microstructureCalculationVersion = ·) = true →
    ∀ statistic ∈ readMicrostructureStatistics db instrumentId startAt endAt asOf afterAt none limit
      calculationVersion, statistic.point.startedAt = bucketStartAt →
    ∃ row ∈ db.materializations.rows, row.id = statistic.materializationId ∧
      row.point = statistic.point ∧
      ComputedFromAll sha256 db instrumentId bucketStartAt row) ∧
  (bucketEvents db instrumentId bucketStartAt ≠ [] → ∀ startAt endAt, startAt ≤ bucketStartAt →
    bucketStartAt < endAt → ∃ limit, ∃ statistic ∈ readMicrostructureStatistics db instrumentId
      startAt endAt asOf none none limit none, statistic.point.startedAt = bucketStartAt)

theorem mem_readMicrostructureStatistics {limit : ℕ} {calculationVersion : Option String}
    {statistic : StoredMicrostructureStatistic} (h : statistic ∈ readMicrostructureStatistics db
      instrumentId startAt endAt asOf afterAt none limit calculationVersion) :
    ∃ row, row ∈ projectedRows db instrumentId startAt endAt asOf afterAt
        (microstructureProjectionCeiling db instrumentId asOf) calculationVersion ∧
      ranksFirst (projectedRows db instrumentId startAt endAt asOf afterAt
        (microstructureProjectionCeiling db instrumentId asOf) calculationVersion) row = true ∧
      statistic = ⟨row.id, row.point⟩ := by
  obtain ⟨row, hrow, rfl⟩ := mem_map.mp h
  obtain ⟨hmem, hfirst⟩ := mem_filter.mp (mem_sortedBy.mp (mem_of_mem_take hrow))
  exact ⟨row, hmem, hfirst, rfl⟩

theorem Shown.mem_projectedRows {calculationVersion : Option String}
    (h : Shown sha256 db instrumentId bucketStartAt row) (hknown : row.knowledgeAt ≤ asOf)
    (hstart : startAt ≤ bucketStartAt) (hend : bucketStartAt < endAt)
    (hafter : afterAt.all (· < bucketStartAt) = true)
    (hversion : calculationVersion.all (microstructureCalculationVersion = ·) = true) :
    row ∈ projectedRows db instrumentId startAt endAt asOf afterAt
      (microstructureProjectionCeiling db instrumentId asOf) calculationVersion := by
  rw [Analysis.mem_projectedRows, h.isOf.2, h.calculationVersion]
  exact ⟨h.mem, h.isOf.1, hstart, hend, hafter, hknown, h.id_le_ceiling hknown, hversion⟩

theorem Shown.ranksFirst {ceiling : ℤ} {calculationVersion : Option String}
    (h : Shown sha256 db instrumentId bucketStartAt row) :
    Program.ranksFirst (projectedRows db instrumentId startAt endAt asOf afterAt ceiling
      calculationVersion) row = true := by
  refine all_eq_true.mpr fun other hother => decide_eq_true fun hstarted => ?_
  obtain ⟨hmem, hinstrument, -⟩ := Analysis.mem_projectedRows.mp hother
  exact h.first other hmem ⟨hinstrument, hstarted.trans h.isOf.2⟩

/-- Where all invalidations of a minute have succeeded, no event of it is lost.
SOURCE: 20260717001200_p2_microstructure.sql:311-422; microstructure_store.py:70-136, 139-327,
462-546 -/
theorem projection_computedFromAll (sha256 : List ℕ → String) (evidence : EvidenceTables)
    (instrumentId : ℤ) (bucketStartAt knownAt asOf : Instant) (start state : MicrostructureState)
    (hdvd : minute ∣ bucketStartAt)
    (hevidence : EvidenceKnown evidence knownAt instrumentId bucketStartAt)
    (hstart : FreshBucket sha256 knownAt instrumentId bucketStartAt start.db)
    (hsteps : Relation.ReflTransGen
      (OrderlyStep sha256 evidence knownAt instrumentId bucketStartAt) start state)
    (hsucceeded : ∀ row ∈ state.db.invalidations.rows,
      row.isOf instrumentId bucketStartAt = true → row.status = .succeeded)
    (hasOf : ∀ event ∈ bucketEvents state.db instrumentId bucketStartAt,
      event.knowledgeAt ≤ asOf) : ProjectsAll sha256 state.db instrumentId bucketStartAt asOf := by
  obtain ⟨hsound, hprojected⟩ := orderlySteps_keep hevidence hdvd hstart hsteps
  rcases hprojected with ⟨hnone, hall⟩ | ⟨hsome, newest, hnewest, hmaterialized⟩
  · refine ⟨?_, fun hsome => absurd hnone hsome⟩
    intro startAt endAt afterAt limit calculationVersion _ statistic hstatistic hstarted
    obtain ⟨row, hrow, -, rfl⟩ := mem_readMicrostructureStatistics hstatistic
    obtain ⟨hmem, hinstrument, -⟩ := mem_projectedRows.mp hrow
    exact ⟨row, hmem, rfl, rfl, hall row hmem ⟨hinstrument, hstarted⟩⟩
  · obtain ⟨shown, hshown⟩ := hmaterialized.afterwards
      (hsucceeded newest hnewest.mem (isOf_of_key hnewest.key))
    have hknown := hshown.known_le hsound hsome hasOf
    constructor
    · intro startAt endAt afterAt limit calculationVersion hversion statistic hstatistic hstarted
      obtain ⟨row, hrow, hfirst, rfl⟩ := mem_readMicrostructureStatistics hstatistic
      obtain ⟨hmem, hinstrument, hstart, hend, hafter, -⟩ := mem_projectedRows.mp hrow
      have hstarted : row.point.startedAt = bucketStartAt := hstarted
      rw [hstarted] at hstart hend hafter
      have heq := hshown.eq_of_ranksFirst
        (hshown.mem_projectedRows hknown hstart hend hafter hversion) hmem
        ⟨hinstrument, hstarted⟩ hfirst
      exact ⟨row, hmem, rfl, rfl, heq ▸ hshown.computed⟩
    · intro _ startAt endAt hstart hend
      have hmem := hshown.mem_projectedRows hknown hstart hend
        (show (none : Option Instant).all _ = true from rfl)
        (show (none : Option String).all _ = true from rfl)
      refine ⟨state.db.materializations.rows.length, ⟨shown.id, shown.point⟩,
        mem_map.mpr ⟨shown, ?_, rfl⟩, hshown.isOf.2⟩
      rw [take_of_length_le]
      · exact mem_sortedBy.mpr (mem_filter.mpr ⟨hmem, hshown.ranksFirst⟩)
      · rw [(sortedBy_perm _ _).length_eq]
        exact (length_filter_le _ _).trans (length_filter_le _ _)

/-! ## A trade that comes late -/

/-- The state after the work on the first claimed row. -/
def afterWork (state : MicrostructureState) (now : Instant) : MicrostructureState :=
  match state.workers with
  | [] => state
  | claimed :: workers =>
    ⟨runClaimedInvalidation (fun _ => "") quietEvidence ⟨now, now, now⟩ now state.db claimed none,
      workers⟩

theorem afterWork_step {claimed : ClaimedInvalidation} (h : state.workers = [claimed])
    (now : Instant) : MicrostructureStep (fun _ => "") quietEvidence state (.worked claimed)
      (afterWork state now) := by
  obtain ⟨db, workers⟩ := state
  obtain rfl : workers = [claimed] := h
  exact .works ⟨db, [claimed]⟩ 0 claimed ⟨now, now, now⟩ now none rfl

/-- The first trade is worked on. -/
def firstWorked : MicrostructureState :=
  afterWork firstClaimed (210 * 1000000)

/-- The second trade is claimed. -/
def secondClaimed : MicrostructureState :=
  afterClaim (afterTrade firstWorked (lateTrade 2 90)) (300 * 1000000)

/-- The second trade is worked on. -/
def secondWorked : MicrostructureState :=
  afterWork secondClaimed (310 * 1000000)

theorem quietEvidence_known : EvidenceKnown quietEvidence (minute + 1) 1 0 := by
  constructor <;> simp [quietEvidence, quietConnection]

theorem emptyState_fresh : FreshBucket (fun _ => "") (minute + 1) 1 0 emptyState.db := by
  constructor <;> simp [emptyState, bucketEvents, allEvents, LeasesRunning, WaitingKeysUnique,
    IdentityTable.empty]

theorem firstClaimed_workers : ∃ claimed, firstClaimed.workers = [claimed] :=
  length_eq_one_iff.mp (by decide +kernel)

theorem secondClaimed_workers : ∃ claimed, secondClaimed.workers = [claimed] :=
  length_eq_one_iff.mp (by decide +kernel)

theorem firstWorked_steps : Relation.ReflTransGen
    (OrderlyStep (fun _ => "") quietEvidence (minute + 1) 1 0) emptyState firstWorked := by
  obtain ⟨hinserts, hclaims⟩ := @firstClaimed_steps fun _ => ""
  obtain ⟨claimed, hclaimed⟩ := firstClaimed_workers
  have hknown : ∀ event ∈ insertedEvent (.tradeInserted (lateTrade 1 100)),
      eventOf 1 0 event = true → minute + 1 < event.knowledgeAt ∧
        InKnowledgeOrder quietEvidence emptyState.db event := by
    intro event hevent _
    obtain rfl := Option.some.inj hevent
    exact ⟨by decide, Or.inr fun other hother => (by cases hother)⟩
  exact ((Relation.ReflTransGen.single ⟨_, hinserts, hknown⟩).tail
    ⟨_, hclaims, fun event hevent => (by cases hevent)⟩).tail
    ⟨_, afterWork_step hclaimed _, fun event hevent => (by cases hevent)⟩

theorem projection_computedFromAll_firstWorked :
    ProjectsAll (fun _ => "") firstWorked.db 1 0 (1000 * 1000000) :=
  projection_computedFromAll (fun _ => "") quietEvidence 1 0 (minute + 1) (1000 * 1000000)
    emptyState firstWorked (dvd_zero _) quietEvidence_known emptyState_fresh firstWorked_steps
    (by decide +kernel) (by decide +kernel)

/-- The second trade is known before the first one, whose materialization has been made: its own
ranks behind it. -/
theorem laterInserted_lost : ¬ ∀ (sha256 : List ℕ → String) (evidence : EvidenceTables)
    (instrumentId : ℤ) (bucketStartAt knownAt asOf : Instant) (start state : MicrostructureState),
    minute ∣ bucketStartAt → EvidenceKnown evidence knownAt instrumentId bucketStartAt →
    FreshBucket sha256 knownAt instrumentId bucketStartAt start.db →
    Relation.ReflTransGen (fun state state' => ∃ queueEvent,
      MicrostructureStep sha256 evidence state queueEvent state' ∧
      ∀ event ∈ insertedEvent queueEvent, eventOf instrumentId bucketStartAt event = true →
        knownAt < event.knowledgeAt) start state →
    (∀ row ∈ state.db.invalidations.rows, row.isOf instrumentId bucketStartAt = true →
      row.status = .succeeded) →
    (∀ event ∈ bucketEvents state.db instrumentId bucketStartAt, event.knowledgeAt ≤ asOf) →
    ProjectsAll sha256 state.db instrumentId bucketStartAt asOf := by
  intro hprojects
  obtain ⟨claimed, hclaimed⟩ := secondClaimed_workers
  have hfirst : Relation.ReflTransGen (fun state state' => ∃ queueEvent,
      MicrostructureStep (fun _ => "") quietEvidence state queueEvent state' ∧
      ∀ event ∈ insertedEvent queueEvent, eventOf 1 0 event = true →
        minute + 1 < event.knowledgeAt) emptyState firstWorked := by
    refine firstWorked_steps.lift id fun state state' hstep => ?_
    obtain ⟨queueEvent, hstep, horderly⟩ := hstep
    exact ⟨queueEvent, hstep, fun event hevent hof => (horderly event hevent hof).1⟩
  have hknown : ∀ event ∈ insertedEvent (.tradeInserted (lateTrade 2 90)),
      eventOf 1 0 event = true → minute + 1 < event.knowledgeAt := by
    intro event hevent _
    obtain rfl := Option.some.inj hevent
    decide
  have hinserts : MicrostructureStep (fun _ => "") quietEvidence firstWorked
      (.tradeInserted (lateTrade 2 90)) (afterTrade firstWorked (lateTrade 2 90)) :=
    afterTrade_step rfl (by decide +kernel) (by decide +kernel)
  have hsteps := ((hfirst.tail ⟨_, hinserts, hknown⟩).tail
    ⟨_, afterClaim_step _ (300 * 1000000), fun event hevent => (by cases hevent)⟩).tail
    ⟨_, afterWork_step hclaimed (310 * 1000000), fun event hevent => (by cases hevent)⟩
  have hlost := (hprojects (fun _ => "") quietEvidence 1 0 (minute + 1) (1000 * 1000000)
    emptyState secondWorked (dvd_zero _) quietEvidence_known emptyState_fresh hsteps
    (by decide +kernel) (by decide +kernel)).1 0 minute none 1 none rfl
  have hread : ∃ statistic ∈ readMicrostructureStatistics secondWorked.db 1 0 minute
      (1000 * 1000000) none none 1 none,
      statistic.point.startedAt = 0 ∧ statistic.materializationId = 1 := by
    decide +kernel
  obtain ⟨statistic, hstatistic, hstarted, hid⟩ := hread
  obtain ⟨row, hrow, hrowId, -, hcomputed⟩ := hlost statistic hstatistic hstarted
  have hmisses : ∀ row ∈ secondWorked.db.materializations.rows, row.id = 1 →
      row.trades ≠ (bucketTrades secondWorked.db 1 0).map fun item =>
        (item.tradeEventId, item.sourceReceiptId) := by
    decide +kernel
  exact hmisses row hrow (hrowId.trans hid) hcomputed.trades

end Goodmoneying.Analysis
