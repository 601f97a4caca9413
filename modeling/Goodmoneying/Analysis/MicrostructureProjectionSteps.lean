import Goodmoneying.Analysis.MicrostructureInputs

/-!
# What every transaction keeps of a minute

The newest invalidation with the key of a minute takes in all of its events, and once it has
succeeded its materialization ranks first: one lemma for each kind of transaction.
-/

namespace Goodmoneying.Analysis

open List Library Program

variable {sha256 : List ℕ → String} {evidence : EvidenceTables}
  {db db' : MicrostructureDatabase} {instrumentId : ℤ} {bucketStartAt knownAt : Instant}
  {now : Instant} {event : MarketEvent} {taker : MicrostructureInvalidation}
variable {row newest : MicrostructureInvalidation}
variable {waiting : MicrostructureInvalidation} {frontier : MicrostructureFrontier}
  {other : MarketEvent} {time time' : Instant} {id id' : ℤ}

/-! ## What holds in every state -/

/-- What holds of the invalidations and materializations of a minute. -/
structure BucketSound (evidence : EvidenceTables) (knownAt : Instant) (instrumentId : ℤ)
    (bucketStartAt : Instant) (db : MicrostructureDatabase) : Prop where
  leases : LeasesRunning db.invalidations.rows
  waitingUnique : WaitingKeysUnique db.invalidations.rows
  inOrder : ∀ row ∈ db.invalidations.rows, ∀ other ∈ db.invalidations.rows,
    row.isOf instrumentId bucketStartAt = true → other.isOf instrumentId bucketStartAt = true →
    row.id < other.id → row.isActive = true → other.waits = true
  rows_within : ∀ row ∈ db.invalidations.rows, row.isOf instrumentId bucketStartAt = true →
    Within db instrumentId row.frontier
  rows_known : ∀ row ∈ db.invalidations.rows, row.isOf instrumentId bucketStartAt = true →
    KnownWithin knownAt (bucketEvents db instrumentId bucketStartAt) row.knowledgeAt
  rows_evidence : ∀ row ∈ db.invalidations.rows, row.isOf instrumentId bucketStartAt = true →
    row.key ≠ bucketKey evidence instrumentId bucketStartAt → row.knowledgeAt ≤ knownAt
  materializations_within : ∀ row ∈ db.materializations.rows,
    materializationOf instrumentId bucketStartAt row →
    Within db instrumentId (pointFrontier row.point)
  materializations_known : ∀ row ∈ db.materializations.rows,
    materializationOf instrumentId bucketStartAt row →
    KnownWithin knownAt (bucketEvents db instrumentId bucketStartAt) row.knowledgeAt
  events_known : ∀ event ∈ bucketEvents db instrumentId bucketStartAt, knownAt < event.knowledgeAt
  events_received : ∀ event ∈ bucketEvents db instrumentId bucketStartAt,
    ⟨event.sourceReceiptId, event.instrumentId⟩ ∈ db.receipts

/-- The newest invalidation with the key of a minute takes in all of its events. -/
structure Newest (evidence : EvidenceTables) (instrumentId : ℤ) (bucketStartAt : Instant)
    (db : MicrostructureDatabase) (newest : MicrostructureInvalidation) : Prop where
  mem : newest ∈ db.invalidations.rows
  key : newest.key = bucketKey evidence instrumentId bucketStartAt
  covers : ∀ event ∈ bucketEvents db instrumentId bucketStartAt, CoversEvent newest event
  behind : ∀ row ∈ db.invalidations.rows, row.isOf instrumentId bucketStartAt = true →
    row.id ≠ newest.id → Behind row.frontier newest.frontier
  last : ∀ row ∈ db.invalidations.rows,
    row.key = bucketKey evidence instrumentId bucketStartAt → row.id ≤ newest.id

/-- The materialization is the one of the minute that is shown, and has all events. -/
structure Shown (sha256 : List ℕ → String) (db : MicrostructureDatabase) (instrumentId : ℤ)
    (bucketStartAt : Instant) (row : MicrostructureMaterialization) : Prop where
  mem : row ∈ db.materializations.rows
  isOf : materializationOf instrumentId bucketStartAt row
  computed : ComputedFromAll sha256 db instrumentId bucketStartAt row
  known : ∀ event ∈ bucketEvents db instrumentId bucketStartAt,
    event.knowledgeAt ≤ row.knowledgeAt
  first : ∀ other ∈ db.materializations.rows, materializationOf instrumentId bucketStartAt other →
    toLex (other.knowledgeAt, other.id) ≤ toLex (row.knowledgeAt, row.id)

/-- Before the newest invalidation has succeeded, the materializations are behind it; afterwards
its own is shown. -/
structure Materialized (sha256 : List ℕ → String) (db : MicrostructureDatabase)
    (instrumentId : ℤ) (bucketStartAt : Instant) (newest : MicrostructureInvalidation) :
    Prop where
  before : newest.status ≠ .succeeded → ∀ row ∈ db.materializations.rows,
    materializationOf instrumentId bucketStartAt row →
    Behind (pointFrontier row.point) newest.frontier
  afterwards : newest.status = .succeeded →
    ∃ row, Shown sha256 db instrumentId bucketStartAt row

/-- Either the minute has no events, or its newest invalidation takes all in. -/
def Projected (sha256 : List ℕ → String) (evidence : EvidenceTables) (instrumentId : ℤ)
    (bucketStartAt : Instant) (db : MicrostructureDatabase) : Prop :=
  (bucketEvents db instrumentId bucketStartAt = [] ∧ ∀ row ∈ db.materializations.rows,
    materializationOf instrumentId bucketStartAt row →
    ComputedFromAll sha256 db instrumentId bucketStartAt row) ∨
  (bucketEvents db instrumentId bucketStartAt ≠ [] ∧ ∃ newest,
    Newest evidence instrumentId bucketStartAt db newest ∧
    Materialized sha256 db instrumentId bucketStartAt newest)

/-- No row with the key of a waiting one comes after it. -/
theorem BucketSound.id_le_of_waits (h : BucketSound evidence knownAt instrumentId bucketStartAt db)
    (hwaiting : waiting ∈ db.invalidations.rows) (hwaits : waiting.waits = true)
    (hkey : waiting.key = bucketKey evidence instrumentId bucketStartAt)
    (hrow : row ∈ db.invalidations.rows)
    (hrowKey : row.key = bucketKey evidence instrumentId bucketStartAt) : row.id ≤ waiting.id := by
  by_contra hlt
  have hrowWaits : row.waits = true := h.inOrder waiting hwaiting row hrow (isOf_of_key hkey)
    (isOf_of_key hrowKey) (not_le.mp hlt) (isActive_of_waits hwaits)
  have heq := eq_of_waitingKeys h.waitingUnique hwaiting hrow hwaits hrowWaits
    (hkey.trans hrowKey.symm)
  rw [heq] at hlt
  exact hlt (le_refl _)

/-- A row that waits with the key of the minute is the newest one. -/
theorem Newest.eq_of_waits (hnewest : Newest evidence instrumentId bucketStartAt db newest)
    (h : BucketSound evidence knownAt instrumentId bucketStartAt db)
    (hwaiting : waiting ∈ db.invalidations.rows) (hwaits : waiting.waits = true)
    (hkey : waiting.key = bucketKey evidence instrumentId bucketStartAt) : waiting = newest :=
  IdentityTable.eq_of_key hwaiting hnewest.mem (le_antisymm (hnewest.last waiting hwaiting hkey)
    (h.id_le_of_waits hwaiting hwaits hkey hnewest.mem hnewest.key))

/-! ## An event is inserted -/

/-- A materialization stays complete while no event of the minute comes. -/
theorem ComputedFromAll.congr {row : MicrostructureMaterialization}
    (h : ComputedFromAll sha256 db instrumentId bucketStartAt row)
    (horderbooks : bucketOrderbooks db' instrumentId bucketStartAt =
      bucketOrderbooks db instrumentId bucketStartAt)
    (htrades : bucketTrades db' instrumentId bucketStartAt =
      bucketTrades db instrumentId bucketStartAt) :
    ComputedFromAll sha256 db' instrumentId bucketStartAt row := by
  constructor
  · rw [horderbooks]
    exact h.orderbooks
  · rw [htrades]
    exact h.trades
  · rw [horderbooks, htrades]
    exact h.point

theorem Within.mono (h : Within db instrumentId frontier) (hinserted : EventInserted db db' event) :
    Within db' instrumentId frontier :=
  ⟨h.1.trans (hinserted.snapshot_le instrumentId), h.2.trans (hinserted.trade_le instrumentId)⟩

theorem EventInserted.mem_bucketEvents_of_mem (h : EventInserted db db' event)
    (hother : other ∈ bucketEvents db instrumentId bucketStartAt) :
    other ∈ bucketEvents db' instrumentId bucketStartAt := by
  obtain ⟨hmem, hof⟩ := mem_bucketEvents.mp hother
  exact mem_bucketEvents.mpr ⟨(h.mem_events other).mpr (Or.inl hmem), hof⟩

theorem EventInserted.mem_bucketEvents_cases (h : EventInserted db db' event)
    (hother : other ∈ bucketEvents db' instrumentId bucketStartAt) :
    other ∈ bucketEvents db instrumentId bucketStartAt ∨
      (other = event ∧ eventOf instrumentId bucketStartAt event = true) := by
  obtain ⟨hmem, hof⟩ := mem_bucketEvents.mp hother
  rcases (h.mem_events other).mp hmem with hmem | rfl
  · exact Or.inl (mem_bucketEvents.mpr ⟨hmem, hof⟩)
  · exact Or.inr ⟨rfl, hof⟩

theorem EventInserted.event_mem (h : EventInserted db db' event)
    (hof : eventOf instrumentId bucketStartAt event = true) :
    event ∈ bucketEvents db' instrumentId bucketStartAt :=
  mem_bucketEvents.mpr ⟨(h.mem_events event).mpr (Or.inr rfl), hof⟩

theorem isOf_iff_eventOf (hkey : row.key = event.key evidence) :
    row.isOf instrumentId bucketStartAt = true ↔
      eventOf instrumentId bucketStartAt event = true := by
  rw [isOf_iff, eventOf_iff, hkey]
  rfl

/-- What the bucket has of an event: nothing, or a known event with the key of the bucket. -/
def Known (evidence : EvidenceTables) (knownAt : Instant) (instrumentId : ℤ)
    (bucketStartAt : Instant) (event : MarketEvent) : Prop :=
  eventOf instrumentId bucketStartAt event = true → knownAt < event.knowledgeAt ∧
    event.key evidence = bucketKey evidence instrumentId bucketStartAt

/-- An event that is inserted keeps the minute sound. -/
theorem BucketSound.enqueue (h : BucketSound evidence knownAt instrumentId bucketStartAt db)
    (hinserted : EventInserted db db' event)
    (hevent : Known evidence knownAt instrumentId bucketStartAt event) (now : Instant) :
    BucketSound evidence knownAt instrumentId bucketStartAt
      (enqueueMicrostructureInvalidation evidence now db' event) := by
  have hunique : WaitingKeysUnique db'.invalidations.rows := by
    rw [hinserted.invalidations]
    exact h.waitingUnique
  obtain ⟨taker, htaken⟩ := exists_takenBy hunique evidence now event
  have hold : ∀ row ∈ (enqueueMicrostructureInvalidation evidence now db' event).invalidations.rows,
      row = taker ∨ (row ∈ db.invalidations.rows ∧ row.id ≠ taker.id) := by
    intro row hrow
    rw [← hinserted.invalidations]
    exact (htaken.mem_rows row).mp hrow
  have htaker := htaken.taker
  rw [hinserted.invalidations] at htaker
  have htakerOf : taker.isOf instrumentId bucketStartAt = true →
      eventOf instrumentId bucketStartAt event = true := (isOf_iff_eventOf htaken.key).mp
  constructor
  case leases =>
    refine LeasesRunning.enqueue ?_ now event
    rw [hinserted.invalidations]
    exact h.leases
  case waitingUnique => exact waitingKeysUnique_enqueue hunique evidence now event
  case inOrder =>
    intro row hrow other hother hrowOf hotherOf hlt hactive
    rcases hold other hother with rfl | ⟨hother, -⟩
    · exact htaken.waits
    rcases hold row hrow with rfl | ⟨hrow, -⟩
    · rcases htaker with ⟨old, hmem, hwaits, hkey, rfl⟩ | ⟨-, hlast, -⟩
      · exact h.inOrder old hmem other hother hrowOf hotherOf hlt (isActive_of_waits hwaits)
      · exact absurd (hlast other hother) (not_lt.mpr hlt.le)
    · exact h.inOrder row hrow other hother hrowOf hotherOf hlt hactive
  case rows_within =>
    intro row hrow hrowOf
    rcases hold row hrow with rfl | ⟨hrow, -⟩
    · have hwithin : Within db' event.instrumentId row.frontier := by
        refine htaken.within fun old hmem hkey => ?_
        rw [hinserted.invalidations] at hmem
        have hinstrument := (eventOf_iff.mp (htakerOf hrowOf)).1
        rw [hinstrument]
        exact (h.rows_within old hmem ((isOf_iff_eventOf hkey).mpr (htakerOf hrowOf))).mono
          hinserted
      rwa [(eventOf_iff.mp (htakerOf hrowOf)).1] at hwithin
    · have hwithin : Within db' instrumentId row.frontier :=
        (h.rows_within row hrow hrowOf).mono hinserted
      exact hwithin
  case rows_known =>
    intro row hrow hrowOf
    rcases hold row hrow with rfl | ⟨hrow, -⟩
    · have hmem := hinserted.event_mem (htakerOf hrowOf)
      rcases htaker with ⟨old, hmemOld, -, -, rfl⟩ | ⟨-, -, id, rfl⟩
      · rcases le_total old.knowledgeAt event.knowledgeAt with hle | hle
        · exact Or.inr ⟨event, hmem, max_le hle (le_refl _)⟩
        · have heq : (old.merge db' now event).knowledgeAt = old.knowledgeAt := max_eq_left hle
          rw [heq]
          exact (h.rows_known old hmemOld hrowOf).mono fun other hother =>
            hinserted.mem_bucketEvents_of_mem hother
      · exact Or.inr ⟨event, hmem, le_refl _⟩
    · exact (h.rows_known row hrow hrowOf).mono fun other hother =>
        hinserted.mem_bucketEvents_of_mem hother
  case rows_evidence =>
    intro row hrow hrowOf hkey
    rcases hold row hrow with rfl | ⟨hrow, -⟩
    · exact absurd (htaken.key.trans (hevent (htakerOf hrowOf)).2) hkey
    · exact h.rows_evidence row hrow hrowOf hkey
  case materializations_within =>
    intro row hrow hrowOf
    have hrow : row ∈ db.materializations.rows := by
      rw [← hinserted.materializations]
      exact hrow
    have hwithin : Within db' instrumentId (pointFrontier row.point) :=
      (h.materializations_within row hrow hrowOf).mono hinserted
    exact hwithin
  case materializations_known =>
    intro row hrow hrowOf
    have hrow : row ∈ db.materializations.rows := by
      rw [← hinserted.materializations]
      exact hrow
    exact (h.materializations_known row hrow hrowOf).mono fun other hother =>
      hinserted.mem_bucketEvents_of_mem hother
  case events_known =>
    intro other hother
    rcases hinserted.mem_bucketEvents_cases hother with hother | ⟨rfl, hof⟩
    · exact h.events_known other hother
    · exact (hevent hof).1
  case events_received =>
    intro other hother
    rcases hinserted.mem_bucketEvents_cases hother with hother | ⟨rfl, hof⟩
    · exact hinserted.receipts _ (h.events_received other hother)
    · exact hinserted.receipt

/-- A frontier from before an event is behind one that covers it. -/
theorem Within.behind {other : MicrostructureFrontier} (h : Within db event.instrumentId frontier)
    (hinserted : EventInserted db db' event) (hother : snapshotThrough db' event.instrumentId ≤
      other.orderbookSnapshotThroughId ∧ tradeThrough db' event.instrumentId ≤
      other.tradeEventThroughId) : Behind frontier other := by
  rcases hinserted.ahead with hlt | hlt
  · exact Or.inl (h.1.trans_lt (hlt.trans_le hother.1))
  · exact Or.inr (h.2.trans_lt (hlt.trans_le hother.2))

/-- An event that is inserted finds a row that waits with its key, or is not known before the
others of its minute. -/
def InKnowledgeOrder (evidence : EvidenceTables) (db : MicrostructureDatabase)
    (event : MarketEvent) : Prop :=
  (∃ row ∈ db.invalidations.rows, row.waits = true ∧ row.key = event.key evidence) ∨
  ∀ other ∈ bucketEvents db event.instrumentId (minuteBucket event.occurredAt),
    other.knowledgeAt ≤ event.knowledgeAt

/-- The row that takes an event of the minute is the newest one. -/
theorem Projected.newest_taker (h : Projected sha256 evidence instrumentId bucketStartAt db)
    (hsound : BucketSound evidence knownAt instrumentId bucketStartAt db)
    (hinserted : EventInserted db db' event) (hof : eventOf instrumentId bucketStartAt event = true)
    (hkey : event.key evidence = bucketKey evidence instrumentId bucketStartAt)
    (hreceived : ∀ other ∈ bucketEvents db' instrumentId bucketStartAt,
      ⟨other.sourceReceiptId, other.instrumentId⟩ ∈ db'.receipts)
    (horder : InKnowledgeOrder evidence db event) (htaken : TakenBy evidence now db' event taker) :
    Newest evidence instrumentId bucketStartAt
      (enqueueMicrostructureInvalidation evidence now db' event) taker := by
  have hinvalidations := hinserted.invalidations
  constructor
  case mem => exact htaken.mem
  case key => exact htaken.key.trans hkey
  case covers =>
    refine htaken.covers ((hinserted.mem_events event).mpr (Or.inr rfl)) hreceived hof ?_ ?_
    · intro row hrow hwaits hrowKey other hother
      rw [hinvalidations] at hrow
      rcases hinserted.mem_bucketEvents_cases hother with hother | ⟨rfl, -⟩
      · rcases h with ⟨hnone, -⟩ | ⟨-, newest, hnewest, -⟩
        · rw [hnone] at hother
          cases hother
        · rw [hnewest.eq_of_waits hsound hrow hwaits (hrowKey.trans hkey)]
          exact Or.inr (hnewest.covers other hother)
      · exact Or.inl rfl
    · intro hnone other hother
      rw [hinvalidations] at hnone
      rcases hinserted.mem_bucketEvents_cases hother with hother | ⟨rfl, -⟩
      · rcases horder with ⟨row, hrow, hwaits, hrowKey⟩ | hknown
        · exact absurd hrowKey (hnone row hrow hwaits)
        · refine hknown other ?_
          rwa [(eventOf_iff.mp hof).1, (eventOf_iff.mp hof).2]
      · exact le_refl _
  case behind =>
    intro row hrow hrowOf hne
    rcases (htaken.mem_rows row).mp hrow with rfl | ⟨hrow, -⟩
    · exact absurd rfl hne
    · rw [hinvalidations] at hrow
      have hwithin := hsound.rows_within row hrow hrowOf
      rw [← (eventOf_iff.mp hof).1] at hwithin
      exact hwithin.behind hinserted htaken.through_le
  case last =>
    intro row hrow hrowKey
    rcases (htaken.mem_rows row).mp hrow with rfl | ⟨hrow, -⟩
    · exact le_refl _
    rcases htaken.taker with ⟨old, hold, hwaits, hold', rfl⟩ | ⟨-, hlast, -⟩
    · rw [hinvalidations] at hrow hold
      have hle : row.id ≤ old.id :=
        hsound.id_le_of_waits hold hwaits (hold'.trans hkey) hrow hrowKey
      exact hle
    · exact (hlast row hrow).le

/-- An event in the order of knowledge keeps the projection complete or about to be. -/
theorem Projected.enqueue (h : Projected sha256 evidence instrumentId bucketStartAt db)
    (hsound : BucketSound evidence knownAt instrumentId bucketStartAt db)
    (hinserted : EventInserted db db' event)
    (hevent : Known evidence knownAt instrumentId bucketStartAt event)
    (horder : eventOf instrumentId bucketStartAt event = true → InKnowledgeOrder evidence db event)
    (now : Instant) : Projected sha256 evidence instrumentId bucketStartAt
      (enqueueMicrostructureInvalidation evidence now db' event) := by
  have hinvalidations := hinserted.invalidations
  have hmaterializations := hinserted.materializations
  have hunique : WaitingKeysUnique db'.invalidations.rows := by
    rw [hinvalidations]
    exact hsound.waitingUnique
  obtain ⟨taker, htaken⟩ := exists_takenBy hunique evidence now event
  by_cases hof : eventOf instrumentId bucketStartAt event = true
  · have hkey := (hevent hof).2
    refine Or.inr ⟨ne_nil_of_mem (hinserted.event_mem hof), taker, ?_, ?_, ?_⟩
    · exact h.newest_taker hsound hinserted hof hkey
        (hsound.enqueue hinserted hevent now).events_received (horder hof) htaken
    · intro _ row hrow hrowOf
      have hrow : row ∈ db.materializations.rows := by
        rw [← hmaterializations]
        exact hrow
      have hwithin := hsound.materializations_within row hrow hrowOf
      rw [← (eventOf_iff.mp hof).1] at hwithin
      exact hwithin.behind hinserted htaken.through_le
    · intro hsucceeded
      rcases waits_iff.mp htaken.waits with hstatus | hstatus <;> rw [hstatus] at hsucceeded <;>
        cases hsucceeded
  · have hnot : eventOf instrumentId bucketStartAt event = false := by simpa using hof
    have hevents : ∀ other, other ∈ bucketEvents db' instrumentId bucketStartAt ↔
        other ∈ bucketEvents db instrumentId bucketStartAt := by
      intro other
      constructor
      · intro hother
        rcases hinserted.mem_bucketEvents_cases hother with hother | ⟨-, hof'⟩
        · exact hother
        · exact absurd hof' hof
      · exact hinserted.mem_bucketEvents_of_mem
    have hcomputed : ∀ row, ComputedFromAll sha256 db instrumentId bucketStartAt row →
        ComputedFromAll sha256 (enqueueMicrostructureInvalidation evidence now db' event)
          instrumentId bucketStartAt row :=
      fun row hrow => hrow.congr (hinserted.orderbooks instrumentId bucketStartAt hnot)
        (hinserted.trades instrumentId bucketStartAt hnot)
    have hmaterialized : ∀ row, row ∈ (enqueueMicrostructureInvalidation evidence now db'
        event).materializations.rows ↔ row ∈ db.materializations.rows := by
      intro row
      rw [← hmaterializations]
      rfl
    rcases h with ⟨hnone, hall⟩ | ⟨hsome, newest, hnewest, hbefore, hafter⟩
    · refine Or.inl ⟨eq_nil_iff_forall_not_mem.mpr fun other hother => ?_,
        fun row hrow hrowOf => hcomputed row (hall row ((hmaterialized row).mp hrow) hrowOf)⟩
      have hother := (hevents other).mp hother
      rw [hnone] at hother
      cases hother
    · have htakerOf : taker.isOf instrumentId bucketStartAt ≠ true :=
        fun htakerOf => hof ((isOf_iff_eventOf htaken.key).mp htakerOf)
      have hrows : ∀ row ∈ (enqueueMicrostructureInvalidation evidence now db'
          event).invalidations.rows, row.isOf instrumentId bucketStartAt = true →
          row ∈ db.invalidations.rows := by
        intro row hrow hrowOf
        rcases (htaken.mem_rows row).mp hrow with rfl | ⟨hrow, -⟩
        · exact absurd hrowOf htakerOf
        · rwa [hinvalidations] at hrow
      have hne : newest.id ≠ taker.id := by
        intro hid
        rcases htaken.taker with ⟨old, hold, -, hold', rfl⟩ | ⟨-, hlast, -⟩
        · rw [hinvalidations] at hold
          have heq := IdentityTable.eq_of_key hnewest.mem hold hid
          rw [← heq] at hold'
          exact hof ((isOf_iff_eventOf hold').mp (isOf_of_key hnewest.key))
        · rw [hinvalidations] at hlast
          exact absurd hid (hlast newest hnewest.mem).ne
      refine Or.inr ⟨?_, newest, ⟨?_, hnewest.key, ?_, ?_, ?_⟩, ⟨?_, ?_⟩⟩
      · obtain ⟨other, hother⟩ := exists_mem_of_ne_nil _ hsome
        exact ne_nil_of_mem ((hevents other).mpr hother)
      · refine (htaken.mem_rows newest).mpr (Or.inr ⟨?_, hne⟩)
        rw [hinvalidations]
        exact hnewest.mem
      · exact fun other hother => hnewest.covers other ((hevents other).mp hother)
      · exact fun row hrow hrowOf => hnewest.behind row (hrows row hrow hrowOf) hrowOf
      · exact fun row hrow hrowKey =>
          hnewest.last row (hrows row hrow (isOf_of_key hrowKey)) hrowKey
      · exact fun hstatus row hrow => hbefore hstatus row ((hmaterialized row).mp hrow)
      · intro hstatus
        obtain ⟨row, hrow⟩ := hafter hstatus
        exact ⟨row, (hmaterialized row).mpr hrow.mem, hrow.isOf, hcomputed row hrow.computed,
          fun other hother => hrow.known other ((hevents other).mp hother),
          fun other hother => hrow.first other ((hmaterialized other).mp hother)⟩

/-! ## Claims and updates that put a row back -/

/-- What an update of the queue leaves of a row. -/
structure SameEvents (row row' : MicrostructureInvalidation) : Prop where
  id : row'.id = row.id
  key : row'.key = row.key
  frontier : row'.frontier = row.frontier
  knowledgeAt : row'.knowledgeAt = row.knowledgeAt

theorem SameEvents.isOf {row' : MicrostructureInvalidation} (h : SameEvents row row') :
    row'.isOf instrumentId bucketStartAt = row.isOf instrumentId bucketStartAt := by
  unfold MicrostructureInvalidation.isOf
  rw [h.key]

variable {change : MicrostructureInvalidation → MicrostructureInvalidation}

/-- The rows keep their order where none is claimed before an active one. -/
theorem BucketSound.inOrder_map (h : BucketSound evidence knownAt instrumentId bucketStartAt db)
    (hchange : ∀ row ∈ db.invalidations.rows, SameEvents row (change row))
    (hactive : ∀ row ∈ db.invalidations.rows, (change row).isActive = true → row.isActive = true)
    (hwaits : ∀ other ∈ db.invalidations.rows, other.isOf instrumentId bucketStartAt = true →
      other.waits = true → (change other).waits = true ∨ ∀ row ∈ db.invalidations.rows,
        row.isOf instrumentId bucketStartAt = true → row.id < other.id → row.isActive = false) :
    ∀ row ∈ db.invalidations.rows.map change, ∀ other ∈ db.invalidations.rows.map change,
      row.isOf instrumentId bucketStartAt = true → other.isOf instrumentId bucketStartAt = true →
      row.id < other.id → row.isActive = true → other.waits = true := by
  intro row hrow other hother hrowOf hotherOf hlt hrowActive
  obtain ⟨old, hold, rfl⟩ := mem_map.mp hrow
  obtain ⟨old', hold', rfl⟩ := mem_map.mp hother
  rw [(hchange old hold).isOf] at hrowOf
  rw [(hchange old' hold').isOf] at hotherOf
  rw [(hchange old hold).id, (hchange old' hold').id] at hlt
  have holdActive := hactive old hold hrowActive
  have holdWaits := h.inOrder old hold old' hold' hrowOf hotherOf hlt holdActive
  rcases hwaits old' hold' hotherOf holdWaits with hwaits | hnone
  · exact hwaits
  · rw [hnone old hold hrowOf hlt] at holdActive
    cases holdActive

theorem bucketEvents_congr (hsnapshots : db'.orderbookSnapshots = db.orderbookSnapshots)
    (htrades : db'.tradeEvents = db.tradeEvents) (instrumentId : ℤ) (bucketStartAt : Instant) :
    bucketEvents db' instrumentId bucketStartAt = bucketEvents db instrumentId bucketStartAt := by
  unfold bucketEvents allEvents
  rw [hsnapshots, htrades]

/-- The rows that an update of the queue leaves are as sound as before. -/
theorem BucketSound.of_map (h : BucketSound evidence knownAt instrumentId bucketStartAt db)
    (hrows : db'.invalidations.rows = db.invalidations.rows.map change)
    (hmaterializations : ∀ row ∈ db'.materializations.rows,
      materializationOf instrumentId bucketStartAt row → row ∈ db.materializations.rows ∨
      (Within db instrumentId (pointFrontier row.point) ∧
        KnownWithin knownAt (bucketEvents db instrumentId bucketStartAt) row.knowledgeAt))
    (hsnapshots : db'.orderbookSnapshots = db.orderbookSnapshots)
    (htrades : db'.tradeEvents = db.tradeEvents) (hreceipts : db'.receipts = db.receipts)
    (hchange : ∀ row ∈ db.invalidations.rows, SameEvents row (change row))
    (hleases : LeasesRunning db'.invalidations.rows)
    (hunique : WaitingKeysUnique db'.invalidations.rows)
    (hactive : ∀ row ∈ db.invalidations.rows, (change row).isActive = true → row.isActive = true)
    (hwaits : ∀ other ∈ db.invalidations.rows, other.isOf instrumentId bucketStartAt = true →
      other.waits = true → (change other).waits = true ∨ ∀ row ∈ db.invalidations.rows,
        row.isOf instrumentId bucketStartAt = true → row.id < other.id → row.isActive = false) :
    BucketSound evidence knownAt instrumentId bucketStartAt db' := by
  have hevents := bucketEvents_congr hsnapshots htrades instrumentId bucketStartAt
  have hwithin : ∀ frontier, Within db instrumentId frontier →
      Within db' instrumentId frontier := by
    intro frontier hfrontier
    unfold Within snapshotThrough tradeThrough
    rw [hsnapshots, htrades]
    exact hfrontier
  constructor
  case leases => exact hleases
  case waitingUnique => exact hunique
  case inOrder =>
    rw [hrows]
    exact h.inOrder_map hchange hactive hwaits
  case rows_within =>
    intro row hrow hrowOf
    rw [hrows] at hrow
    obtain ⟨old, hold, rfl⟩ := mem_map.mp hrow
    rw [(hchange old hold).isOf] at hrowOf
    rw [(hchange old hold).frontier]
    exact hwithin _ (h.rows_within old hold hrowOf)
  case rows_known =>
    intro row hrow hrowOf
    rw [hrows] at hrow
    obtain ⟨old, hold, rfl⟩ := mem_map.mp hrow
    rw [(hchange old hold).isOf] at hrowOf
    rw [(hchange old hold).knowledgeAt, hevents]
    exact h.rows_known old hold hrowOf
  case rows_evidence =>
    intro row hrow hrowOf hkey
    rw [hrows] at hrow
    obtain ⟨old, hold, rfl⟩ := mem_map.mp hrow
    rw [(hchange old hold).isOf] at hrowOf
    rw [(hchange old hold).key] at hkey
    rw [(hchange old hold).knowledgeAt]
    exact h.rows_evidence old hold hrowOf hkey
  case materializations_within =>
    intro row hrow hrowOf
    rcases hmaterializations row hrow hrowOf with hrow | ⟨hnew, -⟩
    · exact hwithin _ (h.materializations_within row hrow hrowOf)
    · exact hwithin _ hnew
  case materializations_known =>
    intro row hrow hrowOf
    rw [hevents]
    rcases hmaterializations row hrow hrowOf with hrow | ⟨-, hnew⟩
    · exact h.materializations_known row hrow hrowOf
    · exact hnew
  case events_known =>
    rw [hevents]
    exact h.events_known
  case events_received =>
    rw [hevents, hreceipts]
    exact h.events_received

/-- A change that keeps events and keys keeps the newest row the newest. -/
theorem Newest.of_map (h : Newest evidence instrumentId bucketStartAt db newest)
    (hrows : db'.invalidations.rows = db.invalidations.rows.map change)
    (hsnapshots : db'.orderbookSnapshots = db.orderbookSnapshots)
    (htrades : db'.tradeEvents = db.tradeEvents)
    (hchange : ∀ row ∈ db.invalidations.rows, SameEvents row (change row)) :
    Newest evidence instrumentId bucketStartAt db' (change newest) := by
  have hnewest := hchange newest h.mem
  have hevents := bucketEvents_congr hsnapshots htrades instrumentId bucketStartAt
  constructor
  case mem =>
    rw [hrows]
    exact mem_map_of_mem h.mem
  case key => exact hnewest.key.trans h.key
  case covers =>
    intro event hevent
    rw [hevents] at hevent
    obtain ⟨hsnapshot, htrade, hreceipt, hknown⟩ := h.covers event hevent
    constructor
    · rwa [hnewest.frontier]
    · rwa [hnewest.frontier]
    · rwa [hnewest.frontier]
    · rwa [hnewest.knowledgeAt]
  case behind =>
    intro row hrow hrowOf hne
    rw [hrows] at hrow
    obtain ⟨old, hold, rfl⟩ := mem_map.mp hrow
    rw [(hchange old hold).isOf] at hrowOf
    rw [(hchange old hold).id, hnewest.id] at hne
    rw [(hchange old hold).frontier, hnewest.frontier]
    exact h.behind old hold hrowOf hne
  case last =>
    intro row hrow hkey
    rw [hrows] at hrow
    obtain ⟨old, hold, rfl⟩ := mem_map.mp hrow
    rw [(hchange old hold).key] at hkey
    rw [(hchange old hold).id, hnewest.id]
    exact h.last old hold hkey

/-- An update of the queue that neither finishes nor reopens a row keeps what is projected. -/
theorem Projected.of_map (h : Projected sha256 evidence instrumentId bucketStartAt db)
    (hrows : db'.invalidations.rows = db.invalidations.rows.map change)
    (hmaterializations : db'.materializations = db.materializations)
    (hsnapshots : db'.orderbookSnapshots = db.orderbookSnapshots)
    (htrades : db'.tradeEvents = db.tradeEvents)
    (hchange : ∀ row ∈ db.invalidations.rows, SameEvents row (change row))
    (hstatus : ∀ row ∈ db.invalidations.rows,
      (change row).status = .succeeded ↔ row.status = .succeeded) :
    Projected sha256 evidence instrumentId bucketStartAt db' := by
  have hevents := bucketEvents_congr hsnapshots htrades instrumentId bucketStartAt
  have hcomputed : ∀ row, ComputedFromAll sha256 db instrumentId bucketStartAt row →
      ComputedFromAll sha256 db' instrumentId bucketStartAt row := by
    refine fun row hrow => hrow.congr ?_ ?_
    · unfold bucketOrderbooks
      rw [hsnapshots]
    · unfold bucketTrades
      rw [htrades]
  rcases h with ⟨hnone, hall⟩ | ⟨hsome, newest, hnewest, hbefore, hafter⟩
  · refine Or.inl ⟨hevents.trans hnone, ?_⟩
    rw [hmaterializations]
    exact fun row hrow hrowOf => hcomputed row (hall row hrow hrowOf)
  · refine Or.inr ⟨by rwa [hevents], change newest,
      hnewest.of_map hrows hsnapshots htrades hchange, ⟨?_, ?_⟩⟩
    · rw [hmaterializations, (hchange newest hnewest.mem).frontier]
      exact fun hne => hbefore (mt (hstatus newest hnewest.mem).mpr hne)
    · intro hsucceeded
      obtain ⟨row, hrow⟩ := hafter ((hstatus newest hnewest.mem).mp hsucceeded)
      refine ⟨row, ?_, hrow.isOf, hcomputed row hrow.computed, ?_, ?_⟩
      · rw [hmaterializations]
        exact hrow.mem
      · rw [hevents]
        exact hrow.known
      · rw [hmaterializations]
        exact hrow.first

theorem claimable_preceding {rows : List MicrostructureInvalidation}
    (h : row.claimable now rows = true) :
    ∀ before ∈ rows, before.isOf row.key.instrumentId row.key.bucketStartAt = true →
      before.id < row.id → before.isActive = false := by
  simp only [MicrostructureInvalidation.claimable, Bool.and_eq_true, Bool.not_eq_true'] at h
  intro before hbefore hof hlt
  have hnone := any_eq_false.mp h.1.2 before hbefore
  simpa [hof, hlt] using hnone

/-- A claim neither finishes nor reopens a row, and claims none before an active one. -/
theorem claim_keeps {locked : ℤ → Bool} {workerId : String} {claimed : Option ClaimedInvalidation}
    (hsound : BucketSound evidence knownAt instrumentId bucketStartAt db)
    (h : Projected sha256 evidence instrumentId bucketStartAt db)
    (hclaim : claimMicrostructureInvalidation now locked db workerId = (claimed, db')) :
    BucketSound evidence knownAt instrumentId bucketStartAt db' ∧
      Projected sha256 evidence instrumentId bucketStartAt db' := by
  have hleases := hsound.leases.claim hclaim
  rcases claimMicrostructureInvalidation_cases hclaim with
    ⟨-, rfl⟩ | ⟨row, hrow, hclaimable, -, rfl⟩
  · exact ⟨hsound, h⟩
  have heq : ∀ other ∈ db.invalidations.rows, other.id = row.id → other = row :=
    fun other hother hid => IdentityTable.eq_of_key hother hrow hid
  have hrows := IdentityTable.update_rows db.invalidations (fun other => other.id = row.id)
    (fun row => row.claim now workerId) (MicrostructureInvalidation.claim_id now workerId)
  have hchange : ∀ other ∈ db.invalidations.rows, SameEvents other
      (if decide (other.id = row.id) = true then other.claim now workerId else other) := by
    intro other _
    split_ifs <;> exact ⟨rfl, rfl, rfl, rfl⟩
  refine ⟨hsound.of_map hrows (fun _ hrow _ => Or.inl hrow) rfl rfl rfl hchange hleases ?_ ?_ ?_,
    h.of_map hrows rfl rfl rfl hchange ?_⟩
  · refine hsound.waitingUnique.sublist
      (map_filter_map_sublist (fun other hother => (hchange other hother).key) ?_)
    intro other _ hwaits
    split_ifs at hwaits
    · cases hwaits
    · exact hwaits
  · intro other hother hactive
    split_ifs at hactive with hid
    · rw [heq other hother (of_decide_eq_true hid)]
      exact claimable_isActive hclaimable
    · exact hactive
  · intro other hother hotherOf hwaits
    split_ifs with hid
    · right
      obtain rfl := heq other hother (of_decide_eq_true hid)
      obtain ⟨hinstrument, hbucket⟩ := isOf_iff.mp hotherOf
      rw [← hinstrument, ← hbucket]
      exact claimable_preceding hclaimable
    · exact Or.inl hwaits
  · intro other hother
    split_ifs with hid
    · rw [heq other hother (of_decide_eq_true hid)]
      refine ⟨fun hsucceeded => (by cases hsucceeded), fun hsucceeded => ?_⟩
      have hactive := claimable_isActive hclaimable
      simp [MicrostructureInvalidation.isActive, MicrostructureInvalidation.waits, hsucceeded]
        at hactive
    · exact Iff.rfl

/-- An update that puts a row back does not finish it. -/
theorem putsBack_keeps {claimed : ClaimedInvalidation}
    (hsound : BucketSound evidence knownAt instrumentId bucketStartAt db)
    (h : Projected sha256 evidence instrumentId bucketStartAt db)
    (hback : PutsBack claimed db db') :
    BucketSound evidence knownAt instrumentId bucketStartAt db' ∧
      Projected sha256 evidence instrumentId bucketStartAt db' := by
  have hleases := hsound.leases.putsBack hback
  obtain ⟨change, hid, hback, rfl, hunique⟩ := hback
  have hrows := IdentityTable.update_rows db.invalidations (fun row => row.leasedTo claimed)
    change hid
  have hchange : ∀ row ∈ db.invalidations.rows, SameEvents row
      (if row.leasedTo claimed = true then change row else row) := by
    intro row _
    split_ifs
    · exact ⟨(hback row).id, (hback row).key, (hback row).frontier, (hback row).knowledgeAt⟩
    · exact ⟨rfl, rfl, rfl, rfl⟩
  refine ⟨hsound.of_map hrows (fun _ hrow _ => Or.inl hrow) rfl rfl rfl hchange hleases hunique
      ?_ ?_,
    h.of_map hrows rfl rfl rfl hchange ?_⟩
  · intro row hrow hactive
    split_ifs at hactive with hleased
    · exact isActive_iff.mpr (Or.inr (hsound.leases.running hrow hleased))
    · exact hactive
  · intro row hrow _ hwaits
    split_ifs with hleased
    · exact absurd (hsound.leases.running hrow hleased) (not_running_of_waits hwaits)
    · exact Or.inl hwaits
  · intro row hrow
    split_ifs with hleased
    · rw [hsound.leases.running hrow hleased]
      rcases (hback row).status with hstatus | hstatus | hstatus <;> rw [hstatus] <;> simp
    · exact Iff.rfl

/-! ## The work that materializes -/

theorem not_behind_self (frontier : MicrostructureFrontier) : ¬ Behind frontier frontier := by
  unfold Behind
  simp

theorem toLex_le_of_lt (h : time < time') : toLex (time, id) ≤ toLex (time', id') :=
  Prod.Lex.toLex_le_toLex.mpr (Or.inl h)

theorem toLex_le_of_le (h : time ≤ time') (hid : id ≤ id') :
    toLex (time, id) ≤ toLex (time', id') := by
  rcases h.lt_or_eq with hlt | rfl
  · exact toLex_le_of_lt hlt
  · exact Prod.Lex.toLex_le_toLex.mpr (Or.inr ⟨rfl, hid⟩)

section Worked

variable {live : MicrostructureInvalidation} {new : MicrostructureMaterialization}

/-- A materialization of the minute comes from an invalidation of the minute. -/
theorem Worked.live_isOf (hworked : Worked sha256 db db' live new)
    (hof : materializationOf instrumentId bucketStartAt new) :
    live.key.instrumentId = instrumentId ∧ live.key.bucketStartAt = bucketStartAt :=
  ⟨hworked.isOf.1.symm.trans hof.1, hworked.isOf.2.symm.trans hof.2⟩

theorem Worked.eq_live (hworked : Worked sha256 db db' live new)
    (hrow : row ∈ db.invalidations.rows) (hid : row.id = live.id) : row = live :=
  IdentityTable.eq_of_key hrow hworked.mem hid

theorem sameEvents_succeed (completedAt : Instant) (row : MicrostructureInvalidation) :
    SameEvents row (if row.id = live.id then row.succeed completedAt else row) := by
  split_ifs <;> exact ⟨rfl, rfl, rfl, rfl⟩

/-- A materialization keeps the minute sound. -/
theorem BucketSound.worked (hsound : BucketSound evidence knownAt instrumentId bucketStartAt db)
    (hworked : Worked sha256 db db' live new) (hleases : LeasesRunning db'.invalidations.rows) :
    BucketSound evidence knownAt instrumentId bucketStartAt db' := by
  obtain ⟨completedAt, hrows⟩ := hworked.rows
  refine hsound.of_map hrows ?_ hworked.snapshots hworked.trades hworked.receipts
    (fun row _ => sameEvents_succeed completedAt row) hleases ?_ ?_ ?_
  · intro row hrow hrowOf
    have hcases : row ∈ db.materializations.rows ∨ row = new := by
      rcases hworked.materializations with hmem | ⟨hmem, -⟩
      · exact (hmem row).mp hrow
      · exact Or.inl ((hmem row).mp hrow)
    rcases hcases with hold | rfl
    · exact Or.inl hold
    · right
      have hlive := isOf_iff.mpr (hworked.live_isOf hrowOf)
      rw [hworked.frontier]
      exact ⟨hsound.rows_within live hworked.mem hlive,
        (hsound.rows_known live hworked.mem hlive).of_le hworked.known⟩
  · unfold WaitingKeysUnique
    rw [hrows]
    refine hsound.waitingUnique.sublist (map_filter_map_sublist
      (fun row _ => (sameEvents_succeed completedAt row).key) fun row _ hwaits => ?_)
    split_ifs at hwaits
    · cases hwaits
    · exact hwaits
  · intro row _ hactive
    split_ifs at hactive
    · cases hactive
    · exact hactive
  · intro row hrow _ hwaits
    left
    split_ifs with hid
    · rw [hworked.eq_live hrow hid] at hwaits
      exact absurd hworked.running (not_running_of_waits hwaits)
    · exact hwaits

/-- A row of the key of the minute that is worked on while the newest one has succeeded would
have kept it from being claimed. -/
theorem Newest.live_key_ne (h : Newest evidence instrumentId bucketStartAt db newest)
    (hsound : BucketSound evidence knownAt instrumentId bucketStartAt db)
    (hworked : Worked sha256 db db' live new) (hne : live.id ≠ newest.id)
    (hsucceeded : newest.status = .succeeded) :
    live.key ≠ bucketKey evidence instrumentId bucketStartAt := by
  intro hkey
  have hwaits : newest.waits = true :=
    hsound.inOrder live hworked.mem newest h.mem (isOf_of_key hkey) (isOf_of_key h.key)
      (lt_of_le_of_ne (h.last live hworked.mem hkey) hne)
      (isActive_iff.mpr (Or.inr hworked.running))
  rcases waits_iff.mp hwaits with hstatus | hstatus <;> rw [hstatus] at hsucceeded <;>
    cases hsucceeded

theorem Worked.computedFromAll_congr (hworked : Worked sha256 db db' live new)
    {row : MicrostructureMaterialization}
    (h : ComputedFromAll sha256 db instrumentId bucketStartAt row) :
    ComputedFromAll sha256 db' instrumentId bucketStartAt row := by
  refine h.congr ?_ ?_
  · unfold bucketOrderbooks
    rw [hworked.snapshots]
  · unfold bucketTrades
    rw [hworked.trades]

/-- The materialization of the newest invalidation is shown. -/
theorem Worked.shown (hworked : Worked sha256 db db' live new) (hdvd : minute ∣ bucketStartAt)
    (hsound : BucketSound evidence knownAt instrumentId bucketStartAt db)
    (hsome : bucketEvents db instrumentId bucketStartAt ≠ [])
    (hnewest : Newest evidence instrumentId bucketStartAt db live)
    (hmaterialized : Materialized sha256 db instrumentId bucketStartAt live) :
    Shown sha256 db' instrumentId bucketStartAt new := by
  have hevents := bucketEvents_congr hworked.snapshots hworked.trades instrumentId bucketStartAt
  obtain ⟨hinstrument, hbucket⟩ := isOf_iff.mp (isOf_of_key hnewest.key)
  have hcomputed := hworked.computed
  have hisOf := hworked.isOf
  have hmaterializations := hworked.materializations
  rw [hinstrument, hbucket] at hcomputed hisOf hmaterializations
  obtain ⟨hall, hknown⟩ := hcomputed hdvd hnewest.covers hsound.events_received
  have hmem : ∀ row, row ∈ db'.materializations.rows ↔ row ∈ db.materializations.rows ∨
      row = new := by
    rcases hmaterializations with hmem | ⟨-, row, hrow, hrowOf, hfrontier⟩
    · exact hmem
    · have hbehind := hmaterialized.before (by rw [hworked.running]; decide) row hrow hrowOf
      rw [hfrontier] at hbehind
      exact absurd hbehind (not_behind_self _)
  refine ⟨(hmem new).mpr (Or.inr rfl), hisOf, hworked.computedFromAll_congr hall, ?_, ?_⟩
  · rw [hevents]
    exact hknown
  · intro other hother hotherOf
    rcases (hmem other).mp hother with hold | rfl
    · refine toLex_le_of_le ?_ (hworked.id other hold).le
      rcases hsound.materializations_known other hold hotherOf with hle | ⟨event, hevent, hle⟩
      · obtain ⟨event, hevent⟩ := exists_mem_of_ne_nil _ hsome
        exact hle.trans ((hsound.events_known event hevent).le.trans (hknown event hevent))
      · exact hle.trans (hknown event hevent)
    · exact le_refl _

/-- A materialization of the newest row makes the projection complete. -/
theorem Projected.worked (h : Projected sha256 evidence instrumentId bucketStartAt db)
    (hdvd : minute ∣ bucketStartAt)
    (hsound : BucketSound evidence knownAt instrumentId bucketStartAt db)
    (hworked : Worked sha256 db db' live new) :
    Projected sha256 evidence instrumentId bucketStartAt db' := by
  have hevents := bucketEvents_congr hworked.snapshots hworked.trades instrumentId bucketStartAt
  have hcases : ∀ row ∈ db'.materializations.rows, row ∈ db.materializations.rows ∨ row = new := by
    intro row hrow
    rcases hworked.materializations with hmem | ⟨hmem, -⟩
    · exact (hmem row).mp hrow
    · exact Or.inl ((hmem row).mp hrow)
  have hkeeps : ∀ row ∈ db.materializations.rows, row ∈ db'.materializations.rows := by
    intro row hrow
    rcases hworked.materializations with hmem | ⟨hmem, -⟩
    · exact (hmem row).mpr (Or.inl hrow)
    · exact (hmem row).mpr hrow
  rcases h with ⟨hnone, hall⟩ | ⟨hsome, newest, hnewest, hmaterialized⟩
  · refine Or.inl ⟨hevents.trans hnone, fun row hrow hrowOf => hworked.computedFromAll_congr ?_⟩
    rcases hcases row hrow with hold | rfl
    · exact hall row hold hrowOf
    · obtain ⟨rfl, rfl⟩ := hworked.live_isOf hrowOf
      refine (hworked.computed hdvd ?_ ?_).1
      · intro event hevent
        rw [hnone] at hevent
        cases hevent
      · exact hsound.events_received
  · obtain ⟨completedAt, hrows⟩ := hworked.rows
    refine Or.inr ⟨by rwa [hevents], _, hnewest.of_map hrows hworked.snapshots hworked.trades
      fun row _ => sameEvents_succeed completedAt row, ?_⟩
    by_cases hid : newest.id = live.id
    · obtain rfl := hworked.eq_live hnewest.mem hid
      rw [if_pos rfl]
      exact ⟨fun hne => absurd rfl hne,
        fun _ => ⟨new, hworked.shown hdvd hsound hsome hnewest hmaterialized⟩⟩
    · rw [if_neg hid]
      refine ⟨fun hne row hrow hrowOf => ?_, fun hsucceeded => ?_⟩
      · rcases hcases row hrow with hold | rfl
        · exact hmaterialized.before hne row hold hrowOf
        · rw [hworked.frontier]
          exact hnewest.behind live hworked.mem (isOf_iff.mpr (hworked.live_isOf hrowOf))
            (Ne.symm hid)
      · obtain ⟨row, hrow⟩ := hmaterialized.afterwards hsucceeded
        refine ⟨row, hkeeps row hrow.mem, hrow.isOf, hworked.computedFromAll_congr hrow.computed,
          ?_, fun other hother hotherOf => ?_⟩
        · rw [hevents]
          exact hrow.known
        · rcases hcases other hother with hold | rfl
          · exact hrow.first other hold hotherOf
          · obtain ⟨event, hevent⟩ := exists_mem_of_ne_nil _ hsome
            have hevidence : live.knowledgeAt ≤ knownAt :=
              hsound.rows_evidence live hworked.mem (isOf_iff.mpr (hworked.live_isOf hotherOf))
                (hnewest.live_key_ne hsound hworked (Ne.symm hid) hsucceeded)
            exact toLex_le_of_lt ((hworked.known.trans hevidence).trans_lt
              ((hsound.events_known event hevent).trans_le (hrow.known event hevent)))

end Worked

end Goodmoneying.Analysis
