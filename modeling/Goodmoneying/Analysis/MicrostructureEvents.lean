import Goodmoneying.Analysis.MicrostructureQueueSafety
import Goodmoneying.Analysis.ReconnectionGaps

/-!
# The events of a minute

The trades and order books of a minute, the key that their invalidations have where its evidence
is known before them, and what the insertion of one does to the tables and to the queue.
-/

namespace Goodmoneying.Analysis

open List Library Program

variable {row : MicrostructureInvalidation}

/-! ## The events of a minute -/

def allEvents (db : MicrostructureDatabase) : List MarketEvent :=
  db.orderbookSnapshots.map OrderbookSnapshotRow.event ++ db.tradeEvents.map TradeEventRow.event

/-- Whether the event is of the minute. -/
def eventOf (instrumentId : ℤ) (bucketStartAt : Instant) (event : MarketEvent) : Bool :=
  event.instrumentId = instrumentId && minuteBucket event.occurredAt = bucketStartAt

def bucketEvents (db : MicrostructureDatabase) (instrumentId : ℤ) (bucketStartAt : Instant) :
    List MarketEvent :=
  (allEvents db).filter (eventOf instrumentId bucketStartAt)

/-- All order books of the minute, as inputs. -/
def bucketOrderbooks (db : MicrostructureDatabase) (instrumentId : ℤ) (bucketStartAt : Instant) :
    List MicrostructureOrderbookInput :=
  (sortedBy (fun row => toLex (row.occurredAt, row.id)) (db.orderbookSnapshots.filter fun row =>
    eventOf instrumentId bucketStartAt row.event)).map OrderbookSnapshotRow.input

/-- All trades of the minute, as inputs. -/
def bucketTrades (db : MicrostructureDatabase) (instrumentId : ℤ) (bucketStartAt : Instant) :
    List MicrostructureTradeInput :=
  (sortedBy (fun row => toLex (row.occurredAt, row.id)) (db.tradeEvents.filter fun row =>
    eventOf instrumentId bucketStartAt row.event)).map TradeEventRow.input

/-- The materialization was computed from all events of the minute. -/
structure ComputedFromAll (sha256 : List ℕ → String) (db : MicrostructureDatabase)
    (instrumentId : ℤ) (bucketStartAt : Instant) (row : MicrostructureMaterialization) :
    Prop where
  orderbooks : row.orderbooks = (bucketOrderbooks db instrumentId bucketStartAt).map fun item =>
    (item.snapshotId, item.sourceReceiptId)
  trades : row.trades = (bucketTrades db instrumentId bucketStartAt).map fun item =>
    (item.tradeEventId, item.sourceReceiptId)
  point : ∃ frontier evidence,
    calculateMicrostructureBucket sha256 bucketStartAt (bucketStartAt + minute)
      (bucketOrderbooks db instrumentId bucketStartAt)
      (bucketTrades db instrumentId bucketStartAt) frontier evidence = .ok row.point ∧
    selectedOrderbooks bucketStartAt (bucketStartAt + minute) frontier
      (bucketOrderbooks db instrumentId bucketStartAt) =
      bucketOrderbooks db instrumentId bucketStartAt ∧
    selectedTrades bucketStartAt (bucketStartAt + minute) frontier
      (bucketTrades db instrumentId bucketStartAt) = bucketTrades db instrumentId bucketStartAt

/-- Whether the materialization is of the minute. -/
def materializationOf (instrumentId : ℤ) (bucketStartAt : Instant)
    (row : MicrostructureMaterialization) : Prop :=
  row.instrumentId = instrumentId ∧ row.point.startedAt = bucketStartAt

/-! ## Evidence that is known before the events -/

/-- All evidence of the minute is known at a time. -/
structure EvidenceKnown (evidence : EvidenceTables) (knownAt : Instant) (instrumentId : ℤ)
    (bucketStartAt : Instant) : Prop where
  candles : ∀ row ∈ evidence.candleRevisions, row.instrumentId = instrumentId →
    row.candleStartAt = bucketStartAt → row.knowledgeAt ≤ knownAt
  qualities : ∀ row ∈ evidence.qualityEvents, marketOf evidence instrumentId = some row.marketId →
    row.rangeStartAt ≤ bucketStartAt → bucketStartAt < row.rangeEndAt → row.detectedAt ≤ knownAt
  intervals : ∀ row ∈ evidence.realtime.intervals, row.detectedAt ≤ knownAt

/-- The key of every event of the minute. -/
def bucketKey (evidence : EvidenceTables) (instrumentId : ℤ) (bucketStartAt : Instant) :
    InvalidationKey where
  instrumentId := instrumentId
  bucketStartAt := bucketStartAt
  sourceCandleRevisionId :=
    (maxBy (fun row : MinuteCandleRevision =>
      toLex (row.knowledgeAt, toLex (row.revisionNumber, row.id)))
      (evidence.candleRevisions.filter fun row =>
        row.instrumentId = instrumentId && row.candleStartAt = bucketStartAt)).map
      MinuteCandleRevision.id
  qualityEventThroughId :=
    ((evidence.qualityEvents.filter fun row =>
      marketOf evidence instrumentId = some row.marketId && row.rangeStartAt ≤ bucketStartAt &&
      bucketStartAt < row.rangeEndAt).map CandleQualityEvent.id).max?
  connectionQualityThroughId := coalesceMax (evidence.realtime.intervals.map fun row => row.id)

variable {sha256 : List ℕ → String} {evidence : EvidenceTables}
  {db db' : MicrostructureDatabase} {instrumentId : ℤ} {bucketStartAt knownAt : Instant}

theorem eventOf_iff {event : MarketEvent} : eventOf instrumentId bucketStartAt event = true ↔
    event.instrumentId = instrumentId ∧ minuteBucket event.occurredAt = bucketStartAt := by
  simp [eventOf]

/-- A later event of the minute has the key of the minute. -/
theorem key_eq_bucketKey (h : EvidenceKnown evidence knownAt instrumentId bucketStartAt)
    {event : MarketEvent} (hof : eventOf instrumentId bucketStartAt event = true)
    (hmarket : marketOf evidence event.instrumentId = some event.marketId)
    (hknown : knownAt < event.knowledgeAt) :
    event.key evidence = bucketKey evidence instrumentId bucketStartAt := by
  obtain ⟨hinstrument, hbucket⟩ := eventOf_iff.mp hof
  rw [hinstrument] at hmarket
  unfold MarketEvent.key bucketKey
  rw [hinstrument, hbucket, hmarket]
  congr 1
  · congr 2
    refine filter_congr fun row hrow => ?_
    by_cases hcandle : row.instrumentId = instrumentId ∧ row.candleStartAt = bucketStartAt
    · have := (h.candles row hrow hcandle.1 hcandle.2).trans hknown.le
      simp [hcandle.1, hcandle.2, this]
    · rw [not_and_or] at hcandle
      rcases hcandle with hne | hne <;> simp [hne]
  · congr 2
    refine filter_congr fun row hrow => ?_
    by_cases hquality : row.marketId = event.marketId ∧ row.rangeStartAt ≤ bucketStartAt ∧
        bucketStartAt < row.rangeEndAt
    · have := (h.qualities row hrow (by rw [hmarket, hquality.1]) hquality.2.1
        hquality.2.2).trans hknown.le
      simp [hquality, this]
    · rw [not_and_or, not_and_or] at hquality
      rcases hquality with hne | hne | hne
      · simp [hne, Ne.symm hne]
      · simp [hne]
      · simp [hne]
  · congr 2
    refine filter_eq_self.mpr fun row hrow => ?_
    exact decide_eq_true ((h.intervals row hrow).trans hknown.le)

/-! ## Frontiers -/

def snapshotThrough (db : MicrostructureDatabase) (instrumentId : ℤ) : ℤ :=
  coalesceMax ((db.orderbookSnapshots.filter fun row =>
    row.instrumentId = instrumentId).map OrderbookSnapshotRow.id)

def tradeThrough (db : MicrostructureDatabase) (instrumentId : ℤ) : ℤ :=
  coalesceMax ((db.tradeEvents.filter fun row =>
    row.instrumentId = instrumentId).map TradeEventRow.id)

/-- The frontier covers no more than the tables have. -/
def Within (db : MicrostructureDatabase) (instrumentId : ℤ) (frontier : MicrostructureFrontier) :
    Prop :=
  frontier.orderbookSnapshotThroughId ≤ snapshotThrough db instrumentId ∧
  frontier.tradeEventThroughId ≤ tradeThrough db instrumentId

/-- The frontier is behind another one in the order books or in the trades. -/
def Behind (frontier other : MicrostructureFrontier) : Prop :=
  frontier.orderbookSnapshotThroughId < other.orderbookSnapshotThroughId ∨
  frontier.tradeEventThroughId < other.tradeEventThroughId

/-- The frontier of a materialization. -/
def pointFrontier (point : MicrostructurePoint) : MicrostructureFrontier where
  orderbookSnapshotThroughId := point.orderbookSnapshotThroughId
  tradeEventThroughId := point.tradeEventThroughId
  sourceReceiptThroughId := point.sourceReceiptThroughId

/-- The invalidation takes in the event. -/
structure CoversEvent (row : MicrostructureInvalidation) (event : MarketEvent) : Prop where
  snapshot : ∀ id ∈ event.changedOrderbookSnapshotId, id ≤ row.frontier.orderbookSnapshotThroughId
  trade : ∀ id ∈ event.changedTradeEventId, id ≤ row.frontier.tradeEventThroughId
  receipt : event.sourceReceiptId ≤ row.frontier.sourceReceiptThroughId
  known : event.knowledgeAt ≤ row.knowledgeAt

/-- A time is known with the evidence of a minute or with one of its events. -/
def KnownWithin (knownAt : Instant) (events : List MarketEvent) (time : Instant) : Prop :=
  time ≤ knownAt ∨ ∃ event ∈ events, time ≤ event.knowledgeAt

theorem KnownWithin.mono {events events' : List MarketEvent} {time : Instant}
    (h : KnownWithin knownAt events time) (hsubset : ∀ event ∈ events, event ∈ events') :
    KnownWithin knownAt events' time := by
  rcases h with h | ⟨event, hevent, hle⟩
  · exact Or.inl h
  · exact Or.inr ⟨event, hsubset event hevent, hle⟩

theorem KnownWithin.of_le {events : List MarketEvent} {time other : Instant}
    (h : KnownWithin knownAt events time) (hle : other ≤ time) :
    KnownWithin knownAt events other := by
  rcases h with h | ⟨event, hevent, hle'⟩
  · exact Or.inl (hle.trans h)
  · exact Or.inr ⟨event, hevent, hle.trans hle'⟩

theorem mem_bucketEvents {event : MarketEvent} :
    event ∈ bucketEvents db instrumentId bucketStartAt ↔
      event ∈ allEvents db ∧ eventOf instrumentId bucketStartAt event = true :=
  mem_filter

theorem mem_allEvents {event : MarketEvent} : event ∈ allEvents db ↔
    (∃ row ∈ db.orderbookSnapshots, row.event = event) ∨
    ∃ row ∈ db.tradeEvents, row.event = event := by
  simp [allEvents]

/-- The ids of an event are within the tables. -/
theorem event_within {event : MarketEvent} (hevent : event ∈ allEvents db) :
    (∀ id ∈ event.changedOrderbookSnapshotId, id ≤ snapshotThrough db event.instrumentId) ∧
    (∀ id ∈ event.changedTradeEventId, id ≤ tradeThrough db event.instrumentId) := by
  rcases mem_allEvents.mp hevent with ⟨row, hrow, rfl⟩ | ⟨row, hrow, rfl⟩
  · refine ⟨fun id hid => ?_, fun id hid => by cases hid⟩
    obtain rfl := Option.some.inj hid
    exact le_coalesceMax (mem_map.mpr ⟨row, by simp [hrow, OrderbookSnapshotRow.event], rfl⟩)
  · refine ⟨fun id hid => (by cases hid), fun id hid => ?_⟩
    obtain rfl := Option.some.inj hid
    exact le_coalesceMax (mem_map.mpr ⟨row, by simp [hrow, TradeEventRow.event], rfl⟩)

theorem coalesceMax_lt {keys : List ℤ} {id : ℤ} (hpos : 0 < id) (h : ∀ key ∈ keys, key < id) :
    coalesceMax keys < id := by
  unfold coalesceMax
  cases hmax : keys.max? with
  | none => exact hpos
  | some key => exact h key (List.max?_mem hmax)

/-! ## The insertion of an event -/

/-- What the insertion of an event does to the tables of the events. -/
structure EventInserted (db db' : MicrostructureDatabase) (event : MarketEvent) : Prop where
  invalidations : db'.invalidations = db.invalidations
  materializations : db'.materializations = db.materializations
  mem_events : ∀ other, other ∈ allEvents db' ↔ other ∈ allEvents db ∨ other = event
  orderbooks : ∀ instrumentId bucketStartAt, eventOf instrumentId bucketStartAt event = false →
    bucketOrderbooks db' instrumentId bucketStartAt =
      bucketOrderbooks db instrumentId bucketStartAt
  trades : ∀ instrumentId bucketStartAt, eventOf instrumentId bucketStartAt event = false →
    bucketTrades db' instrumentId bucketStartAt = bucketTrades db instrumentId bucketStartAt
  receipts : ∀ receipt ∈ db.receipts, receipt ∈ db'.receipts
  receipt : ⟨event.sourceReceiptId, event.instrumentId⟩ ∈ db'.receipts
  snapshot_le : ∀ instrumentId, snapshotThrough db instrumentId ≤ snapshotThrough db' instrumentId
  trade_le : ∀ instrumentId, tradeThrough db instrumentId ≤ tradeThrough db' instrumentId
  ahead : snapshotThrough db event.instrumentId < snapshotThrough db' event.instrumentId ∨
    tradeThrough db event.instrumentId < tradeThrough db' event.instrumentId

theorem le_coalesceMax_append {keys : List ℤ} {id : ℤ} (hpos : 0 < id)
    (h : ∀ key ∈ keys, key < id) : coalesceMax keys < coalesceMax (keys ++ [id]) :=
  (coalesceMax_lt hpos h).trans_le (le_coalesceMax (by simp))

/-- A row with a new id raises the highest id of its instrument, and lowers that of none. -/
theorem coalesceMax_insert {ρ : Type} (idOf instrumentOf : ρ → ℤ) {rows : List ρ} {row : ρ}
    (hid : 0 < idOf row ∧ ∀ other ∈ rows, idOf other < idOf row) :
    coalesceMax ((rows.filter fun other => instrumentOf other = instrumentOf row).map idOf) <
        coalesceMax (((rows ++ [row]).filter fun other =>
          instrumentOf other = instrumentOf row).map idOf) ∧
      ∀ instrumentId, coalesceMax ((rows.filter fun other =>
          instrumentOf other = instrumentId).map idOf) ≤
        coalesceMax (((rows ++ [row]).filter fun other =>
          instrumentOf other = instrumentId).map idOf) := by
  have hkeys : ∀ key ∈ (rows.filter fun other =>
      instrumentOf other = instrumentOf row).map idOf, key < idOf row := by
    intro key hkey
    obtain ⟨other, hother, rfl⟩ := mem_map.mp hkey
    exact hid.2 other (mem_of_mem_filter hother)
  have hahead : coalesceMax ((rows.filter fun other =>
      instrumentOf other = instrumentOf row).map idOf) <
        coalesceMax (((rows ++ [row]).filter fun other =>
          instrumentOf other = instrumentOf row).map idOf) := by
    rw [filter_append, map_append, filter_cons_of_pos (by simp)]
    exact le_coalesceMax_append hid.1 hkeys
  refine ⟨hahead, fun instrumentId => ?_⟩
  by_cases hinstrument : instrumentOf row = instrumentId
  · rw [← hinstrument]
    exact hahead.le
  · rw [filter_append, filter_cons_of_neg (by simpa using hinstrument), filter_nil, append_nil]

/-- An order book is inserted with its receipt. -/
theorem eventInserted_snapshot {row : OrderbookSnapshotRow}
    (hid : 0 < row.id ∧ ∀ other ∈ db.orderbookSnapshots, other.id < row.id) :
    EventInserted db { db with
      receipts := db.receipts ++ [⟨row.sourceReceiptId, row.instrumentId⟩]
      orderbookSnapshots := db.orderbookSnapshots ++ [row] } row.event := by
  obtain ⟨hahead, hle⟩ :=
    coalesceMax_insert OrderbookSnapshotRow.id OrderbookSnapshotRow.instrumentId hid
  constructor
  case invalidations => rfl
  case materializations => rfl
  case mem_events =>
    intro other
    rw [mem_allEvents, mem_allEvents]
    simp only [mem_append, mem_singleton, or_and_right, exists_or, exists_eq_left]
    rw [@eq_comm _ row.event]
    exact or_right_comm
  case orderbooks =>
    intro instrumentId bucketStartAt hof
    unfold bucketOrderbooks
    rw [filter_append, filter_cons_of_neg (by simp [hof]), filter_nil, append_nil]
  case trades => exact fun _ _ _ => rfl
  case receipts => exact fun receipt hreceipt => mem_append_left _ hreceipt
  case receipt => exact mem_append_right _ (mem_singleton_self _)
  case snapshot_le => exact hle
  case trade_le => exact fun _ => le_refl _
  case ahead => exact Or.inl hahead

/-- A trade is inserted with its receipt. -/
theorem eventInserted_trade {row : TradeEventRow}
    (hid : 0 < row.id ∧ ∀ other ∈ db.tradeEvents, other.id < row.id) :
    EventInserted db { db with
      receipts := db.receipts ++ [⟨row.sourceReceiptId, row.instrumentId⟩]
      tradeEvents := db.tradeEvents ++ [row] } row.event := by
  obtain ⟨hahead, hle⟩ := coalesceMax_insert TradeEventRow.id TradeEventRow.instrumentId hid
  constructor
  case invalidations => rfl
  case materializations => rfl
  case mem_events =>
    intro other
    rw [mem_allEvents, mem_allEvents]
    simp only [mem_append, mem_singleton, or_and_right, exists_or, exists_eq_left]
    rw [@eq_comm _ row.event, or_assoc]
  case orderbooks => exact fun _ _ _ => rfl
  case trades =>
    intro instrumentId bucketStartAt hof
    unfold bucketTrades
    rw [filter_append, filter_cons_of_neg (by simp [hof]), filter_nil, append_nil]
  case receipts => exact fun receipt hreceipt => mem_append_left _ hreceipt
  case receipt => exact mem_append_right _ (mem_singleton_self _)
  case snapshot_le => exact fun _ => le_refl _
  case trade_le => exact hle
  case ahead => exact Or.inr hahead

/-! ## The row that takes an event -/

theorem isOf_iff : row.isOf instrumentId bucketStartAt = true ↔
      row.key.instrumentId = instrumentId ∧ row.key.bucketStartAt = bucketStartAt := by
  simp [MicrostructureInvalidation.isOf]

theorem isActive_of_waits (h : row.waits = true) : row.isActive = true :=
  isActive_iff.mpr (Or.inl h)

/-- Rows that wait with one key are one row. -/
theorem eq_of_waitingKeys {rows : List MicrostructureInvalidation} (h : WaitingKeysUnique rows)
    {other : MicrostructureInvalidation} (hrow : row ∈ rows) (hother : other ∈ rows)
    (hwaits : row.waits = true) (hwaits' : other.waits = true) (hkey : row.key = other.key) :
    row = other :=
  inj_on_of_nodup_map h (mem_filter.mpr ⟨hrow, hwaits⟩)
    (mem_filter.mpr ⟨hother, hwaits'⟩) hkey

theorem isOf_of_key (h : row.key = bucketKey evidence instrumentId bucketStartAt) :
    row.isOf instrumentId bucketStartAt = true :=
  isOf_iff.mpr (by rw [h]; exact ⟨rfl, rfl⟩)

/-- The row that takes the event: the one that waits with its key, or a new one. -/
structure TakenBy (evidence : EvidenceTables) (now : Instant) (db : MicrostructureDatabase)
    (event : MarketEvent) (taker : MicrostructureInvalidation) : Prop where
  mem_rows : ∀ row,
    row ∈ (enqueueMicrostructureInvalidation evidence now db event).invalidations.rows ↔
      row = taker ∨ (row ∈ db.invalidations.rows ∧ row.id ≠ taker.id)
  taker : (∃ old ∈ db.invalidations.rows, old.waits = true ∧ old.key = event.key evidence ∧
      taker = old.merge db now event) ∨
    ((∀ row ∈ db.invalidations.rows, row.waits = true → row.key ≠ event.key evidence) ∧
      (∀ row ∈ db.invalidations.rows, row.id < taker.id) ∧
      ∃ id, taker = event.invalidation evidence db now id)

/-- Every event is taken by one row. -/
theorem exists_takenBy (h : WaitingKeysUnique db.invalidations.rows) (evidence : EvidenceTables)
    (now : Instant) (event : MarketEvent) : ∃ taker, TakenBy evidence now db event taker := by
  rcases enqueue_cases evidence now db event with
    ⟨⟨old, hold, hwaits, hkey⟩, hrows⟩ | ⟨hnone, hrows⟩
  · have hmerged : ∀ row ∈ db.invalidations.rows,
        row.waits = true ∧ row.key = event.key evidence ↔ row = old := by
      intro row hrow
      constructor
      · rintro ⟨hrowWaits, hrowKey⟩
        exact eq_of_waitingKeys h hrow hold hrowWaits hwaits (hrowKey.trans hkey.symm)
      · rintro rfl
        exact ⟨hwaits, hkey⟩
    refine ⟨old.merge db now event, ⟨fun row => ?_, Or.inl ⟨old, hold, hwaits, hkey, rfl⟩⟩⟩
    rw [hrows, mem_map]
    constructor
    · rintro ⟨row', hrow', rfl⟩
      by_cases heq : row' = old
      · left
        rw [if_pos ((hmerged row' hrow').mpr heq), heq]
      · right
        rw [if_neg (mt (hmerged row' hrow').mp heq)]
        exact ⟨hrow', fun hid => heq (IdentityTable.eq_of_key hrow' hold hid)⟩
    · rintro (rfl | ⟨hrow, hne⟩)
      · exact ⟨old, hold, if_pos ⟨hwaits, hkey⟩⟩
      · refine ⟨row, hrow, if_neg fun htakes => hne ?_⟩
        rw [(hmerged row hrow).mp htakes]
        rfl
  · have hlast : ∀ row ∈ db.invalidations.rows, row.id < db.invalidations.last + 1 :=
      fun row hrow => Int.lt_add_one_of_le (db.invalidations.le_last row hrow)
    refine ⟨event.invalidation evidence db now (db.invalidations.last + 1),
      ⟨fun row => ?_, Or.inr ⟨hnone, hlast, _, rfl⟩⟩⟩
    rw [hrows, mem_append, mem_singleton, or_comm]
    refine or_congr_right ⟨fun hrow => ⟨hrow, (hlast row hrow).ne⟩, And.left⟩

theorem waitingKeysUnique_enqueue (h : WaitingKeysUnique db.invalidations.rows)
    (evidence : EvidenceTables) (now : Instant) (event : MarketEvent) : WaitingKeysUnique
      (enqueueMicrostructureInvalidation evidence now db event).invalidations.rows := by
  rcases enqueue_cases evidence now db event with ⟨-, hrows⟩ | ⟨hnone, hrows⟩ <;> rw [hrows]
  · refine h.sublist (map_filter_map_sublist (fun row _ => ?_) fun row _ hwaits => ?_)
    · split_ifs <;> rfl
    · split_ifs at hwaits with hmerged
      · exact hmerged.1
      · exact hwaits
  · unfold WaitingKeysUnique
    rw [filter_append, map_append, nodup_append]
    refine ⟨h, (nodup_singleton _).sublist ((filter_sublist).map _), ?_⟩
    intro key hkey other hother heq
    obtain ⟨row, hrow, rfl⟩ := mem_map.mp hkey
    obtain ⟨hrow, hwaits⟩ := mem_filter.mp hrow
    obtain ⟨new, hnew, rfl⟩ := mem_map.mp hother
    obtain rfl := mem_singleton.mp (mem_of_mem_filter hnew)
    exact hnone row hrow hwaits heq

variable {now : Instant} {event : MarketEvent} {taker : MicrostructureInvalidation}

theorem TakenBy.key (h : TakenBy evidence now db event taker) : taker.key = event.key evidence := by
  rcases h.taker with ⟨old, -, -, hkey, rfl⟩ | ⟨-, -, id, rfl⟩
  · exact hkey
  · rfl

theorem TakenBy.waits (h : TakenBy evidence now db event taker) : taker.waits = true := by
  rcases h.taker with ⟨old, -, -, -, rfl⟩ | ⟨-, -, id, rfl⟩ <;> rfl

theorem TakenBy.mem (h : TakenBy evidence now db event taker) :
    taker ∈ (enqueueMicrostructureInvalidation evidence now db event).invalidations.rows :=
  (h.mem_rows taker).mpr (Or.inl rfl)

/-- The row reaches as far as the tables do. -/
theorem TakenBy.through_le (h : TakenBy evidence now db event taker) :
    snapshotThrough db event.instrumentId ≤ taker.frontier.orderbookSnapshotThroughId ∧
    tradeThrough db event.instrumentId ≤ taker.frontier.tradeEventThroughId := by
  rcases h.taker with ⟨old, -, -, -, rfl⟩ | ⟨-, -, id, rfl⟩
  · exact ⟨le_max_right _ _, le_max_right _ _⟩
  · exact ⟨le_refl _, le_refl _⟩

theorem TakenBy.within (h : TakenBy evidence now db event taker)
    (hold : ∀ row ∈ db.invalidations.rows, row.key = event.key evidence →
      Within db event.instrumentId row.frontier) : Within db event.instrumentId taker.frontier := by
  rcases h.taker with ⟨old, hmem, -, hkey, rfl⟩ | ⟨-, -, id, rfl⟩
  · have hwithin := hold old hmem hkey
    exact ⟨max_le hwithin.1 (le_refl _), max_le hwithin.2 (le_refl _)⟩
  · exact ⟨le_refl _, le_refl _⟩

/-- The row takes in the event, and whatever the row that it was before did. -/
theorem TakenBy.covers (h : TakenBy evidence now db event taker) (hevent : event ∈ allEvents db)
    (hreceipt : ∀ other ∈ bucketEvents db instrumentId bucketStartAt,
      ⟨other.sourceReceiptId, other.instrumentId⟩ ∈ db.receipts)
    (hof : eventOf instrumentId bucketStartAt event = true)
    (hold : ∀ row ∈ db.invalidations.rows, row.waits = true → row.key = event.key evidence →
      ∀ other ∈ bucketEvents db instrumentId bucketStartAt, other = event ∨ CoversEvent row other)
    (hknown : (∀ row ∈ db.invalidations.rows, row.waits = true → row.key ≠ event.key evidence) →
      ∀ other ∈ bucketEvents db instrumentId bucketStartAt,
        other.knowledgeAt ≤ event.knowledgeAt) :
    ∀ other ∈ bucketEvents db instrumentId bucketStartAt, CoversEvent taker other := by
  intro other hother
  obtain ⟨hmem, hotherOf⟩ := mem_bucketEvents.mp hother
  have hinstrument : other.instrumentId = event.instrumentId :=
    (eventOf_iff.mp hotherOf).1.trans (eventOf_iff.mp hof).1.symm
  have hwithin := event_within hmem
  rw [hinstrument] at hwithin
  have hreceived : other.sourceReceiptId ≤ (event.frontier db).sourceReceiptThroughId := by
    have hid : other.sourceReceiptId ∈ (db.receipts.filter fun row =>
        row.instrumentId = event.instrumentId).map SourceReceiptRow.id :=
      mem_map.mpr ⟨_, mem_filter.mpr ⟨hreceipt other hother, by simp [hinstrument]⟩, rfl⟩
    exact (le_coalesceMax hid).trans (le_max_left _ _)
  have hthrough := h.through_le
  refine ⟨fun id hid => (hwithin.1 id hid).trans hthrough.1,
    fun id hid => (hwithin.2 id hid).trans hthrough.2, ?_, ?_⟩
  · rcases h.taker with ⟨old, -, -, -, rfl⟩ | ⟨-, -, id, rfl⟩
    · exact hreceived.trans (le_max_right _ _)
    · exact hreceived
  · rcases h.taker with ⟨old, hmemOld, hwaits, hkey, rfl⟩ | ⟨hnone, -, id, rfl⟩
    · rcases hold old hmemOld hwaits hkey other hother with rfl | hcovers
      · exact le_max_right _ _
      · exact hcovers.known.trans (le_max_left _ _)
    · exact hknown hnone other hother

end Goodmoneying.Analysis
