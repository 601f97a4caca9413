import Goodmoneying.Analysis.MicrostructureEvents

/-!
# What a materialization is computed from

The work on an invalidation reads the events of its minute that the invalidation covers, and the
materialization is known no later than the invalidation.
-/

namespace Goodmoneying.Analysis

open List Library Program

variable {sha256 : List ℕ → String} {evidence : EvidenceTables}
  {db db' : MicrostructureDatabase} {instrumentId : ℤ} {bucketStartAt knownAt : Instant}
  {now : Instant}
variable {live : MicrostructureInvalidation}
variable {ceiling : ℤ} {startedAt endedAt : Instant} {candle : MicrostructureCandleInput}
  {claimed : ClaimedInvalidation}

theorem minuteBucket_eq_iff {bucket : ℤ} (hdvd : minute ∣ bucket) (value : ℤ) :
    minuteBucket value = bucket ↔ bucket ≤ value ∧ value < bucket + minute := by
  unfold minuteBucket minute at *
  omega

/-- The invalidation reads the events of its minute that it covers, and no others. -/
theorem reads_iff (hdvd : minute ∣ bucketStartAt)
    (hlive : live.isOf instrumentId bucketStartAt = true)
    (hcovers : ∀ event ∈ bucketEvents db instrumentId bucketStartAt, CoversEvent live event)
    (hreceived : ∀ event ∈ bucketEvents db instrumentId bucketStartAt, ⟨event.sourceReceiptId,
      event.instrumentId⟩ ∈ db.receipts) {event : MarketEvent} (hevent : event ∈ allEvents db)
    {id : ℤ} (hid : CoversEvent live event → id ≤ ceiling) :
    (decide (event.instrumentId = live.key.instrumentId) &&
      decide (live.key.bucketStartAt ≤ event.occurredAt) &&
      decide (event.occurredAt < live.key.bucketStartAt + minute) && decide (id ≤ ceiling) &&
      hasReceipt db event.sourceReceiptId live.frontier.sourceReceiptThroughId &&
      decide (event.knowledgeAt ≤ live.knowledgeAt)) =
      eventOf instrumentId bucketStartAt event := by
  obtain ⟨hinstrument, hbucket⟩ := isOf_iff.mp hlive
  rw [hinstrument, hbucket, Bool.eq_iff_iff, eventOf_iff, minuteBucket_eq_iff hdvd]
  simp only [Bool.and_eq_true, decide_eq_true_eq]
  refine ⟨fun h => ⟨h.1.1.1.1.1, h.1.1.1.1.2, h.1.1.1.2⟩, fun h => ?_⟩
  have hof : eventOf instrumentId bucketStartAt event = true :=
    eventOf_iff.mpr ⟨h.1, (minuteBucket_eq_iff hdvd _).mpr h.2⟩
  have hmem := mem_bucketEvents.mpr ⟨hevent, hof⟩
  have hcovered := hcovers event hmem
  refine ⟨⟨⟨⟨⟨h.1, h.2.1⟩, h.2.2⟩, hid hcovered⟩, ?_⟩, hcovered.known⟩
  exact any_eq_true.mpr ⟨_, hreceived event hmem, by simp [hcovered.receipt]⟩

theorem orderbookInputs_eq (hdvd : minute ∣ bucketStartAt)
    (hlive : live.isOf instrumentId bucketStartAt = true)
    (hcovers : ∀ event ∈ bucketEvents db instrumentId bucketStartAt, CoversEvent live event)
    (hreceived : ∀ event ∈ bucketEvents db instrumentId bucketStartAt, ⟨event.sourceReceiptId,
      event.instrumentId⟩ ∈ db.receipts) :
    orderbookInputs db live = bucketOrderbooks db instrumentId bucketStartAt := by
  unfold orderbookInputs bucketOrderbooks
  congr 2
  refine filter_congr fun row hrow => ?_
  exact reads_iff hdvd hlive hcovers hreceived (mem_allEvents.mpr (Or.inl ⟨row, hrow, rfl⟩))
    fun hcovered => hcovered.snapshot row.id rfl

theorem tradeInputs_eq (hdvd : minute ∣ bucketStartAt)
    (hlive : live.isOf instrumentId bucketStartAt = true)
    (hcovers : ∀ event ∈ bucketEvents db instrumentId bucketStartAt, CoversEvent live event)
    (hreceived : ∀ event ∈ bucketEvents db instrumentId bucketStartAt, ⟨event.sourceReceiptId,
      event.instrumentId⟩ ∈ db.receipts) :
    tradeInputs db live = bucketTrades db instrumentId bucketStartAt := by
  unfold tradeInputs bucketTrades
  congr 2
  refine filter_congr fun row hrow => ?_
  exact reads_iff hdvd hlive hcovers hreceived (mem_allEvents.mpr (Or.inr ⟨row, hrow, rfl⟩))
    fun hcovered => hcovered.trade row.id rfl

theorem mem_bucketOrderbooks {item : MicrostructureOrderbookInput} :
    item ∈ bucketOrderbooks db instrumentId bucketStartAt ↔
      ∃ row ∈ db.orderbookSnapshots, eventOf instrumentId bucketStartAt row.event = true ∧
        row.input = item := by
  simp [bucketOrderbooks, and_assoc]

theorem mem_bucketTrades {item : MicrostructureTradeInput} :
    item ∈ bucketTrades db instrumentId bucketStartAt ↔
      ∃ row ∈ db.tradeEvents, eventOf instrumentId bucketStartAt row.event = true ∧
        row.input = item := by
  simp [bucketTrades, and_assoc]

/-- The calculation drops no order book of the minute. -/
theorem selectedOrderbooks_eq (hdvd : minute ∣ bucketStartAt)
    (hcovers : ∀ event ∈ bucketEvents db instrumentId bucketStartAt, CoversEvent live event) :
    selectedOrderbooks bucketStartAt (bucketStartAt + minute) live.frontier
      (bucketOrderbooks db instrumentId bucketStartAt) =
      bucketOrderbooks db instrumentId bucketStartAt := by
  unfold selectedOrderbooks
  rw [filter_eq_self.mpr]
  · exact sortedBy_eq_self (pairwise_map.mpr (sortedBy_pairwise _ _))
  · intro item hitem
    obtain ⟨row, hrow, hof, rfl⟩ := mem_bucketOrderbooks.mp hitem
    have hcovered := hcovers row.event
      (mem_bucketEvents.mpr ⟨mem_allEvents.mpr (Or.inl ⟨row, hrow, rfl⟩), hof⟩)
    obtain ⟨hle, hlt⟩ := (minuteBucket_eq_iff hdvd _).mp (eventOf_iff.mp hof).2
    simp only [Bool.and_eq_true, decide_eq_true_eq]
    exact ⟨⟨⟨hle, hlt⟩, hcovered.snapshot row.id rfl⟩, hcovered.receipt⟩

/-- The calculation drops no trade of the minute. -/
theorem selectedTrades_eq (hdvd : minute ∣ bucketStartAt)
    (hcovers : ∀ event ∈ bucketEvents db instrumentId bucketStartAt, CoversEvent live event) :
    selectedTrades bucketStartAt (bucketStartAt + minute) live.frontier
      (bucketTrades db instrumentId bucketStartAt) =
      bucketTrades db instrumentId bucketStartAt := by
  unfold selectedTrades
  rw [filter_eq_self.mpr]
  · exact sortedBy_eq_self (pairwise_map.mpr (sortedBy_pairwise _ _))
  · intro item hitem
    obtain ⟨row, hrow, hof, rfl⟩ := mem_bucketTrades.mp hitem
    have hcovered := hcovers row.event
      (mem_bucketEvents.mpr ⟨mem_allEvents.mpr (Or.inr ⟨row, hrow, rfl⟩), hof⟩)
    obtain ⟨hle, hlt⟩ := (minuteBucket_eq_iff hdvd _).mp (eventOf_iff.mp hof).2
    simp only [Bool.and_eq_true, decide_eq_true_eq]
    exact ⟨⟨⟨hle, hlt⟩, hcovered.trade row.id rfl⟩, hcovered.receipt⟩

/-- The columns of a point that do not depend on its values. -/
theorem calculateMicrostructureBucket_eq_ok {orderbooks : List MicrostructureOrderbookInput}
    {trades : List MicrostructureTradeInput} {frontier : MicrostructureFrontier}
    {bucket : MicrostructureEvidence} {point : MicrostructurePoint} (h :
      calculateMicrostructureBucket sha256 startedAt endedAt orderbooks trades frontier bucket = .ok
      point) :
    point.startedAt = startedAt ∧ point.calculationVersion = microstructureCalculationVersion ∧
    pointFrontier point = frontier ∧
    point.knowledgeAt = ((selectedOrderbooks startedAt endedAt frontier orderbooks).map
        MicrostructureOrderbookInput.knowledgeAt ++
      (selectedTrades startedAt endedAt frontier trades).map MicrostructureTradeInput.knowledgeAt ++
      (bucket.sourceCandle.map MicrostructureCandleInput.knowledgeAt).toList ++
      bucket.connectionQualityKnowledgeAt.toList).max? := by
  unfold calculateMicrostructureBucket at h
  split_ifs at h
  obtain rfl := Except.ok.inj h
  exact ⟨rfl, rfl, rfl, rfl⟩

theorem create_eq_ok {created : MicrostructureCandleInput} (h : candle.create = .ok created) :
    created = candle := by
  unfold MicrostructureCandleInput.create at h
  split_ifs at h
  exact (Except.ok.inj h).symm

/-- The candle that is read is known by the invalidation's time. -/
theorem sourceCandleInput_known (h : sourceCandleInput evidence live = .ok (some candle)) :
    candle.knowledgeAt ≤ live.knowledgeAt := by
  have hcreate : ∀ {input created : MicrostructureCandleInput}, input.create = .ok created →
      input.knowledgeAt ≤ live.knowledgeAt →
      (.ok (some created) : Except MicrostructureException (Option MicrostructureCandleInput)) =
        .ok (some candle) → candle.knowledgeAt ≤ live.knowledgeAt := by
    intro input created hcreated hle hok
    obtain rfl := Option.some.inj (Except.ok.inj hok)
    rwa [create_eq_ok hcreated]
  have hquality : ∀ {rows : List CandleQualityEvent} {row : CandleQualityEvent},
      maxBy CandleQualityEvent.id (rows.filter fun row =>
        row.marketId = live.marketId && row.detectedAt ≤ live.knowledgeAt &&
        live.key.qualityEventThroughId.all (row.id ≤ ·) &&
        row.rangeStartAt ≤ live.key.bucketStartAt && live.key.bucketStartAt < row.rangeEndAt) =
        some row → row.detectedAt ≤ live.knowledgeAt := by
    intro rows row hmax
    have hmem := of_mem_filter (maxBy_spec hmax).1
    simp only [Bool.and_eq_true, decide_eq_true_eq] at hmem
    exact hmem.1.1.1.2
  unfold sourceCandleInput at h
  dsimp only at h
  split at h
  next =>
    split at h
    next => cases h
    next row hrow =>
      split at h
      next created hcreated => exact hcreate hcreated (hquality hrow) h
      next => cases h
  next =>
    split at h
    next =>
      split at h
      next => cases h
      next row hrow =>
        split at h
        next created hcreated => exact hcreate hcreated (hquality hrow) h
        next => cases h
    next revision hrevision =>
      obtain ⟨ceiling, -, hmax⟩ := Option.bind_eq_some_iff.mp hrevision
      have hmem := of_mem_filter (maxBy_spec hmax).1
      simp only [Bool.and_eq_true, decide_eq_true_eq] at hmem
      split at h
      next created hcreated => exact hcreate hcreated hmem.1.2 h
      next => cases h

theorem connectionQualities_known {realtime : RealtimeDatabase} {marketId : ℤ} {asOf : Instant}
    {item : String × ConnectionQualityEvidence}
    (h : item ∈ connectionQualities realtime marketId startedAt endedAt asOf ceiling) :
    item.2.knowledgeAt ≤ asOf := by
  obtain ⟨dataType, -, hitem⟩ := mem_filterMap.mp h
  obtain ⟨row, hrow, rfl⟩ := Option.map_eq_some_iff.mp hitem
  have hmem := of_mem_filter (maxBy_spec hrow).1
  simp only [Bool.and_eq_true, decide_eq_true_eq] at hmem
  exact hmem.1.2

/-- The work on a row that succeeds, with the materialization that it makes. -/
structure Worked (sha256 : List ℕ → String) (db db' : MicrostructureDatabase)
    (live : MicrostructureInvalidation) (new : MicrostructureMaterialization) : Prop where
  mem : live ∈ db.invalidations.rows
  running : live.status = .running
  preceding : ∀ row ∈ db.invalidations.rows,
    row.isOf live.key.instrumentId live.key.bucketStartAt = true → row.id < live.id →
    row.isActive = false
  rows : ∃ completedAt, db'.invalidations.rows = db.invalidations.rows.map fun row =>
    if row.id = live.id then row.succeed completedAt else row
  isOf : materializationOf live.key.instrumentId live.key.bucketStartAt new
  frontier : pointFrontier new.point = live.frontier
  known : new.knowledgeAt ≤ live.knowledgeAt
  materializations :
    (∀ row, row ∈ db'.materializations.rows ↔ row ∈ db.materializations.rows ∨ row = new) ∨
    ((∀ row, row ∈ db'.materializations.rows ↔ row ∈ db.materializations.rows) ∧
      ∃ row ∈ db.materializations.rows,
        materializationOf live.key.instrumentId live.key.bucketStartAt row ∧
        pointFrontier row.point = live.frontier)
  id : ∀ row ∈ db.materializations.rows, row.id < new.id
  snapshots : db'.orderbookSnapshots = db.orderbookSnapshots
  trades : db'.tradeEvents = db.tradeEvents
  receipts : db'.receipts = db.receipts
  computed : minute ∣ live.key.bucketStartAt →
    (∀ event ∈ bucketEvents db live.key.instrumentId live.key.bucketStartAt,
      CoversEvent live event) →
    (∀ event ∈ bucketEvents db live.key.instrumentId live.key.bucketStartAt,
      ⟨event.sourceReceiptId, event.instrumentId⟩ ∈ db.receipts) →
    ComputedFromAll sha256 db live.key.instrumentId live.key.bucketStartAt new ∧
    ∀ event ∈ bucketEvents db live.key.instrumentId live.key.bucketStartAt,
      event.knowledgeAt ≤ new.knowledgeAt

theorem insertMaterialization_cases (db : MicrostructureDatabase) (instrumentId marketId : ℤ)
    (point : MicrostructurePoint) (knowledgeAt sourceAsOf : Instant)
    (orderbooks : List MicrostructureOrderbookInput) (trades : List MicrostructureTradeInput) :
    let db' := insertMaterialization db instrumentId marketId point knowledgeAt sourceAsOf
      orderbooks trades
    (∀ row, row ∈ db'.materializations.rows ↔ row ∈ db.materializations.rows ∨
      row = newMaterialization db.materializations.rows instrumentId marketId point knowledgeAt
        sourceAsOf orderbooks trades (db.materializations.last + 1)) ∨
    ((∀ row, row ∈ db'.materializations.rows ↔ row ∈ db.materializations.rows) ∧
      ∃ row ∈ db.materializations.rows, materializationOf instrumentId point.startedAt row ∧
        pointFrontier row.point = pointFrontier point) := by
  intro db'
  unfold db' insertMaterialization
  split_ifs with hsame
  · obtain ⟨row, hrow, hcontent⟩ := any_eq_true.mp hsame
    simp only [MicrostructureMaterialization.sameContent, Bool.and_eq_true,
      decide_eq_true_eq] at hcontent
    refine Or.inr ⟨fun _ => Iff.rfl, row, hrow, ⟨hcontent.1.1.1.1.1.1.1.1.1,
      hcontent.1.1.1.1.1.1.1.2⟩, ?_⟩
    unfold pointFrontier
    rw [hcontent.1.1.1.1.1.1.2, hcontent.1.1.1.1.1.2, hcontent.1.1.1.1.2]
  · left
    exact fun row => mem_append.trans (or_congr_right mem_singleton)

theorem le_of_max?_eq_some {l : List ℤ} {largest value : ℤ} (h : l.max? = some largest)
    (hvalue : value ∈ l) : value ≤ largest :=
  (List.max?_eq_some_iff.mp h).2 value hvalue

theorem running_of_live (h : live.live now claimed = true) : live.status = .running := by
  simp only [MicrostructureInvalidation.live, Bool.and_eq_true, decide_eq_true_eq] at h
  exact h.1.2

/-- A materialization is computed from what the claimed row covers. -/
theorem Materializes.worked (h : Materializes sha256 evidence claimed db db') :
    ∃ live new, Worked sha256 db db' live new := by
  obtain ⟨leasedAt, completedAt, live, hmem, hlive, hcompleted, hpreceding, qualities,
    tradeQuality, candle, point, sourceAsOf, knowledgeAt, hqualities, -, hcandle, hpoint,
    hknowledgeAt, rfl⟩ := h
  obtain ⟨hstarted, -, hfrontier, hknown⟩ := calculateMicrostructureBucket_eq_ok hpoint
  rw [hknowledgeAt] at hknown
  refine ⟨live, newMaterialization db.materializations.rows live.key.instrumentId live.marketId
    point knowledgeAt sourceAsOf (orderbookInputs db live) (tradeInputs db live)
    (db.materializations.last + 1), ?_⟩
  constructor
  case mem => exact hmem
  case running => exact running_of_live hlive
  case preceding => exact hpreceding
  case rows =>
    refine ⟨completedAt, ?_⟩
    dsimp only
    rw [IdentityTable.update_rows]
    refine map_congr_left fun row hrow => ?_
    by_cases hid : row.id = live.id
    · obtain rfl := IdentityTable.eq_of_key hrow hmem hid
      rw [if_pos hcompleted, if_pos rfl]
    · rw [if_neg fun hrowLive => hid ((live_id hrowLive).trans (live_id hcompleted).symm),
        if_neg hid]
  case isOf => exact ⟨rfl, hstarted⟩
  case frontier => exact hfrontier
  case known =>
    have hmax := (List.max?_eq_some_iff.mp hknown.symm).1
    simp only [mem_append, mem_map, Option.mem_toList, bucketEvidence] at hmax
    rcases hmax with ((⟨item, hitem, hitemKnown⟩ | ⟨item, hitem, hitemKnown⟩) | hcandleKnown) |
      hconnection
    · have hselected := mem_of_mem_filter (mem_sortedBy.mp hitem)
      obtain ⟨row, hrow, rfl⟩ := mem_map.mp hselected
      have hread := of_mem_filter (mem_sortedBy.mp hrow)
      simp only [Bool.and_eq_true, decide_eq_true_eq] at hread
      exact hitemKnown.ge.trans hread.2
    · have hselected := mem_of_mem_filter (mem_sortedBy.mp hitem)
      obtain ⟨row, hrow, rfl⟩ := mem_map.mp hselected
      have hread := of_mem_filter (mem_sortedBy.mp hrow)
      simp only [Bool.and_eq_true, decide_eq_true_eq] at hread
      exact hitemKnown.ge.trans hread.2
    · have heq : candle.knowledgeAt = knowledgeAt := Option.some.inj hcandleKnown
      exact heq.ge.trans (sourceCandleInput_known hcandle)
    · obtain ⟨item, hitem, hitemKnown⟩ := mem_map.mp (List.max?_eq_some_iff.mp hconnection).1
      rw [hqualities] at hitem
      exact hitemKnown.ge.trans (connectionQualities_known hitem)
  case materializations =>
    have hcases := insertMaterialization_cases db live.key.instrumentId live.marketId point
      knowledgeAt sourceAsOf (orderbookInputs db live) (tradeInputs db live)
    rw [hstarted, hfrontier] at hcases
    exact hcases
  case id =>
    exact fun row hrow => Int.lt_add_one_of_le (db.materializations.le_last row hrow)
  case snapshots =>
    unfold insertMaterialization
    split_ifs <;> rfl
  case trades =>
    unfold insertMaterialization
    split_ifs <;> rfl
  case receipts =>
    unfold insertMaterialization
    split_ifs <;> rfl
  case computed =>
    intro hdvd hcovers hreceived
    have hof : live.isOf live.key.instrumentId live.key.bucketStartAt = true :=
      isOf_iff.mpr ⟨rfl, rfl⟩
    have horderbooks := orderbookInputs_eq hdvd hof hcovers hreceived
    have htrades := tradeInputs_eq hdvd hof hcovers hreceived
    have hallOrderbooks := selectedOrderbooks_eq hdvd hcovers
    have hallTrades := selectedTrades_eq hdvd hcovers
    rw [horderbooks, htrades] at hpoint hknown ⊢
    refine ⟨⟨rfl, rfl, live.frontier, _, hpoint, hallOrderbooks, hallTrades⟩, ?_⟩
    intro event hevent
    rw [hallOrderbooks, hallTrades] at hknown
    refine le_of_max?_eq_some hknown.symm ?_
    simp only [mem_append, mem_map]
    obtain ⟨hmemEvent, heventOf⟩ := mem_bucketEvents.mp hevent
    rcases mem_allEvents.mp hmemEvent with ⟨row, hrow, rfl⟩ | ⟨row, hrow, rfl⟩
    · exact Or.inl (Or.inl (Or.inl ⟨row.input, mem_bucketOrderbooks.mpr ⟨row, hrow, heventOf, rfl⟩,
        rfl⟩))
    · exact Or.inl (Or.inl (Or.inr ⟨row.input, mem_bucketTrades.mpr ⟨row, hrow, heventOf, rfl⟩,
        rfl⟩))

end Goodmoneying.Analysis
