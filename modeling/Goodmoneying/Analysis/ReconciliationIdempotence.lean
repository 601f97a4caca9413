import Goodmoneying.Analysis.ReconciliationAgreement
import Goodmoneying.Program.UpbitRest

/-!
# Applying a snapshot twice

A terminal Upbit REST snapshot that was applied to an order without fills is applied again under
another run key. The second run compares the snapshot with what the columns kept of it
(`applied_record`), so it succeeds and changes nothing exactly when they kept every trade and every
fee share exactly (`reapply_idempotent_iff`).
-/

namespace Goodmoneying.Analysis

open List Library Program

variable {ar : Arithmetic} {snapshot : UpbitRestOrderSnapshot} {fills : List ObservedFill}
  {now : Instant} {db db' : OrderDatabase} {orderId : ℤ} {request : RunRequest}
  {run : ReconciliationRun} {hash : CanonicalValue → String} {runKey actorId reason status : String}
  {evidence : List (String × CanonicalValue)}

/-- The shares are as many as the trades. -/
theorem feeShares_length (ar : Arithmetic) (paidFee totalFunds assigned : ℚ) (funds : List ℚ) :
    (feeShares ar paidFee totalFunds assigned funds).length = funds.length := by
  induction funds generalizing assigned with
  | nil => rfl
  | cons fund funds ih =>
    cases funds with
    | nil => rfl
    | cons next funds => simpa [feeShares] using ih _

/-- There is one fee for each trade. -/
theorem distributedFees_length {fees : List ℚ} (h : distributedFees ar snapshot = .ok fees) :
    fees.length = snapshot.trades.length := by
  unfold distributedFees at h
  dsimp only at h
  split_ifs at h with hnone hzero hone
  · simp [← Except.ok.inj h, hnone]
  · simp [← Except.ok.inj h]
  · simp [← Except.ok.inj h, hone]
  · simp [← Except.ok.inj h, feeShares_length]

/-- What holds of a fill when its trade and its fee have some property holds of all fills of a
snapshot when all trades and all fees have it. -/
theorem forall_reconciliationFills {r : ObservedFill → Prop} {p : UpbitRestTradeSnapshot → Prop}
    {q : ℚ → Prop} (h : reconciliationFills ar snapshot = .ok fills) (hfill : ∀ trade ∈
      snapshot.trades, ∀ fee index, 1 ≤ index → (r (reconciliationFill snapshot trade fee index) ↔ p
      trade ∧ q fee)) : (∀ fill ∈ fills, r fill) ↔ (∀ trade ∈ snapshot.trades, p trade) ∧
      ∀ fees, distributedFees ar snapshot = .ok fees → ∀ fee ∈ fees, q fee := by
  obtain ⟨fees, hfees, h⟩ := bind_eq_ok.mp h
  obtain rfl := pure_eq_ok.mp h
  have hlength := distributedFees_length hfees
  have hpairs : (∀ item ∈ (snapshot.trades.zip fees).zipIdx 1,
        r (reconciliationFill snapshot item.1.1 item.1.2 item.2)) ↔
      ∀ pair ∈ snapshot.trades.zip fees, p pair.1 ∧ q pair.2 := by
    constructor
    · intro hitems pair hpair
      rw [← zipIdx_map_fst 1 (snapshot.trades.zip fees)] at hpair
      obtain ⟨item, hitem, rfl⟩ := mem_map.mp hpair
      have htrade := (of_mem_zip (fst_mem_of_mem_zipIdx hitem)).1
      exact (hfill _ htrade _ _ (le_snd_of_mem_zipIdx hitem)).mp (hitems item hitem)
    · intro hpairs item hitem
      have hmem := fst_mem_of_mem_zipIdx hitem
      have hindex := le_snd_of_mem_zipIdx hitem
      exact (hfill _ (of_mem_zip hmem).1 _ _ hindex).mpr (hpairs _ hmem)
  rw [forall_mem_map, hpairs]
  constructor
  · intro hall
    refine ⟨fun trade htrade => ?_, fun fees' hfees' fee hfee => ?_⟩
    · rw [← map_fst_zip hlength.ge] at htrade
      obtain ⟨pair, hpair, rfl⟩ := mem_map.mp htrade
      exact (hall pair hpair).1
    · obtain rfl := Except.ok.inj (hfees.symm.trans hfees')
      rw [← map_snd_zip hlength.le] at hfee
      obtain ⟨pair, hpair, rfl⟩ := mem_map.mp hfee
      exact (hall pair hpair).2
  · rintro ⟨htrades, hshares⟩ pair hpair
    obtain ⟨htrade, hfee⟩ := of_mem_zip hpair
    exact ⟨htrades _ htrade, hshares fees hfees _ hfee⟩

/-- The shares of the fee and the trades are held exactly by the columns. -/
structure ExactSnapshot (snapshot : UpbitRestOrderSnapshot) : Prop where
  volume : ∀ trade ∈ snapshot.trades, roundPlaces 18 trade.volume = trade.volume
  price : ∀ trade ∈ snapshot.trades, roundPlaces 18 trade.price = trade.price
  shares : ∀ fees, distributedFees .default snapshot = .ok fees →
    ∀ fee ∈ fees, roundPlaces 18 fee = fee

/-- Whether the columns hold a snapshot exactly can be computed. -/
instance (snapshot : UpbitRestOrderSnapshot) : Decidable (ExactSnapshot snapshot) :=
  decidable_of_iff
    ((∀ trade ∈ snapshot.trades, roundPlaces 18 trade.volume = trade.volume) ∧
      (∀ trade ∈ snapshot.trades, roundPlaces 18 trade.price = trade.price) ∧
      ∀ fees ∈ (distributedFees .default snapshot).toOption,
        ∀ fee ∈ fees, roundPlaces 18 fee = fee)
    ⟨fun h => ⟨h.1, h.2.1, fun fees hfees => h.2.2 fees (mem_toOption.mpr hfees)⟩,
      fun h => ⟨h.volume, h.price, fun fees hfees => h.shares fees (mem_toOption.mp hfees)⟩⟩

/-- A fill whose quantity, price and fee the columns hold exactly. -/
def ExactObserved (fill : ObservedFill) : Prop :=
  roundPlaces 18 fill.filledQuantity = fill.filledQuantity ∧
  roundPlaces 18 fill.fillPrice = fill.fillPrice ∧
  roundPlaces 18 (fill.feePaid.getD 0) = fill.feePaid.getD 0

/-- The fills of a snapshot are held exactly when its trades and fee shares are. -/
theorem exactSnapshot_iff (h : reconciliationFills .default snapshot = .ok fills) :
    (∀ fill ∈ fills, ExactObserved fill) ↔ ExactSnapshot snapshot := by
  have hall := forall_reconciliationFills (r := ExactObserved)
    (p := fun trade => roundPlaces 18 trade.volume = trade.volume ∧
      roundPlaces 18 trade.price = trade.price)
    (q := fun fee => roundPlaces 18 fee = fee) h
    fun trade _ fee index _ => and_assoc.symm
  rw [hall]
  constructor
  · rintro ⟨htrades, hshares⟩
    exact ⟨fun trade htrade => (htrades trade htrade).1,
      fun trade htrade => (htrades trade htrade).2, hshares⟩
  · intro hexact
    exact ⟨fun trade htrade => ⟨hexact.volume trade htrade, hexact.price trade htrade⟩,
      hexact.shares⟩

/-- A valid fill keeps the numbers of the argument. -/
theorem reconciliationFillPayload_exact {fill : ObservedFill} {payload : FillPayload}
    (h : reconciliationFillPayload fill = .ok payload) :
    StoredExactly payload ↔ ExactObserved fill := by
  unfold reconciliationFillPayload at h
  cases hside : sideOf fill.side with
  | error error =>
    simp only [hside] at h
    split_ifs at h
  | ok side =>
    simp only [hside] at h
    split_ifs at h
    obtain rfl := Except.ok.inj h
    exact ⟨fun hstored => ⟨hstored.quantity, hstored.price, hstored.fee⟩,
      fun hexact => ⟨hexact.1, hexact.2.1, hexact.2.2⟩⟩

/-- Where the record holds what the columns kept of the reported fills, the observation
contradicts it exactly when they did not keep one of them exactly. -/
theorem contradicts_stored_iff {existing : List OrderFill} {fills : List FillPayload}
    (hdistinct : (fills.map FillPayload.fillSequence).Nodup)
    (hfacts : existing.map recordedFacts = fills.map storedFacts) :
    Contradicts existing fills ↔ ¬ ∀ fill ∈ fills, StoredExactly fill := by
  have hcompatible : ∀ fill ∈ fills, Compatible existing fill ↔ StoredExactly fill := by
    intro fill hfill
    have hown : storedFacts fill ∈ existing.map recordedFacts := by
      rw [hfacts]
      exact mem_map_of_mem hfill
    obtain ⟨row, hrow, hstored⟩ := mem_map.mp hown
    have hsequence : row.fillSequence = fill.fillSequence := congrArg Prod.fst hstored
    rw [← storedFacts_eq_iff, ← hstored]
    constructor
    · exact fun h => h.same row hrow hsequence
    · intro hsame
      refine ⟨fun other hother hother_sequence => ?_, fun hnone => absurd hsequence (hnone row hrow)⟩
      -- the record of that sequence is the record of this very fill
      have hmem : recordedFacts other ∈ fills.map storedFacts := by
        rw [← hfacts]
        exact mem_map_of_mem hother
      obtain ⟨fill', hfill', heq⟩ := mem_map.mp hmem
      have hsequence' : fill'.fillSequence = fill.fillSequence :=
        (congrArg Prod.fst heq).trans hother_sequence
      obtain rfl := inj_on_of_nodup_map hdistinct hfill' hfill hsequence'
      rw [← heq, ← hstored, hsame]
  have hiff : Contradicts existing fills ↔ ∃ fill ∈ fills, ¬ Compatible existing fill := by
    simp [Contradicts, hdistinct]
  rw [hiff]
  push Not
  constructor
  · rintro ⟨fill, hfill, h⟩
    exact ⟨fill, hfill, mt (hcompatible fill hfill).mpr h⟩
  · rintro ⟨fill, hfill, h⟩
    exact ⟨fill, hfill, mt (hcompatible fill hfill).mp h⟩

/-- Marking the order changes nothing that the lock reads. -/
theorem lockedOrder?_markOrder (db : OrderDatabase) (now : Instant) (order : LockedOrder)
    (orderStatus : OrderStatus) (intentStatus : IntentStatus) (orderId : ℤ) :
    lockedOrder? (markOrder db now order orderStatus intentStatus) orderId =
      lockedOrder? db orderId := by
  have hfind : ∃ f : ExchangeOrder → ExchangeOrder,
      (∀ row, (f row).orderIntentId = row.orderIntentId) ∧
      (db.exchangeOrders.reconcile order.id orderStatus now).find orderId =
        (db.exchangeOrders.find orderId).map f := by
    refine ⟨fun row => if row.id = order.id then
      { row with status := orderStatus, reconciledAt := some now } else row, ?_, ?_⟩
    · intro row
      dsimp only
      split_ifs <;> rfl
    · rw [OrderTable.find, OrderTable.reconcile, List.find?_map]
      congr 2
      ext row
      simp only [Function.comp_apply]
      split_ifs <;> rfl
  have hintents : ∀ intentId, ∃ g : OrderIntent → OrderIntent,
      (∀ row, (g row).botInstanceId = row.botInstanceId ∧
        (g row).instrumentId = row.instrumentId) ∧
      setIntentStatus db.orderIntents order.orderIntentId intentStatus intentId =
        (db.orderIntents intentId).map g := by
    intro intentId
    unfold setIntentStatus
    split_ifs
    · exact ⟨fun row => { row with status := intentStatus }, fun _ => ⟨rfl, rfl⟩, rfl⟩
    · exact ⟨id, fun _ => ⟨rfl, rfl⟩, by simp⟩
  obtain ⟨f, hf, hfind⟩ := hfind
  simp only [lockedOrder?, markOrder, hfind]
  cases db.exchangeOrders.find orderId with
  | none => rfl
  | some exchange =>
    obtain ⟨g, hg, hintent⟩ := hintents exchange.orderIntentId
    simp only [Option.map_some, Option.bind_eq_bind, Option.bind_some, hf, hintent]
    cases db.orderIntents exchange.orderIntentId with
    | none => rfl
    | some intent => simp [(hg intent).1, (hg intent).2]

/-- Fills that are all on record change nothing. -/
theorem insertNewFills_known {order : LockedOrder} {existing : List OrderFill}
    {fills : List FillPayload} (state : InsertionState)
    (hknown : ∀ fill ∈ fills, ∃ row ∈ existing, row.fillSequence = fill.fillSequence) :
    insertNewFills ar order existing state fills = .ok state := by
  unfold insertNewFills
  induction fills with
  | nil => rfl
  | cons fill fills ih =>
    obtain ⟨row, hrow, hsequence⟩ := hknown fill (by simp)
    have hround : insertNewFill ar order existing state fill = .ok state :=
      if_pos (any_eq_true.mpr ⟨row, hrow, by simpa using hsequence⟩)
    rw [foldlM_cons, hround, ok_bind]
    exact ih fun other hother => hknown other (mem_cons_of_mem fill hother)

/-- A first run that succeeds on an order without fills leaves on record what the columns kept
of the reported ones, and the lock of the order as it was. -/
theorem applied_record (hempty : db.orderFills.ofOrder orderId = [])
    (hfresh : existingRun? db orderId request.key = none)
    (hok : reconcileExchangeOrderInConnection .default now db orderId request = .ok (run, db'))
    (hstatus : run.status = .succeeded) :
    (request.fillPayloads.map FillPayload.fillSequence).Nodup ∧
    request.nothingObserved = false ∧
    (db'.orderFills.ofOrder orderId).map recordedFacts = request.fillPayloads.map storedFacts ∧
    (∃ order, lockedOrder? db' orderId = some order) ∧
    ∀ key, key ≠ request.key → existingRun? db' orderId key = existingRun? db orderId key := by
  obtain ⟨order, horder⟩ : ∃ order, lockedOrder? db orderId = some order := by
    cases hlocked : lockedOrder? db orderId with
    | some order => exact ⟨order, rfl⟩
    | none =>
      simp [reconcileExchangeOrderInConnection, hfresh, lockedExchangeOrderForReconciliation,
        hlocked] at hok
  rcases reconcile_fresh .default now hfresh horder with
    ⟨-, hunknown⟩ | ⟨-, mismatch, hmismatch⟩ | ⟨hno, hobserved, hsuccess⟩
  · obtain ⟨rfl, rfl⟩ := Prod.mk.inj (Except.ok.inj (hok.symm.trans hunknown))
    cases hstatus
  · obtain ⟨rfl, rfl⟩ := Prod.mk.inj (Except.ok.inj (hok.symm.trans hmismatch))
    cases hstatus
  rw [hok] at hsuccess
  cases hinserted : insertNewFills .default order (db.orderFills.ofOrder orderId)
      (insertionStart db) request.fillPayloads with
  | error error => simp [hinserted, Except.map] at hsuccess
  | ok state =>
    rw [hinserted, Except.map] at hsuccess
    obtain ⟨rfl, rfl⟩ := Prod.mk.inj (Except.ok.inj hsuccess)
    obtain ⟨rows, hrows, hids, hfacts⟩ := insertNewFills_rows hinserted
    have hid : order.id = orderId := lockedOrder?_id horder
    have hdistinct : (request.fillPayloads.map FillPayload.fillSequence).Nodup := by
      by_contra hduplicate
      exact hno (Or.inl hduplicate)
    refine ⟨hdistinct, hobserved, ?_, ⟨order, ?_⟩, ?_⟩
    · have hrecord : state.orderFills.ofOrder orderId = rows := by
        have hown : rows.filter (fun row => row.exchangeOrderId = orderId) = rows :=
          filter_eq_self.mpr (by simpa [hid] using hids)
        have hbefore : db.orderFills.rows.filter
            (fun row => row.exchangeOrderId = orderId) = [] := hempty
        rw [FillTable.ofOrder, hrows, insertionStart, filter_append, hbefore, hown, nil_append]
      have hall : newFills (db.orderFills.ofOrder orderId) request.fillPayloads =
          request.fillPayloads := by
        simp [newFills, hempty]
      rw [hall] at hfacts
      rw [← hfacts, ← hrecord]
      rfl
    · exact (lockedOrder?_markOrder _ now order .reconciled .reconciled orderId).trans horder
    · intro key hkey
      have hother : ¬ (order.id = orderId ∧ request.key = key) := fun h => hkey h.2.symm
      simp [existingRun?, insertReconciliationRun, markOrder, reconciliationRun, hother]

/-- The second run under a key of its own succeeds without a change where the columns kept
every fill exactly, and is a mismatch otherwise. -/
theorem reconcile_again {now' : Instant} {request' : RunRequest}
    (hempty : db.orderFills.ofOrder orderId = [])
    (hfresh : existingRun? db orderId request.key = none)
    (hok : reconcileExchangeOrderInConnection .default now db orderId request = .ok (run, db'))
    (hstatus : run.status = .succeeded) (hkey : request'.key ≠ request.key)
    (hfresh' : existingRun? db orderId request'.key = none)
    (hfills : request'.fillPayloads = request.fillPayloads)
    (hobserved : request'.observed = request.observed) :
    (∃ run' db'', reconcileExchangeOrderInConnection .default now' db' orderId request' =
        .ok (run', db'') ∧ run'.status = .succeeded ∧ db''.orderFills = db'.orderFills ∧
        db''.positionProjections = db'.positionProjections) ↔
      ∀ fill ∈ request.fillPayloads, StoredExactly fill := by
  obtain ⟨hdistinct, hsomething, hrecord, ⟨order, horder⟩, hruns⟩ :=
    applied_record hempty hfresh hok hstatus
  have hnothing : request'.nothingObserved = false := by
    rw [RunRequest.nothingObserved, hfills, hobserved]
    exact hsomething
  have hcontradicts := contradicts_stored_iff hdistinct hrecord
  rcases reconcile_fresh .default now' ((hruns _ hkey).trans hfresh') horder with
    ⟨hunknown, -⟩ | ⟨hmismatch, mismatch, hok'⟩ | ⟨hno, -, hok'⟩
  · rw [hnothing] at hunknown
    cases hunknown
  · rw [hfills] at hmismatch
    refine iff_of_false ?_ (hcontradicts.mp hmismatch)
    rintro ⟨run', db'', heq, hstatus', -⟩
    obtain ⟨rfl, rfl⟩ := Prod.mk.inj (Except.ok.inj (heq.symm.trans hok'))
    cases hstatus'
  · rw [hfills] at hno hok'
    refine iff_of_true ?_ (by simpa using mt hcontradicts.mpr hno)
    have hknown : insertNewFills .default order (db'.orderFills.ofOrder orderId)
        (insertionStart db') request.fillPayloads = .ok (insertionStart db') := by
      refine insertNewFills_known _ fun fill hfill => ?_
      have hmem : storedFacts fill ∈ (db'.orderFills.ofOrder orderId).map recordedFacts := by
        rw [hrecord]
        exact mem_map_of_mem hfill
      obtain ⟨row, hrow, hstored⟩ := mem_map.mp hmem
      exact ⟨row, hrow, congrArg Prod.fst hstored⟩
    rw [hknown, Except.map] at hok'
    exact ⟨_, _, hok', rfl, rfl, rfl⟩

/-- The fills of a built request are those of the snapshot. -/
theorem buildRequest_fills {rest : RestReconciliationRequest}
    (h : buildUpbitRestReconciliationRequest ar snapshot = .ok rest) :
    ∃ fills, reconciliationFills ar snapshot = .ok fills ∧ rest.fills = fills := by
  unfold buildUpbitRestReconciliationRequest at h
  dsimp only at h
  obtain ⟨-, h⟩ := guard_eq_ok.mp h
  obtain ⟨fills, hfills, h⟩ := bind_eq_ok.mp h
  obtain rfl := pure_eq_ok.mp h
  exact ⟨fills, hfills, rfl⟩

/-- What a successful application under a key did: the request it made and its
reconciliation. -/
theorem apply_eq_ok {payload : RestOrderPayload} {knowledgeAt : Instant} {endpoint : String}
    (hparse : parseUpbitRestOrderSnapshot payload knowledgeAt endpoint = .ok snapshot) (h :
      applyUpbitRestOrderSnapshot .default hash now db orderId runKey actorId reason payload
      knowledgeAt endpoint = .ok (.reconciled run, db')) :
    (planUpbitRestSnapshotReconciliation snapshot).ledgerAction ≠ .observeOnly ∧
    ∃ rest request, buildUpbitRestReconciliationRequest .default snapshot = .ok rest ∧
      reconciliationRequest hash orderId runKey actorId reason rest.observedStatus.text
        rest.fills rest.evidence = .ok request ∧
      reconcileExchangeOrderInConnection .default now db orderId request = .ok (run, db') := by
  unfold applyUpbitRestOrderSnapshot at h
  rw [hparse, ok_bind] at h
  dsimp only at h
  split_ifs at h with hplan
  · obtain ⟨happlication, -⟩ := Prod.mk.inj (pure_eq_ok.mp h)
    cases happlication
  · obtain ⟨rest, hrest, h⟩ := bind_eq_ok.mp h
    obtain ⟨⟨run', db''⟩, hreconcile, h⟩ := bind_eq_ok.mp h
    obtain ⟨happlication, rfl⟩ := Prod.mk.inj (pure_eq_ok.mp h)
    obtain rfl := SnapshotApplication.reconciled.inj happlication
    obtain ⟨request, hrequest, hrun⟩ := bind_eq_ok.mp hreconcile
    exact ⟨hplan, rest, request, hrest, hrequest, hrun⟩

/-- The parts of a validated request. -/
theorem reconciliationRequest_eq_ok (h : reconciliationRequest hash orderId runKey actorId reason
      status fills evidence = .ok request) : nonBlank runKey "runKey" = .ok request.key ∧
    nonBlank actorId "actorId" = .ok request.actor ∧
    nonBlank reason "reason" = .ok request.runReason ∧
    observedReconciliationStatus status = .ok request.observed ∧
    ∃ payloads, fills.mapM reconciliationFillPayload = .ok payloads ∧
      request.fillPayloads = sortedBy FillPayload.fillSequence payloads := by
  obtain ⟨key, hkey, h⟩ := bind_eq_ok.mp h
  obtain ⟨actor, hactor, h⟩ := bind_eq_ok.mp h
  obtain ⟨runReason, hreason, h⟩ := bind_eq_ok.mp h
  obtain ⟨observed, hobserved, h⟩ := bind_eq_ok.mp h
  obtain ⟨payloads, hpayloads, h⟩ := bind_eq_ok.mp h
  obtain rfl := pure_eq_ok.mp h
  exact ⟨hkey, hactor, hreason, hobserved, payloads, hpayloads, rfl⟩

/-- The same arguments with another valid run key make a request of the same fills. -/
theorem reconciliationRequest_rekey {runKey' : String} (h : reconciliationRequest hash orderId
      runKey actorId reason status fills evidence = .ok request) (hkey : strip runKey' ≠ "") :
    ∃ request', reconciliationRequest hash orderId runKey' actorId reason status fills evidence =
        .ok request' ∧ request'.key = strip runKey' ∧
      request'.fillPayloads = request.fillPayloads ∧ request'.observed = request.observed := by
  obtain ⟨-, hactor, hreason, hobserved, payloads, hpayloads, hsorted⟩ :=
    reconciliationRequest_eq_ok h
  have hkey' : nonBlank runKey' "runKey" = .ok (strip runKey') := if_neg hkey
  refine ⟨runRequest hash orderId (strip runKey') request.actor request.runReason
    request.observed request.fillPayloads evidence, ?_, rfl, rfl, rfl⟩
  unfold reconciliationRequest
  rw [hkey', hactor, hreason, hobserved, hpayloads, hsorted]
  rfl

/-- The fills of a validated request are held exactly when the arguments are. -/
theorem request_exact_iff (h : reconciliationRequest hash orderId runKey actorId reason status fills
      evidence = .ok request) :
    (∀ fill ∈ request.fillPayloads, StoredExactly fill) ↔ ∀ fill ∈ fills, ExactObserved fill := by
  obtain ⟨-, -, -, -, payloads, hpayloads, hsorted⟩ := reconciliationRequest_eq_ok h
  obtain ⟨hback, hforth⟩ := mem_of_mapM_eq_ok hpayloads
  simp only [hsorted, mem_sortedBy]
  constructor
  · intro hall fill hfill
    obtain ⟨payload, hpayload, hok⟩ := hforth fill hfill
    exact (reconciliationFillPayload_exact hok).mp (hall payload hpayload)
  · intro hall payload hpayload
    obtain ⟨fill, hfill, hok⟩ := hback payload hpayload
    exact (reconciliationFillPayload_exact hok).mpr (hall fill hfill)

/-- A snapshot that was applied to an order without fills, and succeeded, is applied under a
new key without any change exactly when the columns hold its trades and fee shares exactly.
SOURCE: upbit_rest_reconciliation.py:196-310, portfolio_bot_store.py:556-647 -/
theorem reapply_idempotent_iff (hash : CanonicalValue → String) (now now' : Instant)
    (db db' : OrderDatabase) (orderId : ℤ) (runKey runKey' actorId reason : String)
    (payload : RestOrderPayload) (knowledgeAt : Instant) (endpoint : String)
    (snapshot : UpbitRestOrderSnapshot)
    (hparse : parseUpbitRestOrderSnapshot payload knowledgeAt endpoint = .ok snapshot)
    (hempty : db.orderFills.ofOrder orderId = [])
    (hfresh : existingRun? db orderId (strip runKey) = none)
    (hkey : strip runKey' ≠ "") (hdifferent : strip runKey' ≠ strip runKey)
    (hfresh' : existingRun? db orderId (strip runKey') = none) (run : ReconciliationRun)
    (hfirst : applyUpbitRestOrderSnapshot .default hash now db orderId runKey actorId reason
      payload knowledgeAt endpoint = .ok (.reconciled run, db'))
    (hsucceeded : run.status = .succeeded) :
    (∃ run' db'', applyUpbitRestOrderSnapshot .default hash now' db' orderId runKey' actorId
        reason payload knowledgeAt endpoint = .ok (.reconciled run', db'') ∧
        run'.status = .succeeded ∧ db''.orderFills = db'.orderFills ∧
        db''.positionProjections = db'.positionProjections) ↔ ExactSnapshot snapshot := by
  obtain ⟨hplan, rest, request, hrest, hrequest, hrun⟩ := apply_eq_ok hparse hfirst
  obtain ⟨request', hrequest', hkey', hfills, hobserved⟩ :=
    reconciliationRequest_rekey hrequest hkey
  have hown : request.key = strip runKey := by
    have hnonblank := (reconciliationRequest_eq_ok hrequest).1
    unfold nonBlank at hnonblank
    split_ifs at hnonblank
    exact (Except.ok.inj hnonblank).symm
  -- the second application is the reconciliation of the second request
  have hsecond : ∀ run' db'', applyUpbitRestOrderSnapshot .default hash now' db' orderId runKey'
        actorId reason payload knowledgeAt endpoint = .ok (.reconciled run', db'') ↔
      reconcileExchangeOrderInConnection .default now' db' orderId request' =
        .ok (run', db'') := by
    intro run' db''
    constructor
    · intro h
      obtain ⟨-, rest', request'', hrest', hrequest'', hrun'⟩ := apply_eq_ok hparse h
      obtain rfl := Except.ok.inj (hrest.symm.trans hrest')
      obtain rfl := Except.ok.inj (hrequest'.symm.trans hrequest'')
      exact hrun'
    · intro h
      unfold applyUpbitRestOrderSnapshot
      simp [hparse, hplan, hrest, reconcileExchangeOrder, hrequest', h, pure, Except.pure]
  simp only [hsecond]
  rw [reconcile_again hempty (hown ▸ hfresh) hrun hsucceeded (by rw [hkey', hown]; exact hdifferent)
    (hkey' ▸ hfresh') hfills hobserved, request_exact_iff hrequest]
  obtain ⟨fills, hbuilt, hrestfills⟩ := buildRequest_fills hrest
  rw [hrestfills]
  exact exactSnapshot_iff hbuilt

/-- A finished order with two trades, of funds 1 and 2. -/
def twoTradesPayload (paidFee : ℚ) : RestOrderPayload where
  market := some "KRW-BTC"
  uuid := some "order"
  side := some "bid"
  state := some "done"
  createdAt := some 0
  executedVolume := some 3
  paidFee := some paidFee
  tradesCount := some 2
  trades := some [
    { uuid := some "a", price := some 1, volume := some 1, funds := some 1 },
    { uuid := some "b", price := some 1, volume := some 2, funds := some 2 }]

/-- One application of the payload to the order of `oneOrderDatabase`. -/
def applyTwoTrades (paidFee : ℚ) (db : OrderDatabase) (runKey : String) :
    Except StoreError (SnapshotApplication × OrderDatabase) :=
  applyUpbitRestOrderSnapshot .default (fun _ => "hash") 0 db 1 runKey "actor" "reason"
    (twoTradesPayload paidFee) 0 "GET /v1/order"

/-- The status of the run of an application. -/
def applicationStatus : SnapshotApplication → Option RunStatus
  | .observed _ _ _ => none
  | .reconciled run => some run.status

/-- An application of known status has a run of that status. -/
theorem exists_run_of_status {outcome : Except StoreError (SnapshotApplication × OrderDatabase)}
    {status : RunStatus}
    (h : (outcome.toOption.bind fun result => applicationStatus result.1) = some status) :
    ∃ run db', outcome = .ok (.reconciled run, db') ∧ run.status = status := by
  cases outcome with
  | error error => simp [Except.toOption] at h
  | ok result =>
    obtain ⟨application, db'⟩ := result
    cases application with
    | observed id status endpoint => simp [Except.toOption, applicationStatus] at h
    | reconciled run =>
      exact ⟨run, db', rfl, by simpa [Except.toOption, applicationStatus] using h⟩

/-- A fee of 3 is shared out as 1 and 2, and the second application changes nothing. -/
theorem reapply_idempotent_even_fee :
    ∃ run db', applyTwoTrades 3 (oneOrderDatabase ⟨[], 1, by decide⟩) "first" =
        .ok (.reconciled run, db') ∧
      ∃ run' db'', applyTwoTrades 3 db' "second" = .ok (.reconciled run', db'') ∧
        run'.status = .succeeded ∧ db''.orderFills = db'.orderFills ∧
        db''.positionProjections = db'.positionProjections := by
  have hsucceeded : (applyTwoTrades 3 (oneOrderDatabase ⟨[], 1, by decide⟩)
      "first").toOption.bind (fun result => applicationStatus result.1) = some .succeeded := by
    decide +kernel
  obtain ⟨run, db', hfirst, hstatus⟩ := exists_run_of_status hsucceeded
  obtain ⟨snapshot, hparse⟩ := exists_ok_of_isOk
    (x := parseUpbitRestOrderSnapshot (twoTradesPayload 3) 0 "GET /v1/order") (by decide +kernel)
  refine ⟨run, db', hfirst, (reapply_idempotent_iff (fun _ => "hash") 0 0
    (oneOrderDatabase ⟨[], 1, by decide⟩) db' 1 "first" "second" "actor" "reason"
    (twoTradesPayload 3) 0 "GET /v1/order" snapshot hparse (by decide +kernel) (by decide +kernel)
    (by decide +kernel) (by decide +kernel) (by decide +kernel) run hfirst hstatus).mpr ?_⟩
  have hexact : ((parseUpbitRestOrderSnapshot (twoTradesPayload 3) 0 "GET /v1/order").toOption.all
      fun snapshot => decide (ExactSnapshot snapshot)) = true := by decide +kernel
  rw [hparse] at hexact
  exact of_decide_eq_true hexact

/-- A fee of 1 is shared out as a third and two thirds, which the fee column rounds: the first
application succeeds and the second is a mismatch. -/
theorem reapply_third_fee_mismatch :
    ∃ run db', applyTwoTrades 1 (oneOrderDatabase ⟨[], 1, by decide⟩) "first" =
        .ok (.reconciled run, db') ∧ run.status = .succeeded ∧
      ∃ run' db'', applyTwoTrades 1 db' "second" = .ok (.reconciled run', db'') ∧
        run'.status = .mismatch := by
  have hsucceeded : (applyTwoTrades 1 (oneOrderDatabase ⟨[], 1, by decide⟩)
      "first").toOption.bind (fun result => applicationStatus result.1) = some .succeeded := by
    decide +kernel
  obtain ⟨run, db', hfirst, hstatus⟩ := exists_run_of_status hsucceeded
  refine ⟨run, db', hfirst, hstatus, exists_run_of_status ?_⟩
  have hboth : ((applyTwoTrades 1 (oneOrderDatabase ⟨[], 1, by decide⟩) "first" >>= fun result =>
      applyTwoTrades 1 result.2 "second").toOption.bind fun result =>
        applicationStatus result.1) = some .mismatch := by decide +kernel
  rwa [hfirst] at hboth

end Goodmoneying.Analysis
