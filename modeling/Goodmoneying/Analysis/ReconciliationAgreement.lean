import Goodmoneying.Program.Reconciliation

/-!
# Agreement of the ledger with an observation

A reconciliation under a new run key has three outcomes (`reconcile_fresh`): the exchange knows
nothing of the order and reports no fill; the observation contradicts the record (`Contradicts`,
`findMismatch_eq_none_iff`); or the new fills are inserted, each as its columns keep it
(`insertNewFills_rows`). The outcome is right exactly when a contradiction was found, or the
exchange reports every fill on record and the columns hold every new one exactly
(`reconcile_agrees_iff`).
-/

namespace Goodmoneying.Analysis

open List Library Program

variable {fill : FillPayload} {existing : List OrderFill} {orderId : ℤ} {fills : List FillPayload}
  {order : LockedOrder} {db : OrderDatabase}
variable {row : OrderFill} {state state' : InsertionState} {request : RunRequest}

/-- What is compared of a fill: its sequence, side, quantity, price and fee. -/
abbrev FillFacts := ℤ × Side × ℚ × ℚ × ℚ

/-- The facts of a fill on record. -/
def recordedFacts (row : OrderFill) : FillFacts :=
  (row.fillSequence, row.side, row.filledQuantity, row.fillPrice, row.feePaid)

/-- The facts of a reported fill. -/
def observedFacts (fill : FillPayload) : FillFacts :=
  (fill.fillSequence, fill.side, fill.filledQuantity, fill.fillPrice, fill.feePaid)

/-- The facts the columns keep of a reported fill. -/
def storedFacts (fill : FillPayload) : FillFacts :=
  (fill.fillSequence, fill.side, roundPlaces 18 fill.filledQuantity,
    roundPlaces 18 fill.fillPrice, roundPlaces 18 fill.feePaid)

/-- The columns hold the fill exactly. -/
structure StoredExactly (fill : FillPayload) : Prop where
  quantity : roundPlaces 18 fill.filledQuantity = fill.filledQuantity
  price : roundPlaces 18 fill.fillPrice = fill.fillPrice
  fee : roundPlaces 18 fill.feePaid = fill.feePaid

/-- The stored facts are the reported ones exactly when the columns hold the fill exactly. -/
theorem storedFacts_eq_iff : storedFacts fill = observedFacts fill ↔ StoredExactly fill := by
  constructor
  · intro h
    simp only [storedFacts, observedFacts, Prod.mk.injEq, true_and] at h
    exact ⟨h.1, h.2.1, h.2.2⟩
  · intro h
    simp [storedFacts, observedFacts, h.quantity, h.price, h.fee]

theorem sameFill_iff (h : row.fillSequence = fill.fillSequence) :
    sameFill row fill = true ↔ recordedFacts row = observedFacts fill := by
  simp [sameFill, recordedFacts, observedFacts, h]

/-- The sequences on record of one order are distinct. -/
theorem ofOrder_nodup (table : FillTable) (orderId : ℤ) :
    ((table.ofOrder orderId).map OrderFill.fillSequence).Nodup := by
  have hkeys : ((table.ofOrder orderId).map OrderFill.uniqueKey).Nodup :=
    table.unique.sublist (filter_sublist.map _)
  refine (nodup_map_iff_inj_on (List.Nodup.of_map _ hkeys)).mpr ?_
  intro a ha b hb hab
  refine inj_on_of_nodup_map hkeys ha hb ?_
  have ha' := (mem_filter.mp ha).2
  have hb' := (mem_filter.mp hb).2
  simp only [decide_eq_true_eq] at ha' hb'
  simp [OrderFill.uniqueKey, ha', hb', hab]

/-- The reported fill goes with the fills on record: one of its sequence is the same, and
a new one comes after all of them. -/
structure Compatible (existing : List OrderFill) (fill : FillPayload) : Prop where
  same : ∀ row ∈ existing, row.fillSequence = fill.fillSequence →
    recordedFacts row = observedFacts fill
  after : (∀ row ∈ existing, row.fillSequence ≠ fill.fillSequence) →
    ∀ row ∈ existing, row.fillSequence ≤ fill.fillSequence

/-- The observation contradicts the record: it reports a sequence twice, or a fill that does
not go with those on record. -/
def Contradicts (existing : List OrderFill) (fills : List FillPayload) : Prop :=
  ¬ (fills.map FillPayload.fillSequence).Nodup ∨ ∃ fill ∈ fills, ¬ Compatible existing fill

/-- The comparison loop passes exactly when no sequence comes twice and every fill goes with
those on record. -/
theorem findMismatch_eq_none_iff_seen (hnodup : (existing.map OrderFill.fillSequence).Nodup)
    (seen : List ℤ) (fills : List FillPayload) :
    findMismatch existing seen fills = none ↔
      (fills.map FillPayload.fillSequence).Nodup ∧
      ∀ fill ∈ fills, fill.fillSequence ∉ seen ∧ Compatible existing fill := by
  induction fills generalizing seen with
  | nil => simp [findMismatch]
  | cons fill fills ih =>
    rw [findMismatch, map_cons, nodup_cons]
    by_cases hseen : fill.fillSequence ∈ seen
    · simp [hseen]
    -- once this fill is compatible, the rest of the loop decides
    have hrest : Compatible existing fill →
        (findMismatch existing (fill.fillSequence :: seen) fills = none ↔
          (fill.fillSequence ∉ fills.map FillPayload.fillSequence ∧
            (fills.map FillPayload.fillSequence).Nodup) ∧
          ∀ other ∈ fill :: fills, other.fillSequence ∉ seen ∧ Compatible existing other) := by
      intro hcompatible
      rw [ih]
      simp only [mem_cons, not_or, mem_map, not_exists, not_and, forall_eq_or_imp]
      constructor
      · rintro ⟨hdistinct, hall⟩
        exact ⟨⟨fun other hother => (hall other hother).1.1, hdistinct⟩, ⟨hseen, hcompatible⟩,
          fun other hother => ⟨(hall other hother).1.2, (hall other hother).2⟩⟩
      · rintro ⟨⟨hnew, hdistinct⟩, -, hall⟩
        exact ⟨hdistinct, fun other hother =>
          ⟨⟨hnew other hother, (hall other hother).1⟩, (hall other hother).2⟩⟩
    rw [if_neg hseen]
    cases hfind : existing.find? fun row => row.fillSequence = fill.fillSequence with
    | some row =>
      have hrow := mem_of_find?_eq_some hfind
      have hsequence : row.fillSequence = fill.fillSequence := by
        simpa using List.find?_some hfind
      have hiff : Compatible existing fill ↔ sameFill row fill = true := by
        rw [sameFill_iff hsequence]
        constructor
        · exact fun h => h.same row hrow hsequence
        · intro hfacts
          refine ⟨fun other hother heq => ?_, fun hnone => absurd hsequence (hnone row hrow)⟩
          rw [inj_on_of_nodup_map hnodup hother hrow (heq.trans hsequence.symm), hfacts]
      by_cases hsame : sameFill row fill = true
      · simpa [hsame] using hrest (hiff.mpr hsame)
      · simp only [hsame, if_false, reduceCtorEq, Bool.false_eq_true, false_iff, not_and]
        exact fun _ hall => hsame (hiff.mp (hall fill (by simp)).2)
    | none =>
      have hnew : ∀ row ∈ existing, row.fillSequence ≠ fill.fillSequence := by
        simpa using hfind
      by_cases hlate : existing.any fun row => row.fillSequence > fill.fillSequence
      · simp only [hlate, if_true, reduceCtorEq, false_iff, not_and]
        intro _ hall
        obtain ⟨row, hrow, hgt⟩ := any_eq_true.mp hlate
        simp only [gt_iff_lt, decide_eq_true_eq] at hgt
        exact absurd ((hall fill (by simp)).2.after hnew row hrow) (not_le.mpr hgt)
      · have hcompatible : Compatible existing fill := by
          refine ⟨fun row hrow heq => absurd heq (hnew row hrow), fun _ row hrow => ?_⟩
          by_contra hgt
          exact hlate (any_eq_true.mpr ⟨row, hrow, by simpa using hgt⟩)
        simpa [hlate] using hrest hcompatible

/-- The comparison finds a mismatch exactly when the observation contradicts the record.
SOURCE: portfolio_bot_store.py:568-591 -/
theorem findMismatch_eq_none_iff (hnodup : (existing.map OrderFill.fillSequence).Nodup)
    (fills : List FillPayload) :
    findMismatch existing [] fills = none ↔ ¬ Contradicts existing fills := by
  rw [findMismatch_eq_none_iff_seen hnodup, Contradicts]
  simp

/-- What a column keeps is the number at 18 decimals. -/
theorem store_eq_ok {value kept : ℚ} (h : Arithmetic.default.store value = .ok kept) :
    kept = roundPlaces 18 value := by
  unfold Arithmetic.store at h
  cases hcolumn : Arithmetic.default.column value with
  | none => simp [hcolumn] at h
  | some stored =>
    rw [hcolumn] at h
    exact Except.ok.inj h ▸ numericColumn_eq_some hcolumn

/-- An inserted row belongs to its order and has the facts the columns keep. -/
theorem reconciliationRow_facts {id : ℤ}
    (h : (reconciliationFillValues orderId fill).row .default id = .ok row) :
    row.exchangeOrderId = orderId ∧ row.id = id ∧ recordedFacts row = storedFacts fill := by
  obtain ⟨hid, horder, hsequence, -, hside, hquantity, hprice, hfee⟩ := FillValues.row_eq_ok h
  refine ⟨horder, hid, ?_⟩
  simp [recordedFacts, storedFacts, hsequence, hside, store_eq_ok hquantity, store_eq_ok hprice,
    store_eq_ok hfee, reconciliationFillValues]

/-- The reported fills whose sequence is not on record. -/
def newFills (existing : List OrderFill) (fills : List FillPayload) : List FillPayload :=
  fills.filter fun fill => existing.all fun row => row.fillSequence ≠ fill.fillSequence

theorem mem_newFills : fill ∈ newFills existing fills ↔
      fill ∈ fills ∧ ∀ row ∈ existing, row.fillSequence ≠ fill.fillSequence := by
  simp [newFills]

/-- One round inserts a new fill, and leaves everything for one on record. -/
theorem insertNewFill_rows (h : insertNewFill .default order existing state fill = .ok state') :
    (∃ row ∈ existing, row.fillSequence = fill.fillSequence) ∧ state' = state ∨
    (∀ row ∈ existing, row.fillSequence ≠ fill.fillSequence) ∧
      ∃ row, state'.orderFills.rows = state.orderFills.rows ++ [row] ∧
        row.exchangeOrderId = order.id ∧ recordedFacts row = storedFacts fill := by
  unfold insertNewFill at h
  split_ifs at h with hknown
  · exact Or.inl ⟨by simpa using hknown, (Except.ok.inj h).symm⟩
  · right
    obtain ⟨⟨row, table⟩, hinsert, h⟩ := bind_eq_ok.mp h
    obtain ⟨positions, -, h⟩ := bind_eq_ok.mp h
    obtain rfl := pure_eq_ok.mp h
    obtain ⟨hrow, hrows, -⟩ := FillTable.insert_eq_ok hinsert
    obtain ⟨horder, -, hfacts⟩ := reconciliationRow_facts hrow
    exact ⟨by simpa using hknown, row, hrows, horder, hfacts⟩

/-- The loop appends one row for each new fill, as the columns keep it.
SOURCE: portfolio_bot_store.py:613-647 -/
theorem insertNewFills_rows (h : insertNewFills .default order existing state fills = .ok state') :
    ∃ rows, state'.orderFills.rows = state.orderFills.rows ++ rows ∧
      (∀ row ∈ rows, row.exchangeOrderId = order.id) ∧
      rows.map recordedFacts = (newFills existing fills).map storedFacts := by
  unfold insertNewFills at h
  induction fills generalizing state with
  | nil =>
    obtain rfl := pure_eq_ok.mp h
    exact ⟨[], by simp [newFills]⟩
  | cons fill fills ih =>
    rw [foldlM_cons] at h
    obtain ⟨next, hround, h⟩ := bind_eq_ok.mp h
    obtain ⟨rows, hrows, horder, hfacts⟩ := ih h
    rcases insertNewFill_rows hround with ⟨⟨row, hrow, hsequence⟩, rfl⟩ |
        ⟨hnew, row, happend, hid, hrow⟩
    · refine ⟨rows, hrows, horder, ?_⟩
      rw [hfacts, newFills, newFills, filter_cons_of_neg]
      simpa using ⟨row, hrow, hsequence⟩
    · refine ⟨row :: rows, ?_, ?_, ?_⟩
      · rw [hrows, happend, append_assoc, singleton_append]
      · simpa [hid] using horder
      · rw [map_cons, hrow, hfacts, newFills, newFills, filter_cons_of_pos, map_cons]
        simpa using hnew

/-- The locked row is the row of the order asked for. -/
theorem lockedOrder?_id (h : lockedOrder? db orderId = some order) : order.id = orderId := by
  simp only [lockedOrder?, Option.bind_eq_bind, Option.bind_eq_some_iff, Option.pure_def,
    Option.some.injEq] at h
  obtain ⟨_, _, _, _, _, _, rfl⟩ := h
  rfl

/-- The ledger of the order is the same in both databases: its fills, the orders, the intents
and the positions. -/
structure SameLedger (db db' : OrderDatabase) : Prop where
  fills : db'.orderFills = db.orderFills
  orders : db'.exchangeOrders = db.exchangeOrders
  intents : db'.orderIntents = db.orderIntents
  positions : db'.positionProjections = db.positionProjections

/-- A risk event is recorded beside the ledger. -/
theorem insertReconciliationRiskEvent_sameLedger (db : OrderDatabase) (order : LockedOrder)
    (run : ReconciliationRun) (eventType severity message : String) :
    SameLedger db (insertReconciliationRiskEvent db order run eventType severity message) := by
  unfold insertReconciliationRiskEvent
  dsimp only
  split_ifs <;> exact ⟨rfl, rfl, rfl, rfl⟩

/-- A mismatch changes nothing in the ledger. -/
theorem recordMismatch_sameLedger (db : OrderDatabase) (now : Instant) (order : LockedOrder)
    (request : RunRequest) (mismatch : List (String × CanonicalValue)) :
    SameLedger db (recordMismatch db now order request mismatch).2 := by
  have hevent := insertReconciliationRiskEvent_sameLedger
    (insertReconciliationRun db (recordMismatch db now order request mismatch).1) order
    (recordMismatch db now order request mismatch).1 "reconciliation_mismatch" "critical"
    "대사 결과 기존 체결과 관측 체결이 불일치한다."
  exact ⟨hevent.fills, hevent.orders, hevent.intents, hevent.positions⟩

/-- A reconciliation under a new key has one of three outcomes: unknown, a mismatch, or a
success after the insertion loop.
SOURCE: portfolio_bot_store.py:519-673 -/
theorem reconcile_fresh (ar : Arithmetic) (now : Instant)
    (hfresh : existingRun? db orderId request.key = none)
    (horder : lockedOrder? db orderId = some order) :
    (request.nothingObserved = true ∧
      reconcileExchangeOrderInConnection ar now db orderId request =
        .ok (recordOutcomeUnknown db now order request)) ∨
    (Contradicts (db.orderFills.ofOrder orderId) request.fillPayloads ∧ ∃ mismatch,
      reconcileExchangeOrderInConnection ar now db orderId request =
        .ok (recordMismatch db now order request mismatch)) ∨
    (¬ Contradicts (db.orderFills.ofOrder orderId) request.fillPayloads ∧
      request.nothingObserved = false ∧
      reconcileExchangeOrderInConnection ar now db orderId request =
        (insertNewFills ar order (db.orderFills.ofOrder orderId) (insertionStart db)
          request.fillPayloads).map (recordSucceeded db now order request)) := by
  have hlocked : lockedExchangeOrderForReconciliation db orderId = .ok order := by
    simp [lockedExchangeOrderForReconciliation, horder]
  unfold reconcileExchangeOrderInConnection
  simp only [hfresh, hlocked, ok_bind]
  cases hnothing : request.nothingObserved with
  | true => exact Or.inl ⟨rfl, rfl⟩
  | false =>
    right
    have hiff := findMismatch_eq_none_iff (ofOrder_nodup db.orderFills orderId)
      request.fillPayloads
    cases hmismatch : findMismatch (db.orderFills.ofOrder orderId) [] request.fillPayloads with
    | some mismatch =>
      have hcontradicts : Contradicts (db.orderFills.ofOrder orderId) request.fillPayloads := by
        by_contra hno
        simp [hiff.mpr hno] at hmismatch
      exact Or.inl ⟨hcontradicts, mismatch, rfl⟩
    | none => exact Or.inr ⟨hiff.mp hmismatch, rfl, rfl⟩

/-- The facts on record of an order. -/
def recorded (db : OrderDatabase) (orderId : ℤ) : Set FillFacts :=
  {facts | ∃ row ∈ db.orderFills.ofOrder orderId, recordedFacts row = facts}

/-- The facts the exchange reports. -/
def observed (fills : List FillPayload) : Set FillFacts :=
  {facts | ∃ fill ∈ fills, observedFacts fill = facts}

/-- Every sequence on record is reported. -/
def AllReported (existing : List OrderFill) (fills : List FillPayload) : Prop :=
  ∀ row ∈ existing, ∃ fill ∈ fills, fill.fillSequence = row.fillSequence

/-- The record and the observation differ: a reported fill contradicts the one on record, or
one on record is not reported. -/
def Differs (existing : List OrderFill) (fills : List FillPayload) : Prop :=
  (∃ fill ∈ fills, ∃ row ∈ existing, row.fillSequence = fill.fillSequence ∧
    recordedFacts row ≠ observedFacts fill) ∨ ¬ AllReported existing fills

/-- The reconciliation ends as it should: a success leaves exactly the observed fills on
record, a difference is a mismatch, and a mismatch changes nothing in the ledger. -/
def Agrees (db : OrderDatabase) (orderId : ℤ) (request : RunRequest)
    (outcome : Except StoreError (ReconciliationRun × OrderDatabase)) : Prop :=
  ∃ run db', outcome = .ok (run, db') ∧
    (run.status = .succeeded → recorded db' orderId = observed request.fillPayloads) ∧
    (Differs (db.orderFills.ofOrder orderId) request.fillPayloads → run.status = .mismatch) ∧
    (run.status = .mismatch → SameLedger db db')

/-- What the agreement says of a reconciliation that returns. -/
theorem agrees_ok_iff {result : ReconciliationRun × OrderDatabase} :
    Agrees db orderId request (.ok result) ↔
      (result.1.status = .succeeded →
        recorded result.2 orderId = observed request.fillPayloads) ∧
      (Differs (db.orderFills.ofOrder orderId) request.fillPayloads →
        result.1.status = .mismatch) ∧
      (result.1.status = .mismatch → SameLedger db result.2) := by
  constructor
  · rintro ⟨run, db', heq, h⟩
    rw [Except.ok.inj heq]
    exact h
  · intro h
    exact ⟨result.1, result.2, rfl, h⟩

/-- Where no fill contradicts the record, what a success leaves on record is the observation
exactly when everything on record is reported and every new fill is held exactly. -/
theorem recorded_eq_observed_iff {db' : OrderDatabase} {rows : List OrderFill}
    (hno : ¬ Contradicts (db.orderFills.ofOrder orderId) fills)
    (hrows : db'.orderFills.rows = db.orderFills.rows ++ rows)
    (horder : ∀ row ∈ rows, row.exchangeOrderId = orderId) (hfacts : rows.map recordedFacts =
      (newFills (db.orderFills.ofOrder orderId) fills).map storedFacts) :
    recorded db' orderId = observed fills ↔ AllReported (db.orderFills.ofOrder orderId) fills ∧
      ∀ fill ∈ newFills (db.orderFills.ofOrder orderId) fills, StoredExactly fill := by
  simp only [Contradicts, not_or, not_not, not_exists, not_and] at hno
  obtain ⟨hdistinct, hcompatible⟩ := hno
  have hafter : db'.orderFills.ofOrder orderId = db.orderFills.ofOrder orderId ++ rows := by
    have hrows' : rows.filter (fun row => row.exchangeOrderId = orderId) = rows :=
      filter_eq_self.mpr (by simpa using horder)
    rw [FillTable.ofOrder, hrows, filter_append, hrows', FillTable.ofOrder]
  have hrecorded : ∀ facts, facts ∈ recorded db' orderId ↔
      (∃ row ∈ db.orderFills.ofOrder orderId, recordedFacts row = facts) ∨
        ∃ fill ∈ newFills (db.orderFills.ofOrder orderId) fills, storedFacts fill = facts := by
    intro facts
    rw [← mem_map, ← mem_map, ← hfacts, ← mem_append, ← map_append, ← hafter, mem_map]
    rfl
  constructor
  · intro heq
    constructor
    · intro row hrow
      have hmem : recordedFacts row ∈ recorded db' orderId :=
        (hrecorded _).mpr (Or.inl ⟨row, hrow, rfl⟩)
      rw [heq] at hmem
      obtain ⟨fill, hfill, hsame⟩ := hmem
      exact ⟨fill, hfill, congrArg Prod.fst hsame⟩
    · intro fill hfill
      obtain ⟨hmem, hnew⟩ := mem_newFills.mp hfill
      have hobserved : observedFacts fill ∈ recorded db' orderId := by
        rw [heq]
        exact ⟨fill, hmem, rfl⟩
      rcases (hrecorded _).mp hobserved with ⟨row, hrow, hsame⟩ | ⟨other, hother, hsame⟩
      · exact absurd (congrArg Prod.fst hsame) (hnew row hrow)
      · -- the row of that sequence is the row of this very fill
        have hsequence : other.fillSequence = fill.fillSequence := congrArg Prod.fst hsame
        obtain rfl := inj_on_of_nodup_map hdistinct (mem_newFills.mp hother).1 hmem
          hsequence
        exact storedFacts_eq_iff.mp hsame
  · rintro ⟨hreported, hexact⟩
    ext facts
    rw [hrecorded]
    constructor
    · rintro (⟨row, hrow, rfl⟩ | ⟨fill, hfill, rfl⟩)
      · obtain ⟨fill, hfill, hsequence⟩ := hreported row hrow
        exact ⟨fill, hfill, ((hcompatible fill hfill).same row hrow hsequence.symm).symm⟩
      · exact ⟨fill, (mem_newFills.mp hfill).1, (storedFacts_eq_iff.mpr (hexact fill hfill)).symm⟩
    · rintro ⟨fill, hfill, rfl⟩
      by_cases hnew : ∀ row ∈ db.orderFills.ofOrder orderId,
          row.fillSequence ≠ fill.fillSequence
      · have hmem := mem_newFills.mpr ⟨hfill, hnew⟩
        exact Or.inr ⟨fill, hmem, storedFacts_eq_iff.mpr (hexact fill hmem)⟩
      · push Not at hnew
        obtain ⟨row, hrow, hsequence⟩ := hnew
        exact Or.inl ⟨row, hrow, (hcompatible fill hfill).same row hrow hsequence⟩

/-- A reconciliation under a new key ends as it should exactly when the observation
contradicts the record, or reports everything on record and only new fills that the columns
hold exactly.
SOURCE: portfolio_bot_store.py:493-673, 1558-1584, 1600-1608 -/
theorem reconcile_agrees_iff (now : Instant) (db : OrderDatabase) (orderId : ℤ)
    (request : RunRequest) (hfresh : existingRun? db orderId request.key = none)
    (order : LockedOrder) (horder : lockedOrder? db orderId = some order)
    (habsorb : ¬ Contradicts (db.orderFills.ofOrder orderId) request.fillPayloads →
      ∃ state, insertNewFills .default order (db.orderFills.ofOrder orderId) (insertionStart db)
        request.fillPayloads = .ok state) : Agrees db orderId request
        (reconcileExchangeOrderInConnection .default now db orderId request) ↔
      Contradicts (db.orderFills.ofOrder orderId) request.fillPayloads ∨
        (AllReported (db.orderFills.ofOrder orderId) request.fillPayloads ∧
          ∀ fill ∈ newFills (db.orderFills.ofOrder orderId) request.fillPayloads,
            StoredExactly fill) := by
  rcases reconcile_fresh .default now hfresh horder with
    ⟨hnothing, hok⟩ | ⟨hcontradicts, mismatch, hok⟩ | ⟨hno, -, hok⟩
  · -- nothing observed: right when nothing is on record
    have hnofills : request.fillPayloads = [] := by
      simp only [RunRequest.nothingObserved, Bool.and_eq_true] at hnothing
      exact isEmpty_iff.mp hnothing.2
    have hstatus : (recordOutcomeUnknown db now order request).1.status = .outcomeUnknown := rfl
    rw [hok, agrees_ok_iff, hstatus, hnofills]
    simp [Differs, Contradicts, newFills]
  · have hstatus : (recordMismatch db now order request mismatch).1.status = .mismatch := rfl
    rw [hok, agrees_ok_iff, hstatus]
    refine ⟨fun _ => Or.inl hcontradicts, fun _ => ⟨by simp, fun _ => rfl, fun _ => ?_⟩⟩
    exact recordMismatch_sameLedger db now order request mismatch
  · obtain ⟨state, hstate⟩ := habsorb hno
    obtain ⟨rows, hrows, hids, hfacts⟩ := insertNewFills_rows hstate
    have hid : order.id = orderId := lockedOrder?_id horder
    have hset : recorded (recordSucceeded db now order request state).2 orderId =
        observed request.fillPayloads ↔ _ :=
      recorded_eq_observed_iff hno hrows (hid ▸ hids) hfacts
    have hstatus : (recordSucceeded db now order request state).1.status = .succeeded := rfl
    rw [hok, hstate, Except.map, agrees_ok_iff, hstatus]
    constructor
    · rintro ⟨hrecorded, -, -⟩
      exact Or.inr (hset.mp (hrecorded rfl))
    · rintro (h | h)
      · exact absurd h hno
      · refine ⟨fun _ => hset.mpr h, fun hdiffers => ?_, by simp⟩
        rcases hdiffers with ⟨fill, hfill, row, hrow, hsequence, hfact⟩ | hmissing
        · exact absurd (Or.inr ⟨fill, hfill, fun hc => hfact (hc.same row hrow hsequence)⟩) hno
        · exact absurd h.1 hmissing

/-- A purchase of one unit at 100 on record for order 1. -/
def unitRow (sequence : ℤ) : OrderFill where
  id := sequence
  exchangeOrderId := 1
  fillSequence := sequence
  fillSource := .reconciliation
  side := .buy
  filledQuantity := 1
  fillPrice := 100
  feePaid := 0
  occurredAt := 0
  knowledgeAt := 0
  evidence := []

/-- The same purchase, reported. -/
def unitFill (sequence : ℤ) (h : 1 ≤ sequence) : FillPayload where
  fillSequence := sequence
  side := .buy
  filledQuantity := 1
  fillPrice := 100
  feePaid := 0
  occurredAt := 0
  knowledgeAt := 0
  evidence := []
  sequence_pos := h
  quantity_pos := by norm_num
  price_pos := by norm_num
  fee_nonneg := le_rfl
  known_after := le_rfl

/-- One order of one bot, with fills on record. -/
def oneOrderDatabase (orderFills : FillTable) : OrderDatabase where
  orderIntents := fun id => if id = 1 then some ⟨1, 1, .buy, some 2, none, .approved⟩ else none
  botInstances := fun id => if id = 1 then some ⟨1, .paper, .paper⟩ else none
  exchangeOrders := ⟨[⟨1, 1, .paper, "key", .done, none, none, []⟩], 2, by decide⟩
  orderFills := orderFills
  positionProjections := fun _ _ => none
  reconciliationRuns := []
  nextRunId := 1
  riskEvents := []

/-- A terminal observation of given fills. -/
def doneRequest (key : String) (fills : List FillPayload) : RunRequest where
  key := key
  actor := "actor"
  runReason := "reason"
  observed := .done
  fillPayloads := fills
  evidencePayload := []
  requestHash := "hash"

/-- The exchange reports the fill on record and one new fill: both are on record in the end. -/
theorem reconcile_agrees_new_fill : Agrees (oneOrderDatabase ⟨[unitRow 1], 2, by decide⟩) 1
      (doneRequest "run" [unitFill 1 (by decide), unitFill 2 (by decide)])
      (reconcileExchangeOrderInConnection .default 0
        (oneOrderDatabase ⟨[unitRow 1], 2, by decide⟩) 1
        (doneRequest "run" [unitFill 1 (by decide), unitFill 2 (by decide)])) := by
  refine (reconcile_agrees_iff 0 _ 1 _ rfl ⟨1, 1, 1, 1, 1⟩ rfl
    (fun _ => exists_ok_of_isOk (by decide +kernel))).mpr (Or.inr ⟨?_, ?_⟩)
  · intro row hrow
    have hone : row = unitRow 1 := by simpa [oneOrderDatabase, FillTable.ofOrder, unitRow] using hrow
    exact ⟨unitFill 1 (by decide), by simp [doneRequest], by rw [hone]; rfl⟩
  · intro fill hfill
    have hunit : fill.filledQuantity = 1 ∧ fill.fillPrice = 100 ∧ fill.feePaid = 0 := by
      rcases mem_cons.mp (mem_newFills.mp hfill).1 with rfl | hmem
      · exact ⟨rfl, rfl, rfl⟩
      · obtain rfl := mem_singleton.mp hmem
        exact ⟨rfl, rfl, rfl⟩
    obtain ⟨hquantity, hprice, hfee⟩ := hunit
    constructor
    · rw [hquantity]; decide +kernel
    · rw [hprice]; decide +kernel
    · rw [hfee]; decide +kernel

/-- Two fills are on record and the exchange reports only the first: the reconciliation
succeeds all the same. -/
theorem reconcile_unreported_fill_not_agrees :
    existingRun? (oneOrderDatabase ⟨[unitRow 1, unitRow 2], 3, by decide⟩) 1 "run" = none ∧
    lockedOrder? (oneOrderDatabase ⟨[unitRow 1, unitRow 2], 3, by decide⟩) 1 =
      some ⟨1, 1, 1, 1, 1⟩ ∧
    ¬ Agrees (oneOrderDatabase ⟨[unitRow 1, unitRow 2], 3, by decide⟩) 1
      (doneRequest "run" [unitFill 1 (by decide)]) (reconcileExchangeOrderInConnection .default 0
        (oneOrderDatabase ⟨[unitRow 1, unitRow 2], 3, by decide⟩) 1
        (doneRequest "run" [unitFill 1 (by decide)])) := by
  refine ⟨rfl, rfl, ?_⟩
  rintro ⟨run, db', heq, -, hmismatch, -⟩
  have hstatus : run.status = .succeeded := by
    have h := congrArg (fun outcome => outcome.toOption.map fun result => result.1.status) heq
    have hrun : ((reconcileExchangeOrderInConnection .default 0
        (oneOrderDatabase ⟨[unitRow 1, unitRow 2], 3, by decide⟩) 1
        (doneRequest "run" [unitFill 1 (by decide)])).toOption.map fun result =>
          result.1.status) = some .succeeded := by decide +kernel
    exact (Option.some.inj (hrun.symm.trans h)).symm
  have hdiffers := hmismatch (Or.inr fun hall => by
    obtain ⟨fill, hfill, hsequence⟩ := hall (unitRow 2)
      (by simp [oneOrderDatabase, FillTable.ofOrder, unitRow])
    obtain rfl := mem_singleton.mp hfill
    exact absurd hsequence (by decide))
  simp [hstatus] at hdiffers

end Goodmoneying.Analysis
