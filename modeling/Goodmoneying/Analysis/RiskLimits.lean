import Goodmoneying.Analysis.PaperQueueProgress
import Goodmoneying.Program.OrderRisk

/-!
# What the limits bound

The decision computes the notional of an order from the quantity and the limit price where both are
given, and takes the requested notional otherwise; a paper fill takes the quantity where it is
given. Where there is a quantity and a notional but no limit price (`approval_without_price`), and
nowhere else, a fill can go beyond the limit (`approval_bounds_fill`).
-/

namespace Goodmoneying.Analysis

open Library Program

variable {ar : Arithmetic} {intent : RiskIntent} {quantity : ℚ}
variable {limit : RiskLimit} {policyVersion : ℤ} {notional : Option ℚ} {decision : RiskDecision}
  {executionMode : ExecutionMode} {workerId : String} {value fillPrice : ℚ} {db : PaperDatabase}

/-- The latest version of an active limit of the scopes. -/
structure LatestActive (limits : List RiskLimit) (scopes : List (String × String))
    (limit : RiskLimit) : Prop where
  mem : limit ∈ limits
  active : limit.status = .active
  scope : (limit.scopeType, limit.scopeKey) ∈ scopes
  latest : ∀ other ∈ limits, other.status = .active → other.group = limit.group →
    other.version ≤ limit.version

/-- The limits that are looked at are the latest active ones of the scopes. -/
theorem mem_activeRiskLimits (table : KeyedTable RiskLimit.uniqueKey)
    (scopes : List (String × String)) (limit : RiskLimit) :
    limit ∈ activeRiskLimits table.rows scopes ↔ LatestActive table.rows scopes limit := by
  have hfilter : ∀ row, row ∈ (table.rows.filter fun row =>
      (row.scopeType, row.scopeKey) ∈ scopes && row.status = .active) ↔
      row ∈ table.rows ∧ (row.scopeType, row.scopeKey) ∈ scopes ∧ row.status = .active := by
    simp
  have hgroup : ∀ {row other : RiskLimit}, row.group = other.group →
      row.scopeType = other.scopeType ∧ row.scopeKey = other.scopeKey ∧
      row.limitType = other.limitType := by
    intro row other h
    simpa [RiskLimit.group] using h
  unfold activeRiskLimits
  rw [mem_distinctOn_sortedBy, hfilter]
  · constructor
    · rintro ⟨⟨hmem, hscope, hactive⟩, hleast⟩
      refine ⟨hmem, hactive, hscope, fun other hother hotherActive hsame => ?_⟩
      obtain ⟨htype, hkey, hlimit⟩ := hgroup hsame
      have hle := hleast other ((hfilter other).mpr ⟨hother, by rwa [htype, hkey], hotherActive⟩)
        hsame
      rw [htype, hkey, hlimit] at hle
      simp only [Prod.Lex.toLex_le_toLex, lt_irrefl, false_or, true_and] at hle
      omega
    · rintro ⟨hmem, hactive, hscope, hlatest⟩
      refine ⟨⟨hmem, hscope, hactive⟩, fun other hother hsame => ?_⟩
      obtain ⟨hotherMem, -, hotherActive⟩ := (hfilter other).mp hother
      have hversion := hlatest other hotherMem hotherActive hsame
      obtain ⟨htype, hkey, hlimit⟩ := hgroup hsame
      rw [htype, hkey, hlimit]
      simp only [Prod.Lex.toLex_le_toLex, lt_irrefl, false_or, true_and]
      rcases hversion.lt_or_eq with hlt | heq
      · exact Or.inl (by omega)
      · have hsameRow : other = limit := KeyedTable.eq_of_key hotherMem hmem
          (by rw [RiskLimit.uniqueKey, RiskLimit.uniqueKey, hsame, heq])
        right
        rw [hsameRow]
        exact ⟨rfl, le_refl _⟩
  · intro hlimit other hother heq
    simp only [toLex_inj, Prod.mk.injEq, neg_inj] at heq
    obtain ⟨htype, hkey, htext, hversion, -⟩ := heq
    have hlimitType : other.limitType = limit.limitType := by
      revert htext
      cases other.limitType <;> cases limit.limitType <;> decide
    refine KeyedTable.eq_of_key ((hfilter other).mp hother).1 ((hfilter limit).mp hlimit).1 ?_
    rw [RiskLimit.uniqueKey, RiskLimit.uniqueKey, RiskLimit.group, RiskLimit.group, htype, hkey,
      hlimitType, hversion]

theorem limitRejection?_eq_none : limitRejection? limit policyVersion notional = none ↔
      limit.limitType = .maxOrderNotional ∧ ∃ value, notional = some value ∧
        value ≤ limit.limitValue := by
  unfold limitRejection?
  cases notional with
  | none => split_ifs <;> simp
  | some value =>
    dsimp only
    split_ifs with htype hlt
    · simp [htype]
    · simp [hlt]
    · simpa using ⟨not_not.mp htype, not_lt.mp hlt⟩

theorem limitRejection?_status (h : limitRejection? limit policyVersion notional = some decision) :
    decision.status = .riskRejected := by
  unfold limitRejection? at h
  split_ifs at h
  · obtain rfl := Option.some.inj h
    rfl
  · split at h
    next =>
      obtain rfl := Option.some.inj h
      rfl
    next =>
      split_ifs at h
      obtain rfl := Option.some.inj h
      rfl

/-- An approval found no armed switch, and no limit that rejects. -/
theorem riskDecision_approved {activeSwitch : Option KillSwitch} {limits : List RiskLimit}
    (h : riskDecision ar activeSwitch limits intent executionMode = .ok decision)
    (happroved : decision.status = .approved) :
    activeSwitch = none ∧ ∃ notional, orderNotional ar intent = .ok notional ∧
      ∀ limit ∈ limits, limit.limitType = .maxOrderNotional ∧
        ∃ value, notional = some value ∧ value ≤ limit.limitValue := by
  obtain ⟨notional, hnotional, h⟩ := bind_eq_ok.mp h
  cases activeSwitch with
  | some row =>
    obtain rfl := pure_eq_ok.mp h
    cases happroved
  | none =>
    refine ⟨rfl, notional, hnotional, fun limit hlimit => ?_⟩
    cases hfind : limits.findSome? fun limit => limitRejection? limit
        (((limits.map RiskLimit.version).max?).getD 1) notional with
    | some rejection =>
      simp only [hfind] at h
      obtain rfl := pure_eq_ok.mp h
      obtain ⟨rejecting, -, hrejection⟩ := List.exists_of_findSome?_eq_some hfind
      rw [limitRejection?_status hrejection] at happroved
      cases happroved
    | none => exact limitRejection?_eq_none.mp (List.findSome?_eq_none_iff.mp hfind limit hlimit)

/-- The parts of an evaluation that took an intent. -/
theorem evaluateNextOrderIntentRisk_eq_ok {now : Instant} {locked : ℤ → Bool}
    {db db' : RiskDatabase} {evaluation : RiskEvaluation}
    (h : evaluateNextOrderIntentRisk ar now locked db workerId = .ok (some evaluation, db')) :
    ∃ row decision, nextCreatedIntent? db locked = some row ∧
      riskDecision ar (activeKillSwitch db.killSwitches
        (riskScopes row.bot.portfolioId row.intent.botInstanceId))
        (activeRiskLimits db.riskLimits.rows row.scopes) row.intent row.bot.executionMode =
        .ok decision ∧
      recordRiskDecision now db row decision (strip workerId) = .ok db' ∧
      evaluation.orderIntentId = row.intent.id ∧ evaluation.status = decision.status := by
  obtain ⟨worker, hworker, h⟩ := bind_eq_ok.mp h
  obtain ⟨rfl, -⟩ := nonBlank_eq_ok hworker
  cases hnext : nextCreatedIntent? db locked with
  | none =>
    simp only [hnext] at h
    cases (Prod.mk.inj (pure_eq_ok.mp h)).1
  | some row =>
    simp only [hnext] at h
    obtain ⟨decision, hdecision, h⟩ := bind_eq_ok.mp h
    obtain ⟨recorded, hrecorded, h⟩ := bind_eq_ok.mp h
    obtain ⟨hevaluation, rfl⟩ := Prod.mk.inj (pure_eq_ok.mp h)
    obtain rfl := Option.some.inj hevaluation
    exact ⟨row, decision, rfl, hdecision, hrecorded, rfl, rfl⟩

/-- Without rounding, the notional is that of the quantity at the limit price where both are
given, and else the requested one. -/
theorem orderNotional_exact (h : orderNotional .exact intent = .ok (some value)) :
    (∃ quantity price, intent.requestedQuantity = some quantity ∧
      intent.limitPrice = some price ∧ value = quantity * price) ∨
    ((intent.requestedQuantity = none ∨ intent.limitPrice = none) ∧
      intent.requestedNotional = some value) := by
  unfold orderNotional at h
  have hpositive : ∀ {amount kept : ℚ} {field : String},
      positiveDecimal amount field = .ok kept → kept = amount := by
    intro amount kept field hkept
    unfold positiveDecimal at hkept
    split_ifs at hkept
    exact (Except.ok.inj hkept).symm
  split at h
  next quantity price hquantity hprice =>
    left
    obtain ⟨keptQuantity, hkeptQuantity, h⟩ := bind_eq_ok.mp h
    obtain ⟨keptPrice, hkeptPrice, h⟩ := bind_eq_ok.mp h
    refine ⟨quantity, price, hquantity, hprice, ?_⟩
    rw [hpositive hkeptQuantity, hpositive hkeptPrice] at h
    split at h
    next =>
      obtain ⟨notional, -, h⟩ := bind_eq_ok.mp h
      have heq := pure_eq_ok.mp h
      split_ifs at heq
      exact (Option.some.inj heq).symm
    next => exact (Option.some.inj (pure_eq_ok.mp h)).symm
  next hnone =>
    right
    refine ⟨?_, ?_⟩
    · cases hquantity : intent.requestedQuantity with
      | none => exact Or.inl rfl
      | some quantity =>
        cases hprice : intent.limitPrice with
        | none => exact Or.inr rfl
        | some price => exact absurd hprice (hnone quantity price hquantity)
    · split at h
      next notional hnotional =>
        obtain ⟨kept, hkept, heq⟩ := map_eq_ok.mp h
        rw [hnotional, ← heq, hpositive hkept]
      next => cases pure_eq_ok.mp h

/-- A completion leaves the fills, or adds one of the quantity that is computed for its intent. -/
theorem complete_fill {queriedAt updatedAt : Instant} {db' : PaperDatabase} {jobId : ℤ}
    {leaseGeneration : ℤ} {filledQuantity : Option ℚ} {occurredAt knowledgeAt : Instant}
    {evidence : List (String × CanonicalValue)} {summary : PaperExecutionJobSummary} (h :
      completeClaimedPaperExecutionJob ar queriedAt updatedAt db jobId workerId leaseGeneration
      fillPrice filledQuantity occurredAt knowledgeAt evidence = .ok (summary, db')) :
    db'.orderFills = db.orderFills ∨
    ∃ intent quantity fill, paperIntent? db summary.orderIntentId = some intent ∧
      paperFillQuantity ar intent fillPrice filledQuantity = .ok quantity ∧
      ar.store quantity = .ok fill.filledQuantity ∧
      db'.orderFills.rows = db.orderFills.rows ++ [fill] := by
  obtain ⟨-, h⟩ := guard_eq_ok.mp h
  obtain ⟨worker, -, h⟩ := bind_eq_ok.mp h
  obtain ⟨job, hjob, h⟩ := bind_eq_ok.mp h
  obtain ⟨intent, hintent, h⟩ := bind_eq_ok.mp h
  split_ifs at h with hswitch
  · obtain ⟨-, rfl⟩ := Prod.mk.inj (pure_eq_ok.mp h)
    exact Or.inl rfl
  · right
    obtain ⟨quantity, hquantity, h⟩ := bind_eq_ok.mp h
    obtain ⟨⟨order, orders⟩, -, h⟩ := bind_eq_ok.mp h
    obtain ⟨⟨fill, fills⟩, hfill, h⟩ := bind_eq_ok.mp h
    obtain ⟨positions, -, h⟩ := bind_eq_ok.mp h
    obtain ⟨hsummary, rfl⟩ := Prod.mk.inj (pure_eq_ok.mp h)
    obtain ⟨hfillRow, hfills, -⟩ := FillTable.insert_eq_ok hfill
    obtain ⟨-, -, -, -, -, hstored, -⟩ := FillValues.row_eq_ok hfillRow
    have hjoined : paperIntent? db job.orderIntentId = some intent := by
      unfold paperIntentRow at hintent
      split at hintent
      next joined hjoined => rw [hjoined, Except.ok.inj hintent]
      next => cases hintent
    refine ⟨intent, quantity, fill, ?_, hquantity, hstored, hfills⟩
    rw [← hsummary]
    exact hjoined

/-- Every fill that a completion without a filled quantity records for the intent, at a price that
keeps its limit, is within the bound. -/
def FillsWithin (intent : RiskIntent) (executionMode : ExecutionMode) (bound : ℚ) : Prop :=
  ∀ (queriedAt updatedAt : Instant) (db db' : PaperDatabase) (jobId : ℤ) (workerId : String)
    (leaseGeneration : ℤ) (fillPrice : ℚ) (occurredAt knowledgeAt : Instant)
    (evidence : List (String × CanonicalValue)) (summary : PaperExecutionJobSummary),
    db.orderIntents intent.id = some { intent.toOrderIntent with status := .approved } →
    (∀ bot, db.botInstances intent.botInstanceId = some bot →
      bot.executionMode = executionMode) →
    0 < fillPrice → (∀ price ∈ intent.limitPrice, fillPrice ≤ price) →
    completeClaimedPaperExecutionJob .exact queriedAt updatedAt db jobId workerId leaseGeneration
      fillPrice none occurredAt knowledgeAt evidence = .ok (summary, db') →
    summary.orderIntentId = intent.id →
    ∀ fill ∈ db'.orderFills.rows, fill ∉ db.orderFills.rows →
      fill.filledQuantity * fillPrice ≤ bound

/-- The join of an approved intent has the amounts of the intent. -/
theorem paperIntent?_amounts {joined : PaperIntent}
    (hrow : db.orderIntents intent.id = some { intent.toOrderIntent with status := .approved })
    (h : paperIntent? db intent.id = some joined) :
    joined.requestedQuantity = intent.requestedQuantity ∧
    joined.requestedNotional = intent.requestedNotional ∧
    ∃ bot, db.botInstances intent.botInstanceId = some bot ∧ bot.executionMode = .paper := by
  simp only [paperIntent?, Option.bind_eq_bind, Option.bind_eq_some_iff] at h
  obtain ⟨row, hfound, bot, hbot, h⟩ := h
  obtain rfl := Option.some.inj (hfound.symm.trans hrow)
  split_ifs at h with hpaper
  obtain rfl := Option.some.inj h
  exact ⟨rfl, rfl, bot, hbot, hpaper.2.2⟩

/-- The quantity of a fill without a filled quantity. -/
theorem paperFillQuantity_exact {intent : PaperIntent}
    (h : paperFillQuantity .exact intent fillPrice none = .ok quantity) :
    intent.requestedQuantity = some quantity ∨
    (intent.requestedQuantity = none ∧ ∃ notional, intent.requestedNotional = some notional ∧
      quantity = notional / fillPrice) := by
  simp only [paperFillQuantity] at h
  split at h
  next requested _ hrequested =>
    left
    unfold positiveDecimal at h
    split_ifs at h
    rw [hrequested, Except.ok.inj h]
  next => cases h
  next notional hrequested hnotional =>
    right
    obtain ⟨kept, hkept, h⟩ := bind_eq_ok.mp h
    unfold positiveDecimal at hkept
    split_ifs at hkept h
    rw [← Except.ok.inj hkept] at h
    exact ⟨hrequested, notional, hnotional, (pure_eq_ok.mp h).symm⟩

/-- Where the notional of the decision is that of the quantity, or no quantity is given, the fills
are within it. -/
theorem fillsWithin_of_notional {bound : ℚ}
    (hvalue : orderNotional .exact intent = .ok (some value)) (hbound : value ≤ bound) (hpriced :
      intent.requestedQuantity = none ∨ intent.requestedNotional = none ∨ intent.limitPrice ≠
      none) : FillsWithin intent executionMode bound := by
  intro queriedAt updatedAt db db' jobId workerId leaseGeneration fillPrice occurredAt knowledgeAt
    evidence summary hrow _ hpositive hlimit hcomplete hsummary fill hfill hnew
  refine le_trans ?_ hbound
  rcases complete_fill hcomplete with hsame | ⟨joined, quantity, added, hjoined, hquantity, hstored,
    hrows⟩
  · rw [hsame] at hfill
    exact absurd hfill hnew
  rw [hsummary] at hjoined
  obtain ⟨hsameQuantity, hsameNotional, -⟩ := paperIntent?_amounts hrow hjoined
  rw [hrows] at hfill
  rcases List.mem_append.mp hfill with hold | hadded
  · exact absurd hold hnew
  obtain rfl := List.mem_singleton.mp hadded
  rw [← Except.ok.inj ((exact_store quantity).symm.trans hstored)]
  have hquantity := paperFillQuantity_exact hquantity
  rw [hsameQuantity, hsameNotional] at hquantity
  rcases orderNotional_exact hvalue with ⟨requested, price, hrequested, hprice, rfl⟩ |
    ⟨hnone, hnotional⟩
  · rcases hquantity with hquantity | ⟨hquantity, -⟩
    · obtain rfl := Option.some.inj (hquantity.symm.trans hrequested)
      exact mul_le_mul_of_nonneg_left (hlimit price hprice)
        (intent.quantity_pos quantity hquantity).le
    · rw [hrequested] at hquantity
      cases hquantity
  · rcases hquantity with hquantity | ⟨-, notional, hsame, rfl⟩
    · rcases hpriced with hpriced | hpriced | hpriced
      · rw [hpriced] at hquantity
        cases hquantity
      · rw [hpriced] at hnotional
        cases hnotional
      · rcases hnone with hnone | hnone
        · rw [hnone] at hquantity
          cases hquantity
        · exact absurd hnone hpriced
    · obtain rfl := Option.some.inj (hsame.symm.trans hnotional)
      rw [div_mul_cancel₀ _ hpositive.ne']

/-- No fill is recorded for an intent of a shadow bot. -/
theorem fillsWithin_shadow (intent : RiskIntent) (bound : ℚ) :
    FillsWithin intent .shadow bound := by
  intro queriedAt updatedAt db db' jobId workerId leaseGeneration fillPrice occurredAt knowledgeAt
    evidence summary hrow hbot _ _ hcomplete hsummary fill hfill hnew
  rcases complete_fill hcomplete with hsame | ⟨joined, quantity, added, hjoined, -⟩
  · rw [hsame] at hfill
    exact absurd hfill hnew
  · rw [hsummary] at hjoined
    obtain ⟨-, -, bot, hfound, hpaper⟩ := paperIntent?_amounts hrow hjoined
    rw [hbot bot hfound] at hpaper
    cases hpaper

/-- A running job of the intent. -/
def claimedJob (intent : RiskIntent) : PaperJob where
  id := 1
  orderIntentId := intent.id
  status := .running
  leaseOwner := some "worker"
  leaseExpiresAt := some 1
  leaseGeneration := 1
  createdAt := 0

/-- The job is claimed, and the portfolio of the bot holds the quantity. -/
def claimedDatabase (intent : RiskIntent) (quantity : ℚ) : PaperDatabase where
  jobs := ⟨[claimedJob intent], by simp, by simp⟩
  orderIntents := fun id =>
    if id = intent.id then some { intent.toOrderIntent with status := .approved } else none
  botInstances := fun _ => some ⟨1, .paper, .paper⟩
  killSwitches := []
  exchangeOrders := (approvedDatabase twoJobs).exchangeOrders
  orderFills := (approvedDatabase twoJobs).orderFills
  positionProjections := fun _ _ => some ⟨quantity, none, 0, 0⟩

/-- A worker can fill the quantity of an intent at any price. -/
theorem complete_claimedDatabase {price : ℚ} (hquantity : intent.requestedQuantity = some quantity)
    (hpositive : 0 < quantity) (hprice : 0 < price) :
    ∃ summary db', completeClaimedPaperExecutionJob .exact 0 0 (claimedDatabase intent quantity)
        1 "worker" 1 price none 0 0 [] = .ok (summary, db') ∧
      summary.orderIntentId = intent.id ∧
      ∃ fill ∈ db'.orderFills.rows, fill.filledQuantity = quantity := by
  have hworker : nonBlank "worker" "workerId" = .ok "worker" := by decide +kernel
  have hposition : ∃ positions, (claimedDatabase intent quantity).positionProjections.upsert
      .exact 1 intent.instrumentId intent.side quantity price 1 = .ok positions := by
    have hrow : ∃ row, upsertPositionProjection .exact (some ⟨quantity, none, 0, 0⟩) intent.side
        quantity price 1 = .ok row := by
      unfold upsertPositionProjection
      cases intent.side with
      | buy =>
        refine ⟨_, positionRow_exact fun average haverage => ?_⟩
        split_ifs at haverage
        rw [← Option.some.inj haverage]
        simp only [Arithmetic.exact_add, Arithmetic.exact_mul, Arithmetic.exact_div]
        simp only [Option.getD_none, mul_zero, zero_add]
        positivity
      | sell =>
        dsimp only
        rw [if_neg (lt_irrefl _)]
        refine ⟨_, positionRow_exact fun average haverage => ?_⟩
        simp at haverage
    obtain ⟨row, hrow⟩ := hrow
    exact ⟨_, by unfold PositionTable.upsert; exact bind_eq_ok.mpr ⟨row, hrow, rfl⟩⟩
  obtain ⟨positions, hpositions⟩ := hposition
  have hjob : lockedClaimedPaperJob 0 (claimedDatabase intent quantity) 1 "worker" 1 =
      .ok (claimedJob intent) := by
    simp [lockedClaimedPaperJob, JobTable.find, claimedDatabase, claimedJob, Option.filter,
      holdsLease]
  have hintent : paperIntentRow (claimedDatabase intent quantity) intent.id =
      .ok ⟨intent.id, intent.instrumentId, intent.side, some quantity, intent.requestedNotional,
        intent.botInstanceId, 1⟩ := by
    simp [paperIntentRow, paperIntent?, claimedDatabase, hquantity]
  have hfill : ∃ fill fills, (claimedDatabase intent quantity).orderFills.insert .exact
      ⟨1, 1, .paperSimulator, intent.side, quantity, price, 0, 0, 0, []⟩ = .ok (fill, fills) ∧
      fill.id = 1 ∧ fill.filledQuantity = quantity ∧ fill ∈ fills.rows := by
    simp [FillTable.insert, FillValues.row, claimedDatabase, approvedDatabase, integerColumn, check,
      hpositive, hprice, bind, Except.bind, pure, Except.pure]
  obtain ⟨fill, fills, hinserted, hid, hfilled, hmem⟩ := hfill
  have horder : ∃ order orders, (claimedDatabase intent quantity).exchangeOrders.insert
      (paperOrder (claimedJob intent) intent.id 0) = .ok (order, orders) ∧ order.id = 1 := by
    simp [OrderTable.insert, claimedDatabase, approvedDatabase, paperOrder]
  obtain ⟨order, orders, horder, horderId⟩ := horder
  have hswitch : ¬ (activeKillSwitch (claimedDatabase intent quantity).killSwitches
      (riskScopes 1 intent.botInstanceId)).isSome = true := by
    simp [activeKillSwitch, claimedDatabase, riskScopes, latestSwitch, sortedBy]
  have hrecord : ∃ db', recordPaperFill .exact (claimedDatabase intent quantity)
      (claimedJob intent) ⟨intent.id, intent.instrumentId, intent.side, some quantity,
        intent.requestedNotional, intent.botInstanceId, 1⟩ quantity price 0 0 [] =
      .ok (paperExecutionJobSummary (claimedJob intent).completed, db') ∧
      db'.orderFills = fills := by
    refine ⟨_, bind_eq_ok.mpr ⟨(order, orders), horder, bind_eq_ok.mpr ⟨(fill, fills), ?_,
      bind_eq_ok.mpr ⟨positions, ?_, rfl⟩⟩⟩, rfl⟩
    · rw [horderId]
      exact hinserted
    · rw [hid]
      exact hpositions
  obtain ⟨db', hrecord, hfills⟩ := hrecord
  have hquantityOk : paperFillQuantity .exact ⟨intent.id, intent.instrumentId, intent.side,
      some quantity, intent.requestedNotional, intent.botInstanceId, 1⟩ price none =
      .ok quantity := by
    simp only [paperFillQuantity, positiveDecimal, if_neg (not_le.mpr hpositive)]
  refine ⟨paperExecutionJobSummary (claimedJob intent).completed, db', ?_, rfl, fill,
    by rwa [hfills], hfilled⟩
  unfold completeClaimedPaperExecutionJob
  refine guard_eq_ok.mpr ⟨lt_irrefl _, bind_eq_ok.mpr ⟨"worker", hworker,
    bind_eq_ok.mpr ⟨claimedJob intent, hjob, bind_eq_ok.mpr ⟨_, hintent, ?_⟩⟩⟩⟩
  rw [if_neg hswitch]
  exact bind_eq_ok.mpr ⟨quantity, hquantityOk, hrecord⟩

/-- Where a quantity is given without a limit price, a worker can fill it at a price beyond any
bound. -/
theorem not_fillsWithin (bound : ℚ) (hquantity : intent.requestedQuantity = some quantity)
    (hprice : intent.limitPrice = none) : ¬ FillsWithin intent .paper bound := by
  intro hwithin
  have hpositive := intent.quantity_pos quantity hquantity
  obtain ⟨summary, db', hcomplete, hsummary, fill, hfill, hfilled⟩ :=
    complete_claimedDatabase hquantity hpositive
      (show 0 < (|bound| + 1) / quantity by positivity)
  have hle := hwithin 0 0 _ _ 1 "worker" 1 _ 0 0 [] summary (by simp [claimedDatabase])
    (fun bot hbot => by rw [← Option.some.inj hbot]) (by positivity)
    (fun price hlimit => by rw [hprice] at hlimit; cases hlimit) hcomplete hsummary fill hfill
    (by simp [claimedDatabase, approvedDatabase])
  rw [hfilled, mul_div_cancel₀ _ hpositive.ne'] at hle
  linarith [le_abs_self bound]

/-- What an approval of an intent is to imply. -/
structure RiskBounded (db : RiskDatabase) (row : CreatedIntent) : Prop where
  released : ∀ scope ∈ riskScopes row.bot.portfolioId row.intent.botInstanceId, ∀ latest,
    latestSwitch db.killSwitches scope = some latest → latest.state ≠ .armed
  computed : ∀ limit, LatestActive db.riskLimits.rows row.scopes limit →
    limit.limitType = .maxOrderNotional ∧ ∃ notional,
      orderNotional .exact row.intent = .ok (some notional) ∧ notional ≤ limit.limitValue
  filled : ∀ limit, LatestActive db.riskLimits.rows row.scopes limit →
    limit.limitType = .maxOrderNotional →
    FillsWithin row.intent row.bot.executionMode limit.limitValue

/-- The amounts of an intent that is filled by the notional it was decided by, or that no limit
covers, or that is not filled at all. -/
def Consistent (db : RiskDatabase) (row : CreatedIntent) : Prop :=
  row.intent.requestedQuantity = none ∨ row.intent.requestedNotional = none ∨
  row.intent.limitPrice ≠ none ∨ row.bot.executionMode = .shadow ∨
  ∀ limit, ¬ LatestActive db.riskLimits.rows row.scopes limit

/-- An approval bounds the fills exactly where the intent is consistent.
SOURCE: portfolio_bot_store.py:281-391, 1174-1264, 1267-1359;
20260718000500_p5_portfolio_bot_risk.sql:111-140 -/
theorem approval_bounds_fill (now : Instant) (locked : ℤ → Bool) (db db' : RiskDatabase)
    (workerId : String) (evaluation : RiskEvaluation)
    (h : evaluateNextOrderIntentRisk .exact now locked db workerId = .ok (some evaluation, db'))
    (happroved : evaluation.status = .approved) :
    ∃ row, nextCreatedIntent? db locked = some row ∧ row.intent.id = evaluation.orderIntentId ∧
      (RiskBounded db row ↔ Consistent db row) := by
  obtain ⟨row, decision, hnext, hdecision, -, hid, hstatus⟩ := evaluateNextOrderIntentRisk_eq_ok h
  obtain ⟨hswitch, notional, hnotional, hlimits⟩ :=
    riskDecision_approved hdecision (hstatus.symm.trans happroved)
  have hcomputed : ∀ limit, LatestActive db.riskLimits.rows row.scopes limit →
      limit.limitType = .maxOrderNotional ∧ ∃ value, notional = some value ∧
        value ≤ limit.limitValue :=
    fun limit hlimit => hlimits limit ((mem_activeRiskLimits _ _ _).mpr hlimit)
  have hmode : row.bot.executionMode = .paper ∨ row.bot.executionMode = .shadow := by
    have hmem := mem_sortedBy.mp (List.mem_of_head? hnext)
    obtain ⟨intent, -, hcreated⟩ := List.mem_filterMap.mp hmem
    simp only [createdIntent?, Option.bind_eq_bind, Option.bind_eq_some_iff] at hcreated
    obtain ⟨bot, -, hcreated⟩ := hcreated
    split_ifs at hcreated with hcondition
    obtain rfl := Option.some.inj hcreated
    exact hcondition.2.2
  refine ⟨row, hnext, hid.symm, fun hbounded => ?_, fun hconsistent => ⟨?_, ?_, ?_⟩⟩
  · by_contra hnot
    simp only [Consistent, not_or, not_forall, not_not] at hnot
    obtain ⟨hquantity, -, hprice, hshadow, limit, hlimit⟩ := hnot
    obtain ⟨quantity, hquantity⟩ := Option.ne_none_iff_exists'.mp hquantity
    have hfilled := hbounded.filled limit hlimit (hcomputed limit hlimit).1
    rw [hmode.resolve_right hshadow] at hfilled
    exact not_fillsWithin _ hquantity hprice hfilled
  · exact activeKillSwitch_isNone_iff.mp (by rw [hswitch]; rfl)
  · intro limit hlimit
    obtain ⟨htype, value, rfl, hle⟩ := hcomputed limit hlimit
    exact ⟨htype, value, hnotional, hle⟩
  · intro limit hlimit _
    obtain ⟨-, value, rfl, hle⟩ := hcomputed limit hlimit
    rcases hconsistent with hnone | hnone | hprice | hshadow | hnone
    · exact fillsWithin_of_notional hnotional hle (Or.inl hnone)
    · exact fillsWithin_of_notional hnotional hle (Or.inr (Or.inl hnone))
    · exact fillsWithin_of_notional hnotional hle (Or.inr (Or.inr hprice))
    · rw [hshadow]
      exact fillsWithin_shadow row.intent limit.limitValue
    · exact absurd hlimit (hnone limit)

/-- A buy order of a paper bot. -/
def createdOrder : OrderIntent where
  botInstanceId := 1
  instrumentId := 1
  side := .buy
  requestedQuantity := some 100
  requestedNotional := some 10
  status := .created

/-- The order with the limit price of its notional. -/
def pricedOrder : RiskIntent where
  toOrderIntent := createdOrder
  id := 1
  limitPrice := some (1 / 10)
  decisionInputHash := ""
  riskPolicyVersion := none
  riskDecisionReason := none
  createdAt := 0
  requested := by decide
  quantity_pos := by decide
  notional_pos := by decide
  price_pos := by decide +kernel

/-- The order without a limit price. -/
def unpricedOrder : RiskIntent :=
  { pricedOrder with
    limitPrice := none
    price_pos := by decide }

def orderLimit : RiskLimit where
  id := 1
  scopeType := "global"
  scopeKey := "global"
  limitType := .maxOrderNotional
  version := 1
  limitValue := 50
  status := .active

/-- An order, and a limit of all orders. -/
def limitedDatabase (intent : RiskIntent) : RiskDatabase where
  orderIntents := ⟨[intent], by simp⟩
  botInstances := fun _ => some ⟨1, .paper, .paper⟩
  killSwitches := []
  riskLimits := ⟨[orderLimit], by simp⟩
  riskEvents := ⟨[], by simp⟩
  jobs := ⟨[], by simp, by simp⟩
  nextJobId := 1

/-- Whether an evaluation approves. -/
def approves : Except StoreError (Option RiskEvaluation × RiskDatabase) → Bool
  | .ok (some evaluation, _) => evaluation.status = .approved
  | _ => false

theorem exists_of_approves {result : Except StoreError (Option RiskEvaluation × RiskDatabase)}
    (h : approves result = true) :
    ∃ evaluation db', result = .ok (some evaluation, db') ∧ evaluation.status = .approved := by
  unfold approves at h
  split at h
  next evaluation db' => exact ⟨evaluation, db', rfl, of_decide_eq_true h⟩
  next => cases h

theorem approval_bounds_fill_pricedOrder :
    ∃ evaluation db', evaluateNextOrderIntentRisk .exact 0 (fun _ => false)
      (limitedDatabase pricedOrder) "worker" = .ok (some evaluation, db') ∧
    ∃ row, nextCreatedIntent? (limitedDatabase pricedOrder) (fun _ => false) = some row ∧
      row.intent.id = evaluation.orderIntentId ∧
      (RiskBounded (limitedDatabase pricedOrder) row ↔
        Consistent (limitedDatabase pricedOrder) row) := by
  obtain ⟨evaluation, db', hevaluates, happroved⟩ := exists_of_approves
    (show approves (evaluateNextOrderIntentRisk .exact 0 (fun _ => false)
      (limitedDatabase pricedOrder) "worker") = true by decide +kernel)
  exact ⟨evaluation, db', hevaluates,
    approval_bounds_fill 0 (fun _ => false) _ db' "worker" evaluation hevaluates happroved⟩

/-- The order is approved by its notional of 10, and can be filled at any price. -/
theorem approval_without_price : ¬ ∀ (now : Instant) (locked : ℤ → Bool)
    (db db' : RiskDatabase) (workerId : String) (evaluation : RiskEvaluation),
    evaluateNextOrderIntentRisk .exact now locked db workerId = .ok (some evaluation, db') →
    evaluation.status = .approved →
    ∃ row, nextCreatedIntent? db locked = some row ∧ row.intent.id = evaluation.orderIntentId ∧
      RiskBounded db row := by
  intro hbounds
  obtain ⟨evaluation, db', hevaluates, happroved⟩ := exists_of_approves
    (show approves (evaluateNextOrderIntentRisk .exact 0 (fun _ => false)
      (limitedDatabase unpricedOrder) "worker") = true by decide +kernel)
  obtain ⟨row, hnext, -, hbounded⟩ := hbounds _ _ _ _ _ _ hevaluates happroved
  have hrow : nextCreatedIntent? (limitedDatabase unpricedOrder) (fun _ => false) =
      some ⟨unpricedOrder, ⟨1, .paper, .paper⟩⟩ := rfl
  obtain rfl := Option.some.inj (hrow.symm.trans hnext)
  have hlimit : LatestActive (limitedDatabase unpricedOrder).riskLimits.rows
      (CreatedIntent.scopes ⟨unpricedOrder, ⟨1, .paper, .paper⟩⟩) orderLimit := by
    refine ⟨by simp [limitedDatabase], rfl, by decide +kernel, fun other hother _ _ => ?_⟩
    rw [List.mem_singleton.mp hother]
  exact not_fillsWithin _ rfl rfl (hbounded.filled orderLimit hlimit rfl)

end Goodmoneying.Analysis
