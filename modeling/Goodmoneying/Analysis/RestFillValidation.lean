import Goodmoneying.Analysis.ReconciliationIdempotence

/-!
# What the adapter reports and what the ledger accepts

The fills of a request built from a REST snapshot have positive quantities and prices, a valid side
and sequences from 1 on. The ledger's own validator also wants a fill not to be known before it
occurred, and no fee below zero, though rounded shares can leave the last trade less than nothing.
It accepts every fill exactly when neither happens (`request_accepted_iff`).
-/

namespace Goodmoneying.Analysis

open List Library Program

variable {snapshot : UpbitRestOrderSnapshot} {payload : RestOrderPayload}
variable {trade : UpbitRestTradeSnapshot} {paidFee totalFunds : ℚ} {value : Option ℚ}
  {fallbackSide : Side} {knowledgeAt : Instant}

/-- The validator returns a fill. -/
def Accepted (fill : ObservedFill) : Prop :=
  ∃ payload, reconciliationFillPayload fill = .ok payload

theorem accepted_iff {fill : ObservedFill} {side : Side} (hside : sideOf fill.side = .ok side) :
    Accepted fill ↔ 1 ≤ fill.fillSequence ∧ fill.occurredAt ≤ fill.knowledgeAt ∧
      0 < fill.filledQuantity ∧ 0 < fill.fillPrice ∧ 0 ≤ fill.feePaid.getD 0 := by
  unfold Accepted reconciliationFillPayload
  simp only [hside]
  constructor
  · rintro ⟨payload, h⟩
    split_ifs at h with hsequence hknown hquantity hprice hfee
    exact ⟨not_lt.mp hsequence, not_lt.mp hknown, not_le.mp hquantity, not_le.mp hprice,
      not_lt.mp hfee⟩
  · rintro ⟨hsequence, hknown, hquantity, hprice, hfee⟩
    rw [dif_neg (not_lt.mpr hsequence), dif_neg (not_lt.mpr hknown),
      dif_neg (not_le.mpr hquantity), dif_neg (not_le.mpr hprice), dif_neg (not_lt.mpr hfee)]
    exact ⟨_, rfl⟩

theorem sideOf_text (side : Side) : sideOf side.text = .ok side := by
  have hstrip : strip side.text = side.text := by cases side <;> decide +kernel
  rw [sideOf, nonBlank, hstrip]
  cases side with
  | buy => simp [Side.text, pure, Except.pure]
  | sell => simp [Side.text, pure, Except.pure]

/-- Of a fill of a snapshot only the times and the fee are in question. -/
theorem accepted_reconciliationFill (hprice : 0 < trade.price) (hvolume : 0 < trade.volume)
    (fee : ℚ) {index : ℕ} (hindex : 1 ≤ index) :
    Accepted (reconciliationFill snapshot trade fee index) ↔
      trade.occurredAt ≤ snapshot.knowledgeAt ∧ 0 ≤ fee := by
  have hside : sideOf (reconciliationFill snapshot trade fee index).side = .ok trade.side :=
    sideOf_text trade.side
  rw [accepted_iff hside]
  simp only [reconciliationFill, Option.getD_some]
  constructor
  · exact fun h => ⟨h.2.1, h.2.2.2.2⟩
  · exact fun h => ⟨by exact_mod_cast hindex, h.1, hvolume, hprice, h.2⟩

/-- What is shared out before the last trade: the share of each of `funds`, and their sum, to
the digits of the context. -/
def assignedFee (ar : Arithmetic) (paidFee totalFunds assigned : ℚ) (funds : List ℚ) : ℚ :=
  funds.foldl (fun assigned fund =>
    ar.add assigned (ar.div (ar.mul paidFee fund) totalFunds)) assigned

theorem default_sub_nonneg_iff {x y : ℚ} : 0 ≤ Arithmetic.default.sub x y ↔ y ≤ x := by
  rw [Arithmetic.sub]
  exact (roundSignificant_nonneg_iff (by norm_num)).trans sub_nonneg

theorem default_share_nonneg {fund : ℚ} (hpaid : 0 ≤ paidFee) (htotal : 0 ≤ totalFunds)
    (hfund : 0 ≤ fund) :
    0 ≤ Arithmetic.default.div (Arithmetic.default.mul paidFee fund) totalFunds := by
  apply roundSignificant_nonneg
  apply div_nonneg _ htotal
  exact roundSignificant_nonneg (mul_nonneg hpaid hfund)

/-- No share is negative exactly when the earlier ones leave something. -/
theorem feeShares_nonneg_iff (hpaid : 0 ≤ paidFee) (htotal : 0 ≤ totalFunds) {funds : List ℚ}
    (hne : funds ≠ []) (hfunds : ∀ fund ∈ funds, 0 ≤ fund) (assigned : ℚ) :
    (∀ fee ∈ feeShares .default paidFee totalFunds assigned funds, 0 ≤ fee) ↔
      assignedFee .default paidFee totalFunds assigned funds.dropLast ≤ paidFee := by
  induction funds generalizing assigned with
  | nil => exact absurd rfl hne
  | cons fund funds ih =>
    cases funds with
    | nil =>
      rw [feeShares, forall_mem_singleton]
      exact default_sub_nonneg_iff
    | cons next funds =>
      have hshare := default_share_nonneg hpaid htotal (hfunds fund mem_cons_self)
      have hrest := ih (cons_ne_nil next funds)
        (fun fund hfund => hfunds fund (mem_cons_of_mem _ hfund))
        (Arithmetic.default.add assigned
          (Arithmetic.default.div (Arithmetic.default.mul paidFee fund) totalFunds))
      rw [feeShares, forall_mem_cons, dropLast_cons_cons, assignedFee, foldl_cons]
      · exact (and_iff_right hshare).trans hrest
      · exact fun h => cons_ne_nil _ _ h

theorem assignedFee_zero (ar : Arithmetic) (hzero : ar.context 0 = 0) (totalFunds : ℚ)
    (funds : List ℚ) : assignedFee ar 0 totalFunds 0 funds = 0 := by
  unfold assignedFee
  induction funds with
  | nil => rfl
  | cons fund funds ih =>
    have hshare : ar.add 0 (ar.div (ar.mul 0 fund) totalFunds) = 0 := by
      simp [Arithmetic.add, Arithmetic.div, Arithmetic.mul, hzero]
    rw [foldl_cons, hshare]
    exact ih

/-- The time of a trade: its own or else that of the order. -/
def tradeTime (payload : RestOrderPayload) (trade : RestTradePayload) : Option Instant :=
  trade.createdAt.or payload.createdAt

/-- The trades of a payload in the order in which they are numbered. -/
def orderedTrades (payload : RestOrderPayload) : List RestTradePayload :=
  sortedBy (fun trade : RestTradePayload => toLex ((tradeTime payload trade).getD 0,
    toLex (trade.uuid.getD "", toLex (trade.price.getD 0, trade.volume.getD 0))))
    (payload.trades.getD [])

/-- The funds of the trades, in this order. -/
def orderedFunds (payload : RestOrderPayload) : List ℚ :=
  (orderedTrades payload).map fun trade => trade.funds.getD 0

/-- No trade is later than the time at which the snapshot was known. -/
def TradesKnown (payload : RestOrderPayload) (knowledgeAt : Instant) : Prop :=
  ∀ trade ∈ payload.trades.getD [], ∀ occurredAt ∈ tradeTime payload trade,
    occurredAt ≤ knowledgeAt

/-- The rounded shares of all trades but the last do not exceed the paid fee. -/
def FeeCovered (payload : RestOrderPayload) : Prop :=
  assignedFee .default (payload.paidFee.getD 0)
    (Arithmetic.default.sum (orderedFunds payload)) 0 (orderedFunds payload).dropLast ≤
      payload.paidFee.getD 0

theorem optionalDecimal_eq_ok {result : Option ℚ} (h : optionalDecimal value = .ok result) :
    result = value ∧ ∀ decimal ∈ value, 0 ≤ decimal := by
  unfold optionalDecimal at h
  split_ifs at h with hneg
  refine ⟨(Except.ok.inj h).symm, fun decimal hdecimal => ?_⟩
  by_contra hlt
  apply hneg
  rw [Option.mem_def.mp hdecimal]
  exact decide_eq_true (not_le.mp hlt)

theorem restPositiveDecimal_eq_ok {fieldName : String} {decimal : ℚ}
    (h : restPositiveDecimal value fieldName = .ok decimal) :
    value = some decimal ∧ 0 < decimal := by
  obtain ⟨result, hresult, hrest⟩ := bind_eq_ok.mp h
  obtain ⟨rfl, -⟩ := optionalDecimal_eq_ok hresult
  cases result with
  | none => cases hrest
  | some decimal =>
    dsimp only at hrest
    split_ifs at hrest with hle
    obtain rfl := pure_eq_ok.mp hrest
    exact ⟨rfl, not_le.mp hle⟩

/-- A trade that the parser keeps. -/
structure KeptTrade (payload : RestOrderPayload) (raw : RestTradePayload)
    (trade : UpbitRestTradeSnapshot) : Prop where
  occurredAt : tradeTime payload raw = some trade.occurredAt
  uuid : raw.uuid = trade.uuid
  price : raw.price = some trade.price
  volume : raw.volume = some trade.volume
  funds : raw.funds = trade.funds
  price_pos : 0 < trade.price
  volume_pos : 0 < trade.volume
  funds_nonneg : 0 ≤ trade.funds.getD 0

theorem optionalStr_eq_ok {value result : Option String} (h : optionalStr value = .ok result) :
    result = value := by
  unfold optionalStr at h
  split at h
  · cases h
  · exact (Except.ok.inj h).symm

/-- What the parser keeps of a trade. -/
theorem keptTrade {raw : RestTradePayload}
    (h : tradeSnapshot fallbackSide payload.createdAt raw = .ok trade) :
    KeptTrade payload raw trade := by
  unfold tradeSnapshot at h
  split at h
  · cases h
  · rename_i occurredAt hoccurred
    obtain ⟨uuid, huuid, h⟩ := bind_eq_ok.mp h
    -- whichever side it has, the rest is checked alike
    have hrest : ∃ side, (do
        let price ← restPositiveDecimal raw.price "trades.price"
        let volume ← restPositiveDecimal raw.volume "trades.volume"
        let funds ← optionalDecimal raw.funds
        pure (⟨uuid, side, price, volume, funds, occurredAt⟩ : UpbitRestTradeSnapshot)) =
          .ok trade := by
      dsimp only at h
      split_ifs at h
      · obtain ⟨side, -, h⟩ := bind_eq_ok.mp h
        exact ⟨side, h⟩
      · obtain ⟨side, -, h⟩ := bind_eq_ok.mp h
        exact ⟨side, h⟩
    obtain ⟨side, h⟩ := hrest
    obtain ⟨price, hprice, h⟩ := bind_eq_ok.mp h
    obtain ⟨volume, hvolume, h⟩ := bind_eq_ok.mp h
    obtain ⟨funds, hfunds, h⟩ := bind_eq_ok.mp h
    obtain rfl := pure_eq_ok.mp h
    obtain ⟨hprice, hprice_pos⟩ := restPositiveDecimal_eq_ok hprice
    obtain ⟨hvolume, hvolume_pos⟩ := restPositiveDecimal_eq_ok hvolume
    obtain ⟨rfl, hfunds_nonneg⟩ := optionalDecimal_eq_ok hfunds
    refine ⟨hoccurred, (optionalStr_eq_ok huuid).symm, hprice, hvolume, rfl, hprice_pos,
      hvolume_pos, ?_⟩
    cases hvalue : raw.funds with
    | none => exact le_refl _
    | some fund => exact hfunds_nonneg fund hvalue

/-- What of a parsed snapshot the fills are made of. -/
structure ParsedTrades (payload : RestOrderPayload) (knowledgeAt : Instant)
    (snapshot : UpbitRestOrderSnapshot) : Prop where
  knowledgeAt_eq : snapshot.knowledgeAt = knowledgeAt
  paidFee_eq : snapshot.paidFee = payload.paidFee.getD 0
  paidFee_nonneg : 0 ≤ snapshot.paidFee
  kept : ∀ trade ∈ snapshot.trades, ∃ raw ∈ payload.trades.getD [], KeptTrade payload raw trade
  complete : ∀ raw ∈ payload.trades.getD [], ∃ trade ∈ snapshot.trades,
    KeptTrade payload raw trade
  funds_eq : snapshot.trades.map UpbitRestTradeSnapshot.funds =
    (orderedTrades payload).map RestTradePayload.funds

/-- The parser numbers the trades as the payload orders them. -/
theorem sortedBy_tradeSortKey_funds {unsorted : List UpbitRestTradeSnapshot} (h :
      (payload.trades.getD []).mapM (tradeSnapshot fallbackSide payload.createdAt) = .ok unsorted) :
    (sortedBy tradeSortKey unsorted).map UpbitRestTradeSnapshot.funds =
      (orderedTrades payload).map RestTradePayload.funds := by
  have hkeyed := map_eq_of_mapM_eq_ok h (p := fun trade => (tradeSortKey trade, trade.funds))
    (q := fun raw => (toLex ((tradeTime payload raw).getD 0,
      toLex (raw.uuid.getD "", toLex (raw.price.getD 0, raw.volume.getD 0))), raw.funds))
    fun raw _ trade htrade => by
      have hkept := keptTrade htrade
      rw [hkept.occurredAt, hkept.uuid, hkept.price, hkept.volume, hkept.funds]
      rfl
  have hsorted := congrArg (fun keyed => (sortedBy Prod.fst keyed).map Prod.snd) hkeyed
  simp only [sortedBy_map, map_map] at hsorted
  exact hsorted

/-- What the parser keeps of the trades. -/
theorem parsedTrades {endpoint : String}
    (h : parseUpbitRestOrderSnapshot payload knowledgeAt endpoint = .ok snapshot) :
    ParsedTrades payload knowledgeAt snapshot := by
  obtain ⟨endpoint, -, h⟩ := bind_eq_ok.mp h
  obtain ⟨fallbackSide, -, h⟩ := bind_eq_ok.mp h
  obtain ⟨unsorted, hunsorted, h⟩ := bind_eq_ok.mp h
  obtain ⟨tradesCount, -, h⟩ := bind_eq_ok.mp h
  obtain ⟨-, h⟩ := guard_eq_ok.mp h
  obtain ⟨market, -, h⟩ := bind_eq_ok.mp h
  obtain ⟨uuid, -, h⟩ := bind_eq_ok.mp h
  obtain ⟨identifier, -, h⟩ := bind_eq_ok.mp h
  obtain ⟨state, -, h⟩ := bind_eq_ok.mp h
  obtain ⟨remainingVolume, -, h⟩ := bind_eq_ok.mp h
  obtain ⟨executedVolume, -, h⟩ := bind_eq_ok.mp h
  obtain ⟨paidFee, hpaidFee, h⟩ := bind_eq_ok.mp h
  obtain ⟨smpType, -, h⟩ := bind_eq_ok.mp h
  obtain ⟨preventedVolume, -, h⟩ := bind_eq_ok.mp h
  obtain ⟨preventedLocked, -, h⟩ := bind_eq_ok.mp h
  obtain ⟨-, h⟩ := guard_eq_ok.mp h
  obtain rfl := pure_eq_ok.mp h
  obtain ⟨rfl, hpaid_nonneg⟩ := optionalDecimal_eq_ok hpaidFee
  obtain ⟨hback, hforth⟩ := mem_of_mapM_eq_ok hunsorted
  constructor
  case knowledgeAt_eq => rfl
  case paidFee_eq => rfl
  case paidFee_nonneg =>
    cases hvalue : payload.paidFee with
    | none => exact le_refl _
    | some fee => exact hpaid_nonneg fee hvalue
  case kept =>
    intro trade htrade
    obtain ⟨raw, hraw, hok⟩ := hback trade (mem_sortedBy.mp htrade)
    exact ⟨raw, hraw, keptTrade hok⟩
  case complete =>
    intro raw hraw
    obtain ⟨trade, htrade, hok⟩ := hforth raw hraw
    exact ⟨trade, mem_sortedBy.mpr htrade, keptTrade hok⟩
  case funds_eq => exact sortedBy_tradeSortKey_funds hunsorted

/-- No fee is negative exactly when the earlier shares leave something of the paid fee. -/
theorem distributedFees_nonneg_iff {fees funds : List ℚ}
    (h : distributedFees .default snapshot = .ok fees) (hpaid : 0 ≤ snapshot.paidFee)
    (hfunds : funds = snapshot.trades.map fun trade => trade.funds.getD 0)
    (hfunds_nonneg : ∀ fund ∈ funds, 0 ≤ fund) : (∀ fee ∈ fees, 0 ≤ fee) ↔
      assignedFee .default snapshot.paidFee (Arithmetic.default.sum funds) 0 funds.dropLast ≤
        snapshot.paidFee := by
  subst hfunds
  unfold distributedFees at h
  simp only [map_map] at h
  split_ifs at h with hnone hzero hone hmissing htotal
  · obtain rfl := Except.ok.inj h
    rw [hnone]
    exact iff_of_true (by simp) hpaid
  · obtain rfl := Except.ok.inj h
    rw [hzero, assignedFee_zero _ (roundSignificant_zero 28)]
    exact iff_of_true (by simp) (le_refl _)
  · obtain rfl := Except.ok.inj h
    obtain ⟨trade, htrade⟩ := length_eq_one_iff.mp hone
    rw [htrade]
    exact iff_of_true (by simpa using hpaid) hpaid
  · obtain rfl := Except.ok.inj h
    apply feeShares_nonneg_iff hpaid (not_le.mp htotal).le _ hfunds_nonneg
    simpa using hnone

/-- The ledger accepts every fill of a request exactly when no trade is later than the time at
which the snapshot was known and the rounded shares of the earlier trades are covered by the
paid fee.
SOURCE: upbit_rest_reconciliation.py:88-310, portfolio_bot_store.py:1566-1584 -/
theorem request_accepted_iff {payload : RestOrderPayload} {knowledgeAt : Instant}
    {endpoint : String} {snapshot : UpbitRestOrderSnapshot} {request : RestReconciliationRequest}
    (hparse : parseUpbitRestOrderSnapshot payload knowledgeAt endpoint = .ok snapshot)
    (hbuild : buildUpbitRestReconciliationRequest .default snapshot = .ok request) :
    (∀ fill ∈ request.fills, Accepted fill) ↔
      TradesKnown payload knowledgeAt ∧ FeeCovered payload := by
  have hparsed := parsedTrades hparse
  obtain ⟨fills, hfills, hrequest⟩ := buildRequest_fills hbuild
  rw [hrequest, forall_reconciliationFills hfills fun trade htrade fee index hindex => by
    obtain ⟨raw, -, hkept⟩ := hparsed.kept trade htrade
    exact accepted_reconciliationFill hkept.price_pos hkept.volume_pos fee hindex]
  have hfunds : orderedFunds payload = snapshot.trades.map fun trade => trade.funds.getD 0 := by
    have hmap := congrArg (List.map fun fund : Option ℚ => fund.getD 0) hparsed.funds_eq
    simp only [map_map] at hmap
    exact hmap.symm
  have hfunds_nonneg : ∀ fund ∈ orderedFunds payload, 0 ≤ fund := by
    intro fund hfund
    rw [hfunds] at hfund
    obtain ⟨trade, htrade, rfl⟩ := mem_map.mp hfund
    obtain ⟨raw, -, hkept⟩ := hparsed.kept trade htrade
    exact hkept.funds_nonneg
  apply and_congr
  · rw [hparsed.knowledgeAt_eq]
    constructor
    · intro hknown raw hraw occurredAt hoccurred
      obtain ⟨trade, htrade, hkept⟩ := hparsed.complete raw hraw
      obtain rfl := Option.some.inj (hkept.occurredAt.symm.trans hoccurred)
      exact hknown trade htrade
    · intro hknown trade htrade
      obtain ⟨raw, hraw, hkept⟩ := hparsed.kept trade htrade
      exact hknown raw hraw _ hkept.occurredAt
  · rw [FeeCovered, ← hparsed.paidFee_eq]
    have hiff := fun fees hfees =>
      @distributedFees_nonneg_iff snapshot fees _ hfees hparsed.paidFee_nonneg hfunds
        hfunds_nonneg
    obtain ⟨fees, hfees, -⟩ := bind_eq_ok.mp hfills
    constructor
    · exact fun hall => (hiff fees hfees).mp (hall fees hfees)
    · exact fun hcovered fees hfees => (hiff fees hfees).mpr hcovered

theorem request_accepted_two_trades : ∃ snapshot request,
      parseUpbitRestOrderSnapshot (twoTradesPayload 3) 0 "GET /v1/order" = .ok snapshot ∧
      buildUpbitRestReconciliationRequest .default snapshot = .ok request ∧
      ∀ fill ∈ request.fills, Accepted fill := by
  have hok : (parseUpbitRestOrderSnapshot (twoTradesPayload 3) 0 "GET /v1/order" >>=
      buildUpbitRestReconciliationRequest .default).isOk = true := by
    decide +kernel
  obtain ⟨request, hrequest⟩ := exists_ok_of_isOk hok
  obtain ⟨snapshot, hparse, hbuild⟩ := bind_eq_ok.mp hrequest
  refine ⟨snapshot, request, hparse, hbuild, (request_accepted_iff hparse hbuild).mpr ⟨?_, ?_⟩⟩
  · intro raw hraw occurredAt hoccurred
    simp only [twoTradesPayload, Option.getD_some, mem_cons, not_mem_nil, or_false] at hraw
    rcases hraw with rfl | rfl
    · exact (Option.some.inj hoccurred).ge
    · exact (Option.some.inj hoccurred).ge
  · show assignedFee .default 3 _ 0 _ ≤ 3
    decide +kernel

/-- A finished order with three equal trades and one whose funds are zero. -/
def emptyTradePayload (paidFee : ℚ) : RestOrderPayload where
  market := some "KRW-BTC"
  uuid := some "order"
  side := some "bid"
  state := some "done"
  createdAt := some 0
  executedVolume := some 4
  paidFee := some paidFee
  tradesCount := some 4
  trades := some [
    { uuid := some "a", price := some 1, volume := some 1, funds := some 1 },
    { uuid := some "b", price := some 1, volume := some 1, funds := some 1 },
    { uuid := some "c", price := some 1, volume := some 1, funds := some 1 },
    { uuid := some "d", price := some 1, volume := some 1, funds := some 0 }]

/-- The ledger rejects a fill of the request that is built from the payload. -/
def BuildsRejected (payload : RestOrderPayload) (knowledgeAt : Instant) : Prop :=
  ∃ snapshot request,
    parseUpbitRestOrderSnapshot payload knowledgeAt "GET /v1/order" = .ok snapshot ∧
    buildUpbitRestReconciliationRequest .default snapshot = .ok request ∧
    ∃ fill ∈ request.fills, ¬ Accepted fill

theorem buildsRejected_of (h : (parseUpbitRestOrderSnapshot payload knowledgeAt "GET /v1/order" >>=
      buildUpbitRestReconciliationRequest .default).toOption.any (fun request => request.fills.any
      fun fill => (reconciliationFillPayload fill).isOk = false) = true) :
    BuildsRejected payload knowledgeAt := by
  obtain ⟨request, hrequest, hany⟩ := (Option.any_eq_true _ _).mp h
  obtain ⟨snapshot, hparse, hbuild⟩ := bind_eq_ok.mp (mem_toOption.mp hrequest)
  obtain ⟨fill, hfill, hrejected⟩ := any_eq_true.mp hany
  refine ⟨snapshot, request, hparse, hbuild, fill, hfill, ?_⟩
  rintro ⟨accepted, haccepted⟩
  rw [haccepted] at hrejected
  cases hrejected

/-- The three rounded shares of a fee of 0.8 exceed it, so the fourth trade gets a negative fee;
and a trade may be later than the local time at which the snapshot was taken. -/
theorem request_not_accepted :
    BuildsRejected (emptyTradePayload (4 / 5)) 0 ∧ BuildsRejected (twoTradesPayload 3) (-1) :=
  ⟨buildsRejected_of (by decide +kernel), buildsRejected_of (by decide +kernel)⟩

end Goodmoneying.Analysis
