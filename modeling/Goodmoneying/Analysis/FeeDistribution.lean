import Mathlib.Algebra.BigOperators.Ring.List
import Goodmoneying.Analysis.RestFillValidation

/-!
# The paid fee shared out over trades

Without rounding the last trade of an order gets the same share of the paid fee as the others, and
the shares add up to the fee. The fills of a request do not depend on the order in which the answer
lists its trades, unless two of them have the same time, identifier, price and volume.
-/

namespace Goodmoneying.Analysis

open List Library Program

variable {payload : RestOrderPayload} {snapshot : UpbitRestOrderSnapshot}
variable {knowledgeAt : Instant} {endpoint : String} {trade : UpbitRestTradeSnapshot}
  {trades : List RestTradePayload}

/-! ## Shares -/

/-- After some shares the rest of them, the last one included, are proportional to the funds. -/
theorem feeShares_exact {paidFee totalFunds assigned : ℚ} {funds : List ℚ}
    (h : assigned + paidFee * funds.sum / totalFunds = paidFee) :
    feeShares .exact paidFee totalFunds assigned funds =
      funds.map fun fund => paidFee * fund / totalFunds := by
  induction funds generalizing assigned with
  | nil => rfl
  | cons fund funds ih =>
    cases funds with
    | nil =>
      rw [sum_singleton] at h
      simp only [feeShares, Arithmetic.exact_sub, map_cons, map_nil]
      rw [sub_eq_of_eq_add' h.symm]
    | cons next funds =>
      have hrest : assigned + paidFee * fund / totalFunds +
          paidFee * (next :: funds).sum / totalFunds = paidFee := by
        calc assigned + paidFee * fund / totalFunds + paidFee * (next :: funds).sum / totalFunds
            = assigned + paidFee * (fund + (next :: funds).sum) / totalFunds := by ring
          _ = paidFee := by rw [← sum_cons]; exact h
      simp only [feeShares, Arithmetic.exact_mul, Arithmetic.exact_div, Arithmetic.exact_add]
      rw [ih hrest]
      rfl

theorem exact_sum (values : List ℚ) : Arithmetic.exact.sum values = values.sum := by
  show values.foldl (· + ·) 0 = values.sum
  rw [← sum_eq_foldl]

/-- The share of a trade. -/
def share (snapshot : UpbitRestOrderSnapshot) (trade : UpbitRestTradeSnapshot) : ℚ :=
  snapshot.paidFee * trade.funds.getD 0 /
    (snapshot.trades.map fun trade => trade.funds.getD 0).sum

/-- No funds to share the fee out over: those of a trade are not known, or all are zero. -/
def NoFunds (snapshot : UpbitRestOrderSnapshot) : Prop :=
  (∃ trade ∈ snapshot.trades, trade.funds = none) ∨
    ∀ trade ∈ snapshot.trades, trade.funds = some 0

/-- The fee and the funds of a snapshot are not negative. -/
structure NonNegative (snapshot : UpbitRestOrderSnapshot) : Prop where
  paidFee : 0 ≤ snapshot.paidFee
  funds : ∀ trade ∈ snapshot.trades, 0 ≤ trade.funds.getD 0

theorem NonNegative.of_parse
    (h : parseUpbitRestOrderSnapshot payload knowledgeAt endpoint = .ok snapshot) :
    NonNegative snapshot := by
  have hparsed := parsedTrades h
  refine ⟨hparsed.paidFee_nonneg, fun trade htrade => ?_⟩
  obtain ⟨raw, -, hkept⟩ := hparsed.kept trade htrade
  exact hkept.funds_nonneg

theorem NonNegative.sum_nonpos_iff (h : NonNegative snapshot)
    (hknown : ∀ trade ∈ snapshot.trades, trade.funds ≠ none) :
    (snapshot.trades.map fun trade => trade.funds.getD 0).sum ≤ 0 ↔
      ∀ trade ∈ snapshot.trades, trade.funds = some 0 := by
  have hnonneg : ∀ fund ∈ snapshot.trades.map fun trade => trade.funds.getD 0, 0 ≤ fund := by
    rw [forall_mem_map]
    exact h.funds
  constructor
  · intro hle trade htrade
    have hzero := all_zero_of_le_zero_le_of_sum_eq_zero hnonneg
      (le_antisymm hle (sum_nonneg hnonneg)) (mem_map_of_mem htrade)
    obtain ⟨fund, hfund⟩ := Option.ne_none_iff_exists'.mp (hknown trade htrade)
    rw [hfund, Option.getD_some] at hzero
    rw [hfund, hzero]
  · intro hall
    refine (sum_eq_zero ?_).le
    rw [forall_mem_map]
    exact fun trade htrade => by rw [hall trade htrade, Option.getD_some]

theorem distributedFees_singleton (hone : snapshot.trades.length = 1) :
    distributedFees .exact snapshot = .ok [snapshot.paidFee] := by
  obtain ⟨trade, htrade⟩ := length_eq_one_iff.mp hone
  unfold distributedFees
  rw [if_neg (by simp [htrade])]
  split_ifs with hzero
  · simp [htrade, hzero]
  · rfl

/-- Several trades share the paid fee, unless none has known funds. -/
theorem distributedFees_several (h : NonNegative snapshot) (hseveral : 1 < snapshot.trades.length)
    (hpaid : 0 < snapshot.paidFee) :
    (NoFunds snapshot ∧ ∃ error, distributedFees .exact snapshot = .error error) ∨
    (¬ NoFunds snapshot ∧ 0 < (snapshot.trades.map fun trade => trade.funds.getD 0).sum ∧
      distributedFees .exact snapshot = .ok (snapshot.trades.map (share snapshot))) := by
  have hne : snapshot.trades ≠ [] := ne_nil_of_length_pos (by omega)
  unfold distributedFees
  rw [if_neg hne, if_neg hpaid.ne', if_neg hseveral.ne']
  simp only [map_map, exact_sum, Function.comp_def]
  split_ifs with hmissing htotal
  · left
    obtain ⟨fund, hfund, hnone⟩ := any_eq_true.mp hmissing
    obtain ⟨trade, htrade, rfl⟩ := mem_map.mp hfund
    exact ⟨Or.inl ⟨trade, htrade, Option.isNone_iff_eq_none.mp hnone⟩, _, rfl⟩
  · left
    refine ⟨Or.inr ((h.sum_nonpos_iff ?_).mp htotal), _, rfl⟩
    intro trade htrade hnone
    exact hmissing (any_eq_true.mpr ⟨_, mem_map_of_mem htrade, by simp [hnone]⟩)
  · right
    have hknown : ∀ trade ∈ snapshot.trades, trade.funds ≠ none := by
      intro trade htrade hnone
      exact hmissing (any_eq_true.mpr ⟨_, mem_map_of_mem htrade, by simp [hnone]⟩)
    have htotal' := not_le.mp htotal
    refine ⟨?_, htotal', ?_⟩
    · rintro (⟨trade, htrade, hnone⟩ | hall)
      · exact hknown trade htrade hnone
      · exact htotal ((h.sum_nonpos_iff hknown).mpr hall)
    · rw [feeShares_exact (by rw [zero_add, mul_div_cancel_right₀ _ htotal'.ne']), map_map]
      rfl

theorem share_nonneg (h : NonNegative snapshot)
    (htotal : 0 < (snapshot.trades.map fun trade => trade.funds.getD 0).sum)
    (htrade : trade ∈ snapshot.trades) : 0 ≤ share snapshot trade :=
  div_nonneg (mul_nonneg h.paidFee (h.funds trade htrade)) htotal.le

theorem sum_share (htotal : 0 < (snapshot.trades.map fun trade => trade.funds.getD 0).sum) :
    (snapshot.trades.map (share snapshot)).sum = snapshot.paidFee := by
  have hfactor : share snapshot = fun trade => snapshot.paidFee /
      (snapshot.trades.map fun trade => trade.funds.getD 0).sum * trade.funds.getD 0 := by
    funext trade
    rw [share, mul_div_right_comm]
  rw [hfactor, sum_map_mul_left, div_mul_cancel₀ _ htotal.ne']

/-- What is handed out is the paid fee, none of it negative, and where it is split it is split in
proportion to the funds. -/
structure FeesPreserved (snapshot : UpbitRestOrderSnapshot) (fees : List ℚ) : Prop where
  length : fees.length = snapshot.trades.length
  nonneg : ∀ fee ∈ fees, 0 ≤ fee
  sum : fees.sum = snapshot.paidFee
  shares : 1 < snapshot.trades.length → 0 < snapshot.paidFee →
    fees = snapshot.trades.map (share snapshot)

theorem feesPreserved {fees : List ℚ} (h : NonNegative snapshot) (hne : snapshot.trades ≠ [])
    (hfees : distributedFees .exact snapshot = .ok fees) : FeesPreserved snapshot fees := by
  have hpos : 0 < snapshot.trades.length := length_pos_of_ne_nil hne
  by_cases hone : snapshot.trades.length = 1
  · rw [distributedFees_singleton hone] at hfees
    obtain rfl := Except.ok.inj hfees
    exact ⟨hone.symm, by simpa using h.paidFee, sum_singleton, fun hseveral => by omega⟩
  · have hseveral : 1 < snapshot.trades.length := by omega
    rcases h.paidFee.eq_or_lt with hzero | hpaid
    · have hzeros : distributedFees .exact snapshot = .ok (snapshot.trades.map fun _ => 0) := by
        unfold distributedFees
        rw [if_neg hne, if_pos hzero.symm]
      rw [hzeros] at hfees
      obtain rfl := Except.ok.inj hfees
      refine ⟨length_map .., by simp, by simp [← hzero], fun _ hpaid => ?_⟩
      exact absurd hzero hpaid.ne
    · rcases distributedFees_several h hseveral hpaid with ⟨-, error, herror⟩ | ⟨-, htotal, hshares⟩
      · rw [herror] at hfees
        cases hfees
      · rw [hshares] at hfees
        obtain rfl := Except.ok.inj hfees
        refine ⟨length_map .., ?_, sum_share htotal, fun _ _ => rfl⟩
        rw [forall_mem_map]
        exact fun trade htrade => share_nonneg h htotal htrade

/-- The distribution raises for several trades without known funds, and for these only. -/
theorem distributedFees_error_iff (h : NonNegative snapshot) (hne : snapshot.trades ≠ []) :
    (∃ error, distributedFees .exact snapshot = .error error) ↔
      1 < snapshot.trades.length ∧ 0 < snapshot.paidFee ∧ NoFunds snapshot := by
  constructor
  · rintro ⟨error, herror⟩
    have hseveral : 1 < snapshot.trades.length := by
      by_contra hle
      have hpos : 0 < snapshot.trades.length := length_pos_of_ne_nil hne
      rw [distributedFees_singleton (by omega)] at herror
      cases herror
    have hpaid : 0 < snapshot.paidFee := by
      refine lt_of_le_of_ne h.paidFee fun hzero => ?_
      unfold distributedFees at herror
      rw [if_neg hne, if_pos hzero.symm] at herror
      cases herror
    rcases distributedFees_several h hseveral hpaid with ⟨hnone, -⟩ | ⟨-, -, hshares⟩
    · exact ⟨hseveral, hpaid, hnone⟩
    · rw [hshares] at herror
      cases herror
  · rintro ⟨hseveral, hpaid, hnone⟩
    rcases distributedFees_several h hseveral hpaid with ⟨-, herror⟩ | ⟨hfunds, -⟩
    · exact herror
    · exact absurd hnone hfunds

/-! ## The order of the trades -/

/-- What a trade of a payload is sorted by. -/
def payloadSortKey (payload : RestOrderPayload) (trade : RestTradePayload) :
    Option Instant × String × Option ℚ × Option ℚ :=
  (tradeTime payload trade, trade.uuid.getD "", trade.price, trade.volume)

theorem KeptTrade.payloadSortKey_eq {raw : RestTradePayload} (h : KeptTrade payload raw trade) :
    payloadSortKey payload raw =
      (some trade.occurredAt, trade.uuid.getD "", some trade.price, some trade.volume) := by
  rw [payloadSortKey, h.occurredAt, h.uuid, h.price, h.volume]

theorem nodup_tradeSortKey {fallbackSide : Side} {unsorted : List UpbitRestTradeSnapshot}
    (h : trades.mapM (tradeSnapshot fallbackSide payload.createdAt) = .ok unsorted)
    (hnodup : (trades.map (payloadSortKey payload)).Nodup) : (unsorted.map tradeSortKey).Nodup := by
  have hkeys := map_eq_of_mapM_eq_ok h (p := fun trade : UpbitRestTradeSnapshot =>
    (some trade.occurredAt, trade.uuid.getD "", some trade.price, some trade.volume))
    (q := payloadSortKey payload) fun raw _ trade htrade =>
      (keptTrade htrade).payloadSortKey_eq.symm
  rw [← hkeys] at hnodup
  refine pairwise_map.mpr ((pairwise_map.mp hnodup).imp fun hne heq => hne ?_)
  simp only [tradeSortKey, toLex_inj, Prod.mk.injEq] at heq
  obtain ⟨htime, huuid, hprice, hvolume⟩ := heq
  rw [htime, huuid, hprice, hvolume]

/-- Two orders of trades with different sort keys are parsed alike. -/
theorem parse_perm
    (hparse : parseUpbitRestOrderSnapshot payload knowledgeAt endpoint = .ok snapshot)
    (hperm : (payload.trades.getD []).Perm trades)
    (hnodup : ((payload.trades.getD []).map (payloadSortKey payload)).Nodup) :
    parseUpbitRestOrderSnapshot { payload with trades := some trades } knowledgeAt endpoint =
      .ok snapshot := by
  unfold parseUpbitRestOrderSnapshot at hparse ⊢
  obtain ⟨endpoint', hendpoint, hparse⟩ := bind_eq_ok.mp hparse
  obtain ⟨fallbackSide, hside, hparse⟩ := bind_eq_ok.mp hparse
  obtain ⟨unsorted, hunsorted, hparse⟩ := bind_eq_ok.mp hparse
  obtain ⟨others, hothers, hpermuted⟩ := exists_mapM_of_perm hunsorted hperm
  have hkeys := nodup_tradeSortKey hunsorted hnodup
  have hsorted : sortedBy tradeSortKey others = sortedBy tradeSortKey unsorted := by
    refine eq_of_pairwise_le ?_ (sortedBy_pairwise tradeSortKey _) (sortedBy_pairwise _ _)
      ((nodup_map_sortedBy _).mpr hkeys)
    exact (sortedBy_perm _ _).trans (hpermuted.symm.trans (sortedBy_perm _ _).symm)
  dsimp only
  rw [hendpoint, ok_bind, hside, ok_bind, Option.getD_some, hothers, ok_bind, hsorted]
  exact hparse

/-- Without rounding the fees of a parsed snapshot are one for each trade, none negative, with the
paid fee as their sum, each in proportion to its funds; the distribution raises for several trades
without known funds only; and the request does not depend on the order of the trades of a payload
with pairwise different sort keys.
SOURCE: upbit_rest_reconciliation.py:88-310 -/
theorem fees_preserved {payload : RestOrderPayload} {knowledgeAt : Instant} {endpoint : String}
    {snapshot : UpbitRestOrderSnapshot}
    (hparse : parseUpbitRestOrderSnapshot payload knowledgeAt endpoint = .ok snapshot) :
    (snapshot.trades ≠ [] →
      (∀ fees, distributedFees .exact snapshot = .ok fees → FeesPreserved snapshot fees) ∧
      ((∃ error, distributedFees .exact snapshot = .error error) ↔
        1 < snapshot.trades.length ∧ 0 < snapshot.paidFee ∧ NoFunds snapshot)) ∧
    ∀ (ar : Arithmetic) (trades : List RestTradePayload), (payload.trades.getD []).Perm trades →
      ((payload.trades.getD []).map (payloadSortKey payload)).Nodup →
      ∃ permuted, parseUpbitRestOrderSnapshot { payload with trades := some trades } knowledgeAt
          endpoint = .ok permuted ∧
        buildUpbitRestReconciliationRequest ar permuted =
          buildUpbitRestReconciliationRequest ar snapshot := by
  have hnonneg := NonNegative.of_parse hparse
  refine ⟨fun hne => ⟨fun fees hfees => feesPreserved hnonneg hne hfees,
    distributedFees_error_iff hnonneg hne⟩, ?_⟩
  intro ar trades hperm hnodup
  exact ⟨snapshot, parse_perm hparse hperm hnodup, rfl⟩

theorem fees_preserved_two_trades :
    ∃ snapshot fees permuted,
      parseUpbitRestOrderSnapshot (twoTradesPayload 3) 0 "GET /v1/order" = .ok snapshot ∧
      distributedFees .exact snapshot = .ok fees ∧ fees.sum = snapshot.paidFee ∧
      parseUpbitRestOrderSnapshot { twoTradesPayload 3 with
        trades := some ((twoTradesPayload 3).trades.getD []).reverse } 0 "GET /v1/order" =
          .ok permuted ∧
      buildUpbitRestReconciliationRequest .default permuted =
        buildUpbitRestReconciliationRequest .default snapshot := by
  have hok : (do
      let snapshot ← parseUpbitRestOrderSnapshot (twoTradesPayload 3) 0 "GET /v1/order"
      let fees ← distributedFees .exact snapshot
      if snapshot.trades = [] then throw StoreError.assertionError
      pure (snapshot, fees)).isOk = true := by
    decide +kernel
  obtain ⟨result, hresult⟩ := exists_ok_of_isOk hok
  obtain ⟨snapshot, hparse, hresult⟩ := bind_eq_ok.mp hresult
  obtain ⟨fees, hfees, hresult⟩ := bind_eq_ok.mp hresult
  obtain ⟨hne, -⟩ := guard_eq_ok.mp hresult
  have hpreserved := fees_preserved hparse
  obtain ⟨permuted, hpermuted, hbuild⟩ := hpreserved.2 .default
    ((twoTradesPayload 3).trades.getD []).reverse (reverse_perm _).symm (by decide +kernel)
  exact ⟨snapshot, fees, permuted, hparse, hfees, ((hpreserved.1 hne).1 fees hfees).sum, hpermuted,
    hbuild⟩

end Goodmoneying.Analysis
