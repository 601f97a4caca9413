import Mathlib.Data.List.MinMax
import Goodmoneying.Library.AverageCost
import Goodmoneying.Program.PositionProjection

/-!
# The books of a position

The position projection, brought forward from no row by any sequence of fills, keeps the books of
its accepted fills (`projectFills_accounting`), in exact arithmetic. `Represents` relates a row to
an average-cost holding. A buy is always accepted (`upsert_buy`), a sale exactly when it is covered
(`upsert_sell`, `upsert_sell_rejected`). So a run of the projection is the fold of its accepted
fills over the empty holding (`projectFills_represents`).
-/

namespace Goodmoneying.Analysis

open List Library Program

variable {holding : Holding ℚ} {row : Option PositionProjection}

/-- The arguments of one `_upsert_position_projection` call. -/
structure PositionFill where
  side : Side
  quantity : ℚ
  price : ℚ
  sourceFillId : ℤ
  deriving DecidableEq, Repr

/-- The fills the tables admit: `CHECK (filled_quantity > 0)`, `CHECK (fill_price > 0)`. -/
def PositionFill.Valid (fill : PositionFill) : Prop := 0 < fill.quantity ∧ 0 < fill.price

/-- The projection of one fill on the current row. -/
def upsertFill (ar : Arithmetic) (row : Option PositionProjection) (fill : PositionFill) :
    Except StoreError PositionProjection :=
  upsertPositionProjection ar row fill.side fill.quantity fill.price fill.sourceFillId

/-- The fill is reflected in the row and not refused. -/
def accepts (ar : Arithmetic) (row : Option PositionProjection) (fill : PositionFill) : Bool :=
  (upsertFill ar row fill).isOk

/-- The row after one fill; a refused fill leaves it. -/
def projectFill (ar : Arithmetic) (row : Option PositionProjection) (fill : PositionFill) :
    Option PositionProjection :=
  match upsertFill ar row fill with
  | .ok next => some next
  | .error _ => row

/-- The row after a sequence of fills. -/
def projectFills (ar : Arithmetic) (row : Option PositionProjection)
    (fills : List PositionFill) : Option PositionProjection :=
  fills.foldl (projectFill ar) row

/-- The fills of a sequence that are accepted. -/
def acceptedFills (ar : Arithmetic) : Option PositionProjection → List PositionFill →
    List PositionFill
  | _, [] => []
  | row, fill :: fills =>
    if accepts ar row fill then fill :: acceptedFills ar (projectFill ar row fill) fills
    else acceptedFills ar (projectFill ar row fill) fills

/-! ## Reading a row, and totals of fills -/

/-- The quantity held, zero without a row. -/
def quantityOf (row : Option PositionProjection) : ℚ :=
  row.elim 0 PositionProjection.quantity

/-- The average entry price, if there is one. -/
def averageOf (row : Option PositionProjection) : Option ℚ :=
  row.bind PositionProjection.averageEntryPrice

/-- The realized profit, zero without a row. -/
def realizedOf (row : Option PositionProjection) : ℚ :=
  row.elim 0 PositionProjection.realizedPnl

/-- The fills of one side. -/
def ofSide (side : Side) (fills : List PositionFill) : List PositionFill :=
  fills.filter fun fill => fill.side = side

/-- The total quantity of the fills of one side. -/
def totalQuantity (side : Side) (fills : List PositionFill) : ℚ :=
  ((ofSide side fills).map fun fill => fill.quantity).sum

/-- The total amount of money of the fills of one side. -/
def totalAmount (side : Side) (fills : List PositionFill) : ℚ :=
  ((ofSide side fills).map fun fill => fill.quantity * fill.price).sum

/-- The prices of the buys. -/
def buyPrices (fills : List PositionFill) : List ℚ :=
  (ofSide .buy fills).map fun fill => fill.price

/-! ## The holding of a sequence of fills -/

/-- A fill as an operation of a holding. -/
def applyFill (holding : Holding ℚ) (fill : PositionFill) : Holding ℚ :=
  match fill.side with
  | .buy => holding.buy fill.quantity fill.price
  | .sell => holding.sell fill.quantity fill.price

/-- The holding after a sequence of fills. -/
def holdingOf (fills : List PositionFill) : Holding ℚ := fills.foldl applyFill .empty

/-- The quantity of a holding is what was bought less what was sold. -/
theorem foldl_applyFill_quantity (fills : List PositionFill) (holding : Holding ℚ) :
    (fills.foldl applyFill holding).quantity =
      holding.quantity + totalQuantity .buy fills - totalQuantity .sell fills := by
  induction fills generalizing holding with
  | nil => simp [totalQuantity, ofSide]
  | cons fill fills ih =>
    rw [foldl_cons, ih]
    cases hside : fill.side <;>
      simp [applyFill, hside, Holding.buy, Holding.sell, totalQuantity, ofSide] <;> ring

/-- The books of a holding balance with the cash of its fills. -/
theorem foldl_applyFill_balanced (fills : List PositionFill) {cash : ℚ}
    (h : holding.Balanced cash) : (fills.foldl applyFill holding).Balanced
      (cash + totalAmount .sell fills - totalAmount .buy fills) := by
  induction fills generalizing holding cash with
  | nil => simpa [totalAmount, ofSide] using h
  | cons fill fills ih =>
    rw [foldl_cons]
    cases hside : fill.side with
    | buy =>
      have hbuy := ih (h.buy fill.quantity fill.price)
      convert hbuy using 1
      · simp [applyFill, hside]
      · simp [totalAmount, ofSide, hside]
        ring
    | sell =>
      have hsell := ih (h.sell fill.quantity fill.price)
      convert hsell using 1
      · simp [applyFill, hside]
      · simp [totalAmount, ofSide, hside]
        ring

/-! ## The row represents a holding -/

/-- The holding makes sense: no quantity or basis below zero, and nothing held costs
nothing. -/
structure Sound (holding : Holding ℚ) : Prop where
  quantity_nonneg : 0 ≤ holding.quantity
  basis_nonneg : 0 ≤ holding.basis
  basis_of_empty : holding.quantity = 0 → holding.basis = 0

/-- The average entry price of a holding: `None` when nothing is held. -/
def entryPrice (holding : Holding ℚ) : Option ℚ :=
  if holding.quantity > 0 then some holding.average else none

/-- The row shows the holding; no row shows the empty one. -/
structure Represents (row : Option PositionProjection) (holding : Holding ℚ) : Prop where
  sound : Sound holding
  quantity : quantityOf row = holding.quantity
  average : averageOf row = entryPrice holding
  realized : realizedOf row = holding.realized

/-- A row stored from a sound holding represents it. -/
theorem positionRow_represents (hsound : Sound holding) (sourceFillId : ℤ) :
    ∃ row, positionRow .exact holding.quantity (entryPrice holding) holding.realized
        sourceFillId = .ok row ∧ Represents (some row) holding := by
  refine ⟨_, positionRow_exact ?_, ⟨hsound, rfl, rfl, rfl⟩⟩
  intro price hprice
  unfold entryPrice at hprice
  split_ifs at hprice with hpos
  cases hprice
  exact div_nonneg hsound.basis_nonneg hsound.quantity_nonneg

/-- The basis read back from a row, its average taken as zero when it is `None`. -/
theorem Represents.basis (h : Represents row holding) :
    holding.basis = quantityOf row * (averageOf row).getD 0 := by
  rw [h.quantity, h.average, entryPrice]
  split_ifs with hpos
  · simp only [Option.getD_some, Holding.average]
    field_simp
  · have hzero : holding.quantity = 0 := le_antisymm (not_lt.mp hpos) h.sound.quantity_nonneg
    simp [hzero, h.sound.basis_of_empty hzero]

theorem represents_none : Represents none .empty where
  sound := ⟨le_rfl, le_rfl, fun _ => rfl⟩
  quantity := rfl
  average := by simp [averageOf, entryPrice, Holding.empty]
  realized := rfl

/-- A purchase keeps a holding sound. -/
theorem Sound.buy (h : Sound holding) {q p : ℚ} (hq : 0 < q) (hp : 0 < p) :
    Sound (holding.buy q p) where
  quantity_nonneg := by
    have := h.quantity_nonneg
    simp only [Holding.buy]
    linarith
  basis_nonneg := by
    have := h.basis_nonneg
    have := mul_pos hq hp
    simp only [Holding.buy]
    linarith
  basis_of_empty := by
    intro hzero
    have := h.quantity_nonneg
    simp only [Holding.buy] at hzero
    linarith

/-- A covered sale keeps a holding sound. -/
theorem Sound.sell (h : Sound holding) {q : ℚ} (p : ℚ) (hq : 0 < q)
    (hcovered : q ≤ holding.quantity) : Sound (holding.sell q p) := by
  have hbasis := Holding.sell_basis (h := holding) (by linarith) q p
  have haverage : 0 ≤ holding.average := div_nonneg h.basis_nonneg h.quantity_nonneg
  have hleft : 0 ≤ (holding.sell q p).quantity := by simpa [Holding.sell] using hcovered
  refine ⟨hleft, ?_, ?_⟩
  · rw [hbasis]
    exact mul_nonneg hleft haverage
  · intro hzero
    rw [hbasis, hzero, zero_mul]

variable {fill : PositionFill}

/-- A buy is accepted, and the new row shows the purchase.
SOURCE: portfolio_bot_store.py:1379-1401 -/
theorem upsert_buy (h : Represents row holding) (hvalid : fill.Valid) (hside : fill.side = .buy) :
    ∃ next, upsertFill .exact row fill = .ok next ∧
      Represents (some next) (applyFill holding fill) := by
  obtain ⟨hq, hp⟩ := hvalid
  have hsound := h.sound.buy hq hp
  have hpos : 0 < holding.quantity + fill.quantity := by
    have := h.sound.quantity_nonneg
    linarith
  obtain ⟨next, hstored, hnext⟩ := positionRow_represents hsound fill.sourceFillId
  refine ⟨next, ?_, by simpa [applyFill, hside] using hnext⟩
  rw [← hstored]
  have hbasis := h.basis
  have hquantity := h.quantity
  have hrealized := h.realized
  cases row with
  | none =>
    simp only [quantityOf, realizedOf, Option.elim_none] at hquantity hrealized
    have hempty := h.sound.basis_of_empty hquantity.symm
    simp only [upsertFill, upsertPositionProjection, hside, Holding.buy, entryPrice,
      Holding.average, ← hquantity, ← hrealized, hempty, zero_add, gt_iff_lt, hq, if_true]
    rw [mul_div_cancel_left₀ _ hq.ne']
  | some current =>
    simp only [quantityOf, averageOf, realizedOf, Option.elim_some, Option.bind_some] at *
    simp only [upsertFill, upsertPositionProjection, hside, Holding.buy, entryPrice,
      Holding.average, Arithmetic.exact_add, Arithmetic.exact_mul, Arithmetic.exact_div,
      hquantity, hrealized, hbasis]

/-- A covered sale is accepted, and the new row shows it.
SOURCE: portfolio_bot_store.py:1402-1410 -/
theorem upsert_sell (h : Represents row holding) (hvalid : fill.Valid) (hside : fill.side = .sell)
    (hcovered : fill.quantity ≤ quantityOf row) : ∃ next, upsertFill .exact row fill = .ok next ∧
      Represents (some next) (applyFill holding fill) := by
  obtain ⟨hq, -⟩ := hvalid
  rw [h.quantity] at hcovered
  have hpos : 0 < holding.quantity := hq.trans_le hcovered
  obtain ⟨next, hstored, hnext⟩ :=
    positionRow_represents (h.sound.sell fill.price hq hcovered) fill.sourceFillId
  refine ⟨next, ?_, by simpa [applyFill, hside] using hnext⟩
  rw [← hstored]
  have hquantity := h.quantity
  have hrealized := h.realized
  have haverage := h.average
  cases row with
  | none =>
    simp only [quantityOf, Option.elim_none] at hquantity
    exact absurd hpos (by simp [← hquantity])
  | some current =>
    simp only [quantityOf, averageOf, realizedOf, Option.elim_some, Option.bind_some] at *
    rw [entryPrice, if_pos hpos] at haverage
    have hsame : entryPrice (holding.sell fill.quantity fill.price) =
        if holding.quantity - fill.quantity > 0 then some holding.average else none := by
      by_cases hleft : holding.quantity - fill.quantity > 0
      · have hbasis := Holding.sell_basis hpos.ne' fill.quantity fill.price
        have hleft' : (holding.sell fill.quantity fill.price).quantity > 0 := hleft
        rw [entryPrice, if_pos hleft', if_pos hleft, Holding.average, hbasis,
          mul_div_cancel_left₀ _ hleft'.ne']
      · have hleft' : ¬ (holding.sell fill.quantity fill.price).quantity > 0 := hleft
        rw [entryPrice, if_neg hleft', if_neg hleft]
    rw [hsame]
    simp only [upsertFill, upsertPositionProjection, hside, Holding.sell, Arithmetic.exact_add,
      Arithmetic.exact_sub, Arithmetic.exact_mul, hquantity, hrealized, haverage,
      Option.getD_some, gt_iff_lt, if_neg (not_lt.mpr hcovered)]

/-- An uncovered sale is refused. -/
theorem upsert_sell_rejected (hside : fill.side = .sell)
    (huncovered : quantityOf row < fill.quantity) :
    upsertFill .exact row fill =
      .error (if row.isNone then sellWithoutPosition else sellExceedsQuantity) := by
  cases row with
  | none => simp [upsertFill, upsertPositionProjection, hside]
  | some current =>
    have huncovered : current.quantity < fill.quantity := huncovered
    simp [upsertFill, upsertPositionProjection, hside, huncovered]

/-! ## Runs -/

/-- One fill either moves the row as it moves the holding, or is refused and leaves it. -/
theorem projectFill_represents (h : Represents row holding) (hvalid : fill.Valid) :
    (accepts .exact row fill = true ∧
      Represents (projectFill .exact row fill) (applyFill holding fill) ∧
      (fill.side = .sell → fill.quantity ≤ holding.quantity)) ∨
    (accepts .exact row fill = false ∧ projectFill .exact row fill = row ∧
      fill.side = .sell ∧ quantityOf row < fill.quantity) := by
  cases hside : fill.side with
  | buy =>
    obtain ⟨next, hok, hnext⟩ := upsert_buy h hvalid hside
    exact Or.inl ⟨by simp [accepts, hok, Except.isOk, Except.toBool],
      by simpa [projectFill, hok] using hnext, by simp⟩
  | sell =>
    rcases le_or_gt fill.quantity (quantityOf row) with hcovered | huncovered
    · obtain ⟨next, hok, hnext⟩ := upsert_sell h hvalid hside hcovered
      exact Or.inl ⟨by simp [accepts, hok, Except.isOk, Except.toBool],
        by simpa [projectFill, hok] using hnext, fun _ => h.quantity ▸ hcovered⟩
    · have hrejected := upsert_sell_rejected hside huncovered
      exact Or.inr ⟨by simp [accepts, hrejected, Except.isOk, Except.toBool],
        by simp [projectFill, hrejected], rfl, huncovered⟩

/-- A run shows the holding of its accepted fills, and keeps the average cost between any
bounds on the buy prices. -/
theorem projectFills_represents (h : Represents row holding) (fills : List PositionFill)
    (hvalid : ∀ fill ∈ fills, fill.Valid) : Represents (projectFills .exact row fills)
        ((acceptedFills .exact row fills).foldl applyFill holding) ∧
      ∀ lo hi : ℚ, holding.Within lo hi →
        (∀ price ∈ buyPrices (acceptedFills .exact row fills), lo ≤ price ∧ price ≤ hi) →
        ((acceptedFills .exact row fills).foldl applyFill holding).Within lo hi := by
  induction fills generalizing row holding with
  | nil => exact ⟨h, fun _ _ hwithin _ => hwithin⟩
  | cons fill fills ih =>
    have hfill := hvalid fill (by simp)
    have hrest : ∀ fill ∈ fills, fill.Valid := fun fill hmem => hvalid fill (by simp [hmem])
    rcases projectFill_represents h hfill with ⟨haccept, hnext, hcovered⟩ | ⟨hreject, hsame, -⟩
    · obtain ⟨hrun, hwithin⟩ := ih hnext hrest
      rw [acceptedFills, if_pos haccept]
      refine ⟨hrun, fun lo hi hstart hprices => hwithin lo hi ?_ ?_⟩
      · cases hside : fill.side with
        | buy =>
          have hprice := hprices fill.price (by simp [buyPrices, ofSide, hside])
          simpa [applyFill, hside] using hstart.buy hfill.1.le hprice.1 hprice.2
        | sell =>
          have hle := hcovered hside
          simpa [applyFill, hside] using hstart.sell fill.price (hfill.1.trans_le hle) hle
      · intro price hmem
        refine hprices price ?_
        cases hside : fill.side <;> simp_all [buyPrices, ofSide]
    · have hrun := ih h hrest
      rw [acceptedFills, if_neg (by simp [hreject]), hsame]
      simpa [projectFills, hsame] using hrun

/-- Accepted fills are fills of the sequence. -/
theorem acceptedFills_subset (ar : Arithmetic) (row : Option PositionProjection)
    (fills : List PositionFill) : acceptedFills ar row fills ⊆ fills := by
  induction fills generalizing row with
  | nil => exact List.Subset.refl _
  | cons fill fills ih =>
    rw [acceptedFills]
    split_ifs
    · exact cons_subset_cons fill (ih _)
    · exact subset_cons_of_subset fill (ih _)

/-- Where something is held, something was bought. -/
theorem buyPrices_ne_nil {fills : List PositionFill} (hvalid : ∀ fill ∈ fills, fill.Valid)
    (hpos : 0 < (holdingOf fills).quantity) : buyPrices fills ≠ [] := by
  intro hnone
  have hbought : totalQuantity .buy fills = 0 := by
    simp only [buyPrices, map_eq_nil_iff] at hnone
    simp [totalQuantity, hnone]
  have hsold : 0 ≤ totalQuantity .sell fills := by
    refine sum_nonneg ?_
    intro quantity hmem
    obtain ⟨fill, hfill, rfl⟩ := mem_map.mp hmem
    exact (hvalid fill (mem_of_mem_filter hfill)).1.le
  rw [holdingOf, foldl_applyFill_quantity, hbought] at hpos
  simp only [Holding.empty] at hpos
  linarith

/-- The position projection keeps the books of its accepted fills.
SOURCE: portfolio_bot_store.py:613-647, 1362-1430 -/
theorem projectFills_accounting (fills : List PositionFill) (hvalid : ∀ fill ∈ fills, fill.Valid) :
    let row := projectFills .exact none fills
    let accepted := acceptedFills .exact none fills
    quantityOf row = totalQuantity .buy accepted - totalQuantity .sell accepted ∧
    0 ≤ quantityOf row ∧
    (averageOf row = none ↔ quantityOf row = 0) ∧
    (∀ average, averageOf row = some average →
      (buyPrices accepted).minimum ≤ (average : WithTop ℚ) ∧
      (average : WithBot ℚ) ≤ (buyPrices accepted).maximum) ∧
    realizedOf row = totalAmount .sell accepted - totalAmount .buy accepted +
      quantityOf row * (averageOf row).getD 0 ∧
    ∀ next : PositionFill, next.Valid →
      (accepts .exact row next = false ↔
        next.side = .sell ∧ quantityOf row < next.quantity) := by
  intro row accepted
  obtain ⟨hrow, hwithin⟩ := projectFills_represents represents_none fills hvalid
  have hquantity := foldl_applyFill_quantity accepted .empty
  have hbalanced := foldl_applyFill_balanced accepted Holding.Balanced.empty
  refine ⟨?_, ?_, ?_, ?_, ?_, ?_⟩
  · rw [hrow.quantity, hquantity]
    simp [Holding.empty]
  · rw [hrow.quantity]
    exact hrow.sound.quantity_nonneg
  · rw [hrow.average, hrow.quantity, entryPrice]
    have := hrow.sound.quantity_nonneg
    split_ifs with hpos
    · simpa using hpos.ne'
    · simpa using le_antisymm (not_lt.mp hpos) this
  · intro average haverage
    have hheld := haverage
    rw [hrow.average, entryPrice] at hheld
    split_ifs at hheld with hpos
    have heq : Holding.average _ = average := Option.some.inj hheld
    have hbought := buyPrices_ne_nil
      (fun fill hmem => hvalid fill (acceptedFills_subset _ _ _ hmem)) hpos
    obtain ⟨lo, hlo⟩ := WithTop.ne_top_iff_exists.mp (mt minimum_eq_top.mp hbought)
    obtain ⟨hi, hhi⟩ := WithBot.ne_bot_iff_exists.mp (mt maximum_eq_bot.mp hbought)
    have hprices : ∀ price ∈ buyPrices accepted, lo ≤ price ∧ price ≤ hi := fun price hmem =>
      ⟨minimum_le_of_mem hmem hlo.symm, le_maximum_of_mem hmem hhi.symm⟩
    obtain ⟨hle, hge⟩ := (hwithin lo hi Holding.Within.empty hprices).average hpos
    rw [← hlo, ← hhi, ← heq]
    exact ⟨WithTop.coe_le_coe.mpr hle, WithBot.coe_le_coe.mpr hge⟩
  · rw [hrow.realized]
    have := hrow.basis
    unfold Holding.Balanced at hbalanced
    rw [hbalanced, this]
    ring
  · intro next hnext
    rcases projectFill_represents hrow hnext with ⟨haccept, -, hcovered⟩ |
        ⟨hreject, -, hside, huncovered⟩
    · constructor
      · intro hreject
        exact absurd (haccept.symm.trans hreject) (by decide)
      · rintro ⟨hside, huncovered⟩
        rw [hrow.quantity] at huncovered
        exact absurd (hcovered hside) (not_le.mpr huncovered)
    · exact ⟨fun _ => ⟨hside, huncovered⟩, fun _ => hreject⟩

/-- A purchase, an uncovered sale, a sale of everything and a second purchase. -/
def reentryFills : List PositionFill :=
  [⟨.buy, 2, 100, 1⟩, ⟨.sell, 3, 500, 2⟩, ⟨.sell, 2, 130, 3⟩, ⟨.buy, 4, 70, 4⟩]

/-- After the second purchase the average is its price, and the realized profit is that of
the covered sale. -/
theorem projectFills_accounting_reentry :
    let row := projectFills .exact none reentryFills
    let accepted := acceptedFills .exact none reentryFills
    row = some ⟨4, some 70, 60, 4⟩ ∧ accepted.length = 3 ∧
    realizedOf row = totalAmount .sell accepted - totalAmount .buy accepted +
      quantityOf row * (averageOf row).getD 0 := by
  intro row accepted
  have hbooks := projectFills_accounting reentryFills (by simp [reentryFills, PositionFill.Valid])
  exact ⟨by decide +kernel, by decide +kernel, hbooks.2.2.2.2.1⟩

end Goodmoneying.Analysis
