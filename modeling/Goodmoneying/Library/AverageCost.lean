import Mathlib.Algebra.Order.Field.Basic
import Mathlib.Tactic.Linarith
import Mathlib.Tactic.FieldSimp
import Mathlib.Tactic.Ring

/-!
# Average-cost accounting

A holding of one asset: the quantity held, its basis (what the held quantity cost) and the profit
realized so far. Buying adds to the basis; selling takes out the quantity at the average cost and
realizes the difference to the sale price. Realized profit minus basis is the cash that came in
(`Holding.Balanced`), and the average cost stays between two prices (`Holding.Within`).
-/

namespace Goodmoneying.Library

variable {K : Type} [Field K]

/-- What is held of an asset, what it cost, and the profit realized so far. -/
@[ext] structure Holding (K : Type) where
  quantity : K
  basis : K
  realized : K

namespace Holding

variable {h : Holding K} {lo hi : K}

/-- Nothing held, nothing realized. -/
def empty : Holding K := ⟨0, 0, 0⟩

/-- The cost of one unit held. -/
def average (h : Holding K) : K := h.basis / h.quantity

/-- Buy `q` at price `p`. -/
def buy (h : Holding K) (q p : K) : Holding K := ⟨h.quantity + q, h.basis + q * p, h.realized⟩

/-- Sell `q` at price `p`, taken out at the average cost. -/
def sell (h : Holding K) (q p : K) : Holding K :=
  ⟨h.quantity - q, h.basis - q * h.average, h.realized + (p - h.average) * q⟩

/-- The books balance: of the cash that came in, `cash`, what is not profit is the basis. -/
def Balanced (h : Holding K) (cash : K) : Prop := h.realized = cash + h.basis

theorem Balanced.empty : (empty : Holding K).Balanced 0 := by simp [Balanced, Holding.empty]

/-- A purchase is paid. -/
theorem Balanced.buy {cash : K} (hb : h.Balanced cash) (q p : K) :
    (h.buy q p).Balanced (cash - q * p) := by
  unfold Balanced Holding.buy at *
  rw [hb]
  ring

/-- A sale is paid for. -/
theorem Balanced.sell {cash : K} (hb : h.Balanced cash) (q p : K) :
    (h.sell q p).Balanced (cash + q * p) := by
  unfold Balanced Holding.sell at *
  rw [hb]
  ring

/-- What is left after a sale cost the average apiece. -/
theorem sell_basis (hq : h.quantity ≠ 0) (q p : K) :
    (h.sell q p).basis = (h.sell q p).quantity * h.average := by
  have : h.basis = h.quantity * h.average := by unfold Holding.average; field_simp
  simp only [Holding.sell]
  rw [this]
  ring

variable [LinearOrder K] [IsStrictOrderedRing K]

/-- The held quantity cost between `lo` and `hi` apiece. -/
structure Within (lo hi : K) (h : Holding K) : Prop where
  lower : lo * h.quantity ≤ h.basis
  upper : h.basis ≤ hi * h.quantity

omit [IsStrictOrderedRing K] in
theorem Within.empty : (empty : Holding K).Within lo hi := by
  constructor <;> simp [Holding.empty]

/-- A purchase at a price between the bounds stays between them. -/
theorem Within.buy (hw : h.Within lo hi) {q p : K} (hq : 0 ≤ q) (hlo : lo ≤ p) (hhi : p ≤ hi) :
    (h.buy q p).Within lo hi where
  lower := by
    have := mul_le_mul_of_nonneg_right hlo hq
    have := hw.lower
    simp only [Holding.buy]
    linarith
  upper := by
    have := mul_le_mul_of_nonneg_right hhi hq
    have := hw.upper
    simp only [Holding.buy]
    linarith

/-- The average cost lies between the lowest and the highest price. -/
theorem Within.average (hw : h.Within lo hi) (hq : 0 < h.quantity) :
    lo ≤ h.average ∧ h.average ≤ hi :=
  ⟨(le_div_iff₀ hq).mpr hw.lower, (div_le_iff₀ hq).mpr hw.upper⟩

/-- A sale of at most what is held leaves the average cost between the bounds. -/
theorem Within.sell (hw : h.Within lo hi) {q : K} (p : K) (hpos : 0 < h.quantity)
    (hq : q ≤ h.quantity) : (h.sell q p).Within lo hi := by
  obtain ⟨hlo, hhi⟩ := hw.average hpos
  have hleft : 0 ≤ (h.sell q p).quantity := by simpa [Holding.sell] using hq
  have := mul_le_mul_of_nonneg_left hlo hleft
  have := mul_le_mul_of_nonneg_left hhi hleft
  constructor <;> rw [sell_basis hpos.ne'] <;> linarith

end Holding

end Goodmoneying.Library
