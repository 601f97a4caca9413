import Mathlib.Algebra.Order.Ring.Int
import Mathlib.Tactic.Linarith

/-!
# Retry budgets

An item of a queue counts its attempts up to a limit. A claim counts one; where the work does not
go ahead the claim gives it back; a failure leaves the item waiting only while attempts are left.
An item that waits has an attempt left (`Within`), so a claim of one stays within its limit. A
claim of an item that does not wait is the case that needs the condition.
-/

namespace Goodmoneying.Library

/-- The attempts of an item, and whether it waits for a claim. -/
structure RetryBudget where
  attempts : ℤ
  limit : ℤ
  waits : Bool
  deriving DecidableEq, Repr

namespace RetryBudget

/-- The attempts are within the limit, and one is left where the item waits. -/
structure Within (b : RetryBudget) : Prop where
  limit_pos : 0 < b.limit
  nonneg : 0 ≤ b.attempts
  le_limit : b.attempts ≤ b.limit
  left : b.waits = true → b.attempts < b.limit

/-- An item that nobody has tried. -/
def fresh (limit : ℤ) : RetryBudget := ⟨0, limit, true⟩

/-- A claim. -/
def claim (b : RetryBudget) : RetryBudget := ⟨b.attempts + 1, b.limit, false⟩

/-- The claim is given back. -/
def putBack (b : RetryBudget) : RetryBudget := ⟨max (b.attempts - 1) 0, b.limit, true⟩

/-- The attempt has failed. -/
def fail (b : RetryBudget) : RetryBudget := ⟨b.attempts, b.limit, !decide (b.limit ≤ b.attempts)⟩

/-- The work has succeeded. -/
def succeed (b : RetryBudget) : RetryBudget := ⟨b.attempts, b.limit, false⟩

/-- A part of the work has succeeded, and the attempts are counted anew. -/
def restart (b : RetryBudget) (waits : Bool) : RetryBudget := ⟨0, b.limit, waits⟩

variable {b : RetryBudget}

theorem Within.fresh {limit : ℤ} (h : 0 < limit) : (RetryBudget.fresh limit).Within where
  limit_pos := h
  nonneg := le_refl _
  le_limit := h.le
  left _ := h

/-- A claim stays within the limit where an attempt is left. -/
theorem Within.claim (h : b.Within) (hleft : b.attempts < b.limit) : b.claim.Within where
  limit_pos := h.limit_pos
  nonneg := Int.le_add_one h.nonneg
  le_limit := hleft
  left hwaits := absurd hwaits (Bool.false_ne_true)

theorem Within.putBack (h : b.Within) : b.putBack.Within := by
  have hpos := h.limit_pos
  have hle := h.le_limit
  have hlt : max (b.attempts - 1) 0 < b.limit := max_lt (by linarith) hpos
  exact ⟨hpos, le_max_right _ _, hlt.le, fun _ => hlt⟩

/-- A failure within the budget. -/
theorem Within.fail (h : b.Within) : b.fail.Within where
  limit_pos := h.limit_pos
  nonneg := h.nonneg
  le_limit := h.le_limit
  left hwaits := by
    have hnot : ¬ b.limit ≤ b.attempts := by simpa [RetryBudget.fail] using hwaits
    exact not_le.mp hnot

theorem Within.succeed (h : b.Within) : b.succeed.Within where
  limit_pos := h.limit_pos
  nonneg := h.nonneg
  le_limit := h.le_limit
  left hwaits := absurd hwaits (Bool.false_ne_true)

/-- A new start has the whole budget. -/
theorem Within.restart (h : b.Within) (waits : Bool) : (b.restart waits).Within where
  limit_pos := h.limit_pos
  nonneg := le_refl _
  le_limit := h.limit_pos.le
  left _ := h.limit_pos

end RetryBudget

end Goodmoneying.Library
