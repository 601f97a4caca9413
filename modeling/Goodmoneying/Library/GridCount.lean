import Goodmoneying.Library.TimeGrid
import Mathlib.Algebra.Order.Ring.Int
import Mathlib.Data.Finset.Card
import Mathlib.Order.Interval.Finset.Nat

/-!
# Counting the cells of a grid

When the cells of a grid are numbered one after the other, the cells that begin in a range are
counted by subtracting: the number of its first cell at or after the one end from that at or
after the other (`card_starts`).
-/

namespace Goodmoneying.Library.Grid

/-- `index` numbers the cells one after the other. -/
structure Numbers (g : Grid) (index : ℕ → ℤ) : Prop where
  start (t : ℕ) : index (g.start t) = index t
  next (t : ℕ) : index (g.next (g.start t)) = index t + 1

/-- The number of the first cell that begins at `t` or later. -/
def ceiling (g : Grid) (index : ℕ → ℤ) (t : ℕ) : ℤ :=
  if g.start t = t then index t else index t + 1

variable {g : Grid} {index : ℕ → ℤ}

/-- The ceiling moves on from the start of a cell, and only there. -/
theorem Numbers.ceiling_succ (h : g.Numbers index) (t : ℕ) :
    g.ceiling index (t + 1) = g.ceiling index t + if g.start t = t then 1 else 0 := by
  have hwithin : g.ceiling index t + (if g.start t = t then 1 else 0) = index t + 1 := by
    unfold ceiling
    split_ifs <;> omega
  rw [hwithin]
  have hlt := g.lt_next t
  rcases Nat.lt_or_ge (t + 1) (g.next (g.start t)) with hin | hout
  · -- `t + 1` lies in the cell of `t` and does not begin it
    have hsame : g.start (t + 1) = g.start t :=
      g.start_eq ((g.start_le t).trans (Nat.le_succ t)) hin
    have hle := g.start_le t
    have hindex : index (t + 1) = index t := by rw [← h.start, hsame, h.start]
    rw [ceiling, if_neg (by omega), hindex]
  · -- `t + 1` begins the next cell
    have hat : t + 1 = g.next (g.start t) := by omega
    have hbegins : g.start (t + 1) = t + 1 := by
      rw [hat]
      exact g.start_next t
    rw [ceiling, if_pos hbegins, hat, h.next]

/-- The cells that begin in a range. -/
theorem Numbers.card_starts (h : g.Numbers index) {first last : ℕ} (hle : first ≤ last) :
    (((Finset.Ico first last).filter fun t => g.start t = t).card : ℤ) =
      g.ceiling index last - g.ceiling index first := by
  induction last, hle using Nat.le_induction with
  | base => simp
  | succ last hle ih =>
    have hrange : Finset.Ico first (last + 1) = insert last (Finset.Ico first last) :=
      Nat.Ico_succ_right_eq_insert_Ico hle
    rw [h.ceiling_succ, hrange, Finset.filter_insert]
    split_ifs
    · rw [Finset.card_insert_of_notMem (by simp)]
      push_cast
      omega
    · omega

/-- Cells of equal length are numbered by dividing. -/
theorem numbers_fixed (length : ℕ) (hpos : 0 < length) (offset : ℤ) :
    (fixed length hpos).Numbers fun t => (t : ℤ) / length - offset where
  start t := by
    have hsplit := Nat.div_add_mod t length
    have hstart : t - t % length = length * (t / length) := by omega
    have hpos' : (length : ℤ) ≠ 0 := by omega
    rw [fixed_start, hstart]
    push_cast
    rw [Int.mul_ediv_cancel_left _ hpos']
  next t := by
    have hsplit := Nat.div_add_mod t length
    have hstart : t - t % length = length * (t / length) := by omega
    have hpos' : (length : ℤ) ≠ 0 := by omega
    rw [fixed_next, fixed_start, hstart]
    push_cast
    rw [Int.add_ediv_of_dvd_right (dvd_refl _), Int.mul_ediv_cancel_left _ hpos',
      Int.ediv_self hpos']
    omega

/-- The numbering of a scaled grid. -/
theorem Numbers.scale (h : g.Numbers index) (unit : ℕ) (hpos : 0 < unit) :
    (g.scale unit hpos).Numbers fun t => index (t / unit) where
  start t := by
    rw [scale_start, Nat.mul_div_cancel_left _ hpos, h.start]
  next t := by
    show index (unit * g.next (unit * g.start (t / unit) / unit) / unit) = _
    rw [Nat.mul_div_cancel_left _ hpos, Nat.mul_div_cancel_left _ hpos, h.next]

end Goodmoneying.Library.Grid
