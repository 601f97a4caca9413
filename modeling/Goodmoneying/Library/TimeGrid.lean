import Mathlib.Algebra.Order.Ring.Nat
import Mathlib.Tactic.Common

/-!
# Grids

A grid cuts the natural numbers into half-open cells: `start t` is where the cell of `t`
begins, and `next` finds the end of a cell from its start. Cells follow each other without a
gap (`start_next`). A grid nests in another when no cell of it crosses a border of the other
(`Nested`).
-/

namespace Goodmoneying.Library

structure Grid where
  start : ℕ → ℕ
  next : ℕ → ℕ
  start_le (t : ℕ) : start t ≤ t
  lt_next (t : ℕ) : t < next (start t)
  start_eq {t u : ℕ} (hfrom : start t ≤ u) (hto : u < next (start t)) : start u = start t

namespace Grid

variable (g : Grid)
variable {t u : ℕ}

@[simp] theorem start_start (t : ℕ) : g.start (g.start t) = g.start t :=
  g.start_eq (le_refl _) ((g.start_le t).trans_lt (g.lt_next t))

theorem start_lt_next (t : ℕ) : g.start t < g.next (g.start t) :=
  (g.start_le t).trans_lt (g.lt_next t)

theorem start_mono (h : t ≤ u) : g.start t ≤ g.start u := by
  by_contra hlt
  have hle := g.start_le t
  have hsame : g.start t = g.start u := g.start_eq (by omega) (h.trans_lt (g.lt_next u))
  omega

/-- The end of a cell is the start of the cell after it. -/
theorem start_next (t : ℕ) : g.start (g.next (g.start t)) = g.next (g.start t) := by
  by_contra hne
  have hle := g.start_le (g.next (g.start t))
  have hpos := g.start_lt_next t
  -- otherwise the last number of the cell would lie in the later cell as well
  have hlater : g.start (g.next (g.start t) - 1) = g.start (g.next (g.start t)) :=
    g.start_eq (by omega) (by have := g.lt_next (g.next (g.start t)); omega)
  have hearlier : g.start (g.next (g.start t) - 1) = g.start t := g.start_eq (by omega) (by omega)
  have := g.lt_next (g.next (g.start t))
  rw [← hlater, hearlier] at this
  omega

/-- The cell of `t` is the numbers whose cell begins where that of `t` does. -/
theorem start_eq_iff : g.start u = g.start t ↔ g.start t ≤ u ∧ u < g.next (g.start t) := by
  constructor
  · intro h
    rw [← h]
    exact ⟨g.start_le u, g.lt_next u⟩
  · rintro ⟨hfrom, hto⟩
    exact g.start_eq hfrom hto

/-- Of two cells, the earlier one ends before the later one begins. -/
theorem next_le_start (h : g.start t < g.start u) : g.next (g.start t) ≤ g.start u := by
  by_contra hlt
  have hsame := g.start_eq h.le (not_le.mp hlt)
  rw [start_start] at hsame
  omega

/-- Cells of equal length. -/
def fixed (length : ℕ) (hpos : 0 < length) : Grid where
  start t := t - t % length
  next s := s + length
  start_le t := Nat.sub_le _ _
  lt_next t := by
    have := Nat.mod_lt t hpos
    omega
  start_eq {t u} hfrom hto := by
    have hmod := Nat.mod_lt t hpos
    have hsplit := Nat.div_add_mod t length
    -- `u` is the start of the cell of `t` plus a rest below the length
    obtain ⟨rest, rfl⟩ := Nat.exists_eq_add_of_le hfrom
    have hstart : t - t % length = length * (t / length) := by omega
    rw [hstart] at hto ⊢
    rw [Nat.mul_add_mod, Nat.mod_eq_of_lt (by omega)]
    omega

/-- The grid on numbers `unit` times as fine. -/
def scale (unit : ℕ) (hpos : 0 < unit) : Grid where
  start t := unit * g.start (t / unit)
  next s := unit * g.next (s / unit)
  start_le t := (Nat.mul_le_mul_left _ (g.start_le _)).trans (Nat.mul_div_le t unit)
  lt_next t := by
    rw [Nat.mul_div_cancel_left _ hpos, mul_comm]
    exact (Nat.div_lt_iff_lt_mul hpos).mp (g.lt_next _)
  start_eq {t u} hfrom hto := by
    rw [Nat.mul_div_cancel_left _ hpos] at hto
    rw [g.start_eq (t := t / unit) ((Nat.le_div_iff_mul_le hpos).mpr (by rwa [mul_comm]))
      ((Nat.div_lt_iff_lt_mul hpos).mpr (by rwa [mul_comm]))]

/-- No cell of `g` crosses a border of `coarse`. -/
def Nested (coarse : Grid) : Prop := ∀ t, coarse.start (g.start t) = coarse.start t

variable {g} in
/-- A cell of a nested grid ends no later than the cell around it. -/
theorem Nested.next_le {coarse : Grid} (h : g.Nested coarse) (t : ℕ) :
    g.next (g.start t) ≤ coarse.next (coarse.start t) := by
  by_contra hlt
  have hin := coarse.lt_next t
  have hstart := g.start_le t
  -- otherwise the coarse border would lie inside the cell of `t`
  have hsame : g.start (coarse.next (coarse.start t)) = g.start t :=
    g.start_eq (by omega) (by omega)
  have hborder := h (coarse.next (coarse.start t))
  rw [hsame, h, coarse.start_next] at hborder
  have := coarse.start_le t
  omega

variable {g} in
/-- A coarse cell begins where a cell of a nested grid begins. -/
theorem Nested.start_start {coarse : Grid} (h : g.Nested coarse) (t : ℕ) :
    g.start (coarse.start t) = coarse.start t := by
  have hle := g.start_le (coarse.start t)
  have hcoarse := h (coarse.start t)
  rw [coarse.start_start] at hcoarse
  have := coarse.start_le (g.start (coarse.start t))
  omega

/-- A cell of a fixed length starts at a multiple of it. -/
theorem fixed_start (length : ℕ) (hpos : 0 < length) (t : ℕ) :
    (fixed length hpos).start t = t - t % length := rfl

/-- The next cell starts a length later. -/
theorem fixed_next (length : ℕ) (hpos : 0 < length) (s : ℕ) :
    (fixed length hpos).next s = s + length := rfl

theorem scale_start (unit : ℕ) (hpos : 0 < unit) (t : ℕ) :
    (g.scale unit hpos).start t = unit * g.start (t / unit) := rfl

/-- Cells nest in cells of a multiple of their length. -/
theorem nested_fixed {length : ℕ} (hpos : 0 < length) {count : ℕ} (hcount : 0 < count) :
    (fixed length hpos).Nested (fixed (length * count) (Nat.mul_pos hpos hcount)) := by
  intro t
  apply (fixed (length * count) _).start_eq
  · have hrest : t % length ≤ t % (length * count) := by
      rw [← Nat.mod_mul_right_mod t length count]
      exact Nat.mod_le _ _
    simp only [fixed_start]
    omega
  · exact ((fixed length hpos).start_le t).trans_lt ((fixed _ _).lt_next t)

/-- The finest cells on which a scaled grid is built nest in it. -/
theorem nested_scale (unit : ℕ) (hpos : 0 < unit) : (fixed unit hpos).Nested (g.scale unit hpos) := by
  intro t
  have hsplit := Nat.div_add_mod t unit
  have hstart : t - t % unit = unit * (t / unit) := by omega
  rw [scale_start, scale_start, fixed_start, hstart, Nat.mul_div_cancel_left _ hpos]

end Grid

end Goodmoneying.Library
