import Mathlib.Algebra.Order.BigOperators.Group.List
import Mathlib.Algebra.Order.BigOperators.Ring.List
import Mathlib.Algebra.Order.Field.Basic
import Mathlib.Tactic.IntervalCases
import Mathlib.Tactic.Linarith
import Mathlib.Tactic.Ring

/-!
# Sums of quantities that are cut to a cap

Quantities that are each cut to one cap need not keep within a limit together. They do exactly
when the quantities up to the cap leave the room that those above it take (`Fits`). Where the limit
is the cap itself and none is negative, they do when they fit it as they are or at most one of them
takes anything.
-/

namespace Goodmoneying.Library.CappedSum

open List

variable {K : Type*} [Field K] [LinearOrder K] [IsStrictOrderedRing K]

/-- The quantities up to the cap leave as much of the limit as those above it take: each of these
takes the cap itself. -/
def Fits (cap limit : K) (quantities : List K) : Prop :=
  (quantities.filter (· ≤ cap)).sum + (quantities.filter (cap < ·)).length * cap ≤ limit

omit [IsStrictOrderedRing K] in
/-- What is left of the quantities: those up to the cap, and the cap for each above it. -/
theorem sum_min_eq (cap : K) (quantities : List K) :
    (quantities.map (min · cap)).sum = (quantities.filter (· ≤ cap)).sum +
      (quantities.filter (cap < ·)).length * cap := by
  induction quantities with
  | nil => simp
  | cons q quantities ih =>
    rw [map_cons, sum_cons, ih]
    rcases le_or_gt q cap with hle | hlt
    · rw [min_eq_left hle, filter_cons_of_pos (by simpa using hle),
        filter_cons_of_neg (by simpa using hle), sum_cons]
      ring
    · rw [min_eq_right hlt.le, filter_cons_of_neg (by simpa using hlt),
        filter_cons_of_pos (by simpa using hlt), length_cons]
      push_cast
      ring

omit [IsStrictOrderedRing K] in
/-- The quantities fit the limit exactly when it holds them once they are cut. -/
theorem fits_iff (cap limit : K) (quantities : List K) :
    Fits cap limit quantities ↔ (quantities.map (min · cap)).sum ≤ limit := by
  rw [Fits, sum_min_eq]

omit [IsStrictOrderedRing K] in
/-- Quantities of zero take nothing. -/
theorem sum_min_filter_pos {cap : K} (hcap : 0 ≤ cap) {quantities : List K}
    (hquantities : ∀ q ∈ quantities, 0 ≤ q) :
    (quantities.map (min · cap)).sum = ((quantities.filter (0 < ·)).map (min · cap)).sum := by
  induction quantities with
  | nil => rfl
  | cons q quantities ih =>
    obtain ⟨hq, hrest⟩ := forall_mem_cons.mp hquantities
    rcases hq.eq_or_lt with rfl | hpos
    · rw [map_cons, sum_cons, ih hrest, min_eq_left hcap, zero_add, filter_cons_of_neg (by simp)]
    · rw [map_cons, sum_cons, ih hrest, filter_cons_of_pos (by simpa using hpos),
        map_cons, sum_cons]

/-- Where the limit is the cap and no quantity is negative: all fit together, or at most one of them
takes anything, or there is nothing to take. -/
theorem fits_iff_of_nonneg {cap : K} (hcap : 0 ≤ cap) {quantities : List K}
    (hquantities : ∀ q ∈ quantities, 0 ≤ q) : Fits cap cap quantities ↔ quantities.sum ≤ cap ∨
      (quantities.filter (0 < ·)).length ≤ 1 ∨ cap = 0 := by
  constructor
  · intro h
    rcases hcap.eq_or_lt with hzero | hpositive
    · exact Or.inr (Or.inr hzero.symm)
    have hsmall : ∀ q ∈ quantities.filter (· ≤ cap), 0 ≤ q := fun q hq =>
      hquantities q (mem_of_mem_filter hq)
    have hsum := sum_nonneg hsmall
    rcases Nat.lt_or_ge 1 (quantities.filter (cap < ·)).length with hmany | hfew
    · -- two quantities above the cap leave no room
      have hlength : (2 : K) ≤ ((quantities.filter (cap < ·)).length : K) := by
        exact_mod_cast hmany
      unfold Fits at h
      nlinarith
    interval_cases hlength : (quantities.filter (cap < ·)).length
    · have hall : quantities.filter (· ≤ cap) = quantities := filter_eq_self.mpr fun q hq =>
        by simpa using filter_eq_nil_iff.mp (length_eq_zero_iff.mp hlength) q hq
      rw [Fits, hall, hlength] at h
      exact Or.inl (by simpa using h)
    · -- one quantity takes the cap, and the others are zero
      rw [Fits, hlength] at h
      have hzero : ∀ q ∈ quantities, q ≤ cap → q = 0 := fun q hq hle =>
        all_zero_of_le_zero_le_of_sum_eq_zero hsmall (le_antisymm (by simpa using h) hsum)
          (mem_filter.mpr ⟨hq, by simpa using hle⟩)
      have hsame : quantities.filter (0 < ·) = quantities.filter (cap < ·) := by
        apply filter_congr
        intro q hq
        rcases le_or_gt q cap with hle | hlt
        · have hq := hzero q hq hle
          subst hq
          simpa using hcap
        · simp [hlt, hpositive.trans hlt]
      exact Or.inr (Or.inl (by rw [hsame, hlength]))
  · rw [fits_iff]
    rintro (hsum | hlength | rfl)
    · refine le_trans ?_ hsum
      conv_rhs => rw [← map_id quantities]
      exact sum_le_sum fun q _ => min_le_left q cap
    · rw [sum_min_filter_pos hcap hquantities]
      generalize quantities.filter (0 < ·) = positive at hlength ⊢
      cases positive with
      | nil => simpa using hcap
      | cons q rest =>
        obtain rfl : rest = [] := length_eq_zero_iff.mp (by simpa using hlength)
        simp
    · have hle : (quantities.map (min · 0)).sum ≤ (quantities.map fun _ => (0 : K)).sum :=
        sum_le_sum fun q _ => min_le_right q 0
      simpa using hle

end Goodmoneying.Library.CappedSum
