import Mathlib.Data.List.Pairwise
import Mathlib.Order.Lattice

/-!
# Intervals between consecutive borders

Cutting an interval at borders given in ascending order leaves pieces that follow each other
without gaps (`tiles_pieces`), and no border lies inside a piece (`border_outside_piece`), so that an
interval that begins and ends at borders holds a piece whole or not at all.
-/

namespace Goodmoneying.Library

open List

variable {α : Type}
variable {borders : List α}

/-- The pairs of neighbours in a list. -/
def pieces (borders : List α) : List (α × α) := borders.zip borders.tail

theorem pieces_cons_cons (a b : α) (borders : List α) :
    pieces (a :: b :: borders) = (a, b) :: pieces (b :: borders) := rfl

/-- The ends of a piece are borders. -/
theorem mem_of_mem_pieces {piece : α × α} (h : piece ∈ pieces borders) :
    piece.1 ∈ borders ∧ piece.2 ∈ borders := by
  obtain ⟨first, second⟩ := piece
  exact ⟨(of_mem_zip h).1, mem_of_mem_tail (of_mem_zip h).2⟩

variable [LinearOrder α]

/-- The intervals follow each other from `start` to `stop`, and none of them is empty. -/
def Tiles : α → α → List (α × α) → Prop
  | start, stop, [] => start = stop
  | start, stop, piece :: pieces =>
    piece.1 = start ∧ piece.1 < piece.2 ∧ Tiles piece.2 stop pieces

/-- Ascending borders cut the interval between the first and the last of them. -/
theorem tiles_pieces {start stop : α} (hsorted : (start :: borders).Pairwise (· < ·))
    (hlast : (start :: borders).getLast (cons_ne_nil _ _) = stop) :
    Tiles start stop (pieces (start :: borders)) := by
  induction borders generalizing start with
  | nil => exact hlast
  | cons next borders ih =>
    obtain ⟨hstart, hrest⟩ := pairwise_cons.mp hsorted
    rw [pieces_cons_cons]
    refine ⟨rfl, hstart next (by simp), ih hrest ?_⟩
    rwa [getLast_cons (cons_ne_nil _ _)] at hlast

/-- Borders between two of them cut the interval between these two. -/
theorem tiles_pieces_of_mem {start stop : α} (hsorted : borders.Pairwise (· < ·))
    (hstart : start ∈ borders) (hstop : stop ∈ borders)
    (hbounds : ∀ border ∈ borders, start ≤ border ∧ border ≤ stop) :
    Tiles start stop (pieces borders) := by
  cases borders with
  | nil => cases hstart
  | cons first borders =>
    obtain ⟨hfirst, -⟩ := pairwise_cons.mp hsorted
    have hfirst_eq : first = start := by
      rcases mem_cons.mp hstart with heq | hmem
      · exact heq.symm
      · exact absurd (hbounds first mem_cons_self).1 (not_le.mpr (hfirst start hmem))
    have hlast : (first :: borders).getLast (cons_ne_nil _ _) = stop := by
      apply le_antisymm (hbounds _ (getLast_mem _)).2
      exact (hsorted.imp le_of_lt).rel_getLast hstop
    subst hfirst_eq
    exact tiles_pieces hsorted hlast

/-- No border lies inside a piece. -/
theorem border_outside_piece (hsorted : borders.Pairwise (· < ·)) {piece : α × α}
    (hpiece : piece ∈ pieces borders) {border : α} (hborder : border ∈ borders) :
    border ≤ piece.1 ∨ piece.2 ≤ border := by
  induction borders with
  | nil => cases hborder
  | cons first borders ih =>
    obtain ⟨hfirst, hrest⟩ := pairwise_cons.mp hsorted
    cases borders with
    | nil => cases hpiece
    | cons second borders =>
      rw [pieces_cons_cons] at hpiece
      rcases mem_cons.mp hpiece with rfl | hlater
      · rcases mem_cons.mp hborder with rfl | hborder
        · exact Or.inl (le_refl _)
        · right
          rcases mem_cons.mp hborder with rfl | hborder
          · exact le_refl _
          · exact ((pairwise_cons.mp hrest).1 border hborder).le
      · rcases mem_cons.mp hborder with rfl | hborder
        · left
          exact (hfirst _ (mem_of_mem_pieces hlater).1).le
        · exact ih hrest hlater hborder

end Goodmoneying.Library
