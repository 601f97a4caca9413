import Mathlib.Data.List.Chain
import Mathlib.Data.List.Pairwise
import Mathlib.Order.Lattice

/-!
# Rows that supersede one another

The rows of a history succeed one another: each ends where the next one starts, and the last one is
open. Such a history says at most one thing about a time (`Succession.eq_of_validAt`), and about a
time after the last start what the last row says (`Succession.validAt_iff_last`). A row that
supersedes the last one (`supersede`) keeps it a succession and changes nothing about the times
before it (`exists_validAt_supersede_iff`).
-/

namespace Goodmoneying.Library

open List

variable {T ρ : Type} [LinearOrder T] (start : ρ → T) (stop : ρ → Option T)
variable {rows : List ρ} {x : T}

/-- The row is valid at the time: it has started and has not ended. -/
def ValidAt (row : ρ) (x : T) : Prop := start row ≤ x ∧ ∀ e ∈ stop row, x < e

/-- Each row ends where the next one starts, and the last one is open. -/
structure Succession (rows : List ρ) : Prop where
  touching : rows.IsChain fun a b => stop a = some (start b) ∧ start a < start b
  last_open : ∀ a ∈ rows.getLast?, stop a = none

variable {start stop}

theorem succession_nil : Succession start stop [] where
  touching := isChain_nil
  last_open := by simp

/-- Of two rows, the earlier one ends by the start of the later one. -/
theorem Succession.pairwise (h : Succession start stop rows) :
    rows.Pairwise fun a b => start a < start b ∧ ∃ e ∈ stop a, e ≤ start b := by
  have : IsTrans ρ fun a b => start a < start b ∧ ∃ e ∈ stop a, e ≤ start b :=
    ⟨fun a b c ⟨hab, e, he, hle⟩ ⟨hbc, _⟩ => ⟨hab.trans hbc, e, he, hle.trans hbc.le⟩⟩
  rw [← isChain_iff_pairwise]
  exact h.touching.imp fun a b ⟨hstop, hlt⟩ => ⟨hlt, start b, hstop, le_rfl⟩

/-- A history has two rows for no time. -/
theorem Succession.apart (h : Succession start stop rows) :
    rows.Pairwise fun a b => ∀ x, ¬ (ValidAt start stop a x ∧ ValidAt start stop b x) := by
  refine h.pairwise.imp fun {a b} ⟨_, e, he, hle⟩ x ⟨ha, hb⟩ => ?_
  exact absurd (hle.trans hb.1) (not_le.mpr (ha.2 e he))

/-- One row at most is valid at a time. -/
theorem Succession.eq_of_validAt (h : Succession start stop rows) {a b : ρ} (ha : a ∈ rows)
    (hb : b ∈ rows) (hax : ValidAt start stop a x) (hbx : ValidAt start stop b x) : a = b := by
  have : Std.Symm fun a b : ρ => ∀ x, ¬ (ValidAt start stop a x ∧ ValidAt start stop b x) :=
    ⟨fun a b hab x hba => hab x hba.symm⟩
  by_contra hne
  exact h.apart.forall ha hb hne x ⟨hax, hbx⟩

/-- Exactly the last row is open. -/
theorem Succession.open_iff (h : Succession start stop rows) {a : ρ} (ha : a ∈ rows) :
    stop a = none ↔ a ∈ rows.getLast? := by
  refine ⟨fun hopen => ?_, h.last_open a⟩
  obtain ⟨l, rest, rfl⟩ := append_of_mem ha
  obtain rfl | ⟨rest, last, rfl⟩ := rest.eq_nil_or_concat'
  · simp
  · have hpair := (pairwise_append.mp h.pairwise).2.1
    obtain ⟨-, e, he, -⟩ := (pairwise_cons.mp hpair).1 last (by simp)
    rw [hopen] at he
    simp at he

/-- After the last start, the last row is the valid one. -/
theorem Succession.validAt_iff_last (h : Succession start stop rows)
    (hx : ∀ row ∈ rows, start row ≤ x) {row : ρ} (hrow : row ∈ rows) :
    ValidAt start stop row x ↔ row ∈ rows.getLast? := by
  have hlast : ∀ last ∈ rows.getLast?, ValidAt start stop last x := by
    intro last hlast
    refine ⟨hx last (mem_of_getLast? hlast), ?_⟩
    simp [h.last_open last hlast]
  refine ⟨fun hvalid => ?_, hlast row⟩
  obtain ⟨last, hsome⟩ : ∃ last, rows.getLast? = some last := by
    refine Option.isSome_iff_exists.mp ?_
    simpa using ne_nil_of_mem hrow
  have heq := h.eq_of_validAt hrow (mem_of_getLast? hsome) hvalid (hlast last hsome)
  rw [heq]
  exact hsome

/-! ## The next row -/

/-- The rows with the last one closed and a new one behind it. -/
def supersede (close : ρ → ρ) (rows : List ρ) (new : ρ) : List ρ :=
  rows.dropLast ++ (rows.getLast?.map close).toList ++ [new]

theorem supersede_nil (close : ρ → ρ) (new : ρ) : supersede close [] new = [new] := rfl

theorem supersede_concat (close : ρ → ρ) (l : List ρ) (a new : ρ) :
    supersede close (l ++ [a]) new = l ++ [close a, new] := by
  simp [supersede]

@[simp] theorem getLast?_supersede (close : ρ → ρ) (rows : List ρ) (new : ρ) :
    (supersede close rows new).getLast? = some new := by
  simp [supersede]

section Supersede

variable {close : ρ → ρ} {rows : List ρ} {new : ρ} (hstart : ∀ row, start (close row) = start row)
  (hstop : ∀ row, stop (close row) = some (start new)) (hbefore : ∀ row ∈ rows, start row < start new)

include hstart hstop hbefore in
/-- A superseded history is a succession again. -/
theorem Succession.supersede (h : Succession start stop rows) (hopen : stop new = none) :
    Succession start stop (supersede close rows new) := by
  constructor
  · obtain rfl | ⟨l, a, rfl⟩ := rows.eq_nil_or_concat'
    · exact isChain_singleton new
    · rw [supersede_concat]
      have hl : (l ++ [close a]).IsChain fun a b => stop a = some (start b) ∧ start a < start b := by
        have htouch := h.touching
        rw [isChain_append] at htouch ⊢
        refine ⟨htouch.1, isChain_singleton _, fun x hx y hy => ?_⟩
        obtain rfl : close a = y := by simpa using hy
        rw [hstart]
        exact htouch.2.2 x hx a (by simp)
      rw [show l ++ [close a, new] = (l ++ [close a]) ++ [new] by simp, isChain_append]
      refine ⟨hl, isChain_singleton new, fun x hx y hy => ?_⟩
      obtain rfl : close a = x := by simpa using hx
      obtain rfl : new = y := by simpa using hy
      exact ⟨hstop a, by rw [hstart]; exact hbefore a (by simp)⟩
  · simpa using hopen

include hstart hstop in
/-- About the times before the new row, nothing changes. -/
theorem exists_validAt_supersede_iff {P : ρ → Prop} (hP : ∀ row, P (close row) ↔ P row)
    (h : Succession start stop rows) (hx : x < start new) :
    (∃ row ∈ Library.supersede close rows new, ValidAt start stop row x ∧ P row) ↔
      ∃ row ∈ rows, ValidAt start stop row x ∧ P row := by
  have hnew : ¬ ValidAt start stop new x := fun hvalid => absurd hvalid.1 (not_le.mpr hx)
  obtain rfl | ⟨l, a, rfl⟩ := rows.eq_nil_or_concat'
  · simp [supersede_nil, hnew]
  · have hlast := h.last_open a (by simp)
    have hclose : ValidAt start stop (close a) x ↔ ValidAt start stop a x := by
      simp [ValidAt, hstart, hstop, hlast, hx]
    rw [supersede_concat]
    simp only [mem_append, mem_cons, not_mem_nil, or_false, or_and_right, exists_or,
      exists_eq_left, hclose, hP, hnew, false_and]

end Supersede

end Goodmoneying.Library
