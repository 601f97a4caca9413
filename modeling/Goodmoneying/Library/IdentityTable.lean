import Mathlib.Algebra.Order.Ring.Int
import Mathlib.Data.List.Nodup
import Mathlib.Data.List.Pairwise

/-!
# Tables with an identity column

A table whose ids are drawn from a sequence: rows stand in the order of their ids, and a row that
is inserted gets an id after all others. An update of other columns is a map of the rows.
-/

namespace Goodmoneying.Library

open List

/-- Rows in ascending order of their ids, and the last value of the sequence. -/
structure IdentityTable {α : Type} (key : α → ℤ) where
  rows : List α
  last : ℤ
  ascending : rows.Pairwise fun row other => key row < key other
  le_last : ∀ row ∈ rows, key row ≤ last

namespace IdentityTable

variable {α : Type} {key : α → ℤ}
variable {table : IdentityTable key}

def empty (key : α → ℤ) : IdentityTable key := ⟨[], 0, List.Pairwise.nil, by simp⟩

/-- The table with a row of the next id. -/
def insert (table : IdentityTable key) (row : ℤ → α) (hkey : ∀ n, key (row n) = n) :
    IdentityTable key where
  rows := table.rows ++ [row (table.last + 1)]
  last := table.last + 1
  ascending := by
    rw [pairwise_append]
    refine ⟨table.ascending, pairwise_singleton _ _, fun old hold new hnew => ?_⟩
    obtain rfl := mem_singleton.mp hnew
    rw [hkey]
    exact Int.lt_add_one_of_le (table.le_last old hold)
  le_last := by
    intro old hold
    rcases mem_append.mp hold with hold | hold
    · exact le_trans (table.le_last old hold) (Int.le_add_one (le_refl _))
    · obtain rfl := mem_singleton.mp hold
      exact le_of_eq (hkey _)

/-- The table with `change` applied to the rows that satisfy `p`. -/
def update (table : IdentityTable key) (p : α → Bool) (change : α → α)
    (hkey : ∀ row, key (change row) = key row) : IdentityTable key where
  rows := table.rows.map fun row => if p row then change row else row
  last := table.last
  ascending := by
    have hkeys : ∀ row, key (if p row then change row else row) = key row := by
      intro row
      split_ifs
      · exact hkey row
      · rfl
    rw [pairwise_map]
    exact table.ascending.imp fun {row other} hlt => by rwa [hkeys row, hkeys other]
  le_last := by
    intro row hrow
    obtain ⟨old, hold, rfl⟩ := mem_map.mp hrow
    split_ifs
    · exact le_of_eq_of_le (hkey old) (table.le_last old hold)
    · exact table.le_last old hold

theorem insert_rows (table : IdentityTable key) (row : ℤ → α) (hkey : ∀ n, key (row n) = n) :
    (table.insert row hkey).rows = table.rows ++ [row (table.last + 1)] := rfl

theorem update_rows (table : IdentityTable key) (p : α → Bool) (change : α → α)
    (hkey : ∀ row, key (change row) = key row) :
    (table.update p change hkey).rows =
      table.rows.map fun row => if p row then change row else row := rfl

/-- What all rows and a new one satisfy. -/
theorem forall_insert {P : α → Prop} {row : ℤ → α} (hkey : ∀ n, key (row n) = n)
    (h : ∀ old ∈ table.rows, P old) (hrow : P (row (table.last + 1))) :
    ∀ new ∈ (table.insert row hkey).rows, P new := by
  intro new hnew
  rw [insert_rows] at hnew
  rcases mem_append.mp hnew with hold | hnew
  · exact h new hold
  · obtain rfl := mem_singleton.mp hnew
    exact hrow

/-- What all rows satisfy and the update keeps. -/
theorem forall_update {P : α → Prop} {p : α → Bool} {change : α → α}
    (hkey : ∀ row, key (change row) = key row) (h : ∀ row ∈ table.rows, P row)
    (hchange : ∀ row ∈ table.rows, p row = true → P row → P (change row)) :
    ∀ row ∈ (table.update p change hkey).rows, P row := by
  intro row hrow
  rw [update_rows] at hrow
  obtain ⟨old, hold, rfl⟩ := mem_map.mp hrow
  split_ifs with hp
  · exact hchange old hold hp (h old hold)
  · exact h old hold

theorem nodup_keys (table : IdentityTable key) : (table.rows.map key).Nodup :=
  pairwise_map.mpr (table.ascending.imp ne_of_lt)

/-- Rows of one id are one row. -/
theorem eq_of_key {row other : α} (hrow : row ∈ table.rows) (hother : other ∈ table.rows)
    (h : key row = key other) : row = other :=
  inj_on_of_nodup_map table.nodup_keys hrow hother h

end IdentityTable

/-- Where a map keeps a column and takes no row into the part `q` that was not in the part `p`,
the columns of the part after it are among those before. -/
theorem map_filter_map_sublist {α κ : Type} {p q : α → Bool} {f : α → α} {column : α → κ}
    {l : List α} (hcolumn : ∀ a ∈ l, column (f a) = column a)
    (hpart : ∀ a ∈ l, q (f a) = true → p a = true) :
    (((l.map f).filter q).map column).Sublist ((l.filter p).map column) := by
  induction l with
  | nil => exact List.Sublist.slnil
  | cons a l ih =>
    have ih := ih (fun b hb => hcolumn b (mem_cons_of_mem _ hb))
      fun b hb => hpart b (mem_cons_of_mem _ hb)
    rw [map_cons]
    by_cases hq : q (f a) = true
    · have hp := hpart a mem_cons_self hq
      rw [filter_cons_of_pos hq, filter_cons_of_pos hp, map_cons, map_cons, hcolumn a mem_cons_self]
      exact ih.cons_cons _
    · rw [filter_cons_of_neg hq]
      refine ih.trans (List.Sublist.map _ ?_)
      exact (sublist_cons_self a l).filter p

end Goodmoneying.Library
