import Mathlib.Data.List.Forall2
import Mathlib.Data.List.Nodup

/-!
# Tables with a primary key

A table is a list of rows with distinct keys. `find` is a query that expects at most one row,
`update` an `UPDATE … WHERE` of columns other than the key. What a transaction made of a number
of updates does to a table is a map of its rows (`update_rows`); where the condition of an
update names a key, it is the map of one row (`find_eq_some_iff`, `eq_of_key`). Rows that change
one by one are related by `List.Forall₂`.
-/

namespace Goodmoneying.Library

open List

/-- Rows with distinct keys. -/
structure KeyedTable {α κ : Type} (key : α → κ) where
  rows : List α
  unique : (rows.map key).Nodup

namespace KeyedTable

variable {α κ : Type} {key : α → κ}
variable {table : KeyedTable key} {p : α → Bool}

/-- The first row that satisfies `p`. -/
def find (table : KeyedTable key) (p : α → Bool) : Option α := table.rows.find? p

/-- The table with `change` applied to the rows that satisfy `p`. -/
def update (table : KeyedTable key) (p : α → Bool) (change : α → α)
    (hkey : ∀ row, key (change row) = key row) : KeyedTable key where
  rows := table.rows.map fun row => if p row then change row else row
  unique := by
    have hkeys : ∀ row, key (if p row then change row else row) = key row := by
      intro row
      split_ifs
      · exact hkey row
      · rfl
    simpa [Function.comp_def, hkeys] using table.unique

theorem update_rows (table : KeyedTable key) (p : α → Bool) (change : α → α)
    (hkey : ∀ row, key (change row) = key row) :
    (table.update p change hkey).rows =
      table.rows.map fun row => if p row then change row else row := rfl

/-- An update that no row satisfies changes nothing. -/
theorem update_of_forall_false (change : α → α) (hkey : ∀ row, key (change row) = key row)
    (h : ∀ row ∈ table.rows, p row = false) : table.update p change hkey = table := by
  have hrows : (table.update p change hkey).rows = table.rows := by
    rw [update_rows]
    exact (map_congr_left fun row hrow => by simp [h row hrow]).trans (map_id' _)
  cases table
  simpa [update] using hrows

/-- The table with a row of a new key. -/
def insert (table : KeyedTable key) (row : α) (hnew : key row ∉ table.rows.map key) :
    KeyedTable key where
  rows := table.rows ++ [row]
  unique := by
    rw [map_append, map_singleton]
    exact table.unique.append (nodup_singleton _) (by simpa using hnew)

/-- A key that no row has is new. -/
theorem not_mem_keys [DecidableEq κ] {k : κ}
    (h : ¬ (table.rows.any fun row => key row = k) = true) : k ∉ table.rows.map key := by
  intro hmem
  obtain ⟨row, hrow, hkey⟩ := mem_map.mp hmem
  exact h (any_eq_true.mpr ⟨row, hrow, decide_eq_true hkey⟩)

/-- Rows of one key are one row. -/
theorem eq_of_key {row other : α} (hrow : row ∈ table.rows) (hother : other ∈ table.rows)
    (h : key row = key other) : row = other :=
  inj_on_of_nodup_map table.unique hrow hother h

/-- Where the condition is of one key at most, the row found is the one that satisfies it. -/
theorem find_eq_some_iff {k : κ} (hp : ∀ row, p row = true → key row = k) {row : α} :
    table.find p = some row ↔ row ∈ table.rows ∧ p row = true := by
  constructor
  · intro h
    exact ⟨mem_of_find?_eq_some h, List.find?_some h⟩
  · rintro ⟨hrow, hp'⟩
    cases hfind : table.find p with
    | none => exact absurd hp' (List.find?_eq_none.mp hfind row hrow)
    | some other =>
      have hother := mem_of_find?_eq_some hfind
      have hsame : key other = key row := (hp other (List.find?_some hfind)).trans (hp row hp').symm
      rw [eq_of_key hother hrow hsame]

/-- Where no row is found, none satisfies the condition. -/
theorem find_eq_none_iff : table.find p = none ↔ ∀ row ∈ table.rows, p row = false := by
  simp [find]

/-- The row of a key after an update of the row of a key. -/
theorem find_update_key [DecidableEq κ] (table : KeyedTable key) (k k' : κ) (change : α → α)
    (hkey : ∀ row, key (change row) = key row) :
    (table.update (fun row => key row = k) change hkey).find (fun row => key row = k') =
      (table.find fun row => key row = k').map fun row => if k' = k then change row else row := by
  have hkeys : ∀ row, key (if key row = k then change row else row) = key row := by
    intro row
    split_ifs
    · exact hkey row
    · rfl
  simp only [find, update_rows, decide_eq_true_eq, List.find?_map, Function.comp_def, hkeys]
  refine Option.map_congr fun row hrow => ?_
  have hfound : key row = k' := by simpa using List.find?_some hrow
  rw [hfound]

/-- The row of a key after the insertion of a row. -/
theorem find_insert_key [DecidableEq κ] (table : KeyedTable key) (row : α)
    (hnew : key row ∉ table.rows.map key) (k : κ) :
    (table.insert row hnew).find (fun row => key row = k) =
      (table.find fun row => key row = k).or (if key row = k then some row else none) := by
  simp only [find, insert, List.find?_append]
  congr 1
  split_ifs with hrow <;> simp [hrow]

end KeyedTable

/-- Every entry of the second list is related to one of the first. -/
theorem exists_of_forall₂ {α β : Type} {R : α → β → Prop} {l : List α} {m : List β}
    (h : List.Forall₂ R l m) : ∀ b ∈ m, ∃ a ∈ l, R a b := by
  induction h with
  | nil => simp
  | cons hhead _ ih =>
    intro b hb
    rcases mem_cons.mp hb with rfl | hb
    · exact ⟨_, mem_cons_self, hhead⟩
    · obtain ⟨a, ha, hab⟩ := ih b hb
      exact ⟨a, mem_cons_of_mem _ ha, hab⟩

end Goodmoneying.Library
