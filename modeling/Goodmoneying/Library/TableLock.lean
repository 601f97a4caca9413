import Mathlib.Logic.Function.Basic
import Mathlib.Data.List.Basic

/-!
# A table that transactions append to and lock

Transactions insert rows, which the others see at the commit, and may lock the table in share
mode: `SHARE` conflicts with the lock of an insertion and not with itself, and both are held to
the end of the transaction. While a transaction shares the table, no other has rows to commit
(`Exclusive`), so what it reads stays what is committed (`Exclusive.commit_rows`).
-/

namespace Goodmoneying.Library

/-- The committed rows, the inserted rows of each open transaction, and who shares the table. -/
structure LockedTable (ρ : Type) where
  rows : List ρ
  pending : ℕ → List ρ
  shared : ℕ → Bool

namespace LockedTable

variable {ρ : Type}
variable {table : LockedTable ρ} {id : ℕ}

/-- No other transaction shares the table. -/
def CanInsert (table : LockedTable ρ) (id : ℕ) : Prop :=
  ∀ other, other ≠ id → table.shared other = false

/-- No other transaction has inserted a row. -/
def CanShare (table : LockedTable ρ) (id : ℕ) : Prop :=
  ∀ other, other ≠ id → table.pending other = []

def insert (table : LockedTable ρ) (id : ℕ) (row : ρ) : LockedTable ρ :=
  { table with pending := Function.update table.pending id (table.pending id ++ [row]) }

def share (table : LockedTable ρ) (id : ℕ) : LockedTable ρ :=
  { table with shared := Function.update table.shared id true }

/-- The end of a transaction without its rows. -/
def rollback (table : LockedTable ρ) (id : ℕ) : LockedTable ρ :=
  { table with
    pending := Function.update table.pending id []
    shared := Function.update table.shared id false }

/-- The end of a transaction with its rows. -/
def commit (table : LockedTable ρ) (id : ℕ) : LockedTable ρ :=
  { table.rollback id with rows := table.rows ++ table.pending id }

theorem share_shared_self (table : LockedTable ρ) (id : ℕ) :
    (table.share id).shared id = true := Function.update_self ..

theorem share_shared {other : ℕ} (h : table.shared other = true) :
    (table.share id).shared other = true := by
  rcases eq_or_ne other id with rfl | hne
  · exact share_shared_self table other
  · exact (Function.update_of_ne hne _ _).trans h

theorem rollback_shared {other : ℕ} (hne : other ≠ id) (h : table.shared other = true) :
    (table.rollback id).shared other = true :=
  (Function.update_of_ne hne _ _).trans h

/-- While a transaction shares the table, no other has inserted. -/
def Exclusive (table : LockedTable ρ) : Prop :=
  ∀ id, table.shared id = true → table.CanShare id

/-- A writer that may insert stays alone. -/
theorem Exclusive.insert (h : table.Exclusive) (hcan : table.CanInsert id) (row : ρ) :
    (table.insert id row).Exclusive := by
  intro sharer hshared other hother
  have hsame : sharer = id := by
    by_contra hne
    exact Bool.false_ne_true ((hcan sharer hne).symm.trans hshared)
  exact (Function.update_of_ne (hsame ▸ hother) _ _).trans (h sharer hshared other hother)

/-- A reader that may lock finds no writer. -/
theorem Exclusive.share (h : table.Exclusive) (hcan : table.CanShare id) :
    (table.share id).Exclusive := by
  intro sharer hshared
  rcases eq_or_ne sharer id with rfl | hne
  · exact hcan
  · exact h sharer ((Function.update_of_ne hne _ _).symm.trans hshared)

theorem Exclusive.rollback (h : table.Exclusive) (id : ℕ) : (table.rollback id).Exclusive := by
  intro sharer hshared other hother
  have hne : sharer ≠ id := by
    rintro rfl
    simp [LockedTable.rollback] at hshared
  rcases eq_or_ne other id with rfl | hotherNe
  · exact Function.update_self ..
  · exact (Function.update_of_ne hotherNe _ _).trans
      (h sharer ((Function.update_of_ne hne _ _).symm.trans hshared) other hother)

/-- A commit releases the locks. -/
theorem Exclusive.commit (h : table.Exclusive) (id : ℕ) :
    (table.commit id).Exclusive := h.rollback id

/-- A commit beside a transaction that shares the table adds no row. -/
theorem Exclusive.commit_rows (h : table.Exclusive) {sharer : ℕ}
    (hshared : table.shared sharer = true) (hne : id ≠ sharer) :
    (table.commit id).rows = table.rows := by
  rw [LockedTable.commit, h sharer hshared id hne, List.append_nil]

end LockedTable

end Goodmoneying.Library
