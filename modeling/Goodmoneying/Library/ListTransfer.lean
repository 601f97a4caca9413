import Mathlib.Data.List.Nodup

/-!
# A list kept up at another place

What is sent of a list is either all of it, in slices of a fixed size, or one item that takes the
place of the item of its key and else goes to the end.
-/

namespace Goodmoneying.Library

open List

variable {α κ : Type}
variable {items : List α}

/-- The slice number `i`. -/
def slice (size : ℕ) (items : List α) (i : ℕ) : List α :=
  (items.take ((i + 1) * size)).drop (i * size)

/-- Number of slices, one at least. -/
def sliceCount (size : ℕ) (items : List α) : ℕ := max 1 ((items.length + (size - 1)) / size)

/-- A receiver that starts over with the slice number zero holds what the slices so far make. -/
theorem foldl_slices (size : ℕ) (items held : List α) (n : ℕ) :
    (List.range (n + 1)).foldl
      (fun held i => if i = 0 then slice size items i else held ++ slice size items i) held =
      items.take ((n + 1) * size) := by
  induction n with
  | zero => simp [slice]
  | succ n ih =>
    rw [range_succ, foldl_append, ih]
    have hsplit := take_append_drop ((n + 1) * size) (items.take ((n + 2) * size))
    rw [take_take, Nat.min_eq_left (Nat.mul_le_mul_right size (by omega))] at hsplit
    simpa [slice] using hsplit

/-- The slices are enough for the whole list. -/
theorem length_le_sliceCount {size : ℕ} (hsize : 0 < size) (items : List α) :
    items.length ≤ sliceCount size items * size := by
  have hdiv : items.length ≤ (items.length + (size - 1)) / size * size := by
    have hmod := Nat.div_add_mod (items.length + (size - 1)) size
    have hlt := Nat.mod_lt (items.length + (size - 1)) hsize
    rw [Nat.mul_comm] at hmod
    omega
  exact Nat.le_trans hdiv (Nat.mul_le_mul_right size (Nat.le_max_right _ _))

/-- After all slices the receiver holds the list, whatever it held before. -/
theorem foldl_sliceCount {size : ℕ} (hsize : 0 < size) (items held : List α) :
    (List.range (sliceCount size items)).foldl
      (fun held i => if i = 0 then slice size items i else held ++ slice size items i) held =
      items := by
  obtain ⟨n, hn⟩ : ∃ n, sliceCount size items = n + 1 :=
    Nat.exists_eq_add_of_le' (Nat.le_max_left 1 _)
  rw [hn, foldl_slices, take_of_length_le]
  exact hn ▸ length_le_sliceCount hsize items

variable [DecidableEq κ] (key : α → κ)

/-- `item` in the place of the first item of its key, or at the end. -/
def upsertBy (items : List α) (item : α) : List α :=
  match items.findIdx? fun other => key other = key item with
  | none => items ++ [item]
  | some i => items.set i item

variable {key}

@[simp] theorem upsertBy_nil (item : α) : upsertBy key [] item = [item] := by
  simp [upsertBy]

theorem upsertBy_cons (head item : α) (items : List α) :
    upsertBy key (head :: items) item =
      if key head = key item then item :: items else head :: upsertBy key items item := by
  by_cases hhead : key head = key item
  · simp [upsertBy, List.findIdx?_cons, hhead]
  · rw [if_neg hhead]
    simp only [upsertBy, List.findIdx?_cons, hhead, decide_false, Bool.false_eq_true, if_false]
    cases items.findIdx? fun other => decide (key other = key item) with
    | none => rfl
    | some i => rfl

/-- An item of a new key goes to the end. -/
theorem upsertBy_of_notMem {item : α} (h : key item ∉ items.map key) :
    upsertBy key items item = items ++ [item] := by
  induction items with
  | nil => simp
  | cons head items ih =>
    simp only [map_cons, mem_cons, not_or] at h
    rw [upsertBy_cons, if_neg (Ne.symm h.1), ih h.2, cons_append]

/-- The last item is replaced by one of its key. -/
theorem upsertBy_concat {old item : α} (hitems : key item ∉ items.map key)
    (hold : key old = key item) : upsertBy key (items ++ [old]) item = items ++ [item] := by
  induction items with
  | nil => simp [upsertBy_cons, hold]
  | cons head items ih =>
    simp only [map_cons, mem_cons, not_or] at hitems
    rw [cons_append, upsertBy_cons, if_neg (Ne.symm hitems.1), ih hitems.2, cons_append]

theorem mem_upsertBy (hkeys : (items.map key).Nodup) (item other : α) :
    other ∈ upsertBy key items item ↔ other = item ∨ other ∈ items ∧ key other ≠ key item := by
  induction items with
  | nil => simp
  | cons head items ih =>
    simp only [map_cons, nodup_cons] at hkeys
    rw [upsertBy_cons]
    split_ifs with hhead
    · have hothers : other ∈ items → key other ≠ key item := fun hmem heq =>
        hkeys.1 (mem_map.mpr ⟨other, hmem, heq.trans hhead.symm⟩)
      rw [mem_cons, mem_cons]
      refine or_congr_right ⟨fun hmem => ⟨Or.inr hmem, hothers hmem⟩, ?_⟩
      rintro ⟨rfl | hmem, hne⟩
      · exact absurd hhead hne
      · exact hmem
    · rw [mem_cons, ih hkeys.2, mem_cons]
      constructor
      · rintro (rfl | rfl | ⟨hmem, hne⟩)
        · exact Or.inr ⟨Or.inl rfl, hhead⟩
        · exact Or.inl rfl
        · exact Or.inr ⟨Or.inr hmem, hne⟩
      · rintro (rfl | ⟨rfl | hmem, hne⟩)
        · exact Or.inr (Or.inl rfl)
        · exact Or.inl rfl
        · exact Or.inr (Or.inr ⟨hmem, hne⟩)

/-- Keys stay distinct. -/
theorem nodup_upsertBy (hkeys : (items.map key).Nodup) (item : α) :
    ((upsertBy key items item).map key).Nodup := by
  induction items with
  | nil => simp
  | cons head items ih =>
    simp only [map_cons, nodup_cons] at hkeys
    rw [upsertBy_cons]
    split_ifs with hhead
    · simpa [← hhead] using hkeys
    · rw [map_cons, nodup_cons]
      refine ⟨fun hmem => ?_, ih hkeys.2⟩
      obtain ⟨other, hother, heq⟩ := mem_map.mp hmem
      rcases (mem_upsertBy hkeys.2 item other).mp hother with rfl | ⟨hmem', -⟩
      · exact hhead heq.symm
      · exact hkeys.1 (mem_map.mpr ⟨other, hmem', heq⟩)

/-- Where keys are distinct, the items of the key of `item` are `item` alone if and only if it is
one of the list. -/
theorem filter_key_eq_singleton_iff (hkeys : (items.map key).Nodup) (item : α) :
    items.filter (fun other => key other = key item) = [item] ↔ item ∈ items := by
  constructor
  · intro hfilter
    have hmem : item ∈ items.filter fun other => key other = key item := by simp [hfilter]
    exact (mem_filter.mp hmem).1
  · intro hmem
    induction items with
    | nil => simp at hmem
    | cons head items ih =>
      simp only [map_cons, nodup_cons] at hkeys
      rcases mem_cons.mp hmem with rfl | htail
      · have hrest : items.filter (fun other => key other = key item) = [] := by
          rw [filter_eq_nil_iff]
          intro other hother heq
          exact hkeys.1 (mem_map.mpr ⟨other, hother, of_decide_eq_true heq⟩)
        simp [hrest]
      · have hhead : key head ≠ key item := fun heq =>
          hkeys.1 (mem_map.mpr ⟨item, htail, heq.symm⟩)
        simp [hhead, ih hkeys.2 htail]

end Goodmoneying.Library
