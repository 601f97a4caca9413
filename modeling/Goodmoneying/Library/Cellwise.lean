import Mathlib.Algebra.BigOperators.Group.Finset.Basic
import Mathlib.Algebra.Order.BigOperators.Group.Finset
import Goodmoneying.Library.SeriesPages

/-!
# Cellwise derivations

A derivation makes a series of rows. It is cellwise when the keys of the series are the cells in
which rows lie, and an entry depends on nothing but the rows of its cell (`Cellwise`). Derivations
that follow each other, the later one on coarser cells, are cellwise together (`Cellwise.bind`). Of
rows that are read up to a limit only the last cell may be cut (`Cellwise.readTo`); its key is right
all the same (`Cellwise.keys_readTo`).
-/

namespace Goodmoneying.Library

open List

variable {ε ρ κ α : Type} [LinearOrder κ] {cell : ρ → κ} {key : α → κ}

/-- A derivation whose entries depend on the rows of their cells. -/
structure Cellwise (cell : ρ → κ) (key : α → κ) (valid : List ρ → Prop)
    (derive : List ρ → Except ε (List α)) : Prop where
  ascending : ∀ {rows series}, valid rows → derive rows = .ok series →
    series.Pairwise fun a b => key a < key b
  mem_keys : ∀ {rows series}, valid rows → derive rows = .ok series →
    ∀ k, k ∈ series.map key ↔ k ∈ rows.map cell
  eq_of_cell : ∀ {rows rows' series series'}, valid rows → valid rows' →
    derive rows = .ok series → derive rows' = .ok series' → ∀ {a a'}, a ∈ series → a' ∈ series' →
    key a = key a' →
    rows.filter (fun r => cell r = key a) = rows'.filter (fun r => cell r = key a) → a = a'

namespace Cellwise

variable {valid : List ρ → Prop} {derive : List ρ → Except ε (List α)}
variable {rows : List ρ} {series : List α} {a : α}
variable {β : Type} {key' : β → κ} {cells : List κ} {most : ℕ} {last : κ}

/-- Rows that agree in a cell give the same entry there. -/
theorem mem_iff (h : Cellwise cell key valid derive) {rows' : List ρ} {series' : List α}
    (hrows : valid rows) (hrows' : valid rows') (hseries : derive rows = .ok series)
    (hseries' : derive rows' = .ok series')
    (hcell : rows.filter (fun r => cell r = key a) = rows'.filter (fun r => cell r = key a)) :
    a ∈ series ↔ a ∈ series' := by
  have hkeys : ∀ rows : List ρ, key a ∈ rows.map cell ↔
      rows.filter (fun r => cell r = key a) ≠ [] := by
    intro rows
    simp [filter_eq_nil_iff]
  constructor
  · intro ha
    have hkey : key a ∈ series'.map key := by
      rw [h.mem_keys hrows' hseries', hkeys, ← hcell, ← hkeys, ← h.mem_keys hrows hseries]
      exact mem_map_of_mem ha
    obtain ⟨a', ha', hsame⟩ := mem_map.mp hkey
    rwa [h.eq_of_cell hrows hrows' hseries hseries' ha ha' hsame.symm hcell]
  · intro ha
    have hkey : key a ∈ series.map key := by
      rw [h.mem_keys hrows hseries, hkeys, hcell, ← hkeys, ← h.mem_keys hrows' hseries']
      exact mem_map_of_mem ha
    obtain ⟨a', ha', hsame⟩ := mem_map.mp hkey
    rwa [h.eq_of_cell hrows' hrows hseries' hseries ha ha' hsame.symm hcell.symm]

/-- A derivation that does the same on its valid rows. -/
theorem congr {valid' : List ρ → Prop} {derive' : List ρ → Except ε (List α)}
    (h : Cellwise cell key valid derive)
    (hsame : ∀ rows, valid' rows → valid rows ∧ derive' rows = derive rows) :
    Cellwise cell key valid' derive' where
  ascending := by
    intro rows series hrows hseries
    obtain ⟨hvalid, heq⟩ := hsame rows hrows
    exact h.ascending hvalid (heq ▸ hseries)
  mem_keys := by
    intro rows series hrows hseries
    obtain ⟨hvalid, heq⟩ := hsame rows hrows
    exact h.mem_keys hvalid (heq ▸ hseries)
  eq_of_cell := by
    intro rows rows' series series' hrows hrows' hseries hseries'
    obtain ⟨hvalid, heq⟩ := hsame rows hrows
    obtain ⟨hvalid', heq'⟩ := hsame rows' hrows'
    exact h.eq_of_cell hvalid hvalid' (heq ▸ hseries) (heq' ▸ hseries')

/-- Rows of another kind, each read as a row. -/
theorem comap {ρ' : Type} {valid' : List ρ' → Prop}
    (h : Cellwise cell key (fun _ => True) derive) (f : ρ' → ρ) :
    Cellwise (fun r => cell (f r)) key valid' (fun rows => derive (rows.map f)) where
  ascending := fun _ hseries => h.ascending trivial hseries
  mem_keys := by
    intro rows series _ hseries k
    rw [h.mem_keys trivial hseries, map_map]
    rfl
  eq_of_cell := by
    intro rows rows' series series' _ _ hseries hseries' a a' ha ha' hkey hcell
    refine h.eq_of_cell trivial trivial hseries hseries' ha ha' hkey ?_
    rw [filter_map, filter_map]
    exact congrArg (List.map f) hcell

/-- Entries in another form, of the same keys. -/
theorem map (h : Cellwise cell key valid derive) {f : α → β} (hf : ∀ a, key' (f a) = key a) :
    Cellwise cell key' valid (fun rows => (fun series => series.map f) <$> derive rows) where
  ascending := by
    intro rows series hrows hseries
    obtain ⟨first, hfirst, rfl⟩ := map_eq_ok.mp hseries
    simpa only [pairwise_map, hf] using h.ascending hrows hfirst
  mem_keys := by
    intro rows series hrows hseries k
    obtain ⟨first, hfirst, rfl⟩ := map_eq_ok.mp hseries
    have hkeys : key' ∘ f = key := funext hf
    rw [map_map, hkeys]
    exact h.mem_keys hrows hfirst k
  eq_of_cell := by
    intro rows rows' series series' hrows hrows' hseries hseries' b b' hb hb' hkey hcell
    obtain ⟨first, hfirst, rfl⟩ := map_eq_ok.mp hseries
    obtain ⟨first', hfirst', rfl⟩ := map_eq_ok.mp hseries'
    obtain ⟨a, ha, rfl⟩ := mem_map.mp hb
    obtain ⟨a', ha', rfl⟩ := mem_map.mp hb'
    rw [hf, hf] at hkey
    rw [hf] at hcell
    rw [h.eq_of_cell hrows hrows' hfirst hfirst' ha ha' hkey hcell]

/-- What is derived first may be a derivation of cells within the cells of the second. -/
theorem bind {coarse : κ → κ} {derive' : List α → Except ε (List β)}
    (h : Cellwise cell key valid derive)
    (h' : Cellwise (fun a => coarse (key a)) key' (fun _ => True) derive') :
    Cellwise (fun r => coarse (cell r)) key' valid (fun rows => derive rows >>= derive') where
  ascending := by
    intro rows series hrows hseries
    obtain ⟨first, -, hseries⟩ := bind_eq_ok.mp hseries
    exact h'.ascending trivial hseries
  mem_keys := by
    intro rows series hrows hseries k
    obtain ⟨first, hfirst, hseries⟩ := bind_eq_ok.mp hseries
    rw [h'.mem_keys trivial hseries, mem_map, mem_map]
    have hkeys := h.mem_keys hrows hfirst
    constructor
    · rintro ⟨a, ha, rfl⟩
      obtain ⟨r, hr, hcell⟩ := mem_map.mp ((hkeys (key a)).mp (mem_map_of_mem ha))
      exact ⟨r, hr, by rw [hcell]⟩
    · rintro ⟨r, hr, rfl⟩
      obtain ⟨a, ha, hcell⟩ := mem_map.mp ((hkeys (cell r)).mpr (mem_map_of_mem hr))
      exact ⟨a, ha, by rw [hcell]⟩
  eq_of_cell := by
    intro rows rows' series series' hrows hrows' hseries hseries' a a' ha ha' hkey hcell
    obtain ⟨first, hfirst, hseries⟩ := bind_eq_ok.mp hseries
    obtain ⟨first', hfirst', hseries'⟩ := bind_eq_ok.mp hseries'
    refine h'.eq_of_cell trivial trivial hseries hseries' ha ha' hkey ?_
    -- the entries of the first step within the coarse cell are the same
    apply eq_of_pairwise_lt key ((h.ascending hrows hfirst).filter _)
      ((h.ascending hrows' hfirst').filter _)
    intro b
    rw [mem_filter, mem_filter]
    refine and_congr_left fun hb => h.mem_iff hrows hrows' hfirst hfirst' ?_
    have hwithin : ∀ rows : List ρ, rows.filter (fun r => cell r = key b) =
        (rows.filter fun r => coarse (cell r) = key' a).filter fun r => cell r = key b := by
      intro rows
      rw [filter_filter]
      apply filter_congr
      intro r _
      by_cases hr : cell r = key b
      · simpa [hr] using hb
      · simp [hr]
    rw [hwithin rows, hwithin rows', hcell]

/-- There are no more entries than rows. -/
theorem length_le (h : Cellwise cell key valid derive) (hrows : valid rows)
    (hseries : derive rows = .ok series) : series.length ≤ rows.length := by
  have hsubset : series.map key ⊆ rows.map cell := fun k hk => (h.mem_keys hrows hseries k).mp hk
  have hle := (subperm_of_subset (nodup_keys (h.ascending hrows hseries)) hsubset).length_le
  rwa [length_map, length_map] at hle

/-- The rows of one cell give its entry. -/
theorem eq_singleton (h : Cellwise cell key valid derive) {part : List α} (hrows : valid rows)
    (hseries : derive rows = .ok series) (ha : a ∈ series)
    (hcell : valid (rows.filter fun r => cell r = key a))
    (hpart : derive (rows.filter fun r => cell r = key a) = .ok part) : part = [a] := by
  have hmem : a ∈ part := by
    refine (h.mem_iff hrows hcell hseries hpart ?_).mp ha
    rw [filter_filter]
    simp
  apply eq_of_pairwise_lt key (h.ascending hcell hpart) (pairwise_singleton _ _)
  intro b
  rw [mem_singleton]
  constructor
  · intro hb
    obtain ⟨r, hr, hkey⟩ := mem_map.mp ((h.mem_keys hcell hpart (key b)).mp (mem_map_of_mem hb))
    have hsame := of_decide_eq_true (mem_filter.mp hr).2
    exact eq_of_key_eq (h.ascending hcell hpart) hb hmem (hkey.symm.trans hsame)
  · rintro rfl
    exact hmem

/-! ## Reading a part of the rows -/

/-- Rows of few cells are few. -/
theorem length_le_of_cells (hmost : ∀ k, cells.count k ≤ most) :
    cells.length ≤ cells.toFinset.card * most := by
  rw [← sum_toFinset_count_eq_length]
  exact Finset.sum_le_card_nsmul _ _ _ fun k _ => hmost k

/-- Many rows give many entries. -/
theorem lt_length_of_cells (hseries : series.Pairwise fun a b => key a < key b)
    (hkeys : ∀ k, k ∈ series.map key ↔ k ∈ cells) {n : ℕ} (hmost : ∀ k, cells.count k ≤ most)
    (h : n * most < cells.length) : n < series.length := by
  have hnodup := nodup_keys hseries
  have hcard : cells.toFinset.card = series.length := by
    rw [← length_map key, ← toFinset_card_of_nodup hnodup]
    congr 1
    ext k
    rw [mem_toFinset, mem_toFinset, hkeys]
  have hle := h.trans_le (length_le_of_cells hmost)
  rw [hcard] at hle
  exact Nat.lt_of_mul_lt_mul_right hle

/-- Keys that ascend to no more than `last` are below it, but for one. -/
theorem length_le_filter_lt (hseries : series.Pairwise fun a b => key a < key b)
    (hlast : ∀ a ∈ series, key a ≤ last) :
    series.length ≤ (series.filter fun a => key a < last).length + 1 := by
  have hbutlast : series.dropLast.Sublist (series.filter fun a => key a < last) := by
    have hall : series.dropLast.filter (fun a => key a < last) = series.dropLast := by
      rw [filter_eq_self]
      intro a ha
      cases hcases : series.getLast? with
      | none =>
        rw [List.getLast?_eq_none_iff] at hcases
        simp [hcases] at ha
      | some b =>
        obtain ⟨before, rfl⟩ := List.getLast?_eq_some_iff.mp hcases
        rw [dropLast_concat] at ha
        have hlt := (pairwise_append.mp hseries).2.2 a ha b (mem_singleton_self b)
        exact decide_eq_true (hlt.trans_le (hlast b (by simp)))
    rw [← hall]
    exact series.dropLast_sublist.filter _
  have hlength := hbutlast.length_le
  rw [length_dropLast] at hlength
  omega

section Limited

variable {rows : List ρ} {limit most n : ℕ} {from_ : κ} {series all : List α}

/-- The keys beyond a bound are the cells beyond it. -/
theorem mem_keys_filter (h : Cellwise cell key valid derive) (hrows : valid rows)
    (hseries : derive rows = .ok series) (p : κ → Bool) (k : κ) :
    k ∈ (series.filter fun a => p (key a)).map key ↔
      k ∈ (rows.filter fun r => p (cell r)).map cell := by
  have hkeys := h.mem_keys hrows hseries k
  simp only [mem_map, mem_filter] at hkeys ⊢
  constructor
  · rintro ⟨a, ⟨ha, hp⟩, rfl⟩
    obtain ⟨r, hr, hcell⟩ := hkeys.mp ⟨a, ha, rfl⟩
    exact ⟨r, ⟨hr, by rwa [hcell]⟩, hcell⟩
  · rintro ⟨r, ⟨hr, hp⟩, rfl⟩
    obtain ⟨a, ha, hkey⟩ := hkeys.mpr ⟨r, hr, rfl⟩
    exact ⟨a, ⟨ha, by rwa [hkey]⟩, hkey⟩

/-- Many rows read beyond a bound give many entries beyond it. -/
theorem lt_length_read (h : Cellwise cell key valid derive) (hread : valid (rows.take limit))
    (hseries : derive (rows.take limit) = .ok series) (hmost : ∀ k, (rows.map cell).count k ≤ most)
    (hmany : n * most < ((rows.take limit).filter fun r => from_ ≤ cell r).length) :
    n < (series.filter fun a => from_ ≤ key a).length := by
  refine lt_length_of_cells ((h.ascending hread hseries).filter _)
    (h.mem_keys_filter hread hseries fun k => from_ ≤ k) (fun k => ?_) (by rwa [length_map])
  have hsublist := filter_sublist (p := fun r => decide (from_ ≤ cell r))
    (l := rows.take limit)
  exact (((hsublist.trans (take_sublist _ _)).map cell).count_le k).trans (hmost k)

theorem key_le_of_cell_le (h : Cellwise cell key valid derive) (hrows : valid rows)
    (hseries : derive rows = .ok series) (hle : ∀ r ∈ rows, cell r ≤ last) (ha : a ∈ series) :
    key a ≤ last := by
  obtain ⟨r, hr, hcell⟩ := mem_map.mp ((h.mem_keys hrows hseries (key a)).mp
    (mem_map_of_mem ha))
  exact hcell ▸ hle r hr

omit [LinearOrder κ] in
theorem ne_nil_of_lt_length_filter {l : List ρ} {p : ρ → Bool} {m : ℕ}
    (h : m < (l.filter p).length) : l ≠ [] := by
  rintro rfl
  simp at h

/-- The reading ends in the greatest of its cells, and the rows after it lie in that cell or in
later ones. -/
theorem exists_last_cell (hordered : rows.Pairwise fun r s => cell r ≤ cell s)
    (hne : rows.take limit ≠ []) : ∃ last, last ∈ (rows.take limit).map cell ∧
      (∀ r ∈ rows.take limit, cell r ≤ last) ∧ ∀ r ∈ rows.drop limit, last ≤ cell r := by
  rw [← take_append_drop limit rows, pairwise_append] at hordered
  obtain ⟨htaken, -, hleft⟩ := hordered
  obtain ⟨before, last, hlast⟩ := (eq_nil_or_concat (rows.take limit)).resolve_left hne
  rw [concat_eq_append] at hlast
  refine ⟨cell last, ?_, ?_, fun r hr => hleft last ?_ r hr⟩
  · simp [hlast]
  · intro r hr
    rw [hlast, pairwise_append] at htaken
    rw [hlast] at hr
    rcases mem_append.mp hr with hearlier | hsame
    · exact htaken.2.2 r hearlier last (mem_singleton_self _)
    · rw [mem_singleton.mp hsame]
  · simp [hlast]

variable (h : Cellwise cell key valid derive)
  (hordered : rows.Pairwise fun r s => cell r ≤ cell s) (hrows : valid rows)
  (hread : valid (rows.take limit)) (hseries : derive (rows.take limit) = .ok series)
  (hall : derive rows = .ok all) (hmost : ∀ k, (rows.map cell).count k ≤ most)
  (hmany : limit < rows.length →
    n * most < ((rows.take limit).filter fun r => from_ ≤ cell r).length)

include h hordered hrows hread hseries hall hmost hmany

/-- What is derived of the first rows, enough of them beyond the bound, is a reading: below the
cell in which the reading ends no row is missing. -/
theorem readTo : ∃ horizon, ReadTo key n horizon (series.filter fun a => from_ ≤ key a)
    (all.filter fun a => from_ ≤ key a) := by
  by_cases hlimit : limit < rows.length
  · have hmany := hmany hlimit
    have hne := ne_nil_of_lt_length_filter hmany
    obtain ⟨last, -, hle, hbeyond⟩ := exists_last_cell hordered hne
    have hsame : ∀ k, k < last → (rows.take limit).filter (fun r => cell r = k) =
        rows.filter fun r => cell r = k := by
      intro k hk
      have hnone : (rows.drop limit).filter (fun r => cell r = k) = [] := by
        rw [filter_eq_nil_iff]
        intro r hr
        simpa using (hk.trans_le (hbeyond r hr)).ne'
      conv_rhs => rw [← take_append_drop limit rows, filter_append, hnone, append_nil]
    refine ⟨fun k => k < last, ?_, ?_, Or.inr ?_⟩
    · intro j k hjk hk
      simp only [decide_eq_true_eq] at hk ⊢
      exact hjk.trans_lt hk
    · intro a ha
      rw [mem_filter, mem_filter]
      refine and_congr_left fun _ => h.mem_iff hread hrows hseries hall (hsame _ ?_)
      exact of_decide_eq_true ha
    · have hlt := h.lt_length_read hread hseries hmost hmany
      have hbound : ∀ a ∈ series.filter (fun a => from_ ≤ key a), key a ≤ last := fun a ha =>
        h.key_le_of_cell_le hread hseries hle (mem_of_mem_filter ha)
      have := length_le_filter_lt ((h.ascending hread hseries).filter _) hbound
      omega
  · rw [take_of_length_le (not_lt.mp hlimit), hall] at hseries
    obtain rfl := Except.ok.inj hseries
    exact ⟨_, .whole key n _⟩

/-- Of the keys even one more is right: that of the cell in which the reading ends. -/
theorem keys_readTo : ∃ horizon, ReadTo id (n + 1) horizon
    ((series.filter fun a => from_ ≤ key a).map key)
    ((all.filter fun a => from_ ≤ key a).map key) := by
  by_cases hlimit : limit < rows.length
  · have hmany := hmany hlimit
    have hne := ne_nil_of_lt_length_filter hmany
    obtain ⟨last, hlast, hle, hbeyond⟩ := exists_last_cell hordered hne
    refine ⟨fun k => k ≤ last, ?_, ?_, Or.inr ?_⟩
    · intro j k hjk hk
      simp only [decide_eq_true_eq] at hk ⊢
      exact hjk.trans hk
    · intro k hk
      have hk : k ≤ last := of_decide_eq_true hk
      rw [h.mem_keys_filter hread hseries fun k => from_ ≤ k,
        h.mem_keys_filter hrows hall fun k => from_ ≤ k]
      simp only [mem_map, mem_filter]
      constructor
      · rintro ⟨r, ⟨hr, hfrom⟩, rfl⟩
        exact ⟨r, ⟨mem_of_mem_take hr, hfrom⟩, rfl⟩
      · rintro ⟨r, ⟨hr, hfrom⟩, rfl⟩
        rw [← take_append_drop limit rows] at hr
        rcases mem_append.mp hr with htaken | hleft
        · exact ⟨r, ⟨htaken, hfrom⟩, rfl⟩
        · -- a row after the reading, but of the cell in which it ends
          obtain ⟨s, hs, hcell⟩ := mem_map.mp hlast
          have hsame : cell s = cell r := hcell.trans (le_antisymm (hbeyond r hleft) hk)
          exact ⟨s, ⟨hs, by rwa [hsame]⟩, hsame⟩
    · have hlt := h.lt_length_read hread hseries hmost hmany
      have hbound : ∀ k ∈ (series.filter fun a => from_ ≤ key a).map key, k ≤ last := by
        intro k hk
        obtain ⟨a, ha, rfl⟩ := mem_map.mp hk
        exact h.key_le_of_cell_le hread hseries hle (mem_of_mem_filter ha)
      rw [filter_eq_self.mpr fun k hk => by simpa using hbound k hk, length_map]
      omega
  · rw [take_of_length_le (not_lt.mp hlimit), hall] at hseries
    obtain rfl := Except.ok.inj hseries
    exact ⟨_, .whole id (n + 1) _⟩

end Limited

end Cellwise

end Goodmoneying.Library
