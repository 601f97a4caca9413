import Mathlib.Data.Finset.Card
import Mathlib.Data.Finset.Filter
import Goodmoneying.Library.ExceptRules
import Goodmoneying.Library.StableSort

/-!
# Keyset pagination

A listing is read page by page: a page takes the first keys after the last key of the page before
it, and one more to see whether it is the last. Rows may be added between the pages, anywhere.
`traverse` follows the cursors; `traverse_keyset` says that it ends, that what it reads ascends,
and that it misses no key that was there at the first page.
-/

namespace Goodmoneying.Library

open List

/-! ## Pages -/

/-- A page: its items, and the cursor of the page after it. -/
structure Page (ι γ : Type) where
  items : List ι
  nextCursor : Option γ

/-- The items of all pages from page `n` on; nothing, if there are more than `fuel` pages. -/
def traverse {ε ι γ : Type} (fetch : ℕ → Option γ → Except ε (Page ι γ)) :
    ℕ → ℕ → Option γ → Except ε (Option (List ι))
  | 0, _, _ => .ok none
  | fuel + 1, n, cursor =>
    match fetch n cursor with
    | .error e => .error e
    | .ok page =>
      match page.nextCursor with
      | none => .ok (some page.items)
      | some next =>
        (traverse fetch fuel (n + 1) (some next)).map fun rest => rest.map (page.items ++ ·)

section Steps

variable {ε ι γ : Type} {fetch : ℕ → Option γ → Except ε (Page ι γ)} {n : ℕ} {cursor : Option γ}
  {page : Page ι γ}

/-- A page without a cursor is the last one. -/
theorem traverse_last (hpage : fetch n cursor = .ok page) (hnext : page.nextCursor = none) :
    ∀ fuel ≥ 1, traverse fetch fuel n cursor = .ok (some page.items) := by
  intro fuel hfuel
  obtain ⟨m, rfl⟩ := Nat.exists_eq_add_of_le' hfuel
  simp only [traverse, hpage, hnext]

/-- A page with a cursor comes before the pages that the cursor leads to. -/
theorem traverse_cons {next : γ} {pages : ℕ} {rest : List ι} (hpage : fetch n cursor = .ok page)
    (hnext : page.nextCursor = some next)
    (hrest : ∀ fuel ≥ pages, traverse fetch fuel (n + 1) (some next) = .ok (some rest)) :
    ∀ fuel ≥ pages + 1, traverse fetch fuel n cursor = .ok (some (page.items ++ rest)) := by
  intro fuel hfuel
  obtain ⟨m, rfl⟩ : ∃ m, fuel = m + 1 := ⟨fuel - 1, by omega⟩
  simp only [traverse, hpage, hnext, hrest m (by omega)]
  rfl

end Steps

section Keys

variable {κ : Type} [LinearOrder κ] (within : κ → Prop) [DecidablePred within]

/-- The keys within the listing that come after `last`, in order. -/
def keysAfter (last : κ) (keys : List κ) : List κ :=
  sortedBy id (keys.filter fun k => within k ∧ last < k)

/-- The keys of a page. -/
def pageKeys (pageSize : ℕ) (last : κ) (keys : List κ) : List κ :=
  (keysAfter within last keys).take pageSize

/-- The last key of a page, if another page follows. -/
def nextKey (pageSize : ℕ) (last : κ) (keys : List κ) : Option κ :=
  if pageSize < ((keysAfter within last keys).take (pageSize + 1)).length then
    (pageKeys within pageSize last keys).getLast?
  else none

variable {within} {pageSize : ℕ} {last : κ} {keys : List κ}

theorem mem_keysAfter {k : κ} :
    k ∈ keysAfter within last keys ↔ k ∈ keys ∧ within k ∧ last < k := by
  rw [keysAfter, mem_sortedBy, mem_filter, decide_eq_true_iff]

theorem pairwise_keysAfter (hkeys : keys.Nodup) : (keysAfter within last keys).Pairwise (· < ·) := by
  apply sortedBy_lt_of_nodup
  rw [map_id']
  exact hkeys.filter _

/-- What a page without a successor takes is all there is. -/
theorem mem_pageKeys_of_nextKey_none (hsize : 0 < pageSize)
    (hnext : nextKey within pageSize last keys = none) {k : κ} (hk : k ∈ keys) (hwithin : within k)
    (hlast : last < k) : k ∈ pageKeys within pageSize last keys := by
  have hmem := mem_keysAfter.mpr ⟨hk, hwithin, hlast⟩
  rw [nextKey] at hnext
  split_ifs at hnext with hmore
  · rw [List.getLast?_eq_none_iff, pageKeys, take_eq_nil_iff] at hnext
    rcases hnext with hzero | hnil
    · omega
    · rw [hnil] at hmem
      cases hmem
  · rw [length_take] at hmore
    rwa [pageKeys, take_of_length_le (by omega)]

/-- The key that a page hands out is the greatest it took; it took all keys up to it. -/
theorem nextKey_spec (hkeys : keys.Nodup) {next : κ}
    (hnext : nextKey within pageSize last keys = some next) :
    next ∈ pageKeys within pageSize last keys ∧
      (∀ k ∈ pageKeys within pageSize last keys, k ≤ next) ∧
      ∀ k ∈ keys, within k → last < k → k ≤ next → k ∈ pageKeys within pageSize last keys := by
  rw [nextKey] at hnext
  split_ifs at hnext
  obtain ⟨first, hfirst⟩ := List.getLast?_eq_some_iff.mp hnext
  have hsorted : (keysAfter within last keys).Pairwise (· < ·) := pairwise_keysAfter hkeys
  have hsplit := take_append_drop pageSize (keysAfter within last keys)
  rw [← hsplit, pairwise_append] at hsorted
  obtain ⟨htake, -, hdrop⟩ := hsorted
  change (pageKeys within pageSize last keys).Pairwise _ at htake
  have hmem : next ∈ pageKeys within pageSize last keys := by
    rw [hfirst]
    exact mem_append_right _ (mem_singleton_self next)
  refine ⟨hmem, ?_, ?_⟩
  · rw [hfirst, pairwise_append] at htake
    intro k hk
    rw [hfirst] at hk
    rcases mem_append.mp hk with hk | hk
    · exact (htake.2.2 k hk next (mem_singleton_self next)).le
    · exact (mem_singleton.mp hk).le
  · intro k hk hwithin hlast hle
    have hafter := mem_keysAfter.mpr ⟨hk, hwithin, hlast⟩
    rw [← hsplit] at hafter
    rcases mem_append.mp hafter with htaken | hleft
    · exact htaken
    · exact absurd (hdrop next hmem k hleft) (not_lt.mpr hle)

/-- The keys of the rows that a query selects and orders. -/
theorem map_key_sortedBy {ρ : Type} {key : ρ → κ} {p : ρ → Bool}
    (hp : ∀ row, p row = decide (within (key row) ∧ last < key row)) (rows : List ρ) :
    (sortedBy key (rows.filter p)).map key = keysAfter within last (rows.map key) := by
  have hfilter : (rows.map key).filter (fun k => within k ∧ last < k) =
      (rows.filter p).map key := by
    rw [filter_map]
    congr 2
    funext row
    exact (hp row).symm
  rw [keysAfter, hfilter]
  exact (sortedBy_map id key _).symm

end Keys

/-! ## Traversals -/

section Traversal

variable {ε ι γ κ : Type} [LinearOrder κ] {within : κ → Prop} [DecidablePred within]
  {fetch : ℕ → Option γ → Except ε (Page ι γ)} {key : ι → κ} {encode : κ → γ} {keys : ℕ → List κ}
  {pageSize : ℕ → ℕ}
variable {size : ℕ}

/-- A page takes the keys after `last`, of the keys that are there at its time. -/
def TakesPage (within : κ → Prop) [DecidablePred within] (key : ι → κ) (encode : κ → γ)
    (pageSize : ℕ) (last : κ) (keys : List κ) (page : Page ι γ) : Prop :=
  page.items.map key = pageKeys within pageSize last keys ∧
    page.nextCursor = (nextKey within pageSize last keys).map encode

variable {page : Page ι γ}

/-- A query with one row more than the page takes a page. -/
theorem takesPage_of_rows {ρ : Type} (rowKey : ρ → κ) {p : ρ → Bool} {last : κ}
    (hp : ∀ row, p row = decide (within (rowKey row) ∧ last < rowKey row)) {rows fetched : List ρ}
    (hfetched : fetched = (sortedBy rowKey (rows.filter p)).take (size + 1))
    (hitems : page.items.map key = (fetched.take size).map rowKey) (hnext : page.nextCursor = if
      size < fetched.length then (fetched.take size).getLast?.map fun row => encode (rowKey row)
      else none) : TakesPage within key encode size last (rows.map rowKey) page := by
  have hkeys := map_key_sortedBy hp rows
  have htake : (fetched.take size).map rowKey = pageKeys within size last (rows.map rowKey) := by
    rw [hfetched, take_take, min_eq_left (Nat.le_succ size), map_take, hkeys, pageKeys]
  have hlength : fetched.length =
      ((keysAfter within last (rows.map rowKey)).take (size + 1)).length := by
    rw [hfetched, ← hkeys, length_take, length_take, length_map]
  refine ⟨hitems.trans htake, ?_⟩
  rw [hnext, nextKey, hlength, ← htake, List.getLast?_map]
  split_ifs
  · rw [Option.map_map]
    rfl
  · rfl

/-- A traversal from `last` on. -/
structure Traversed (within : κ → Prop) (key : ι → κ) (last : κ) (keys : List κ)
    (items : List ι) : Prop where
  ascending : (items.map key).Pairwise (· < ·)
  within_listing : ∀ k ∈ items.map key, within k ∧ last < k
  complete : ∀ k ∈ keys, within k → last < k → k ∈ items.map key

/-- What is read of a page, followed by a traversal from its last key on. -/
theorem Traversed.cons {last next : κ} {keys keys' : List κ} (hkeys : keys.Nodup)
    (hgrows : ∀ k ∈ keys, k ∈ keys') (hpage : page.items.map key = pageKeys within size last keys)
    (hnext : nextKey within size last keys = some next) {items : List ι}
    (h : Traversed within key next keys' items) :
    Traversed within key last keys (page.items ++ items) := by
  obtain ⟨hmem, hle, hall⟩ := nextKey_spec hkeys hnext
  have hafter : last < next := (mem_keysAfter.mp (mem_of_mem_take hmem)).2.2
  constructor
  · rw [map_append, pairwise_append, hpage]
    refine ⟨(pairwise_keysAfter hkeys).sublist (take_sublist _ _), h.ascending, ?_⟩
    intro a ha b hb
    exact (hle a ha).trans_lt (h.within_listing b hb).2
  · intro k hk
    rw [map_append, mem_append, hpage] at hk
    rcases hk with hk | hk
    · exact (mem_keysAfter.mp (mem_of_mem_take hk)).2
    · exact ⟨(h.within_listing k hk).1, hafter.trans (h.within_listing k hk).2⟩
  · intro k hk hwithin hlast
    rw [map_append, mem_append, hpage]
    rcases le_or_gt k next with hle | hlt
    · exact Or.inl (hall k hk hwithin hlast hle)
    · exact Or.inr (h.complete k (hgrows k hk) hwithin hlt)

/-- A last page is a traversal. -/
theorem Traversed.last {last : κ} {keys : List κ} (hsize : 0 < size) (hkeys : keys.Nodup)
    (hpage : page.items.map key = pageKeys within size last keys)
    (hnext : nextKey within size last keys = none) : Traversed within key last keys page.items := by
  constructor
  · rw [hpage]
    exact (pairwise_keysAfter hkeys).sublist (take_sublist _ _)
  · intro k hk
    rw [hpage] at hk
    exact (mem_keysAfter.mp (mem_of_mem_take hk)).2
  · intro k hk hwithin hlast
    rw [hpage]
    exact mem_pageKeys_of_nextKey_none hsize hnext hk hwithin hlast

/-- A traversal whose pages are keyset pages ends, whatever is added between them. The recursion
is on the number of keys that the listing may still have after the last one. -/
theorem traverse_keyset (range : Finset κ) (hsize : ∀ n, 0 < pageSize n)
    (hkeys : ∀ n, (keys n).Nodup) (hgrows : ∀ n, ∀ k ∈ keys n, k ∈ keys (n + 1))
    (hrange : ∀ n, ∀ k ∈ keys n, within k → k ∈ range)
    (hfetch : ∀ n, ∀ last ∈ range, ∃ page, fetch n (some (encode last)) = .ok page ∧
      TakesPage within key encode (pageSize n) last (keys n) page)
    (n : ℕ) (last : κ) {cursor : Option γ} (hcursor : ∃ page, fetch n cursor = .ok page ∧
      TakesPage within key encode (pageSize n) last (keys n) page) :
    ∃ items, (∃ pages, ∀ fuel ≥ pages, traverse fetch fuel n cursor = .ok (some items)) ∧
      Traversed within key last (keys n) items := by
  obtain ⟨page, hpage, hitems, hnext⟩ := hcursor
  cases hkey : nextKey within (pageSize n) last (keys n) with
  | none =>
    rw [hkey, Option.map_none] at hnext
    exact ⟨page.items, ⟨1, traverse_last hpage hnext⟩, .last (hsize n) (hkeys n) hitems hkey⟩
  | some next =>
    rw [hkey, Option.map_some] at hnext
    obtain ⟨hmem, -, -⟩ := nextKey_spec (hkeys n) hkey
    obtain ⟨hvisible, hwithin, hlast⟩ := mem_keysAfter.mp (mem_of_mem_take hmem)
    have hless : (range.filter (next < ·)).card < (range.filter (last < ·)).card := by
      apply Finset.card_lt_card
      rw [Finset.ssubset_iff_of_subset]
      · refine ⟨next, Finset.mem_filter.mpr ⟨hrange n next hvisible hwithin, hlast⟩, ?_⟩
        simp
      · intro k hk
        rw [Finset.mem_filter] at hk ⊢
        exact ⟨hk.1, hlast.trans hk.2⟩
    obtain ⟨rest, ⟨pages, hpages⟩, hrest⟩ := traverse_keyset range hsize hkeys hgrows hrange
      hfetch (n + 1) next (hfetch (n + 1) next (hrange n next hvisible hwithin))
    exact ⟨page.items ++ rest, ⟨pages + 1, traverse_cons hpage hnext hpages⟩,
      .cons (hkeys n) (hgrows n) hitems hkey hrest⟩
termination_by (range.filter (last < ·)).card

end Traversal

end Goodmoneying.Library
