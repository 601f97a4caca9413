import Goodmoneying.Library.Grouping
import Goodmoneying.Library.Keyset

/-!
# Pages of a series

A series is a list in strictly ascending order of its keys. A page of a series shows its first
entries and hands out the key of the last of them, unless nothing is left (`PageOf`); following the
keys reads the series (`traverse_series`). What a query has read of a series agrees with it below a
horizon (`ReadTo`); that of two merged series (`mergedBy`) is the nearer of theirs
(`ReadTo.mergedBy`).
-/

namespace Goodmoneying.Library

open List

section Keys

variable {α κ : Type} [LinearOrder κ] {key : α → κ} {series : List α}

theorem nodup_keys (hseries : series.Pairwise fun a b => key a < key b) :
    (series.map key).Nodup := by
  rw [List.Nodup, pairwise_map]
  exact hseries.imp fun hlt => hlt.ne

/-- A series has one entry of a key. -/
theorem eq_of_key_eq (hseries : series.Pairwise fun a b => key a < key b) {a b : α}
    (ha : a ∈ series) (hb : b ∈ series) (hkey : key a = key b) : a = b :=
  inj_on_of_nodup_map (nodup_keys hseries) ha hb hkey

/-- An entry is among the first `n` if fewer than `n` have a lower key. -/
theorem mem_take_iff (hseries : series.Pairwise fun a b => key a < key b) {a : α} (ha : a ∈ series)
    (n : ℕ) : a ∈ series.take n ↔ (series.filter fun b => key b < key a).length < n := by
  induction series generalizing n with
  | nil => cases ha
  | cons first series ih =>
    obtain ⟨hfirst, hseries⟩ := pairwise_cons.mp hseries
    cases n with
    | zero => simp
    | succ n =>
      rw [take_succ_cons, mem_cons]
      rcases mem_cons.mp ha with rfl | ha
      · have hnone : (a :: series).filter (fun b => key b < key a) = [] := by
          rw [filter_eq_nil_iff]
          intro b hb
          rcases mem_cons.mp hb with rfl | hb
          · simp
          · simpa using (hfirst b hb).le
        simp [hnone]
      · have hlt := hfirst a ha
        have hne : a ≠ first := by
          rintro rfl
          exact lt_irrefl _ hlt
        rw [filter_cons_of_pos (by simpa using hlt), length_cons, ih hseries ha]
        simp [hne]

end Keys

/-! ## Following the pages -/

section Pages

variable {ε ι β κ : Type} [LinearOrder κ] {shown : ι → β} {key : ι → κ} {pageSize : ℕ}
variable {rest series : List ι}

/-- A page of what is left of a series. -/
structure PageOf (shown : ι → β) (key : ι → κ) (pageSize : ℕ) (rest : List ι)
    (page : Page ι κ) : Prop where
  shown_eq : page.items.map shown = (rest.take pageSize).map shown
  last : page.nextCursor = none → rest.length ≤ pageSize
  next : ∀ c, page.nextCursor = some c → ((rest.take pageSize).map key).getLast? = some c

omit [LinearOrder κ] in
/-- Entries that begin as the rest does make a page of it. `limited` says that the entries may end
before the rest does. -/
theorem PageOf.of_take {entries : List ι} {limited : Prop} [Decidable limited]
    (hsize : 0 < pageSize)
    (hshown : (entries.take pageSize).map shown = (rest.take pageSize).map shown)
    (hkeys : (entries.take pageSize).map key = (rest.take pageSize).map key)
    (hlast : ¬ limited → entries.length ≤ pageSize → rest.length ≤ pageSize) :
    PageOf shown key pageSize rest
      ⟨entries.take pageSize, if pageSize < entries.length ∨ limited then
        ((entries.take pageSize).map key).getLast? else none⟩ where
  shown_eq := hshown
  last := by
    intro hnone
    simp only at hnone
    split_ifs at hnone with hmore
    · rw [hkeys, List.getLast?_eq_none_iff, map_eq_nil_iff, take_eq_nil_iff] at hnone
      rcases hnone with hzero | hnil
      · omega
      · simp [hnil]
    · rw [not_or] at hmore
      exact hlast hmore.2 (by omega)
  next := by
    intro c hc
    simp only at hc
    split_ifs at hc
    rw [← hkeys, hc]

/-- After the last key of a page the series goes on with what the page left. -/
theorem filter_after_page {before : List ι}
    (hseries : (before ++ rest).Pairwise fun a b => key a < key b) {c : κ}
    (hlast : ((rest.take pageSize).map key).getLast? = some c) :
    (before ++ rest).filter (fun a => c < key a) = rest.drop pageSize := by
  obtain ⟨keys, hkeys⟩ := List.getLast?_eq_some_iff.mp hlast
  have hsplit : before ++ rest = (before ++ rest.take pageSize) ++ rest.drop pageSize := by
    rw [append_assoc, take_append_drop]
  rw [hsplit, pairwise_append] at hseries
  obtain ⟨htaken, -, hleft⟩ := hseries
  obtain ⟨last, hmem, hkey⟩ : ∃ last ∈ rest.take pageSize, key last = c := by
    apply mem_map.mp
    simp [hkeys]
  -- no key up to the end of the page is beyond the last one
  have hle : ∀ a ∈ before ++ rest.take pageSize, key a ≤ c := by
    intro a ha
    have hascending := pairwise_map.mpr htaken
    rw [map_append, hkeys, ← append_assoc, pairwise_append] at hascending
    have ha' : key a ∈ before.map key ++ keys ++ [c] := by
      rw [append_assoc, ← hkeys, ← map_append]
      exact mem_map_of_mem ha
    rcases mem_append.mp ha' with hearlier | hsame
    · exact (hascending.2.2 _ hearlier c (mem_singleton_self c)).le
    · exact (mem_singleton.mp hsame).le
  rw [hsplit, filter_append, filter_eq_nil_iff.mpr, filter_eq_self.mpr, nil_append]
  · intro a ha
    have hlt := hleft last (mem_append_right _ hmem) a ha
    simpa [hkey] using hlt
  · intro a ha
    simpa using hle a ha

variable {fetch : ℕ → Option κ → Except ε (Page ι κ)}

/-- Following the cursors from a page of the rest of a series reads that rest. The recursion is on
its length. -/
theorem traverse_rest (hseries : series.Pairwise fun a b => key a < key b) (hsize : 0 < pageSize)
    (hfetch : ∀ n, ∀ c ∈ series.map key, ∃ page, fetch n (some c) = .ok page ∧ PageOf shown key
      pageSize (series.filter fun a => c < key a) page) (before rest : List ι)
    (hrest : series = before ++ rest) {n : ℕ} {cursor : Option κ} {page : Page ι κ}
    (hpage : fetch n cursor = .ok page) (hof : PageOf shown key pageSize rest page) :
    ∃ items, (∃ pages, ∀ fuel ≥ pages, traverse fetch fuel n cursor = .ok (some items)) ∧
      items.map shown = rest.map shown := by
  cases hnext : page.nextCursor with
  | none =>
    refine ⟨page.items, ⟨1, traverse_last hpage hnext⟩, ?_⟩
    rw [hof.shown_eq, take_of_length_le (hof.last hnext)]
  | some c =>
    have hlast := hof.next c hnext
    have hpos : 0 < rest.length := by
      apply length_pos_iff.mpr
      rintro rfl
      simp at hlast
    have hmem : c ∈ series.map key := by
      rw [hrest, map_append]
      apply mem_append_right
      exact ((take_sublist _ _).map key).subset (mem_of_getLast? hlast)
    obtain ⟨following, hfollowing, hof'⟩ := hfetch (n + 1) c hmem
    rw [hrest, filter_after_page (hrest ▸ hseries) hlast] at hof'
    have hless : (rest.drop pageSize).length < rest.length := by
      rw [length_drop]
      omega
    have hsplit : series = (before ++ rest.take pageSize) ++ rest.drop pageSize := by
      rw [hrest, append_assoc, take_append_drop]
    obtain ⟨items, ⟨pages, hpages⟩, hitems⟩ := traverse_rest hseries hsize hfetch
      (before ++ rest.take pageSize) (rest.drop pageSize) hsplit hfollowing hof'
    refine ⟨page.items ++ items, ⟨pages + 1, traverse_cons hpage hnext hpages⟩, ?_⟩
    rw [map_append, hof.shown_eq, hitems, ← map_append, take_append_drop]
termination_by rest.length

/-- Pages of a series, followed from the first one, are read to the end and show the series. -/
theorem traverse_series (hseries : series.Pairwise fun a b => key a < key b) (hsize : 0 < pageSize)
    (hfetch : ∀ n, ∀ c ∈ series.map key, ∃ page, fetch n (some c) = .ok page ∧ PageOf shown key
      pageSize (series.filter fun a => c < key a) page) {n : ℕ} {page : Page ι κ}
    (hpage : fetch n none = .ok page) (hof : PageOf shown key pageSize series page) :
    ∃ items, (∃ pages, ∀ fuel ≥ pages, traverse fetch fuel n none = .ok (some items)) ∧
      items.map shown = series.map shown :=
  traverse_rest hseries hsize hfetch [] series rfl hpage hof

/-- What is read begins with the first page. -/
theorem prefix_of_traverse {γ : Type} {fetch : ℕ → Option γ → Except ε (Page ι γ)} {fuel n : ℕ}
    {cursor : Option γ} {page : Page ι γ} {items : List ι} (hpage : fetch n cursor = .ok page)
    (h : traverse fetch fuel n cursor = .ok (some items)) : page.items <+: items := by
  cases fuel with
  | zero => simp [traverse] at h
  | succ fuel =>
    simp only [traverse, hpage] at h
    cases hnext : page.nextCursor with
    | none =>
      simp only [hnext, Except.ok.injEq, Option.some.injEq] at h
      rw [h]
    | some next =>
      simp only [hnext] at h
      cases hrest : traverse fetch fuel (n + 1) (some next) with
      | error e => simp [hrest, Except.map] at h
      | ok rest =>
        cases rest with
        | none => simp [hrest, Except.map] at h
        | some rest =>
          simp only [hrest, Except.map, Option.map_some, Except.ok.injEq, Option.some.injEq] at h
          exact ⟨rest, h⟩

end Pages

/-! ## Readings of a series -/

section Readings

variable {α κ : Type} [LinearOrder κ] {key : α → κ} {n : ℕ}

/-- What has been read of a series: below the horizon all of it, and at least `n` entries, unless
the horizon lies behind the series. -/
structure ReadTo (key : α → κ) (n : ℕ) (horizon : κ → Bool) (read all : List α) : Prop where
  lower : ∀ j k, j ≤ k → horizon k = true → horizon j = true
  agree : ∀ a, horizon (key a) = true → (a ∈ read ↔ a ∈ all)
  enough : (∀ k, horizon k = true) ∨ n ≤ (read.filter fun a => horizon (key a)).length

/-- A series is a reading of itself. -/
theorem ReadTo.whole (key : α → κ) (n : ℕ) (all : List α) : ReadTo key n (fun _ => true) all all :=
  ⟨fun _ _ _ h => h, fun _ _ => Iff.rfl, Or.inl fun _ => rfl⟩

/-- A reading begins as the series does. -/
theorem ReadTo.take_eq {horizon : κ → Bool} {read all : List α} (h : ReadTo key n horizon read all)
    (hread : read.Pairwise fun a b => key a < key b)
    (hall : all.Pairwise fun a b => key a < key b) : read.take n = all.take n := by
  let below : α → Bool := fun a => horizon (key a)
  have hbelow : read.filter below = all.filter below := by
    apply eq_of_pairwise_lt key (hread.filter _) (hall.filter _)
    intro a
    rw [mem_filter, mem_filter]
    exact and_congr_left (h.agree a)
  have hlower : ∀ l : List α, l.Pairwise (fun a b => key a < key b) → l.filter below <+: l :=
    fun l hl => filter_prefix_of_pairwise (hl.imp fun hlt => h.lower _ _ hlt.le)
  rcases h.enough with heverything | henough
  · rw [filter_eq_self.mpr fun a _ => heverything (key a),
      filter_eq_self.mpr fun a _ => heverything (key a)] at hbelow
    rw [hbelow]
  · obtain ⟨rest, hrest⟩ := hlower read hread
    obtain ⟨rest', hrest'⟩ := hlower all hall
    rw [← hrest, ← hrest', ← hbelow, take_append_of_le_length henough,
      take_append_of_le_length henough]

/-- The first entries of a series, one more than needed. -/
theorem ReadTo.take (all : List α) (hall : all.Pairwise fun a b => key a < key b) :
    ∃ horizon, ReadTo key n horizon (all.take (n + 1)) all := by
  cases hlast : (all.take (n + 1)).getLast? with
  | none =>
    have hnil : all = [] := by simpa using hlast
    rw [hnil, take_nil]
    exact ⟨_, .whole key n []⟩
  | some last =>
    obtain ⟨before, hbefore⟩ := List.getLast?_eq_some_iff.mp hlast
    have hsplit := take_append_drop (n + 1) all
    have hascending := hall
    rw [← hsplit, pairwise_append] at hascending
    obtain ⟨htaken, -, hleft⟩ := hascending
    have hlast_mem : last ∈ all.take (n + 1) := mem_of_getLast? hlast
    by_cases hmore : all.length ≤ n + 1
    · rw [take_of_length_le hmore]
      exact ⟨_, .whole key n all⟩
    · have hle : ∀ a ∈ all.take (n + 1), key a ≤ key last := by
        rw [hbefore, pairwise_append] at htaken
        intro a ha
        rw [hbefore] at ha
        rcases mem_append.mp ha with hearlier | hsame
        · exact (htaken.2.2 a hearlier last (mem_singleton_self _)).le
        · rw [mem_singleton.mp hsame]
      refine ⟨fun k => k ≤ key last, ?_, ?_, Or.inr ?_⟩
      · intro j k hjk hk
        simp only [decide_eq_true_eq] at hk ⊢
        exact hjk.trans hk
      · intro a ha
        refine ⟨mem_of_mem_take, fun hmem => ?_⟩
        rw [← hsplit] at hmem
        rcases mem_append.mp hmem with htake | hdrop
        · exact htake
        · have hlt := hleft last hlast_mem a hdrop
          simp only [decide_eq_true_eq] at ha
          exact absurd hlt (not_lt.mpr ha)
      · rw [filter_eq_self.mpr fun a ha => by simpa using hle a ha, length_take]
        omega

end Readings

/-! ## Merging -/

section Merging

variable {α κ : Type} [LinearOrder κ] {key : α → κ}

/-- The entries under their keys. -/
def byKey (key : α → κ) (entries : List α) : List (κ × α) :=
  entries.map fun a => (key a, a)

/-- A dictionary of the base, updated with the overlay, in the order of the keys. -/
def mergedBy (key : α → κ) (base overlay : List α) : List α :=
  (sortedBy Prod.fst (setItems (setItems [] (byKey key base)) (byKey key overlay))).map Prod.snd

omit [LinearOrder κ] in
theorem map_fst_byKey (key : α → κ) (entries : List α) :
    (byKey key entries).map Prod.fst = entries.map key := by
  simp [byKey]

theorem nodup_keys_byKey (key : α → κ) (base overlay : List α) :
    ((setItems (setItems [] (byKey key base)) (byKey key overlay)).map Prod.fst).Nodup :=
  nodup_keys_setItems (nodup_keys_setItems (by simp) _) _

theorem mem_setItems_of_nodup {entries pairs : List (κ × α)} (h : (entries.map Prod.fst).Nodup)
    (hpairs : (pairs.map Prod.fst).Nodup) (entry : κ × α) : entry ∈ setItems entries pairs ↔
      entry ∈ pairs ∨ entry ∈ entries ∧ entry.1 ∉ pairs.map Prod.fst := by
  induction pairs using List.reverseRecOn with
  | nil => simp [setItems]
  | append_singleton pairs pair ih =>
    rw [map_append, nodup_append] at hpairs
    obtain ⟨hfirst, -, hdisjoint⟩ := hpairs
    have hfresh : ∀ other ∈ pairs, other.1 ≠ pair.1 := fun other hother =>
      hdisjoint _ (mem_map_of_mem hother) _ (by simp)
    rw [setItems_concat, mem_setItem (nodup_keys_setItems h pairs), ih hfirst]
    simp only [map_append, mem_append, map_cons, map_nil, mem_singleton]
    grind

section Members

variable {base overlay : List α} (hbase : base.Pairwise fun a b => key a < key b)
  (hoverlay : overlay.Pairwise fun a b => key a < key b)

include hbase hoverlay

/-- Where both have a key, the overlay wins. -/
theorem mem_entries_mergedBy (entry : κ × α) :
    entry ∈ setItems (setItems [] (byKey key base)) (byKey key overlay) ↔ entry.1 = key entry.2 ∧
        (entry.2 ∈ overlay ∨ entry.2 ∈ base ∧ key entry.2 ∉ overlay.map key) := by
  have hkeys : ∀ {l : List α}, l.Pairwise (fun a b => key a < key b) →
      ((byKey key l).map Prod.fst).Nodup := by
    intro l hl
    rw [map_fst_byKey]
    exact nodup_keys hl
  have hmem : ∀ (l : List α), entry ∈ byKey key l ↔ entry.1 = key entry.2 ∧ entry.2 ∈ l := by
    intro l
    obtain ⟨k, a⟩ := entry
    simp only [byKey, mem_map, Prod.mk.injEq]
    constructor
    · rintro ⟨b, hb, rfl, rfl⟩
      exact ⟨rfl, hb⟩
    · rintro ⟨rfl, ha⟩
      exact ⟨a, ha, rfl, rfl⟩
  have hnil : (([] : List (κ × α)).map Prod.fst).Nodup := nodup_nil
  rw [mem_setItems_of_nodup (nodup_keys_setItems hnil _) (hkeys hoverlay),
    mem_setItems_of_nodup hnil (hkeys hbase), hmem, hmem, map_fst_byKey, map_fst_byKey]
  simp only [not_mem_nil, false_and, or_false]
  constructor
  · rintro (⟨hkey, hmem⟩ | ⟨⟨hkey, hmem⟩, hfresh⟩)
    · exact ⟨hkey, Or.inl hmem⟩
    · exact ⟨hkey, Or.inr ⟨hmem, hkey ▸ hfresh⟩⟩
  · rintro ⟨hkey, hmem | ⟨hmem, hfresh⟩⟩
    · exact Or.inl ⟨hkey, hmem⟩
    · exact Or.inr ⟨⟨hkey, hmem⟩, hkey ▸ hfresh⟩

theorem mem_mergedBy {a : α} :
    a ∈ mergedBy key base overlay ↔ a ∈ overlay ∨ a ∈ base ∧ key a ∉ overlay.map key := by
  simp only [mergedBy, mem_map, mem_sortedBy, mem_entries_mergedBy hbase hoverlay]
  constructor
  · rintro ⟨entry, ⟨-, hentry⟩, rfl⟩
    exact hentry
  · intro ha
    exact ⟨(key a, a), ⟨rfl, ha⟩, rfl⟩

/-- The keys are those of both. -/
theorem mem_keys_mergedBy {k : κ} :
    k ∈ (mergedBy key base overlay).map key ↔ k ∈ base.map key ∨ k ∈ overlay.map key := by
  constructor
  · intro hk
    obtain ⟨a, ha, rfl⟩ := mem_map.mp hk
    rcases (mem_mergedBy hbase hoverlay).mp ha with hmem | ⟨hmem, -⟩
    · exact Or.inr (mem_map_of_mem hmem)
    · exact Or.inl (mem_map_of_mem hmem)
  · intro hk
    by_cases hoverlaid : k ∈ overlay.map key
    · obtain ⟨a, ha, rfl⟩ := mem_map.mp hoverlaid
      exact mem_map_of_mem ((mem_mergedBy hbase hoverlay).mpr (Or.inl ha))
    · obtain ⟨a, ha, rfl⟩ := mem_map.mp (hk.resolve_right hoverlaid)
      exact mem_map_of_mem ((mem_mergedBy hbase hoverlay).mpr (Or.inr ⟨ha, hoverlaid⟩))

theorem pairwise_mergedBy : (mergedBy key base overlay).Pairwise fun a b => key a < key b := by
  rw [mergedBy, pairwise_map]
  refine (sortedBy_lt_of_nodup (nodup_keys_byKey key base overlay)).imp_of_mem
    fun {first second} hfirst hsecond hlt => ?_
  rw [mem_sortedBy, mem_entries_mergedBy hbase hoverlay] at hfirst hsecond
  rwa [← hfirst.1, ← hsecond.1]

end Members

variable {base overlay : List α}

/-- Filtering the dictionary is filtering what it lists. -/
theorem map_filter_entries (hbase : base.Pairwise fun a b => key a < key b)
    (hoverlay : overlay.Pairwise fun a b => key a < key b) (p : κ → Bool) :
    ((sortedBy Prod.fst (setItems (setItems [] (byKey key base)) (byKey key overlay))).filter
      fun entry => p entry.1).map Prod.snd =
        (mergedBy key base overlay).filter fun a => p (key a) := by
  rw [mergedBy, filter_map]
  congr 1
  apply filter_congr
  intro entry hentry
  rw [mem_sortedBy, mem_entries_mergedBy hbase hoverlay] at hentry
  rw [hentry.1]
  rfl

/-- Only the keys that pass the filter matter for what passes it. -/
theorem filter_mergedBy (hbase : base.Pairwise fun a b => key a < key b)
    (hoverlay : overlay.Pairwise fun a b => key a < key b) (p : κ → Bool) :
    (mergedBy key base overlay).filter (fun a => p (key a)) =
      mergedBy key (base.filter fun a => p (key a)) (overlay.filter fun a => p (key a)) := by
  apply eq_of_pairwise_lt key ((pairwise_mergedBy hbase hoverlay).filter _)
    (pairwise_mergedBy (hbase.filter _) (hoverlay.filter _))
  intro a
  have hkeys : p (key a) = true → (key a ∈ (overlay.filter fun a => p (key a)).map key ↔
      key a ∈ overlay.map key) := by
    intro hp
    simp only [mem_map, mem_filter]
    constructor
    · rintro ⟨b, ⟨hb, -⟩, hkey⟩
      exact ⟨b, hb, hkey⟩
    · rintro ⟨b, hb, hkey⟩
      exact ⟨b, ⟨hb, by rwa [hkey]⟩, hkey⟩
  rw [mem_filter, mem_mergedBy hbase hoverlay,
    mem_mergedBy (hbase.filter _) (hoverlay.filter _), mem_filter, mem_filter]
  by_cases hp : p (key a) = true
  · simp [hp, hkeys hp]
  · simp [hp]

/-- The keys of merged series are the merged keys. -/
theorem map_key_mergedBy (hbase : base.Pairwise fun a b => key a < key b)
    (hoverlay : overlay.Pairwise fun a b => key a < key b) :
    (mergedBy key base overlay).map key = mergedBy id (base.map key) (overlay.map key) := by
  have hbase' : (base.map key).Pairwise fun j k => id j < id k := pairwise_map.mpr hbase
  have hoverlay' : (overlay.map key).Pairwise fun j k => id j < id k := pairwise_map.mpr hoverlay
  have hmerged : ((mergedBy key base overlay).map key).Pairwise fun j k => id j < id k :=
    pairwise_map.mpr (pairwise_mergedBy hbase hoverlay)
  apply eq_of_pairwise_lt id hmerged (pairwise_mergedBy hbase' hoverlay')
  intro k
  have hkeys := mem_keys_mergedBy hbase' hoverlay' (k := k)
  rw [map_id, map_id, map_id] at hkeys
  rw [hkeys, mem_keys_mergedBy hbase hoverlay]

theorem length_mergedBy_le (key : α → κ) (base overlay : List α) :
    (mergedBy key base overlay).length ≤ base.length + overlay.length := by
  have hset : ∀ entries pairs : List (κ × α),
      (setItems entries pairs).length ≤ entries.length + pairs.length := by
    intro entries pairs
    induction pairs using List.reverseRecOn with
    | nil => simp [setItems]
    | append_singleton pairs pair ih =>
      have hone := congrArg List.length (keys_setItem pair.1 pair.2 (setItems entries pairs))
      rw [length_map] at hone
      rw [setItems_concat, hone, length_append]
      split_ifs <;> simp <;> omega
  have hbase := hset [] (byKey key base)
  have hboth := hset (setItems [] (byKey key base)) (byKey key overlay)
  simp only [byKey, length_map, length_nil, Nat.zero_add] at hbase hboth
  rw [mergedBy, length_map, (sortedBy_perm _ _).length_eq]
  simp only [byKey]
  omega

theorem length_filter_le_of_keys_subset {read all : List α} {p : κ → Bool}
    (hread : read.Pairwise fun a b => key a < key b) (h : ∀ a ∈ read, key a ∈ all.map key) :
    (read.filter fun a => p (key a)).length ≤ (all.filter fun a => p (key a)).length := by
  have hnodup := nodup_keys (hread.filter fun a => p (key a))
  have hsubset : (read.filter fun a => p (key a)).map key ⊆
      (all.filter fun a => p (key a)).map key := by
    intro k hk
    obtain ⟨a, ha, rfl⟩ := mem_map.mp hk
    obtain ⟨hmem, hp⟩ := mem_filter.mp ha
    obtain ⟨b, hb, hkey⟩ := mem_map.mp (h a hmem)
    exact mem_map.mpr ⟨b, mem_filter.mpr ⟨hb, by rwa [hkey]⟩, hkey⟩
  simpa using (subperm_of_subset hnodup hsubset).length_le

/-- Readings of two series, merged, are a reading of the merged series. -/
theorem ReadTo.mergedBy {n : ℕ} {horizon horizon' : κ → Bool} {read all read' all' : List α}
    (h : ReadTo key n horizon read all) (h' : ReadTo key n horizon' read' all')
    (hread : read.Pairwise fun a b => key a < key b) (hall : all.Pairwise fun a b => key a < key b)
    (hread' : read'.Pairwise fun a b => key a < key b)
    (hall' : all'.Pairwise fun a b => key a < key b) :
    ReadTo key n (fun k => horizon k && horizon' k) (Library.mergedBy key read read')
      (Library.mergedBy key all all') where
  lower := by
    intro j k hjk hk
    rw [Bool.and_eq_true] at hk ⊢
    exact ⟨h.lower j k hjk hk.1, h'.lower j k hjk hk.2⟩
  agree := by
    intro a ha
    rw [Bool.and_eq_true] at ha
    have hkeys : key a ∈ read'.map key ↔ key a ∈ all'.map key := by
      simp only [mem_map]
      constructor
      · rintro ⟨b, hb, hkey⟩
        exact ⟨b, (h'.agree b (hkey ▸ ha.2)).mp hb, hkey⟩
      · rintro ⟨b, hb, hkey⟩
        exact ⟨b, (h'.agree b (hkey ▸ ha.2)).mpr hb, hkey⟩
    rw [mem_mergedBy hread hread', mem_mergedBy hall hall', h.agree a ha.1, h'.agree a ha.2, hkeys]
  enough := by
    -- the horizons are lower sets, so one of them lies within the other
    by_cases hwithin : ∀ k, horizon k = true → horizon' k = true
    · have hand : ∀ k, (horizon k && horizon' k) = horizon k := by
        intro k
        cases hk : horizon k with
        | false => rfl
        | true => simp [hwithin k hk]
      simp only [hand]
      refine h.enough.imp_right fun henough => henough.trans ?_
      exact length_filter_le_of_keys_subset hread fun a ha =>
        (mem_keys_mergedBy hread hread').mpr (Or.inl (mem_map_of_mem ha))
    · push Not at hwithin
      obtain ⟨j, hj, hj'⟩ := hwithin
      have hand : ∀ k, (horizon k && horizon' k) = horizon' k := by
        intro k
        cases hk : horizon' k with
        | false => simp
        | true =>
          have hkj : k ≤ j := by
            by_contra hlt
            exact hj' (h'.lower j k (not_le.mp hlt).le hk)
          simp [h.lower k j hkj hj]
      simp only [hand]
      refine h'.enough.imp_right fun henough => henough.trans ?_
      exact length_filter_le_of_keys_subset hread' fun a ha =>
        (mem_keys_mergedBy hread hread').mpr (Or.inr (mem_map_of_mem ha))

section TakeMerged

variable {n : ℕ} {horizon : κ → Bool} {read all overlay : List α}
  (hread : read.Pairwise fun a b => key a < key b) (hall : all.Pairwise fun a b => key a < key b)
  (hoverlay : overlay.Pairwise fun a b => key a < key b)

include hread hall hoverlay

/-- A reading that is merged with the first entries of a series begins as the merged series do. -/
theorem ReadTo.take_mergedBy (h : ReadTo key n horizon read all) :
    (Library.mergedBy key read (overlay.take (n + 1))).take n =
      (Library.mergedBy key all overlay).take n := by
  have hfirst := hoverlay.sublist (take_sublist (n + 1) overlay)
  obtain ⟨horizon', htaken⟩ := ReadTo.take (n := n) overlay hoverlay
  exact (h.mergedBy htaken hread hall hfirst hoverlay).take_eq (pairwise_mergedBy hread hfirst)
    (pairwise_mergedBy hall hoverlay)

/-- Where only the keys have been read, the keys begin alike. -/
theorem ReadTo.map_take_mergedBy (h : ReadTo id n horizon (read.map key) (all.map key)) :
    ((Library.mergedBy key read (overlay.take (n + 1))).take n).map key =
      ((Library.mergedBy key all overlay).take n).map key := by
  have hfirst := hoverlay.sublist (take_sublist (n + 1) overlay)
  have hkeys : ∀ {l : List α}, (l.Pairwise fun a b => key a < key b) →
      (l.map key).Pairwise fun j k => id j < id k := pairwise_map.mpr
  have htake := h.take_mergedBy (hkeys hread) (hkeys hall) (hkeys hoverlay)
  rw [map_take, map_take, map_key_mergedBy hread hfirst, map_key_mergedBy hall hoverlay, map_take]
  exact htake

end TakeMerged

end Merging

end Goodmoneying.Library
