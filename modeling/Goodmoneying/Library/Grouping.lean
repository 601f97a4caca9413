import Mathlib.Data.List.Induction
import Mathlib.Data.List.Nodup
import Goodmoneying.Library.StableSort

/-!
# Dictionaries in insertion order

Dictionaries as the lists of their entries, in the order in which the keys were first used:
`setItem` sets the value of a key, and `grouped` collects the values of every key, in order.
The groups of a list hold each of its values under its own key (`items_of_mem_grouped`); listed
by ascending key, each group sorted, they are the sorted list, if the keys ascend with what
is sorted by (`flatMap_sorted_groups`).
-/

namespace Goodmoneying.Library

open List

variable {κ α : Type}

/-- The values of a key that has values. -/
structure Group (κ α : Type) where
  key : κ
  items : List α
  items_ne_nil : items ≠ []

variable {group : Group κ α}

section Dictionary

variable [DecidableEq κ]
variable {key : κ} {value : α} {entries pairs : List (κ × α)}
variable {groups : List (Group κ α)}

/-- `entries[key] = value`. -/
def setItem (key : κ) (value : α) : List (κ × α) → List (κ × α)
  | [] => [(key, value)]
  | entry :: entries =>
    if entry.1 = key then (key, value) :: entries else entry :: setItem key value entries

/-- The entries after assigning each of `pairs`. -/
def setItems (entries pairs : List (κ × α)) : List (κ × α) :=
  pairs.foldl (fun entries pair => setItem pair.1 pair.2 entries) entries

/-- `groups.setdefault(key, []).append(item)`. -/
def appendTo (key : κ) (item : α) : List (Group κ α) → List (Group κ α)
  | [] => [⟨key, [item], cons_ne_nil _ _⟩]
  | group :: groups =>
    if group.key = key then
      ⟨key, group.items ++ [item], append_ne_nil_of_right_ne_nil _ (cons_ne_nil _ _)⟩ ::
        groups
    else group :: appendTo key item groups

/-- The values of `pairs` under their keys. -/
def grouped (pairs : List (κ × α)) : List (Group κ α) :=
  pairs.foldl (fun groups pair => appendTo pair.1 pair.2 groups) []

theorem setItem_of_notMem (h : key ∉ entries.map Prod.fst) :
    setItem key value entries = entries ++ [(key, value)] := by
  induction entries with
  | nil => rfl
  | cons entry entries ih =>
    rw [map_cons, mem_cons, not_or] at h
    rw [setItem, if_neg (Ne.symm h.1), ih h.2]
    rfl

/-- A dictionary built of distinct keys lists them as given. -/
theorem setItems_of_nodup (entries : List (κ × α)) (h : ((entries ++ pairs).map Prod.fst).Nodup) :
    setItems entries pairs = entries ++ pairs := by
  induction pairs generalizing entries with
  | nil => simp [setItems]
  | cons pair pairs ih =>
    have hfresh : pair.1 ∉ entries.map Prod.fst := by
      rw [map_append, map_cons, nodup_middle, nodup_cons] at h
      exact fun hmem => h.1 (mem_append_left _ hmem)
    have hassoc : entries ++ pair :: pairs = entries ++ [(pair.1, pair.2)] ++ pairs := by simp
    rw [hassoc] at h ⊢
    rw [setItems, foldl_cons, setItem_of_notMem hfresh]
    exact ih _ h

theorem mem_setItem (hnodup : (entries.map Prod.fst).Nodup) {entry : κ × α} :
    entry ∈ setItem key value entries ↔ entry = (key, value) ∨ entry ∈ entries ∧ entry.1 ≠ key := by
  induction entries with
  | nil => simp [setItem]
  | cons first entries ih =>
    rw [map_cons, nodup_cons] at hnodup
    rw [setItem]
    split_ifs with h
    · have hrest : ∀ other ∈ entries, other.1 ≠ key := by
        intro other hother heq
        exact hnodup.1 (h ▸ heq ▸ mem_map_of_mem hother)
      constructor
      · intro hentry
        rcases mem_cons.mp hentry with heq | hmem
        · exact Or.inl heq
        · exact Or.inr ⟨mem_cons_of_mem _ hmem, hrest entry hmem⟩
      · rintro (rfl | ⟨hmem, hne⟩)
        · exact mem_cons_self
        · rcases mem_cons.mp hmem with rfl | hmem
          · exact absurd h hne
          · exact mem_cons_of_mem _ hmem
    · rw [mem_cons, ih hnodup.2, mem_cons]
      constructor
      · rintro (rfl | heq | ⟨hmem, hne⟩)
        · exact Or.inr ⟨Or.inl rfl, h⟩
        · exact Or.inl heq
        · exact Or.inr ⟨Or.inr hmem, hne⟩
      · rintro (heq | ⟨rfl | hmem, hne⟩)
        · exact Or.inr (Or.inl heq)
        · exact Or.inl rfl
        · exact Or.inr (Or.inr ⟨hmem, hne⟩)

theorem keys_setItem (key : κ) (value : α) (entries : List (κ × α)) :
    (setItem key value entries).map Prod.fst =
      if key ∈ entries.map Prod.fst then entries.map Prod.fst
      else entries.map Prod.fst ++ [key] := by
  induction entries with
  | nil => rfl
  | cons first entries ih =>
    rw [setItem]
    by_cases h : first.1 = key
    · simp [h]
    · rw [if_neg h, map_cons, ih]
      by_cases hmem : key ∈ entries.map Prod.fst
      · rw [if_pos hmem, map_cons, if_pos (mem_cons_of_mem _ hmem)]
      · rw [if_neg hmem, map_cons, if_neg (by simp [Ne.symm h, hmem])]
        rfl

theorem nodup_keys_setItem (hnodup : (entries.map Prod.fst).Nodup) :
    ((setItem key value entries).map Prod.fst).Nodup := by
  rw [keys_setItem]
  split_ifs with hmem
  · exact hnodup
  · exact hnodup.append (nodup_singleton _) (disjoint_singleton.mpr hmem)

theorem lookup_cons_eq (k : κ) (first : κ × α) (entries : List (κ × α)) :
    (first :: entries).lookup k = if k = first.1 then some first.2 else entries.lookup k := by
  rw [lookup_cons]
  split_ifs with h
  · rw [beq_iff_eq.mpr h]
  · rw [beq_eq_false_iff_ne.mpr h]

theorem lookup_setItem (key : κ) (value : α) (entries : List (κ × α)) (k : κ) :
    (setItem key value entries).lookup k = if k = key then some value else entries.lookup k := by
  induction entries with
  | nil => rw [setItem, lookup_cons_eq]
  | cons first entries ih =>
    rw [setItem]
    by_cases hfirst : first.1 = key
    · rw [if_pos hfirst, lookup_cons_eq, lookup_cons_eq, hfirst]
      by_cases h : k = key
      · rw [if_pos h, if_pos h]
      · rw [if_neg h, if_neg h, if_neg h]
    · rw [if_neg hfirst, lookup_cons_eq, lookup_cons_eq, ih]
      by_cases h : k = first.1
      · have hne : k ≠ key := h ▸ hfirst
        rw [if_pos h, if_neg hne, if_pos h]
      · rw [if_neg h, if_neg h]

theorem setItems_concat (entries pairs : List (κ × α)) (pair : κ × α) :
    setItems entries (pairs ++ [pair]) = setItem pair.1 pair.2 (setItems entries pairs) := by
  simp [setItems]

theorem nodup_keys_setItems (h : (entries.map Prod.fst).Nodup) (pairs : List (κ × α)) :
    ((setItems entries pairs).map Prod.fst).Nodup := by
  induction pairs generalizing entries with
  | nil => exact h
  | cons pair pairs ih => exact ih (nodup_keys_setItem h)

theorem mem_keys_setItems (entries pairs : List (κ × α)) (key : κ) :
    key ∈ (setItems entries pairs).map Prod.fst ↔
      key ∈ entries.map Prod.fst ∨ key ∈ pairs.map Prod.fst := by
  induction pairs generalizing entries with
  | nil => simp [setItems]
  | cons pair pairs ih =>
    have hkeys := ih (setItem pair.1 pair.2 entries)
    rw [keys_setItem] at hkeys
    rw [setItems, foldl_cons, ← setItems, hkeys, map_cons, mem_cons]
    split_ifs with hmem
    · grind
    · rw [mem_append, mem_singleton, or_assoc]

/-- What is found in a dictionary has been put there. -/
theorem mem_of_lookup_setItems (h : (setItems [] pairs).lookup key = some value) :
    (key, value) ∈ pairs := by
  induction pairs using List.reverseRecOn with
  | nil => simp [setItems] at h
  | append_singleton pairs pair ih =>
    rw [setItems_concat, lookup_setItem] at h
    split_ifs at h with hkey
    · simp [hkey, ← Option.some.inj h]
    · exact mem_append_left _ (ih h)

/-- Looking up where every value is changed. -/
theorem lookup_map_value (f : κ → α → α) (entries : List (κ × α)) (k : κ) :
    (entries.map fun entry => (entry.1, f entry.1 entry.2)).lookup k =
      (entries.lookup k).map (f k) := by
  induction entries with
  | nil => rfl
  | cons first entries ih =>
    rw [map_cons, lookup_cons_eq, lookup_cons_eq, ih]
    by_cases h : k = first.1
    · rw [if_pos h, if_pos h, h]
      rfl
    · rw [if_neg h, if_neg h]

/-- Under distinct keys a value is found exactly if its entry is there. -/
theorem lookup_eq_some_iff_mem (hnodup : (entries.map Prod.fst).Nodup) :
    entries.lookup key = some value ↔ (key, value) ∈ entries := by
  induction entries with
  | nil => simp
  | cons first entries ih =>
    obtain ⟨hfirst, hnodup⟩ := nodup_cons.mp hnodup
    rw [lookup_cons_eq, mem_cons]
    by_cases h : key = first.1
    · subst h
      have hnot : (first.1, value) ∉ entries := fun hmem =>
        hfirst (mem_map.mpr ⟨_, hmem, rfl⟩)
      rw [if_pos rfl, Option.some.injEq, Prod.ext_iff]
      constructor
      · intro heq
        exact Or.inl ⟨rfl, heq.symm⟩
      · rintro (heq | hmem)
        · exact heq.2.symm
        · exact absurd hmem hnot
    · rw [if_neg h, ih hnodup]
      constructor
      · exact Or.inr
      · rintro (heq | hmem)
        · exact absurd (congrArg Prod.fst heq) h
        · exact hmem

/-! ### The best value of each key -/

section Best

variable {ρ : Type} [LinearOrder ρ]
variable {values : List α}

/-- Keep the value, if its key has none yet or one of lower rank. -/
def keepBest (key : α → κ) (rank : α → ρ) (entries : List (κ × α)) (value : α) :
    List (κ × α) :=
  match entries.lookup (key value) with
  | none => setItem (key value) value entries
  | some current =>
    if rank current < rank value then setItem (key value) value entries else entries

/-- What the kept entries are: under each key a value with it, no other of higher rank. -/
structure Best (key : α → κ) (rank : α → ρ) (values : List α) (entries : List (κ × α)) :
    Prop where
  keys_nodup : (entries.map Prod.fst).Nodup
  sound : ∀ entry ∈ entries, entry.2 ∈ values ∧ key entry.2 = entry.1 ∧
    ∀ other ∈ values, key other = entry.1 → rank other ≤ rank entry.2
  complete : ∀ value ∈ values, key value ∈ entries.map Prod.fst

variable {key : α → κ} {rank : α → ρ}

/-- A value of the best rank takes its key. -/
theorem Best.setItem (h : Best key rank values entries) (value : α)
    (hbest : ∀ other ∈ values, key other = key value → rank other ≤ rank value) :
    Best key rank (values ++ [value]) (setItem (key value) value entries) where
  keys_nodup := nodup_keys_setItem h.keys_nodup
  sound := by
    intro entry hentry
    rcases (mem_setItem h.keys_nodup).mp hentry with rfl | ⟨hmem, hne⟩
    · refine ⟨by simp, rfl, fun other hother hkey => ?_⟩
      rcases mem_append.mp hother with hother | hother
      · exact hbest other hother hkey
      · rw [mem_singleton.mp hother]
    · obtain ⟨hvalue, hkey, hall⟩ := h.sound entry hmem
      refine ⟨mem_append_left _ hvalue, hkey, fun other hother hother_key => ?_⟩
      rcases mem_append.mp hother with hother | hother
      · exact hall other hother hother_key
      · rw [mem_singleton.mp hother] at hother_key
        exact absurd hother_key.symm hne
  complete := by
    intro other hother
    rw [keys_setItem]
    rcases mem_append.mp hother with hother | hother
    · have := h.complete other hother
      split_ifs
      · exact this
      · exact mem_append_left _ this
    · rw [mem_singleton.mp hother]
      split_ifs with hmem
      · exact hmem
      · simp

/-- One more value. -/
theorem Best.keepBest (h : Best key rank values entries) (value : α) :
    Best key rank (values ++ [value]) (keepBest key rank entries value) := by
  unfold Library.keepBest
  cases hlookup : entries.lookup (key value) with
  | none =>
    apply h.setItem
    intro other hother hkey
    obtain ⟨entry, hentry, hentry_key⟩ := mem_map.mp (h.complete other hother)
    have hne := List.lookup_eq_none_iff.mp hlookup entry hentry
    rw [hentry_key, hkey] at hne
    simp at hne
  | some current =>
    obtain ⟨before, after, hsplit, -⟩ := List.lookup_eq_some_iff.mp hlookup
    have hcurrent := h.sound (key value, current) (by rw [hsplit]; simp)
    dsimp only
    split_ifs with hlt
    · apply h.setItem
      intro other hother hkey
      exact (hcurrent.2.2 other hother hkey).trans hlt.le
    · refine ⟨h.keys_nodup, ?_, ?_⟩
      · intro entry hentry
        obtain ⟨hvalue, hkey, hall⟩ := h.sound entry hentry
        refine ⟨mem_append_left _ hvalue, hkey, fun other hother hother_key => ?_⟩
        rcases mem_append.mp hother with hother | hother
        · exact hall other hother hother_key
        · -- the new value is no better than the one already kept under its key
          rw [mem_singleton.mp hother] at hother_key ⊢
          exact (not_lt.mp hlt).trans
            (hall current hcurrent.1 (hcurrent.2.1.trans hother_key))
      · intro other hother
        rcases mem_append.mp hother with hother | hother
        · exact h.complete other hother
        · rw [mem_singleton.mp hother, hsplit]
          simp

/-- Going through the values keeps the best of each key. -/
theorem best_foldl_keepBest (key : α → κ) (rank : α → ρ) (values : List α) :
    Best key rank values (values.foldl (Library.keepBest key rank) []) := by
  induction values using List.reverseRecOn with
  | nil => exact ⟨nodup_nil, by simp, by simp⟩
  | append_singleton values value ih =>
    rw [foldl_append]
    exact ih.keepBest value

end Best

/-- What the groups of `pairs` are. -/
structure Groups (pairs : List (κ × α)) (groups : List (Group κ α)) : Prop where
  keys_nodup : (groups.map Group.key).Nodup
  items_eq : ∀ group ∈ groups,
    group.items = (pairs.filter fun pair => pair.1 = group.key).map Prod.snd
  mem_keys : ∀ pair ∈ pairs, pair.1 ∈ groups.map Group.key

theorem key_appendTo (key : κ) (item : α) (groups : List (Group κ α)) :
    (appendTo key item groups).map Group.key =
      if key ∈ groups.map Group.key then groups.map Group.key
      else groups.map Group.key ++ [key] := by
  induction groups with
  | nil => rfl
  | cons group groups ih =>
    rw [appendTo]
    by_cases h : group.key = key
    · simp [h]
    · rw [if_neg h, map_cons, ih]
      by_cases hmem : key ∈ groups.map Group.key
      · rw [if_pos hmem, map_cons, if_pos (mem_cons_of_mem _ hmem)]
      · rw [if_neg hmem, map_cons, if_neg (by simp [Ne.symm h, hmem])]
        rfl

theorem mem_appendTo {item : α} (hnodup : (groups.map Group.key).Nodup)
    (h : group ∈ appendTo key item groups) : group ∈ groups ∧ group.key ≠ key ∨
      group.key = key ∧ ((∃ old ∈ groups, old.key = key ∧ group.items = old.items ++ [item]) ∨
        key ∉ groups.map Group.key ∧ group.items = [item]) := by
  induction groups with
  | nil =>
    obtain rfl := mem_singleton.mp h
    exact Or.inr ⟨rfl, Or.inr ⟨by simp, rfl⟩⟩
  | cons first groups ih =>
    rw [map_cons, nodup_cons] at hnodup
    rw [appendTo] at h
    by_cases hfirst : first.key = key
    · rw [if_pos hfirst] at h
      rcases mem_cons.mp h with rfl | h
      · exact Or.inr ⟨rfl, Or.inl ⟨first, by simp, hfirst, rfl⟩⟩
      · refine Or.inl ⟨by simp [h], fun heq => hnodup.1 ?_⟩
        rw [hfirst, ← heq]
        exact mem_map_of_mem h
    · rw [if_neg hfirst] at h
      rcases mem_cons.mp h with rfl | h
      · exact Or.inl ⟨by simp, hfirst⟩
      · rcases ih hnodup.2 h with ⟨hmem, hne⟩ | ⟨hkey, ⟨old, hold, hitems⟩ | ⟨hfresh, hitems⟩⟩
        · exact Or.inl ⟨by simp [hmem], hne⟩
        · exact Or.inr ⟨hkey, Or.inl ⟨old, by simp [hold], hitems⟩⟩
        · exact Or.inr ⟨hkey, Or.inr ⟨by simp [Ne.symm hfirst, hfresh], hitems⟩⟩

/-- Appending one more value to its group. -/
theorem Groups.appendTo (h : Groups pairs groups) (pair : κ × α) :
    Groups (pairs ++ [pair]) (appendTo pair.1 pair.2 groups) where
  keys_nodup := by
    rw [key_appendTo]
    split_ifs with hmem
    · exact h.keys_nodup
    · exact nodup_append.mpr ⟨h.keys_nodup, nodup_singleton _, fun a ha b hb => by
        rintro rfl
        exact hmem (mem_singleton.mp hb ▸ ha)⟩
  items_eq := by
    intro group hgroup
    rw [filter_append, map_append]
    rcases mem_appendTo h.keys_nodup hgroup with
      ⟨hmem, hne⟩ | ⟨hkey, ⟨old, hold, hold_key, hitems⟩ | ⟨hfresh, hitems⟩⟩
    · rw [h.items_eq group hmem]
      simp [Ne.symm hne]
    · rw [hitems, h.items_eq old hold, hold_key, hkey]
      simp
    · have hnone : pairs.filter (fun other => decide (other.1 = group.key)) = [] := by
        rw [filter_eq_nil_iff]
        intro other hother heq
        rw [hkey] at heq
        exact hfresh (of_decide_eq_true heq ▸ h.mem_keys other hother)
      rw [hitems, hnone]
      simp [hkey]
  mem_keys := by
    intro other hother
    rw [key_appendTo]
    rcases mem_append.mp hother with hother | hother
    · have := h.mem_keys other hother
      split_ifs
      · exact this
      · exact mem_append_left _ this
    · rw [mem_singleton.mp hother]
      split_ifs with hmem
      · exact hmem
      · simp

theorem groups_grouped (pairs : List (κ × α)) : Groups pairs (grouped pairs) := by
  induction pairs using List.reverseRecOn with
  | nil => exact ⟨nodup_nil, by simp [grouped], by simp⟩
  | append_singleton pairs pair ih =>
    rw [grouped, foldl_append]
    exact ih.appendTo pair

/-- The keys of the groups are the keys of the pairs. -/
theorem mem_map_key_grouped : key ∈ (grouped pairs).map Group.key ↔ key ∈ pairs.map Prod.fst := by
  constructor
  · intro h
    obtain ⟨group, hgroup, rfl⟩ := mem_map.mp h
    have hitems := (groups_grouped pairs).items_eq group hgroup
    obtain ⟨item, hitem⟩ := exists_mem_of_ne_nil _ group.items_ne_nil
    rw [hitems] at hitem
    obtain ⟨pair, hpair, -⟩ := mem_map.mp hitem
    obtain ⟨hmem, hkey⟩ := mem_filter.mp hpair
    exact mem_map.mpr ⟨pair, hmem, of_decide_eq_true hkey⟩
  · intro h
    obtain ⟨pair, hpair, rfl⟩ := mem_map.mp h
    exact (groups_grouped pairs).mem_keys pair hpair

/-- Values of one key are one group. -/
theorem grouped_of_key (hne : pairs ≠ []) (h : ∀ pair ∈ pairs, pair.1 = key) :
    ∃ hitems, grouped pairs = [⟨key, pairs.map Prod.snd, hitems⟩] := by
  have hgroups := groups_grouped pairs
  have hkey : ∀ group ∈ grouped pairs, group.key = key := by
    intro group hgroup
    obtain ⟨pair, hpair, heq⟩ :=
      mem_map.mp (mem_map_key_grouped.mp (mem_map_of_mem (f := Group.key) hgroup))
    rw [← heq, h pair hpair]
  refine ⟨by simpa using hne, ?_⟩
  cases hcases : grouped pairs with
  | nil =>
    obtain ⟨pair, hpair⟩ := exists_mem_of_ne_nil _ hne
    have hmem := hgroups.mem_keys pair hpair
    rw [hcases] at hmem
    exact absurd hmem not_mem_nil
  | cons group groups =>
    rw [hcases] at hkey hgroups
    rw [forall_mem_cons] at hkey
    have hitems := hgroups.items_eq group mem_cons_self
    rw [filter_eq_self.mpr fun pair hpair => by simp [h pair hpair, hkey.1]] at hitems
    cases groups with
    | nil =>
      obtain ⟨k, items, hnonempty⟩ := group
      obtain rfl := hkey.1
      obtain rfl := hitems
      rfl
    | cons other groups =>
      have hnodup := hgroups.keys_nodup
      rw [map_cons, map_cons, hkey.1, hkey.2 other mem_cons_self] at hnodup
      simp at hnodup

end Dictionary

section Order

variable {τ : Type} [LinearOrder κ] [LinearOrder τ] {key : α → κ} {start : α → τ}
variable {items : List α}

/-- The group of a key lists the values with that key. -/
theorem items_of_mem_grouped (hgroup : group ∈ grouped (items.map fun a => (key a, a))) :
    group.items = items.filter fun a => key a = group.key := by
  rw [(groups_grouped _).items_eq group hgroup, filter_map, map_map]
  exact map_id _

/-- The sorted groups of ascending keys, one after the other, are the sorted list. -/
theorem flatMap_sorted_groups (key : α → κ) (start : α → τ) (hdistinct : (items.map start).Nodup)
    (hkey : ∀ a b, key a < key b → start a < start b) (p : κ → Bool) :
    ((sortedBy Group.key (grouped (items.map fun a => (key a, a)))).filter fun group =>
      p group.key).flatMap (fun group => sortedBy start group.items) =
      sortedBy start (items.filter fun a => p (key a)) := by
  have hnodup := (groups_grouped (items.map fun a => (key a, a))).keys_nodup
  have hitems : ∀ group ∈ grouped (items.map fun a => (key a, a)),
      (group.items.map start).Nodup := by
    intro group hgroup
    rw [items_of_mem_grouped hgroup]
    exact hdistinct.sublist (filter_sublist.map start)
  apply eq_of_pairwise_lt start
  · apply pairwise_flatMap.mpr
    constructor
    · intro group hgroup
      exact sortedBy_lt_of_nodup (hitems group (by simpa using (mem_filter.mp hgroup).1))
    · apply ((sortedBy_lt_of_nodup hnodup).filter _).imp_of_mem
      intro first second hfirst hsecond hlt a ha b hb
      have hfirst := mem_sortedBy.mp (mem_filter.mp hfirst).1
      have hsecond := mem_sortedBy.mp (mem_filter.mp hsecond).1
      rw [items_of_mem_grouped hfirst, mem_sortedBy, mem_filter, decide_eq_true_iff] at ha
      rw [items_of_mem_grouped hsecond, mem_sortedBy, mem_filter, decide_eq_true_iff] at hb
      apply hkey
      rw [ha.2, hb.2]
      exact hlt
  · exact sortedBy_lt_of_nodup (hdistinct.sublist (filter_sublist.map start))
  · intro a
    simp only [mem_flatMap, mem_filter, mem_sortedBy]
    constructor
    · rintro ⟨group, ⟨hgroup, hp⟩, ha⟩
      rw [items_of_mem_grouped hgroup, mem_filter, decide_eq_true_iff] at ha
      exact ⟨ha.1, ha.2 ▸ hp⟩
    · rintro ⟨ha, hp⟩
      have hmem : key a ∈ (grouped (items.map fun a => (key a, a))).map Group.key :=
        mem_map_key_grouped.mpr (mem_map.mpr ⟨(key a, a), mem_map_of_mem ha, rfl⟩)
      obtain ⟨group, hgroup, hgroup_key⟩ := mem_map.mp hmem
      refine ⟨group, ⟨hgroup, hgroup_key ▸ hp⟩, ?_⟩
      rw [items_of_mem_grouped hgroup, mem_filter, decide_eq_true_iff]
      exact ⟨ha, hgroup_key.symm⟩

end Order

end Goodmoneying.Library
