import Mathlib.Data.Int.Notation
import Mathlib.Data.List.Induction
import Mathlib.Data.List.Nodup
import Mathlib.Order.Lattice

/-!
# Tables whose rows name their source

A table of the newest contents, each row with the id of the record that it was taken from, if it was
taken from one. Contents and sources are written apart (`upsert`, `link`). `Sourced` says that a row
with a source has the content of that record; it is kept where a row with a source gets no other
content (`Sourced.upsertAll`), and where contents are written with their sources (`Sourced.record`).
`latestOf` picks one entry of each key from a list, the last of the newest (`Latest`).
-/

namespace Goodmoneying.Library

open List

/-- A content, and the id of its record. -/
structure SourcedRow (α : Type) where
  content : α
  source : Option ℤ
  deriving DecidableEq, Repr

abbrev SourcedTable (κ α : Type) : Type := κ → Option (SourcedRow α)

/-- A record: what it says of a key. -/
structure SourceRecord (κ α : Type) where
  key : κ
  content : α
  source : ℤ

def SourceRecord.item {κ α : Type} (record : SourceRecord κ α) : κ × α :=
  (record.key, record.content)

namespace SourcedTable

variable {κ α : Type} [DecidableEq κ]

/-- The row after a content has come. -/
def replaced (replaces : α → α → Bool) (content : α) (row : Option (SourcedRow α)) :
    SourcedRow α :=
  match row with
  | none => ⟨content, none⟩
  | some row => if replaces content row.content then ⟨content, row.source⟩ else row

/-- The table after a content has come. -/
def upsert (replaces : α → α → Bool) (table : SourcedTable κ α) (item : κ × α) :
    SourcedTable κ α :=
  fun key => if key = item.1 then some (replaced replaces item.2 (table key)) else table key

def upsertAll (replaces : α → α → Bool) (table : SourcedTable κ α) (items : List (κ × α)) :
    SourcedTable κ α :=
  items.foldl (upsert replaces) table

/-- The table with the source of a row set. -/
def link (table : SourcedTable κ α) (record : SourceRecord κ α) : SourcedTable κ α :=
  fun key =>
    if key = record.key then (table key).map fun row => ⟨row.content, some record.source⟩
    else table key

/-- The contents of records, and then their sources. -/
def record (replaces : α → α → Bool) (table : SourcedTable κ α)
    (records : List (SourceRecord κ α)) : SourcedTable κ α :=
  records.foldl link (upsertAll replaces table (records.map SourceRecord.item))

/-- Every row with a source has the content of that record. -/
def Sourced (holds : SourceRecord κ α → Prop) (table : SourcedTable κ α) : Prop :=
  ∀ key row source, table key = some row → row.source = some source →
    holds ⟨key, row.content, source⟩

/-- A content of a row with a source is not replaced by another. -/
def KeepsSources (replaces : α → α → Bool) (table : SourcedTable κ α) (item : κ × α) : Prop :=
  ∀ row, table item.1 = some row → row.source.isSome → replaces item.2 row.content = true →
    row.content = item.2

/-- A content replaces what is there, or is there already. -/
def Writes (replaces : α → α → Bool) (table : SourcedTable κ α) (item : κ × α) : Prop :=
  ∀ row, table item.1 = some row →
    replaces item.2 row.content = true ∨ row.content = item.2

variable {replaces : α → α → Bool} {table : SourcedTable κ α}
  {holds holds' : SourceRecord κ α → Prop}

omit [DecidableEq κ] in
/-- A weaker property of the records. -/
theorem Sourced.mono (h : Sourced holds table) (himp : ∀ record, holds record → holds' record) :
    Sourced holds' table :=
  fun key row source hrow hsource => himp _ (h key row source hrow hsource)

variable {key : κ}

/-- A row with a source is as it was, where its content is not replaced by another. -/
theorem upsert_of_source {item : κ × α} (hkeeps : KeepsSources replaces table item)
    {row : SourcedRow α} (hrow : upsert replaces table item key = some row)
    (hsource : row.source.isSome) : table key = some row := by
  unfold upsert at hrow
  split_ifs at hrow with hkey
  · subst hkey
    obtain rfl := Option.some.inj hrow
    cases hold : table item.1 with
    | none =>
      rw [hold] at hsource
      cases hsource
    | some old =>
      rw [hold] at hsource
      unfold replaced at hsource ⊢
      dsimp only at hsource ⊢
      split_ifs at hsource ⊢ with hreplaces
      · rw [← hkeeps old hold hsource hreplaces]
      · rfl
  · exact hrow

variable {items : List (κ × α)}

theorem upsertAll_of_source (hkeeps : ∀ item ∈ items, KeepsSources replaces table item)
    {row : SourcedRow α} (hrow : upsertAll replaces table items key = some row)
    (hsource : row.source.isSome) : table key = some row := by
  induction items generalizing table with
  | nil => exact hrow
  | cons item items ih =>
    have hitem := hkeeps item mem_cons_self
    refine upsert_of_source hitem (ih (fun other hother old hold hisSome => ?_) hrow) hsource
    exact hkeeps other (mem_cons_of_mem _ hother) old
      (upsert_of_source hitem hold hisSome) hisSome

/-- Contents without sources keep a table sourced. -/
theorem Sourced.upsertAll (h : Sourced holds table)
    (hkeeps : ∀ item ∈ items, KeepsSources replaces table item) :
    Sourced holds (upsertAll replaces table items) := by
  intro key row source hrow hsource
  exact h key row source (upsertAll_of_source hkeeps hrow (by rw [hsource]; rfl)) hsource

theorem upsertAll_of_not_mem (h : key ∉ items.map Prod.fst) :
    upsertAll replaces table items key = table key := by
  induction items generalizing table with
  | nil => rfl
  | cons item items ih =>
    rw [map_cons, mem_cons, not_or] at h
    exact (ih h.2).trans (if_neg h.1)

/-- Where the keys are distinct, each content meets the row that was there. -/
theorem upsertAll_of_mem (hnodup : (items.map Prod.fst).Nodup) {item : κ × α}
    (hitem : item ∈ items) :
    upsertAll replaces table items item.1 = some (replaced replaces item.2 (table item.1)) := by
  induction items generalizing table with
  | nil => cases hitem
  | cons first items ih =>
    rw [map_cons, nodup_cons] at hnodup
    rcases mem_cons.mp hitem with rfl | hrest
    · exact (upsertAll_of_not_mem hnodup.1).trans (if_pos rfl)
    · have hne : item.1 ≠ first.1 := by
        intro heq
        exact hnodup.1 (heq ▸ mem_map_of_mem hrest)
      have hstep : upsert replaces table first item.1 = table item.1 := if_neg hne
      rw [← hstep]
      exact ih hnodup.2 hrest

variable {records : List (SourceRecord κ α)}

theorem foldl_link_of_not_mem (h : key ∉ records.map SourceRecord.key) :
    records.foldl link table key = table key := by
  induction records generalizing table with
  | nil => rfl
  | cons record records ih =>
    rw [map_cons, mem_cons, not_or] at h
    exact (ih h.2).trans (if_neg h.1)

theorem foldl_link_of_mem (hnodup : (records.map SourceRecord.key).Nodup)
    {record : SourceRecord κ α} (hrecord : record ∈ records) : records.foldl link table record.key =
      (table record.key).map fun row => ⟨row.content, some record.source⟩ := by
  induction records generalizing table with
  | nil => cases hrecord
  | cons first records ih =>
    rw [map_cons, nodup_cons] at hnodup
    rcases mem_cons.mp hrecord with rfl | hrest
    · exact (foldl_link_of_not_mem hnodup.1).trans (if_pos rfl)
    · have hne : record.key ≠ first.key := by
        intro heq
        exact hnodup.1 (heq ▸ mem_map_of_mem hrest)
      have hstep : link table first record.key = table record.key := if_neg hne
      rw [← hstep]
      exact ih hnodup.2 hrest

/-- Records of distinct keys that are written keep a table sourced. -/
theorem Sourced.record (h : Sourced holds table) (hnodup : (records.map SourceRecord.key).Nodup)
    (hholds : ∀ record ∈ records, holds record)
    (hwrites : ∀ record ∈ records, Writes replaces table record.item) :
    Sourced holds (record replaces table records) := by
  have hkeys : (records.map SourceRecord.item).map Prod.fst = records.map SourceRecord.key := by
    rw [map_map]
    rfl
  intro key row source hrow hsource
  unfold SourcedTable.record at hrow
  by_cases hkey : key ∈ records.map SourceRecord.key
  · obtain ⟨record, hrecord, rfl⟩ := mem_map.mp hkey
    have hmem : record.item ∈ records.map SourceRecord.item := mem_map_of_mem hrecord
    have hwritten : table.upsertAll replaces (records.map SourceRecord.item) record.item.1 =
        some (replaced replaces record.item.2 (table record.item.1)) :=
      upsertAll_of_mem (hkeys ▸ hnodup) hmem
    rw [foldl_link_of_mem hnodup hrecord, show record.key = record.item.1 from rfl, hwritten]
      at hrow
    obtain rfl := Option.some.inj hrow
    obtain rfl := Option.some.inj hsource
    have hcontent : (replaced replaces record.item.2 (table record.item.1)).content =
        record.content := by
      cases hold : table record.item.1 with
      | none => rfl
      | some old =>
        unfold replaced
        dsimp only
        split_ifs with hreplaces
        · rfl
        · exact (hwrites record hrecord old hold).resolve_left hreplaces
    have hrecordHolds := hholds record hrecord
    dsimp only
    rwa [hcontent]
  · rw [foldl_link_of_not_mem hkey, upsertAll_of_not_mem (hkeys ▸ hkey)] at hrow
    exact h key row source hrow hsource

end SourcedTable

/-! ## The latest records -/

section Latest

variable {β κ τ : Type} [LinearOrder τ]

/-- The last of the newest entries of its key. -/
def Latest (key : β → κ) (time : β → τ) (entries : List β) (entry : β) : Prop :=
  ∃ before after, entries = before ++ entry :: after ∧
    (∀ other ∈ before, key other = key entry → time other ≤ time entry) ∧
    ∀ other ∈ after, key other = key entry → time other < time entry

variable {key : β → κ} {time : β → τ} {entries : List β} {entry : β}

theorem Latest.mem (h : Latest key time entries entry) : entry ∈ entries := by
  obtain ⟨before, after, rfl, -, -⟩ := h
  exact mem_append_right _ mem_cons_self

/-- No entry of the key is later. -/
theorem Latest.le (h : Latest key time entries entry) {other : β} (hother : other ∈ entries)
    (hkey : key other = key entry) : time other ≤ time entry := by
  obtain ⟨before, after, rfl, hbefore, hafter⟩ := h
  rcases mem_append.mp hother with hin | hin
  · exact hbefore other hin hkey
  · rcases mem_cons.mp hin with rfl | hin
    · exact le_refl _
    · exact (hafter other hin hkey).le

/-- Entries are the latest by what is read of them. -/
theorem Latest.map {γ : Type} {key' : γ → κ} {time' : γ → τ} {f : β → γ}
    (h : Latest (fun entry => key' (f entry)) (fun entry => time' (f entry)) entries entry) :
    Latest key' time' (entries.map f) (f entry) := by
  obtain ⟨before, after, rfl, hbefore, hafter⟩ := h
  refine ⟨before.map f, after.map f, by rw [map_append, map_cons], ?_, ?_⟩
  · intro other hother
    obtain ⟨old, hold, rfl⟩ := mem_map.mp hother
    exact hbefore old hold
  · intro other hother
    obtain ⟨old, hold, rfl⟩ := mem_map.mp hother
    exact hafter old hold

variable [DecidableEq κ] (key time)

/-- A dictionary of the entries so far, in the order of their keys' first entries: an entry that is
not older takes the place of the one of its key. -/
def placeLatest (entries : List β) (entry : β) : List β :=
  if key entry ∈ entries.map key then
    entries.map fun current =>
      if key current = key entry ∧ time current ≤ time entry then entry else current
  else entries ++ [entry]

def latestOf (entries : List β) : List β := entries.foldl (placeLatest key time) []

/-- What the dictionary is after some entries: one of each key, its latest. -/
structure LatestEntries (entries latest : List β) : Prop where
  nodup : (latest.map key).Nodup
  keys : ∀ entry ∈ entries, key entry ∈ latest.map key
  latest : ∀ entry ∈ latest, Latest key time entries entry

variable {key time}

theorem map_key_place (latest : List β) (entry : β) :
    (latest.map fun current =>
      if key current = key entry ∧ time current ≤ time entry then entry else current).map key =
      latest.map key := by
  rw [map_map]
  refine map_congr_left fun current _ => ?_
  dsimp only [Function.comp_apply]
  split_ifs with h
  · exact h.1.symm
  · rfl

/-- An entry takes its key if it is not older. -/
theorem LatestEntries.place {latest : List β} (h : LatestEntries key time entries latest)
    (entry : β) :
    LatestEntries key time (entries ++ [entry]) (placeLatest key time latest entry) := by
  -- an entry of another key, or one that is newer, stays the latest
  have hkept : ∀ current ∈ latest, (key entry = key current → time entry < time current) →
      Latest key time (entries ++ [entry]) current := by
    intro current hcurrent hnewer
    obtain ⟨before, after, rfl, hbefore, hafter⟩ := h.latest current hcurrent
    refine ⟨before, after ++ [entry], by simp, hbefore, fun other hother hkey => ?_⟩
    rcases mem_append.mp hother with hin | hin
    · exact hafter other hin hkey
    · obtain rfl := mem_singleton.mp hin
      exact hnewer hkey
  unfold placeLatest
  split_ifs with hkey
  · refine ⟨?_, fun other hother => ?_, fun placed hplaced => ?_⟩
    · rw [map_key_place]
      exact h.nodup
    · rw [map_key_place]
      rcases mem_append.mp hother with hin | hin
      · exact h.keys other hin
      · obtain rfl := mem_singleton.mp hin
        exact hkey
    · obtain ⟨current, hcurrent, rfl⟩ := mem_map.mp hplaced
      split_ifs with hnew
      · refine ⟨entries, [], rfl, fun other hother hsame => ?_, by simp⟩
        exact ((h.latest current hcurrent).le hother (hsame.trans hnew.1.symm)).trans hnew.2
      · refine hkept current hcurrent fun hsame => ?_
        by_contra hnot
        exact hnew ⟨hsame.symm, not_lt.mp hnot⟩
  · refine ⟨?_, fun other hother => ?_, fun placed hplaced => ?_⟩
    · rw [map_append, map_singleton]
      exact h.nodup.append (nodup_singleton _) (by simpa using hkey)
    · rw [map_append]
      rcases mem_append.mp hother with hin | hin
      · exact mem_append_left _ (h.keys other hin)
      · obtain rfl := mem_singleton.mp hin
        exact mem_append_right _ mem_cons_self
    · rcases mem_append.mp hplaced with hin | hin
      · refine hkept placed hin fun hsame => ?_
        exact absurd (hsame ▸ mem_map_of_mem hin) hkey
      · obtain rfl := mem_singleton.mp hin
        refine ⟨entries, [], rfl, fun other hother hsame => ?_, by simp⟩
        exact absurd (hsame ▸ h.keys other hother) hkey

theorem latestOf_entries (entries : List β) :
    LatestEntries key time entries (latestOf key time entries) := by
  induction entries using List.reverseRecOn with
  | nil => exact ⟨nodup_nil, by simp, by simp [latestOf]⟩
  | append_singleton entries entry ih =>
    unfold latestOf at ih ⊢
    rw [foldl_append]
    exact ih.place entry

end Latest

end Goodmoneying.Library
