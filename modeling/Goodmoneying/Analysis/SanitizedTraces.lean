import Goodmoneying.Program.GatewayTrace

/-!
# Sanitized traces hold no secret

Where no sensitive value has a character of the mask, no replacement brings a sensitive value back
that another one removed. A sanitized value has `Sanitized` (`sanitized_sanitize`), and a value that
has it stays as it is (`Sanitized.sanitize_eq_self`): sanitizing is idempotent (`sanitize_safe`).
-/

namespace Goodmoneying.Analysis.GatewayTrace

open List Library
open Program.GatewayTrace

variable {text : String}

section

variable {κ σ : Type}

/-- The text is a value anywhere in a traced value. -/
inductive TextIn (text : String) : TraceValue κ σ → Prop
  | here : TextIn text (.text text)
  | mapping (entries : List (κ × TraceValue κ σ)) (entry : κ × TraceValue κ σ)
      (hentry : entry ∈ entries) (h : TextIn text entry.2) : TextIn text (.mapping entries)
  | list (items : List (TraceValue κ σ)) (item : TraceValue κ σ) (hitem : item ∈ items)
      (h : TextIn text item) : TextIn text (.list items)
  | tuple (items : List (TraceValue κ σ)) (item : TraceValue κ σ) (hitem : item ∈ items)
      (h : TextIn text item) : TextIn text (.tuple items)

/-- The entry is one of a mapping anywhere in a traced value. -/
inductive EntryIn (entry : κ × TraceValue κ σ) : TraceValue κ σ → Prop
  | here (entries : List (κ × TraceValue κ σ)) (hentry : entry ∈ entries) :
      EntryIn entry (.mapping entries)
  | mapping (entries : List (κ × TraceValue κ σ)) (other : κ × TraceValue κ σ)
      (hother : other ∈ entries) (h : EntryIn entry other.2) : EntryIn entry (.mapping entries)
  | list (items : List (TraceValue κ σ)) (item : TraceValue κ σ) (hitem : item ∈ items)
      (h : EntryIn entry item) : EntryIn entry (.list items)
  | tuple (items : List (TraceValue κ σ)) (item : TraceValue κ σ) (hitem : item ∈ items)
      (h : EntryIn entry item) : EntryIn entry (.tuple items)

/-- A property of the parts of a value is one of the value. -/
theorem traceValue_induction {P : TraceValue κ σ → Prop}
    (mapping : ∀ entries : List (κ × TraceValue κ σ), (∀ entry ∈ entries, P entry.2) →
      P (.mapping entries)) (list : ∀ items, (∀ item ∈ items, P item) → P (.list items))
    (tuple : ∀ items, (∀ item ∈ items, P item) → P (.tuple items))
    (text : ∀ value, P (.text value)) (scalar : ∀ value, P (.scalar value))
    (value : TraceValue κ σ) : P value :=
  @TraceValue.rec κ σ P (fun entries => ∀ entry ∈ entries, P entry.2)
    (fun items => ∀ item ∈ items, P item) (fun entry => P entry.2)
    mapping list tuple text scalar (fun _ h => absurd h not_mem_nil)
    (fun _ _ hentry hentries => forall_mem_cons.mpr ⟨hentry, hentries⟩)
    (fun _ h => absurd h not_mem_nil)
    (fun _ _ hitem hitems => forall_mem_cons.mpr ⟨hitem, hitems⟩) (fun _ _ h => h) value

end

section

variable {sensitiveValues : List String}

theorem mem_sensitiveParts {part : List Char} : part ∈ sensitiveParts sensitiveValues ↔
      ∃ value ∈ sensitiveValues, value ≠ "" ∧ value.toList = part := by
  simp [sensitiveParts, and_assoc]

/-- The value is contained in no text that holds none of the sensitive values. -/
def FreeOf (sensitiveValues : List String) (text : String) : Prop :=
  ∀ value ∈ sensitiveValues, value ≠ "" → ¬ value.toList <:+: text.toList

theorem freeOf_iff : FreeOf sensitiveValues text ↔
      ∀ part ∈ sensitiveParts sensitiveValues, ¬ part <:+: text.toList := by
  constructor
  · intro h part hpart
    obtain ⟨value, hvalue, hne, rfl⟩ := mem_sensitiveParts.mp hpart
    exact h value hvalue hne
  · intro h value hvalue hne
    exact h value.toList (mem_sensitiveParts.mpr ⟨value, hvalue, hne, rfl⟩)

theorem eq_of_mem_mask : ∀ c ∈ mask.toList, c = '*' := by
  simp [mask]

/-- The mask contains no sensitive text. -/
theorem freeOf_mask (hvalues : ∀ value ∈ sensitiveValues, '*' ∉ value.toList) :
    FreeOf sensitiveValues mask := by
  intro value hvalue hne hcontained
  obtain ⟨c, hc⟩ := exists_mem_of_ne_nil value.toList (by simpa using hne)
  exact hvalues value hvalue (eq_of_mem_mask c (hcontained.mem hc) ▸ hc)

theorem freeOf_sanitizeText (hvalues : ∀ value ∈ sensitiveValues, '*' ∉ value.toList)
    (text : String) : FreeOf sensitiveValues (sanitizeText sensitiveValues text) := by
  rw [freeOf_iff, sanitizeText, String.toList_ofList]
  refine not_infix_replaceEach (by decide) (fun part hpart => ?_) (fun part hpart c hc hcmask => ?_)
    text.toList
  · obtain ⟨value, -, hne, rfl⟩ := mem_sensitiveParts.mp hpart
    simpa using hne
  · obtain ⟨value, hvalue, -, rfl⟩ := mem_sensitiveParts.mp hpart
    exact hvalues value hvalue (eq_of_mem_mask c hcmask ▸ hc)

theorem FreeOf.sanitizeText_eq_self (h : FreeOf sensitiveValues text) :
    sanitizeText sensitiveValues text = text := by
  rw [sanitizeText, replaceEach_eq_self (freeOf_iff.mp h), String.ofList_toList]

end

section

variable {κ σ : Type} {str : κ → String} {sensitiveValues : List String}

theorem sanitizeItems_eq_map (items : List (TraceValue κ σ)) :
    sanitizeItems str sensitiveValues items = items.map (sanitize str sensitiveValues) := by
  induction items with
  | nil => rw [sanitizeItems, map_nil]
  | cons item items ih => rw [sanitizeItems, map_cons, ih]

theorem sanitizeEntries_eq_map (entries : List (κ × TraceValue κ σ)) :
    sanitizeEntries str sensitiveValues entries = entries.map fun entry =>
      (entry.1, if isSensitiveKey str entry.1 then .text mask
        else sanitize str sensitiveValues entry.2) := by
  induction entries with
  | nil => rw [sanitizeEntries, map_nil]
  | cons entry entries ih => rw [sanitizeEntries, map_cons, ih]

/-- No text of the value contains a sensitive one, and under a sensitive key is the mask. -/
inductive Sanitized (str : κ → String) (sensitiveValues : List String) : TraceValue κ σ → Prop
  | mapping (entries : List (κ × TraceValue κ σ))
      (hkeys : ∀ entry ∈ entries, isSensitiveKey str entry.1 → entry.2 = .text mask)
      (h : ∀ entry ∈ entries, Sanitized str sensitiveValues entry.2) :
      Sanitized str sensitiveValues (.mapping entries)
  | list (items : List (TraceValue κ σ)) (h : ∀ item ∈ items, Sanitized str sensitiveValues item) :
      Sanitized str sensitiveValues (.list items)
  | tuple (items : List (TraceValue κ σ)) (h : ∀ item ∈ items, Sanitized str sensitiveValues item) :
      Sanitized str sensitiveValues (.tuple items)
  | text (value : String) (h : FreeOf sensitiveValues value) :
      Sanitized str sensitiveValues (.text value)
  | scalar (value : σ) : Sanitized str sensitiveValues (.scalar value)

namespace Sanitized

variable {value : TraceValue κ σ}

theorem freeOf (h : Sanitized str sensitiveValues value) (htext : TextIn text value) :
    FreeOf sensitiveValues text := by
  induction htext with
  | here => cases h with | text _ h => exact h
  | mapping entries entry hentry _ ih => cases h with | mapping _ _ h => exact ih (h entry hentry)
  | list items item hitem _ ih => cases h with | list _ h => exact ih (h item hitem)
  | tuple items item hitem _ ih => cases h with | tuple _ h => exact ih (h item hitem)

theorem masked (h : Sanitized str sensitiveValues value) {entry : κ × TraceValue κ σ}
    (hentry : EntryIn entry value) (hkey : isSensitiveKey str entry.1) : entry.2 = .text mask := by
  induction hentry with
  | here entries hmem => cases h with | mapping _ hkeys _ => exact hkeys entry hmem hkey
  | mapping entries other hother _ ih => cases h with | mapping _ _ h => exact ih (h other hother)
  | list items item hitem _ ih => cases h with | list _ h => exact ih (h item hitem)
  | tuple items item hitem _ ih => cases h with | tuple _ h => exact ih (h item hitem)

theorem sanitize_eq_self (h : Sanitized str sensitiveValues value) :
    sanitize str sensitiveValues value = value := by
  induction h with
  | mapping entries hkeys _ ih =>
    have hentry : ∀ entry ∈ entries, (entry.1, if isSensitiveKey str entry.1 then .text mask
        else sanitize str sensitiveValues entry.2) = entry := by
      intro entry hentry
      split_ifs with hkey
      · rw [← hkeys entry hentry hkey]
      · rw [ih entry hentry]
    rw [sanitize, sanitizeEntries_eq_map, map_congr_left hentry, map_id']
  | list items _ ih => rw [sanitize, sanitizeItems_eq_map, map_congr_left ih, map_id']
  | tuple items _ ih => rw [sanitize, sanitizeItems_eq_map, map_congr_left ih, map_id']
  | text value h => rw [sanitize, h.sanitizeText_eq_self]
  | scalar value => rw [sanitize]

end Sanitized

/-- A value is sanitized at every depth. -/
theorem sanitized_sanitize (hvalues : ∀ value ∈ sensitiveValues, '*' ∉ value.toList)
    (value : TraceValue κ σ) :
    Sanitized str sensitiveValues (sanitize str sensitiveValues value) := by
  induction value using traceValue_induction with
  | mapping entries ih =>
    rw [sanitize, sanitizeEntries_eq_map]
    refine .mapping _ (forall_mem_map.mpr fun entry _ hkey => if_pos hkey)
      (forall_mem_map.mpr fun entry hentry => ?_)
    dsimp only
    split_ifs
    · exact .text _ (freeOf_mask hvalues)
    · exact ih entry hentry
  | list items ih =>
    rw [sanitize, sanitizeItems_eq_map]
    exact .list _ (forall_mem_map.mpr ih)
  | tuple items ih =>
    rw [sanitize, sanitizeItems_eq_map]
    exact .tuple _ (forall_mem_map.mpr ih)
  | text value =>
    rw [sanitize]
    exact .text _ (freeOf_sanitizeText hvalues value)
  | scalar value =>
    rw [sanitize]
    exact .scalar value

end

/-- A trace holds no secret: no text within it contains a sensitive one, what is under a sensitive
key is the mask, and sanitizing it once more changes nothing.
SOURCE: trace.py:6-36 -/
theorem sanitize_safe {κ σ : Type} (str : κ → String) (sensitiveValues : List String)
    (hvalues : ∀ value ∈ sensitiveValues, '*' ∉ value.toList) (value : TraceValue κ σ) :
    (∀ text, TextIn text (sanitize str sensitiveValues value) →
      ∀ secret ∈ sensitiveValues, secret ≠ "" → ¬ secret.toList <:+: text.toList) ∧
    (∀ entry, EntryIn entry (sanitize str sensitiveValues value) →
      isSensitiveKey str entry.1 → entry.2 = .text mask) ∧
    sanitize str sensitiveValues (sanitize str sensitiveValues value) =
      sanitize str sensitiveValues value := by
  have hsanitized : Sanitized str sensitiveValues (sanitize str sensitiveValues value) :=
    sanitized_sanitize hvalues value
  exact ⟨fun text htext => hsanitized.freeOf htext,
    fun entry hentry hkey => hsanitized.masked hentry hkey, hsanitized.sanitize_eq_self⟩

/-- A header, and a text that contains two secrets of which one is part of the other. -/
def tracedRequest : TraceValue String ℕ :=
  .mapping [("Authorization", .text "Bearer abc"),
    ("steps", .list [.text "abcd and ab", .scalar 3])]

example : sanitize id ["ab", "abc"] tracedRequest =
    .mapping [("Authorization", .text "***"), ("steps", .list [.text "***d and ***", .scalar 3])] :=
  rfl

theorem sanitize_safe_tracedRequest :
    (∀ text, TextIn text (sanitize id ["ab", "abc"] tracedRequest) →
      ∀ secret ∈ ["ab", "abc"], secret ≠ "" → ¬ secret.toList <:+: text.toList) ∧
    (∀ entry, EntryIn entry (sanitize id ["ab", "abc"] tracedRequest) →
      isSensitiveKey id entry.1 → entry.2 = .text mask) ∧
    sanitize id ["ab", "abc"] (sanitize id ["ab", "abc"] tracedRequest) =
      sanitize id ["ab", "abc"] tracedRequest :=
  sanitize_safe id ["ab", "abc"] (by decide) tracedRequest

end Goodmoneying.Analysis.GatewayTrace
