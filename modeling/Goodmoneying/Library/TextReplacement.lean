import Mathlib.Data.List.Basic

/-!
# Replacing parts of a list

`replaceAll` puts a mask in the place of every occurrence of a pattern, from left to right and
without overlaps. Where the mask is not empty and shares no entry with a pattern, the result
contains no occurrence of the pattern that was replaced (`not_infix_replaceAll`), and none of
another such pattern that was not there before (`infix_of_infix_replaceAll`): patterns can be
replaced one after another in any order (`not_infix_replaceEach`).
-/

namespace Goodmoneying.Library

open List

variable {α : Type} [DecidableEq α]
variable {part text : List α}

/-- The rest of `replaceAll`, of which the first `skip` entries belong to the last occurrence. -/
def replaceFrom (pattern mask : List α) : ℕ → List α → List α
  | _, [] => []
  | skip + 1, _ :: rest => replaceFrom pattern mask skip rest
  | 0, a :: rest =>
    if pattern <+: a :: rest then mask ++ replaceFrom pattern mask (pattern.length - 1) rest
    else a :: replaceFrom pattern mask 0 rest

/-- The list with the mask in the place of every occurrence of a pattern that is not empty. -/
def replaceAll (pattern mask text : List α) : List α := replaceFrom pattern mask 0 text

/-- The list with the mask in the place of the patterns, one after another. -/
def replaceEach (mask : List α) (patterns : List (List α)) (text : List α) : List α :=
  patterns.foldl (fun result pattern => replaceAll pattern mask result) text

section

variable {pattern mask : List α}

/-- A prefix of a result that is free of the mask was there before. -/
theorem prefix_of_prefix_replaceAll (hmask : mask ≠ []) (hpart : ∀ a ∈ part, a ∉ mask)
    (text : List α) (h : part <+: replaceAll pattern mask text) : part <+: text := by
  induction text generalizing part with
  | nil => exact h
  | cons a rest ih =>
    cases part with
    | nil => exact nil_prefix
    | cons b part =>
      have hb : b ∉ mask := hpart b mem_cons_self
      rw [replaceAll, replaceFrom] at h
      split_ifs at h
      · -- the result begins with the mask here
        obtain ⟨c, mask, rfl⟩ := exists_cons_of_ne_nil hmask
        rw [cons_append, cons_prefix_cons] at h
        exact absurd (h.1 ▸ mem_cons_self) hb
      · rw [cons_prefix_cons] at h ⊢
        exact ⟨h.1, ih (fun c hc => hpart c (mem_cons_of_mem _ hc)) h.2⟩

omit [DecidableEq α] in
/-- An occurrence that is free of the mask begins behind a mask in front of it. -/
theorem infix_of_infix_mask_append {rest : List α} (hne : part ≠ []) (hpart : ∀ a ∈ part, a ∉ mask)
    (h : part <:+: mask ++ rest) : part <:+: rest := by
  obtain ⟨b, part, rfl⟩ := exists_cons_of_ne_nil hne
  have hb := hpart b mem_cons_self
  clear hpart
  induction mask with
  | nil => exact h
  | cons c mask ih =>
    rw [mem_cons, not_or] at hb
    rw [cons_append, infix_cons_iff] at h
    rcases h with h | h
    · exact absurd (cons_prefix_cons.mp h).1 hb.1
    · exact ih h hb.2

/-- Nothing free of the mask comes into a list by a replacement. -/
theorem infix_of_infix_replaceFrom (hmask : mask ≠ []) (hne : part ≠ [])
    (hpart : ∀ a ∈ part, a ∉ mask) (text : List α) (skip : ℕ)
    (h : part <:+: replaceFrom pattern mask skip text) : part <:+: text := by
  induction text generalizing skip with
  | nil =>
    cases skip <;> exact h
  | cons a rest ih =>
    have hrest : part <:+: rest → part <:+: a :: rest := fun h => infix_cons h
    cases skip with
    | succ skip => exact hrest (ih skip h)
    | zero =>
      have hbegins : part <+: replaceAll pattern mask (a :: rest) → part <+: a :: rest :=
        prefix_of_prefix_replaceAll hmask hpart (a :: rest)
      rw [replaceAll] at hbegins
      rw [replaceFrom] at h hbegins
      split_ifs at h hbegins
      · exact hrest (ih _ (infix_of_infix_mask_append hne hpart h))
      · rcases infix_cons_iff.mp h with h | h
        · exact (hbegins h).isInfix
        · exact hrest (ih 0 h)

/-- A replacement makes no other pattern appear. -/
theorem infix_of_infix_replaceAll (hmask : mask ≠ []) (hne : part ≠ [])
    (hpart : ∀ a ∈ part, a ∉ mask) (text : List α) (h : part <:+: replaceAll pattern mask text) :
    part <:+: text :=
  infix_of_infix_replaceFrom hmask hne hpart text 0 h

/-- What is replaced does not occur afterwards. -/
theorem not_infix_replaceFrom (hmask : mask ≠ []) (hne : pattern ≠ [])
    (hpattern : ∀ a ∈ pattern, a ∉ mask) (text : List α) (skip : ℕ) :
    ¬ pattern <:+: replaceFrom pattern mask skip text := by
  induction text generalizing skip with
  | nil =>
    cases skip <;> simpa [replaceFrom] using hne
  | cons a rest ih =>
    cases skip with
    | succ skip => exact ih skip
    | zero =>
      rw [replaceFrom]
      split_ifs with hhere
      · exact fun h => ih _ (infix_of_infix_mask_append hne hpattern h)
      · intro h
        rcases infix_cons_iff.mp h with h | h
        · have hbegins : pattern <+: replaceAll pattern mask (a :: rest) := by
            rwa [replaceAll, replaceFrom, if_neg hhere]
          exact hhere (prefix_of_prefix_replaceAll hmask hpattern _ hbegins)
        · exact ih 0 h

/-- The pattern that is replaced does not occur any more. -/
theorem not_infix_replaceAll (hmask : mask ≠ []) (hne : pattern ≠ [])
    (hpattern : ∀ a ∈ pattern, a ∉ mask) (text : List α) :
    ¬ pattern <:+: replaceAll pattern mask text :=
  not_infix_replaceFrom hmask hne hpattern text 0

/-- A list without the pattern stays as it is. -/
theorem replaceAll_eq_self (h : ¬ pattern <:+: text) : replaceAll pattern mask text = text := by
  induction text with
  | nil => rfl
  | cons a rest ih =>
    have hhere : ¬ pattern <+: a :: rest := fun hprefix => h hprefix.isInfix
    have hrest : ¬ pattern <:+: rest := fun hinfix => h (infix_cons hinfix)
    rw [replaceAll, replaceFrom, if_neg hhere]
    exact congrArg _ (ih hrest)

theorem replaceFrom_length (text : List α) : replaceFrom pattern mask text.length text = [] := by
  induction text with
  | nil => rfl
  | cons a rest ih => exact ih

/-- A pattern at the end of a list, in which it does not begin before, is replaced alone. -/
theorem replaceAll_append {a : α} (h : a ∉ text) :
    replaceAll (a :: pattern) mask (text ++ a :: pattern) = text ++ mask := by
  induction text with
  | nil =>
    rw [nil_append, replaceAll, replaceFrom, if_pos (prefix_refl _)]
    exact (congrArg _ (replaceFrom_length pattern)).trans (append_nil mask)
  | cons b rest ih =>
    rw [mem_cons, not_or] at h
    have hhere : ¬ a :: pattern <+: b :: (rest ++ a :: pattern) := fun hprefix =>
      h.1 (cons_prefix_cons.mp hprefix).1
    rw [cons_append, replaceAll, replaceFrom, if_neg hhere]
    exact congrArg _ (ih h.2)

end

section

variable {mask : List α} {patterns : List (List α)}

/-- Nothing free of the mask comes into a list by replacements. -/
theorem infix_of_infix_replaceEach (hmask : mask ≠ []) (hne : part ≠ [])
    (hpart : ∀ a ∈ part, a ∉ mask) (text : List α) (h : part <:+: replaceEach mask patterns text) :
    part <:+: text := by
  induction patterns generalizing text with
  | nil => exact h
  | cons pattern patterns ih =>
    exact infix_of_infix_replaceAll hmask hne hpart text (ih _ h)

/-- None of the patterns occurs after all of them are replaced. -/
theorem not_infix_replaceEach (hmask : mask ≠ []) (hne : ∀ pattern ∈ patterns, pattern ≠ [])
    (hpatterns : ∀ pattern ∈ patterns, ∀ a ∈ pattern, a ∉ mask) (text : List α) :
    ∀ pattern ∈ patterns, ¬ pattern <:+: replaceEach mask patterns text := by
  induction patterns generalizing text with
  | nil => simp
  | cons first patterns ih =>
    rw [forall_mem_cons] at hne hpatterns
    rw [forall_mem_cons]
    refine ⟨fun h => ?_, ih hne.2 hpatterns.2 _⟩
    -- the first one is gone at once, and the others do not bring it back
    exact not_infix_replaceAll hmask hne.1 hpatterns.1 text
      (infix_of_infix_replaceEach hmask hne.1 hpatterns.1 _ h)

/-- A list without any of the patterns stays as it is. -/
theorem replaceEach_eq_self (h : ∀ pattern ∈ patterns, ¬ pattern <:+: text) :
    replaceEach mask patterns text = text := by
  induction patterns with
  | nil => rfl
  | cons pattern patterns ih =>
    rw [forall_mem_cons] at h
    rw [replaceEach, foldl_cons, replaceAll_eq_self h.1]
    exact ih h.2

end

end Goodmoneying.Library
