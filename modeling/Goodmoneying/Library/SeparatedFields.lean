import Mathlib.Data.List.Induction

/-!
# Fields after a separator

A list that ends in fields, each after a separator that it does not contain, is read from its end
in one way only (`separated_suffix`). Read from its front, a field ends at the first separator, and
what is cut off behind it starts there or later (`append_past_field`).
-/

namespace Goodmoneying.Library

open List

variable {α : Type} {separator : α}
variable {head head' : List α}

/-- The fields, each after a separator. -/
def separated (separator : α) (fields : List (List α)) : List α :=
  fields.flatMap fun field => separator :: field

@[simp] theorem separated_nil : separated separator [] = [] := rfl

@[simp] theorem separated_cons (field : List α) (fields : List (List α)) :
    separated separator (field :: fields) = separator :: field ++ separated separator fields :=
  flatMap_cons

@[simp] theorem separated_append (fields others : List (List α)) :
    separated separator (fields ++ others) =
      separated separator fields ++ separated separator others :=
  flatMap_append

/-- A list is cut at its last separator in one way. -/
theorem append_separator_inj {last last' : List α} (hlast : separator ∉ last)
    (hlast' : separator ∉ last') (h : head ++ separator :: last = head' ++ separator :: last') :
    head = head' ∧ last = last' := by
  -- a separator left of the other would be one of the other's last field
  rcases append_eq_append_iff.mp h with ⟨rest, hhead, hrest⟩ | ⟨rest, hhead, hrest⟩
  · cases rest with
    | nil => exact ⟨by simpa using hhead.symm, by simpa using hrest⟩
    | cons c rest =>
      rw [cons_append] at hrest
      exact absurd ((List.cons.inj hrest).2 ▸ by simp) hlast
  · cases rest with
    | nil => exact ⟨by simpa using hhead, by simpa using hrest.symm⟩
    | cons c rest =>
      rw [cons_append] at hrest
      exact absurd ((List.cons.inj hrest).2 ▸ by simp) hlast'

/-- As many fields in front of a separator or the end are read in one way. -/
theorem separated_append_inj {fields fields' : List (List α)} {rest rest' : List α}
    (h : separated separator fields ++ rest = separated separator fields' ++ rest')
    (hlength : fields.length = fields'.length) (hfields : ∀ field ∈ fields, separator ∉ field)
    (hfields' : ∀ field ∈ fields', separator ∉ field) (hrest : ∀ c ∈ rest.head?, c = separator)
    (hrest' : ∀ c ∈ rest'.head?, c = separator) : fields = fields' ∧ rest = rest' := by
  have hstarts : ∀ (fields : List (List α)) (rest : List α), (∀ c ∈ rest.head?, c = separator) →
      ∀ c ∈ (separated separator fields ++ rest).head?, c = separator := by
    intro fields rest hrest c hc
    cases fields with
    | nil => exact hrest c hc
    | cons field fields => simpa [eq_comm] using hc
  -- a field ends where the other does: behind it there is a separator or nothing
  have hfield : ∀ {field field' tail tail' : List α}, separator ∉ field' →
      (∀ c ∈ tail.head?, c = separator) → ∀ more, field' = field ++ more → tail = more ++ tail' →
        more = [] := by
    rintro field field' tail tail' hnot htail (_ | ⟨c, more⟩) rfl rfl
    · rfl
    · obtain rfl := htail c (by simp)
      exact absurd (by simp) hnot
  induction fields generalizing fields' with
  | nil =>
    obtain rfl := length_eq_zero_iff.mp hlength.symm
    exact ⟨rfl, by simpa using h⟩
  | cons field fields ih =>
    obtain ⟨field', fields', rfl⟩ := exists_cons_of_length_eq_add_one hlength.symm
    rw [forall_mem_cons] at hfields hfields'
    simp only [separated_cons, cons_append, append_assoc] at h
    have hsame : field = field' ∧
        separated separator fields ++ rest = separated separator fields' ++ rest' := by
      rcases append_eq_append_iff.mp (List.cons.inj h).2 with
        ⟨more, hmore, htail⟩ | ⟨more, hmore, htail⟩
      · obtain rfl := hfield hfields'.1 (hstarts fields rest hrest) more hmore htail
        exact ⟨by simpa using hmore.symm, by simpa using htail⟩
      · obtain rfl := hfield hfields.1 (hstarts fields' rest' hrest') more hmore htail
        exact ⟨by simpa using hmore, by simpa using htail.symm⟩
    obtain ⟨rfl, htail⟩ := ih hsame.2 (Nat.succ.inj hlength) hfields.2 hfields'.2
    exact ⟨by rw [hsame.1], htail⟩

/-- The shorter of two lists of fields at the end of one list is an end of the longer. -/
theorem separated_suffix {fields fields' : List (List α)}
    (hfields : ∀ field ∈ fields, separator ∉ field)
    (hfields' : ∀ field ∈ fields', separator ∉ field) (hle : fields.length ≤ fields'.length)
    (h : head ++ separated separator fields = head' ++ separated separator fields') :
    ∃ more, fields' = more ++ fields ∧ head = head' ++ separated separator more := by
  induction fields using List.reverseRecOn generalizing fields' with
  | nil => exact ⟨fields', (append_nil _).symm, by simpa using h⟩
  | append_singleton fields last ih =>
    rcases eq_nil_or_concat fields' with rfl | ⟨others, last', rfl⟩
    · simp at hle
    · rw [concat_eq_append] at *
      simp only [separated_append, separated_cons, separated_nil, append_nil, ← append_assoc] at h
      obtain ⟨hinit, rfl⟩ := append_separator_inj (hfields last (by simp))
        (hfields' last' (by simp)) h
      obtain ⟨more, rfl, hhead⟩ := ih (fun field hfield => hfields field (by simp [hfield]))
        (fun field hfield => hfields' field (by simp [hfield])) (by simpa using hle) hinit
      exact ⟨more, append_assoc .., hhead⟩

/-- A list that starts with a field is cut at a separator behind the field or not at all. -/
theorem append_past_field {field rest past past' : List α} (hfield : separator ∉ field)
    (hrest : rest ≠ []) (h : separator :: field ++ past = rest ++ separator :: past') :
    ∃ more, rest = separator :: field ++ more ∧ past = more ++ separator :: past' := by
  obtain ⟨c, rest, rfl⟩ := exists_cons_of_ne_nil hrest
  obtain ⟨rfl, htail⟩ := List.cons.inj h
  replace htail : field ++ past = rest ++ separator :: past' := htail
  rcases append_eq_append_iff.mp htail with ⟨more, rfl, hpast⟩ | ⟨more, rfl, hpast⟩
  · exact ⟨more, rfl, hpast⟩
  · cases more with
    | nil => exact ⟨[], by simp, by simpa using hpast.symm⟩
    | cons d more =>
      rw [cons_append] at hpast
      obtain ⟨rfl, -⟩ := List.cons.inj hpast
      exact absurd (by simp) hfield

/-- Two readings of a list that starts with a field behind some head: the heads are the same, or
one of them goes on over the other's field. -/
theorem append_field_cases {field field' past past' : List α} (hfield : separator ∉ field)
    (hfield' : separator ∉ field')
    (h : head ++ (separator :: field ++ past) = head' ++ (separator :: field' ++ past')) :
    (head = head' ∧ field ++ past = field' ++ past') ∨
    (∃ more, head' = head ++ (separator :: field ++ more) ∧
      past = more ++ (separator :: field' ++ past')) ∨
    (∃ more, head = head' ++ (separator :: field' ++ more) ∧
      past' = more ++ (separator :: field ++ past)) := by
  rcases append_eq_append_iff.mp h with ⟨rest, rfl, hrest⟩ | ⟨rest, rfl, hrest⟩
  · by_cases hnil : rest = []
    · subst hnil
      exact Or.inl ⟨(append_nil _).symm, (List.cons.inj hrest).2⟩
    · obtain ⟨more, rfl, hpast⟩ := append_past_field hfield hnil hrest
      exact Or.inr (Or.inl ⟨more, rfl, hpast⟩)
  · by_cases hnil : rest = []
    · subst hnil
      exact Or.inl ⟨append_nil _, (List.cons.inj hrest).2.symm⟩
    · obtain ⟨more, rfl, hpast⟩ := append_past_field hfield' hnil hrest
      exact Or.inr (Or.inr ⟨more, rfl, hpast⟩)

end Goodmoneying.Library
