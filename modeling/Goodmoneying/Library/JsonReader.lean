import Goodmoneying.Library.JsonText

/-!
# Reading JSON texts

`JsonValue.loads` reads a text as `json.loads` does, as far as the value has no number with a
fraction or an exponent and no half of a surrogate pair: what has one is not read. Every text that
`JsonValue.dumps` writes of a value whose mappings have their keys in order reads back as this
value (`loads_dumps`). The recursion is on a bound for the length of the text.
-/

namespace Goodmoneying.Library

open List

variable {text : List Char} {item value : JsonValue} {items : List JsonValue}

/-! ## Reading -/

/-- A blank between tokens. -/
def isBlank (c : Char) : Bool := c = ' ' || c = '\t' || c = '\n' || c = '\r'

/-- The text after its leading blanks. -/
def skipBlanks (text : List Char) : List Char := text.dropWhile isBlank

/-- The value of a hexadecimal digit of either case. -/
def hexDigit (c : Char) : Option ℕ :=
  if c.isDigit then some (c.toNat - 48)
  else if 'a' ≤ c ∧ c ≤ 'f' then some (c.toNat - 87)
  else if 'A' ≤ c ∧ c ≤ 'F' then some (c.toNat - 55)
  else none

/-- Four hexadecimal digits. -/
def readHex : List Char → Option (ℕ × List Char)
  | a :: b :: c :: d :: text => do
    let a ← hexDigit a
    let b ← hexDigit b
    let c ← hexDigit c
    let d ← hexDigit d
    some (4096 * a + 256 * b + 16 * c + d, text)
  | _ => none

/-- The character after `\u`: one code, or the two halves of a surrogate pair. -/
def readUnicode (text : List Char) : Option (Char × List Char) := do
  let (code, rest) ← readHex text
  if h : code.isValidChar then some (.ofNatAux code h, rest)
  else
    match rest with
    | '\\' :: 'u' :: rest =>
      let (low, rest) ← readHex rest
      if code < 0xdc00 ∧ 0xdc00 ≤ low ∧ low < 0xe000 then
        some (.ofNat (0x10000 + (code - 0xd800) * 0x400 + (low - 0xdc00)), rest)
      else none
    | _ => none

/-- One character of a string, which is no quote. -/
def readCharacter : List Char → Option (Char × List Char)
  | '\\' :: 'u' :: text => readUnicode text
  | '\\' :: c :: text =>
    if c = '"' ∨ c = '\\' ∨ c = '/' then some (c, text)
    else if c = 'b' ∨ c = 'f' ∨ c = 'n' ∨ c = 'r' ∨ c = 't' then some (unescape c, text)
    else none
  | ['\\'] => none
  | c :: text => if c.toNat < 32 then none else some (c, text)
  | [] => none

/-- The characters of a string, after its first quote. -/
def readString : ℕ → List Char → Option (List Char × List Char)
  | 0, _ => none
  | _ + 1, '"' :: text => some ([], text)
  | n + 1, text => do
    let (c, text) ← readCharacter text
    let (value, text) ← readString n text
    some (c :: value, text)

/-- Digits without a leading zero. -/
def readNat : List Char → Option (ℕ × List Char)
  | '0' :: text => some (0, text)
  | text =>
    if text.takeWhile Char.isDigit = [] then none
    else some (Nat.ofDigitChars 10 (text.takeWhile Char.isDigit) 0, text.dropWhile Char.isDigit)

/-- An integer. -/
def readInt : List Char → Option (ℤ × List Char)
  | '-' :: text => (readNat text).map fun result => (-result.1, result.2)
  | text => (readNat text).map fun result => (result.1, result.2)

/-- A `dict` takes the last value of a key. -/
def insertEntry (entries : List (String × JsonValue)) (entry : String × JsonValue) :
    List (String × JsonValue) :=
  if entry.1 ∈ entries.map Prod.fst then
    entries.map fun other => if other.1 = entry.1 then entry else other
  else entries ++ [entry]

mutual

/-- A value, from its first character on. -/
def readValue : ℕ → List Char → Option (JsonValue × List Char)
  | 0, _ => none
  | n + 1, '"' :: text =>
    (readString n text).map fun result => (.text (.ofList result.1), result.2)
  | n + 1, '[' :: text =>
    match skipBlanks text with
    | ']' :: rest => some (.list [], rest)
    | rest => (readItems n rest).map fun result => (.list result.1, result.2)
  | n + 1, '\x7b' :: text =>
    match skipBlanks text with
    | '\x7d' :: rest => some (.mapping [], rest)
    | rest => (readEntries n rest).map fun result =>
        (.mapping (result.1.foldl insertEntry []), result.2)
  | _ + 1, 'n' :: 'u' :: 'l' :: 'l' :: text => some (.null, text)
  | _ + 1, 't' :: 'r' :: 'u' :: 'e' :: text => some (.bool true, text)
  | _ + 1, 'f' :: 'a' :: 'l' :: 's' :: 'e' :: text => some (.bool false, text)
  | _ + 1, text => (readInt text).map fun result => (.int result.1, result.2)

/-- The items of a list up to its closing bracket. -/
def readItems : ℕ → List Char → Option (List JsonValue × List Char)
  | 0, _ => none
  | n + 1, text => do
    let (item, text) ← readValue n text
    match skipBlanks text with
    | ']' :: rest => some ([item], rest)
    | ',' :: rest =>
      let (items, text) ← readItems n (skipBlanks rest)
      some (item :: items, text)
    | _ => none

/-- The entries of a mapping up to its closing bracket. -/
def readEntries : ℕ → List Char → Option (List (String × JsonValue) × List Char)
  | 0, _ => none
  | n + 1, '"' :: text => do
    let (key, text) ← readString n text
    match skipBlanks text with
    | ':' :: rest =>
      let (value, text) ← readValue n (skipBlanks rest)
      match skipBlanks text with
      | '\x7d' :: rest => some ([(.ofList key, value)], rest)
      | ',' :: rest =>
        let (entries, text) ← readEntries n (skipBlanks rest)
        some ((.ofList key, value) :: entries, text)
      | _ => none
    | _ => none
  | _ + 1, _ => none

end

/-- `json.loads`. -/
def JsonValue.loads (text : String) : Option JsonValue := do
  let (value, rest) ← readValue (2 * text.length + 2) (skipBlanks text.toList)
  if skipBlanks rest = [] then some value else none

/-! ## What is written reads back -/

theorem skipBlanks_cons {c : Char} (hc : isBlank c = false) (text : List Char) :
    skipBlanks (c :: text) = c :: text :=
  dropWhile_cons_of_neg (by rw [hc]; exact Bool.false_ne_true)

/-- A written character reads back. -/
theorem readCharacter_jsonEscape (c : Char) (text : List Char) :
    readCharacter ((jsonEscape c).toList ++ text) = some (c, text) := by
  induction c using jsonEscape_induction with
  | control n hn => interval_cases n <;> rfl
  | quote => rfl
  | backslash => rfl
  | plain c hlarge hne hplain =>
    rw [hplain, String.toList_ofList, singleton_append]
    unfold readCharacter
    split
    · rename_i heq
      exact absurd (List.cons.inj heq).1 hne
    · rename_i heq
      exact absurd (List.cons.inj heq).1 hne
    · rename_i heq
      exact absurd (List.cons.inj heq).1 hne
    · rename_i heq
      rw [← (List.cons.inj heq).1, if_neg (not_lt.mpr hlarge), (List.cons.inj heq).2]
    · rename_i heq
      exact absurd heq (by simp)

theorem readString_of_ne {n : ℕ} (h : ∀ rest, text ≠ '"' :: rest) :
    readString (n + 1) text = (do
      let (c, text) ← readCharacter text
      let (value, text) ← readString n text
      some (c :: value, text)) := by
  rw [readString.eq_def]
  split
  · rename_i heq
    exact absurd heq (Nat.succ_ne_zero n)
  · rename_i heq
    exact absurd rfl (h _)
  · rename_i heq _
    rw [Nat.succ.inj heq]

/-- A written string reads back. -/
theorem readString_escaped {value : List Char} {n : ℕ} (hn : value.length < n)
    (text : List Char) : readString n (escaped value ++ '"' :: text) = some (value, text) := by
  induction value generalizing n with
  | nil =>
    obtain ⟨m, rfl⟩ := Nat.exists_eq_succ_of_ne_zero (Nat.ne_of_gt hn)
    rfl
  | cons c value ih =>
    obtain ⟨m, rfl⟩ := Nat.exists_eq_succ_of_ne_zero (Nat.ne_of_gt (Nat.zero_lt_of_lt hn))
    have hrest : escaped (c :: value) ++ '"' :: text =
        (jsonEscape c).toList ++ (escaped value ++ '"' :: text) := by
      rw [escaped, flatMap_cons, append_assoc]
      rfl
    rw [hrest, readString_of_ne fun _ heq => quote_ne_jsonEscape heq.symm, readCharacter_jsonEscape]
    simp [ih (Nat.lt_of_succ_lt_succ hn)]

/-- A number but zero has no leading zero. -/
theorem toDigits_ne_zero_cons {n : ℕ} (hn : n ≠ 0) (text : List Char) :
    Nat.toDigits 10 n ≠ '0' :: text := by
  induction n using Nat.strong_induction_on generalizing text with
  | _ n ih =>
    by_cases hlt : n < 10
    · rw [Nat.toDigits_of_lt_base hlt]
      intro heq
      interval_cases n <;> simp_all
    · rw [Nat.toDigits_of_base_le (by decide) (by omega)]
      intro heq
      cases hhead : Nat.toDigits 10 (n / 10) with
      | nil => exact absurd hhead Nat.toDigits_ne_nil
      | cons d rest =>
        rw [hhead, cons_append] at heq
        rw [(List.cons.inj heq).1] at hhead
        exact ih (n / 10) (by omega) (by omega) rest hhead

/-- Written digits read back. -/
theorem readNat_toDigits (n : ℕ) (h : Stops text) :
    readNat (Nat.toDigits 10 n ++ text) = some (n, text) := by
  have hend : text.takeWhile Char.isDigit = [] ∧ text.dropWhile Char.isDigit = text := by
    cases text with
    | nil => exact ⟨rfl, rfl⟩
    | cons c text =>
      have hc := h c (by simp)
      simp only [isStop, Bool.or_eq_true, decide_eq_true_iff] at hc
      rcases hc with (rfl | rfl) | rfl <;> exact ⟨rfl, rfl⟩
  by_cases hn : n = 0
  · subst hn
    rfl
  · have hdigits : ∀ c ∈ Nat.toDigits 10 n, c.isDigit = true := fun c hc =>
      isDigit_of_mem_toDigits hc
    have htake : (Nat.toDigits 10 n ++ text).takeWhile Char.isDigit = Nat.toDigits 10 n := by
      rw [takeWhile_append_of_pos hdigits, hend.1, append_nil]
    have hdrop : (Nat.toDigits 10 n ++ text).dropWhile Char.isDigit = text := by
      rw [dropWhile_append_of_pos hdigits, hend.2]
    rw [readNat.eq_def]
    split
    · rename_i rest heq
      cases hhead : Nat.toDigits 10 n with
      | nil => exact absurd hhead Nat.toDigits_ne_nil
      | cons d digits =>
        rw [hhead, cons_append] at heq
        rw [(List.cons.inj heq).1] at hhead
        exact absurd hhead (toDigits_ne_zero_cons hn digits)
    · rw [htake, hdrop, if_neg Nat.toDigits_ne_nil,
        Nat.ofDigitChars_toDigits (by decide) (by decide)]

/-- A written integer reads back. -/
theorem readInt_toString (n : ℤ) (h : Stops text) :
    readInt ((toString n).toList ++ text) = some (n, text) := by
  rw [toList_toString_int]
  split_ifs with hn
  · rw [cons_append, readInt, readNat_toDigits _ h, Option.map_some]
    have habs : -(n.natAbs : ℤ) = n := by omega
    rw [habs]
  · have hdash : ∀ rest, Nat.toDigits 10 n.natAbs ++ text ≠ '-' :: rest := by
      intro rest heq
      cases hhead : Nat.toDigits 10 n.natAbs with
      | nil => exact absurd hhead Nat.toDigits_ne_nil
      | cons d digits =>
        have hd := isDigit_of_mem_toDigits (n := n.natAbs) (c := d) (by rw [hhead]; simp)
        rw [hhead, cons_append] at heq
        rw [(List.cons.inj heq).1] at hd
        exact absurd hd (by decide)
    have habs : (n.natAbs : ℤ) = n := by omega
    rw [readInt.eq_def]
    split
    · rename_i heq
      exact absurd heq (hdash _)
    · rw [readNat_toDigits _ h, Option.map_some, habs]

/-! ## Values -/

/-- A value whose mappings have their keys in order. -/
inductive JsonValue.Canonical : JsonValue → Prop
  | null : Canonical .null
  | bool (value : Bool) : Canonical (.bool value)
  | int (value : ℤ) : Canonical (.int value)
  | text (value : String) : Canonical (.text value)
  | list (items : List JsonValue) (h : ∀ item ∈ items, Canonical item) : Canonical (.list items)
  | mapping (entries : List (String × JsonValue))
      (hkeys : (entries.map Prod.fst).Pairwise (· < ·))
      (h : ∀ entry ∈ entries, Canonical entry.2) : Canonical (.mapping entries)

/-- The text of a value, as characters. -/
def JsonValue.chars (value : JsonValue) : List Char := value.dumps.toList

/-- The text of a value reads back as this value. -/
def ReadsBack (value : JsonValue) : Prop :=
  ∀ n text, 2 * value.chars.length ≤ n → Stops text →
    readValue n (value.chars ++ text) = some (value, text)

/-- A value begins with a character that is no blank, no comma and no closing bracket. -/
theorem JsonText.begins (h : JsonText text) :
    ∃ c rest, text = c :: rest ∧ isStop c = false ∧ isBlank c = false := by
  obtain ⟨c, rest, rfl, hstop⟩ := h.first
  refine ⟨c, rest, rfl, hstop, ?_⟩
  cases h with
  | word _ _ hword =>
    have hc := hword c (by simp)
    by_contra hblank
    rw [Bool.not_eq_false, isBlank] at hblank
    simp only [Bool.or_eq_true, decide_eq_true_iff] at hblank
    rcases hblank with ((rfl | rfl) | rfl) | rfl <;> exact absurd hc (by decide)
  | string => rfl
  | list => rfl
  | mapping => rfl

/-- The text of a value begins with what is no blank and ends no value. -/
theorem JsonValue.begins (value : JsonValue) :
    ∃ c rest, value.chars = c :: rest ∧ isStop c = false ∧ isBlank c = false :=
  (jsonText_dumps value).begins

theorem skipBlanks_chars (value : JsonValue) (text : List Char) :
    skipBlanks (value.chars ++ text) = value.chars ++ text := by
  obtain ⟨c, rest, heq, -, hblank⟩ := value.begins
  rw [heq, cons_append, skipBlanks_cons hblank]

section Step

variable {n : ℕ} {text rest rest' : List Char}

theorem readItems_last (hitem : readValue n text = some (item, ']' :: rest)) :
    readItems (n + 1) text = some ([item], rest) := by
  rw [readItems.eq_def]
  simp only [hitem]
  rfl

theorem readItems_next (hitem : readValue n text = some (item, ',' :: rest))
    (hitems : readItems n (skipBlanks rest) = some (items, rest')) :
    readItems (n + 1) text = some (item :: items, rest') := by
  rw [readItems.eq_def]
  simp only [hitem]
  change (readItems n (skipBlanks rest)).bind _ = _
  rw [hitems]
  rfl

variable {key : List Char} {value : JsonValue} {after : List Char}

theorem readEntries_last (hkey : readString n text = some (key, ':' :: after))
    (hvalue : readValue n (skipBlanks after) = some (value, '\x7d' :: rest)) :
    readEntries (n + 1) ('"' :: text) = some ([(.ofList key, value)], rest) := by
  rw [readEntries.eq_def]
  simp only [hkey]
  change (readValue n (skipBlanks after)).bind _ = _
  rw [hvalue]
  rfl

theorem readEntries_next {entries : List (String × JsonValue)}
    (hkey : readString n text = some (key, ':' :: after))
    (hvalue : readValue n (skipBlanks after) = some (value, ',' :: rest))
    (hentries : readEntries n (skipBlanks rest) = some (entries, rest')) :
    readEntries (n + 1) ('"' :: text) = some ((.ofList key, value) :: entries, rest') := by
  rw [readEntries.eq_def]
  simp only [hkey]
  change (readValue n (skipBlanks after)).bind _ = _
  rw [hvalue]
  change (readEntries n (skipBlanks rest)).bind _ = _
  rw [hentries]
  rfl

end Step

/-- Written items read back. -/
theorem readItems_joined (hread : ∀ value ∈ item :: items, ReadsBack value) (text : List Char)
    {n : ℕ} (hn : 2 * (joined ((item :: items).map JsonValue.chars)).length + 1 ≤ n) :
    readItems n (joined ((item :: items).map JsonValue.chars) ++ ']' :: text) =
      some (item :: items, text) := by
  induction items generalizing item n with
  | nil =>
    obtain ⟨m, rfl⟩ := Nat.exists_eq_succ_of_ne_zero (Nat.ne_of_gt (Nat.zero_lt_of_lt hn))
    simp only [joined, map_cons, map_nil, flatMap_nil, append_nil] at hn ⊢
    exact readItems_last (hread item (by simp) m _ (by omega) (by simp [Stops, isStop]))
  | cons next items ih =>
    obtain ⟨m, rfl⟩ := Nat.exists_eq_succ_of_ne_zero (Nat.ne_of_gt (Nat.zero_lt_of_lt hn))
    have hjoined : joined ((item :: next :: items).map JsonValue.chars) =
        item.chars ++ ',' :: joined ((next :: items).map JsonValue.chars) := by
      simp only [joined, map_cons, flatMap_cons, cons_append]
    rw [hjoined, length_append, length_cons] at hn
    rw [hjoined, append_assoc, cons_append]
    apply readItems_next (hread item (by simp) m _ (by omega) (by simp [Stops, isStop]))
    have hblanks : skipBlanks (joined ((next :: items).map JsonValue.chars) ++ ']' :: text) =
        joined ((next :: items).map JsonValue.chars) ++ ']' :: text := by
      rw [map_cons, joined, append_assoc]
      exact skipBlanks_chars next _
    rw [hblanks]
    exact ih (fun value hvalue => hread value (mem_cons_of_mem _ hvalue)) (by omega)

/-- The text of an entry, as characters. -/
def entryChars (entry : String × JsonValue) : List Char :=
  entryText (entry.1.toList, entry.2.chars)

/-- No character is written as nothing. -/
theorem length_le_escaped (value : List Char) : value.length ≤ (escaped value).length := by
  induction value with
  | nil => exact le_refl 0
  | cons c value ih =>
    have hne : (jsonEscape c).toList ≠ [] := by
      intro heq
      have hread := readCharacter_jsonEscape c []
      rw [heq] at hread
      cases hread
    have hpos := length_pos_iff.mpr hne
    have hcons : escaped (c :: value) = (jsonEscape c).toList ++ escaped value := rfl
    rw [hcons, length_append, length_cons]
    omega

/-- Written entries read back. -/
theorem readEntries_joined {entry : String × JsonValue} {entries : List (String × JsonValue)}
    (hread : ∀ other ∈ entry :: entries, ReadsBack other.2) (text : List Char) {n : ℕ}
    (hn : 2 * (joined ((entry :: entries).map entryChars)).length + 1 ≤ n) :
    readEntries n (joined ((entry :: entries).map entryChars) ++ '\x7d' :: text) =
      some (entry :: entries, text) := by
  obtain ⟨m, rfl⟩ := Nat.exists_eq_succ_of_ne_zero (Nat.ne_of_gt (Nat.zero_lt_of_lt hn))
  have hkey := length_le_escaped entry.1.toList
  have hlength : (entryChars entry).length =
      (escaped entry.1.toList).length + entry.2.chars.length + 3 := by
    simp only [entryChars, entryText, length_cons, length_append]
    omega
  have hentry : ∀ rest, entryChars entry ++ rest =
      '"' :: (escaped entry.1.toList ++ '"' :: ':' :: (entry.2.chars ++ rest)) := by
    intro rest
    simp only [entryChars, entryText, cons_append, append_assoc]
  have hname : entry = (.ofList entry.1.toList, entry.2) := by rw [String.ofList_toList]
  cases entries with
  | nil =>
    simp only [joined, map_cons, map_nil, flatMap_nil, append_nil] at hn ⊢
    rw [hentry]
    conv_rhs => rw [hname]
    apply readEntries_last (readString_escaped (by omega) _)
    rw [skipBlanks_chars]
    exact hread entry (by simp) m _ (by omega) (by simp [Stops, isStop])
  | cons next entries =>
    have hjoined : joined ((entry :: next :: entries).map entryChars) =
        entryChars entry ++ ',' :: joined ((next :: entries).map entryChars) := by
      simp only [joined, map_cons, flatMap_cons, cons_append]
    rw [hjoined, length_append, length_cons] at hn
    rw [hjoined, append_assoc, cons_append, hentry]
    conv_rhs => rw [hname]
    apply readEntries_next (readString_escaped (by omega) _)
    · rw [skipBlanks_chars]
      exact hread entry (by simp) m _ (by omega) (by simp [Stops, isStop])
    · have hblanks : skipBlanks (joined ((next :: entries).map entryChars) ++ '\x7d' :: text) =
          joined ((next :: entries).map entryChars) ++ '\x7d' :: text := by
        rw [map_cons, joined, entryChars, entryText]
        exact skipBlanks_cons rfl _
      rw [hblanks]
      exact readEntries_joined (fun other hother => hread other (mem_cons_of_mem _ hother))
        text (by omega)

/-- Entries with different keys make a `dict` as they are. -/
theorem foldl_insertEntry {entries : List (String × JsonValue)}
    (h : (entries.map Prod.fst).Nodup) (done : List (String × JsonValue))
    (hdone : ∀ entry ∈ entries, entry.1 ∉ done.map Prod.fst) :
    entries.foldl insertEntry done = done ++ entries := by
  induction entries generalizing done with
  | nil => rw [foldl_nil, append_nil]
  | cons entry entries ih =>
    rw [map_cons, nodup_cons] at h
    rw [foldl_cons, insertEntry, if_neg (hdone entry mem_cons_self), ih h.2, append_assoc]
    · rfl
    · intro other hother
      rw [map_append, mem_append, not_or]
      refine ⟨hdone other (mem_cons_of_mem _ hother), ?_⟩
      intro hsame
      rw [map_singleton, mem_singleton] at hsame
      exact h.1 (hsame ▸ mem_map_of_mem hother)

theorem chars_list (items : List JsonValue) :
    (JsonValue.list items).chars = '[' :: (joined (items.map JsonValue.chars) ++ [']']) := by
  rw [JsonValue.chars, toList_dumps_list, dumpsItems_eq_map, map_map]
  rfl

theorem chars_mapping {entries : List (String × JsonValue)}
    (hkeys : (entries.map Prod.fst).Pairwise (· < ·)) : (JsonValue.mapping entries).chars =
      '\x7b' :: (joined (entries.map entryChars) ++ ['\x7d']) := by
  have hsorted : sortedBy Prod.fst (dumpsEntries entries) = dumpsEntries entries := by
    apply sortedBy_eq_self
    rw [dumpsEntries_eq_map, pairwise_map]
    exact (pairwise_map.mp hkeys).imp le_of_lt
  rw [JsonValue.chars, toList_dumps_mapping, sortedEntries, hsorted, dumpsEntries_eq_map,
    map_map, map_map]
  rfl

/-- An integer begins with a digit or a minus sign. -/
theorem toString_int_begins (value : ℤ) :
    ∃ c rest, (toString value).toList = c :: rest ∧ (c = '-' ∨ c.isDigit = true) := by
  rw [toList_toString_int]
  split_ifs with hneg
  · exact ⟨_, _, rfl, Or.inl rfl⟩
  · cases hdigits : Nat.toDigits 10 value.natAbs with
    | nil => exact absurd hdigits Nat.toDigits_ne_nil
    | cons c rest =>
      exact ⟨c, rest, rfl, Or.inr (isDigit_of_mem_toDigits (by rw [hdigits]; simp))⟩

theorem readValue_int {n : ℕ} (value : ℤ) (h : Stops text) :
    readValue (n + 1) ((toString value).toList ++ text) = some (.int value, text) := by
  have hread := readInt_toString value h
  obtain ⟨c, rest, heq, hc⟩ := toString_int_begins value
  have hother : ∀ d, d ≠ '-' → d.isDigit = false → ∀ tail,
      (toString value).toList ++ text ≠ d :: tail := by
    rintro d hd hdigit tail hsame
    rw [heq, cons_append] at hsame
    obtain ⟨rfl, -⟩ := List.cons.inj hsame
    rcases hc with rfl | hc
    · exact hd rfl
    · exact absurd hc (by rw [hdigit]; exact Bool.false_ne_true)
  rw [readValue.eq_def]
  split
  · rename_i heq
    exact absurd heq (Nat.succ_ne_zero n)
  all_goals try exact absurd ‹_› (hother _ (by decide) rfl _)
  rw [hread]
  rfl

/-- A bound for a text is positive. -/
theorem exists_succ_of_bound {n : ℕ} (hn : 2 * value.chars.length ≤ n) : ∃ m, n = m + 1 := by
  obtain ⟨c, rest, heq, -⟩ := value.begins
  rw [heq, length_cons] at hn
  exact ⟨n - 1, by omega⟩

theorem readsBack_list (h : ∀ item ∈ items, ReadsBack item) : ReadsBack (.list items) := by
  intro n text hn _
  obtain ⟨m, rfl⟩ := exists_succ_of_bound hn
  rw [chars_list, length_cons, length_append, length_singleton] at hn
  rw [chars_list, cons_append, append_assoc, singleton_append]
  cases items with
  | nil => rfl
  | cons item items =>
    have hread := readItems_joined h text (n := m) (by omega)
    obtain ⟨c, rest, heq, hstop, hblank⟩ := item.begins
    have hbegins : ∃ rest, joined ((item :: items).map JsonValue.chars) ++ ']' :: text =
        c :: rest := by
      rw [map_cons, joined, heq]
      exact ⟨_, rfl⟩
    obtain ⟨rest, hbegins⟩ := hbegins
    rw [hbegins] at hread ⊢
    rw [readValue.eq_def]
    simp only [skipBlanks_cons hblank]
    split
    · rename_i heq
      rw [(List.cons.inj heq).1] at hstop
      exact absurd hstop (by decide)
    · rw [hread]
      rfl

theorem readsBack_mapping {entries : List (String × JsonValue)}
    (hkeys : (entries.map Prod.fst).Pairwise (· < ·))
    (h : ∀ entry ∈ entries, ReadsBack entry.2) : ReadsBack (.mapping entries) := by
  intro n text hn _
  obtain ⟨m, rfl⟩ := exists_succ_of_bound hn
  rw [chars_mapping hkeys, length_cons, length_append, length_singleton] at hn
  rw [chars_mapping hkeys, cons_append, append_assoc, singleton_append]
  cases entries with
  | nil => rfl
  | cons entry entries =>
    have hread := readEntries_joined h text (n := m) (by omega)
    have hbegins : ∃ rest, joined ((entry :: entries).map entryChars) ++ '\x7d' :: text =
        '"' :: rest := by
      rw [map_cons, joined, entryChars, entryText]
      exact ⟨_, rfl⟩
    obtain ⟨rest, hbegins⟩ := hbegins
    rw [hbegins] at hread ⊢
    have hnodup : ((entry :: entries).map Prod.fst).Nodup := hkeys.imp ne_of_lt
    rw [readValue.eq_def]
    simp only [skipBlanks_cons (show isBlank '"' = false from rfl)]
    change (readEntries m ('"' :: rest)).map _ = _
    rw [hread, Option.map_some, foldl_insertEntry hnodup [] (fun _ _ => not_mem_nil), nil_append]

/-- What is written of a value reads back. -/
theorem JsonValue.Canonical.readsBack (h : value.Canonical) : ReadsBack value := by
  induction h with
  | null =>
    intro n text hn _
    obtain ⟨m, rfl⟩ := exists_succ_of_bound hn
    rw [chars, dumps]
    rfl
  | bool value =>
    intro n text hn _
    obtain ⟨m, rfl⟩ := exists_succ_of_bound hn
    rw [chars, dumps]
    cases value <;> rfl
  | int value =>
    intro n text hn hstops
    obtain ⟨m, rfl⟩ := exists_succ_of_bound hn
    rw [chars, dumps]
    exact readValue_int value hstops
  | text value =>
    intro n text hn _
    obtain ⟨m, rfl⟩ := exists_succ_of_bound hn
    have hlength := length_le_escaped value.toList
    have hchars : (JsonValue.text value).chars = '"' :: (escaped value.toList ++ ['"']) := by
      rw [chars, dumps, toList_jsonString]
    rw [hchars, length_cons, length_append, length_singleton] at hn
    rw [hchars, cons_append, append_assoc, singleton_append, readValue.eq_def]
    simp only [readString_escaped (show value.toList.length < m by omega), Option.map_some,
      String.ofList_toList]
  | list items _ ih => exact readsBack_list ih
  | mapping entries hkeys _ ih => exact readsBack_mapping hkeys ih

/-- The order in which the entries of a mapping are given does not show in its text. -/
theorem dumps_mapping_of_perm {entries others : List (String × JsonValue)}
    (hperm : entries.Perm others) (hkeys : (entries.map Prod.fst).Nodup) :
    (JsonValue.mapping entries).dumps = (JsonValue.mapping others).dumps := by
  have htexts : (dumpsEntries entries).Perm (dumpsEntries others) := by
    rw [dumpsEntries_eq_map, dumpsEntries_eq_map]
    exact hperm.map _
  have hfst : (dumpsEntries entries).map Prod.fst = entries.map Prod.fst := by
    rw [dumpsEntries_eq_map, map_map]
    rfl
  have hsorted : sortedBy Prod.fst (dumpsEntries entries) =
      sortedBy Prod.fst (dumpsEntries others) := by
    refine eq_of_pairwise_lt Prod.fst (sortedBy_lt_of_nodup (by rwa [hfst]))
      (sortedBy_lt_of_nodup ?_) fun entry => ?_
    · exact (htexts.map Prod.fst).nodup_iff.mp (by rwa [hfst])
    · rw [mem_sortedBy, mem_sortedBy, htexts.mem_iff]
  rw [JsonValue.dumps, JsonValue.dumps, hsorted]

/-- What `json.dumps` writes, `json.loads` reads. -/
theorem loads_dumps (h : value.Canonical) : JsonValue.loads value.dumps = some value := by
  have hread := h.readsBack (2 * value.dumps.length + 2) [] (by
    rw [JsonValue.chars, String.length_toList]
    omega) (by simp [Stops])
  rw [append_nil] at hread
  have hblanks := skipBlanks_chars value []
  rw [append_nil] at hblanks
  rw [JsonValue.loads]
  change (readValue (2 * value.dumps.length + 2) (skipBlanks value.chars)).bind _ = _
  rw [hblanks, hread]
  rfl

end Goodmoneying.Library
