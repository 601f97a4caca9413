import Mathlib.Data.Char
import Goodmoneying.Library.ExceptRules
import Goodmoneying.Library.StableSort
import Goodmoneying.Library.TextOrder

/-!
# JSON texts

The text of a JSON value without blanks, keys sorted. Every text of a value ends where it must:
followed by a comma, a closing bracket or nothing, it is read in one way only
(`JsonText.delimited`). So a text determines the texts of its parts: the items of a list
(`dumps_list_inj`), the sorted keys of a mapping with the texts of their values
(`dumps_mapping_inj`), a string (`dumps_text_inj`) and a number (`dumps_int_inj`).
-/

namespace Goodmoneying.Library

open List

variable {c : Char} {s t : List Char}

/-! ## Values and their texts -/

/-- A JSON value. -/
inductive JsonValue where
  | null
  | bool (value : Bool)
  | int (value : ℤ)
  | text (value : String)
  | list (items : List JsonValue)
  | mapping (entries : List (String × JsonValue))

/-- A character in a JSON string; characters outside ASCII stand for themselves. -/
def jsonEscape (c : Char) : String :=
  match c.toNat with
  | 8 => "\\b"
  | 9 => "\\t"
  | 10 => "\\n"
  | 12 => "\\f"
  | 13 => "\\r"
  | 34 => "\\\""
  | 92 => "\\\\"
  | n =>
    if n < 32 then "\\u00" ++ .ofList [Nat.digitChar (n / 16), Nat.digitChar (n % 16)]
    else .ofList [c]

/-- The text of a string. -/
def jsonString (value : String) : String :=
  "\"" ++ "".intercalate (value.toList.map jsonEscape) ++ "\""

mutual

/-- The text of a value: no blanks, keys sorted. -/
def JsonValue.dumps : JsonValue → String
  | .null => "null"
  | .bool value => if value then "true" else "false"
  | .int value => toString value
  | .text value => jsonString value
  | .list items => "[" ++ ",".intercalate (dumpsItems items) ++ "]"
  | .mapping entries =>
    "\x7b" ++ ",".intercalate ((sortedBy Prod.fst (dumpsEntries entries)).map fun entry =>
      jsonString entry.1 ++ ":" ++ entry.2) ++ "\x7d"

/-- The texts of the items of a list. -/
def dumpsItems : List JsonValue → List String
  | [] => []
  | item :: items => item.dumps :: dumpsItems items

/-- The keys of a mapping with the texts of their values. -/
def dumpsEntries : List (String × JsonValue) → List (String × String)
  | [] => []
  | (key, value) :: entries => (key, value.dumps) :: dumpsEntries entries

end

theorem dumpsItems_eq_map (items : List JsonValue) :
    dumpsItems items = items.map JsonValue.dumps := by
  induction items with
  | nil => rw [dumpsItems, map_nil]
  | cons item items ih => rw [dumpsItems, map_cons, ih]

theorem dumpsEntries_eq_map (entries : List (String × JsonValue)) :
    dumpsEntries entries = entries.map fun entry => (entry.1, entry.2.dumps) := by
  induction entries with
  | nil => rw [dumpsEntries, map_nil]
  | cons entry entries ih => rw [dumpsEntries, map_cons, ih]

/-! ## Strings -/

/-- The character after a backslash, read. -/
def unescape (c : Char) : Char :=
  match c with
  | 'b' => '\x08'
  | 't' => '\t'
  | 'n' => '\n'
  | 'f' => '\x0c'
  | 'r' => '\r'
  | c => c

/-- The value of a hexadecimal digit. -/
def hexValue (c : Char) : ℕ := if c.isDigit then c.toNat - 48 else c.toNat - 87

/-- Read one character of a string. -/
def readEscaped : List Char → Option (Char × List Char)
  | '\\' :: 'u' :: _ :: _ :: high :: low :: text =>
    some (.ofNat (16 * hexValue high + hexValue low), text)
  | '\\' :: c :: text => some (unescape c, text)
  | c :: text => some (c, text)
  | [] => none

/-- A character is a control character, a quote or a backslash, or it is written as it is. -/
theorem jsonEscape_induction {P : Char → Prop} (control : ∀ n < 32, P (.ofNat n)) (quote : P '"')
    (backslash : P '\\')
    (plain : ∀ c : Char, 32 ≤ c.toNat → c ≠ '\\' → jsonEscape c = .ofList [c] → P c)
    (c : Char) : P c := by
  by_cases hsmall : c.toNat < 32
  · exact Char.ofNat_toNat c ▸ control c.toNat hsmall
  · by_cases hc : c = '"'
    · exact hc ▸ quote
    · by_cases hc' : c = '\\'
      · exact hc' ▸ backslash
      · have hne : c.toNat ≠ 34 := fun heq => hc (Char.toNat_inj.mp heq)
        have hne' : c.toNat ≠ 92 := fun heq => hc' (Char.toNat_inj.mp heq)
        refine plain c (not_lt.mp hsmall) hc' ?_
        unfold jsonEscape
        split <;> first | omega | rw [if_neg hsmall]

/-- A written character reads back. -/
theorem readEscaped_jsonEscape (c : Char) (text : List Char) :
    readEscaped ((jsonEscape c).toList ++ text) = some (c, text) := by
  induction c using jsonEscape_induction with
  | control n hn => interval_cases n <;> rfl
  | quote => rfl
  | backslash => rfl
  | plain c hlarge hne hplain =>
    rw [hplain, String.toList_ofList, singleton_append]
    unfold readEscaped
    split
    · rename_i heq
      exact absurd (List.cons.inj heq).1 hne
    · rename_i heq
      exact absurd (List.cons.inj heq).1 hne
    · rename_i heq
      rw [(List.cons.inj heq).1, (List.cons.inj heq).2]
    · rename_i heq
      exact absurd heq (by simp)

/-- Characters are written in a prefix code. -/
theorem jsonEscape_append_inj {d : Char}
    (h : (jsonEscape c).toList ++ s = (jsonEscape d).toList ++ t) : c = d ∧ s = t := by
  have hread := readEscaped_jsonEscape c s
  rw [h, readEscaped_jsonEscape d t] at hread
  obtain ⟨hchar, htext⟩ := Prod.mk.inj (Option.some.inj hread)
  exact ⟨hchar.symm, htext.symm⟩

/-- No written character begins with a quote. -/
theorem quote_ne_jsonEscape : '"' :: s ≠ (jsonEscape c).toList ++ t := by
  intro h
  have hread := readEscaped_jsonEscape c t
  rw [← h] at hread
  obtain ⟨hchar, -⟩ := Prod.mk.inj (Option.some.inj hread)
  subst hchar
  exact absurd (List.cons.inj h).1 (by decide)

/-- The characters of a string between its quotes. -/
def escaped (value : List Char) : List Char := value.flatMap fun c => (jsonEscape c).toList

theorem toList_jsonString (value : String) :
    (jsonString value).toList = '"' :: (escaped value.toList ++ ['"']) := by
  have hjoin : ∀ l : List (List Char), [].intercalate l = l.flatten := by
    intro l
    induction l with
    | nil => rfl
    | cons x l ih =>
      cases l with
      | nil => simp
      | cons y l => rw [intercalate_cons_cons, ih]; simp
  have hlist : ("".intercalate (value.toList.map jsonEscape)).toList = escaped value.toList := by
    rw [String.toList_intercalate, String.toList_empty, hjoin, map_map, escaped, flatMap_def]
    rfl
  rw [jsonString, String.toList_append, String.toList_append, hlist]
  rfl

/-- A string ends at the first quote that no backslash precedes. -/
theorem escaped_append_inj {value other : List Char}
    (h : escaped value ++ '"' :: s = escaped other ++ '"' :: t) : value = other ∧ s = t := by
  induction value generalizing other with
  | nil =>
    cases other with
    | nil => exact ⟨rfl, (List.cons.inj h).2⟩
    | cons d other =>
      rw [escaped, escaped, flatMap_cons, append_assoc] at h
      exact absurd h quote_ne_jsonEscape
  | cons c value ih =>
    cases other with
    | nil =>
      rw [escaped, escaped, flatMap_cons, append_assoc] at h
      exact absurd h.symm quote_ne_jsonEscape
    | cons d other =>
      rw [escaped, escaped, flatMap_cons, flatMap_cons, append_assoc, append_assoc] at h
      obtain ⟨hchar, hrest⟩ := jsonEscape_append_inj h
      obtain ⟨hvalue, htext⟩ := ih hrest
      exact ⟨by rw [hchar, hvalue], htext⟩

/-! ## Texts of values -/

/-- A character of a number or of a name. -/
def isWord (c : Char) : Bool := c.isAlphanum || c = '-'

/-- A character that ends an item. -/
def isStop (c : Char) : Bool := c = ',' || c = ']' || c = '\x7d'

/-- What may follow a value. -/
def Stops (text : List Char) : Prop := ∀ c ∈ text.head?, isStop c = true

/-- Texts, separated by commas. -/
def joined : List (List Char) → List Char
  | [] => []
  | text :: texts => text ++ texts.flatMap fun text => ',' :: text

/-- The text of an entry of a mapping. -/
def entryText (entry : List Char × List Char) : List Char :=
  '"' :: (escaped entry.1 ++ '"' :: ':' :: entry.2)

/-- The texts of values. -/
inductive JsonText : List Char → Prop
  | word (text : List Char) (hne : text ≠ []) (h : ∀ c ∈ text, isWord c = true) : JsonText text
  | string (value : List Char) : JsonText ('"' :: (escaped value ++ ['"']))
  | list (items : List (List Char)) (h : ∀ item ∈ items, JsonText item) :
      JsonText ('[' :: (joined items ++ [']']))
  | mapping (entries : List (List Char × List Char))
      (h : ∀ entry ∈ entries, JsonText entry.2) :
      JsonText ('\x7b' :: (joined (entries.map entryText) ++ ['\x7d']))

/-- Words that end are equal where their texts are. -/
theorem word_append_inj {x y : List Char} (hx : ∀ c ∈ x, isWord c = true)
    (hy : ∀ c ∈ y, isWord c = true) (hs : Stops s) (ht : Stops t) (h : x ++ s = y ++ t) :
    x = y ∧ s = t := by
  have hstop : ∀ c, isStop c = true → isWord c = false := by
    intro c hc
    simp only [isStop, Bool.or_eq_true, decide_eq_true_iff] at hc
    rcases hc with (rfl | rfl) | rfl <;> rfl
  have htake : ∀ x s : List Char, (∀ c ∈ x, isWord c = true) → Stops s →
      (x ++ s).takeWhile isWord = x := by
    intro x s hx hs
    rw [takeWhile_append_of_pos hx]
    cases s with
    | nil => simp
    | cons c s =>
      have hc : isWord c = false := hstop c (hs c (by simp))
      simp [hc]
  have hxy : x = y := by rw [← htake x s hx hs, h, htake y t hy ht]
  subst hxy
  exact ⟨rfl, append_cancel_left h⟩

section Sequence

variable {p : List Char → Prop}

/-- Texts behind commas are read one by one up to the closing bracket. -/
theorem flatMap_comma_inj {items others : List (List Char)} {close : Char}
    (hclose : isStop close = true) (hcomma : close ≠ ',')
    (hitems : ∀ x ∈ items, ∀ y, p y → ∀ s t, Stops s → Stops t → x ++ s = y ++ t → x = y ∧ s = t)
    (hothers : ∀ y ∈ others, p y) (h : (items.flatMap fun x => ',' :: x) ++ close :: s =
      (others.flatMap fun y => ',' :: y) ++ close :: t) : items = others ∧ s = t := by
  have hstops : ∀ (l : List (List Char)) (rest : List Char),
      Stops ((l.flatMap fun x => ',' :: x) ++ close :: rest) := by
    intro l rest c hc
    cases l with
    | nil =>
      obtain rfl : close = c := by simpa using hc
      exact hclose
    | cons x l =>
      obtain rfl : ',' = c := by simpa using hc
      rfl
  induction items generalizing others with
  | nil =>
    cases others with
    | nil => exact ⟨rfl, (List.cons.inj h).2⟩
    | cons y others => exact absurd (List.cons.inj h).1 hcomma
  | cons x items ih =>
    cases others with
    | nil => exact absurd (List.cons.inj h).1.symm hcomma
    | cons y others =>
      rw [flatMap_cons, flatMap_cons, cons_append, cons_append,
        cons_append, cons_append, append_assoc, append_assoc] at h
      rw [forall_mem_cons] at hitems hothers
      obtain ⟨hhead, hrest⟩ := hitems.1 y hothers.1 _ _ (hstops items s) (hstops others t)
        (List.cons.inj h).2
      obtain ⟨htail, htext⟩ := ih hitems.2 hothers.2 hrest
      exact ⟨by rw [hhead, htail], htext⟩

/-- Texts between commas are read one by one up to the closing bracket. -/
theorem joined_inj {items others : List (List Char)} {close : Char} (hclose : isStop close = true)
    (hcomma : close ≠ ',') (hfirst : ∀ y, p y → ∃ c rest, y = c :: rest ∧ isStop c = false) (hitems
      : ∀ x ∈ items, p x ∧ ∀ y, p y → ∀ s t, Stops s → Stops t → x ++ s = y ++ t → x = y ∧ s = t)
    (hothers : ∀ y ∈ others, p y) (h : joined items ++ close :: s = joined others ++ close :: t) :
    items = others ∧ s = t := by
  have hbegins : ∀ y, p y → ∀ rest text, close :: rest ≠ y ++ text := by
    intro y hy rest text heq
    obtain ⟨c, tail, rfl, hc⟩ := hfirst y hy
    rw [(List.cons.inj heq).1, hc] at hclose
    exact Bool.false_ne_true hclose
  cases items with
  | nil =>
    cases others with
    | nil => exact ⟨rfl, (List.cons.inj h).2⟩
    | cons y others =>
      rw [joined, joined, append_assoc] at h
      exact absurd h (hbegins y (hothers y (by simp)) _ _)
  | cons x items =>
    cases others with
    | nil =>
      rw [joined, joined, append_assoc] at h
      exact absurd h.symm (hbegins x (hitems x (by simp)).1 _ _)
    | cons y others =>
      -- in front of a first text there is no comma: put one there on both sides
      have hcommas : ((x :: items).flatMap fun x => ',' :: x) ++ close :: s =
          ((y :: others).flatMap fun y => ',' :: y) ++ close :: t := by
        rw [joined, joined] at h
        rw [flatMap_cons, flatMap_cons, cons_append, cons_append, cons_append, cons_append, h]
      exact flatMap_comma_inj hclose hcomma (fun x hx => (hitems x hx).2) hothers hcommas

end Sequence

/-- The first character of a value. -/
theorem JsonText.first {text : List Char} (h : JsonText text) :
    ∃ c rest, text = c :: rest ∧ isStop c = false := by
  cases h with
  | word text hne hword =>
    obtain ⟨c, rest, rfl⟩ := exists_cons_of_ne_nil hne
    refine ⟨c, rest, rfl, ?_⟩
    have hc := hword c (by simp)
    by_contra hstop
    rw [Bool.not_eq_false, isStop] at hstop
    simp only [Bool.or_eq_true, decide_eq_true_iff] at hstop
    rcases hstop with (rfl | rfl) | rfl <;> exact absurd hc (by decide)
  | string value => exact ⟨_, _, rfl, rfl⟩
  | list items => exact ⟨_, _, rfl, rfl⟩
  | mapping entries => exact ⟨_, _, rfl, rfl⟩

/-- No word begins with another character. -/
theorem isWord_of_append_eq {y : List Char} (hne : y ≠ []) (hy : ∀ d ∈ y, isWord d = true)
    (h : c :: s = y ++ t) : isWord c = true := by
  obtain ⟨d, rest, rfl⟩ := exists_cons_of_ne_nil hne
  rw [(List.cons.inj h).1]
  exact hy d (by simp)

/-- An entry is read in one way, if its value is. -/
theorem entryText_append_inj {entry other : List Char × List Char}
    (hvalue : entry.2 ++ s = other.2 ++ t → entry.2 = other.2 ∧ s = t)
    (h : entryText entry ++ s = entryText other ++ t) : entry = other ∧ s = t := by
  rw [entryText, entryText, cons_append, cons_append, append_assoc, append_assoc] at h
  obtain ⟨hkey, hrest⟩ := escaped_append_inj (List.cons.inj h).2
  obtain ⟨hvalue, htext⟩ := hvalue (List.cons.inj hrest).2
  exact ⟨Prod.ext hkey hvalue, htext⟩

/-- What is followed by a comma, a closing bracket or nothing is read as a value in one way. -/
theorem JsonText.delimited {x : List Char} (hx : JsonText x) :
    ∀ y, JsonText y → ∀ s t, Stops s → Stops t → x ++ s = y ++ t → x = y ∧ s = t := by
  induction hx with
  | word x hne hword =>
    intro y hy s t hs ht h
    obtain ⟨c, rest, rfl⟩ := exists_cons_of_ne_nil hne
    have hc := hword c (by simp)
    cases hy with
    | word y _ hyword => exact word_append_inj hword hyword hs ht h
    | string value => rw [(List.cons.inj h).1] at hc; exact absurd hc (by decide)
    | list items => rw [(List.cons.inj h).1] at hc; exact absurd hc (by decide)
    | mapping entries => rw [(List.cons.inj h).1] at hc; exact absurd hc (by decide)
  | string value =>
    intro y hy s t hs ht h
    cases hy with
    | word y hyne hyword => exact absurd (isWord_of_append_eq hyne hyword h) (by decide)
    | string other =>
      rw [cons_append, cons_append, append_assoc, append_assoc] at h
      obtain ⟨hvalue, hrest⟩ := escaped_append_inj (List.cons.inj h).2
      exact ⟨by rw [hvalue], hrest⟩
    | list items => exact absurd (List.cons.inj h).1 (by decide)
    | mapping entries => exact absurd (List.cons.inj h).1 (by decide)
  | list items hitems ih =>
    intro y hy s t hs ht h
    cases hy with
    | word y hyne hyword => exact absurd (isWord_of_append_eq hyne hyword h) (by decide)
    | string other => exact absurd (List.cons.inj h).1 (by decide)
    | list others hothers =>
      rw [cons_append, cons_append, append_assoc, append_assoc] at h
      obtain ⟨hlist, hrest⟩ := joined_inj rfl (by decide) (fun _ => JsonText.first)
        (fun x hx => ⟨hitems x hx, ih x hx⟩) hothers (List.cons.inj h).2
      exact ⟨by rw [hlist], hrest⟩
    | mapping entries => exact absurd (List.cons.inj h).1 (by decide)
  | mapping entries hentries ih =>
    intro y hy s t hs ht h
    cases hy with
    | word y hyne hyword => exact absurd (isWord_of_append_eq hyne hyword h) (by decide)
    | string other => exact absurd (List.cons.inj h).1 (by decide)
    | list items => exact absurd (List.cons.inj h).1 (by decide)
    | mapping others hothers =>
      rw [cons_append, cons_append, append_assoc, append_assoc] at h
      have hread := joined_inj (p := fun text => ∃ entry, text = entryText entry ∧
        JsonText entry.2) rfl (by decide) ?_ ?_ ?_ (List.cons.inj h).2
      · exact ⟨by rw [hread.1], hread.2⟩
      · rintro _ ⟨entry, rfl, -⟩
        exact ⟨_, _, rfl, rfl⟩
      · intro text htext
        obtain ⟨entry, hentry, rfl⟩ := mem_map.mp htext
        refine ⟨⟨entry, rfl, hentries entry hentry⟩, ?_⟩
        rintro _ ⟨other, rfl, hother⟩ s t hs ht heq
        obtain ⟨hentry, hrest⟩ := entryText_append_inj (ih entry hentry _ hother s t hs ht) heq
        exact ⟨by rw [hentry], hrest⟩
      · intro text htext
        obtain ⟨entry, hentry, rfl⟩ := mem_map.mp htext
        exact ⟨entry, rfl, hothers entry hentry⟩

/-! ## The texts that are written -/

/-- The text of an integer. -/
theorem toList_toString_int (n : ℤ) : (toString n).toList =
    if n < 0 then '-' :: Nat.toDigits 10 n.natAbs else Nat.toDigits 10 n.natAbs := by
  cases n with
  | ofNat m => simp [toString, Int.repr, Nat.repr]
  | negSucc m => simp [toString, Int.repr, Nat.repr, Int.negSucc_lt_zero]

theorem isDigit_of_mem_toDigits {n : ℕ} (hc : c ∈ Nat.toDigits 10 n) :
    c.isDigit = true := Nat.isDigit_of_mem_toDigits (by decide) (by decide) hc

theorem jsonText_int (n : ℤ) : JsonText (toString n).toList := by
  rw [toList_toString_int]
  have hdigits : ∀ c ∈ Nat.toDigits 10 n.natAbs, isWord c = true := by
    intro c hc
    simp [isWord, Char.isAlphanum, isDigit_of_mem_toDigits hc]
  have hne : Nat.toDigits 10 n.natAbs ≠ [] := Nat.toDigits_ne_nil
  split_ifs
  · apply JsonText.word _ (by simp)
    intro c hc
    rcases mem_cons.mp hc with rfl | hc
    · rfl
    · exact hdigits c hc
  · exact JsonText.word _ hne hdigits

/-- Integers are equal where their texts are. -/
theorem toString_int_inj {m n : ℤ} (h : toString m = toString n) : m = n := by
  have hlist := congrArg String.toList h
  rw [toList_toString_int, toList_toString_int] at hlist
  have hdash : ∀ k : ℕ, ∀ text, '-' :: text ≠ Nat.toDigits 10 k := by
    intro k text heq
    have hdigit := isDigit_of_mem_toDigits (n := k) (c := '-') (by rw [← heq]; simp)
    exact absurd hdigit (by decide)
  have habs : Nat.toDigits 10 m.natAbs = Nat.toDigits 10 n.natAbs → m.natAbs = n.natAbs := by
    intro heq
    rw [← Nat.ofDigitChars_toDigits (b := 10) (n := m.natAbs) (by decide) (by decide), heq,
      Nat.ofDigitChars_toDigits (by decide) (by decide)]
  split_ifs at hlist with hm hn hn
  · have := habs (List.cons.inj hlist).2
    omega
  · exact absurd hlist (hdash _ _)
  · exact absurd hlist.symm (hdash _ _)
  · have := habs hlist
    omega

theorem toList_intercalate_comma (texts : List String) :
    (",".intercalate texts).toList = joined (texts.map String.toList) := by
  rw [String.toList_intercalate]
  induction texts with
  | nil => rfl
  | cons text texts ih =>
    cases texts with
    | nil => simp [joined]
    | cons other texts =>
      rw [map_cons, map_cons, intercalate_cons_cons, ← map_cons, ih]
      simp [joined]

/-- The sorted entries of a mapping, as characters. -/
def sortedEntries (entries : List (String × JsonValue)) : List (List Char × List Char) :=
  (sortedBy Prod.fst (dumpsEntries entries)).map fun entry => (entry.1.toList, entry.2.toList)

theorem toList_dumps_list (items : List JsonValue) : (JsonValue.list items).dumps.toList =
    '[' :: (joined ((dumpsItems items).map String.toList) ++ [']']) := by
  rw [JsonValue.dumps, String.toList_append, String.toList_append, toList_intercalate_comma]
  rfl

theorem toList_dumps_mapping (entries : List (String × JsonValue)) :
    (JsonValue.mapping entries).dumps.toList =
      '\x7b' :: (joined ((sortedEntries entries).map entryText) ++ ['\x7d']) := by
  have hentries : ∀ l : List (String × String),
      (l.map fun entry => jsonString entry.1 ++ ":" ++ entry.2).map String.toList =
        (l.map fun entry => (entry.1.toList, entry.2.toList)).map entryText := by
    intro l
    rw [map_map, map_map]
    apply map_congr_left
    intro entry _
    simp [toList_jsonString, entryText]
  rw [JsonValue.dumps, String.toList_append, String.toList_append, toList_intercalate_comma,
    hentries, sortedEntries]
  rfl

mutual

/-- What is written is the text of a value. -/
theorem jsonText_dumps : (value : JsonValue) → JsonText value.dumps.toList
  | .null => by
    rw [JsonValue.dumps]
    exact JsonText.word _ (by decide) (all_eq_true.mp (by decide))
  | .bool value => by
    rw [JsonValue.dumps]
    cases value with
    | false => exact JsonText.word _ (by decide) (all_eq_true.mp (by decide))
    | true => exact JsonText.word _ (by decide) (all_eq_true.mp (by decide))
  | .int value => by
    rw [JsonValue.dumps]
    exact jsonText_int value
  | .text value => by
    rw [JsonValue.dumps, toList_jsonString]
    exact JsonText.string _
  | .list items => by
    rw [toList_dumps_list]
    apply JsonText.list
    intro text htext
    obtain ⟨item, hitem, rfl⟩ := mem_map.mp htext
    exact jsonText_dumpsItems items item hitem
  | .mapping entries => by
    rw [toList_dumps_mapping]
    apply JsonText.mapping
    intro entry hentry
    obtain ⟨item, hitem, rfl⟩ := mem_map.mp hentry
    exact jsonText_dumpsEntries entries item (mem_sortedBy.mp hitem)

theorem jsonText_dumpsItems :
    (items : List JsonValue) → ∀ text ∈ dumpsItems items, JsonText text.toList
  | [], text, htext => by simp [dumpsItems] at htext
  | item :: items, text, htext => by
    rw [dumpsItems] at htext
    rcases mem_cons.mp htext with rfl | htext
    · exact jsonText_dumps item
    · exact jsonText_dumpsItems items text htext

theorem jsonText_dumpsEntries :
    (entries : List (String × JsonValue)) → ∀ entry ∈ dumpsEntries entries,
      JsonText entry.2.toList
  | [], entry, hentry => by simp [dumpsEntries] at hentry
  | (key, value) :: entries, entry, hentry => by
    rw [dumpsEntries] at hentry
    rcases mem_cons.mp hentry with rfl | hentry
    · exact jsonText_dumps value
    · exact jsonText_dumpsEntries entries entry hentry

end

/-! ## What a text determines -/

theorem dumps_int_inj {m n : ℤ} (h : (JsonValue.int m).dumps = (JsonValue.int n).dumps) :
    m = n := by
  rw [JsonValue.dumps, JsonValue.dumps] at h
  exact toString_int_inj h

theorem dumps_text_inj {s t : String} (h : (JsonValue.text s).dumps = (JsonValue.text t).dumps) :
    s = t := by
  rw [JsonValue.dumps, JsonValue.dumps] at h
  have hlist := congrArg String.toList h
  rw [toList_jsonString, toList_jsonString] at hlist
  exact String.toList_injective (escaped_append_inj (List.cons.inj hlist).2).1

/-- The text of a list determines the texts of its items. -/
theorem dumps_list_inj {items others : List JsonValue}
    (h : (JsonValue.list items).dumps = (JsonValue.list others).dumps) :
    items.map JsonValue.dumps = others.map JsonValue.dumps := by
  have hlist := congrArg String.toList h
  rw [toList_dumps_list, toList_dumps_list] at hlist
  have hread := joined_inj rfl (by decide) (fun _ => JsonText.first) ?_ ?_ (List.cons.inj hlist).2
  · rw [← dumpsItems_eq_map, ← dumpsItems_eq_map]
    exact map_injective_iff.mpr (fun _ _ => String.toList_injective) hread.1
  · intro text htext
    obtain ⟨item, hitem, rfl⟩ := mem_map.mp htext
    exact ⟨jsonText_dumpsItems items item hitem, (jsonText_dumpsItems items item hitem).delimited⟩
  · intro text htext
    obtain ⟨item, hitem, rfl⟩ := mem_map.mp htext
    exact jsonText_dumpsItems others item hitem

/-- The text of a mapping determines its sorted keys with the texts of their values. -/
theorem dumps_mapping_inj {entries others : List (String × JsonValue)}
    (h : (JsonValue.mapping entries).dumps = (JsonValue.mapping others).dumps) :
    sortedBy Prod.fst (dumpsEntries entries) = sortedBy Prod.fst (dumpsEntries others) := by
  have hlist := congrArg String.toList h
  rw [toList_dumps_mapping, toList_dumps_mapping] at hlist
  have htexts : ∀ (entries : List (String × JsonValue)),
      ∀ text ∈ (sortedEntries entries).map entryText, ∃ entry, text = entryText entry ∧
        JsonText entry.2 := by
    intro entries text htext
    obtain ⟨entry, hentry, rfl⟩ := mem_map.mp htext
    obtain ⟨item, hitem, rfl⟩ := mem_map.mp hentry
    exact ⟨_, rfl, jsonText_dumpsEntries entries item (mem_sortedBy.mp hitem)⟩
  have hread := joined_inj (p := fun text => ∃ entry, text = entryText entry ∧
    JsonText entry.2) rfl (by decide) ?_ ?_ (htexts others) (List.cons.inj hlist).2
  · have hentry : Function.Injective entryText := by
      intro entry other heq
      have heq : entryText entry ++ [] = entryText other ++ [] := by rw [heq]
      exact (entryText_append_inj (fun heq => ⟨by simpa using heq, rfl⟩) heq).1
    have hsorted := map_injective_iff.mpr hentry hread.1
    refine map_injective_iff.mpr ?_ hsorted
    intro entry other heq
    obtain ⟨hkey, hvalue⟩ := Prod.mk.inj heq
    exact Prod.ext (String.toList_injective hkey) (String.toList_injective hvalue)
  · rintro _ ⟨entry, rfl, -⟩
    exact ⟨_, _, rfl, rfl⟩
  · intro text htext
    refine ⟨htexts entries text htext, ?_⟩
    obtain ⟨entry, rfl, hentry⟩ := htexts entries text htext
    rintro _ ⟨other, rfl, hother⟩ s t hs ht heq
    obtain ⟨hentry, hrest⟩ := entryText_append_inj (hentry.delimited other.2 hother s t hs ht) heq
    exact ⟨by rw [hentry], hrest⟩

/-- The text of a mapping with known keys determines the texts of its values. -/
theorem dumpsEntries_inj {entries others : List (String × JsonValue)}
    (h : (JsonValue.mapping entries).dumps = (JsonValue.mapping others).dumps)
    (hkeys : entries.map Prod.fst = others.map Prod.fst) (hnodup : (entries.map Prod.fst).Nodup) :
    dumpsEntries entries = dumpsEntries others := by
  have hperm : (dumpsEntries entries).Perm (dumpsEntries others) := by
    have hsorted := sortedBy_perm Prod.fst (dumpsEntries entries)
    rw [dumps_mapping_inj h] at hsorted
    exact hsorted.symm.trans (sortedBy_perm Prod.fst (dumpsEntries others))
  have hfst : ∀ entries : List (String × JsonValue),
      (dumpsEntries entries).map Prod.fst = entries.map Prod.fst := by
    intro entries
    rw [dumpsEntries_eq_map, map_map]
    rfl
  exact eq_of_perm_of_map_eq hperm (by rw [hfst, hfst, hkeys]) (by rwa [hfst])

/-! ## One value within another -/

/-- A JSON value with a hole: the value itself, or a hole in an item of a list or in the value
of a key. -/
inductive JsonContext where
  | here
  | item (before : List JsonValue) (inner : JsonContext) (after : List JsonValue)
  | entry (before : List (String × JsonValue)) (key : String) (inner : JsonContext)
      (after : List (String × JsonValue))

/-- The value with the hole filled. -/
def JsonContext.fill : JsonContext → JsonValue → JsonValue
  | here, value => value
  | item before inner after, value => .list (before ++ inner.fill value :: after)
  | entry before key inner after, value => .mapping (before ++ (key, inner.fill value) :: after)

/-- A text determines the text of what fills a hole of the value. -/
theorem dumps_fill_inj {context : JsonContext} {value other : JsonValue}
    (h : (context.fill value).dumps = (context.fill other).dumps) : value.dumps = other.dumps := by
  induction context with
  | here => exact h
  | item before inner after ih =>
    have hitems := dumps_list_inj h
    rw [map_append, map_append, map_cons, map_cons] at hitems
    exact ih (List.cons.inj (append_cancel_left hitems)).1
  | entry before key inner after ih =>
    have hperm := sortedBy_perm Prod.fst (dumpsEntries (before ++ (key, inner.fill value) :: after))
    have hother := sortedBy_perm Prod.fst (dumpsEntries (before ++ (key, inner.fill other) :: after))
    rw [dumps_mapping_inj h] at hperm
    have hentries := hperm.symm.trans hother
    simp only [dumpsEntries_eq_map, map_append, map_cons] at hentries
    rw [perm_append_left_iff, ← Multiset.coe_eq_coe, ← Multiset.cons_coe,
      ← Multiset.cons_coe, Multiset.cons_inj_left] at hentries
    exact ih (Prod.mk.inj hentries).2

end Goodmoneying.Library
