import Mathlib.Data.List.Lex
import Mathlib.Data.String.Basic
import Mathlib.Tactic.IntervalCases
import Goodmoneying.Library.DigitText

/-!
# The order of texts

Lists compare lexicographically. Texts put together of parts of one length compare part by
part (`append_lt_append_iff`), numbers written with a fixed number of digits compare as
numbers (`fixedDigits_lt_iff`), and a code that keeps the order of letters, whatever follows
them, keeps the order of texts (`flatMap_lt_iff`). UTF-8 is such a code: the byte order of
encoded texts is the order of their code points (`utf8Bytes_lt_iff`).
-/

namespace Goodmoneying.Library

open List

variable {α β : Type} {m n width : ℕ} {l : List α}

/-! ## Parts of one length -/

/-- Lists with parts of one length in front compare by these parts first. -/
theorem append_lt_append_iff [LinearOrder α] {p q s t : List α} (h : p.length = q.length) :
    p ++ s < q ++ t ↔ p < q ∨ p = q ∧ s < t := by
  induction p generalizing q with
  | nil =>
    obtain rfl := length_eq_zero_iff.mp h.symm
    simp
  | cons a p ih =>
    cases q with
    | nil => simp at h
    | cons b q =>
      have hlength : p.length = q.length := by simpa using h
      simp only [cons_append, cons_lt_cons_iff, ih hlength, List.cons.injEq]
      tauto

/-- Lists with the same part in front compare by what follows it. -/
theorem append_le_append [LinearOrder α] {p s t : List α} (h : s ≤ t) : p ++ s ≤ p ++ t := by
  rw [← not_lt, append_lt_append_iff rfl]
  rintro (hlt | ⟨-, hlt⟩)
  · exact lt_irrefl _ hlt
  · exact not_lt.mpr h hlt

/-- Digits compare as their numbers. -/
theorem digitChar_lt_iff (hm : m < 10) (hn : n < 10) :
    Nat.digitChar m < Nat.digitChar n ↔ m < n := by
  interval_cases m <;> interval_cases n <;> decide

/-- Numbers of a fixed number of digits compare as their texts do. -/
theorem fixedDigits_lt_iff (hm : m < 10 ^ width) (hn : n < 10 ^ width) :
    fixedDigits width m < fixedDigits width n ↔ m < n := by
  induction width generalizing m n with
  | zero =>
    rw [pow_zero] at hm hn
    simp [fixedDigits]
    omega
  | succ width ih =>
    rw [pow_succ] at hm hn
    have hmhead : m / 10 < 10 ^ width := by omega
    have hnhead : n / 10 < 10 ^ width := by omega
    have hlength : (fixedDigits width (m / 10)).length = (fixedDigits width (n / 10)).length := by
      rw [length_fixedDigits, length_fixedDigits]
    have hinj : fixedDigits width (m / 10) = fixedDigits width (n / 10) ↔ m / 10 = n / 10 := by
      constructor
      · intro heq
        rcases lt_trichotomy (m / 10) (n / 10) with hlt | heq' | hgt
        · exact absurd ((ih hmhead hnhead).mpr hlt) (heq ▸ lt_irrefl _)
        · exact heq'
        · exact absurd ((ih hnhead hmhead).mpr hgt) (heq ▸ lt_irrefl _)
      · rintro heq
        rw [heq]
    rw [fixedDigits, fixedDigits, append_lt_append_iff hlength, ih hmhead hnhead, hinj,
      cons_lt_cons_iff, digitChar_lt_iff (Nat.mod_lt m (by norm_num))
        (Nat.mod_lt n (by norm_num))]
    simp only [lt_irrefl, and_false, or_false]
    omega

/-- Numbers of a fixed number of digits are equal where their texts are. -/
theorem fixedDigits_inj (hm : m < 10 ^ width) (hn : n < 10 ^ width) :
    fixedDigits width m = fixedDigits width n ↔ m = n := by
  constructor
  · intro h
    rcases lt_trichotomy m n with hlt | heq | hgt
    · exact absurd ((fixedDigits_lt_iff hm hn).mpr hlt) (h ▸ lt_irrefl _)
    · exact heq
    · exact absurd ((fixedDigits_lt_iff hn hm).mpr hgt) (h ▸ lt_irrefl _)
  · rintro rfl
    rfl

/-- A field of digits and what follows it compare as the number and what follows it. -/
theorem fixedDigits_append_lt_iff (hm : m < 10 ^ width) (hn : n < 10 ^ width) (s t : List Char) :
    fixedDigits width m ++ s < fixedDigits width n ++ t ↔ m < n ∨ m = n ∧ s < t := by
  rw [append_lt_append_iff (by rw [length_fixedDigits, length_fixedDigits]),
    fixedDigits_lt_iff hm hn, fixedDigits_inj hm hn]

/-- A separator does not decide. -/
theorem cons_lt_cons_same {c : Char} {s t : List Char} : c :: s < c :: t ↔ s < t := by
  simp

/-! ## Codes -/

/-- A code that keeps the order of letters, whatever follows them, keeps the order of texts. -/
theorem flatMap_lt_iff [LinearOrder α] [LinearOrder β] {code : α → List β} (hne : ∀ a, code a ≠ [])
    (hcode : ∀ a b, a < b → ∀ s t, code a ++ s < code b ++ t) {m : List α} :
    l.flatMap code < m.flatMap code ↔ l < m := by
  have hmono : ∀ l m : List α, l < m → l.flatMap code < m.flatMap code := by
    intro l m h
    induction h with
    | nil =>
      rename_i b m
      obtain ⟨head, tail, htail⟩ := exists_cons_of_ne_nil (hne b)
      simp [htail]
    | cons h ih =>
      rw [flatMap_cons, flatMap_cons]
      exact append_left_lt ih
    | rel h =>
      rw [flatMap_cons, flatMap_cons]
      exact hcode _ _ h _ _
  constructor
  · intro h
    rcases lt_trichotomy l m with hlt | rfl | hgt
    · exact hlt
    · exact absurd h (lt_irrefl _)
    · exact absurd h (hmono m l hgt).asymm
  · exact hmono l m

/-- Lists compare as the lists of the codes of their entries. -/
theorem map_lt_iff [LinearOrder α] [LinearOrder β] {code : α → β}
    (hcode : ∀ a b, code a < code b ↔ a < b) {m : List α} : l.map code < m.map code ↔ l < m := by
  have hmono : ∀ l m : List α, l < m → l.map code < m.map code := fun l m h =>
    List.map_lt (fun a b => (hcode a b).mpr) h
  constructor
  · intro h
    rcases lt_trichotomy l m with hlt | rfl | hgt
    · exact hlt
    · exact absurd h (lt_irrefl _)
    · exact absurd h (hmono m l hgt).asymm
  · exact hmono l m

/-- Such codes determine the list. -/
theorem eq_of_map_eq [LinearOrder α] [LinearOrder β] {code : α → β}
    (hcode : ∀ a b, code a < code b ↔ a < b) {m : List α} (h : l.map code = m.map code) :
    l = m := by
  rcases lt_trichotomy l m with hlt | heq | hgt
  · exact absurd ((map_lt_iff hcode).mpr hlt) (h ▸ lt_irrefl _)
  · exact heq
  · exact absurd ((map_lt_iff hcode).mpr hgt) (h ▸ lt_irrefl _)

/-! ## UTF-8 -/

/-- The bytes of a character, as numbers. -/
def utf8Code (c : Char) : List ℕ := (String.utf8EncodeChar c).map UInt8.toNat

/-- The bytes of a text. -/
def utf8Bytes (text : String) : List ℕ := text.toList.flatMap utf8Code

@[simp] theorem utf8Bytes_append (s t : String) :
    utf8Bytes (s ++ t) = utf8Bytes s ++ utf8Bytes t := by
  simp [utf8Bytes]

/-- The four forms of an encoded character. -/
theorem utf8Code_eq (c : Char) : (c.toNat ≤ 0x7f ∧ utf8Code c = [c.toNat]) ∨
    (0x7f < c.toNat ∧ c.toNat ≤ 0x7ff ∧
      utf8Code c = [c.toNat / 64 + 0xc0, c.toNat % 64 + 0x80]) ∨
    (0x7ff < c.toNat ∧ c.toNat ≤ 0xffff ∧
      utf8Code c = [c.toNat / 4096 + 0xe0, c.toNat / 64 % 64 + 0x80, c.toNat % 64 + 0x80]) ∨
    (0xffff < c.toNat ∧ utf8Code c =
      [c.toNat / 262144 + 0xf0, c.toNat / 4096 % 64 + 0x80, c.toNat / 64 % 64 + 0x80,
        c.toNat % 64 + 0x80]) := by
  have hmax : c.toNat < 0x110000 := by
    rcases c.valid with h | h
    · exact lt_trans h (by norm_num)
    · exact h.2
  have hval : c.val.toNat = c.toNat := rfl
  unfold utf8Code String.utf8EncodeChar
  simp only [hval]
  split_ifs with hone htwo hthree
  · refine Or.inl ⟨hone, ?_⟩
    simp only [map_cons, map_nil, UInt8.toNat_ofNat']
    rw [Nat.mod_eq_of_lt (by omega)]
  · refine Or.inr (Or.inl ⟨by omega, htwo, ?_⟩)
    simp only [map_cons, map_nil, UInt8.toNat_ofNat', List.cons.injEq, and_true]
    omega
  · refine Or.inr (Or.inr (Or.inl ⟨by omega, hthree, ?_⟩))
    simp only [map_cons, map_nil, UInt8.toNat_ofNat', List.cons.injEq, and_true]
    omega
  · refine Or.inr (Or.inr (Or.inr ⟨by omega, ?_⟩))
    simp only [map_cons, map_nil, UInt8.toNat_ofNat', List.cons.injEq, and_true]
    omega

theorem utf8Code_ne_nil (c : Char) : utf8Code c ≠ [] := by
  simp [utf8Code]

/-- The bytes of a greater character are greater, whatever follows them. -/
theorem utf8Code_lt {c d : Char} (h : c < d) (s t : List ℕ) :
    utf8Code c ++ s < utf8Code d ++ t := by
  have hlt : c.toNat < d.toNat := h
  -- codes of one length differ in a digit to the base 64, a longer code has a greater first byte
  have hsame : ∀ {p q : List ℕ}, p.length = q.length → p < q → p ++ s < q ++ t :=
    fun hlength hpq => (append_lt_append_iff hlength).mpr (Or.inl hpq)
  have hfirst : ∀ {m n : ℕ} {p q : List ℕ}, m < n → m :: p < n :: q :=
    fun hmn => cons_lt_cons_iff.mpr (Or.inl hmn)
  rcases utf8Code_eq c with ⟨hc, hcode⟩ | ⟨hc, hc', hcode⟩ | ⟨hc, hc', hcode⟩ | ⟨hc, hcode⟩ <;>
    rcases utf8Code_eq d with ⟨hd, hdcode⟩ | ⟨hd, hd', hdcode⟩ | ⟨hd, hd', hdcode⟩ | ⟨hd, hdcode⟩ <;>
      rw [hcode, hdcode] <;>
        first
          | exact absurd hlt (by omega)
          | exact hfirst (by omega)
          | (refine hsame rfl ?_
             simp only [cons_lt_cons_iff, lt_irrefl, and_false, or_false]
             omega)

/-- The byte order of texts is the order of their code points. -/
theorem utf8Bytes_lt_iff {s t : String} : utf8Bytes s < utf8Bytes t ↔ s < t := by
  rw [String.lt_iff_toList_lt]
  exact flatMap_lt_iff utf8Code_ne_nil fun _ _ h => utf8Code_lt h

/-- The bytes of a text determine it. -/
theorem utf8Bytes_inj {s t : String} (h : utf8Bytes s = utf8Bytes t) : s = t := by
  refine le_antisymm (not_lt.mp ?_) (not_lt.mp ?_)
  · rw [← utf8Bytes_lt_iff, h]
    exact lt_irrefl _
  · rw [← utf8Bytes_lt_iff, h]
    exact lt_irrefl _

/-- The text of bytes in UTF-8. -/
def utf8Text (bytes : List ℕ) : Option String :=
  String.fromUTF8? (bytes.map UInt8.ofNat).toByteArray

/-- Encoded texts decode. -/
theorem utf8Text_utf8Bytes (text : String) : utf8Text (utf8Bytes text) = some text := by
  have hbytes : ((utf8Bytes text).map UInt8.ofNat).toByteArray = text.toByteArray := by
    rw [← String.utf8Encode_toList, List.utf8Encode, utf8Bytes, map_flatMap]
    congr 2
    funext c
    rw [utf8Code, map_map]
    conv_rhs => rw [← map_id (String.utf8EncodeChar c)]
    congr 1
    funext b
    simp
  rw [utf8Text, hbytes, String.fromUTF8?, dif_pos text.isValidUTF8]
  rfl

/-- Bytes are numbers below 256. -/
theorem lt_of_mem_utf8Bytes (text : String) : ∀ b ∈ utf8Bytes text, b < 256 := by
  intro b hb
  obtain ⟨c, -, hb⟩ := mem_flatMap.mp hb
  obtain ⟨byte, -, rfl⟩ := mem_map.mp hb
  exact byte.toNat_lt

end Goodmoneying.Library
