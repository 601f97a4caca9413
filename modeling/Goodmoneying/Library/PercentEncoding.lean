import Mathlib.Data.List.SplitBy
import Goodmoneying.Library.TextOrder

/-!
# Percent-encoded texts

A text is quoted byte by byte in UTF-8: a byte that is safe stands for itself, another one is
written as a percent sign and two hexadecimal digits. Whatever is safe, a quoted text unquotes to
the text with a plus sign for every space (`unquotesTo_quotePlus`), and to the text itself where the
plus signs are read as spaces first (`unquote_spaces_quotePlus`). In bytes that are no UTF-8 each
longest beginning of a character that does not go on is replaced by one mark.
-/

namespace Goodmoneying.Library

open List

variable {b : ℕ} {c : Char} {safe : List Char}

/-- A hexadecimal digit. -/
def upperHexDigit (n : ℕ) : Char := (Nat.digitChar n).toUpper

/-- The value of a hexadecimal digit in either case. -/
def hexDigitValue (c : Char) : Option ℕ :=
  if '0' ≤ c ∧ c ≤ '9' then some (c.toNat - 48)
  else if 'A' ≤ c ∧ c ≤ 'F' then some (c.toNat - 55)
  else if 'a' ≤ c ∧ c ≤ 'f' then some (c.toNat - 87)
  else none

/-- `%XX`. -/
def percentByte (b : ℕ) : List Char := ['%', upperHexDigit (b / 16), upperHexDigit (b % 16)]

/-- The characters that are never quoted. -/
def alwaysSafe (c : Char) : Bool := c.isAlphanum || c ∈ ['_', '.', '-', '~']

/-- A byte, quoted. -/
def quoteByte (safe : List Char) (b : ℕ) : List Char :=
  if b < 128 ∧ (alwaysSafe (Char.ofNat b) ∨ Char.ofNat b ∈ safe) then [Char.ofNat b]
  else percentByte b

/-- `quote(text, safe)`. -/
def quote (safe : List Char) (text : String) : List Char := (utf8Bytes text).flatMap (quoteByte safe)

/-- A space as a plus sign. -/
def plusForSpace (c : Char) : Char := if c = ' ' then '+' else c

/-- A plus sign as a space. -/
def spaceForPlus (c : Char) : Char := if c = '+' then ' ' else c

/-- `quote_plus(text, safe)`. -/
def quotePlus (safe : List Char) (text : String) : List Char :=
  (quote (' ' :: safe) text).map plusForSpace

/-- A character of which some bytes were read: how many are missing, the bounds of the next one, and
the number that the bytes so far are. -/
structure BegunCharacter where
  missing : ℕ
  low : ℕ
  high : ℕ
  value : ℕ

/-- The mark in the place of bytes that are no UTF-8. -/
def replacementCharacter : Char := Char.ofNat 0xFFFD

/-- A byte with which a character begins. -/
def firstByte (b : ℕ) : List Char × Option BegunCharacter :=
  if b < 0x80 then ([Char.ofNat b], none)
  else if b < 0xc2 then ([replacementCharacter], none)
  else if b < 0xe0 then ([], some ⟨1, 0x80, 0xbf, b - 0xc0⟩)
  else if b < 0xf0 then
    ([], some ⟨2, if b = 0xe0 then 0xa0 else 0x80, if b = 0xed then 0x9f else 0xbf, b - 0xe0⟩)
  else if b < 0xf5 then
    ([], some ⟨3, if b = 0xf0 then 0x90 else 0x80, if b = 0xf4 then 0x8f else 0xbf, b - 0xf0⟩)
  else ([replacementCharacter], none)

/-- The next byte. -/
def decodeByte (begun : Option BegunCharacter) (b : ℕ) : List Char × Option BegunCharacter :=
  match begun with
  | none => firstByte b
  | some begun =>
    if begun.low ≤ b ∧ b ≤ begun.high then
      let value := begun.value * 64 + (b - 0x80)
      if begun.missing = 1 then ([Char.ofNat value], none)
      else ([], some ⟨begun.missing - 1, 0x80, 0xbf, value⟩)
    else
      -- the byte does not belong to the begun character, and may begin one
      let next := firstByte b
      (replacementCharacter :: next.1, next.2)

/-- The characters of the bytes that follow a begun character. -/
def decodeFrom : Option BegunCharacter → List ℕ → List Char
  | begun, [] => if begun.isSome then [replacementCharacter] else []
  | begun, b :: bytes => (decodeByte begun b).1 ++ decodeFrom (decodeByte begun b).2 bytes

/-- `bytes.decode("utf-8", "replace")`. -/
def decodeReplace (bytes : List ℕ) : List Char := decodeFrom none bytes

/-- `unquote_to_bytes(text)`: a percent sign without two digits stands for itself. -/
def unquoteToBytes : List Char → List ℕ
  | [] => []
  | c :: rest =>
    match c, rest with
    | '%', first :: second :: rest =>
      match hexDigitValue first, hexDigitValue second with
      | some high, some low => (16 * high + low) :: unquoteToBytes rest
      | _, _ => utf8Code '%' ++ unquoteToBytes (first :: second :: rest)
    | c, rest => utf8Code c ++ unquoteToBytes rest

/-- `unquote(text)`: the runs of characters of ASCII are unquoted, the others stay. -/
def unquote (text : List Char) : List Char :=
  (text.splitBy fun c d => decide (c.toNat < 128) = decide (d.toNat < 128)).flatMap fun run =>
    if run.all fun c => c.toNat < 128 then decodeReplace (unquoteToBytes run) else run

theorem decodeByte_next {missing low high value : ℕ} (hlow : low ≤ b) (hhigh : b ≤ high)
    (hmissing : missing ≠ 1) : decodeByte (some ⟨missing, low, high, value⟩) b =
      ([], some ⟨missing - 1, 0x80, 0xbf, value * 64 + (b - 0x80)⟩) := by
  simp only [decodeByte, hlow, hhigh, and_self, if_true, hmissing, if_false]

theorem decodeByte_last {low high value : ℕ} (hlow : low ≤ b) (hhigh : b ≤ high) :
    decodeByte (some ⟨1, low, high, value⟩) b = ([Char.ofNat (value * 64 + (b - 0x80))], none) := by
  simp only [decodeByte, hlow, hhigh, and_self, if_true]

/-- The bytes of a character decode to it. -/
theorem decodeFrom_utf8Code (c : Char) (bytes : List ℕ) :
    decodeFrom none (utf8Code c ++ bytes) = c :: decodeFrom none bytes := by
  have hvalid : c.toNat < 0xd800 ∨ 0xdfff < c.toNat ∧ c.toNat < 0x110000 := c.valid
  rcases utf8Code_eq c with ⟨hc, hcode⟩ | ⟨hc, hc', hcode⟩ | ⟨hc, hc', hcode⟩ | ⟨hc, hcode⟩ <;>
    rw [hcode] <;> simp only [cons_append, nil_append, decodeFrom]
  · have hfirst : decodeByte none c.toNat = ([c], none) := by
      rw [decodeByte, firstByte, if_pos (by omega), Char.ofNat_toNat]
    rw [hfirst, singleton_append]
  · have hfirst : decodeByte none (c.toNat / 64 + 0xc0) =
        ([], some ⟨1, 0x80, 0xbf, c.toNat / 64⟩) := by
      rw [decodeByte, firstByte, if_neg (by omega), if_neg (by omega), if_pos (by omega),
        Nat.add_sub_cancel]
    have hvalue : c.toNat / 64 * 64 + (c.toNat % 64 + 0x80 - 0x80) = c.toNat := by omega
    rw [hfirst, decodeByte_last (by omega) (by omega), hvalue, Char.ofNat_toNat,
      nil_append, singleton_append]
  · -- the surrogates are no characters, which bounds the second byte
    have hfirst : decodeByte none (c.toNat / 4096 + 0xe0) =
        ([], some ⟨2, if c.toNat / 4096 = 0 then 0xa0 else 0x80,
          if c.toNat / 4096 = 13 then 0x9f else 0xbf, c.toNat / 4096⟩) := by
      rw [decodeByte, firstByte, if_neg (by omega), if_neg (by omega), if_neg (by omega),
        if_pos (by omega), Nat.add_sub_cancel]
      simp
    have hvalue : (c.toNat / 4096 * 64 + (c.toNat / 64 % 64 + 0x80 - 0x80)) * 64 +
        (c.toNat % 64 + 0x80 - 0x80) = c.toNat := by omega
    rw [hfirst, decodeByte_next (by split_ifs <;> omega) (by split_ifs <;> omega) (by decide),
      decodeByte_last (by omega) (by omega), hvalue, Char.ofNat_toNat, nil_append,
      nil_append, singleton_append]
  · have hfirst : decodeByte none (c.toNat / 262144 + 0xf0) =
        ([], some ⟨3, if c.toNat / 262144 = 0 then 0x90 else 0x80,
          if c.toNat / 262144 = 4 then 0x8f else 0xbf, c.toNat / 262144⟩) := by
      rw [decodeByte, firstByte, if_neg (by omega), if_neg (by omega), if_neg (by omega),
        if_neg (by omega), if_pos (by omega), Nat.add_sub_cancel]
      simp
    have hvalue : ((c.toNat / 262144 * 64 + (c.toNat / 4096 % 64 + 0x80 - 0x80)) * 64 +
        (c.toNat / 64 % 64 + 0x80 - 0x80)) * 64 + (c.toNat % 64 + 0x80 - 0x80) = c.toNat := by omega
    rw [hfirst, decodeByte_next (by split_ifs <;> omega) (by split_ifs <;> omega) (by decide),
      decodeByte_next (by omega) (by omega) (by decide),
      decodeByte_last (by omega) (by omega), hvalue, Char.ofNat_toNat, nil_append,
      nil_append, nil_append, singleton_append]

/-- The bytes of a text decode to it. -/
theorem decodeReplace_utf8 (text : List Char) : decodeReplace (text.flatMap utf8Code) = text := by
  induction text with
  | nil => rfl
  | cons c text ih =>
    rw [decodeReplace, flatMap_cons, decodeFrom_utf8Code]
    exact congrArg _ ih

/-- Whatever follows it, the quoted text unquotes to the bytes. -/
def UnquotesTo (quoted : List Char) (bytes : List ℕ) : Prop :=
  ∀ rest, unquoteToBytes (quoted ++ rest) = bytes ++ unquoteToBytes rest

namespace UnquotesTo

theorem nil : UnquotesTo [] [] := fun _ => rfl

/-- Quoted texts unquote one after the other. -/
theorem append {quoted others : List Char} {bytes more : List ℕ} (h : UnquotesTo quoted bytes)
    (hothers : UnquotesTo others more) : UnquotesTo (quoted ++ others) (bytes ++ more) := by
  intro rest
  rw [append_assoc, h, hothers, append_assoc]

/-- Quoted items unquote one after the other. -/
theorem flatMap {α : Type} {items : List α} {quoted : α → List Char} {bytes : α → List ℕ}
    (h : ∀ item ∈ items, UnquotesTo (quoted item) (bytes item)) :
    UnquotesTo (items.flatMap quoted) (items.flatMap bytes) := by
  induction items with
  | nil => exact nil
  | cons item items ih =>
    rw [forall_mem_cons] at h
    rw [flatMap_cons, flatMap_cons]
    exact h.1.append (ih h.2)

theorem unquoteToBytes_eq {quoted : List Char} {bytes : List ℕ} (h : UnquotesTo quoted bytes) :
    unquoteToBytes quoted = bytes := by
  simpa [unquoteToBytes] using h []

end UnquotesTo

/-- A character that is no percent sign stands for itself. -/
theorem unquotesTo_character (hc : c ≠ '%') : UnquotesTo [c] (utf8Code c) := by
  intro rest
  rw [singleton_append, unquoteToBytes]
  exact fun _ _ _ heq _ => absurd heq hc

theorem hexDigitValue_upperHexDigit : ∀ n < 16, hexDigitValue (upperHexDigit n) = some n := by
  decide

theorem unquotesTo_percentByte (hb : b < 256) : UnquotesTo (percentByte b) [b] := by
  intro rest
  rw [percentByte, cons_append, cons_append, singleton_append, unquoteToBytes,
    hexDigitValue_upperHexDigit _ (by omega), hexDigitValue_upperHexDigit _ (by omega)]
  dsimp only
  rw [Nat.div_add_mod, singleton_append]

theorem toNat_ofNat : ∀ b < 128, (Char.ofNat b).toNat = b := by decide

theorem utf8Code_ofNat (hb : b < 128) : utf8Code (Char.ofNat b) = [b] := by
  have htoNat := toNat_ofNat b hb
  rcases utf8Code_eq (Char.ofNat b) with ⟨-, h⟩ | ⟨h, -⟩ | ⟨h, -⟩ | ⟨h, -⟩
  · rw [h, htoNat]
  · omega
  · omega
  · omega

/-- The bytes of a character outside ASCII are no bytes of ASCII. -/
theorem le_of_mem_utf8Code (hc : ¬ c.toNat < 128) : ∀ b ∈ utf8Code c, 128 ≤ b := by
  rcases utf8Code_eq c with ⟨h, hcode⟩ | ⟨h, h', hcode⟩ | ⟨h, h', hcode⟩ | ⟨h, hcode⟩ <;>
    rw [hcode] <;> simp only [forall_mem_cons, not_mem_nil, false_implies, implies_true,
      and_true] <;> omega

/-- A quoted byte is a safe character, or written in characters that are always safe. -/
theorem mem_quoteByte (hb : b < 256) (h : c ∈ quoteByte safe b) :
    c.toNat < 128 ∧ (alwaysSafe c ∨ c = '%' ∨ c ∈ safe) := by
  have hdigit : ∀ n < 16, (upperHexDigit n).toNat < 128 ∧ alwaysSafe (upperHexDigit n) := by decide
  rw [quoteByte] at h
  split_ifs at h with hsafe
  · obtain rfl := mem_singleton.mp h
    rw [toNat_ofNat b hsafe.1]
    exact ⟨hsafe.1, hsafe.2.imp id Or.inr⟩
  · simp only [percentByte, mem_cons, not_mem_nil, or_false] at h
    rcases h with rfl | rfl | rfl
    · exact ⟨by decide, Or.inr (Or.inl rfl)⟩
    · exact ⟨(hdigit _ (by omega)).1, Or.inl (hdigit _ (by omega)).2⟩
    · exact ⟨(hdigit _ (by omega)).1, Or.inl (hdigit _ (by omega)).2⟩

/-- A safe byte stands for its character, another one is written with a percent sign. -/
theorem quoteByte_cases (safe : List Char) (b : ℕ) :
    (b < 128 ∧ (alwaysSafe (Char.ofNat b) ∨ Char.ofNat b ∈ safe) ∧
      quoteByte safe b = [Char.ofNat b]) ∨
    ¬ (b < 128 ∧ Char.ofNat b ∈ safe) ∧ quoteByte safe b = percentByte b := by
  unfold quoteByte
  split_ifs with h
  · exact Or.inl ⟨h.1, h.2, rfl⟩
  · exact Or.inr ⟨fun hsafe => h ⟨hsafe.1, Or.inr hsafe.2⟩, rfl⟩

/-- The characters of a quoted byte are no spaces and no plus signs. -/
theorem map_percentByte (f : Char → Char) (hf : ∀ c, c ≠ ' ' → c ≠ '+' → f c = c) (hb : b < 256) :
    (percentByte b).map f = percentByte b := by
  have hdigit : ∀ n < 16, upperHexDigit n ≠ ' ' ∧ upperHexDigit n ≠ '+' := by decide
  have hhigh := hdigit (b / 16) (by omega)
  have hlow := hdigit (b % 16) (by omega)
  simp only [percentByte, map_cons, map_nil, hf _ hhigh.1 hhigh.2, hf _ hlow.1 hlow.2,
    hf '%' (by decide) (by decide)]

/-- A space in a quoted text is read as a plus sign. -/
theorem unquotesTo_plusForSpace (hpercent : '%' ∉ safe) (hb : b < 256) :
    UnquotesTo ((quoteByte (' ' :: safe) b).map plusForSpace) [if b = 32 then 43 else b] := by
  rcases quoteByte_cases (' ' :: safe) b with ⟨hlt, hsafe, h⟩ | ⟨hnot, h⟩ <;> rw [h]
  · rw [map_singleton, plusForSpace]
    have hspace : Char.ofNat b = ' ' ↔ b = 32 := by
      constructor
      · intro heq
        rw [← toNat_ofNat b hlt, heq]
        rfl
      · rintro rfl
        rfl
    rw [← utf8Code_ofNat (by split_ifs <;> omega)]
    by_cases h32 : b = 32
    · rw [if_pos (hspace.mpr h32), if_pos h32]
      exact unquotesTo_character (by decide)
    · rw [if_neg (mt hspace.mp h32), if_neg h32]
      refine unquotesTo_character fun heq => ?_
      rw [heq] at hsafe
      simp [hpercent, alwaysSafe] at hsafe
  · have h32 : b ≠ 32 := fun heq => hnot (heq ▸ ⟨by decide, mem_cons_self⟩)
    rw [map_percentByte plusForSpace (fun c hc _ => if_neg hc) hb, if_neg h32]
    exact unquotesTo_percentByte hb

/-- Where the plus signs are read as spaces first, the byte is read back. -/
theorem unquotesTo_spaceForPlus (hpercent : '%' ∉ safe) (hplus : '+' ∉ safe) (hb : b < 256) :
    UnquotesTo (((quoteByte (' ' :: safe) b).map plusForSpace).map spaceForPlus) [b] := by
  rcases quoteByte_cases (' ' :: safe) b with ⟨hlt, hsafe, h⟩ | ⟨-, h⟩ <;> rw [h]
  · rw [map_singleton, map_singleton]
    have hne : Char.ofNat b ≠ '+' ∧ Char.ofNat b ≠ '%' := by
      constructor <;> intro heq <;> rw [heq] at hsafe <;> simp [hpercent, hplus, alwaysSafe] at hsafe
    have hback : spaceForPlus (plusForSpace (Char.ofNat b)) = Char.ofNat b := by
      unfold plusForSpace
      split_ifs with hspace
      · rw [hspace]
        rfl
      · exact if_neg hne.1
    rw [hback, ← utf8Code_ofNat hlt]
    exact unquotesTo_character hne.2
  · rw [map_percentByte plusForSpace (fun c hc _ => if_neg hc) hb,
      map_percentByte spaceForPlus (fun c _ hc => if_neg hc) hb]
    exact unquotesTo_percentByte hb

theorem quotePlus_eq (safe : List Char) (text : String) : quotePlus safe text =
      (utf8Bytes text).flatMap fun b => (quoteByte (' ' :: safe) b).map plusForSpace := by
  rw [quotePlus, quote, map_flatMap]

/-- The bytes of a character with a plus sign for a space. -/
theorem map_utf8Code (c : Char) :
    (utf8Code c).map (fun b => if b = 32 then 43 else b) = utf8Code (plusForSpace c) := by
  by_cases hc : c.toNat < 128
  · rw [← Char.ofNat_toNat c, utf8Code_ofNat hc]
    have hall : ∀ n < 128, [n].map (fun b => if b = 32 then 43 else b) =
        utf8Code (plusForSpace (Char.ofNat n)) := by decide
    exact hall _ hc
  · have hspace : c ≠ ' ' := fun heq => hc (heq ▸ by decide)
    rw [plusForSpace, if_neg hspace]
    refine (map_congr_left fun b hb => ?_).trans (map_id _)
    have hle := le_of_mem_utf8Code hc b hb
    exact if_neg (by omega)

/-- A quoted text unquotes to the text with a plus sign for every space. -/
theorem unquotesTo_quotePlus (hpercent : '%' ∉ safe) (text : String) :
    UnquotesTo (quotePlus safe text) ((text.toList.map plusForSpace).flatMap utf8Code) := by
  have hbytes : (text.toList.map plusForSpace).flatMap utf8Code =
      (utf8Bytes text).flatMap fun b => [if b = 32 then 43 else b] := by
    rw [utf8Bytes, flatMap_map, flatMap_assoc]
    refine flatMap_congr fun c _ => ?_
    rw [← map_utf8Code]
    exact map_eq_flatMap
  rw [quotePlus_eq, hbytes]
  exact .flatMap fun b hb => unquotesTo_plusForSpace hpercent (lt_of_mem_utf8Bytes text b hb)

/-- The characters of a quoted text. -/
theorem mem_quotePlus {text : String} (h : c ∈ quotePlus safe text) :
    c.toNat < 128 ∧ (alwaysSafe c ∨ c = '%' ∨ c = '+' ∨ c ∈ safe) := by
  rw [quotePlus_eq] at h
  obtain ⟨b, hb, h⟩ := mem_flatMap.mp h
  obtain ⟨d, hd, rfl⟩ := mem_map.mp h
  obtain ⟨hlt, hd⟩ := mem_quoteByte (lt_of_mem_utf8Bytes text b hb) hd
  unfold plusForSpace
  split_ifs with hspace
  · exact ⟨by decide, Or.inr (Or.inr (Or.inl rfl))⟩
  · refine ⟨hlt, ?_⟩
    rcases hd with hd | hd | hd
    · exact Or.inl hd
    · exact Or.inr (Or.inl hd)
    · exact Or.inr (Or.inr (Or.inr ((mem_cons.mp hd).resolve_left hspace)))

/-- A text of ASCII is unquoted as a whole. -/
theorem unquote_ascii {text : List Char} (h : ∀ c ∈ text, c.toNat < 128) :
    unquote text = decodeReplace (unquoteToBytes text) := by
  by_cases hne : text = []
  · rw [hne]
    rfl
  · have hchain : text.IsChain fun c d =>
        decide (decide (c.toNat < 128) = decide (d.toNat < 128)) = true := by
      refine List.Pairwise.isChain (List.Pairwise.imp_of_mem (fun hc hd _ => ?_)
        (pairwise_of_forall fun _ _ => trivial))
      simp [h _ hc, h _ hd]
    rw [unquote, splitBy_of_isChain hne hchain, flatMap_singleton, if_pos (by simpa using h)]

/-- A quoted text is read back where its plus signs are read as spaces first. -/
theorem unquote_spaces_quotePlus (hpercent : '%' ∉ safe) (hplus : '+' ∉ safe) (text : String) :
    unquote ((quotePlus safe text).map spaceForPlus) = text.toList := by
  have hascii : ∀ c ∈ (quotePlus safe text).map spaceForPlus, c.toNat < 128 := by
    intro c hc
    obtain ⟨d, hd, rfl⟩ := mem_map.mp hc
    unfold spaceForPlus
    split_ifs
    · decide
    · exact (mem_quotePlus hd).1
  have hunquotes : UnquotesTo ((quotePlus safe text).map spaceForPlus) (utf8Bytes text) := by
    have h := UnquotesTo.flatMap fun b hb =>
      unquotesTo_spaceForPlus hpercent hplus (lt_of_mem_utf8Bytes text b hb)
    rw [flatMap_singleton'] at h
    rwa [quotePlus_eq, map_flatMap]
  rw [unquote_ascii hascii, hunquotes.unquoteToBytes_eq, utf8Bytes, decodeReplace_utf8]

end Goodmoneying.Library
