import Mathlib.Data.List.DropRight
import Mathlib.Tactic.IntervalCases

/-!
# Base64 with the URL-safe alphabet

Bytes are numbers below 256. `b64decode` reads as `binascii.a2b_base64` does when it is not
strict: characters outside the alphabet are passed over, and padding that fills a group of four
ends the text. Padding may be taken away and put back (`padded_unpadded`), and what is encoded
decodes (`b64decode_b64encode`).
-/

namespace Goodmoneying.Library

open List

variable (text : List Char) (bytes : List ℕ)

/-- The character of a number below 64. -/
def sextetChar (n : ℕ) : Char :=
  if n < 26 then .ofNat (65 + n)
  else if n < 52 then .ofNat (97 + (n - 26))
  else if n < 62 then .ofNat (48 + (n - 52))
  else if n = 62 then '-' else '_'

/-- The number of a character; `+` and `/` of the standard alphabet are read too. -/
def charSextet (c : Char) : Option ℕ :=
  if c.isUpper then some (c.toNat - 65)
  else if c.isLower then some (c.toNat - 97 + 26)
  else if c.isDigit then some (c.toNat - 48 + 52)
  else if c = '-' ∨ c = '+' then some 62
  else if c = '_' ∨ c = '/' then some 63
  else none

theorem charSextet_sextetChar {n : ℕ} (hn : n < 64) : charSextet (sextetChar n) = some n := by
  have h : ∀ m : Fin 64, charSextet (sextetChar m) = some m.val := by decide
  exact h ⟨n, hn⟩

/-- No digit is padding. -/
theorem sextetChar_ne_padding (n : ℕ) : sextetChar n ≠ '=' := by
  have h : ∀ m : Fin 64, sextetChar m ≠ '=' := by decide
  by_cases hn : n < 64
  · exact h ⟨n, hn⟩
  · rw [sextetChar, if_neg (by omega), if_neg (by omega), if_neg (by omega), if_neg (by omega)]
    decide

/-- The digits of bytes, three by three. -/
def b64digits : List ℕ → List Char
  | [] => []
  | [a] => [sextetChar (a / 4), sextetChar (a % 4 * 16)]
  | [a, b] => [sextetChar (a / 4), sextetChar (a % 4 * 16 + b / 16), sextetChar (b % 16 * 4)]
  | a :: b :: c :: bytes =>
    sextetChar (a / 4) :: sextetChar (a % 4 * 16 + b / 16) :: sextetChar (b % 16 * 4 + c / 64) ::
      sextetChar (c % 64) :: b64digits bytes

/-- A text filled up to a multiple of four characters. -/
def padded : List Char :=
  text ++ List.replicate ((4 - text.length % 4) % 4) '='

/-- `urlsafe_b64encode`. -/
def b64encode : List Char := padded (b64digits bytes)

/-- `rstrip("=")`. -/
def unpadded : List Char := text.rdropWhile (· = '=')

theorem padding_not_mem_b64digits : '=' ∉ b64digits bytes := by
  fun_induction b64digits bytes with
  | case1 => exact not_mem_nil
  | case2 a => simp [(sextetChar_ne_padding _).symm]
  | case3 a b => simp [(sextetChar_ne_padding _).symm]
  | case4 a b c bytes ih => simp [(sextetChar_ne_padding _).symm, ih]

theorem unpadded_b64encode : unpadded (b64encode bytes) = b64digits bytes := by
  have hdigits : ∀ c ∈ (b64digits bytes).reverse, ¬ c = '=' := by
    rintro c hc rfl
    exact padding_not_mem_b64digits bytes (mem_reverse.mp hc)
  rw [unpadded, b64encode, padded, List.rdropWhile, reverse_append, reverse_replicate,
    dropWhile_append_of_pos (by simp)]
  cases hreverse : (b64digits bytes).reverse with
  | nil => rw [reverse_eq_nil_iff.mp hreverse]; rfl
  | cons c rest =>
    rw [dropWhile_cons_of_neg, ← hreverse, reverse_reverse]
    simpa using hdigits c (by rw [hreverse]; exact mem_cons_self)

/-- Padding that has been taken away can be put back. -/
theorem padded_unpadded : padded (unpadded (b64encode bytes)) = b64encode bytes := by
  rw [unpadded_b64encode, b64encode]

/-- `binascii.a2b_base64`: `quad` digits of a group have been read, `left` are the bits of them
that no byte holds yet, `pads` counts the padding since. -/
def a2bBase64 : List Char → ℕ → ℕ → ℕ → Option (List ℕ)
  | [], quad, _, _ => if quad = 0 then some [] else none
  | c :: text, quad, pads, left =>
    if c = '=' then
      if 2 ≤ quad ∧ 4 ≤ quad + (pads + 1) then some []
      else a2bBase64 text quad (if 2 ≤ quad then pads + 1 else pads) left
    else
      match charSextet c with
      | none => a2bBase64 text quad pads left
      | some n =>
        match quad with
        | 0 => a2bBase64 text 1 0 n
        | 1 => (a2bBase64 text 2 0 (n % 16)).map (List.cons (left * 4 + n / 16))
        | 2 => (a2bBase64 text 3 0 (n % 4)).map (List.cons (left * 16 + n / 4))
        | _ => (a2bBase64 text 0 0 0).map (List.cons (left * 64 + n))

/-- `urlsafe_b64decode`. -/
def b64decode : Option (List ℕ) := a2bBase64 text 0 0 0

theorem a2bBase64_sextet {n : ℕ} (hn : n < 64) (text : List Char) (quad pads left : ℕ) :
    a2bBase64 (sextetChar n :: text) quad pads left =
      match quad with
      | 0 => a2bBase64 text 1 0 n
      | 1 => (a2bBase64 text 2 0 (n % 16)).map (List.cons (left * 4 + n / 16))
      | 2 => (a2bBase64 text 3 0 (n % 4)).map (List.cons (left * 16 + n / 4))
      | _ => (a2bBase64 text 0 0 0).map (List.cons (left * 64 + n)) := by
  rw [a2bBase64, if_neg (sextetChar_ne_padding n), charSextet_sextetChar hn]

section Group

variable {w x y z : ℕ}

/-- A whole group gives three bytes. -/
theorem a2bBase64_group (hw : w < 64) (hx : x < 64) (hy : y < 64) (hz : z < 64)
    (text : List Char) :
    a2bBase64 (sextetChar w :: sextetChar x :: sextetChar y :: sextetChar z :: text) 0 0 0 =
      (a2bBase64 text 0 0 0).map fun bytes =>
        (w * 4 + x / 16) :: (x % 16 * 16 + y / 4) :: (y % 4 * 64 + z) :: bytes := by
  simp only [a2bBase64_sextet hw, a2bBase64_sextet hx, a2bBase64_sextet hy, a2bBase64_sextet hz,
    Option.map_map]
  rfl

/-- A last group of two digits gives one byte. -/
theorem a2bBase64_two (hw : w < 64) (hx : x < 64) :
    a2bBase64 [sextetChar w, sextetChar x, '=', '='] 0 0 0 = some [w * 4 + x / 16] := by
  simp only [a2bBase64_sextet hw, a2bBase64_sextet hx]
  rfl

/-- A last group of three digits gives two bytes. -/
theorem a2bBase64_three (hw : w < 64) (hx : x < 64) (hy : y < 64) :
    a2bBase64 [sextetChar w, sextetChar x, sextetChar y, '='] 0 0 0 =
      some [w * 4 + x / 16, x % 16 * 16 + y / 4] := by
  simp only [a2bBase64_sextet hw, a2bBase64_sextet hx, a2bBase64_sextet hy]
  rfl

end Group

/-- What is encoded decodes. -/
theorem b64decode_b64encode {bytes : List ℕ} (hbytes : ∀ b ∈ bytes, b < 256) :
    b64decode (b64encode bytes) = some bytes := by
  unfold b64decode b64encode
  fun_induction b64digits bytes with
  | case1 => rfl
  | case2 a =>
    have ha : a < 256 := hbytes a (by simp)
    have hbyte : a / 4 * 4 + a % 4 * 16 / 16 = a := by omega
    exact (a2bBase64_two (by omega) (by omega)).trans (by rw [hbyte])
  | case3 a b =>
    have ha : a < 256 := hbytes a (by simp)
    have hb : b < 256 := hbytes b (by simp)
    have hfirst : a / 4 * 4 + (a % 4 * 16 + b / 16) / 16 = a := by omega
    have hsecond : (a % 4 * 16 + b / 16) % 16 * 16 + b % 16 * 4 / 4 = b := by omega
    exact (a2bBase64_three (by omega) (by omega) (by omega)).trans (by rw [hfirst, hsecond])
  | case4 a b c bytes ih =>
    have ha : a < 256 := hbytes a (by simp)
    have hb : b < 256 := hbytes b (by simp)
    have hc : c < 256 := hbytes c (by simp)
    have hfirst : a / 4 * 4 + (a % 4 * 16 + b / 16) / 16 = a := by omega
    have hsecond : (a % 4 * 16 + b / 16) % 16 * 16 + (b % 16 * 4 + c / 64) / 4 = b := by omega
    have hthird : (b % 16 * 4 + c / 64) % 4 * 64 + c % 64 = c := by omega
    have hpadded : ∀ p q r s : Char, ∀ digits : List Char,
        padded (p :: q :: r :: s :: digits) = p :: q :: r :: s :: padded digits := by
      intro p q r s digits
      simp only [padded, length_cons, Nat.add_assoc, Nat.reduceAdd, Nat.add_mod_right]
      rfl
    rw [hpadded, a2bBase64_group (by omega) (by omega) (by omega) (by omega),
      ih fun d hd => hbytes d (by simp [hd]), Option.map_some, hfirst, hsecond, hthird]

end Goodmoneying.Library
