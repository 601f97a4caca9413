import Mathlib.Data.List.DropRight
import Mathlib.Data.Nat.Notation

/-!
# Base32

Bytes as base32 text with the alphabet of RFC 4648: five bytes are eight characters, a last group
of one, two, three or four bytes is two, four, five or seven characters, and the text is padded
with `=` to a multiple of eight.
-/

namespace Goodmoneying.Library

open List

variable {bytes : List ℕ}

/-- The character of a number below 32. -/
def quintetChar (n : ℕ) : Char :=
  if n < 26 then .ofNat (65 + n) else .ofNat (24 + n)

/-- The bits of bytes in groups of five; the last group is filled up with zeros. -/
def quintets : List ℕ → List ℕ
  | [] => []
  | [a] => [a / 8, a % 8 * 4]
  | [a, b] => [a / 8, a % 8 * 4 + b / 64, b / 2 % 32, b % 2 * 16]
  | [a, b, c] => [a / 8, a % 8 * 4 + b / 64, b / 2 % 32, b % 2 * 16 + c / 16, c % 16 * 2]
  | [a, b, c, d] =>
    [a / 8, a % 8 * 4 + b / 64, b / 2 % 32, b % 2 * 16 + c / 16, c % 16 * 2 + d / 128,
      d / 4 % 32, d % 4 * 8]
  | a :: b :: c :: d :: e :: bytes =>
    [a / 8, a % 8 * 4 + b / 64, b / 2 % 32, b % 2 * 16 + c / 16, c % 16 * 2 + d / 128,
      d / 4 % 32, d % 4 * 8 + e / 32, e % 32] ++ quintets bytes

/-- `b32encode`. -/
def b32encode (bytes : List ℕ) : List Char :=
  let digits := (quintets bytes).map quintetChar
  digits ++ List.replicate ((8 - digits.length % 8) % 8) '='

theorem quintets_lt (hbytes : ∀ b ∈ bytes, b < 256) : ∀ n ∈ quintets bytes, n < 32 := by
  fun_induction quintets bytes with
  | case1 => simp
  | case2 a => simp at hbytes ⊢; omega
  | case3 a b => simp at hbytes ⊢; omega
  | case4 a b c => simp at hbytes ⊢; omega
  | case5 a b c d => simp at hbytes ⊢; omega
  | case6 a b c d e bytes ih =>
    have hrest := ih fun b hb => hbytes b (by simp [hb])
    intro n hn
    rcases mem_append.mp hn with hn | hn
    · simp at hbytes hn
      omega
    · exact hrest n hn

/-- Five bits a character. -/
theorem length_quintets (bytes : List ℕ) :
    (quintets bytes).length = (8 * bytes.length + 4) / 5 := by
  fun_induction quintets bytes with
  | case1 => rfl
  | case2 a => simp
  | case3 a b => simp
  | case4 a b c => simp
  | case5 a b c d => simp
  | case6 a b c d e bytes ih =>
    rw [length_append, ih]
    simp only [length_cons, length_nil]
    omega

/-- `lower().rstrip("=")` of an encoded text. -/
def lowerUnpadded (text : List Char) : List Char :=
  (text.map Char.toLower).rdropWhile (· = '=')

theorem quintetChar_toLower_ne_padding {n : ℕ} (hn : n < 32) : (quintetChar n).toLower ≠ '=' := by
  have h : ∀ m : Fin 32, (quintetChar m).toLower ≠ '=' := by decide
  exact h ⟨n, hn⟩

/-- The padding is what is taken away. -/
theorem lowerUnpadded_b32encode (hbytes : ∀ b ∈ bytes, b < 256) :
    lowerUnpadded (b32encode bytes) = (quintets bytes).map fun n => (quintetChar n).toLower := by
  have hplain : ∀ c ∈ ((quintets bytes).map fun n => (quintetChar n).toLower).reverse,
      ¬ c = '=' := by
    intro c hc
    obtain ⟨n, hn, rfl⟩ := mem_map.mp (mem_reverse.mp hc)
    exact quintetChar_toLower_ne_padding (quintets_lt hbytes n hn)
  unfold lowerUnpadded b32encode
  rw [map_append, map_map, map_replicate, show '='.toLower = '=' from by decide,
    List.rdropWhile, reverse_append, reverse_replicate,
    dropWhile_append_of_pos (by simp)]
  change ((((quintets bytes).map fun n => (quintetChar n).toLower).reverse).dropWhile
    fun c => decide (c = '=')).reverse = _
  cases hreverse : ((quintets bytes).map fun n => (quintetChar n).toLower).reverse with
  | nil =>
    rw [reverse_eq_nil_iff.mp hreverse]
    rfl
  | cons c rest =>
    rw [dropWhile_cons_of_neg, ← hreverse, reverse_reverse]
    simpa using hplain c (by rw [hreverse]; exact mem_cons_self)

/-- The lower-case character of a number below 32 determines it. -/
theorem quintetChar_toLower_inj {m n : ℕ} (hm : m < 32) (hn : n < 32)
    (h : (quintetChar m).toLower = (quintetChar n).toLower) : m = n := by
  have hinj : ∀ i j : Fin 32, (quintetChar i).toLower = (quintetChar j).toLower → i = j := by decide
  exact congrArg Fin.val (hinj ⟨m, hm⟩ ⟨n, hn⟩ h)

/-- The groups of five bits determine as many bytes. -/
theorem quintets_inj {other : List ℕ} (hbytes : ∀ b ∈ bytes, b < 256)
    (hother : ∀ b ∈ other, b < 256) (hlength : bytes.length = other.length)
    (h : quintets bytes = quintets other) : bytes = other := by
  fun_induction quintets bytes generalizing other with
  | case1 => exact (length_eq_zero_iff.mp hlength.symm).symm
  | case2 a =>
    obtain ⟨a', rfl⟩ := length_eq_one_iff.mp hlength.symm
    simp [quintets] at h hbytes hother ⊢
    omega
  | case3 a b =>
    obtain ⟨a', b', rfl⟩ := length_eq_two.mp hlength.symm
    simp [quintets] at h hbytes hother ⊢
    omega
  | case4 a b c =>
    obtain ⟨a', b', c', rfl⟩ := length_eq_three.mp hlength.symm
    simp [quintets] at h hbytes hother ⊢
    omega
  | case5 a b c d =>
    match other, hlength with
    | [a', b', c', d'], _ =>
      simp [quintets] at h hbytes hother ⊢
      omega
  | case6 a b c d e bytes ih =>
    match other, hlength with
    | a' :: b' :: c' :: d' :: e' :: other, hlength =>
      rw [quintets] at h
      obtain ⟨hgroup, hrest⟩ := append_inj h rfl
      have htail : bytes = other := ih (fun n hn => hbytes n (by simp [hn]))
        (fun n hn => hother n (by simp [hn])) (by simpa using hlength) hrest
      simp at hgroup hbytes hother ⊢
      exact ⟨by omega, by omega, by omega, by omega, by omega, htail⟩

theorem eq_of_map_eq_of_injOn {α β : Type} {f : α → β} {l m : List α}
    (hinj : ∀ a ∈ l, ∀ b ∈ m, f a = f b → a = b) (h : l.map f = m.map f) : l = m := by
  induction l generalizing m with
  | nil => exact (map_eq_nil_iff.mp h.symm).symm
  | cons a l ih =>
    cases m with
    | nil => cases h
    | cons b m =>
      obtain ⟨hhead, htail⟩ := List.cons.inj h
      rw [hinj a mem_cons_self b mem_cons_self hhead,
        ih (fun c hc d hd =>
          hinj c (mem_cons_of_mem _ hc) d (mem_cons_of_mem _ hd)) htail]

/-- The texts of as many bytes determine the bytes. -/
theorem lowerUnpadded_b32encode_inj {other : List ℕ} (hbytes : ∀ b ∈ bytes, b < 256)
    (hother : ∀ b ∈ other, b < 256) (hlength : bytes.length = other.length)
    (h : lowerUnpadded (b32encode bytes) = lowerUnpadded (b32encode other)) : bytes = other := by
  rw [lowerUnpadded_b32encode hbytes, lowerUnpadded_b32encode hother] at h
  exact quintets_inj hbytes hother hlength (eq_of_map_eq_of_injOn (fun m hm n hn =>
    quintetChar_toLower_inj (quintets_lt hbytes m hm) (quintets_lt hother n hn)) h)

end Goodmoneying.Library
