import Mathlib.Algebra.Order.Floor.Div
import Goodmoneying.Program.LiveOrderIdentity

/-!
# Identifiers of live orders agree and collide

The loop of the database holds at most twelve bits between its rounds, and five bytes of it are the
eight characters of a group (`p6Base32lowerNoPadding_eq`), so both sides compute one identifier. Two
orders share it exactly where one account continues the other by the separator and a beginning of
its key, so that the texts of account and key are the same.
-/

namespace Goodmoneying.Analysis.LiveOrderIdentity

open List Library Program Program.LiveOrderIdentity
open EncoderState

variable {buffer byteValue : ℕ} {s : EncoderState} {value : List ℕ} {output : List Char}
  {sha : Sha256} {account key account' key' : String}

/-! ## The buffer -/

/-- The buffer holds as many bits as are counted, and never held more than thirteen. -/
structure Fits (s : EncoderState) : Prop where
  buffer : s.buffer < 2 ^ s.bitCount
  buffers : ∀ b ∈ s.buffers, b < 2 ^ 13

theorem shiftLeft_or_byte (hbyte : byteValue < 256) :
    buffer <<< 8 ||| byteValue = buffer * 256 + byteValue := by
  rw [← Nat.shiftLeft_add_eq_or_of_lt (show byteValue < 2 ^ 8 from hbyte), Nat.shiftLeft_eq]

theorem and_mask (n k : ℕ) : n &&& (1 <<< k - 1) = n % 2 ^ k := by
  rw [Nat.one_shiftLeft, Nat.and_two_pow_sub_one_eq_mod]

theorem Fits.shiftIn (h : Fits s) (hcount : s.bitCount < 5) (hbyte : byteValue < 256) :
    Fits (s.shiftIn byteValue) := by
  have hbuffer := h.buffer
  have hnew : s.buffer * 256 + byteValue < 2 ^ (s.bitCount + 8) := by
    rw [pow_add]
    omega
  have hlimit : 2 ^ (s.bitCount + 8) ≤ 2 ^ 13 := Nat.pow_le_pow_right (by decide) (by omega)
  unfold EncoderState.shiftIn
  rw [shiftLeft_or_byte hbyte]
  refine ⟨hnew, fun b hb => ?_⟩
  rcases mem_append.mp hb with hb | hb
  · exact h.buffers b hb
  · obtain rfl := mem_singleton.mp hb
    exact lt_of_lt_of_le hnew hlimit

theorem Fits.emit (h : Fits s) (hcount : s.bitCount ≤ 13) : Fits s.emit := by
  have hmod : s.buffer % 2 ^ (s.bitCount - 5) < 2 ^ (s.bitCount - 5) :=
    Nat.mod_lt _ (Nat.two_pow_pos _)
  unfold EncoderState.emit
  dsimp only
  rw [and_mask]
  refine ⟨hmod, fun b hb => ?_⟩
  rcases mem_append.mp hb with hb | hb
  · exact h.buffers b hb
  · obtain rfl := mem_singleton.mp hb
    exact lt_of_lt_of_le hmod (Nat.pow_le_pow_right (by decide) (by omega))

theorem Fits.emitAll (h : Fits s) (hcount : s.bitCount ≤ 13) :
    Fits s.emitAll ∧ s.emitAll.bitCount < 5 := by
  fun_induction EncoderState.emitAll s with
  | case1 s hfull ih => exact ih (h.emit hcount) ((Nat.sub_le _ _).trans hcount)
  | case2 s hfew => exact ⟨h, not_le.mp hfew⟩

theorem Fits.encodeByte (h : Fits s) (hcount : s.bitCount < 5) (hbyte : byteValue < 256) :
    Fits (s.encodeByte byteValue) ∧ (s.encodeByte byteValue).bitCount < 5 :=
  (h.shiftIn hcount hbyte).emitAll (by change s.bitCount + 8 ≤ 13; omega)

theorem fits_encodeLoop (hvalue : ∀ b ∈ value, b < 256) :
    Fits (encodeLoop value) ∧ (encodeLoop value).bitCount < 5 := by
  induction value using List.reverseRecOn with
  | nil => exact ⟨⟨Nat.zero_lt_one, fun b hb => by cases hb⟩, Nat.zero_lt_succ 4⟩
  | append_singleton value b ih =>
    obtain ⟨hfits, hcount⟩ := ih fun c hc => hvalue c (mem_append_left _ hc)
    unfold encodeLoop at *
    rw [foldl_append]
    exact hfits.encodeByte hcount (hvalue b (by simp))

/-! ## The characters -/

/-- The lower-case character of five bits. -/
def quintetText (n : ℕ) : Char := (quintetChar n).toLower

theorem substrOne_alphabet {n : ℕ} (hn : n < 32) :
    substrOne alphabet (n + 1) = [quintetText n] := by
  have h : ∀ m : Fin 32, substrOne alphabet (m + 1) = [quintetText m] := by decide +kernel
  exact h ⟨n, hn⟩

/-- The variables, without the past of the buffer. -/
structure At (s : EncoderState) (output : List Char) (buffer bitCount : ℕ) : Prop where
  output : s.output = output
  buffer : s.buffer = buffer
  bitCount : s.bitCount = bitCount

section Rounds

variable {s : EncoderState} {output : List Char} {buffer bitCount byteValue : ℕ}

theorem At.shiftIn (h : At s output buffer bitCount) (hbyte : byteValue < 256) :
    At (s.shiftIn byteValue) output (buffer * 256 + byteValue) (bitCount + 8) := by
  refine ⟨h.output, ?_, congrArg (· + 8) h.bitCount⟩
  rw [← h.buffer, ← shiftLeft_or_byte hbyte]
  rfl

theorem At.emit (h : At s output buffer bitCount) (hfull : 5 ≤ bitCount)
    (hbuffer : buffer < 2 ^ bitCount) :
    At s.emit (output ++ [quintetText (buffer / 2 ^ (bitCount - 5))])
      (buffer % 2 ^ (bitCount - 5)) (bitCount - 5) := by
  have hindex : buffer / 2 ^ (bitCount - 5) < 32 := by
    rw [Nat.div_lt_iff_lt_mul (Nat.two_pow_pos _), show 32 = 2 ^ 5 from rfl, ← pow_add,
      Nat.add_sub_cancel' hfull]
    exact hbuffer
  unfold EncoderState.emit
  rw [h.output, h.buffer, h.bitCount]
  refine ⟨?_, and_mask _ _, rfl⟩
  dsimp only
  rw [Nat.shiftRight_eq_div_pow, show 31 = 2 ^ 5 - 1 from rfl, Nat.and_two_pow_sub_one_eq_mod,
    Nat.mod_eq_of_lt hindex, substrOne_alphabet hindex]

theorem At.emitAll_of_lt (h : At s output buffer bitCount) (hfew : bitCount < 5) :
    At s.emitAll output buffer bitCount := by
  rw [EncoderState.emitAll, if_neg (by rw [h.bitCount]; omega)]
  exact h

theorem At.emitAll_of_le {output' : List Char} {buffer' bitCount' : ℕ}
    (h : At s output buffer bitCount) (hfull : 5 ≤ bitCount)
    (hemit : At s.emit.emitAll output' buffer' bitCount') :
    At s.emitAll output' buffer' bitCount' := by
  rw [EncoderState.emitAll, if_pos (by rw [h.bitCount]; exact hfull)]
  exact hemit

/-- A byte that gives one character. -/
theorem At.byte_one (h : At s output buffer bitCount) (hbuffer : buffer < 2 ^ bitCount)
    (hcount : bitCount < 2) (hbyte : byteValue < 256) : At (s.encodeByte byteValue)
      (output ++ [quintetText ((buffer * 256 + byteValue) / 2 ^ (bitCount + 3))])
      ((buffer * 256 + byteValue) % 2 ^ (bitCount + 3)) (bitCount + 3) := by
  have hshift := h.shiftIn hbyte
  have hnew : buffer * 256 + byteValue < 2 ^ (bitCount + 8) := by
    rw [pow_add]
    omega
  have hemit := hshift.emit (by omega) hnew
  exact hshift.emitAll_of_le (by omega) (hemit.emitAll_of_lt (by omega))

/-- A byte that gives two characters. -/
theorem At.byte_two (h : At s output buffer bitCount) (hbuffer : buffer < 2 ^ bitCount)
    (hcount : 2 ≤ bitCount) (hlt : bitCount < 5) (hbyte : byteValue < 256) :
    At (s.encodeByte byteValue)
      (output ++ [quintetText ((buffer * 256 + byteValue) / 2 ^ (bitCount + 3)),
        quintetText ((buffer * 256 + byteValue) % 2 ^ (bitCount + 3) / 2 ^ (bitCount - 2))])
      ((buffer * 256 + byteValue) % 2 ^ (bitCount + 3) % 2 ^ (bitCount - 2)) (bitCount - 2) := by
  have hshift := h.shiftIn hbyte
  have hnew : buffer * 256 + byteValue < 2 ^ (bitCount + 8) := by
    rw [pow_add]
    omega
  have hfirst := hshift.emit (by omega) hnew
  have hsecond := hfirst.emit (by omega) (Nat.mod_lt _ (Nat.two_pow_pos _))
  have hcounts : bitCount + 8 - 5 = bitCount + 3 ∧ bitCount + 3 - 5 = bitCount - 2 :=
    ⟨by omega, by omega⟩
  rw [hcounts.1] at hfirst hsecond
  rw [hcounts.2, append_assoc] at hsecond
  exact hshift.emitAll_of_le (by omega)
    (hfirst.emitAll_of_le (by omega) (hsecond.emitAll_of_lt (by omega)))

/-! A byte after each number of bits that are left over. -/

theorem At.byte_zero (h : At s output 0 0) (hbyte : byteValue < 256) :
    At (s.encodeByte byteValue) (output ++ [quintetText (byteValue / 8)]) (byteValue % 8) 3 := by
  have hnext := h.byte_one Nat.zero_lt_one (by omega) hbyte
  rwa [Nat.zero_mul, Nat.zero_add] at hnext

theorem At.byte_three (h : At s output buffer 3) (hbuffer : buffer < 8) (hbyte : byteValue < 256) :
    At (s.encodeByte byteValue)
      (output ++ [quintetText (buffer * 4 + byteValue / 64), quintetText (byteValue / 2 % 32)])
      (byteValue % 2) 1 := by
  have hnext := h.byte_two hbuffer (by omega) (by omega) hbyte
  simp only [Nat.reduceAdd, Nat.reduceSub, Nat.reducePow] at hnext
  rwa [show (buffer * 256 + byteValue) / 64 = buffer * 4 + byteValue / 64 by omega,
    show (buffer * 256 + byteValue) % 64 / 2 = byteValue / 2 % 32 by omega,
    show (buffer * 256 + byteValue) % 64 % 2 = byteValue % 2 by omega] at hnext

theorem At.byte_bit (h : At s output buffer 1) (hbuffer : buffer < 2) (hbyte : byteValue < 256) :
    At (s.encodeByte byteValue) (output ++ [quintetText (buffer * 16 + byteValue / 16)])
      (byteValue % 16) 4 := by
  have hnext := h.byte_one hbuffer (by omega) hbyte
  simp only [Nat.reduceAdd, Nat.reducePow] at hnext
  rwa [show (buffer * 256 + byteValue) / 16 = buffer * 16 + byteValue / 16 by omega,
    show (buffer * 256 + byteValue) % 16 = byteValue % 16 by omega] at hnext

theorem At.byte_four (h : At s output buffer 4) (hbuffer : buffer < 16) (hbyte : byteValue < 256) :
    At (s.encodeByte byteValue)
      (output ++ [quintetText (buffer * 2 + byteValue / 128), quintetText (byteValue / 4 % 32)])
      (byteValue % 4) 2 := by
  have hnext := h.byte_two hbuffer (by omega) (by omega) hbyte
  simp only [Nat.reduceAdd, Nat.reduceSub, Nat.reducePow] at hnext
  rwa [show (buffer * 256 + byteValue) / 128 = buffer * 2 + byteValue / 128 by omega,
    show (buffer * 256 + byteValue) % 128 / 4 = byteValue / 4 % 32 by omega,
    show (buffer * 256 + byteValue) % 128 % 4 = byteValue % 4 by omega] at hnext

theorem At.byte_two_bits (h : At s output buffer 2) (hbuffer : buffer < 4)
    (hbyte : byteValue < 256) : At (s.encodeByte byteValue)
      (output ++ [quintetText (buffer * 8 + byteValue / 32), quintetText (byteValue % 32)])
      0 0 := by
  have hnext := h.byte_two hbuffer (by omega) (by omega) hbyte
  simp only [Nat.reduceAdd, Nat.reduceSub, Nat.reducePow, Nat.div_one, Nat.mod_one] at hnext
  rwa [show (buffer * 256 + byteValue) / 32 = buffer * 8 + byteValue / 32 by omega,
    show (buffer * 256 + byteValue) % 32 = byteValue % 32 by omega] at hnext

end Rounds

/-! ## The text -/

/-- The end of `p6_base32lower_no_padding`. -/
def finish (s : EncoderState) : List Char :=
  if 0 < s.bitCount then
    s.output ++ substrOne alphabet ((s.buffer <<< (5 - s.bitCount) &&& 31) + 1)
  else s.output

theorem finish_of_zero (h : At s output buffer 0) : finish s = output := by
  unfold finish
  rw [h.bitCount, if_neg (lt_irrefl 0), h.output]

/-- Bits that are left over are filled up with zeros. -/
theorem finish_of_pos {bitCount : ℕ} (h : At s output buffer bitCount) (hpos : 0 < bitCount)
    (hlt : bitCount < 5) (hbuffer : buffer < 2 ^ bitCount) :
    finish s = output ++ [quintetText (buffer * 2 ^ (5 - bitCount))] := by
  have hfilled : buffer * 2 ^ (5 - bitCount) < 32 := by
    calc buffer * 2 ^ (5 - bitCount) < 2 ^ bitCount * 2 ^ (5 - bitCount) :=
          Nat.mul_lt_mul_of_pos_right hbuffer (Nat.two_pow_pos _)
      _ = 2 ^ 5 := by rw [← pow_add, Nat.add_sub_cancel' hlt.le]
  unfold finish
  rw [h.bitCount, if_pos hpos, h.output, h.buffer, Nat.shiftLeft_eq, show 31 = 2 ^ 5 - 1 from rfl,
    Nat.and_two_pow_sub_one_eq_mod, Nat.mod_eq_of_lt hfilled, substrOne_alphabet hfilled]

/-- From a border of groups on, the loop writes the groups. -/
theorem finish_foldl_encodeByte (h : At s output 0 0) (hvalue : ∀ b ∈ value, b < 256) :
    finish (value.foldl EncoderState.encodeByte s) =
      output ++ (quintets value).map quintetText := by
  fun_induction quintets value generalizing s output with
  | case1 => simpa using finish_of_zero h
  | case2 a =>
    simp only [forall_mem_cons] at hvalue
    have ha := h.byte_zero hvalue.1
    have hend := finish_of_pos ha (by omega) (by omega) (Nat.mod_lt _ (by decide))
    simpa using hend
  | case3 a b =>
    simp only [forall_mem_cons] at hvalue
    have ha := h.byte_zero hvalue.1
    have hb := ha.byte_three (Nat.mod_lt _ (by decide)) hvalue.2.1
    have hend := finish_of_pos hb (by omega) (by omega) (Nat.mod_lt _ (by decide))
    simpa using hend
  | case4 a b c =>
    simp only [forall_mem_cons] at hvalue
    have ha := h.byte_zero hvalue.1
    have hb := ha.byte_three (Nat.mod_lt _ (by decide)) hvalue.2.1
    have hc := hb.byte_bit (Nat.mod_lt _ (by decide)) hvalue.2.2.1
    have hend := finish_of_pos hc (by omega) (by omega) (Nat.mod_lt _ (by decide))
    simpa using hend
  | case5 a b c d =>
    simp only [forall_mem_cons] at hvalue
    have ha := h.byte_zero hvalue.1
    have hb := ha.byte_three (Nat.mod_lt _ (by decide)) hvalue.2.1
    have hc := hb.byte_bit (Nat.mod_lt _ (by decide)) hvalue.2.2.1
    have hd := hc.byte_four (Nat.mod_lt _ (by decide)) hvalue.2.2.2.1
    have hend := finish_of_pos hd (by omega) (by omega) (Nat.mod_lt _ (by decide))
    simpa using hend
  | case6 a b c d e value ih =>
    simp only [forall_mem_cons] at hvalue
    obtain ⟨hva, hvb, hvc, hvd, hve, hrest⟩ := hvalue
    have ha := h.byte_zero hva
    have hb := ha.byte_three (Nat.mod_lt _ (by decide)) hvb
    have hc := hb.byte_bit (Nat.mod_lt _ (by decide)) hvc
    have hd := hc.byte_four (Nat.mod_lt _ (by decide)) hvd
    have he := hd.byte_two_bits (Nat.mod_lt _ (by decide)) hve
    simpa using ih he hrest

/-- The SQL function is lower-case base32 without padding. -/
theorem p6Base32lowerNoPadding_eq (hvalue : ∀ b ∈ value, b < 256) :
    p6Base32lowerNoPadding value = lowerUnpadded (b32encode value) := by
  rw [lowerUnpadded_b32encode hvalue]
  have hstart : At EncoderState.start [] 0 0 := ⟨rfl, rfl, rfl⟩
  exact finish_foldl_encodeByte hstart hvalue

theorem length_p6Base32lowerNoPadding (hvalue : ∀ b ∈ value, b < 256) :
    (p6Base32lowerNoPadding value).length = 8 * value.length ⌈/⌉ 5 := by
  rw [p6Base32lowerNoPadding_eq hvalue, lowerUnpadded_b32encode hvalue, length_map,
    length_quintets, Nat.ceilDiv_eq_add_pred_div]
  rfl

/-! ## Identifiers -/

/-- A text that `_non_blank` lets pass. -/
def Plain (value : String) : Prop := value ≠ "" ∧ value = strip value

instance (value : String) : Decidable (Plain value) := inferInstanceAs (Decidable (_ ∧ _))

theorem nonBlankText_eq_ok {value fieldName text : String} :
    nonBlankText value fieldName = .ok text ↔ Plain value ∧ text = value := by
  unfold nonBlankText Plain
  split_ifs with hempty hspace
  · simp [hempty]
  · simp [hspace]
  · rw [not_not] at hspace
    constructor
    · intro h
      exact ⟨⟨hempty, hspace⟩, (Except.ok.inj h).symm⟩
    · rintro ⟨-, rfl⟩
      rfl

/-- The text of a digest. -/
def identifierText (sha : Sha256) (account key : String) : List Char :=
  lowerUnpadded (b32encode (sha.digest (utf8Bytes (account ++ ":" ++ key))))

theorem isIdentifierChar_quintetText {n : ℕ} (hn : n < 32) :
    isIdentifierChar (quintetText n) = true := by
  have h : ∀ m : Fin 32, isIdentifierChar (quintetText m) = true := by decide
  exact h ⟨n, hn⟩

theorem isUpbitLiveOrderIdentifier_text (sha : Sha256) (account key : String) :
    isUpbitLiveOrderIdentifier ("gm1_" ++ String.ofList (identifierText sha account key)) =
      true := by
  have hdigest := sha.digest_lt (utf8Bytes (account ++ ":" ++ key))
  have hchars : ("gm1_" ++ String.ofList (identifierText sha account key)).toList =
      "gm1_".toList ++ identifierText sha account key := by
    simp only [String.toList_append, String.toList_ofList]
  have hstart : "gm1_".toList.length = 4 := rfl
  have hlength : (identifierText sha account key).length = 52 := by
    unfold identifierText
    rw [lowerUnpadded_b32encode hdigest, length_map, length_quintets, sha.length_digest]
  unfold isUpbitLiveOrderIdentifier
  rw [hchars, take_left' hstart, drop_left' hstart, hlength]
  simp only [decide_true, Bool.true_and, all_eq_true]
  intro c hc
  unfold identifierText at hc
  rw [lowerUnpadded_b32encode hdigest] at hc
  obtain ⟨n, hn, rfl⟩ := mem_map.mp hc
  exact isIdentifierChar_quintetText (quintets_lt hdigest n hn)

/-- An identifier is the text of the digest, and it always has the form of one. -/
theorem derive_eq_ok {identifier : String} :
    deriveUpbitLiveOrderIdentifier sha account key = .ok identifier ↔ Plain account ∧ Plain key ∧
        identifier = "gm1_" ++ String.ofList (identifierText sha account key) := by
  unfold deriveUpbitLiveOrderIdentifier
  constructor
  · intro h
    obtain ⟨_, haccount, h⟩ := bind_eq_ok.mp h
    obtain ⟨hplain, haccount⟩ := nonBlankText_eq_ok.mp haccount
    obtain ⟨_, hkey, h⟩ := bind_eq_ok.mp h
    obtain ⟨hplain', hkey⟩ := nonBlankText_eq_ok.mp hkey
    rw [haccount, hkey] at h
    have hform := isUpbitLiveOrderIdentifier_text sha account key
    unfold identifierText at hform
    dsimp only at h
    rw [if_pos hform] at h
    exact ⟨hplain, hplain', (pure_eq_ok.mp h).symm⟩
  · rintro ⟨haccount, hkey, rfl⟩
    have hform := isUpbitLiveOrderIdentifier_text sha account key
    unfold identifierText at hform ⊢
    rw [nonBlankText_eq_ok.mpr ⟨haccount, rfl⟩, nonBlankText_eq_ok.mpr ⟨hkey, rfl⟩, ok_bind,
      ok_bind]
    dsimp only
    rw [if_pos hform]
    rfl

theorem p6UpbitLiveOrderIdentifier_eq (sha : Sha256) (account key : String) :
    p6UpbitLiveOrderIdentifier sha account key =
      "gm1_" ++ String.ofList (identifierText sha account key) := by
  unfold p6UpbitLiveOrderIdentifier identifierText
  rw [p6Base32lowerNoPadding_eq (sha.digest_lt _)]

theorem validate_eq_ok {new : LiveOrderIdentifier} :
    validateP6LiveOrderIdentifier sha account key new = .ok () ↔
      new = ⟨key, p6UpbitLiveOrderIdentifier sha account key⟩ := by
  obtain ⟨newKey, identifier⟩ := new
  unfold validateP6LiveOrderIdentifier
  split_ifs with hkey hidentifier
  · simp [hkey]
  · simp [hidentifier]
  · rw [not_not] at hkey hidentifier
    exact iff_of_true rfl (LiveOrderIdentifier.mk.injEq .. ▸ ⟨hkey, hidentifier⟩)

/-- The loop of the database writes the base32 text with a buffer of at most thirteen bits, and
the trigger accepts the identifier that is derived and no other.
SOURCE: 20260718000900_p6_order_identity_separation.sql:95-133; live_order_identity.py:10-21 -/
theorem base32_agrees (value : List ℕ) (hvalue : ∀ b ∈ value, b < 256) (sha : Sha256)
    (account key identifier : String)
    (hderive : deriveUpbitLiveOrderIdentifier sha account key = .ok identifier) :
    p6Base32lowerNoPadding value = lowerUnpadded (b32encode value) ∧
    (∀ buffer ∈ (encodeLoop value).buffers, buffer < 2 ^ 13) ∧
    (p6Base32lowerNoPadding value).length = 8 * value.length ⌈/⌉ 5 ∧
    ∀ new, validateP6LiveOrderIdentifier sha account key new = .ok () ↔
      new = ⟨key, identifier⟩ := by
  refine ⟨p6Base32lowerNoPadding_eq hvalue, (fits_encodeLoop hvalue).1.buffers,
    length_p6Base32lowerNoPadding hvalue, fun new => ?_⟩
  obtain ⟨-, -, rfl⟩ := derive_eq_ok.mp hderive
  rw [validate_eq_ok, p6UpbitLiveOrderIdentifier_eq]

/-- A digest of zeros. -/
def zeroDigest : Sha256 where
  digest := fun _ => List.replicate 32 0
  length_digest := fun _ => length_replicate
  digest_lt := fun _ _ hb => (eq_of_mem_replicate hb).symm ▸ Nat.two_pow_pos 8

theorem base32_agrees_short : p6Base32lowerNoPadding [102, 111] = "mzxq".toList ∧
    lowerUnpadded (b32encode [102, 111]) = "mzxq".toList ∧
    validateP6LiveOrderIdentifier zeroDigest "account-1" "intent-1"
      ⟨"intent-1", "gm1_" ++ String.ofList (List.replicate 52 'a')⟩ = .ok () := by
  have hderive : deriveUpbitLiveOrderIdentifier zeroDigest "account-1" "intent-1" =
      .ok ("gm1_" ++ String.ofList (List.replicate 52 'a')) :=
    derive_eq_ok.mpr ⟨by decide, by decide, by decide +kernel⟩
  have hagrees := base32_agrees [102, 111] (by simp) zeroDigest _ _ _ hderive
  exact ⟨hagrees.1.trans (by decide), by decide, (hagrees.2.2.2 _).mpr rfl⟩

/-! ## Collisions -/

/-- One account is the other with the separator and a beginning of its key. -/
def Continues (account key account' key' : String) : Prop :=
  ∃ middle, account' = account ++ ":" ++ middle ∧ key = middle ++ ":" ++ key'

/-- What the longer of two accounts has more is nothing, or the separator and a beginning of the
other's key. -/
theorem continues_of_append {rest : List Char} (haccount : account'.toList = account.toList ++ rest)
    (hkey : ':' :: key.toList = rest ++ ':' :: key'.toList) :
    (account, key) = (account', key') ∨ Continues account key account' key' := by
  cases rest with
  | nil =>
    rw [append_nil] at haccount
    rw [nil_append, cons_inj_right] at hkey
    rw [String.toList_inj.mp haccount, String.toList_inj.mp hkey]
    exact Or.inl rfl
  | cons c middle =>
    obtain ⟨rfl, htail⟩ := List.cons.inj hkey
    replace htail : key.toList = middle ++ ':' :: key'.toList := htail
    refine Or.inr ⟨String.ofList middle, String.toList_inj.mp ?_, String.toList_inj.mp ?_⟩
    · simp [haccount]
    · simp [htail]

/-- The hashed texts of two orders are the same where the orders are, or one account continues the
other. -/
theorem text_eq_iff : account ++ ":" ++ key = account' ++ ":" ++ key' ↔
      (account, key) = (account', key') ∨ Continues account key account' key' ∨
        Continues account' key' account key := by
  constructor
  · intro h
    have hlist : account.toList ++ ':' :: key.toList = account'.toList ++ ':' :: key'.toList := by
      simpa using congrArg String.toList h
    rcases append_eq_append_iff.mp hlist with ⟨rest, haccount, hkey⟩ | ⟨rest, haccount, hkey⟩
    · rcases continues_of_append haccount hkey with heq | hcontinues
      · exact Or.inl heq
      · exact Or.inr (Or.inl hcontinues)
    · rcases continues_of_append haccount hkey with heq | hcontinues
      · exact Or.inl heq.symm
      · exact Or.inr (Or.inr hcontinues)
  · rintro (heq | ⟨middle, rfl, rfl⟩ | ⟨middle, rfl, rfl⟩)
    · obtain ⟨rfl, rfl⟩ := Prod.mk.inj heq
      rfl
    · simp only [String.append_assoc]
    · simp only [String.append_assoc]

theorem identifierText_inj (hsha : sha.digest (utf8Bytes (account ++ ":" ++ key)) = sha.digest
      (utf8Bytes (account' ++ ":" ++ key')) → account ++ ":" ++ key = account' ++ ":" ++ key') :
    identifierText sha account key = identifierText sha account' key' ↔
      account ++ ":" ++ key = account' ++ ":" ++ key' := by
  constructor
  · intro h
    have hlength := (sha.length_digest (utf8Bytes (account ++ ":" ++ key))).trans
      (sha.length_digest (utf8Bytes (account' ++ ":" ++ key'))).symm
    exact hsha (lowerUnpadded_b32encode_inj (sha.digest_lt _) (sha.digest_lt _) hlength h)
  · intro h
    unfold identifierText
    rw [h]

/-- Every identifier has the form of one. Those of two different orders differ, unless one account
continues the other, and the orders of one account all have identifiers of their own.
SOURCE: live_order_identity.py:10-33; 20260718000900_p6_order_identity_separation.sql:5-21, 125-133
-/
theorem identifiers_distinct {sha : Sha256}
    {account key account' key' identifier identifier' : String}
    (hderive : deriveUpbitLiveOrderIdentifier sha account key = .ok identifier)
    (hderive' : deriveUpbitLiveOrderIdentifier sha account' key' = .ok identifier')
    (hsha : sha.digest (utf8Bytes (account ++ ":" ++ key)) =
      sha.digest (utf8Bytes (account' ++ ":" ++ key')) →
      account ++ ":" ++ key = account' ++ ":" ++ key') :
    isUpbitLiveOrderIdentifier identifier ∧ isUpbitLiveOrderIdentifier identifier' ∧
    (identifier = identifier' ↔ (account, key) = (account', key') ∨
      Continues account key account' key' ∨ Continues account' key' account key) ∧
    (account = account' → key ≠ key' → identifier ≠ identifier') := by
  obtain ⟨-, -, rfl⟩ := derive_eq_ok.mp hderive
  obtain ⟨-, -, rfl⟩ := derive_eq_ok.mp hderive'
  have heq : "gm1_" ++ String.ofList (identifierText sha account key) =
      "gm1_" ++ String.ofList (identifierText sha account' key') ↔
      account ++ ":" ++ key = account' ++ ":" ++ key' := by
    rw [← identifierText_inj hsha, String.append_right_inj, String.ofList_inj]
  refine ⟨isUpbitLiveOrderIdentifier_text .., isUpbitLiveOrderIdentifier_text ..,
    heq.trans text_eq_iff, ?_⟩
  rintro rfl hkey h
  exact hkey (String.append_right_inj _ |>.mp (heq.mp h))

/-- A digest that tells the texts of the example apart. -/
def lengthDigest : Sha256 where
  digest := fun bytes => (bytes.length % 256) :: List.replicate 31 0
  length_digest := fun _ => rfl
  digest_lt := by
    intro bytes b hb
    rcases mem_cons.mp hb with rfl | hb
    · exact Nat.mod_lt _ (Nat.two_pow_pos 8)
    · exact (eq_of_mem_replicate hb).symm ▸ Nat.two_pow_pos 8

/-- Two keys of one account. -/
theorem identifiers_distinct_keys : ∃ identifier identifier',
      deriveUpbitLiveOrderIdentifier lengthDigest "upbit" "bot:1" = .ok identifier ∧
      deriveUpbitLiveOrderIdentifier lengthDigest "upbit" "bot:10" = .ok identifier' ∧
      identifier ≠ identifier' := by
  have hderive : ∀ key, Plain key → deriveUpbitLiveOrderIdentifier lengthDigest "upbit" key =
      .ok ("gm1_" ++ String.ofList (identifierText lengthDigest "upbit" key)) :=
    fun _ hkey => derive_eq_ok.mpr ⟨by decide, hkey, rfl⟩
  have hshort := hderive "bot:1" (by decide)
  have hlong := hderive "bot:10" (by decide)
  have hdistinct := identifiers_distinct hshort hlong (fun h => absurd h (by decide +kernel))
  exact ⟨_, _, hshort, hlong, hdistinct.2.2.2 rfl (by decide)⟩

/-- An account that goes on into the key of another. -/
theorem identifiers_collide :
    ¬ ∀ (sha : Sha256) (account key account' key' identifier identifier' : String),
      accountStableIdCheck account → accountStableIdCheck account' →
      deriveUpbitLiveOrderIdentifier sha account key = .ok identifier →
      deriveUpbitLiveOrderIdentifier sha account' key' = .ok identifier' →
      (sha.digest (utf8Bytes (account ++ ":" ++ key)) =
        sha.digest (utf8Bytes (account' ++ ":" ++ key')) →
        account ++ ":" ++ key = account' ++ ":" ++ key') →
      ((account, key) ≠ (account', key') → identifier ≠ identifier') ∧
        isUpbitLiveOrderIdentifier identifier := by
  intro hclaim
  have hderive : ∀ account key, Plain account → Plain key →
      deriveUpbitLiveOrderIdentifier zeroDigest account key =
        .ok ("gm1_" ++ String.ofList (lowerUnpadded (b32encode (List.replicate 32 0)))) :=
    fun _ _ haccount hkey => derive_eq_ok.mpr ⟨haccount, hkey, rfl⟩
  exact (hclaim zeroDigest "abc" "def:x" "abc:def" "x" _ _ (by decide) (by decide)
    (hderive _ _ (by decide) (by decide)) (hderive _ _ (by decide) (by decide))
    (fun _ => by decide)).1 (by decide) rfl

end Goodmoneying.Analysis.LiveOrderIdentity
