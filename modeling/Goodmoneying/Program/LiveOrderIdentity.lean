import Goodmoneying.Library.Base32
import Goodmoneying.Program.Datetimes
import Goodmoneying.Program.PortfolioTables

/-!
# Identifiers of live orders

`live_order_identity.py`, and the functions and the trigger of migration
`20260718000900_p6_order_identity_separation.sql` that compute the same identifier in the database:
the base32 text of a digest of the account and the idempotency key of an order.
-/

namespace Goodmoneying.Program.LiveOrderIdentity

open Library

/-- SHA-256: 32 bytes for any bytes. -/
structure Sha256 where
  digest : List ℕ → List ℕ
  length_digest : ∀ bytes, (digest bytes).length = 32
  digest_lt : ∀ bytes, ∀ b ∈ digest bytes, b < 256

/-! ## In Python -/

/-- `_non_blank`. -/
def nonBlankText (value fieldName : String) : Except PythonError String :=
  if value = "" then .error (.valueError (fieldName ++ " 값은 비어 있을 수 없다."))
  else if value ≠ strip value then
    .error (.valueError (fieldName ++ " 값은 앞뒤 공백을 포함할 수 없다."))
  else .ok value

/-- `[a-z2-7]`. -/
def isIdentifierChar (c : Char) : Bool :=
  (97 ≤ c.toNat && c.toNat ≤ 122) || (50 ≤ c.toNat && c.toNat ≤ 55)

/-- `is_upbit_live_order_identifier`: the pattern is `^gm1_[a-z2-7]{52}$`. -/
def isUpbitLiveOrderIdentifier (value : String) : Bool :=
  value.toList.take 4 = "gm1_".toList && (value.toList.drop 4).length = 52 &&
    (value.toList.drop 4).all isIdentifierChar

/-- `derive_upbit_live_order_identifier`. -/
def deriveUpbitLiveOrderIdentifier (sha : Sha256)
    (exchangeAccountStableId idempotencyKey : String) : Except PythonError String := do
  let account ← nonBlankText exchangeAccountStableId "exchange_account_stable_id"
  let key ← nonBlankText idempotencyKey "idempotency_key"
  let digest := sha.digest (utf8Bytes (account ++ ":" ++ key))
  let encoded := String.ofList (lowerUnpadded (b32encode digest))
  let identifier := "gm1_" ++ encoded
  if isUpbitLiveOrderIdentifier identifier then pure identifier
  else .error (.valueError "생성된 Upbit live 주문 identifier가 계약 형식과 다르다.")

/-! ## In the database -/

/-- `account_stable_id ~ '^[A-Za-z0-9:_-]{3,128}$'` of `exchange_accounts`. -/
def accountStableIdCheck (value : String) : Bool :=
  3 ≤ value.length && value.length ≤ 128 && value.toList.all fun c =>
    (65 ≤ c.toNat && c.toNat ≤ 90) || (97 ≤ c.toNat && c.toNat ≤ 122) ||
      (48 ≤ c.toNat && c.toNat ≤ 57) || c = ':' || c = '_' || c = '-'

/-- `alphabet`. -/
def alphabet : String := "abcdefghijklmnopqrstuvwxyz234567"

/-- `substr(text, position, 1)`. -/
def substrOne (text : String) (position : ℕ) : List Char := (text.toList.drop (position - 1)).take 1

/-- The variables of `p6_base32lower_no_padding`, and all values that `buffer` was given so far. -/
structure EncoderState where
  output : List Char
  buffer : ℕ
  bitCount : ℕ
  buffers : List ℕ
  deriving DecidableEq, Repr

namespace EncoderState

def start : EncoderState := ⟨[], 0, 0, []⟩

/-- `buffer := (buffer << 8) | byte_value; bit_count := bit_count + 8`. -/
def shiftIn (byteValue : ℕ) (s : EncoderState) : EncoderState :=
  { s with
    buffer := s.buffer <<< 8 ||| byteValue
    bitCount := s.bitCount + 8
    buffers := s.buffers ++ [s.buffer <<< 8 ||| byteValue] }

/-- A round of the inner loop. -/
def emit (s : EncoderState) : EncoderState :=
  let indexValue := s.buffer >>> (s.bitCount - 5) &&& 31
  let bitCount := s.bitCount - 5
  let buffer := s.buffer &&& (1 <<< bitCount - 1)
  ⟨s.output ++ substrOne alphabet (indexValue + 1), buffer, bitCount, s.buffers ++ [buffer]⟩

/-- `WHILE bit_count >= 5 LOOP`. -/
def emitAll (s : EncoderState) : EncoderState :=
  if 5 ≤ s.bitCount then s.emit.emitAll else s
termination_by s.bitCount
decreasing_by
  simp only [emit]
  omega

/-- A round of the outer loop. -/
def encodeByte (s : EncoderState) (byteValue : ℕ) : EncoderState := (s.shiftIn byteValue).emitAll

end EncoderState

/-- The variables after the loops of `p6_base32lower_no_padding`. -/
def encodeLoop (value : List ℕ) : EncoderState := value.foldl EncoderState.encodeByte .start

/-- `p6_base32lower_no_padding`. -/
def p6Base32lowerNoPadding (value : List ℕ) : List Char :=
  let s := encodeLoop value
  if 0 < s.bitCount then
    s.output ++ substrOne alphabet ((s.buffer <<< (5 - s.bitCount) &&& 31) + 1)
  else s.output

/-- `p6_upbit_live_order_identifier`. -/
def p6UpbitLiveOrderIdentifier (sha : Sha256) (accountStableId idempotencyKey : String) : String :=
  "gm1_" ++ String.ofList (p6Base32lowerNoPadding
    (sha.digest (utf8Bytes (accountStableId ++ ":" ++ idempotencyKey))))

/-- The new row of `live_order_identifiers`. -/
structure LiveOrderIdentifier where
  idempotencyKey : String
  identifier : String
  deriving DecidableEq, Repr

/-- `validate_p6_live_order_identifier`, for the account and the order intent that the row refers
to, up to its check against the order tests. -/
def validateP6LiveOrderIdentifier (sha : Sha256) (accountStableId actualIdempotencyKey : String)
    (new : LiveOrderIdentifier) : Except String Unit :=
  if new.idempotencyKey ≠ actualIdempotencyKey then
    .error "live order identifier idempotency_key must match order_intents.idempotency_key"
  else if new.identifier ≠ p6UpbitLiveOrderIdentifier sha accountStableId actualIdempotencyKey then
    .error ("live order identifier must be derived from account_stable_id and order intent " ++
      "idempotency_key")
  else .ok ()

end Goodmoneying.Program.LiveOrderIdentity
