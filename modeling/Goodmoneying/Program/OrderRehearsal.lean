import Goodmoneying.Library.JsonText
import Goodmoneying.Program.LiveOrderIdentity

/-!
# Rehearsing the submission of an order

`upbit_order_submit_rehearsal.py`: the payload of an order is brought into its canonical form, and
the query string and the two hashes of a request are made of it.
-/

namespace Goodmoneying.Program.OrderRehearsal

open Library
open LiveOrderIdentity (isUpbitLiveOrderIdentifier)

/-- The fields of a payload. -/
inductive OrderField where
  | market | side | volume | price | ordType | identifier | timeInForce | smpType
  deriving DecidableEq, Repr

/-- The key of a field. -/
def OrderField.text : OrderField → String
  | market => "market"
  | side => "side"
  | volume => "volume"
  | price => "price"
  | ordType => "ord_type"
  | identifier => "identifier"
  | timeInForce => "time_in_force"
  | smpType => "smp_type"

/-- `_FIELD_ORDER`. -/
def fieldOrder : List OrderField :=
  [.market, .side, .volume, .price, .ordType, .identifier, .timeInForce, .smpType]

/-- `_SIDE_VALUES`. -/
def sideValues : List String := ["bid", "ask"]

/-- `_ORD_TYPE_VALUES`. -/
def ordTypeValues : List String := ["limit", "price", "market", "best"]

/-- `_TIME_IN_FORCE_VALUES`. -/
def timeInForceValues : List String := ["ioc", "fok", "post_only"]

/-- `_SMP_TYPE_VALUES`. -/
def smpTypeValues : List String := ["cancel_maker", "cancel_taker", "reduce"]

/-- A canonical payload: the fields that `_require` asks for, and the others. -/
structure CanonicalPayload where
  market : String
  side : String
  volume : Option String
  price : Option String
  ordType : String
  identifier : String
  timeInForce : Option String
  smpType : Option String
  deriving DecidableEq, Repr

/-- `canonical_payload.get(field)`. -/
def CanonicalPayload.get (payload : CanonicalPayload) : OrderField → Option String
  | .market => some payload.market
  | .side => some payload.side
  | .volume => payload.volume
  | .price => payload.price
  | .ordType => some payload.ordType
  | .identifier => some payload.identifier
  | .timeInForce => payload.timeInForce
  | .smpType => payload.smpType

/-- A round of the loop of `_canonical_payload`. -/
def normalizedField (request : List (String × JsonValue)) (field : OrderField) :
    Except PythonError (Option String) :=
  match request.lookup field.text with
  | none | some .null => .ok none
  | some (.text value) =>
    if strip value = "" then
      .error (.valueError (field.text ++ " 값은 비어 있지 않은 문자열이어야 한다."))
    else .ok (some (strip value))
  | some _ => .error (.valueError (field.text ++ " 값은 비어 있지 않은 문자열이어야 한다."))

/-- `_require`. -/
def required (value : Option String) (field : OrderField) : Except PythonError String :=
  match value with
  | some text => .ok text
  | none => .error (.valueError (field.text ++ " 값이 필요하다."))

/-- `_enum`. -/
def enumValue (value : String) (allowed : List String) (field : OrderField) :
    Except PythonError Unit :=
  if value ∈ allowed then .ok ()
  else .error (.valueError (field.text ++ " 값이 허용되지 않는다."))

/-- `_enum` of a field that may be absent. -/
def optionalEnum (value : Option String) (allowed : List String) (field : OrderField) :
    Except PythonError Unit :=
  match value with
  | none => .ok ()
  | some text => enumValue text allowed field

/-- `_validate_order_shape`. -/
def validateOrderShape (payload : CanonicalPayload) : Except PythonError Unit :=
  let hasPrice := payload.price.isSome
  let hasVolume := payload.volume.isSome
  if payload.ordType ∈ ["price", "market"] ∧ payload.timeInForce.isSome then
    .error (.valueError "시장가 주문은 time_in_force와 함께 리허설할 수 없다.")
  else if payload.ordType = "limit" ∧ ¬(hasPrice ∧ hasVolume) then
    .error (.valueError "limit 주문은 price와 volume이 필요하다.")
  else if payload.ordType = "price" ∧ ¬(payload.side = "bid" ∧ hasPrice ∧ ¬hasVolume) then
    .error (.valueError "시장가 매수(price) 주문은 bid, price만 필요하다.")
  else if payload.ordType = "market" ∧ ¬(payload.side = "ask" ∧ hasVolume ∧ ¬hasPrice) then
    .error (.valueError "시장가 매도(market) 주문은 ask, volume만 필요하다.")
  else if payload.ordType = "best" ∧ payload.timeInForce ≠ some "ioc" ∧
      payload.timeInForce ≠ some "fok" then
    .error (.valueError "최유리 지정가(best) 주문은 ioc 또는 fok가 필요하다.")
  else if payload.ordType = "best" ∧ payload.side = "bid" ∧ ¬(hasPrice ∧ ¬hasVolume) then
    .error (.valueError "최유리 매수(best bid) 주문은 price만 필요하다.")
  else if payload.ordType = "best" ∧ payload.side = "ask" ∧ ¬(hasVolume ∧ ¬hasPrice) then
    .error (.valueError "최유리 매도(best ask) 주문은 volume만 필요하다.")
  else .ok ()

/-- `sorted(set(request_payload) - _ALLOWED_FIELDS)`. -/
def unknownFields (request : List (String × JsonValue)) : List String :=
  sortedBy id ((request.map Prod.fst).filter fun key => key ∉ fieldOrder.map OrderField.text)

/-- `_canonical_payload`; the keys of a mapping are pairwise distinct. -/
def canonicalPayload (requestPayload : JsonValue) : Except PythonError CanonicalPayload :=
  match requestPayload with
  | .mapping request => do
    if unknownFields request ≠ [] then
      throw (.valueError ("알 수 없는 주문 필드는 리허설할 수 없다: " ++
        ", ".intercalate (unknownFields request)))
    let market ← normalizedField request .market
    let side ← normalizedField request .side
    let volume ← normalizedField request .volume
    let price ← normalizedField request .price
    let ordType ← normalizedField request .ordType
    let identifier ← normalizedField request .identifier
    let timeInForce ← normalizedField request .timeInForce
    let smpType ← normalizedField request .smpType
    let market ← required market .market
    let side ← required side .side
    let ordType ← required ordType .ordType
    let identifier ← required identifier .identifier
    enumValue side sideValues .side
    enumValue ordType ordTypeValues .ordType
    optionalEnum timeInForce timeInForceValues .timeInForce
    optionalEnum smpType smpTypeValues .smpType
    if !isUpbitLiveOrderIdentifier identifier then
      throw (.valueError "identifier는 내부 gm1_ live 주문 식별자여야 한다.")
    if timeInForce = some "post_only" ∧ smpType.isSome then
      throw (.valueError "post_only 주문은 smp_type과 함께 리허설할 수 없다.")
    let payload : CanonicalPayload :=
      ⟨market, side, volume, price, ordType, identifier, timeInForce, smpType⟩
    validateOrderShape payload
    pure payload
  | _ => .error (.valueError "request_payload는 객체여야 한다.")

/-- `_query_string`. -/
def queryString (payload : CanonicalPayload) : String :=
  "&".intercalate (fieldOrder.filterMap fun field =>
    (payload.get field).map fun value => field.text ++ "=" ++ value)

/-- The texts of a digest of bytes in hexadecimal digits. -/
structure HexDigests where
  sha256 : List ℕ → String
  sha512 : List ℕ → String

/-- `UpbitOrderSubmitRehearsal`. -/
structure UpbitOrderSubmitRehearsal where
  endpointKey : String
  httpMethod : String
  requestPath : String
  canonicalPayload : CanonicalPayload
  requestHash : String
  queryString : String
  queryHash : String
  rehearsedAt : Instant
  actualRequestSent : Bool
  wouldSubmit : Bool
  canBindResponse : Bool
  deriving DecidableEq, Repr

/-- `json.dumps(canonical_payload, …)`. -/
def requestBody (payload : CanonicalPayload) : String :=
  (JsonValue.mapping (fieldOrder.filterMap fun field =>
    (payload.get field).map fun value => (field.text, .text value))).dumps

/-- `build_upbit_order_submit_rehearsal`. -/
def buildUpbitOrderSubmitRehearsal (hexdigest : HexDigests) (requestPayload : JsonValue)
    (rehearsedAt : Instant) : Except PythonError UpbitOrderSubmitRehearsal := do
  let payload ← canonicalPayload requestPayload
  let query := queryString payload
  pure {
    endpointKey := "rest.new-order"
    httpMethod := "POST"
    requestPath := "/v1/orders"
    canonicalPayload := payload
    requestHash := hexdigest.sha256 (utf8Bytes (requestBody payload))
    queryString := query
    queryHash := hexdigest.sha512 (utf8Bytes query)
    rehearsedAt
    actualRequestSent := false
    wouldSubmit := false
    canBindResponse := false }

end Goodmoneying.Program.OrderRehearsal
