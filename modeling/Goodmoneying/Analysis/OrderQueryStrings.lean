import Goodmoneying.Library.SeparatedFields
import Goodmoneying.Program.OrderRehearsal

/-!
# The query string of a rehearsed order

A query string does not escape the free texts of market, volume and price; its other fields hold no
separator. Two accepted payloads have one query string exactly where they are the same, or one value
of market or volume goes on over the fields that follow it in the other payload
(`queryString_eq_iff`).
-/

namespace Goodmoneying.Analysis.OrderRehearsal

open List Library
open Program
open Program.OrderRehearsal

variable {payload p q : CanonicalPayload}
variable {allowed : List String} {field : OrderField} {request : JsonValue}

/-! ## Accepted payloads -/

/-- Whether orders of a type and side have a volume. -/
def expectsVolume (ordType side : String) : Bool :=
  ordType = "limit" || ordType = "market" || (ordType = "best" && side = "ask")

/-- Whether orders of a type and side have a price. -/
def expectsPrice (ordType side : String) : Bool :=
  ordType = "limit" || ordType = "price" || (ordType = "best" && side = "bid")

/-- What the checks of `_canonical_payload` let pass. -/
structure Accepted (payload : CanonicalPayload) : Prop where
  side : payload.side ∈ sideValues
  ordType : payload.ordType ∈ ordTypeValues
  timeInForce : ∀ value ∈ payload.timeInForce, value ∈ timeInForceValues
  smpType : ∀ value ∈ payload.smpType, value ∈ smpTypeValues
  identifier : LiveOrderIdentity.isUpbitLiveOrderIdentifier payload.identifier
  volume : payload.volume.isSome = expectsVolume payload.ordType payload.side
  price : payload.price.isSome = expectsPrice payload.ordType payload.side

theorem enumValue_eq_ok {value : String} :
    enumValue value allowed field = .ok () ↔ value ∈ allowed := by
  unfold enumValue
  split_ifs with h <;> simp [h]

theorem optionalEnum_eq_ok {value : Option String} :
    optionalEnum value allowed field = .ok () ↔ ∀ text ∈ value, text ∈ allowed := by
  cases value with
  | none => simp [optionalEnum]
  | some text => simp [optionalEnum, enumValue_eq_ok]

theorem validateOrderShape_ok (hside : payload.side ∈ sideValues)
    (hordType : payload.ordType ∈ ordTypeValues) (h : validateOrderShape payload = .ok ()) :
    payload.volume.isSome = expectsVolume payload.ordType payload.side ∧
      payload.price.isSome = expectsPrice payload.ordType payload.side := by
  unfold validateOrderShape at h
  dsimp only at h
  simp only [sideValues, ordTypeValues, mem_cons, not_mem_nil, or_false] at hside hordType
  split_ifs at h with htif hlimit hprice hmarket hbest hbid hask
  clear h htif hbest
  generalize payload.volume.isSome = hasVolume at *
  generalize payload.price.isSome = hasPrice at *
  rcases hordType with htype | htype | htype | htype <;> rcases hside with hs | hs <;>
    simp_all [expectsVolume, expectsPrice]

/-- What the payload is made of has been accepted. -/
theorem canonicalPayload_ok (h : canonicalPayload request = .ok payload) : Accepted payload := by
  unfold canonicalPayload at h
  split at h
  · obtain ⟨-, h⟩ := guard_eq_ok.mp h
    obtain ⟨market?, -, h⟩ := bind_eq_ok.mp h
    obtain ⟨side?, -, h⟩ := bind_eq_ok.mp h
    obtain ⟨volume, -, h⟩ := bind_eq_ok.mp h
    obtain ⟨price, -, h⟩ := bind_eq_ok.mp h
    obtain ⟨ordType?, -, h⟩ := bind_eq_ok.mp h
    obtain ⟨identifier?, -, h⟩ := bind_eq_ok.mp h
    obtain ⟨timeInForce, -, h⟩ := bind_eq_ok.mp h
    obtain ⟨smpType, -, h⟩ := bind_eq_ok.mp h
    obtain ⟨market, -, h⟩ := bind_eq_ok.mp h
    obtain ⟨side, -, h⟩ := bind_eq_ok.mp h
    obtain ⟨ordType, -, h⟩ := bind_eq_ok.mp h
    obtain ⟨identifier, -, h⟩ := bind_eq_ok.mp h
    obtain ⟨⟨⟩, hside, h⟩ := bind_eq_ok.mp h
    obtain ⟨⟨⟩, hordType, h⟩ := bind_eq_ok.mp h
    obtain ⟨⟨⟩, htimeInForce, h⟩ := bind_eq_ok.mp h
    obtain ⟨⟨⟩, hsmpType, h⟩ := bind_eq_ok.mp h
    obtain ⟨hidentifier, h⟩ := guard_eq_ok.mp h
    obtain ⟨-, h⟩ := guard_eq_ok.mp h
    obtain ⟨⟨⟩, hshape, h⟩ := bind_eq_ok.mp h
    obtain rfl := pure_eq_ok.mp h
    rw [enumValue_eq_ok] at hside hordType
    rw [optionalEnum_eq_ok] at htimeInForce hsmpType
    obtain ⟨hvolume, hprice⟩ := validateOrderShape_ok hside hordType hshape
    exact ⟨hside, hordType, htimeInForce, hsmpType, by simpa using hidentifier, hvolume, hprice⟩
  · simp at h

/-! ## The parts of a query string -/

/-- The fields of volume and price. -/
def amounts (payload : CanonicalPayload) : String :=
  payload.volume.elim "" ("&volume=" ++ ·) ++ payload.price.elim "" ("&price=" ++ ·)

/-- The fields from the order type on. -/
def endingFields (payload : CanonicalPayload) : List (List Char) :=
  ("ord_type=" ++ payload.ordType).toList :: ("identifier=" ++ payload.identifier).toList ::
    ((payload.timeInForce.map ("time_in_force=" ++ ·)).toList ++
      (payload.smpType.map ("smp_type=" ++ ·)).toList).map String.toList

theorem toList_queryString (payload : CanonicalPayload) : (queryString payload).toList =
      ("market=" ++ payload.market ++ "&side=" ++ payload.side ++ amounts payload).toList ++
        separated '&' (endingFields payload) := by
  obtain ⟨market, side, volume, price, ordType, identifier, timeInForce, smpType⟩ := payload
  cases volume <;> cases price <;> cases timeInForce <;> cases smpType <;>
    simp [queryString, fieldOrder, CanonicalPayload.get, OrderField.text, amounts, endingFields]

theorem separator_not_mem_identifier {identifier : String}
    (h : LiveOrderIdentity.isUpbitLiveOrderIdentifier identifier) : '&' ∉ identifier.toList := by
  unfold LiveOrderIdentity.isUpbitLiveOrderIdentifier at h
  simp only [Bool.and_eq_true, decide_eq_true_eq] at h
  obtain ⟨⟨hstart, -⟩, hchars⟩ := h
  intro hmem
  rw [← take_append_drop 4 identifier.toList, hstart, mem_append] at hmem
  rcases hmem with hmem | hmem
  · exact absurd hmem (by decide)
  · exact absurd (all_eq_true.mp hchars _ hmem) (by decide)

theorem Accepted.separator_not_mem (h : Accepted payload) :
    ∀ field ∈ endingFields payload, '&' ∉ field := by
  have hordType : '&' ∉ payload.ordType.toList :=
    (by decide : ∀ text ∈ ordTypeValues, '&' ∉ text.toList) _ h.ordType
  have htimeInForce : ∀ value ∈ payload.timeInForce, '&' ∉ value.toList := fun value hvalue =>
    (by decide : ∀ text ∈ timeInForceValues, '&' ∉ text.toList) _ (h.timeInForce value hvalue)
  have hsmpType : ∀ value ∈ payload.smpType, '&' ∉ value.toList := fun value hvalue =>
    (by decide : ∀ text ∈ smpTypeValues, '&' ∉ text.toList) _ (h.smpType value hvalue)
  have hidentifier := separator_not_mem_identifier h.identifier
  intro field hfield
  simp only [endingFields, map_append, mem_cons, mem_append, mem_map,
    Option.mem_toList, Option.map_eq_some_iff] at hfield
  rcases hfield with rfl | rfl | ⟨_, ⟨value, hvalue, rfl⟩, rfl⟩ | ⟨_, ⟨value, hvalue, rfl⟩, rfl⟩
  · simpa using hordType
  · simpa using hidentifier
  · simpa using htimeInForce value hvalue
  · simpa using hsmpType value hvalue

/-- The fields that hold no separator are the same in both payloads. -/
def SameEnding (p q : CanonicalPayload) : Prop :=
  p.ordType = q.ordType ∧ p.identifier = q.identifier ∧ p.timeInForce = q.timeInForce ∧
    p.smpType = q.smpType

theorem endingFields_inj (h : endingFields p = endingFields q) : SameEnding p q := by
  obtain ⟨_, _, _, _, _, _, timeInForce, smpType⟩ := p
  obtain ⟨_, _, _, _, _, _, timeInForce', smpType'⟩ := q
  cases timeInForce <;> cases timeInForce' <;> cases smpType <;> cases smpType' <;>
    simp_all [endingFields, SameEnding, String.toList_inj]

/-- No field but the first of an ending starts as the first does. -/
theorem eq_of_endingFields_append {more : List (List Char)}
    (h : endingFields q = more ++ endingFields p) : more = [] := by
  cases more with
  | nil => rfl
  | cons field more =>
    have hmem : ("ord_type=" ++ p.ordType).toList ∈ (endingFields q).tail := by
      rw [h, cons_append, tail_cons]
      exact mem_append_right _ mem_cons_self
    simp [endingFields] at hmem

theorem ending_eq (hp : Accepted p) (hq : Accepted q)
    (hle : (endingFields p).length ≤ (endingFields q).length) (h : queryString p = queryString q) :
    SameEnding p q ∧ p.market ++ "&side=" ++ p.side ++ amounts p =
      q.market ++ "&side=" ++ q.side ++ amounts q := by
  have hchars := congrArg String.toList h
  rw [toList_queryString, toList_queryString] at hchars
  obtain ⟨more, hmore, hhead⟩ := separated_suffix hp.separator_not_mem hq.separator_not_mem hle
    hchars
  obtain rfl := eq_of_endingFields_append hmore
  refine ⟨endingFields_inj hmore.symm, ?_⟩
  rw [separated_nil, append_nil, String.toList_inj] at hhead
  simpa only [String.append_assoc, String.append_right_inj] using hhead

/-! ## Values that go on over other fields -/

/-- The market of `q` is that of `p` with its side and a part of its amounts. -/
def MarketReaches (p q : CanonicalPayload) : Prop :=
  ∃ part, q.market = p.market ++ "&side=" ++ p.side ++ part ∧
    amounts p = part ++ "&side=" ++ q.side ++ amounts q

/-- The volume of `q` is that of `p` with a part of its price. -/
def VolumeReaches (p q : CanonicalPayload) : Prop :=
  p.market = q.market ∧ p.side = q.side ∧ ∃ volume part price,
    p.volume = some volume ∧ q.volume = some (volume ++ "&price=" ++ part) ∧
      p.price = some (part ++ "&price=" ++ price) ∧ q.price = some price

/-- A value of `q` goes on over fields of `p`. -/
def Reaches (p q : CanonicalPayload) : Prop :=
  SameEnding p q ∧ (MarketReaches p q ∨ VolumeReaches p q)

theorem Accepted.side_inj (hp : Accepted p) (hq : Accepted q)
    (h : p.side ++ amounts p = q.side ++ amounts q) : p.side = q.side := by
  have hpside := hp.side
  have hqside := hq.side
  simp only [sideValues, mem_cons, not_mem_nil, or_false] at hpside hqside
  have hchars := congrArg String.toList h
  rcases hpside with hps | hps <;> rcases hqside with hqs | hqs <;> simp [hps, hqs] at hchars ⊢

theorem market_cases (hp : Accepted p) (hq : Accepted q)
    (h : p.market ++ "&side=" ++ p.side ++ amounts p = q.market ++ "&side=" ++ q.side ++ amounts
      q) : (p.market = q.market ∧ p.side = q.side ∧ amounts p = amounts q) ∨
      MarketReaches p q ∨ MarketReaches q p := by
  have hfree : ∀ side ∈ sideValues, '&' ∉ ("side=" ++ side).toList := by decide
  have hchars := congrArg String.toList h
  simp only [String.toList_append, append_assoc] at hchars
  rcases append_field_cases (hfree _ hp.side) (hfree _ hq.side) (by simpa using hchars) with
    ⟨hmarket, hpast⟩ | ⟨more, hmarket, hpast⟩ | ⟨more, hmarket, hpast⟩
  · have hside : p.side = q.side := hp.side_inj hq (String.toList_inj.mp (by simpa using hpast))
    refine Or.inl ⟨String.toList_inj.mp hmarket, hside, String.toList_inj.mp ?_⟩
    simpa [hside] using hpast
  · refine Or.inr (Or.inl ⟨String.ofList more, String.toList_inj.mp ?_, String.toList_inj.mp ?_⟩)
    · simpa using hmarket
    · simpa using hpast
  · refine Or.inr (Or.inr ⟨String.ofList more, String.toList_inj.mp ?_, String.toList_inj.mp ?_⟩)
    · simpa using hmarket
    · simpa using hpast

theorem price_cases {volume price volume' price' : String}
    (h : volume ++ "&price=" ++ price = volume' ++ "&price=" ++ price') :
    (volume = volume' ∧ price = price') ∨
      (∃ part, volume' = volume ++ "&price=" ++ part ∧ price = part ++ "&price=" ++ price') ∨
      ∃ part, volume = volume' ++ "&price=" ++ part ∧ price' = part ++ "&price=" ++ price := by
  have hfree : '&' ∉ "price=".toList := by decide
  have hchars := congrArg String.toList h
  simp only [String.toList_append, append_assoc] at hchars
  rcases append_field_cases hfree hfree (by simpa using hchars) with
    ⟨hvolume, hpast⟩ | ⟨more, hvolume, hpast⟩ | ⟨more, hvolume, hpast⟩
  · exact Or.inl ⟨String.toList_inj.mp hvolume, String.toList_inj.mp (by simpa using hpast)⟩
  · refine Or.inr (Or.inl ⟨String.ofList more, String.toList_inj.mp ?_, String.toList_inj.mp ?_⟩)
    · simpa using hvolume
    · simpa using hpast
  · refine Or.inr (Or.inr ⟨String.ofList more, String.toList_inj.mp ?_, String.toList_inj.mp ?_⟩)
    · simpa using hvolume
    · simpa using hpast

/-- Where the amounts agree, the payloads are equal, or the volume of one runs into its price. -/
theorem volume_cases (hp : Accepted p) (hq : Accepted q) (hending : SameEnding p q)
    (hmarket : p.market = q.market) (hside : p.side = q.side) (h : amounts p = amounts q) :
    p = q ∨ VolumeReaches p q ∨ VolumeReaches q p := by
  have hvolume : p.volume.isSome = q.volume.isSome := by
    rw [hp.volume, hq.volume, hending.1, hside]
  have hprice : p.price.isSome = q.price.isSome := by
    rw [hp.price, hq.price, hending.1, hside]
  obtain ⟨market, side, volume, price, ordType, identifier, timeInForce, smpType⟩ := p
  obtain ⟨market', side', volume', price', ordType', identifier', timeInForce', smpType'⟩ := q
  obtain ⟨rfl, rfl, rfl, rfl⟩ := hending
  obtain rfl : market = market' := hmarket
  obtain rfl : side = side' := hside
  clear hp hq
  cases volume <;> cases volume' <;> cases price <;> cases price' <;>
    simp only [Option.isSome, Bool.false_eq_true, Bool.true_eq_false] at hvolume hprice
  case none.none.none.none => exact Or.inl rfl
  case none.none.some.some price price' =>
    obtain rfl : price = price' := by simpa [amounts] using h
    exact Or.inl rfl
  case some.some.none.none volume volume' =>
    obtain rfl : volume = volume' := by simpa [amounts] using h
    exact Or.inl rfl
  case some.some.some.some volume volume' price price' =>
    have hamounts : volume ++ "&price=" ++ price = volume' ++ "&price=" ++ price' := by
      simpa [amounts, String.append_assoc] using h
    rcases price_cases hamounts with ⟨rfl, rfl⟩ | ⟨part, rfl, rfl⟩ | ⟨part, rfl, rfl⟩
    · exact Or.inl rfl
    · exact Or.inr (Or.inl ⟨rfl, rfl, volume, part, price', rfl, rfl, rfl, rfl⟩)
    · exact Or.inr (Or.inr ⟨rfl, rfl, volume', part, price, rfl, rfl, rfl, rfl⟩)

theorem SameEnding.symm (h : SameEnding p q) : SameEnding q p :=
  ⟨h.1.symm, h.2.1.symm, h.2.2.1.symm, h.2.2.2.symm⟩

theorem SameEnding.endingFields_eq (h : SameEnding p q) : endingFields p = endingFields q := by
  unfold endingFields
  rw [h.1, h.2.1, h.2.2.1, h.2.2.2]

theorem Reaches.queryString_eq (h : Reaches p q) : queryString p = queryString q := by
  obtain ⟨hending, hreaches⟩ := h
  rw [← String.toList_inj, toList_queryString, toList_queryString, hending.endingFields_eq]
  congr 2
  rcases hreaches with ⟨part, hmarket, hamounts⟩ | ⟨hmarket, hside, volume, part, price, hreaches⟩
  · simp only [hmarket, hamounts, String.append_assoc]
  · obtain ⟨hpvolume, hqvolume, hpprice, hqprice⟩ := hreaches
    simp [amounts, hmarket, hside, hpvolume, hqvolume, hpprice, hqprice, String.append_assoc]

theorem cases_of_queryString_eq (hp : Accepted p) (hq : Accepted q)
    (hle : (endingFields p).length ≤ (endingFields q).length) (h : queryString p = queryString q) :
    p = q ∨ Reaches p q ∨ Reaches q p := by
  obtain ⟨hending, hhead⟩ := ending_eq hp hq hle h
  rcases market_cases hp hq hhead with ⟨hmarket, hside, hamounts⟩ | hreaches | hreaches
  · rcases volume_cases hp hq hending hmarket hside hamounts with heq | hreaches | hreaches
    · exact Or.inl heq
    · exact Or.inr (Or.inl ⟨hending, Or.inr hreaches⟩)
    · exact Or.inr (Or.inr ⟨hending.symm, Or.inr hreaches⟩)
  · exact Or.inr (Or.inl ⟨hending, Or.inl hreaches⟩)
  · exact Or.inr (Or.inr ⟨hending.symm, Or.inl hreaches⟩)

theorem queryString_eq_cases (hp : Accepted p) (hq : Accepted q) :
    queryString p = queryString q ↔ p = q ∨ Reaches p q ∨ Reaches q p := by
  constructor
  · intro h
    rcases Nat.le_total (endingFields p).length (endingFields q).length with hle | hle
    · exact cases_of_queryString_eq hp hq hle h
    · rcases cases_of_queryString_eq hq hp hle h.symm with rfl | hreaches | hreaches
      · exact Or.inl rfl
      · exact Or.inr (Or.inr hreaches)
      · exact Or.inr (Or.inl hreaches)
  · rintro (rfl | hreaches | hreaches)
    · rfl
    · exact hreaches.queryString_eq
    · exact hreaches.queryString_eq.symm

/-- Where no value of market or volume holds the separator, no value goes on over another field. -/
theorem Reaches.separator_mem (h : Reaches p q) :
    '&' ∈ q.market.toList ∨ ∃ volume ∈ q.volume, '&' ∈ volume.toList := by
  rcases h.2 with ⟨part, hmarket, -⟩ | ⟨-, -, volume, part, price, -, hvolume, -⟩
  · exact Or.inl (by simp [hmarket])
  · exact Or.inr ⟨_, hvolume, by simp⟩

theorem build_eq_ok {hexdigest : HexDigests} (h : canonicalPayload request = .ok payload)
    {rehearsedAt : Instant} {rehearsal : UpbitOrderSubmitRehearsal}
    (hbuild : buildUpbitOrderSubmitRehearsal hexdigest request rehearsedAt = .ok rehearsal) :
    rehearsal.queryHash = hexdigest.sha512 (utf8Bytes (queryString payload)) := by
  unfold buildUpbitOrderSubmitRehearsal at hbuild
  rw [h, ok_bind] at hbuild
  exact pure_eq_ok.mp hbuild ▸ rfl

/-- The query strings of two accepted payloads, and the hashes of them, are equal exactly where the
payloads are, or a value of one goes on over fields of the other; where no value of market or volume
holds the separator, the payloads are equal.
SOURCE: upbit_order_submit_rehearsal.py:47-72, 75-162 -/
theorem queryString_eq_iff {request request' : JsonValue} {p q : CanonicalPayload}
    (hp : canonicalPayload request = .ok p) (hq : canonicalPayload request' = .ok q) :
    (queryString p = queryString q ↔ p = q ∨ Reaches p q ∨ Reaches q p) ∧
    (∀ (hexdigest : HexDigests) (rehearsedAt rehearsedAt' : Instant)
      (rehearsal rehearsal' : UpbitOrderSubmitRehearsal),
      buildUpbitOrderSubmitRehearsal hexdigest request rehearsedAt = .ok rehearsal →
      buildUpbitOrderSubmitRehearsal hexdigest request' rehearsedAt' = .ok rehearsal' →
      (hexdigest.sha512 (utf8Bytes (queryString p)) = hexdigest.sha512 (utf8Bytes (queryString q)) →
        queryString p = queryString q) →
      (rehearsal.queryHash = rehearsal'.queryHash ↔ p = q ∨ Reaches p q ∨ Reaches q p)) ∧
    ((∀ payload ∈ [p, q], '&' ∉ payload.market.toList ∧
      ∀ volume ∈ payload.volume, '&' ∉ volume.toList) →
      queryString p = queryString q → p = q) := by
  have hcases := queryString_eq_cases (canonicalPayload_ok hp) (canonicalPayload_ok hq)
  refine ⟨hcases, ?_, ?_⟩
  · intro hexdigest rehearsedAt rehearsedAt' rehearsal rehearsal' hbuild hbuild' hsha
    rw [build_eq_ok hp hbuild, build_eq_ok hq hbuild', ← hcases]
    exact ⟨hsha, fun h => by rw [h]⟩
  · intro hfree h
    have hpfree := hfree p (by simp)
    have hqfree := hfree q (by simp)
    rcases hcases.mp h with heq | hreaches | hreaches
    · exact heq
    · rcases hreaches.separator_mem with hmarket | ⟨volume, hvolume, hmem⟩
      · exact absurd hmarket hqfree.1
      · exact absurd hmem (hqfree.2 volume hvolume)
    · rcases hreaches.separator_mem with hmarket | ⟨volume, hvolume, hmem⟩
      · exact absurd hmarket hpfree.1
      · exact absurd hmem (hpfree.2 volume hvolume)

/-- A bid of a limit order. -/
def limitRequest (volume price : String) : JsonValue :=
  .mapping [("market", .text "KRW-BTC"), ("side", .text "bid"), ("ord_type", .text "limit"),
    ("volume", .text volume), ("price", .text price),
    ("identifier", .text "gm1_aaaaaaaaaaaaaaaaaaaaaaaaaaaaaaaaaaaaaaaaaaaaaaaaaaaa")]

/-- The canonical payload of it. -/
def limitPayload (volume price : String) : CanonicalPayload :=
  ⟨"KRW-BTC", "bid", some volume, some price, "limit",
    "gm1_aaaaaaaaaaaaaaaaaaaaaaaaaaaaaaaaaaaaaaaaaaaaaaaaaaaa", none, none⟩

theorem queryString_eq_iff_plain :
    queryString (limitPayload "0.1" "1000") ≠ queryString (limitPayload "0.1" "2000") := by
  have hp : canonicalPayload (limitRequest "0.1" "1000") = .ok (limitPayload "0.1" "1000") := by
    decide +kernel
  have hq : canonicalPayload (limitRequest "0.1" "2000") = .ok (limitPayload "0.1" "2000") := by
    decide +kernel
  intro h
  exact absurd ((queryString_eq_iff hp hq).2.2 (by decide) h) (by decide)

/-- A volume that holds a separator runs into the price. -/
theorem queryString_collides : ¬ ∀ (request request' : JsonValue) (p q : CanonicalPayload),
      canonicalPayload request = .ok p → canonicalPayload request' = .ok q →
      queryString p = queryString q → p = q := by
  intro hclaim
  have hp : canonicalPayload (limitRequest "1" "2&price=3") =
      .ok (limitPayload "1" "2&price=3") := by decide +kernel
  have hq : canonicalPayload (limitRequest "1&price=2" "3") =
      .ok (limitPayload "1&price=2" "3") := by decide +kernel
  exact absurd (hclaim _ _ _ _ hp hq (by decide +kernel)) (by decide)

end Goodmoneying.Analysis.OrderRehearsal
