import Goodmoneying.Program.GatewayAuth

/-!
# The signed query is the query sent

Quoted keys and values have no ampersand and no equals sign, so the pairs of a query string that is
sent are the tokens it was made of (`readPairs_joinTokens`). Percent decoding reads every quoted
text as the text with plus signs for its spaces (`unquote_joinTokens`): the string that is hashed is
the one that is sent, decoded (`queryStrings_roundTrip`).
-/

namespace Goodmoneying.Analysis.GatewayAuth

open List Library
open Program.GatewayAuth

variable {keySafe : List Char}

/-- A token as it is read where plus signs are not read as spaces. -/
def plainToken (token : String × String) : List Char :=
  token.1.toList.map plusForSpace ++ '=' :: token.2.toList.map plusForSpace

theorem unquotesTo_quotedToken (hpercent : '%' ∉ keySafe) (token : String × String) :
    UnquotesTo (quotedToken keySafe token) ((plainToken token).flatMap utf8Code) := by
  have hequals : UnquotesTo ['='] (utf8Code '=') := unquotesTo_character (by decide)
  have h := (unquotesTo_quotePlus hpercent token.1).append
    (hequals.append (unquotesTo_quotePlus not_mem_nil token.2))
  rwa [singleton_append, ← flatMap_cons, ← flatMap_append] at h

@[simp] theorem joinTokens_singleton (token : String × String) :
    joinTokens keySafe [token] = quotedToken keySafe token := by
  rw [joinTokens, map_singleton, intercalate_singleton]

@[simp] theorem joinTokens_cons_cons (token next : String × String)
    (tokens : List (String × String)) : joinTokens keySafe (token :: next :: tokens) =
      quotedToken keySafe token ++ '&' :: joinTokens keySafe (next :: tokens) := by
  rw [joinTokens, map_cons, map_cons, intercalate_cons_cons, append_assoc]
  rfl

theorem unquotesTo_joinTokens (hpercent : '%' ∉ keySafe) (tokens : List (String × String)) :
    UnquotesTo (joinTokens keySafe tokens)
      ((['&'].intercalate (tokens.map plainToken)).flatMap utf8Code) := by
  induction tokens with
  | nil => exact .nil
  | cons token tokens ih =>
    have htoken := unquotesTo_quotedToken hpercent token
    cases tokens with
    | nil => simpa using htoken
    | cons next tokens =>
      have hampersand : UnquotesTo ['&'] (utf8Code '&') := unquotesTo_character (by decide)
      have h := htoken.append (hampersand.append ih)
      rw [joinTokens_cons_cons, map_cons, map_cons, intercalate_cons_cons,
        append_assoc, flatMap_append, flatMap_append, flatMap_singleton]
      exact h

theorem mem_joinTokens {tokens : List (String × String)} {c : Char}
    (h : c ∈ joinTokens keySafe tokens) : c.toNat < 128 := by
  induction tokens with
  | nil => exact absurd h not_mem_nil
  | cons token tokens ih =>
    have htoken : ∀ c ∈ quotedToken keySafe token, c.toNat < 128 := by
      intro c hc
      rcases mem_append.mp hc with hc | hc
      · exact (mem_quotePlus hc).1
      · rcases mem_cons.mp hc with rfl | hc
        · decide
        · exact (mem_quotePlus hc).1
    cases tokens with
    | nil => exact htoken c (joinTokens_singleton token ▸ h)
    | cons next tokens =>
      rw [joinTokens_cons_cons, mem_append, mem_cons] at h
      rcases h with h | rfl | h
      · exact htoken c h
      · decide
      · exact ih h

/-- Decoded as a whole, a query string does not show which characters were safe in its keys. -/
theorem unquote_joinTokens (hpercent : '%' ∉ keySafe) (tokens : List (String × String)) :
    unquote (joinTokens keySafe tokens) = ['&'].intercalate (tokens.map plainToken) := by
  rw [unquote_ascii fun c hc => mem_joinTokens hc,
    (unquotesTo_joinTokens hpercent tokens).unquoteToBytes_eq, decodeReplace_utf8]

theorem not_mem_quotePlus {safe : List Char} {c : Char} (hc : c = '&' ∨ c = '=') (hsafe : c ∉ safe)
    (text : String) : c ∉ quotePlus safe text := by
  intro h
  rcases hc with rfl | rfl <;> simpa [alwaysSafe, hsafe] using (mem_quotePlus h).2

theorem readPair_quotedToken (hpercent : '%' ∉ keySafe) (hplus : '+' ∉ keySafe)
    (hequals : '=' ∉ keySafe) (token : String × String) :
    readPair (quotedToken keySafe token) = token := by
  have hkey : ∀ c ∈ quotePlus keySafe token.1, decide (c ≠ '=') = true := by
    intro c hc
    exact decide_eq_true fun heq => not_mem_quotePlus (Or.inr rfl) hequals token.1 (heq ▸ hc)
  have hback : ∀ {safe : List Char}, '%' ∉ safe → '+' ∉ safe → ∀ text,
      formDecode (quotePlus safe text) = text := by
    intro safe hpercent hplus text
    rw [formDecode, unquote_spaces_quotePlus hpercent hplus, String.ofList_toList]
  rw [readPair, quotedToken, takeWhile_append_of_pos hkey, dropWhile_append_of_pos hkey]
  simp only [takeWhile_cons, dropWhile_cons, ne_eq, not_true_eq_false, decide_false,
    Bool.false_eq_true, if_false, append_nil, drop_succ_cons, drop_zero]
  rw [hback hpercent hplus, hback not_mem_nil not_mem_nil]

/-- The pairs of a query string are the tokens it was made of. -/
theorem readPairs_joinTokens (hpercent : '%' ∉ keySafe) (hplus : '+' ∉ keySafe)
    (hequals : '=' ∉ keySafe) (hampersand : '&' ∉ keySafe) (tokens : List (String × String)) :
    readPairs (.ofList (joinTokens keySafe tokens)) = tokens := by
  by_cases hnil : tokens = []
  · rw [hnil]
    rfl
  · have hsplit : (joinTokens keySafe tokens).splitOn '&' = tokens.map (quotedToken keySafe) := by
      refine splitOn_intercalate '&' (forall_mem_map.mpr fun token _ hmem => ?_)
        (by simpa using hnil)
      rcases mem_append.mp hmem with h | h
      · exact not_mem_quotePlus (Or.inl rfl) hampersand token.1 h
      · rcases mem_cons.mp h with h | h
        · exact absurd h (by decide)
        · exact not_mem_quotePlus (Or.inl rfl) not_mem_nil token.2 h
    have hne : String.ofList (joinTokens keySafe tokens) ≠ "" := by
      intro heq
      have hempty : joinTokens keySafe tokens = [] := by simpa using heq
      rw [hempty] at hsplit
      obtain ⟨token, rest, rfl⟩ := exists_cons_of_ne_nil hnil
      have hfirst : [] = quotedToken keySafe token := (List.cons.inj hsplit).1
      simp [quotedToken] at hfirst
    rw [readPairs, if_neg hne, String.toList_ofList, hsplit, map_map]
    exact (map_congr_left fun token _ =>
      readPair_quotedToken hpercent hplus hequals token).trans (map_id _)

section

variable {φ : Type} (floatText : φ → String)

/-- What a parameter stands for: one token, and for an array one with its key for every element. -/
def parameterTokens (key : String) : ParameterValue φ → List (String × String)
  | .scalar value => [(key, queryScalar floatText value)]
  | .sequence items => items.map fun item => (key, queryScalar floatText item)

theorem queryTokens_eq (parameters : List (String × ParameterValue φ)) :
    queryTokens floatText parameters =
      parameters.flatMap fun parameter => parameterTokens floatText parameter.1 parameter.2 := by
  refine congrArg (parameters.flatMap ·) (funext fun parameter => ?_)
  rcases parameter with ⟨key, value | items⟩ <;> rfl

/-- What is hashed is what is sent, decoded; what is sent reads as the tokens of the parameters in
their order; and so two requests with different tokens are never sent alike.
SOURCE: auth.py:68-94 -/
theorem queryStrings_roundTrip (parameters : List (String × ParameterValue φ)) :
    let tokens (parameters : List (String × ParameterValue φ)) :=
      parameters.flatMap fun parameter => parameterTokens floatText parameter.1 parameter.2
    let strings := buildQueryStrings floatText parameters
    String.ofList (unquote strings.wireQuery.toList) = strings.hashQuery ∧
      readPairs strings.wireQuery = tokens parameters ∧
      ∀ others : List (String × ParameterValue φ), tokens others ≠ tokens parameters →
        (buildQueryStrings floatText others).wireQuery ≠ strings.wireQuery := by
  intro tokens strings
  have hread : ∀ parameters : List (String × ParameterValue φ),
      readPairs (buildQueryStrings floatText parameters).wireQuery = tokens parameters :=
    fun parameters => (readPairs_joinTokens (by decide) (by decide) (by decide) (by decide) _).trans
      (queryTokens_eq floatText parameters)
  refine ⟨?_, hread parameters, fun others hne heq => hne ?_⟩
  · change String.ofList (unquote (String.ofList (joinTokens ['[', ']'] _)).toList) =
      String.ofList (unquote (joinTokens [] _))
    rw [String.toList_ofList, unquote_joinTokens (by decide), unquote_joinTokens (by decide)]
  · rw [← hread others, ← hread parameters, heq]

end

/-- An array whose elements hold reserved characters, and scalars of other types. -/
def orderParameters : List (String × ParameterValue Empty) :=
  [("states[]", .sequence [.text "a&b=c", .text "%2B + é"]), ("limit", .scalar (.int 5)),
    ("is_details", .scalar (.bool true))]

/-- The array is sent with its key for each of its elements, and reads as it was. -/
theorem queryStrings_roundTrip_array :
    let strings := buildQueryStrings Empty.elim orderParameters
    strings.wireQuery =
      "states[]=a%26b%3Dc&states[]=%252B+%2B+%C3%A9&limit=5&is_details=true" ∧
    String.ofList (unquote strings.wireQuery.toList) = strings.hashQuery ∧
    readPairs strings.wireQuery = [("states[]", "a&b=c"), ("states[]", "%2B + é"), ("limit", "5"),
      ("is_details", "true")] := by
  obtain ⟨hhash, hpairs, -⟩ := queryStrings_roundTrip Empty.elim orderParameters
  exact ⟨by decide +kernel, hhash, hpairs.trans (by decide +kernel)⟩

end Goodmoneying.Analysis.GatewayAuth
