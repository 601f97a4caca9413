import Goodmoneying.Library.PercentEncoding

/-!
# Query strings of signed requests

`auth.py` of the gateway: the parameters of a request become tokens, a key and a text each, and two
query strings are made of the tokens: the one that is hashed into the signature, and the one that is
sent.

`φ` are the floating-point numbers, and `floatText` is `str` of them.
-/

namespace Goodmoneying.Program.GatewayAuth

open Library

/-- A value that is not a sequence. -/
inductive QueryScalar (φ : Type) where
  | text (value : String)
  | int (value : ℤ)
  | float (value : φ)
  | bool (value : Bool)

/-- `ParameterValue`. -/
inductive ParameterValue (φ : Type) where
  | scalar (value : QueryScalar φ)
  | sequence (items : List (QueryScalar φ))

/-- `QueryStrings`. -/
structure QueryStrings where
  hashQuery : String
  wireQuery : String
  deriving DecidableEq, Repr

/-- A key and its value, quoted, where some characters are safe in the key. -/
def quotedToken (keySafe : List Char) (token : String × String) : List Char :=
  quotePlus keySafe token.1 ++ '=' :: quotePlus [] token.2

/-- The text of a list of tokens. -/
def joinTokens (keySafe : List Char) (tokens : List (String × String)) : List Char :=
  ['&'].intercalate (tokens.map (quotedToken keySafe))

/-- `urlencode(tokens)`. -/
def urlencode (tokens : List (String × String)) : List Char := joinTokens [] tokens

section

variable {φ : Type} (floatText : φ → String)
variable (parameters : List (String × ParameterValue φ))

/-- `_query_scalar`. -/
def queryScalar : QueryScalar φ → String
  | .bool value => if value then "true" else "false"
  | .text value => value
  | .int value => toString value
  | .float value => floatText value

/-- The values of a parameter. -/
def parameterValues : ParameterValue φ → List (QueryScalar φ)
  | .scalar value => [value]
  | .sequence items => items

/-- The tokens of the parameters: a key is repeated for every value of a sequence. -/
def queryTokens : List (String × String) :=
  parameters.flatMap fun parameter =>
    (parameterValues parameter.2).map fun item => (parameter.1, queryScalar floatText item)

/-- `build_query_strings`. -/
def buildQueryStrings : QueryStrings :=
  let tokens := queryTokens floatText parameters
  { hashQuery := .ofList (unquote (urlencode tokens))
    wireQuery := .ofList (joinTokens ['[', ']'] tokens) }

/-- `build_query_string`. -/
def buildQueryString : String :=
  (buildQueryStrings floatText parameters).hashQuery

end

/-! ## Reading a query string -/

/-- The key and the value of a pair, form-decoded: a plus sign is a space, and then what is quoted is
unquoted. -/
def formDecode (quoted : List Char) : String := .ofList (unquote (quoted.map spaceForPlus))

/-- A pair, split at its first equals sign. -/
def readPair (pair : List Char) : String × String :=
  (formDecode (pair.takeWhile (· ≠ '=')), formDecode ((pair.dropWhile (· ≠ '=')).drop 1))

/-- The pairs of a query string: it is split at every ampersand, and an empty one has none. -/
def readPairs (query : String) : List (String × String) :=
  if query = "" then [] else (query.toList.splitOn '&').map readPair

end Goodmoneying.Program.GatewayAuth
