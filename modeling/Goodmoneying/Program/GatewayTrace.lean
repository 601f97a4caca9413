import Mathlib.Data.String.Basic
import Goodmoneying.Library.StableSort
import Goodmoneying.Library.TextReplacement

/-!
# Traces of the gateway

`trace.py` of the gateway: before a request or an answer is traced, the values under keys that name
a secret are masked, and so is every sensitive text within the other values.

A key is any value that a mapping can have as a key, `κ`, and `str` its text; `σ` are the values
that are neither texts nor made of other values.
-/

namespace Goodmoneying.Program.GatewayTrace

open Library

/-- What can be traced. -/
inductive TraceValue (κ σ : Type) where
  | mapping (entries : List (κ × TraceValue κ σ))
  | list (items : List (TraceValue κ σ))
  | tuple (items : List (TraceValue κ σ))
  | text (value : String)
  | scalar (value : σ)

/-- `MASK`. -/
def mask : String := "***"

/-- `SENSITIVE_KEYS`. -/
def sensitiveKeys : List String :=
  ["authorization", "access_key", "secret_key", "jwt", "token", "query_hash", "query_hash_alg"]

/-- The lower case of a character of ASCII, and of the two others of which the lower case has a
letter of ASCII. Another one stays as it is here: its lower case is in no sensitive key either. -/
def lowerCharacter (c : Char) : List Char :=
  if c = Char.ofNat 0x212A then ['k']
  else if c = Char.ofNat 0x130 then ['i', Char.ofNat 0x307]
  else [c.toLower]

/-- `key.lower()`. -/
def lower (key : String) : String := .ofList (key.toList.flatMap lowerCharacter)

/-- `str(key).lower() in SENSITIVE_KEYS`. -/
def isSensitiveKey {κ : Type} (str : κ → String) (key : κ) : Bool :=
  lower (str key) ∈ sensitiveKeys

/-- `sorted(sensitive_values, key=len, reverse=True)` without the empty one; the values are given in
the order in which the set is gone through. -/
def sensitiveParts (sensitiveValues : List String) : List (List Char) :=
  ((sortedBy (fun value => OrderDual.toDual value.length) sensitiveValues).filter
    (· ≠ "")).map String.toList

/-- A text, sanitized. -/
def sanitizeText (sensitiveValues : List String) (value : String) : String :=
  .ofList (replaceEach mask.toList (sensitiveParts sensitiveValues) value.toList)

section

variable {κ σ : Type} (str : κ → String) (sensitiveValues : List String)

mutual

/-- `sanitize`. -/
def sanitize : TraceValue κ σ → TraceValue κ σ
  | .mapping entries => .mapping (sanitizeEntries entries)
  | .list items => .list (sanitizeItems items)
  | .tuple items => .tuple (sanitizeItems items)
  | .text value => .text (sanitizeText sensitiveValues value)
  | .scalar value => .scalar value

/-- The items of a list or a tuple, sanitized. -/
def sanitizeItems : List (TraceValue κ σ) → List (TraceValue κ σ)
  | [] => []
  | item :: items => sanitize item :: sanitizeItems items

/-- The entries of a mapping, sanitized. -/
def sanitizeEntries : List (κ × TraceValue κ σ) → List (κ × TraceValue κ σ)
  | [] => []
  | (key, item) :: entries =>
    (key, if isSensitiveKey str key then .text mask else sanitize item) :: sanitizeEntries entries

end

end

end Goodmoneying.Program.GatewayTrace
