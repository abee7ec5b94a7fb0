-- SUMMARY: The encoding of literal values in JSON, and its inverse.
import SchemaAlgebra.Json.Parser
import SchemaAlgebra.Registry

/-!
# Literals

Numbers, booleans and null stand for themselves in JSON. Everything else is a
JSON string, and the spellings keep apart: a string is quoted once more, a
bigint ends in `n`, and things with an identity are references.
-/

namespace SchemaAlgebra

namespace Literal

/-- A number: whole ones below `2 ^ 53` as integers, so `-0` is written like `0`; those JSON cannot
hold as strings. -/
def encodeNumber (n : Number) : Json :=
  match n.toInt? with
  | some i => if i.natAbs < Nat.pow 2 53 then .integer i else .real n
  | none => if n.isFinite then .real n else .string n.display

/-- The encoding of a value that needs no reference. -/
def serialize? : Value → Option Json
  | .null => some .null
  | .boolean b => some (.bool b)
  | .number n => some (encodeNumber n)
  | .string s => some (.string (Json.quote s))
  | .undefined => some (.string "undefined")
  | .bigint n => some (.string (Value.bigintText n))
  | .symbol _ | .object _ => none

/-- The encoding of any value. -/
def encode (registry : Registry) (value : Value) : Json :=
  match serialize? value with
  | some json => json
  | none => .string (registry.reference (.value value))

/-- A bigint: digits after an optional minus and before an `n`, in the range of 128 bits. -/
def readBigint? (text : String) : Option Int :=
  match text.toList.reverse with
  | 'n' :: body =>
    let (negative, digits) := match body.reverse with
      | '-' :: ds => (true, ds)
      | ds => (false, ds)
    if digits.isEmpty ∨ ¬ digits.all Char.isDigit then none
    else
      let size := Number.digitsValue digits
      if negative then if size ≤ Nat.pow 2 127 then some (-(size : Int)) else none
      else if size < Nat.pow 2 127 then some size else none
  | _ => none

/-- Reads a literal encoded as a string. Text that is no encoding stands for itself, but text that
starts like a quoted string or a reference has to be one. -/
def decode? (registry : Registry) (text : String) : Option Value :=
  if text.toList.head? = some '"' then (Json.parseString? text).map .string
  else match text with
  | "undefined" => some .undefined
  | "NaN" => some (.number .nan)
  | "Infinity" => some (.number (.infinity false))
  | "-Infinity" => some (.number (.infinity true))
  | _ => match readBigint? text with
    | some n => some (.bigint n)
    | none =>
      if registry.isReference text then registry.resolveValue? text
      else some (.string text)

end Literal

end SchemaAlgebra
