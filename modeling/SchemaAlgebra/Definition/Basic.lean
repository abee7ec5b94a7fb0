-- SUMMARY: Definitions: the literals that schemas are written with.
import SchemaAlgebra.Node.Basic

/-!
# Definitions

A definition is JSON with a few more leaves: values, things with an identity,
and nodes that were made before.
-/

namespace SchemaAlgebra

/-- The literal of a schema. -/
inductive Definition where
  | null
  | bool (b : Bool)
  | number (n : Number)
  | string (s : String)
  | list (items : List Definition)
  | map (entries : List (String × Definition))
  /-- A value, to be used as a unit. -/
  | value (v : Value)
  | proto (p : Proto)
  | predicate (p : Predicate)
  | transform (t : Transform)
  | symbol (s : Symbol)
  | node (node : Node)

namespace Definition

/-- The entries of a map. -/
abbrev Entries := List (String × Definition)

/-- What a definition looks like, for messages. -/
def shape : Definition → String
  | .null => "null"
  | .bool _ => "a boolean"
  | .number _ => "a number"
  | .string _ => "a string"
  | .list _ => "a list"
  | .map _ => "a map"
  | .value _ => "a value"
  | .proto _ => "a proto"
  | .predicate _ => "a predicate"
  | .transform _ => "a morph"
  | .symbol _ => "a symbol"
  | .node _ => "a node"

mutual

/-- A JSON document as a definition; its numbers become doubles. -/
def ofJson : Json → Definition
  | .null => .null
  | .bool b => .bool b
  | .integer n => .number (.ofInt n)
  | .real n => .number n
  | .string s => .string s
  | .array items => .list (ofItems items)
  | .object fields => .map (ofFields fields)
termination_by structural json => json

def ofItems : List Json → List Definition
  | [] => []
  | item :: rest => ofJson item :: ofItems rest
termination_by structural items => items

def ofFields : List (String × Json) → Entries
  | [] => []
  | (key, item) :: rest => (key, ofJson item) :: ofFields rest
termination_by structural fields => fields

end

end Definition

end SchemaAlgebra
