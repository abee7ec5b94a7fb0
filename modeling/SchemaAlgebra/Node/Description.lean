-- SUMMARY: The description of a node in words.
import SchemaAlgebra.Node.Basic

/-!
# Descriptions

Every content describes itself from the descriptions of its children. A user's
own description replaces the derived one and so shows up in those built on it.
-/

namespace SchemaAlgebra

def Proto.description (proto : Proto) : String :=
  if proto = .array then "an array"
  else if proto = .date then "a Date"
  else if proto = .function then "a function"
  else "an instance of " ++ proto.name

def Predicate.description (predicate : Predicate) : String :=
  "valid according to " ++ predicate.name.getD "an anonymous predicate"

/-- The relation of a bound to its limit, in words. -/
def Bound.relation (bound : Bound) (side : BoundSide) : String :=
  match bound.axis, side, bound.exclusive with
  | .time, .min, true => "after"
  | .time, .min, false => "at or after"
  | .time, .max, true => "before"
  | .time, .max, false => "at or before"
  | _, .min, true => "more than"
  | _, .min, false => "at least"
  | _, .max, true => "less than"
  | _, .max, false => "at most"

def Bound.description (bound : Bound) (side : BoundSide) : String :=
  let measure := if bound.axis = .length then " length " else " "
  bound.relation side ++ measure ++ bound.limit.display

def divisorDescription (divisor : Nat) : String :=
  if divisor = 1 then "an integer" else "a multiple of " ++ toString divisor

def Content.description (content : Content Node) : String :=
  match content with
  | .union branches _ =>
    if branches.isEmpty then "never" else " or ".intercalate (branches.map Node.description)
  | .morph input output _ =>
    "a morph from " ++ input.description ++ match output with
      | some output => " to " ++ output.description
      | none => ""
  | .intersection basis constraints =>
    let rules := basis.toList ++ constraints
    if rules.isEmpty then "a value" else " and ".intercalate (rules.map Node.description)
  | .unit v => v.text
  | .proto p => p.description
  | .domain d => d.description
  | .divisor d => divisorDescription d
  | .max bound => bound.description .max
  | .min bound => bound.description .min
  | .pattern p => "matched by " ++ p.literal
  | .predicate p => p.description
  | .required key value => key.text ++ ": " ++ value.description
  | .optional key value => key.text ++ "?: " ++ value.description

end SchemaAlgebra
