-- SUMMARY: The condition of a node: a boolean expression over the data it is about.
import SchemaAlgebra.Node.Rendering

/-!
# Conditions

A condition is an expression in JavaScript syntax that holds of the values the
node allows. A child is rendered for the place where its value is found, such as
`data.a` for the property `a`.
-/

namespace SchemaAlgebra

-- ---------------------------------------------------------------------------
-- Leaves
-- ---------------------------------------------------------------------------

def Domain.condition (place : String) : Domain → String
  | .object =>
    "((typeof " ++ place ++ " === \"object\" && " ++ place ++ " !== null) || typeof " ++ place ++
      " === \"function\")"
  | domain => "typeof " ++ place ++ " === \"" ++ domain.name ++ "\""

def Value.unitCondition (registry : Registry) (place : String) : Value → String
  | .number n => if n.isNaN then "Number.isNaN(" ++ place ++ ")" else place ++ " === " ++ n.display
  | .symbol s => place ++ " === " ++ registry.reference (.value (.symbol s))
  | .object o => place ++ " === " ++ registry.reference (.value (.object o))
  | v => place ++ " === " ++ v.text

def Bound.condition (place : String) (side : BoundSide) (bound : Bound) : String :=
  let operand := match bound.axis with
    | .value => place
    | .length => place ++ ".length"
    | .time => place ++ ".valueOf()"
  let comparator := match side, bound.exclusive with
    | .min, true => " > "
    | .min, false => " >= "
    | .max, true => " < "
    | .max, false => " <= "
  operand ++ comparator ++ bound.limit.display

-- ---------------------------------------------------------------------------
-- Properties
-- ---------------------------------------------------------------------------

namespace PropKey

/-- Whether a name can follow a point. -/
def isIdentifier (name : String) : Bool :=
  let isStart (c : Char) : Bool := c.isAlpha || c == '_' || c == '$'
  match name.toList with
  | [] => false
  | c :: rest => isStart c && rest.all fun c => isStart c || c.isDigit

/-- How a property is read off a place, and whether that takes brackets. -/
def access (registry : Registry) : PropKey → String × Bool
  | .string name => if isIdentifier name then ("." ++ name, false) else ("[" ++ Json.quote name ++ "]", true)
  | .symbol s => ("[" ++ registry.reference (.value (.symbol s)) ++ "]", true)

/-- The key itself as an operand. -/
def operand (registry : Registry) : PropKey → String
  | .string name => Json.quote name
  | .symbol s => registry.reference (.value (.symbol s))

end PropKey

-- ---------------------------------------------------------------------------
-- Discriminants
-- ---------------------------------------------------------------------------

def CaseKey.condition (registry : Registry) (place : String) : CaseKey → String
  | .domain .null => place ++ " === null"
  | .domain .undefined => place ++ " === undefined"
  | .domain d => d.condition place
  | .value v => v.unitCondition registry place

/-- The cases one after the other, each with the conditions of its branches, and false if none
applies. The conditions are given by the places of the branches. -/
def Discriminant.condition (registry : Registry) (place : String) (conditions : List String)
    (d : Discriminant) : String :=
  let target := d.path.foldl (fun target key =>
    let (text, bracketed) := key.access registry
    target ++ (if bracketed then "?." else "?") ++ text) place
  d.cases.foldr (fun c rest =>
    let bodies := c.branches.map fun i => "(" ++ (conditions[i]?).getD "" ++ ")"
    c.key.condition registry target ++ " ? (" ++ " || ".intercalate bodies ++ ") : " ++ rest) "false"

/-- Several conditions joined: the neutral one if there is none, and brackets if there are several. -/
def joinConditions (neutral separator : String) : List String → String
  | [] => neutral
  | [condition] => condition
  | conditions => "(" ++ (")" ++ separator ++ "(").intercalate conditions ++ ")"

-- ---------------------------------------------------------------------------
-- Nodes
-- ---------------------------------------------------------------------------

mutual

/-- The condition of a node on the value at a place. -/
def Node.conditionAt (registry : Registry) (place : String) : Node → String
  | .mk content _ profile => Content.conditionAt registry profile.discriminant place content
termination_by structural node => node

def Content.conditionAt (registry : Registry) (discriminant : Option Discriminant) (place : String) :
    Content Node → String
  | .union branches _ =>
    let conditions := Node.conditionsAt registry place branches
    match discriminant with
    | some d => d.condition registry place conditions
    | none => joinConditions "false" " || " conditions
  | .morph input _ _ => Node.conditionAt registry place input
  | .intersection basis constraints =>
    joinConditions "true" " && "
      (Node.basisConditionsAt registry place basis ++ Node.conditionsAt registry place constraints)
  | .unit v => v.unitCondition registry place
  | .proto p => place ++ " instanceof " ++ registry.reference (.proto p)
  | .domain d => d.condition place
  | .divisor d => place ++ " % " ++ toString d ++ " === 0"
  | .max bound => bound.condition place .max
  | .min bound => bound.condition place .min
  | .pattern p => p.literal ++ ".test(" ++ place ++ ")"
  | .predicate p => registry.reference (.predicate p) ++ "(" ++ place ++ ")"
  | .required key value =>
    key.operand registry ++ " in " ++ place ++ " && (" ++
      Node.conditionAt registry (place ++ (key.access registry).1) value ++ ")"
  | .optional key value =>
    "!(" ++ key.operand registry ++ " in " ++ place ++ ") || (" ++
      Node.conditionAt registry (place ++ (key.access registry).1) value ++ ")"
termination_by structural content => content

def Node.conditionsAt (registry : Registry) (place : String) : List Node → List String
  | [] => []
  | node :: rest => Node.conditionAt registry place node :: Node.conditionsAt registry place rest
termination_by structural nodes => nodes

def Node.basisConditionsAt (registry : Registry) (place : String) : Option Node → List String
  | none => []
  | some node => [Node.conditionAt registry place node]
termination_by structural node => node

end

end SchemaAlgebra
