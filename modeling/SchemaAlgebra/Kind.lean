-- SUMMARY: The thirteen kinds of nodes and the order of precedence between them.

/-!
# Kinds

When two nodes are intersected, the one whose kind comes first in the order of
precedence owns the rule that decides the result. The order also sorts the
constraints of an intersection.
-/

namespace SchemaAlgebra

/-- The kind of a node. -/
inductive Kind where
  | union
  | morph
  | intersection
  | unit
  | proto
  | domain
  | divisor
  | max
  | min
  | pattern
  | predicate
  | required
  | optional
  deriving DecidableEq, Repr

namespace Kind

/-- Every kind, in order of precedence. -/
def all : List Kind :=
  [.union, .morph, .intersection, .unit, .proto, .domain, .divisor, .max, .min, .pattern, .predicate,
    .required, .optional]

/-- The kinds of refinements, in order of precedence. -/
def refinements : List Kind :=
  [.divisor, .max, .min, .pattern, .predicate, .required, .optional]

def name : Kind → String
  | .union => "union"
  | .morph => "morph"
  | .intersection => "intersection"
  | .unit => "unit"
  | .proto => "proto"
  | .domain => "domain"
  | .divisor => "divisor"
  | .max => "max"
  | .min => "min"
  | .pattern => "pattern"
  | .predicate => "predicate"
  | .required => "required"
  | .optional => "optional"

def ofName? (name : String) : Option Kind :=
  all.find? fun kind => kind.name == name

/-- The place in the order of precedence. -/
def order : Kind → Nat
  | .union => 0
  | .morph => 1
  | .intersection => 2
  | .unit => 3
  | .proto => 4
  | .domain => 5
  | .divisor => 6
  | .max => 7
  | .min => 8
  | .pattern => 9
  | .predicate => 10
  | .required => 11
  | .optional => 12

def isSet : Kind → Bool
  | .union | .morph | .intersection => true
  | _ => false

/-- Kinds that fix the set a value comes from. -/
def isBasis : Kind → Bool
  | .unit | .proto | .domain => true
  | _ => false

/-- Kinds that narrow a basis. -/
def isRefinement : Kind → Bool
  | .divisor | .max | .min | .pattern | .predicate | .required | .optional => true
  | _ => false

/-- Kinds that an intersection holds as its rules. -/
def isConstraint (kind : Kind) : Bool := kind.isBasis || kind.isRefinement

/-- Kinds that stand directly as the branch of a union. -/
def isBranch : Kind → Bool
  | .morph | .intersection => true
  | kind => kind.isBasis

/-- Refinements that one intersection may hold several of. -/
def isRepeatable : Kind → Bool
  | .pattern | .predicate | .required | .optional => true
  | _ => false

end Kind

end SchemaAlgebra
