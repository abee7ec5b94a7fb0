-- SUMMARY: Everything that can go wrong with a schema, by cause, and the messages.
import SchemaAlgebra.Algebra.Disjoint

/-!
# Errors

A parse error blames the definition, an internal error the library itself. A
conflict between nodes and a failed validation are ordinary results and become
errors only where a caller insists on a node or a value.
-/

namespace SchemaAlgebra

/-- What a constraint that cannot apply to a basis would need. -/
inductive Operand where
  | divisibility
  | matching
  | property
  | bound (axis : BoundAxis)
  deriving DecidableEq, Repr

/-- Why a definition is refused. Definitions appear by their shape, as in `a number`. -/
inductive ParseError where
  | notRoot (shape : String)
  | notKind (kind : Kind) (shape : String)
  | wrongKind (expected found : Kind)
  | unknownKey (kind : Kind) (key : String)
  | missingKey (kind : Kind) (key : String)
  | mistyped (subject expected shape : String)
  | notDomain (name : String)
  | notConstructor (name : String)
  | notUnit (shape : String)
  | notAxis (name : String)
  | notBasis (kind : Kind)
  | notRefinement (kind : Kind)
  | notBranch (kind : Kind)
  /-- A reference to a thing of the wanted sort that is not registered. -/
  | notRegistered (reference sort : String)
  | badDivisor (n : Number)
  | limitNaN (kind : Kind)
  | pattern (error : PatternError)
  | keyMap
  | severalBases
  | inapplicable (operand : Operand) (basis : String)
  | conflict (evidence : Disjoint)
  | morphInput (kind : Kind)
  | morphOutput (kind : Kind)
  | noTransforms
  | morphs (l r : String)
  | config

namespace ParseError

def message : ParseError → String
  | .notRoot shape => shape ++ " is not a valid root schema"
  | .notKind kind shape => shape ++ " is not a valid " ++ kind.name ++ " schema"
  | .wrongKind expected found => "Expected a " ++ expected.name ++ " node (was " ++ found.name ++ ")"
  | .unknownKey kind key => "Key " ++ key ++ " is not valid on " ++ kind.name ++ " schema"
  | .missingKey kind key => kind.name ++ " schema requires key " ++ key
  | .mistyped subject expected shape => subject ++ " must be " ++ expected ++ " (was " ++ shape ++ ")"
  | .notDomain name => name ++ " is not a valid domain"
  | .notConstructor name => name ++ " is not a known constructor"
  | .notUnit shape => shape ++ " is not a valid unit value"
  | .notAxis name => name ++ " is not a valid bound axis"
  | .notBasis kind => kind.name ++ " is not a valid basis"
  | .notRefinement kind => kind.name ++ " is not a refinement"
  | .notBranch kind => kind.name ++ " is not a valid union branch"
  | .notRegistered reference sort => reference ++ " is not a registered " ++ sort
  | .badDivisor n => "Divisor must be a positive integer (was " ++ n.display ++ ")"
  | .limitNaN kind => kind.name ++ " limit must not be NaN"
  | .pattern error => error.message
  | .keyMap => "A property key map must be \x7bsymbol: <reference>\x7d"
  | .severalBases => "An intersection may have at most one basis"
  | .inapplicable .divisibility basis => "Divisibility operand " ++ basis ++ " must be a number"
  | .inapplicable .matching basis => "Match operand " ++ basis ++ " must be a string"
  | .inapplicable .property basis => "Property operand " ++ basis ++ " must be an object"
  | .inapplicable (.bound .value) basis => "Bound operand " ++ basis ++ " must be a number"
  | .inapplicable (.bound .length) basis => "Bound operand " ++ basis ++ " must be a string or an array"
  | .inapplicable (.bound .time) basis => "Bound operand " ++ basis ++ " must be a Date"
  | .conflict evidence => evidence.message
  | .morphInput kind => "Morph input must be an intersection or basis (was " ++ kind.name ++ ")"
  | .morphOutput kind => "Morph output cannot be a bare " ++ kind.name ++ " refinement"
  | .noTransforms => "A morph requires at least one transform"
  | .morphs l r => "Invalid intersection of morphs " ++ l ++ " and " ++ r
  | .config => "Invalid space config"

end ParseError

/-- A violated invariant of the library. -/
inductive InternalError where
  | notConstraint (kind : Kind)
  | mergedTwice (rule first second : String)
  | severalBases (first second : String)
  | unexpectedIntersection (l r : Kind)
  | unexpectedOrthogonal (l r : Kind)
  | nesting
  | divisionByZero

namespace InternalError

def message (error : InternalError) : String :=
  "Internal error: " ++ match error with
    | .notConstraint kind => kind.name ++ " is not a valid constraint kind"
    | .mergedTwice rule first second => "Rule " ++ rule ++ " merged into both " ++ first ++ " and " ++ second
    | .severalBases first second => "Intersection has multiple bases " ++ first ++ " and " ++ second
    | .unexpectedIntersection l r => "Unexpected intersection of " ++ l.name ++ " and " ++ r.name
    | .unexpectedOrthogonal l r => "Unexpected orthogonal result intersecting " ++ l.name ++ " and " ++ r.name
    | .nesting => "Values nest more deeply than their nodes"
    | .divisionByZero => "Attempt to divide by zero"

end InternalError

/-- An error of the library. -/
inductive SchemaError where
  | parse (reason : ParseError)
  | internal (reason : InternalError)
  | unsatisfiable (evidence : Disjoint)
  | validation (summary : String)

namespace SchemaError

def message : SchemaError → String
  | .parse reason => reason.message
  | .internal reason => reason.message
  | .unsatisfiable evidence => evidence.message
  | .validation summary => summary

end SchemaError

end SchemaAlgebra
