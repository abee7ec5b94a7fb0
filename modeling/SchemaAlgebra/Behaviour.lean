-- SUMMARY: Predicates and transforms, which the library knows by identity only, and what they do.
import SchemaAlgebra.Validation.Problem

/-!
# Predicates and transforms

A predicate is an arbitrary test of values, a transform an arbitrary function
on them. Schemas only ever compare them by identity and run them; what running
them means is a `Behaviour`, over which everything else is parametric.
-/

namespace SchemaAlgebra

/-- An opaque test. -/
structure Predicate where
  serial : Nat
  name : Option String
  operation : String
  deriving DecidableEq, Repr

/-- An opaque function on values. -/
structure Transform where
  serial : Nat
  name : Option String
  operation : String
  deriving DecidableEq, Repr

/-- What a transform can see of the validation that runs it. -/
structure Scene where
  /-- Where the value is. -/
  path : List PropKey
  /-- Whether the innermost collection of problems already holds one. -/
  hasProblems : Bool

/-- What a transform gives back. -/
structure Outcome where
  value : Value
  /-- Problems to report at the place of the value, in order. -/
  reports : List (ProblemCode Problem × Value)
  /-- The next serial number that is free. -/
  nextSerial : Nat

/-- What predicates and transforms do. -/
class Behaviour where
  test : Predicate → Value → Bool
  /-- The last argument is the next serial number that is free for new objects. -/
  run : Transform → Scene → Value → Nat → Outcome

end SchemaAlgebra
