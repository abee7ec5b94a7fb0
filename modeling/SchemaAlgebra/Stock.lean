-- SUMMARY: A stock of predicates and transforms, chosen by the names of their operations.
import SchemaAlgebra.Behaviour
import SchemaAlgebra.Value.Property

/-!
# Stock operations

A ready-made `Behaviour` for programs that name what a predicate or transform
does instead of supplying a function. Predicates with an unknown operation
refuse every value; transforms with one change nothing.
-/

namespace SchemaAlgebra.Stock

-- ---------------------------------------------------------------------------
-- Tests
-- ---------------------------------------------------------------------------

def isPositive : Value → Bool
  | .number n => Number.zero.less n
  | _ => false

def isEven : Value → Bool
  | .number n => n.isMultipleOf 2
  | _ => false

def isString (v : Value) : Bool := decide (v.domain = .string)

def isNonEmpty (v : Value) : Bool := v.length?.any fun n => 0 < n

def test (predicate : Predicate) (v : Value) : Bool :=
  match predicate.operation with
  | "true" => true
  | "positive" => isPositive v
  | "even" => isEven v
  | "isString" => isString v
  | "nonEmpty" => isNonEmpty v
  | _ => false

-- ---------------------------------------------------------------------------
-- Functions
-- ---------------------------------------------------------------------------

/-- A list of characters without the spaces at both ends. -/
def trimSpaces (cs : List Char) : List Char :=
  ((cs.dropWhile (· == ' ')).reverse.dropWhile (· == ' ')).reverse

/-- The number that one to nine decimal digits spell. -/
def digitsNumber? (digits : List Char) : Option Nat :=
  if 1 ≤ digits.length ∧ digits.length ≤ 9 ∧ digits.all Char.isDigit then
    some (digits.foldl (fun n c => 10 * n + (c.toNat - 48)) 0)
  else none

/-- The integer that up to nine decimal digits spell, after an optional minus sign. -/
def integer? (text : String) : Option Int :=
  match text.toList with
  | '-' :: digits => (digitsNumber? digits).map fun n => -(n : Int)
  | digits => (digitsNumber? digits).map Int.ofNat

def parsedInteger? : Value → Option Int
  | .string s => integer? s
  | _ => none

def run (transform : Transform) (scene : Scene) (v : Value) (serial : Nat) : Outcome :=
  match transform.operation with
  | "length" => ⟨.number (.ofNat (v.length?.getD 0)), [], serial⟩
  | "trim" => match v with
    | .string s => ⟨.string (String.ofList (trimSpaces s.toList)), [], serial⟩
    | v => ⟨v, [], serial⟩
  | "double" => match v with
    | .number n => ⟨.number n.double, [], serial⟩
    | v => ⟨v, [], serial⟩
  | "wrap" => ⟨.object (.array serial [v]), [], serial + 1⟩
  | "toNull" => ⟨.null, [], serial⟩
  | "toUndefined" => ⟨.undefined, [], serial⟩
  | "parseInt" => match parsedInteger? v with
    | some i => ⟨.number (.ofInt i), [], serial⟩
    | none => ⟨v, [(.custom "Must be an integer string", v)], serial⟩
  | "reject" => ⟨v, [(.unsatisfied "rejected", v)], serial⟩
  | "failTwice" => ⟨.null, [(.custom "first failure", v), (.custom "second failure", v)], serial⟩
  | "addMissing" => ⟨v, [(.missing (.string "x"), v)], serial⟩
  | "path" => ⟨.string ("/".intercalate (scene.path.map PropKey.text)), [], serial⟩
  | "hasProblems" => ⟨.boolean scene.hasProblems, [], serial⟩
  | _ => ⟨v, [], serial⟩

/-- What the stock operations do. -/
@[reducible] def behaviour : Behaviour := ⟨test, run⟩

end SchemaAlgebra.Stock
