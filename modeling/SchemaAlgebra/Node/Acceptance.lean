-- SUMMARY: Which values a node allows.
import SchemaAlgebra.Literal
import SchemaAlgebra.Node.Basic

/-!
# Acceptance

`Node.allows` answers yes or no without saying why. A union with a discriminant
asks its question first and tries only the branches left by the answer.
-/

namespace SchemaAlgebra

-- ---------------------------------------------------------------------------
-- Discriminants
-- ---------------------------------------------------------------------------

namespace CaseKey

/-- The text by which answers are compared; things with an identity have none. -/
def text? : CaseKey → Option String
  | .domain d => some d.name
  | .value v => (Literal.serialize? v).map Json.compact

end CaseKey

namespace Discriminant

/-- The value at a path, as far as there is one. -/
def follow? : List PropKey → Value → Option Value
  | [], v => some v
  | key :: path, v => (v.get? key).bind (follow? path)

/-- The answer that a value gives, as text. -/
def answer? (d : Discriminant) (v : Value) : Option String :=
  (follow? d.path v).bind fun target => match d.probe with
    | .domain => (CaseKey.domain target.domain).text?
    | .value => (CaseKey.value target).text?

/-- The places of the branches that could allow a value: those of the case of its answer. -/
def candidates (d : Discriminant) (v : Value) : List Nat :=
  match d.answer? v with
  | none => []
  | some answer => match d.cases.find? fun c => c.key.text? == some answer with
    | some c => c.branches
    | none => []

end Discriminant

-- ---------------------------------------------------------------------------
-- Leaves
-- ---------------------------------------------------------------------------

/-- A unit allows what strictly equals it, and NaN allows NaN. -/
def Value.isUnitFor (unit v : Value) : Bool :=
  match unit, v with
  | .number .nan, .number n => n.isNaN
  | unit, v => unit.strictlyEquals v

def Number.isDivisibleBy (divisor : Nat) : Value → Bool
  | .number n => n.isMultipleOf divisor
  | _ => false

-- ---------------------------------------------------------------------------
-- Nodes
-- ---------------------------------------------------------------------------

variable [Behaviour]

mutual

/-- Whether a node allows a value; a morph allows what its input allows. -/
def Node.allows : Node → Value → Bool
  | .mk content _ profile, v => Content.allows profile.discriminant content v
termination_by structural node => node

/-- Whether a content allows a value, given the discriminant if it is a union. -/
def Content.allows (discriminant : Option Discriminant) : Content Node → Value → Bool
  | .union branches _, v => match discriminant with
    | some d => Node.someAllowsAt (d.candidates v).contains 0 branches v
    | none => Node.someAllowsAt (fun _ => true) 0 branches v
  | .morph input _ _, v => input.allows v
  | .intersection basis constraints, v => Node.basisAllows basis v && Node.everyAllows constraints v
  | .unit u, v => u.isUnitFor v
  | .proto p, .object o => o.isInstanceOf p
  | .proto _, _ => false
  | .domain d, v => decide (v.domain = d)
  | .divisor d, v => Number.isDivisibleBy d v
  | .max bound, v => bound.allows .max v
  | .min bound, v => bound.allows .min v
  | .pattern p, .string s => p.isMatch s
  | .pattern _, _ => false
  | .predicate p, v => Behaviour.test p v
  | .required key value, v => match v.get? key with
    | some x => value.allows x
    | none => false
  | .optional key value, v => match v.get? key with
    | some x => value.allows x
    | none => true
termination_by structural content => content

/-- Whether some branch allows a value among those whose place is `eligible`; `place` is the place
of the first. -/
def Node.someAllowsAt (eligible : Nat → Bool) (place : Nat) : List Node → Value → Bool
  | [], _ => false
  | branch :: rest, v => (eligible place && branch.allows v) || Node.someAllowsAt eligible (place + 1) rest v
termination_by structural branches => branches

def Node.everyAllows : List Node → Value → Bool
  | [], _ => true
  | rule :: rest, v => rule.allows v && Node.everyAllows rest v
termination_by structural rules => rules

def Node.basisAllows : Option Node → Value → Bool
  | none, _ => true
  | some basis, v => basis.allows v
termination_by structural basis => basis

end

end SchemaAlgebra
