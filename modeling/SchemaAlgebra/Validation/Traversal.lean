-- SUMMARY: Validating a value against a node, with transforms run and every problem explained.
import SchemaAlgebra.Error
import SchemaAlgebra.Node.Acceptance

/-!
# Traversal

`Node.allows` answers yes or no; traversing also explains why not, and runs the
transforms. A rule of an intersection does not keep later rules from being
checked, but nothing is checked once the basis has failed, and no transform
runs on a value that its input refused. A union tries its branches apart from
each other and reports only if all of them fail.
-/

namespace SchemaAlgebra

-- ---------------------------------------------------------------------------
-- Findings
-- ---------------------------------------------------------------------------

/-- What one traversal gives back. -/
structure Finding where
  value : Value
  /-- What was reported, in order; problems at one path are not merged yet. -/
  problems : List Problem
  /-- The next serial number that is free. -/
  nextSerial : Nat

namespace Finding

/-- A value with nothing to report. -/
def sound (v : Value) (serial : Nat) : Finding := ⟨v, [], serial⟩

def isSound (finding : Finding) : Bool := finding.problems.isEmpty

/-- Goes on with the value, unless there are problems. -/
def andThen (finding : Finding) (next : Value → Nat → Finding) : Finding :=
  if finding.isSound then next finding.value finding.nextSerial else finding

/-- The finding about an object, given that about the value of one of its properties; the object is
replaced by a new one only if a transform may have replaced the value. -/
def backInto (finding : Finding) (whole : Value) (key : PropKey) (replace : Bool) : Finding :=
  match whole with
  | .object o =>
    if replace then
      { finding with
        value := .object (o.withProp finding.nextSerial key finding.value)
        nextSerial := finding.nextSerial + 1 }
    else { finding with value := whole }
  | _ => { finding with value := whole }

end Finding

namespace Scene

def start : Scene := ⟨[], false⟩

/-- The scene of the value under a key. -/
def enter (scene : Scene) (key : PropKey) : Scene := { scene with path := scene.path ++ [key] }

/-- The same place, after some problems were reported. -/
def after (scene : Scene) (problems : List Problem) : Scene :=
  { scene with hasProblems := scene.hasProblems || !problems.isEmpty }

/-- The same place with a collection of problems of its own. -/
def apart (scene : Scene) : Scene := { scene with hasProblems := false }

/-- One problem with the value. -/
def report (scene : Scene) (code : ProblemCode Problem) (v : Value) (serial : Nat) : Finding :=
  ⟨v, [.mk scene.path code v], serial⟩

/-- The problem that the value is not what it should be. -/
def reject (scene : Scene) (expected : String) (v : Value) (serial : Nat) : Finding :=
  scene.report (.unsatisfied expected) v serial

end Scene

/-- How the branches of a union fared. -/
inductive Attempts where
  /-- A branch accepted the value; what the branches before it found does not matter any more. -/
  | accepted (finding : Finding)
  /-- Every branch that was tried failed; what each of them found. -/
  | failed (failures : List Problems) (nextSerial : Nat)

namespace Attempts

/-- What the union reports: a single failure as it is, several as one problem. -/
def conclude (attempts : Attempts) (scene : Scene) (description : String) (v : Value) : Finding :=
  match attempts with
  | .accepted finding => finding
  | .failed [] serial => scene.reject description v serial
  | .failed [failure] serial => ⟨v, failure.list, serial⟩
  | .failed failures serial => scene.report (.union description failures) v serial

end Attempts

variable [Behaviour]

-- ---------------------------------------------------------------------------
-- Transforms
-- ---------------------------------------------------------------------------

namespace Transform

def traverse (transform : Transform) (scene : Scene) (v : Value) (serial : Nat) : Finding :=
  let outcome := Behaviour.run transform scene v serial
  ⟨outcome.value, outcome.reports.map fun (code, data) => .mk scene.path code data, outcome.nextSerial⟩

/-- Runs transforms one after another, up to the first that reports a problem. -/
def traverseAll (scene : Scene) : List Transform → Value → Nat → Finding
  | [], v, serial => .sound v serial
  | transform :: rest, v, serial =>
    (transform.traverse scene v serial).andThen (traverseAll scene rest)

end Transform

-- ---------------------------------------------------------------------------
-- Nodes
-- ---------------------------------------------------------------------------

mutual

/-- Traverses a value; without transforms, an allowed value needs no closer look. -/
def Node.traverse : Node → Scene → Value → Nat → Finding
  | .mk content _ profile, scene, v, serial =>
    if !profile.includesMorph && content.allows profile.discriminant v then .sound v serial
    else Content.traverse profile content scene v serial
termination_by structural node => node

def Content.traverse (profile : Profile) : Content Node → Scene → Value → Nat → Finding
  | .union branches _, scene, v, serial =>
    let eligible := match profile.discriminant with
      | some d => (d.candidates v).contains
      | none => fun _ => true
    (Node.tryBranches eligible 0 [] branches scene.apart v serial).conclude scene profile.description v
  | .morph input output transforms, scene, v, serial =>
    ((input.traverse scene v serial).andThen (Transform.traverseAll scene transforms)).andThen fun v serial =>
      Node.traverseOption output scene v serial
  | .intersection basis constraints, scene, v, serial =>
    (Node.traverseOption basis scene v serial).andThen fun v serial =>
      Node.traverseAll constraints scene v serial
  | .required key value, scene, v, serial => match v.get? key with
    | none => ⟨v, [.mk (scene.path ++ [key]) (.missing key) v], serial⟩
    | some x => (value.traverse (scene.enter key) x serial).backInto v key value.includesMorph
  | .optional key value, scene, v, serial => match v.get? key with
    | none => .sound v serial
    | some x => (value.traverse (scene.enter key) x serial).backInto v key value.includesMorph
  | leaf, scene, v, serial =>
    if leaf.allows none v then .sound v serial else scene.reject profile.description v serial
termination_by structural content => content

/-- Tries the branches whose place is `eligible`, up to the first that accepts the value; `place` is the
place of the first branch, and `failures` what earlier ones found, last first. -/
def Node.tryBranches (eligible : Nat → Bool) (place : Nat) (failures : List Problems) :
    List Node → Scene → Value → Nat → Attempts
  | [], _, _, serial => .failed failures.reverse serial
  | branch :: rest, scene, v, serial =>
    if eligible place then
      let finding := branch.traverse scene v serial
      if finding.isSound then .accepted finding
      else Node.tryBranches eligible (place + 1) (Problems.ofList finding.problems :: failures) rest scene v
        finding.nextSerial
    else Node.tryBranches eligible (place + 1) failures rest scene v serial
termination_by structural branches => branches

/-- Traverses with every rule, whatever the others report. -/
def Node.traverseAll : List Node → Scene → Value → Nat → Finding
  | [], _, v, serial => .sound v serial
  | rule :: rest, scene, v, serial =>
    let first := rule.traverse scene v serial
    let later := Node.traverseAll rest (scene.after first.problems) first.value first.nextSerial
    { later with problems := first.problems ++ later.problems }
termination_by structural rules => rules

def Node.traverseOption : Option Node → Scene → Value → Nat → Finding
  | none, _, v, serial => .sound v serial
  | some node, scene, v, serial => node.traverse scene v serial
termination_by structural node => node

end

-- ---------------------------------------------------------------------------
-- Validation
-- ---------------------------------------------------------------------------

namespace Node

/-- Validates a value and runs the transforms: the result or every problem found, and the next serial
number that is free. -/
def apply (node : Node) (v : Value) (serial : Nat) : Except Problems Value × Nat :=
  let finding := node.traverse .start v serial
  (if finding.isSound then .ok finding.value else .error (.ofList finding.problems), finding.nextSerial)

/-- Validates a value like `apply`; problems become one error with their summary. -/
def assert (node : Node) (v : Value) (serial : Nat) : Except SchemaError Value × Nat :=
  let (result, serial) := node.apply v serial
  (result.mapError fun problems => .validation problems.summary, serial)

end Node

end SchemaAlgebra
