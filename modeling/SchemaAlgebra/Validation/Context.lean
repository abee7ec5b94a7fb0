-- SUMMARY: The state that a traversal works on, a path and a stack of collectors, and the walk that changes it.
import SchemaAlgebra.Validation.Traversal

/-!
# Contexts

One context goes through a whole traversal. It knows the path of the value that is
looked at, the problems found so far, and a stack of further collectors, one for
every branch of a union that is being tried. A report goes to the innermost
collector. A walk is the traversal step by step: it pushes and pops keys and
collectors around the walks of children, and counts problems to see whether to go
on. Beside the value it gives back what happened, so that problems can be told from
those of branches that were given up.
-/

namespace SchemaAlgebra

-- ---------------------------------------------------------------------------
-- Contexts
-- ---------------------------------------------------------------------------

/-- The state of one traversal. -/
structure Context where
  /-- Where the value is that is being traversed. -/
  path : List PropKey
  /-- The problems of the traversal. -/
  root : Problems
  /-- The problems of the branches that are being tried, the innermost first. -/
  branches : List Problems

namespace Context

def start : Context := ⟨[], .empty, []⟩

/-- The collector that reports go to. -/
def innermost (context : Context) : Problems := context.branches.headD context.root

/-- The collectors that reports do not go to, from within. -/
def outer (context : Context) : List Problems := (context.branches ++ [context.root]).tail

/-- Adds a problem to the innermost collector. -/
def collect (context : Context) (problem : Problem) : Context :=
  match context.branches with
  | [] => { context with root := context.root.add problem }
  | inner :: rest => { context with branches := inner.add problem :: rest }

/-- The problem that a report at the current path makes. -/
def problem (context : Context) (code : ProblemCode Problem) (data : Value) : Problem :=
  .mk context.path code data

def add (context : Context) (code : ProblemCode Problem) (data : Value) : Context :=
  context.collect (context.problem code data)

def errorCount (context : Context) : Nat := context.innermost.count

def hasProblems (context : Context) : Bool := 0 < context.errorCount

/-- What a transform can see of the context. All that it can do to it is to add problems. -/
def scene (context : Context) : Scene := ⟨context.path, context.hasProblems⟩

def enter (context : Context) (key : PropKey) : Context := { context with path := context.path ++ [key] }

def leave (context : Context) : Context := { context with path := context.path.dropLast }

def pushBranch (context : Context) : Context := { context with branches := .empty :: context.branches }

/-- The innermost collector, and the context without it. -/
def popBranch (context : Context) : Problems × Context :=
  (context.branches.headD .empty, { context with branches := context.branches.tail })

/-- The result of a traversal that gave a value. -/
def finish (context : Context) (v : Value) : Except Problems Value :=
  if context.root.isEmpty then .ok v else .error context.root

end Context

-- ---------------------------------------------------------------------------
-- Walks
-- ---------------------------------------------------------------------------

/-- Something that happened to the collectors. -/
inductive Incident where
  /-- A problem was reported. -/
  | reported (problem : Problem)
  /-- Branches of a union failed, and what happened in them was given up because a later one accepted the value. -/
  | discarded (incidents : List Incident)

/-- The problem that was reported, unless it was given up. -/
def Incident.problem? : Incident → Option Problem
  | .reported problem => some problem
  | .discarded _ => none

/-- What a walk gives back. -/
structure Walked where
  value : Value
  context : Context
  /-- The next serial number that is free. -/
  nextSerial : Nat
  /-- What happened, in order. -/
  incidents : List Incident

/-- A way to walk a value in a context, given the next serial number that is free. -/
abbrev Walk := Value → Context → Nat → Walked

namespace Walked

/-- The problems that were reported outside of the branches that were given up. -/
def reports (walked : Walked) : List Problem := walked.incidents.filterMap Incident.problem?

/-- A value to which nothing happened. -/
def quiet (v : Value) (context : Context) (serial : Nat) : Walked := ⟨v, context, serial, []⟩

/-- Reports one problem with the value. -/
def report (code : ProblemCode Problem) (v : Value) (context : Context) (serial : Nat) : Walked :=
  ⟨v, context.add code v, serial, [.reported (context.problem code v)]⟩

/-- Goes on with the value and the context. -/
def andThen (walked : Walked) (next : Walk) : Walked :=
  let later := next walked.value walked.context walked.nextSerial
  { later with incidents := walked.incidents ++ later.incidents }

/-- Goes on, unless there are more problems than before. -/
def andThenUnless (walked : Walked) (before : Nat) (next : Walk) : Walked :=
  if before < walked.context.errorCount then walked else walked.andThen next

/-- Back from the value under a key to the object, which is replaced by a new one only if a transform may have
replaced the value. -/
def backInto (walked : Walked) (whole : Value) (key : PropKey) (replace : Bool) : Walked :=
  match whole with
  | .object o =>
    if replace then
      { walked with
        value := .object (o.withProp walked.nextSerial key walked.value)
        context := walked.context.leave
        nextSerial := walked.nextSerial + 1 }
    else { walked with value := whole, context := walked.context.leave }
  | _ => { walked with value := whole, context := walked.context.leave }

end Walked

/-- How the candidates of a union fared. -/
inductive Tries where
  /-- One accepted the value. -/
  | accepted (walked : Walked)
  /-- All failed; what each of them found, and what happened meanwhile. -/
  | failed (failures : List Problems) (context : Context) (nextSerial : Nat) (incidents : List Incident)

/-- Tries the candidates at some places of a union, each with a collector of its own, up to the first that reports
nothing; `failures` is what earlier ones found, last first, and `incidents` what happened in them. -/
def tryEach (branches : List Walk) (v : Value) (failures : List Problems) (incidents : List Incident) :
    List Nat → Context → Nat → Tries
  | [], context, serial => .failed failures.reverse context serial incidents
  | place :: rest, context, serial => match branches[place]? with
    | none => tryEach branches v failures incidents rest context serial
    | some branch =>
      let walked := branch v context.pushBranch serial
      let (problems, context) := walked.context.popBranch
      if problems.isEmpty then
        .accepted { walked with context := context, incidents := .discarded incidents :: walked.incidents }
      else tryEach branches v (problems :: failures) (incidents ++ walked.incidents) rest context walked.nextSerial

/-- What a union makes of its candidates: a single failure is reported as it is, several as one problem. -/
def Tries.conclude (tries : Tries) (description : String) (v : Value) : Walked :=
  match tries with
  | .accepted walked => walked
  | .failed [] context serial _ => .report (.unsatisfied description) v context serial
  | .failed [failure] context serial incidents => ⟨v, failure.list.foldl Context.collect context, serial, incidents⟩
  | .failed failures context serial incidents =>
    (⟨v, context, serial, incidents⟩ : Walked).andThen (.report (.union description failures))

/-- The places of the branches that a union tries on a value, in the order of the trials. -/
def candidatePlaces (discriminant : Option Discriminant) (branches : Nat) (v : Value) : List Nat :=
  match discriminant with
  | some d => d.candidates v
  | none => List.range branches

variable [Behaviour]

namespace Transform

def walk (transform : Transform) : Walk := fun v context serial =>
  let outcome := Behaviour.run transform context.scene v serial
  ⟨outcome.value, outcome.reports.foldl (fun context (code, data) => context.add code data) context,
    outcome.nextSerial, outcome.reports.map fun (code, data) => .reported (context.problem code data)⟩

/-- Runs transforms one after another, up to the first after which there are more problems than before. -/
def walkAll (before : Nat) : List Transform → Walk
  | [], v, context, serial => .quiet v context serial
  | transform :: rest, v, context, serial =>
    (transform.walk v context serial).andThenUnless before (walkAll before rest)

end Transform

mutual

/-- Walks a value; without transforms, an allowed value needs no closer look. -/
def Node.walk : Node → Walk
  | .mk content _ profile, v, context, serial =>
    if !profile.includesMorph && content.allows profile.discriminant v then .quiet v context serial
    else Content.walk profile content v context serial
termination_by structural node => node

def Content.walk (profile : Profile) : Content Node → Walk
  | .union branches _, v, context, serial =>
    (tryEach (Node.walks branches) v [] [] (candidatePlaces profile.discriminant branches.length v) context
      serial).conclude profile.description v
  | .morph input output transforms, v, context, serial =>
    let before := context.errorCount
    ((input.walk v context serial).andThenUnless before (Transform.walkAll before transforms)).andThenUnless before
      fun v context serial => Node.walkOption output v context serial
  | .intersection basis constraints, v, context, serial =>
    (Node.walkOption basis v context serial).andThenUnless context.errorCount fun v context serial =>
      Node.walkAll constraints v context serial
  | .required key value, v, context, serial => match v.get? key with
    | none => (Walked.report (.missing key) v (context.enter key) serial).backInto v key false
    | some x => (value.walk x (context.enter key) serial).backInto v key value.includesMorph
  | .optional key value, v, context, serial => match v.get? key with
    | none => .quiet v context serial
    | some x => (value.walk x (context.enter key) serial).backInto v key value.includesMorph
  | leaf, v, context, serial =>
    if leaf.allows none v then .quiet v context serial
    else .report (.unsatisfied profile.description) v context serial
termination_by structural content => content

/-- The walks of several nodes. -/
def Node.walks : List Node → List Walk
  | [] => []
  | node :: rest => (fun v context serial => node.walk v context serial) :: Node.walks rest
termination_by structural nodes => nodes

/-- Walks a value with one rule after another, whatever they report. -/
def Node.walkAll : List Node → Walk
  | [], v, context, serial => .quiet v context serial
  | rule :: rest, v, context, serial =>
    (rule.walk v context serial).andThen fun v context serial => Node.walkAll rest v context serial
termination_by structural rules => rules

def Node.walkOption : Option Node → Walk
  | none, v, context, serial => .quiet v context serial
  | some node, v, context, serial => node.walk v context serial
termination_by structural node => node

end

end SchemaAlgebra
