-- SUMMARY: Problems found while validating a value, their messages, and collections that merge problems at one path.
import SchemaAlgebra.Value.Text

/-!
# Problems

A problem says where it is, what is wrong and with which value. A collection
keeps the problems in the order found; a problem whose path reads like that of
an earlier one joins it, so that every path text occurs once.
-/

namespace SchemaAlgebra

/-- A collection of problems of type `π`; `count` also counts the merged ones. -/
structure Collection (π : Type) where
  list : List π
  count : Nat

/-- What is wrong with a value. -/
inductive ProblemCode (π : Type) where
  /-- The value is not what a node describes. -/
  | unsatisfied (expected : String)
  /-- A required key is absent. -/
  | missing (key : PropKey)
  /-- No branch of a union accepts the value; what each branch that was tried found. -/
  | union (expected : String) (branches : List (Collection π))
  /-- Several problems at one path. -/
  | intersection (problems : List π)
  /-- Reported in its own words by a transform. -/
  | custom (message : String)

/-- A problem at a path, with the value it is about. -/
inductive Problem where
  | mk (path : List PropKey) (code : ProblemCode Problem) (data : Value)

/-- The problems of one validation. -/
abbrev Problems := Collection Problem

/-- The displayed keys of a path, joined with points. -/
def pathText (path : List PropKey) : String :=
  ".".intercalate (path.map PropKey.text)

namespace Problem

def path : Problem → List PropKey
  | .mk path _ _ => path

def code : Problem → ProblemCode Problem
  | .mk _ code _ => code

def data : Problem → Value
  | .mk _ _ data => data

/-- The text of the path, by which a collection files the problem. -/
def location (problem : Problem) : String := pathText problem.path

mutual

/-- What the value should have been. -/
def expectation : Problem → String
  | .mk _ (.unsatisfied expected) _ => expected
  | .mk _ (.union expected _) _ => expected
  | .mk _ (.missing _) _ => "provided"
  | .mk _ (.intersection problems) _ => " and ".intercalate (expectations problems)
  | .mk _ (.custom message) _ => message
termination_by structural problem => problem

def expectations : List Problem → List String
  | [] => []
  | problem :: rest => expectation problem :: expectations rest
termination_by structural problems => problems

end

def message (problem : Problem) : String :=
  match problem.code with
  | .missing _ => "Must be provided"
  | .custom message => if problem.path.isEmpty then message else problem.location ++ ": " ++ message
  | _ =>
    if problem.path.isEmpty then "Must be " ++ problem.expectation
    else problem.location ++ " must be " ++ problem.expectation

/-- An earlier problem joined by a later one at the same place. -/
def join (earlier later : Problem) : Problem :=
  match earlier.code with
  | .intersection problems => .mk earlier.path (.intersection (problems ++ [later])) earlier.data
  | _ => .mk earlier.path (.intersection [earlier, later]) earlier.data

end Problem

namespace Problems

def empty : Problems := ⟨[], 0⟩

def isEmpty (problems : Problems) : Bool := problems.list.isEmpty

/-- Files a problem in a list: with the one at its location, or at the end. -/
def file (problem : Problem) : List Problem → List Problem
  | [] => [problem]
  | earlier :: rest =>
    if earlier.location = problem.location then earlier.join problem :: rest
    else earlier :: file problem rest

def add (problems : Problems) (problem : Problem) : Problems :=
  ⟨file problem problems.list, problems.count + 1⟩

def ofList (problems : List Problem) : Problems :=
  problems.foldl add empty

/-- The problem at a location. -/
def at? (problems : Problems) (location : String) : Option Problem :=
  problems.list.find? fun problem => problem.location == location

/-- Every message, one to a line. -/
def summary (problems : Problems) : String :=
  "\n".intercalate (problems.list.map Problem.message)

end Problems

end SchemaAlgebra
