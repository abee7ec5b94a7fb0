-- SUMMARY: Collections of problems that remember the place of every path text.
import SchemaAlgebra.Validation.Problem

/-!
# Ledgers

A collection finds a path text by looking through its problems. A ledger keeps
the place of each path text beside the list, and changes the problem at that
place when another one joins it.
-/

namespace SchemaAlgebra

/-- The problems of a collection, with the place in the list of every path text that occurs. -/
structure Ledger where
  list : List Problem
  places : List (String × Nat)
  count : Nat

namespace Ledger

def empty : Ledger := ⟨[], [], 0⟩

def add (ledger : Ledger) (problem : Problem) : Ledger :=
  match ledger.places.lookup problem.location with
  | none =>
    { list := ledger.list ++ [problem]
      places := (problem.location, ledger.list.length) :: ledger.places
      count := ledger.count + 1 }
  | some place =>
    { ledger with
      list := ledger.list.modify place (·.join problem)
      count := ledger.count + 1 }

def ofList (problems : List Problem) : Ledger :=
  problems.foldl add empty

/-- The problem at a location. -/
def at? (ledger : Ledger) (location : String) : Option Problem :=
  (ledger.places.lookup location).bind fun place => ledger.list[place]?

end Ledger

end SchemaAlgebra
