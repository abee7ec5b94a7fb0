-- SUMMARY: Finding the discriminant of a union.
import SchemaAlgebra.Node.Acceptance

/-!
# Discrimination

Three kinds of questions are tried: the domain of the value, the value itself,
and the value of a required property. A question counts only if every branch
answers it, and the one with the most different answers is taken.
-/

namespace SchemaAlgebra

namespace Discriminant

/-- A question needs at least this many different answers. -/
def leastCases : Nat := 2

/-- How many required keys of the first branch are tried. -/
def mostKeys : Nat := 64

-- ---------------------------------------------------------------------------
-- Answers of a branch
-- ---------------------------------------------------------------------------

/-- What a branch checks before any transform runs. -/
def validator (branch : Node) : Node :=
  match branch.content with
  | .morph input _ _ => input
  | _ => branch

def branchDomain? (branch : Node) : Option Domain :=
  let node := validator branch
  match node.content with
  | .intersection basis _ => basis.bind Node.basisDomain?
  | _ => node.basisDomain?

def branchUnit? (branch : Node) : Option Value :=
  match (validator branch).content with
  | .unit v => if v.isSerializable then some v else none
  | _ => none

/-- The required properties of a branch. -/
def requiredProps (branch : Node) : List (PropKey × Node) :=
  match (validator branch).content with
  | .intersection _ constraints => constraints.filterMap fun c => match c.content with
    | .required key value => some (key, value)
    | _ => none
  | _ => []

/-- The unit that a branch requires under a key. -/
def branchPropUnit? (key : PropKey) (branch : Node) : Option Value :=
  (requiredProps branch).findSome? fun prop => if prop.1 = key then branchUnit? prop.2 else none

-- ---------------------------------------------------------------------------
-- Cases
-- ---------------------------------------------------------------------------

/-- Adds a branch to the case of its answer, which is new at the end if no branch gave it before. -/
def addBranch (key : CaseKey) (place : Nat) : List DiscriminantCase → List DiscriminantCase
  | [] => [⟨key, [place]⟩]
  | c :: rest =>
    if c.key.text? = key.text? then { c with branches := c.branches ++ [place] } :: rest
    else c :: addBranch key place rest

/-- Sorts branches into cases by their answers. -/
def casesOf (keys : List CaseKey) : List DiscriminantCase :=
  keys.zipIdx.foldl (fun cases (key, place) => addBranch key place cases) []

/-- The discriminant of a question, if all its answers have a text and enough of them differ. -/
def ofAnswers? (probe : Probe) (path : List PropKey) (keys : List CaseKey) : Option Discriminant :=
  let cases := casesOf keys
  if keys.all (fun key => key.text?.isSome) ∧ leastCases ≤ cases.length then some ⟨probe, path, cases⟩
  else none

/-- The answers of all branches, if all give one. -/
def answers? {α : Type} (ask : Node → Option α) (branches : List Node) : Option (List α) :=
  branches.mapM ask

/-- Every question that discriminates the branches. -/
def questions (branches : List Node) : List Discriminant :=
  let domains := (answers? branchDomain? branches).bind fun domains =>
    ofAnswers? .domain [] (domains.map .domain)
  let units := (answers? branchUnit? branches).bind fun units =>
    ofAnswers? .value [] (units.map .value)
  let keys := if branches.all fun b => branchDomain? b = some .object then
      ((branches.head?.map requiredProps).getD []).map Prod.fst
    else []
  let props := (keys.take mostKeys).filterMap fun key =>
    (answers? (branchPropUnit? key) branches).bind fun units =>
      ofAnswers? .value [key] (units.map .value)
  domains.toList ++ units.toList ++ props

/-- The first of the discriminants with the most cases. -/
def best? (found : List Discriminant) : Option Discriminant :=
  found.foldl (fun best d => match best with
    | none => some d
    | some b => if b.cases.length < d.cases.length then some d else some b) none

/-- The discriminant of a union with the given branches. -/
def ofBranches? (branches : List Node) : Option Discriminant :=
  if branches.length < leastCases then none else best? (questions branches)

end Discriminant

end SchemaAlgebra
