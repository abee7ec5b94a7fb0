-- SUMMARY: What goes into the morphs of a node, and what comes out.
import SchemaAlgebra.Algebra.Conjunction

/-!
# Projection

Replacing every morph by its input gives what a node accepts before any
transform runs; replacing them by their outputs describes the values after all
of them ran. Everything built on a morph is put together again.
-/

namespace SchemaAlgebra

/-- The side of the morphs that is kept. -/
inductive Projection where
  | input
  | output
  deriving DecidableEq

namespace Node

variable [Behaviour]

/-- Rules that were projected, as a node. -/
def combineProjected (rules : List Node) : SpaceM Node := do
  match ← combine rules with
  | .node node => return node
  | .disjoint d => throw (.unsatisfiable d)
  | .orthogonal => SpaceM.unknown

mutual

/-- One side of every morph in a node; a node without morphs stays as it is. -/
def project (side : Projection) : Node → SpaceM Node
  | .mk content caption profile =>
    if profile.includesMorph then projectContent side (.mk content caption profile) content
    else return .mk content caption profile
termination_by structural node => node

/-- One side of every morph in the content of `node`. -/
def projectContent (side : Projection) (node : Node) : Content Node → SpaceM Node
  | .morph input output _ => match side, output with
    | .input, _ => return input
    | .output, some output => return output
    | .output, none => SpaceM.unknown
  | .union branches ordered => do
    assembleUnion (← projectList side branches) ordered .none
  | .intersection basis constraints => do
    let basis ← projectOption side basis
    let constraints ← projectList side constraints
    combineProjected (basis.toList ++ constraints)
  | .required key value => do
    SpaceM.internPlain (.required key (← project side value))
  | .optional key value => do
    SpaceM.internPlain (.optional key (← project side value))
  | _ => return node
termination_by structural content => content

def projectList (side : Projection) : List Node → SpaceM (List Node)
  | [] => return []
  | node :: rest => do
    let node ← project side node
    return node :: (← projectList side rest)
termination_by structural nodes => nodes

def projectOption (side : Projection) : Option Node → SpaceM (Option Node)
  | none => return none
  | some node => return some (← project side node)
termination_by structural node => node

end

end Node

end SchemaAlgebra
