-- SUMMARY: Intersecting any two nodes, adopting foreign nodes, and the operations built on these.
import SchemaAlgebra.Algebra.Union

/-!
# Conjunction

`Node.meetWithin` ties the knot: the values of properties and the outputs of
morphs are intersected by the same rules as the nodes that hold them. They nest
less deeply, so one more level than the operands nest is always enough. Results
live in the space of the first operand; a second operand from elsewhere is
adopted first.
-/

namespace SchemaAlgebra

namespace Node

-- ---------------------------------------------------------------------------
-- Adoption
-- ---------------------------------------------------------------------------

mutual

/-- A node rebuilt in the current space with all its children; a node of this space is itself. -/
def adopt : Node → SpaceM Node
  | .mk content caption profile => do
    if profile.space = (← get).number then return .mk content caption profile
    else SpaceM.intern (← adoptContent content) caption
termination_by structural node => node

/-- Type identifiers can differ between spaces, so children are sorted anew. -/
def adoptContent : Content Node → SpaceM (Content Node)
  | .union branches ordered => do
    let branches ← adoptList branches
    return .union (if ordered then branches else sortBranches branches) ordered
  | .morph input output transforms => do
    let input ← adopt input
    return .morph input (← adoptOption output) transforms
  | .intersection basis constraints => do
    let basis ← adoptOption basis
    return .intersection basis (sortConstraints (← adoptList constraints))
  | .required key value => return .required key (← adopt value)
  | .optional key value => return .optional key (← adopt value)
  | .unit v => return .unit v
  | .proto p => return .proto p
  | .domain d => return .domain d
  | .divisor d => return .divisor d
  | .max bound => return .max bound
  | .min bound => return .min bound
  | .pattern p => return .pattern p
  | .predicate p => return .predicate p
termination_by structural content => content

def adoptList : List Node → SpaceM (List Node)
  | [] => return []
  | node :: rest => do
    let node ← adopt node
    return node :: (← adoptList rest)
termination_by structural nodes => nodes

def adoptOption : Option Node → SpaceM (Option Node)
  | none => return none
  | some node => return some (← adopt node)
termination_by structural node => node

end

/-- Whether two nodes mean the same, seen from the space of the first. -/
def equals (l r : Node) : SpaceM Bool :=
  return l.sameType (← adopt r)

variable [Behaviour]

-- ---------------------------------------------------------------------------
-- Intersection
-- ---------------------------------------------------------------------------

/-- The conjunction of nodes that nest to less than a given depth. -/
def conjoinWithin : (depth : Nat) → Meet
  | 0 => fun _ _ => SpaceM.internalError .nesting
  | depth + 1 => conjoinBy (conjoinWithin depth) (meetUnions (conjoinWithin depth))

/-- Intersects nodes of one space: merged, disjoint, or orthogonal. -/
def meetHere (l r : Node) : SpaceM Intersected :=
  meetBy (meetUnions (conjoinWithin (Nat.max l.nesting r.nesting))) l r

/-- Intersects nodes of one space; what is orthogonal is combined into an intersection. -/
def conjoinHere (l r : Node) : SpaceM Intersected :=
  conjoinWithin (Nat.max l.nesting r.nesting + 1) l r

/-- Intersects two nodes: merged, disjoint, or orthogonal. -/
def intersect (l r : Node) : SpaceM Intersected := do
  meetHere l (← adopt r)

/-- Intersects two nodes; what is orthogonal is combined into an intersection. -/
def conjoin (l r : Node) : SpaceM Intersected := do
  conjoinHere l (← adopt r)

/-- The intersection as a node; a conflict is an error. -/
def and (l r : Node) : SpaceM Node := do
  match ← conjoin l r with
  | .node node => return node
  | .disjoint d => throw (.unsatisfiable d)
  | .orthogonal => SpaceM.internalError (.unexpectedOrthogonal l.kind r.kind)

/-- Whether a node allows only what another allows, as far as the algebra can tell: whether
intersecting it with the other leaves it as it is. -/
def extends? (l r : Node) : SpaceM Bool := do
  match ← conjoin l r with
  | .node node => return node.sameType l
  | _ => return false

-- ---------------------------------------------------------------------------
-- Building
-- ---------------------------------------------------------------------------

/-- The conjunction of nodes that are intersections or constraints, folded from left to right. -/
def combine (operands : List Node) : SpaceM Intersected :=
  combineBy (conjoinWithin (listNesting operands)) operands

/-- The intersection of rules written in a definition. -/
def ofDefinition (basis : Option Node) (refinements : List Node) (caption : Caption) : SpaceM Node :=
  let rules := basis.toList ++ refinements
  ofDefinitionBy (conjoinWithin (listNesting rules)) rules caption

/-- The union of branches of one space. -/
def assembleUnion (branches : List Node) (ordered : Bool) (caption : Caption) : SpaceM Node :=
  assembleUnionBy (conjoinBranches (conjoinWithin (listNesting branches))) branches ordered caption

/-- The union of any nodes. -/
def union (nodes : List Node) : SpaceM Node := do
  assembleUnion (← adoptList nodes) false .none

def or (l r : Node) : SpaceM Node := union [l, r]

/-- The same node with another description. -/
def withDescription (node : Node) (description : String) : SpaceM Node :=
  SpaceM.intern node.content ⟨some description, node.caption.label⟩

end Node

namespace Disjoint

/-- Whether two conflicts are the same, seen from the space of the first. -/
def equals (a b : Disjoint) : SpaceM Bool := do
  if a.kind ≠ b.kind then return false
  if !(← a.l.equals b.l) then return false
  if !(← a.r.equals b.r) then return false
  return a.path = b.path

end Disjoint

namespace Intersected

/-- Whether two outcomes are the same, seen from the space of the first. -/
def equals (a b : Intersected) : SpaceM Bool :=
  match a, b with
  | .node a, .node b => a.equals b
  | .disjoint a, .disjoint b => a.equals b
  | .orthogonal, .orthogonal => return true
  | _, _ => return false

end Intersected

end SchemaAlgebra
