-- SUMMARY: Intersecting two constraints, and whether a constraint can apply to a basis.
import SchemaAlgebra.Algebra.Divisor
import SchemaAlgebra.Space.Basic

/-!
# Constraints

Two bases either merge into one of the two or conflict. Two refinements merge
if they restrict the same aspect of a value, and are orthogonal otherwise.
Properties with one key intersect their values, which is the only place where
constraints ask for an intersection again; how that is done is a parameter.
-/

namespace SchemaAlgebra

/-- How two nodes are intersected. -/
abbrev Meet := Node → Node → SpaceM Intersected

-- ---------------------------------------------------------------------------
-- Divisors
-- ---------------------------------------------------------------------------

/-- The least common multiple of two positive numbers, whether or not it fits 64 bits. -/
def leastCommonMultiple (a b : Nat) : Nat := a / Nat.gcd a b * b

-- ---------------------------------------------------------------------------
-- Bounds
-- ---------------------------------------------------------------------------

namespace Bound

/-- Whether the first of two bounds on one side and axis is at least as strict as the second: an
exclusive bound is stricter than an inclusive one with the same limit. -/
def isStricter (side : BoundSide) (a b : Bound) : Bool :=
  if a.limit.equals b.limit then a.exclusive || !b.exclusive
  else match side with
    | .min => b.limit.less a.limit
    | .max => a.limit.less b.limit

/-- Whether nothing fits between a maximum and a minimum. -/
def leavesNothing (max min : Bound) : Bool :=
  max.limit.less min.limit || (min.limit.equals max.limit && (min.exclusive || max.exclusive))

end Bound

-- ---------------------------------------------------------------------------
-- Pairs of constraints
-- ---------------------------------------------------------------------------

namespace Node

/-- Two bounds on one side: the stricter one, if they measure the same. -/
def meetBounds (side : BoundSide) (l r : Node) (a b : Bound) : Intersected :=
  if a.axis ≠ b.axis then .orthogonal
  else .node (if a.isStricter side b then l else r)

/-- A maximum and a minimum: a conflict if nothing fits between them. -/
def meetRange (l r : Node) (max min : Bound) : Intersected :=
  if max.axis = min.axis ∧ max.leavesNothing min then .disjoint (.between .range l r) else .orthogonal

/-- Two divisors: being a multiple of both is being a multiple of their least common multiple. -/
def meetDivisors (l r : Node) (a b : Nat) : SpaceM Intersected := do
  SpaceM.note (.multiple (leastCommonMultiple a b))
  match Word.lcm (.ofNat a) (.ofNat b) with
  | .error reason => SpaceM.internalError reason
  | .ok none => return .orthogonal
  | .ok (some multiple) =>
    if multiple.toNat = a then return .node l
    else if multiple.toNat = b then return .node r
    else return .node (← SpaceM.internPlain (.divisor multiple.toNat))

/-- Two constructors: the one that derives from the other, if one does. -/
def meetProtos (l r : Node) (a b : Proto) : Intersected :=
  if a.isSubclassOf b then .node l
  else if b.isSubclassOf a then .node r
  else .disjoint (.between .proto l r)

/-- Two properties with one key: the intersection of their values under that key. -/
def meetProps (meet : Meet) (remake : Node → Content Node) (l r : Node) (key : PropKey) (a b : Node) :
    SpaceM Intersected := do
  match ← meet a b with
  | .node value =>
    if value.sameType a then return .node l
    else if value.sameType b then return .node r
    else return .node (← SpaceM.internPlain (remake value))
  | .disjoint d => return .disjoint (d.atKey key)
  | .orthogonal => return .orthogonal

variable [Behaviour]

/-- A unit and a constraint that does not come before it: the unit, if the other allows its value. -/
def meetUnit (l r : Node) (v : Value) : Intersected :=
  if r.allows v then .node l
  else if r.kind = .unit then .disjoint (.between .unit l r)
  else .disjoint (.between .assignability l r)

/-- Intersects two constraints whose kinds are in order. -/
def meetConstraints (meet : Meet) (l r : Node) : SpaceM Intersected :=
  match l.content, r.content with
  | .unit v, _ => return meetUnit l r v
  | .proto a, .proto b => return meetProtos l r a b
  | .proto _, .domain d =>
    return if d = .object then .node l else .disjoint (.between .domain l r)
  | .domain _, .domain _ => return .disjoint (.between .domain l r)
  | .divisor a, .divisor b => meetDivisors l r a b
  | .max a, .max b => return meetBounds .max l r a b
  | .min a, .min b => return meetBounds .min l r a b
  | .max a, .min b => return meetRange l r a b
  | .required key a, .required key' b =>
    if key = key' then meetProps meet (.required key) l r key a b else return .orthogonal
  | .optional key a, .optional key' b =>
    if key = key' then meetProps meet (.optional key) l r key a b else return .orthogonal
  | _, _ =>
    if l.kind.isConstraint && r.kind.isConstraint then return .orthogonal
    else SpaceM.internalError (.unexpectedIntersection l.kind r.kind)

/-- Intersects two nodes by a rule for nodes whose kinds are in order. Nodes of one type give the
first; a conflict found with the nodes swapped is turned round. -/
def meetBy (rule : Meet) (l r : Node) : SpaceM Intersected :=
  if l.sameType r then return .node l
  else if r.kind.order < l.kind.order then return (← rule r l).invert
  else rule l r

/-- Intersects two constraints. -/
def meetRules (meet : Meet) (l r : Node) : SpaceM Intersected :=
  meetBy (meetConstraints meet) l r

end Node

-- ---------------------------------------------------------------------------
-- Applicability
-- ---------------------------------------------------------------------------

namespace Node

/-- Whether a bound on an axis can apply to a basis. -/
def axisApplies (axis : BoundAxis) (basis : Option Node) : Bool :=
  let domain := basis.bind Node.basisDomain?
  let proto := basis.bind Node.basisProto?
  match axis with
  | .value => domain = some .number
  | .length => domain = some .string || proto.any fun p => p.isSubclassOf .array
  | .time => proto.any fun p => p.isSubclassOf .date

/-- Why a refinement cannot apply to a basis, if it cannot. -/
def applicabilityError? (refinement : Node) (basis : Option Node) : Option ParseError :=
  let domain := basis.bind Node.basisDomain?
  let shown := (basis.map Node.description).getD "a value"
  let demand (applies : Bool) (operand : Operand) : Option ParseError :=
    if applies then none else some (.inapplicable operand shown)
  match refinement.content with
  | .predicate _ => none
  | .divisor _ => demand (domain = some .number) .divisibility
  | .pattern _ => demand (domain = some .string) .matching
  | .required _ _ => demand (domain = some .object) .property
  | .optional _ _ => demand (domain = some .object) .property
  | .max bound => demand (axisApplies bound.axis basis) (.bound bound.axis)
  | .min bound => demand (axisApplies bound.axis basis) (.bound bound.axis)
  | _ => some (.notRefinement refinement.kind)

/-- The basis that a refinement implies when it stands alone. -/
def impliedBasis? (refinement : Node) : Option (Content Node) :=
  let ofBound (bound : Bound) : Option (Content Node) := match bound.axis with
    | .value => some (.domain .number)
    | .time => some (.proto .date)
    | .length => none
  match refinement.content with
  | .divisor _ => some (.domain .number)
  | .pattern _ => some (.domain .string)
  | .required _ _ => some (.domain .object)
  | .optional _ _ => some (.domain .object)
  | .max bound => ofBound bound
  | .min bound => ofBound bound
  | _ => none

end Node

end SchemaAlgebra
