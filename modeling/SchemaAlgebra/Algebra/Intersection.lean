-- SUMMARY: Building intersections: folding rules together, checking and sorting them.
import SchemaAlgebra.Algebra.Constraint

/-!
# Intersections

The rules of an intersection are folded in one after the other. A rule that
merges with an earlier one takes its place, any other is added at the end. What
is left is checked, sorted and interned; a basis alone stands for itself.
-/

namespace SchemaAlgebra

/-- Why the rules of an intersection were put together. -/
inductive Origin where
  /-- They were written in a definition: whatever does not fit is an error. -/
  | definition
  /-- Nodes were intersected: what does not fit is a conflict. -/
  | algebra
  deriving DecidableEq

-- ---------------------------------------------------------------------------
-- Sorting
-- ---------------------------------------------------------------------------

/-- Puts an element in front of the first that it may stand before. -/
def insertSorted {α : Type} (le : α → α → Bool) (a : α) : List α → List α
  | [] => [a]
  | b :: rest => if le a b then a :: b :: rest else b :: insertSorted le a rest

/-- Sorts a list and leaves ties as they are. By insertion, so that sorting small lists can be evaluated in proofs. -/
def stableSort {α : Type} (le : α → α → Bool) : List α → List α
  | [] => []
  | a :: rest => insertSorted le a (stableSort le rest)

namespace Node

variable [Behaviour]

-- ---------------------------------------------------------------------------
-- Folding
-- ---------------------------------------------------------------------------

/-- Intersects a constraint with each of the rules before it. Gives the rules with what merged in
place, or the first conflict; `merged` is what the constraint has become so far. -/
def foldInto (meet : Meet) (rule : Node) : (merged : Option Node) → List Node →
    SpaceM (Except Disjoint (List Node))
  | merged, [] => return .ok (if merged.isSome then [] else [rule])
  | merged, existing :: rest => do
    match ← meetRules meet existing rule with
    | .orthogonal => return (← foldInto meet rule merged rest).map (existing :: ·)
    | .disjoint d => return .error d
    | .node node => match merged with
      | none => return (← foldInto meet rule (some node) rest).map (node :: ·)
      | some previous =>
        if previous.sameType node then foldInto meet rule merged rest
        else SpaceM.internalError (.mergedTwice rule.id previous.id node.id)

/-- Adds a constraint to rules. -/
def addRule (meet : Meet) (rules : List Node) (rule : Node) : SpaceM (Except Disjoint (List Node)) :=
  if rule.kind.isConstraint then foldInto meet rule none rules
  else SpaceM.internalError (.notConstraint rule.kind)

/-- Adds constraints to rules one after the other. -/
def addRules (meet : Meet) : (rules : List Node) → List Node → SpaceM (Except Disjoint (List Node))
  | rules, [] => return .ok rules
  | rules, rule :: rest => do
    match ← addRule meet rules rule with
    | .error d => return .error d
    | .ok rules => addRules meet rules rest

-- ---------------------------------------------------------------------------
-- Finishing
-- ---------------------------------------------------------------------------

/-- The order of constraints: by kind, then by type identifier. -/
def constraintLE (a b : Node) : Bool :=
  a.kind.order < b.kind.order || (a.kind.order = b.kind.order && decide (a.typeId ≤ b.typeId))

def sortConstraints (constraints : List Node) : List Node :=
  stableSort constraintLE constraints

/-- Separates the basis from the constraints. -/
def splitBasis : (basis : Option Node) → List Node → SpaceM (Option Node × List Node)
  | basis, [] => return (basis, [])
  | basis, rule :: rest =>
    if rule.isBasis then
      match basis with
      | some existing => SpaceM.internalError (.severalBases existing.id rule.id)
      | none => splitBasis (some rule) rest
    else do
      let (basis, constraints) ← splitBasis basis rest
      return (basis, rule :: constraints)

/-- The first constraint that cannot apply to the basis, with the reason. -/
def firstInapplicable? (basis : Option Node) (constraints : List Node) : Option (Node × ParseError) :=
  constraints.findSome? fun c => (c.applicabilityError? basis).map fun reason => (c, reason)

/-- The node of folded rules whose basis is known. -/
def finishWith (origin : Origin) (caption : Caption) (basis : Option Node) (constraints : List Node) :
    SpaceM (Except Disjoint Node) :=
  match firstInapplicable? basis constraints with
  | some (c, reason) => match origin, basis with
    | .algebra, some basis => return .error (.between .assignability basis c)
    | _, _ => SpaceM.parseError reason
  | none => match basis, constraints with
    | some basis, [] =>
      if caption.isEmpty then return .ok basis else return .ok (← SpaceM.intern basis.content caption)
    | _, _ => return .ok (← SpaceM.intern (.intersection basis (sortConstraints constraints)) caption)

/-- The node of folded rules. Where nodes were intersected and none is a basis, the first basis that a
constraint implies is folded in. -/
def finish (meet : Meet) (origin : Origin) (caption : Caption) (rules : List Node) :
    SpaceM (Except Disjoint Node) := do
  let (basis, constraints) ← splitBasis none rules
  match origin, basis, constraints.findSome? impliedBasis? with
  | .algebra, none, some implied =>
    match ← addRule meet constraints (← SpaceM.internPlain implied) with
    | .error d => return .error d
    | .ok rules =>
      let (basis, constraints) ← splitBasis none rules
      finishWith origin caption basis constraints
  | _, _, _ => finishWith origin caption basis constraints

-- ---------------------------------------------------------------------------
-- Intersections of nodes
-- ---------------------------------------------------------------------------

/-- The conjunction of nodes that are intersections or constraints, folded from left to right. -/
def combineBy (meet : Meet) (operands : List Node) : SpaceM Intersected := do
  match ← addRules meet [] (operands.flatMap rules) with
  | .error d => return .disjoint d
  | .ok rules => match ← finish meet .algebra .none rules with
    | .error d => return .disjoint d
    | .ok node => return .node node

/-- Intersects nodes in order of kind, none before intersections. -/
def meetIntersections (meet : Meet) (l r : Node) : SpaceM Intersected :=
  match l.content with
  | .intersection _ _ => do
    match ← combineBy meet [l, r] with
    | .node node => return .node (if node.sameType l then l else node)
    | other => return other
  | _ => meetConstraints meet l r

/-- Intersects nodes by a rule and combines what is orthogonal. -/
def conjoinBy (meet rule : Meet) (l r : Node) : SpaceM Intersected := do
  match ← meetBy rule l r with
  | .orthogonal => combineBy meet [l, r]
  | other => return other

/-- The intersection of rules written in a definition. -/
def ofDefinitionBy (meet : Meet) (rules : List Node) (caption : Caption) : SpaceM Node := do
  match ← addRules meet [] (rules.flatMap Node.rules) with
  | .error d => SpaceM.parseError (.conflict d)
  | .ok rules => match ← finish meet .definition caption rules with
    | .error d => SpaceM.parseError (.conflict d)
    | .ok node => return node

end Node

end SchemaAlgebra
