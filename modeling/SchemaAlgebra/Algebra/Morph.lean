-- SUMMARY: Building and intersecting morphs.
import SchemaAlgebra.Algebra.Intersection

/-!
# Morphs

Morphs intersect only if they run the same transforms; what goes in and what
comes out are then intersected separately. Any other node only restricts what
goes in.
-/

namespace SchemaAlgebra

namespace Node

/-- A morph, if its input and output are of kinds that it can have. -/
def createMorph (input : Node) (output : Option Node) (transforms : List Transform) (caption : Caption) :
    SpaceM Node :=
  if ¬ (input.kind = .intersection ∨ input.isBasis) then SpaceM.parseError (.morphInput input.kind)
  else match output.filter isRefinement with
    | some output => SpaceM.parseError (.morphOutput output.kind)
    | none =>
      if transforms.isEmpty then SpaceM.parseError .noTransforms
      else SpaceM.intern (.morph input output transforms) caption

variable [Behaviour]

/-- Intersects the inputs of morphs, which are no morphs themselves. -/
def conjoinInputs (meet : Meet) (l r : Node) : SpaceM Intersected :=
  conjoinBy meet (meetIntersections meet) l r

/-- The output of two intersected morphs: what both say, or what one says. -/
def meetOutputs (meet : Meet) (l r : Option Node) : SpaceM (Except Intersected (Option Node)) :=
  match l, r with
  | some a, some b => do
    match ← meet a b with
    | .node node => return .ok (some node)
    | other => return .error other
  | some a, none => return .ok (some a)
  | none, r => return .ok r

/-- Intersects nodes in order of kind, none before morphs. -/
def meetMorphs (meet : Meet) (l r : Node) : SpaceM Intersected :=
  match l.content, r.content with
  | .morph input output transforms, .morph input' output' transforms' => do
    if transforms ≠ transforms' then SpaceM.parseError (.morphs l.description r.description)
    match ← conjoinInputs meet input input' with
    | .node input => match ← meetOutputs meet output output' with
      | .ok output => return .node (← createMorph input output transforms .none)
      | .error other => return other
    | other => return other
  | .morph input output transforms, _ => do
    match ← conjoinInputs meet input r with
    | .node narrowed =>
      if narrowed.sameType input then return .node l
      else return .node (← createMorph narrowed output transforms .none)
    | other => return other
  | _, _ => meetIntersections meet l r

/-- Intersects the branches of unions, combining what is orthogonal. -/
def conjoinBranches (meet : Meet) (l r : Node) : SpaceM Intersected :=
  conjoinBy meet (meetMorphs meet) l r

end Node

end SchemaAlgebra
