-- SUMMARY: Every operation is put together from a few simple ones, so that it inherits what these have in common.
import SchemaAlgebra.Algebra.Projection
import SchemaAlgebra.Definition.Reader
import SchemaAlgebra.Proofs.Entries

/-!
# Composition

Operations look at the settings and the names of a space, intern contents and note
events, and do nothing else to it. A property that these steps have, and that sequences
of computations inherit, is one of every operation: each function of the algebra and of
the reader has one lemma that says so, whatever the property is. Most functions intern
no domain but those that refinements imply. So their lemmas hold of limited properties
as well, which need not be ones of interning an enumerable domain.
-/

namespace SchemaAlgebra

/-- Whether an error is a conflict that a caller did not want as a result. -/
def SchemaError.isConflict : SchemaError → Bool
  | .unsatisfiable _ => true
  | _ => false

/-- A content that is not an enumerable domain. What these domains allow can be written as units. -/
def Content.NonEnumerable {ν : Type} : Content ν → Prop
  | .domain d => d.isEnumerable = false
  | _ => True

def Node.NonEnumerable (node : Node) : Prop := node.content.NonEnumerable

namespace SpaceM

/-- A property of computations that everything inherits which is put together from computations with it. What is looked
at in a space are its number, its settings and its names. Conflicts are results, which only conjunctions and projections
refuse: a property of these must be one of such refusals as well. A property that is not unlimited need not be one of
interning an enumerable domain. -/
structure Compositional (P : {α : Type} → SpaceM α → Prop) (unlimited : Prop := True) : Prop where
  pure {α : Type} (a : α) : P (Pure.pure a : SpaceM α)
  throw {α : Type} (error : SchemaError) (h : error.isConflict = false) :
    P (MonadExcept.throw error : SpaceM α)
  bind {α β : Type} {x : SpaceM α} {f : α → SpaceM β} (hx : P x) (hf : ∀ a, P (f a)) : P (x >>= f)
  look {α : Type} {f : Space → SpaceM α} (h : ∀ space other : Space, space.number = other.number →
    space.config = other.config → space.registry = other.registry → f space = f other) (hf : ∀ space, P (f space)) :
    P (MonadState.get >>= f)
  note (event : Event) : P (SpaceM.note event)
  intern (content : Content Node) (caption : Caption) (h : unlimited ∨ content.NonEnumerable) :
    P (SpaceM.intern content caption)

variable {P : {α : Type} → SpaceM α → Prop} {unlimited : Prop} (hP : Compositional P unlimited)

include hP

theorem Compositional.reducible : P SpaceM.reducible :=
  hP.look (fun _ _ _ h _ => by rw [h]) fun _ => hP.pure _

theorem Decided.inherits {α : Type} {x : SpaceM α} (h : Decided x) : P x := by
  cases h with
  | result a => exact hP.pure a
  | refusal reason => exact hP.throw _ rfl

end SpaceM

namespace Node

open SpaceM (Compositional)

variable {P : {α : Type} → SpaceM α → Prop} {unlimited : Prop} (hP : Compositional P unlimited) {meet rule : Meet}
  {l r : Node}

include hP

-- ---------------------------------------------------------------------------
-- Adoption
-- ---------------------------------------------------------------------------

theorem adoptList_inherits {nodes : List Node} (h : ∀ n ∈ nodes, P (adopt n)) : P (adoptList nodes) := by
  induction nodes with
  | nil => exact hP.pure _
  | cons node rest ih =>
      obtain ⟨hnode, hrest⟩ := List.forall_mem_cons.mp h
      exact hP.bind hnode fun _ => hP.bind (ih hrest) fun _ => hP.pure _

theorem adoptOption_inherits {node : Option Node} (h : ∀ n ∈ node.toList, P (adopt n)) : P (adoptOption node) := by
  cases node with
  | none => exact hP.pure _
  | some node => exact hP.bind (h node List.mem_cons_self) fun _ => hP.pure _

theorem adopt_inherits (node : Node)
    (h : unlimited ∨ node.Everywhere NonEnumerable) : P (adopt node) := by
  induction node using induct with
  | step content caption profile ih =>
      have hchildren : ∀ c ∈ content.children, P (adopt c) :=
        fun c hc => ih c hc (h.imp_right fun hall => hall.child hc)
      have hself : unlimited ∨ content.NonEnumerable := h.imp_right Everywhere.self
      have hcontent : P (do SpaceM.intern (← adoptContent content) caption) := by
        cases content with
        | union branches ordered =>
            simp only [adoptContent, bind_assoc, pure_bind]
            exact hP.bind (adoptList_inherits hP hchildren) fun _ => hP.intern _ _ (.inr trivial)
        | morph input output transforms =>
            obtain ⟨hinput, houtput⟩ := List.forall_mem_cons.mp hchildren
            simp only [adoptContent, bind_assoc, pure_bind]
            exact hP.bind hinput fun _ => hP.bind (adoptOption_inherits hP houtput) fun _ => hP.intern _ _ (.inr trivial)
        | intersection basis constraints =>
            obtain ⟨hbasis, hconstraints⟩ := List.forall_mem_append.mp hchildren
            simp only [adoptContent, bind_assoc, pure_bind]
            exact hP.bind (adoptOption_inherits hP hbasis) fun _ =>
              hP.bind (adoptList_inherits hP hconstraints) fun _ => hP.intern _ _ (.inr trivial)
        | required key value =>
            simp only [adoptContent, bind_assoc, pure_bind]
            exact hP.bind (hchildren value List.mem_cons_self) fun _ => hP.intern _ _ (.inr trivial)
        | optional key value =>
            simp only [adoptContent, bind_assoc, pure_bind]
            exact hP.bind (hchildren value List.mem_cons_self) fun _ => hP.intern _ _ (.inr trivial)
        | _ => exact hP.intern _ _ hself
      unfold adopt
      refine hP.look (fun space other h _ _ => by rw [h]) fun space => ?_
      split
      · exact hP.pure _
      · exact hcontent

-- ---------------------------------------------------------------------------
-- Constraints
-- ---------------------------------------------------------------------------

theorem meetDivisors_inherits (a b : Nat) : P (meetDivisors l r a b) := by
  refine hP.bind (hP.note _) fun _ => ?_
  split
  · exact hP.throw _ rfl
  · exact hP.pure _
  · split
    · exact hP.pure _
    · split
      · exact hP.pure _
      · exact hP.bind (hP.intern _ _ (.inr trivial)) fun _ => hP.pure _

/-- What becomes of two properties whose values were merged. -/
theorem mergedProp_inherits (remake : Node → Content Node)
    (hremake : unlimited ∨ ∀ value, (remake value).NonEnumerable) (l r a b value : Node) :
    P (if value.sameType a then return .node l else if value.sameType b then return .node r
      else return .node (← SpaceM.internPlain (remake value)) : SpaceM Intersected) := by
  split
  · exact hP.pure _
  · split
    · exact hP.pure _
    · exact hP.bind (hP.intern _ _ (hremake.imp_right fun h => h value)) fun _ => hP.pure _

theorem meetProps_inherits (hmeet : ∀ l r, P (meet l r)) (remake : Node → Content Node) (key : PropKey) (a b : Node)
    (hremake : unlimited ∨ ∀ value, (remake value).NonEnumerable) : P (meetProps meet remake l r key a b) := by
  refine hP.bind (hmeet a b) fun out => ?_
  cases out with
  | node value => exact mergedProp_inherits hP remake hremake l r a b value
  | disjoint d => exact hP.pure _
  | orthogonal => exact hP.pure _

theorem meetBy_inherits (hrule : ∀ l r, P (rule l r)) (l r : Node) : P (meetBy rule l r) := by
  unfold meetBy
  split
  · exact hP.pure _
  · split
    · exact hP.bind (hrule r l) fun _ => hP.pure _
    · exact hrule l r

theorem splitBasis_inherits (basis : Option Node) (rules : List Node) : P (splitBasis basis rules) := by
  induction rules generalizing basis with
  | nil => exact hP.pure _
  | cons rule rest ih =>
      unfold splitBasis
      split
      · split
        · exact hP.throw _ rfl
        · exact ih _
      · exact hP.bind (ih basis) fun _ => hP.pure _

/-- A basis alone is interned again if it gets a caption. -/
theorem finishWith_inherits (origin : Origin) (caption : Caption) (basis : Option Node) (constraints : List Node)
    (h : unlimited ∨ caption.isEmpty = true ∨ ∀ b ∈ basis, b.NonEnumerable) :
    P (finishWith origin caption basis constraints) := by
  unfold finishWith
  split
  · split
    · exact hP.pure _
    · exact hP.throw _ rfl
  · split
    · rename_i b _
      split
      · exact hP.pure _
      · rename_i hcaption
        exact hP.bind (hP.intern _ _ (h.imp_right fun h => h.resolve_left hcaption b rfl)) fun _ => hP.pure _
    · exact hP.bind (hP.intern _ _ (.inr trivial)) fun _ => hP.pure _

omit hP in
/-- No refinement implies an enumerable domain. -/
theorem nonEnumerable_of_impliedBasis? {constraints : List Node} {implied : Content Node}
    (h : constraints.findSome? impliedBasis? = some implied) : implied.NonEnumerable := by
  obtain ⟨c, -, hc⟩ := List.exists_of_findSome?_eq_some h
  unfold impliedBasis? at hc
  cases hcontent : c.content with
  | max bound =>
      simp only [hcontent] at hc
      cases haxis : bound.axis <;> rw [haxis] at hc <;> cases hc <;> trivial
  | min bound =>
      simp only [hcontent] at hc
      cases haxis : bound.axis <;> rw [haxis] at hc <;> cases hc <;> trivial
  | _ => rw [hcontent] at hc; cases hc <;> trivial

theorem createMorph_inherits (input : Node) (output : Option Node) (transforms : List Transform) (caption : Caption) :
    P (createMorph input output transforms caption) := by
  unfold createMorph
  split
  · exact hP.throw _ rfl
  · split
    · exact hP.throw _ rfl
    · split
      · exact hP.throw _ rfl
      · exact hP.intern _ _ (.inr trivial)

variable [Behaviour]

theorem meetConstraints_inherits (hmeet : ∀ l r, P (meet l r)) (l r : Node) : P (meetConstraints meet l r) := by
  unfold meetConstraints
  split
  case h_5 => exact meetDivisors_inherits hP _ _
  case h_9 =>
    split
    · exact meetProps_inherits hP hmeet _ _ _ _ (.inr fun _ => trivial)
    · exact hP.pure _
  case h_10 =>
    split
    · exact meetProps_inherits hP hmeet _ _ _ _ (.inr fun _ => trivial)
    · exact hP.pure _
  case h_11 =>
    split
    · exact hP.pure _
    · exact hP.throw _ rfl
  all_goals exact hP.pure _

theorem meetRules_inherits (hmeet : ∀ l r, P (meet l r)) (l r : Node) : P (meetRules meet l r) :=
  meetBy_inherits hP (meetConstraints_inherits hP hmeet) l r

-- ---------------------------------------------------------------------------
-- Intersections
-- ---------------------------------------------------------------------------

theorem foldInto_inherits (hmeet : ∀ l r, P (meet l r)) (rule : Node) (merged : Option Node) (rules : List Node) :
    P (foldInto meet rule merged rules) := by
  induction rules generalizing merged with
  | nil => exact hP.pure _
  | cons existing rest ih =>
      refine hP.bind (meetRules_inherits hP hmeet existing rule) fun out => ?_
      cases out with
      | orthogonal => exact hP.bind (ih merged) fun _ => hP.pure _
      | disjoint d => exact hP.pure _
      | node node =>
          cases merged with
          | none => exact hP.bind (ih (some node)) fun _ => hP.pure _
          | some previous =>
              dsimp only
              split
              · exact ih (some previous)
              · exact hP.throw _ rfl

theorem addRule_inherits (hmeet : ∀ l r, P (meet l r)) (rules : List Node) (rule : Node) :
    P (addRule meet rules rule) := by
  unfold addRule
  split
  · exact foldInto_inherits hP hmeet rule none rules
  · exact hP.throw _ rfl

theorem addRules_inherits (hmeet : ∀ l r, P (meet l r)) (rules more : List Node) :
    P (addRules meet rules more) := by
  induction more generalizing rules with
  | nil => exact hP.pure _
  | cons rule rest ih =>
      refine hP.bind (addRule_inherits hP hmeet rules rule) fun out => ?_
      cases out with
      | error d => exact hP.pure _
      | ok rules => exact ih rules

omit [Behaviour] in
/-- What follows once an implied basis was folded in. -/
theorem refinish_inherits (caption : Caption) (h : unlimited ∨ caption.isEmpty = true)
    (out : Except Disjoint (List Node)) : P (match out with
    | .error d => return .error d
    | .ok rules => do
      let (basis, constraints) ← splitBasis none rules
      finishWith .algebra caption basis constraints : SpaceM (Except Disjoint Node)) := by
  cases out with
  | error d => exact hP.pure _
  | ok rules =>
      exact hP.bind (splitBasis_inherits hP none rules) fun _ => finishWith_inherits hP _ _ _ _ (h.imp_right .inl)

theorem finish_inherits (hmeet : ∀ l r, P (meet l r)) (origin : Origin) (caption : Caption) (rules : List Node)
    (h : unlimited ∨ caption.isEmpty = true) : P (finish meet origin caption rules) := by
  refine hP.bind (splitBasis_inherits hP none rules) fun parts => ?_
  dsimp only
  split
  · rename_i himplied
    refine hP.bind (hP.intern _ _ (.inr (nonEnumerable_of_impliedBasis? himplied))) fun implied => ?_
    exact hP.bind (addRule_inherits hP hmeet _ implied) fun out => refinish_inherits hP caption h out
  · exact finishWith_inherits hP _ _ _ _ (h.imp_right .inl)

theorem combineBy_inherits (hmeet : ∀ l r, P (meet l r)) (operands : List Node) : P (combineBy meet operands) := by
  refine hP.bind (addRules_inherits hP hmeet [] _) fun out => ?_
  cases out with
  | error d => exact hP.pure _
  | ok rules =>
      refine hP.bind (finish_inherits hP hmeet .algebra .none rules (.inr rfl)) fun out => ?_
      cases out <;> exact hP.pure _

theorem meetIntersections_inherits (hmeet : ∀ l r, P (meet l r)) (l r : Node) :
    P (meetIntersections meet l r) := by
  unfold meetIntersections
  split
  · refine hP.bind (combineBy_inherits hP hmeet _) fun out => ?_
    cases out <;> exact hP.pure _
  · exact meetConstraints_inherits hP hmeet l r

/-- What becomes of an outcome: nodes that are orthogonal are combined. -/
theorem combined_inherits (hmeet : ∀ l r, P (meet l r)) (operands : List Node) (out : Intersected) :
    P (match out with
      | .orthogonal => combineBy meet operands
      | other => return other : SpaceM Intersected) := by
  cases out with
  | orthogonal => exact combineBy_inherits hP hmeet operands
  | node n => exact hP.pure _
  | disjoint d => exact hP.pure _

theorem conjoinBy_inherits (hmeet : ∀ l r, P (meet l r)) (hrule : ∀ l r, P (rule l r)) (l r : Node) :
    P (conjoinBy meet rule l r) :=
  hP.bind (meetBy_inherits hP hrule l r) (combined_inherits hP hmeet [l, r])

-- ---------------------------------------------------------------------------
-- Morphs
-- ---------------------------------------------------------------------------

omit [Behaviour] in
theorem meetOutputs_inherits (hmeet : ∀ l r, P (meet l r)) (l r : Option Node) : P (meetOutputs meet l r) := by
  cases l with
  | none => exact hP.pure _
  | some a =>
      cases r with
      | none => exact hP.pure _
      | some b =>
          refine hP.bind (hmeet a b) fun out => ?_
          cases out <;> exact hP.pure _

theorem conjoinInputs_inherits (hmeet : ∀ l r, P (meet l r)) (l r : Node) : P (conjoinInputs meet l r) :=
  conjoinBy_inherits hP hmeet (meetIntersections_inherits hP hmeet) l r

omit [Behaviour] in
/-- What becomes of two morphs whose inputs were merged, once their outputs were intersected. -/
theorem mergedMorph_inherits (transforms : List Transform) (input : Node) (out : Except Intersected (Option Node)) :
    P (match out with
      | .ok output => return .node (← createMorph input output transforms .none)
      | .error other => return other : SpaceM Intersected) := by
  cases out with
  | ok output => exact hP.bind (createMorph_inherits hP _ _ _ _) fun _ => hP.pure _
  | error other => exact hP.pure _

omit [Behaviour] in
/-- What becomes of a morph whose input was narrowed. -/
theorem narrowedMorph_inherits (transforms : List Transform) (l input narrowed : Node) (output : Option Node) :
    P (if narrowed.sameType input then return .node l
      else return .node (← createMorph narrowed output transforms .none) : SpaceM Intersected) := by
  split
  · exact hP.pure _
  · exact hP.bind (createMorph_inherits hP _ _ _ _) fun _ => hP.pure _

/-- Two morphs that run the same transforms. -/
theorem mergeMorphs_inherits (hmeet : ∀ l r, P (meet l r)) (input input' : Node) (output output' : Option Node)
    (transforms : List Transform) :
    P (do match ← conjoinInputs meet input input' with
      | .node input => match ← meetOutputs meet output output' with
        | .ok output => return .node (← createMorph input output transforms .none)
        | .error other => return other
      | other => return other : SpaceM Intersected) := by
  refine hP.bind (conjoinInputs_inherits hP hmeet input input') fun out => ?_
  cases out with
  | node input => exact hP.bind (meetOutputs_inherits hP hmeet output output') (mergedMorph_inherits hP transforms input)
  | disjoint d => exact hP.pure _
  | orthogonal => exact hP.pure _

theorem meetMorphs_inherits (hmeet : ∀ l r, P (meet l r)) (l r : Node) : P (meetMorphs meet l r) := by
  unfold meetMorphs
  split
  · rename_i input output transforms input' output' transforms' _ _
    have hmerge := mergeMorphs_inherits hP hmeet input input' output output' transforms
    split
    · exact hP.bind (hP.throw _ rfl) fun _ => hmerge
    · exact hmerge
  · refine hP.bind (conjoinInputs_inherits hP hmeet _ r) fun out => ?_
    cases out with
    | node narrowed => exact narrowedMorph_inherits hP _ _ _ _ _
    | disjoint d => exact hP.pure _
    | orthogonal => exact hP.pure _
  · exact meetIntersections_inherits hP hmeet l r

theorem conjoinBranches_inherits (hmeet : ∀ l r, P (meet l r)) (l r : Node) : P (conjoinBranches meet l r) :=
  conjoinBy_inherits hP hmeet (meetMorphs_inherits hP hmeet) l r

-- ---------------------------------------------------------------------------
-- Unions
-- ---------------------------------------------------------------------------

section

omit [Behaviour]

variable {conjoin : Meet}

theorem flatten_inherits (branches : List Node) : P (flatten branches) := by
  induction branches with
  | nil => exact hP.pure _
  | cons branch rest ih =>
      unfold flatten
      split
      · exact hP.bind ih fun _ => hP.pure _
      · split
        · exact hP.bind ih fun _ => hP.pure _
        · exact hP.throw _ rfl

/-- What follows for a branch, once it was intersected with a later one and is not covered by it. -/
theorem comparedTo_inherits (result branch node : Node) (kept : List Bool) {x : SpaceM (Bool × List Bool)} (hx : P x) :
    P (if result.sameType branch then return (false, true :: kept)
      else do
        let (keep, kept) ← x
        return (keep, (!result.sameType node) :: kept) : SpaceM (Bool × List Bool)) := by
  split
  · exact hP.pure _
  · exact hP.bind hx fun _ => hP.pure _

theorem compareWithLater_inherits (hconjoin : ∀ l r, P (conjoin l r)) (branch : Node) (later : List Node)
    (kept : List Bool) : P (compareWithLater conjoin branch later kept) := by
  induction later generalizing kept with
  | nil => cases kept <;> exact hP.pure _
  | cons node rest ih =>
      match kept with
      | [] => exact hP.pure _
      | false :: kept => exact hP.bind (ih kept) fun _ => hP.pure _
      | true :: kept =>
          unfold compareWithLater
          split
          · exact hP.bind (ih kept) fun _ => hP.pure _
          · refine hP.bind (hconjoin branch node) fun out => ?_
            split
            · exact comparedTo_inherits hP _ branch node kept (ih kept)
            · exact hP.bind (ih kept) fun _ => hP.pure _

theorem reduceFrom_inherits (hconjoin : ∀ l r, P (conjoin l r)) (branches : List Node) (kept : List Bool) :
    P (reduceFrom conjoin branches kept) := by
  induction branches generalizing kept with
  | nil => cases kept <;> exact hP.pure _
  | cons branch rest ih =>
      match kept with
      | [] => exact hP.pure _
      | false :: kept => exact ih kept
      | true :: kept =>
          exact hP.bind (compareWithLater_inherits hP hconjoin branch rest kept) fun out =>
            hP.bind (ih out.2) fun _ => hP.pure _

theorem reduceUpTo_inherits (hconjoin : ∀ l r, P (conjoin l r)) (limit : Nat) (branches : List Node) :
    P (reduceUpTo limit conjoin branches) := by
  unfold reduceUpTo
  split
  · exact reduceFrom_inherits hP hconjoin branches _
  · exact hP.pure _

theorem coverAll_inherits (branches : List Node) : P (coverAll branches) := by
  unfold coverAll
  split
  · exact hP.bind (hP.note _) fun _ => hP.bind (hP.intern _ _ (.inr trivial)) fun _ => hP.pure _
  · exact hP.pure _

/-- What is left of branches, put together. -/
theorem only_inherits (sorted : List Node) (ordered : Bool) (caption : Caption) :
    P (match sorted, caption.isEmpty with
      | [only], true => return only
      | _, _ => SpaceM.intern (.union sorted ordered) caption : SpaceM Node) := by
  split
  · exact hP.pure _
  · exact hP.intern _ _ (.inr trivial)

theorem assembleUnionBy_inherits (hconjoin : ∀ l r, P (conjoin l r)) (branches : List Node) (ordered : Bool)
    (caption : Caption) : P (assembleUnionBy conjoin branches ordered caption) :=
  hP.bind (flatten_inherits hP branches) fun _ => hP.bind (hP.note _) fun _ => hP.bind hP.reducible fun _ =>
    hP.bind (reduceUpTo_inherits hP hconjoin _ _) fun _ => hP.bind (coverAll_inherits hP _) fun _ =>
      only_inherits hP _ _ _

theorem meetRow_inherits (hconjoin : ∀ l r, P (conjoin l r)) (branch : Node) (columns : List Column) :
    P (meetRow conjoin branch columns) := by
  induction columns with
  | nil => exact hP.pure _
  | cons column rest ih =>
      have hpass {α : Type} (f : Row → α) : P (do return f (← meetRow conjoin branch rest) : SpaceM α) :=
        hP.bind ih fun _ => hP.pure _
      unfold meetRow
      split
      · exact hpass _
      · split
        · exact hP.pure _
        · refine hP.bind (hconjoin branch column.branch) fun out => ?_
          split
          · split
            · exact hP.pure _
            · split <;> exact hpass _
          · exact hpass _

theorem meetRows_inherits (hconjoin : ∀ l r, P (conjoin l r)) (branches : List Node) (columns : List Column) :
    P (meetRows conjoin branches columns) := by
  induction branches generalizing columns with
  | nil => exact hP.pure _
  | cons branch rest ih =>
      exact hP.bind (meetRow_inherits hP hconjoin branch columns) fun _ => hP.bind (ih _) fun _ => hP.pure _

end

theorem meetUnions_inherits (hmeet : ∀ l r, P (meet l r)) (l r : Node) : P (meetUnions meet l r) := by
  unfold meetUnions
  split
  · dsimp only
    split
    · exact hP.pure _
    · refine hP.bind (meetRows_inherits hP (conjoinBranches_inherits hP hmeet) _ _) fun found => ?_
      split
      · exact hP.pure _
      · exact hP.bind (assembleUnionBy_inherits hP (conjoinBranches_inherits hP hmeet) _ _ _) fun _ => hP.pure _
    · exact hP.pure _
  · exact meetMorphs_inherits hP hmeet l r

/-- Conjoining any two nodes only adds to a space. -/
theorem conjoinWithin_inherits (depth : Nat) (l r : Node) : P (conjoinWithin depth l r) := by
  induction depth generalizing l r with
  | zero => exact hP.throw _ rfl
  | succ depth ih => exact conjoinBy_inherits hP ih (meetUnions_inherits hP ih) l r

-- ---------------------------------------------------------------------------
-- Projection
-- ---------------------------------------------------------------------------

theorem combine_inherits (operands : List Node) : P (combine operands) :=
  combineBy_inherits hP (conjoinWithin_inherits hP _) operands

theorem assembleUnion_inherits (branches : List Node) (ordered : Bool) (caption : Caption) :
    P (assembleUnion branches ordered caption) :=
  assembleUnionBy_inherits hP (conjoinBranches_inherits hP (conjoinWithin_inherits hP _)) branches ordered caption

theorem combineProjected_inherits (hrefuse : ∀ d, P (MonadExcept.throw (.unsatisfiable d) : SpaceM Node))
    (rules : List Node) : P (combineProjected rules) := by
  refine hP.bind (combine_inherits hP rules) fun out => ?_
  cases out with
  | node n => exact hP.pure _
  | disjoint d => exact hrefuse d
  | orthogonal => exact hP.intern _ _ (.inr trivial)

theorem projectList_inherits {side : Projection} {nodes : List Node} (h : ∀ n ∈ nodes, P (project side n)) :
    P (projectList side nodes) := by
  induction nodes with
  | nil => exact hP.pure _
  | cons node rest ih =>
      obtain ⟨hnode, hrest⟩ := List.forall_mem_cons.mp h
      exact hP.bind hnode fun _ => hP.bind (ih hrest) fun _ => hP.pure _

theorem projectOption_inherits {side : Projection} {node : Option Node} (h : ∀ n ∈ node, P (project side n)) :
    P (projectOption side node) := by
  cases node with
  | none => exact hP.pure _
  | some node => exact hP.bind (h node rfl) fun _ => hP.pure _

/-- Projecting any node only adds to a space. -/
theorem project_inherits (hrefuse : ∀ d, P (MonadExcept.throw (.unsatisfiable d) : SpaceM Node)) (side : Projection)
    (node : Node) : P (project side node) := by
  induction node using induct with
  | step content caption profile ih =>
      unfold project
      split
      · cases content with
        | union branches ordered => exact hP.bind (projectList_inherits hP ih) fun _ => assembleUnion_inherits hP _ _ _
        | morph input output transforms =>
            unfold projectContent
            split
            · exact hP.pure _
            · exact hP.pure _
            · exact hP.intern _ _ (.inr trivial)
        | intersection basis constraints =>
            obtain ⟨hbasis, hconstraints⟩ := List.forall_mem_append.mp ih
            exact hP.bind (projectOption_inherits hP fun b hb => hbasis b (Option.mem_toList.mpr hb)) fun _ =>
              hP.bind (projectList_inherits hP hconstraints) fun _ => combineProjected_inherits hP hrefuse _
        | required key value => exact hP.bind (ih value List.mem_cons_self) fun _ => hP.intern _ _ (.inr trivial)
        | optional key value => exact hP.bind (ih value List.mem_cons_self) fun _ => hP.intern _ _ (.inr trivial)
        | _ => exact hP.pure _
      · exact hP.pure _

end Node

-- ---------------------------------------------------------------------------
-- Operations
-- ---------------------------------------------------------------------------

namespace Node

open SpaceM (Compositional)

variable {P : {α : Type} → SpaceM α → Prop} {unlimited : Prop} (hP : Compositional P unlimited)

include hP

theorem equals_inherits (l r : Node) (h : unlimited ∨ r.Everywhere NonEnumerable) :
    P (equals l r) :=
  hP.bind (adopt_inherits hP r h) fun _ => hP.pure _

theorem adoptAll_inherits (nodes : List Node)
    (h : unlimited ∨ ∀ n ∈ nodes, n.Everywhere NonEnumerable) : P (adoptList nodes) :=
  adoptList_inherits hP fun n hn => adopt_inherits hP n (h.imp_right fun h => h n hn)

theorem withDescription_inherits (node : Node) (description : String)
    (h : unlimited ∨ node.NonEnumerable) : P (withDescription node description) :=
  hP.intern _ _ h

variable [Behaviour]

theorem intersect_inherits (l r : Node) (h : unlimited ∨ r.Everywhere NonEnumerable) :
    P (intersect l r) :=
  hP.bind (adopt_inherits hP r h) fun _ =>
    meetBy_inherits hP (meetUnions_inherits hP (conjoinWithin_inherits hP _)) _ _

theorem conjoin_inherits (l r : Node) (h : unlimited ∨ r.Everywhere NonEnumerable) :
    P (conjoin l r) :=
  hP.bind (adopt_inherits hP r h) fun _ => conjoinWithin_inherits hP _ _ _

theorem and_inherits (hrefuse : ∀ d, P (MonadExcept.throw (.unsatisfiable d) : SpaceM Node)) (l r : Node)
    (h : unlimited ∨ r.Everywhere NonEnumerable) : P (and l r) := by
  refine hP.bind (conjoin_inherits hP l r h) fun out => ?_
  cases out with
  | node n => exact hP.pure _
  | disjoint d => exact hrefuse d
  | orthogonal => exact hP.throw _ rfl

theorem extends?_inherits (l r : Node) (h : unlimited ∨ r.Everywhere NonEnumerable) :
    P (extends? l r) := by
  refine hP.bind (conjoin_inherits hP l r h) fun out => ?_
  cases out <;> exact hP.pure _

theorem union_inherits (nodes : List Node)
    (h : unlimited ∨ ∀ n ∈ nodes, n.Everywhere NonEnumerable) : P (union nodes) :=
  hP.bind (adoptAll_inherits hP nodes h) fun _ => assembleUnion_inherits hP _ _ _

theorem ofDefinition_inherits (basis : Option Node) (refinements : List Node) (caption : Caption)
    (h : unlimited ∨ caption.isEmpty = true) : P (ofDefinition basis refinements caption) := by
  refine hP.bind (addRules_inherits hP (conjoinWithin_inherits hP _) [] _) fun out => ?_
  cases out with
  | error d => exact hP.throw _ rfl
  | ok rules =>
      refine hP.bind (finish_inherits hP (conjoinWithin_inherits hP _) .definition caption rules h) fun out => ?_
      cases out with
      | error d => exact hP.throw _ rfl
      | ok n => exact hP.pure _

end Node

-- ---------------------------------------------------------------------------
-- Reading
-- ---------------------------------------------------------------------------

namespace Definition

open SpaceM (Compositional)

variable {P : {α : Type} → SpaceM α → Prop} {unlimited : Prop} (hP : Compositional P unlimited)

include hP

theorem registry_inherits : P registry := hP.look (fun _ _ _ _ h => by rw [h]) fun _ => hP.pure _

theorem readLiteral_inherits (d : Definition) : P (readLiteral d) := by
  unfold readLiteral
  split
  case h_6 =>
    refine hP.bind (registry_inherits hP) fun _ => ?_
    split
    · exact hP.pure _
    · exact hP.throw _ rfl
  case h_7 => exact hP.throw _ rfl
  all_goals exact hP.pure _

theorem readUnit_inherits (d : Definition) : P (readUnit d) := by
  unfold readUnit
  split
  · exact hP.intern _ _ (.inr trivial)
  · refine hP.bind ((entriesOf_decided _ _).inherits hP) fun _ => ?_
    refine hP.bind ((checkEntries_decided _ _ _).inherits hP) fun _ => ?_
    refine hP.bind ((requiredEntry_decided _ _ _).inherits hP) fun _ => ?_
    exact hP.bind (readLiteral_inherits hP _) fun _ => hP.intern _ _ (.inr trivial)

theorem readProtoName_inherits (name : String) : P (readProtoName name) := by
  refine hP.bind (registry_inherits hP) fun _ => ?_
  split
  · exact hP.pure _
  · split
    · exact hP.pure _
    · exact hP.throw _ rfl

theorem readProto_inherits (d : Definition) : P (readProto d) := by
  unfold readProto
  split
  · exact hP.intern _ _ (.inr trivial)
  · exact hP.bind (readProtoName_inherits hP _) fun _ => hP.intern _ _ (.inr trivial)
  · refine hP.bind ((entriesOf_decided _ _).inherits hP) fun _ => ?_
    refine hP.bind ((checkEntries_decided _ _ _).inherits hP) fun _ => ?_
    refine hP.bind ((requiredEntry_decided _ _ _).inherits hP) fun _ => ?_
    split
    · exact hP.intern _ _ (.inr trivial)
    · exact hP.bind (readProtoName_inherits hP _) fun _ => hP.intern _ _ (.inr trivial)
    · exact hP.throw _ rfl

theorem readDivisor_inherits (d : Definition) : P (readDivisor d) := by
  unfold readDivisor
  split
  · exact hP.bind ((divisorOf_decided _).inherits hP) fun _ => hP.intern _ _ (.inr trivial)
  · refine hP.bind ((entriesOf_decided _ _).inherits hP) fun _ => ?_
    refine hP.bind ((checkEntries_decided _ _ _).inherits hP) fun _ => ?_
    refine hP.bind ((requiredNumber_decided _ _ _).inherits hP) fun _ => ?_
    exact hP.bind ((divisorOf_decided _).inherits hP) fun _ => hP.intern _ _ (.inr trivial)

theorem readPattern_inherits (d : Definition) : P (readPattern d) := by
  unfold readPattern
  split
  · exact hP.bind ((compilePattern_decided _ _).inherits hP) fun _ => hP.intern _ _ (.inr trivial)
  · refine hP.bind ((entriesOf_decided _ _).inherits hP) fun _ => ?_
    refine hP.bind ((checkEntries_decided _ _ _).inherits hP) fun _ => ?_
    refine hP.bind ((requiredEntry_decided _ _ _).inherits hP) fun _ => ?_
    split
    · refine hP.bind ((optionalText_decided _ _).inherits hP) fun _ => ?_
      exact hP.bind ((compilePattern_decided _ _).inherits hP) fun _ => hP.intern _ _ (.inr trivial)
    · exact hP.throw _ rfl

theorem resolvePredicate_inherits (reference : String) : P (resolvePredicate reference) := by
  refine hP.bind (registry_inherits hP) fun _ => ?_
  split
  · exact hP.pure _
  · exact hP.throw _ rfl

theorem readPredicate_inherits (d : Definition) : P (readPredicate d) := by
  unfold readPredicate
  split
  · exact hP.intern _ _ (.inr trivial)
  · exact hP.bind (resolvePredicate_inherits hP _) fun _ => hP.intern _ _ (.inr trivial)
  · refine hP.bind ((entriesOf_decided _ _).inherits hP) fun _ => ?_
    refine hP.bind ((checkEntries_decided _ _ _).inherits hP) fun _ => ?_
    refine hP.bind ((requiredEntry_decided _ _ _).inherits hP) fun _ => ?_
    split
    · exact hP.intern _ _ (.inr trivial)
    · exact hP.bind (resolvePredicate_inherits hP _) fun _ => hP.intern _ _ (.inr trivial)
    · exact hP.throw _ rfl

theorem readFlatRefinement_inherits (kind : Kind) (axis : BoundAxis) (d : Definition) :
    P (readFlatRefinement kind axis d) := by
  unfold readFlatRefinement
  split
  · exact readDivisor_inherits hP d
  · exact hP.bind ((readBound_decided _ _ _).inherits hP) fun _ => hP.intern _ _ (.inr trivial)
  · exact hP.bind ((readBound_decided _ _ _).inherits hP) fun _ => hP.intern _ _ (.inr trivial)
  · exact readPattern_inherits hP d
  · exact readPredicate_inherits hP d
  · exact hP.throw _ rfl

theorem readKey_inherits (d : Definition) : P (readKey d) := by
  unfold readKey
  split
  case h_4 =>
    refine hP.bind (registry_inherits hP) fun _ => ?_
    split
    · exact hP.pure _
    · exact hP.throw _ rfl
  case h_5 => exact hP.throw _ rfl
  case h_6 => exact hP.throw _ rfl
  all_goals exact hP.pure _

theorem propOf_inherits (kind : Kind) (make : PropKey → Node → Content Node) (entries : Entries)
    {readValue : SpaceM (Option Node)} (hvalue : P readValue)
    (hmake : ∀ key value, (make key value).NonEnumerable) :
    P (propOf kind make entries readValue) := by
  refine hP.bind ((checkEntries_decided _ _ _).inherits hP) fun _ => ?_
  refine hP.bind ((requiredEntry_decided _ _ _).inherits hP) fun _ => ?_
  refine hP.bind (readKey_inherits hP _) fun _ => hP.bind hvalue fun held => ?_
  cases held with
  | none => exact hP.throw _ rfl
  | some held => exact hP.intern _ _ (.inr (hmake _ _))

theorem resolveTransform_inherits (d : Definition) : P (resolveTransform d) := by
  unfold resolveTransform
  split
  · exact hP.pure _
  · refine hP.bind (registry_inherits hP) fun _ => ?_
    split
    · exact hP.pure _
    · exact hP.throw _ rfl
  · exact hP.throw _ rfl

theorem resolveTransforms_inherits (d : Definition) : P (resolveTransforms d) := by
  unfold resolveTransforms
  split
  · rename_i items
    induction items with
    | nil => exact hP.pure _
    | cons item rest ih =>
        rw [List.mapM_cons]
        exact hP.bind (resolveTransform_inherits hP item) fun _ => hP.bind ih fun _ => hP.pure _
  · exact hP.bind (resolveTransform_inherits hP _) fun _ => hP.pure _

theorem morphOf_inherits (entries : Entries) {readInput readOutput : SpaceM (Option Node)} (hinput : P readInput)
    (houtput : P readOutput) : P (morphOf entries readInput readOutput) := by
  have hrest (caption : Caption) (input : Node) : P (do
      let output ← readOutput
      let transforms ← resolveTransforms (← requiredEntry .morph "morph" entries)
      Node.createMorph input output transforms caption) :=
    hP.bind houtput fun _ => hP.bind ((requiredEntry_decided _ _ _).inherits hP) fun _ =>
      hP.bind (resolveTransforms_inherits hP _) fun _ => Node.createMorph_inherits hP _ _ _ _
  refine hP.bind ((checkEntries_decided _ _ _).inherits hP) fun caption => hP.bind hinput fun input => ?_
  cases input with
  | some input => exact hrest caption input
  | none => exact hP.bind (hP.intern _ _ (.inr trivial)) fun _ => hrest caption _

variable [Behaviour]

theorem unionOf_inherits (entries : Entries) {readBranches : SpaceM (List Node)} (hbranches : P readBranches) :
    P (unionOf entries readBranches) := by
  refine hP.bind ((checkEntries_decided _ _ _).inherits hP) fun _ => ?_
  refine hP.bind ((requiredEntry_decided _ _ _).inherits hP) fun _ => ?_
  split
  · refine hP.bind ((optionalFlag_decided _ _).inherits hP) fun _ => ?_
    exact hP.bind hbranches fun _ => Node.assembleUnion_inherits hP _ _ _
  · exact hP.throw _ rfl

omit [Behaviour] in
theorem refinementsOf_inherits {readRefinements : Kind → SpaceM (List Node)} (h : ∀ kind, P (readRefinements kind))
    (kinds : List Kind) : P (refinementsOf readRefinements kinds) := by
  induction kinds with
  | nil => exact hP.pure _
  | cons kind rest ih => exact hP.bind (h kind) fun _ => hP.bind ih fun _ => hP.pure _

omit [Behaviour] in
theorem readEntries_inherits (kind : Kind) {read : Entries → SpaceM Node} (hread : ∀ entries, P (read entries))
    (d : Definition) : P (readEntries kind read d) :=
  hP.bind ((entriesOf_decided _ _).inherits hP) hread

end Definition

namespace Definition

open SpaceM (Compositional)

variable {P : {α : Type} → SpaceM α → Prop} (hP : Compositional P)

include hP

theorem readDomain_inherits (d : Definition) : P (readDomain d) := by
  unfold readDomain
  split
  · exact hP.bind ((readDomainName_decided _).inherits hP) fun _ => hP.intern _ _ (.inl trivial)
  · refine hP.bind ((entriesOf_decided _ _).inherits hP) fun _ => ?_
    refine hP.bind ((checkEntries_decided _ _ _).inherits hP) fun _ => ?_
    refine hP.bind ((requiredEntry_decided _ _ _).inherits hP) fun _ => ?_
    split
    · exact hP.bind ((readDomainName_decided _).inherits hP) fun _ => hP.intern _ _ (.inl trivial)
    · exact hP.throw _ rfl

/-- What is read under one of the keys of a basis, and what follows. -/
theorem basisAt_inherits {readBasis : SpaceM (Option Node)} {next : Node → SpaceM (Option Node)} (hbasis : P readBasis)
    (hnext : ∀ n, P (next n)) (key : String) (d : Definition) :
    P (do
      let basis ← match key with
        | "domain" => readDomain d
        | "unit" => do SpaceM.internPlain (.unit (← readLiteral d))
        | "proto" => readProto d
        | _ => do
          match ← readBasis with
          | some n => if n.isBasis then pure n else SpaceM.parseError (.notBasis n.kind)
          | none => SpaceM.parseError (.missingKey .intersection key)
      next basis) := by
  dsimp only
  split
  · exact hP.bind (readDomain_inherits hP d) hnext
  · exact hP.bind (readLiteral_inherits hP d) fun _ => hP.bind (hP.intern _ _ (.inl trivial)) hnext
  · exact hP.bind (readProto_inherits hP d) hnext
  · refine hP.bind hbasis fun held => ?_
    cases held with
    | none => exact hP.bind (hP.throw _ rfl) hnext
    | some n =>
        dsimp only
        split
        · exact hP.bind (hP.pure _) hnext
        · exact hP.bind (hP.throw _ rfl) hnext

theorem basisOf_inherits (entries : Entries) {readBasis : SpaceM (Option Node)} (hbasis : P readBasis)
    (found : Option Node) (keys : List String) : P (basisOf entries readBasis found keys) := by
  induction keys generalizing found with
  | nil => exact hP.pure _
  | cons key keys ih =>
      unfold basisOf
      split
      · exact ih found
      · rename_i d _
        have hrest := basisAt_inherits hP hbasis (fun basis => ih (some basis)) key d
        by_cases hsome : found.isSome = true
        · rw [if_pos hsome]
          exact hP.bind (hP.throw _ rfl) fun _ => hrest
        · rw [if_neg hsome]
          exact hrest

variable [Behaviour]

theorem intersectionOf_inherits (entries : Entries) {readBasis : SpaceM (Option Node)}
    {readRefinements : Kind → BoundAxis → SpaceM (List Node)} (hbasis : P readBasis)
    (hrefinements : ∀ kind axis, P (readRefinements kind axis)) :
    P (intersectionOf entries readBasis readRefinements) := by
  refine hP.bind ((checkEntries_decided _ _ _).inherits hP) fun _ => ?_
  refine hP.bind (basisOf_inherits hP entries hbasis none basisKeys) fun _ => ?_
  refine hP.bind (refinementsOf_inherits hP (fun kind => hrefinements kind _) _) fun _ => ?_
  exact Node.ofDefinition_inherits hP _ _ _ (.inl trivial)

theorem readRootName_inherits (name : String) : P (readRootName name) := by
  unfold readRootName
  split
  · exact hP.bind (hP.intern _ _ (.inl trivial)) fun _ => hP.bind (hP.intern _ _ (.inl trivial)) fun _ =>
      Node.assembleUnion_inherits hP _ _ _
  · exact hP.intern _ _ (.inl trivial)
  · exact hP.intern _ _ (.inl trivial)
  · refine hP.bind (registry_inherits hP) fun _ => ?_
    split
    · split
      · exact hP.intern _ _ (.inl trivial)
      · exact hP.intern _ _ (.inl trivial)
      · exact readProto_inherits hP _
    · exact readDomain_inherits hP _

mutual

/-- Reading a root definition is put together from simple steps. -/
theorem readRoot_inherits : (d : Definition) → P (readRoot d)
  | .list items => hP.bind (readRoots_inherits items) fun _ => Node.assembleUnion_inherits hP _ _ _
  | .map entries => by
    unfold readRoot
    split
    · exact unionOf_inherits hP entries (rootsAt_inherits "branches" entries)
    · split
      · exact morphOf_inherits hP entries (rootAt_inherits "in" entries) (rootAt_inherits "out" entries)
      · exact intersectionOf_inherits hP entries (rootAt_inherits "basis" entries) fun kind axis =>
          refinementsAt_inherits kind axis entries
  | .node n => Node.adopt_inherits hP n (.inl trivial)
  | .string name => readRootName_inherits hP name
  | .proto _ | .value _ | .symbol _ => hP.intern _ _ (.inl trivial)
  | .predicate _ => hP.bind (hP.intern _ _ (.inl trivial)) fun _ => Node.ofDefinition_inherits hP _ _ _ (.inl trivial)
  | .null | .bool _ | .number _ | .transform _ => hP.throw _ rfl
termination_by structural d => d

theorem readRefinement_inherits (kind : Kind) (axis : BoundAxis) : (d : Definition) → P (readRefinement kind axis d)
  | .map entries => by
    unfold readRefinement
    split
    · exact propOf_inherits hP _ _ entries (rootAt_inherits "value" entries) fun _ _ => trivial
    · exact propOf_inherits hP _ _ entries (rootAt_inherits "value" entries) fun _ _ => trivial
    · exact readFlatRefinement_inherits hP _ _ _
  | .null | .bool _ | .number _ | .string _ | .list _ | .value _ | .proto _ | .predicate _ | .transform _ | .symbol _
  | .node _ => readFlatRefinement_inherits hP _ _ _
termination_by structural d => d

theorem readRoots_inherits : (items : List Definition) → P (readRoots items)
  | [] => hP.pure _
  | d :: rest => hP.bind (readRoot_inherits d) fun _ => hP.bind (readRoots_inherits rest) fun _ => hP.pure _
termination_by structural items => items

theorem readRefinements_inherits (kind : Kind) (axis : BoundAxis) : (items : List Definition) →
    P (readRefinements kind axis items)
  | [] => hP.pure _
  | d :: rest => hP.bind (readRefinement_inherits kind axis d) fun _ =>
      hP.bind (readRefinements_inherits kind axis rest) fun _ => hP.pure _
termination_by structural items => items

theorem rootAt_inherits (key : String) : (entries : List (String × Definition)) → P (rootAt key entries)
  | [] => hP.pure _
  | (k, d) :: rest => by
    unfold rootAt
    split
    · exact hP.bind (readRoot_inherits d) fun _ => hP.pure _
    · exact rootAt_inherits key rest
termination_by structural entries => entries

theorem rootsAt_inherits (key : String) : (entries : List (String × Definition)) → P (rootsAt key entries)
  | [] => hP.pure _
  | (k, d) :: rest => by
    unfold rootsAt
    split
    · exact rootsIn_inherits d
    · exact rootsAt_inherits key rest
termination_by structural entries => entries

theorem rootsIn_inherits : (d : Definition) → P (rootsIn d)
  | .list items => readRoots_inherits items
  | .null | .bool _ | .number _ | .string _ | .map _ | .value _ | .proto _ | .predicate _ | .transform _ | .symbol _
  | .node _ => hP.pure _
termination_by structural d => d

theorem refinementsAt_inherits (kind : Kind) (axis : BoundAxis) : (entries : List (String × Definition)) →
    P (refinementsAt kind axis entries)
  | [] => hP.pure _
  | (k, d) :: rest => by
    cases d with
    | list items =>
        unfold refinementsAt
        split
        · exact refinementsAt_inherits kind axis rest
        · split
          · exact readRefinements_inherits kind axis items
          · exact hP.bind (readFlatRefinement_inherits hP _ _ _) fun _ => hP.pure _
    | _ =>
        unfold refinementsAt
        split
        · exact refinementsAt_inherits kind axis rest
        · exact hP.bind (readRefinement_inherits kind axis _) fun _ => hP.pure _
termination_by structural entries => entries

end

/-- Reading a definition of a kind is put together from simple steps. -/
theorem readKind_inherits (kind : Kind) (d : Definition) : P (readKind kind d) := by
  unfold readKind
  split
  · split
    · exact Node.adopt_inherits hP _ (.inl trivial)
    · exact hP.throw _ rfl
  split
  · split
    · exact readRoot_inherits hP _
    · exact readEntries_inherits hP _ (fun entries => unionOf_inherits hP entries (rootsAt_inherits hP _ _)) _
  · exact readEntries_inherits hP _
      (fun entries => morphOf_inherits hP entries (rootAt_inherits hP _ _) (rootAt_inherits hP _ _)) _
  · split
    · exact readRootName_inherits hP _
    · exact hP.intern _ _ (.inl trivial)
    · exact readEntries_inherits hP _ (fun entries => intersectionOf_inherits hP entries (rootAt_inherits hP _ _)
        fun kind axis => refinementsAt_inherits hP kind axis entries) _
  · exact readUnit_inherits hP d
  · exact readProto_inherits hP d
  · exact readDomain_inherits hP d
  · exact readRefinement_inherits hP _ _ d

end Definition

/-- Comparing two conflicts is put together from simple steps. -/
theorem Disjoint.equals_inherits {P : {α : Type} → SpaceM α → Prop} (hP : SpaceM.Compositional P) (a b : Disjoint) :
    P (a.equals b) := by
  have hrest : P (do
      if !(← a.l.equals b.l) then return false
      if !(← a.r.equals b.r) then return false
      return a.path = b.path : SpaceM Bool) := by
    refine hP.bind (Node.equals_inherits hP _ _ (.inl trivial)) fun _ => ?_
    split
    · exact hP.pure _
    · refine hP.bind (Node.equals_inherits hP _ _ (.inl trivial)) fun _ => ?_
      split
      · exact hP.pure _
      · exact hP.pure _
  unfold equals
  split
  · exact hP.pure _
  · exact hrest

theorem Intersected.equals_inherits {P : {α : Type} → SpaceM α → Prop} (hP : SpaceM.Compositional P)
    (a b : Intersected) : P (a.equals b) := by
  unfold equals
  split
  · exact Node.equals_inherits hP _ _ (.inl trivial)
  · exact Disjoint.equals_inherits hP _ _
  · exact hP.pure _
  · exact hP.pure _

theorem Node.constrain_inherits {P : {α : Type} → SpaceM α → Prop} (hP : SpaceM.Compositional P) [Behaviour]
    (hrefuse : ∀ d, P (MonadExcept.throw (.unsatisfiable d) : SpaceM Node)) (node : Node) (kind : Kind)
    (d : Definition) : P (node.constrain kind d) := by
  unfold constrain
  split
  on_goal 1 => refine hP.bind (hP.throw _ rfl) fun _ => ?_
  all_goals
    refine hP.bind (Definition.readRefinement_inherits hP _ _ d) fun refinement => ?_
    split
    · exact hP.throw _ rfl
    · exact and_inherits hP hrefuse node refinement (.inl trivial)

end SchemaAlgebra
