-- SUMMARY: Conjoining nodes to a larger depth gives the same, unless the smaller one was too small.
import SchemaAlgebra.Proofs.Computation

/-!
# Depth

The depth to which nodes are conjoined bounds how deeply property values and outputs
of morphs are followed. It decides nothing else: what is found within one depth is
found within any larger one, with the same space after it.
-/

namespace SchemaAlgebra

namespace SpaceM

variable {α β : Type} {x y z : SpaceM α}

/-- What the first computation gives the second one gives too, wherever it starts and with the same space after it, unless
the first one finds the library itself at fault. -/
def Deepens (x y : SpaceM α) : Prop :=
  ∀ space, (∃ reason, (x.exec space).1 = .error (.internal reason)) ∨ y.exec space = x.exec space

namespace Deepens

theorem refl (x : SpaceM α) : x.Deepens x := fun _ => .inr rfl

theorem bind {f g : α → SpaceM β} (h : x.Deepens y) (hfg : ∀ a, (f a).Deepens (g a)) :
    (x >>= f).Deepens (y >>= g) := by
  intro space
  rw [exec_bind, exec_bind]
  rcases h space with ⟨reason, hfault⟩ | heq
  · refine .inl ⟨reason, ?_⟩
    rcases hx : x.exec space with ⟨error | a, later⟩ <;> rw [hx] at hfault
    · exact congrArg Except.error (Except.error.inj hfault)
    · cases hfault
  · rw [heq]
    rcases x.exec space with ⟨error | a, later⟩
    · exact .inr rfl
    · exact hfg a later

/-- What would follow a refusal makes no difference. -/
theorem refuse (reason : ParseError) (f g : β → SpaceM α) :
    (parseError reason >>= f).Deepens (parseError reason >>= g) := fun _ => .inr rfl

/-- What a computation gives that finds the library not at fault. -/
theorem exec_eq (h : x.Deepens y) {space : Space} (hsane : ∀ reason, (x.exec space).1 ≠ .error (.internal reason)) :
    y.exec space = x.exec space :=
  (h space).resolve_left fun ⟨reason, hfault⟩ => hsane reason hfault

end Deepens

end SpaceM

namespace Node

open SpaceM (Deepens)

variable {meet meet' rule rule' conjoin conjoin' : Meet}

-- ---------------------------------------------------------------------------
-- Intersections
-- ---------------------------------------------------------------------------

theorem meetBy_deepens (h : ∀ l r, (rule l r).Deepens (rule' l r)) (l r : Node) :
    (meetBy rule l r).Deepens (meetBy rule' l r) := by
  unfold meetBy
  split
  · exact .refl _
  · split
    · exact (h r l).bind fun _ => .refl _
    · exact h l r

section

variable [Behaviour] (h : ∀ l r, (meet l r).Deepens (meet' l r))

include h

omit [Behaviour] in
theorem meetProps_deepens (remake : Node → Content Node) (l r : Node) (key : PropKey) (a b : Node) :
    (meetProps meet remake l r key a b).Deepens (meetProps meet' remake l r key a b) :=
  (h a b).bind fun _ => .refl _

theorem meetConstraints_deepens (l r : Node) : (meetConstraints meet l r).Deepens (meetConstraints meet' l r) := by
  unfold meetConstraints
  split
  case h_9 | h_10 =>
    split
    · exact meetProps_deepens h _ l r _ _ _
    · exact .refl _
  all_goals exact .refl _

theorem foldInto_deepens (rule : Node) (merged : Option Node) (rules : List Node) :
    (foldInto meet rule merged rules).Deepens (foldInto meet' rule merged rules) := by
  induction rules generalizing merged with
  | nil => exact .refl _
  | cons existing rest ih =>
      unfold foldInto
      refine (meetBy_deepens (meetConstraints_deepens h) existing rule).bind fun out => ?_
      cases out with
      | orthogonal => exact (ih merged).bind fun _ => .refl _
      | disjoint d => exact .refl _
      | node n =>
          cases merged with
          | none => exact (ih (some n)).bind fun _ => .refl _
          | some previous =>
              dsimp only
              split
              · exact ih (some previous)
              · exact .refl _

theorem addRule_deepens (rules : List Node) (rule : Node) :
    (addRule meet rules rule).Deepens (addRule meet' rules rule) := by
  unfold addRule
  split
  · exact foldInto_deepens h rule none rules
  · exact .refl _

theorem addRules_deepens (rules more : List Node) : (addRules meet rules more).Deepens (addRules meet' rules more) := by
  induction more generalizing rules with
  | nil => exact .refl _
  | cons rule rest ih =>
      unfold addRules
      refine (addRule_deepens h rules rule).bind fun out => ?_
      cases out with
      | error d => exact .refl _
      | ok rules => exact ih rules

theorem finish_deepens (origin : Origin) (caption : Caption) (rules : List Node) :
    (finish meet origin caption rules).Deepens (finish meet' origin caption rules) := by
  unfold finish
  refine (Deepens.refl (splitBasis none rules)).bind fun (basis, constraints) => ?_
  dsimp only
  split
  · exact (Deepens.refl _).bind fun n => (addRule_deepens h _ n).bind fun _ => .refl _
  · exact .refl _

theorem combineBy_deepens (operands : List Node) : (combineBy meet operands).Deepens (combineBy meet' operands) := by
  unfold combineBy
  refine (addRules_deepens h [] _).bind fun out => ?_
  cases out with
  | error d => exact .refl _
  | ok rules => exact (finish_deepens h .algebra .none rules).bind fun _ => .refl _

theorem meetIntersections_deepens (l r : Node) : (meetIntersections meet l r).Deepens (meetIntersections meet' l r) := by
  unfold meetIntersections
  split
  · exact (combineBy_deepens h [l, r]).bind fun _ => .refl _
  · exact meetConstraints_deepens h l r

theorem conjoinBy_deepens (hrule : ∀ l r, (rule l r).Deepens (rule' l r)) (l r : Node) :
    (conjoinBy meet rule l r).Deepens (conjoinBy meet' rule' l r) := by
  unfold conjoinBy
  refine (meetBy_deepens hrule l r).bind fun out => ?_
  cases out with
  | orthogonal => exact combineBy_deepens h [l, r]
  | node n => exact .refl _
  | disjoint d => exact .refl _

-- ---------------------------------------------------------------------------
-- Morphs
-- ---------------------------------------------------------------------------

omit [Behaviour] in
theorem meetOutputs_deepens (l r : Option Node) : (meetOutputs meet l r).Deepens (meetOutputs meet' l r) := by
  unfold meetOutputs
  split
  · exact (h _ _).bind fun _ => .refl _
  · exact .refl _
  · exact .refl _

theorem conjoinInputs_deepens (l r : Node) : (conjoinInputs meet l r).Deepens (conjoinInputs meet' l r) :=
  conjoinBy_deepens h (meetIntersections_deepens h) l r

theorem meetMorphs_deepens (l r : Node) : (meetMorphs meet l r).Deepens (meetMorphs meet' l r) := by
  unfold meetMorphs
  split
  · dsimp only
    split
    · exact .refuse _ _ _
    · refine (conjoinInputs_deepens h _ _).bind fun out => ?_
      cases out with
      | node n => exact (meetOutputs_deepens h _ _).bind fun _ => .refl _
      | disjoint d => exact .refl _
      | orthogonal => exact .refl _
  · exact (conjoinInputs_deepens h _ _).bind fun _ => .refl _
  · exact meetIntersections_deepens h l r

theorem conjoinBranches_deepens (l r : Node) : (conjoinBranches meet l r).Deepens (conjoinBranches meet' l r) :=
  conjoinBy_deepens h (meetMorphs_deepens h) l r

end

-- ---------------------------------------------------------------------------
-- Unions
-- ---------------------------------------------------------------------------

section

variable (h : ∀ l r, (conjoin l r).Deepens (conjoin' l r))

include h

theorem compareWithLater_deepens (branch : Node) (later : List Node) (kept : List Bool) :
    (compareWithLater conjoin branch later kept).Deepens (compareWithLater conjoin' branch later kept) := by
  induction later generalizing kept with
  | nil => exact .refl _
  | cons node rest ih =>
      cases kept with
      | nil => exact .refl _
      | cons flag kept =>
          cases flag with
          | false => exact (ih kept).bind fun _ => .refl _
          | true =>
              unfold compareWithLater
              split
              · exact (ih kept).bind fun _ => .refl _
              · refine (h branch node).bind fun out => ?_
                cases out with
                | node result =>
                    dsimp only
                    split
                    · exact .refl _
                    · exact (ih kept).bind fun _ => .refl _
                | disjoint d => exact (ih kept).bind fun _ => .refl _
                | orthogonal => exact (ih kept).bind fun _ => .refl _

theorem reduceFrom_deepens (branches : List Node) (kept : List Bool) :
    (reduceFrom conjoin branches kept).Deepens (reduceFrom conjoin' branches kept) := by
  induction branches generalizing kept with
  | nil => exact .refl _
  | cons branch rest ih =>
      cases kept with
      | nil => exact .refl _
      | cons flag kept =>
          cases flag with
          | false => exact ih kept
          | true =>
              exact (compareWithLater_deepens h branch rest kept).bind fun (_, kept) => (ih kept).bind fun _ => .refl _

theorem reduceUpTo_deepens (limit : Nat) (branches : List Node) :
    (reduceUpTo limit conjoin branches).Deepens (reduceUpTo limit conjoin' branches) := by
  unfold reduceUpTo
  split
  · exact reduceFrom_deepens h branches _
  · exact .refl _

theorem assembleUnionBy_deepens (branches : List Node) (ordered : Bool) (caption : Caption) :
    (assembleUnionBy conjoin branches ordered caption).Deepens (assembleUnionBy conjoin' branches ordered caption) :=
  (Deepens.refl _).bind fun _ => (Deepens.refl _).bind fun _ => (Deepens.refl _).bind fun _ =>
    (reduceUpTo_deepens h _ _).bind fun _ => .refl _

theorem meetRow_deepens (branch : Node) (columns : List Column) :
    (meetRow conjoin branch columns).Deepens (meetRow conjoin' branch columns) := by
  induction columns with
  | nil => exact .refl _
  | cons column rest ih =>
      unfold meetRow
      dsimp only
      split
      · exact ih.bind fun _ => .refl _
      · split
        · exact .refl _
        · refine (h branch column.branch).bind fun out => ?_
          cases out with
          | node n =>
              dsimp only
              split
              · exact .refl _
              · split <;> exact ih.bind fun _ => .refl _
          | disjoint d => exact ih.bind fun _ => .refl _
          | orthogonal => exact ih.bind fun _ => .refl _

theorem meetRows_deepens (branches : List Node) (columns : List Column) :
    (meetRows conjoin branches columns).Deepens (meetRows conjoin' branches columns) := by
  induction branches generalizing columns with
  | nil => exact .refl _
  | cons branch rest ih => exact (meetRow_deepens h branch columns).bind fun row => (ih _).bind fun _ => .refl _

end

-- ---------------------------------------------------------------------------
-- Conjunctions
-- ---------------------------------------------------------------------------

variable [Behaviour]

theorem meetUnions_deepens (h : ∀ l r, (meet l r).Deepens (meet' l r)) (l r : Node) :
    (meetUnions meet l r).Deepens (meetUnions meet' l r) := by
  have hconjoin := conjoinBranches_deepens h
  unfold meetUnions
  split
  · dsimp only
    split
    · exact .refl _
    · refine (meetRows_deepens hconjoin _ _).bind fun found => ?_
      split
      · exact .refl _
      · exact (assembleUnionBy_deepens hconjoin found _ .none).bind fun _ => .refl _
    · exact .refl _
  · exact meetMorphs_deepens h l r

/-- Conjoining nodes to a larger depth. -/
theorem conjoinWithin_deepens {depth depth' : Nat} (h : depth ≤ depth') (l r : Node) :
    (conjoinWithin depth l r).Deepens (conjoinWithin depth' l r) := by
  induction depth generalizing depth' l r with
  | zero => exact fun space => .inl ⟨.nesting, rfl⟩
  | succ depth ih =>
      obtain ⟨depth', rfl⟩ : ∃ n, depth' = n + 1 := Nat.exists_eq_add_one.mpr (Nat.zero_lt_of_lt h)
      have hdeeper := ih (Nat.le_of_succ_le_succ h)
      exact conjoinBy_deepens hdeeper (meetUnions_deepens hdeeper) l r

end Node

end SchemaAlgebra
