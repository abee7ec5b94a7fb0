-- SUMMARY: Intersecting constraints, intersections and morphs keeps in step on nodes of one type.
import SchemaAlgebra.Proofs.Lockstep

/-!
# Keeping in step

Every rule of the algebra looks at the contents of nodes and at their types, and at
nothing else: captions are carried along, but nothing is decided by them. So a rule
that is applied to nodes of one type on two sides finds the same on both, and hands on
nodes of one type to the next.
-/

namespace SchemaAlgebra

namespace Node

open Space (Twins Abreast)
open SpaceM (Lockstep)

variable {left right : Space} {l l' r r' : Node}

/-- A way of intersecting nodes that keeps in step on nodes of one type. -/
structure Steady (left right : Space) (meet : Meet) : Prop where
  grows : ∀ l r, (meet l r).Grows
  agree : ∀ {l l' r r' : Node}, Twins left right l l' → Twins left right r r' →
    Lockstep left right (meet l r) (meet l' r') (Intersected.Related (Twins left right))

/-- Whether nodes are of one type is the same for nodes of their types. -/
theorem sameType_eq (hl : Twins left right l l') (hr : Twins left right r r') : l.sameType r = l'.sameType r' := by
  rw [sameType, sameType, hl.typeId, hr.typeId]

-- ---------------------------------------------------------------------------
-- Constraints
-- ---------------------------------------------------------------------------

section

variable (hl : Twins left right l l') (hr : Twins left right r r')

include hl hr

theorem meetBounds_related (side : BoundSide) {a a' b b' : Bound} (ha : a.unsigned = a'.unsigned)
    (hb : b.unsigned = b'.unsigned) :
    (meetBounds side l r a b).Related (Twins left right) (meetBounds side l' r' a' b') := by
  have hstricter : a.isStricter side b = a'.isStricter side b' := by
    rw [← Bound.isStricter_unsigned, ha, hb, Bound.isStricter_unsigned]
  rw [meetBounds, meetBounds, Bound.axis_eq ha, Bound.axis_eq hb, hstricter]
  split
  · exact .orthogonal
  · refine .node ?_
    split
    · exact hl
    · exact hr

theorem meetRange_related {max max' min min' : Bound} (hmax : max.unsigned = max'.unsigned)
    (hmin : min.unsigned = min'.unsigned) :
    (meetRange l r max min).Related (Twins left right) (meetRange l' r' max' min') := by
  have hnothing : max.leavesNothing min = max'.leavesNothing min' := by
    rw [← Bound.leavesNothing_unsigned, hmax, hmin, Bound.leavesNothing_unsigned]
  rw [meetRange, meetRange, Bound.axis_eq hmax, Bound.axis_eq hmin, hnothing]
  split
  · exact .disjoint (Disjoint.related_between _ hl hr)
  · exact .orthogonal

theorem meetProtos_related (a b : Proto) :
    (meetProtos l r a b).Related (Twins left right) (meetProtos l' r' a b) := by
  unfold meetProtos
  split
  · exact .node hl
  · split
    · exact .node hr
    · exact .disjoint (Disjoint.related_between _ hl hr)

end

variable (habreast : Abreast left right)

include habreast

section

variable (hl : Twins left right l l') (hr : Twins left right r r')

include hl hr

theorem meetUnit_related [Behaviour] (hblind : BlindToSign) {v v' : Value} (hv : v.unsigned = v'.unsigned) :
    (meetUnit l r v).Related (Twins left right) (meetUnit l' r' v') := by
  have hallows : r.allows v = r'.allows v' := by
    rw [hr.allows_eq habreast, ← allows_unsigned hblind, hv, allows_unsigned hblind]
  rw [meetUnit, meetUnit, hallows, hr.kind_eq habreast]
  split
  · exact .node hl
  · split <;> exact .disjoint (Disjoint.related_between _ hl hr)

theorem meetDivisors_lockstep (a b : Nat) :
    Lockstep left right (meetDivisors l r a b) (meetDivisors l' r' a b) (Intersected.Related (Twins left right)) := by
  refine .note _ _ ?_
  rcases Word.lcm (.ofNat a) (.ofNat b) with reason | _ | multiple
  · exact .internalError _ _
  · exact .pure .orthogonal
  · refine .ite .rfl (.pure (.node hl)) (.ite .rfl (.pure (.node hr)) ?_)
    exact (Lockstep.intern habreast (.divisor multiple.toNat)).map fun _ _ => .node

theorem meetProps_lockstep {meet : Meet} (hmeet : Steady left right meet) {remake : Node → Content Node}
    (hremake : ∀ {n n'}, Twins left right n n' → (remake n).Related (Twins left right) (remake n')) (key : PropKey)
    {a a' b b' : Node} (ha : Twins left right a a') (hb : Twins left right b b') :
    Lockstep left right (meetProps meet remake l r key a b) (meetProps meet remake l' r' key a' b')
      (Intersected.Related (Twins left right)) := by
  refine (hmeet.agree ha hb).onOutcome (mergedProp_inherits .grows remake (.inl trivial) l r a b)
    (mergedProp_inherits .grows remake (.inl trivial) l' r' a' b')
    (fun _ => .pure _) (fun _ => .pure _) ?_ (fun d d' hd => .pure (.disjoint (hd.atKey key))) (.pure .orthogonal)
  intro n n' hn
  refine .ite (by rw [sameType_eq hn ha]) (.pure (.node hl)) (.ite (by rw [sameType_eq hn hb]) (.pure (.node hr)) ?_)
  exact (Lockstep.intern habreast (hremake hn)).map fun _ _ => .node

theorem meetConstraints_lockstep [Behaviour] (hblind : BlindToSign) {meet : Meet} (hmeet : Steady left right meet) :
    Lockstep left right (meetConstraints meet l r) (meetConstraints meet l' r')
      (Intersected.Related (Twins left right)) := by
  have hother : Lockstep left right
      (if l.kind.isConstraint && r.kind.isConstraint then return Intersected.orthogonal
        else SpaceM.internalError (.unexpectedIntersection l.kind r.kind))
      (if l'.kind.isConstraint && r'.kind.isConstraint then return Intersected.orthogonal
        else SpaceM.internalError (.unexpectedIntersection l'.kind r'.kind))
      (Intersected.Related (Twins left right)) :=
    .ite (by rw [hl.kind_eq habreast, hr.kind_eq habreast]) (.pure .orthogonal) (.internalError _ _)
  have hcontent := hl.content habreast
  have hcontent' := hr.content habreast
  unfold meetConstraints
  generalize l.content = c at hcontent ⊢
  generalize l'.content = c' at hcontent ⊢
  generalize r.content = d at hcontent' ⊢
  generalize r'.content = d' at hcontent' ⊢
  cases hcontent with
  | unit h => exact .pure (meetUnit_related habreast hl hr hblind h)
  | proto p =>
      cases hcontent' with
      | proto q => exact .pure (meetProtos_related hl hr p q)
      | domain d =>
          refine .pure ?_
          split
          · exact .node hl
          · exact .disjoint (Disjoint.related_between _ hl hr)
      | _ => exact hother
  | domain d =>
      cases hcontent' with
      | domain d' => exact .pure (.disjoint (Disjoint.related_between _ hl hr))
      | _ => exact hother
  | divisor a =>
      cases hcontent' with
      | divisor b => exact meetDivisors_lockstep habreast hl hr a b
      | _ => exact hother
  | max h =>
      cases hcontent' with
      | max h' => exact .pure (meetBounds_related hl hr .max h h')
      | min h' => exact .pure (meetRange_related hl hr h h')
      | _ => exact hother
  | min h =>
      cases hcontent' with
      | min h' => exact .pure (meetBounds_related hl hr .min h h')
      | _ => exact hother
  | required key h =>
      cases hcontent' with
      | required key' h' =>
          exact .ite .rfl (meetProps_lockstep habreast hl hr hmeet (.required key) key h h') (.pure .orthogonal)
      | _ => exact hother
  | optional key h =>
      cases hcontent' with
      | optional key' h' =>
          exact .ite .rfl (meetProps_lockstep habreast hl hr hmeet (.optional key) key h h') (.pure .orthogonal)
      | _ => exact hother
  | _ => cases hcontent' <;> exact hother

/-- Which of the nodes owns the rule depends on their kinds. -/
theorem meetBy_lockstep {rule : Meet} (hrule : Steady left right rule) :
    Lockstep left right (meetBy rule l r) (meetBy rule l' r') (Intersected.Related (Twins left right)) := by
  refine .ite (by rw [sameType_eq hl hr]) (.pure (.node hl)) ?_
  refine .ite (by rw [hl.kind_eq habreast, hr.kind_eq habreast]) ?_ (hrule.agree hl hr)
  exact (hrule.agree hr hl).map fun _ _ => .invert

end

theorem meetRules_lockstep [Behaviour] (hblind : BlindToSign) {meet : Meet} (hmeet : Steady left right meet)
    (hl : Twins left right l l') (hr : Twins left right r r') :
    Lockstep left right (meetRules meet l r) (meetRules meet l' r') (Intersected.Related (Twins left right)) :=
  meetBy_lockstep habreast hl hr
    ⟨meetConstraints_inherits .grows hmeet.grows, fun hl hr => meetConstraints_lockstep habreast hl hr hblind hmeet⟩

-- ---------------------------------------------------------------------------
-- Applicability
-- ---------------------------------------------------------------------------

/-- What a basis restricts values to is the same for a basis of its type. -/
theorem bind_basis_eq {basis basis' : Option Node} (h : Option.Rel (Twins left right) basis basis') :
    basis.bind basisDomain? = basis'.bind basisDomain? ∧ basis.bind basisProto? = basis'.bind basisProto? := by
  cases h with
  | none => exact ⟨rfl, rfl⟩
  | some h => exact ⟨(h.alike habreast).basisDomain?_eq, (h.alike habreast).basisProto?_eq⟩

theorem applicabilityError?_related {basis basis' : Option Node} (hbasis : Option.Rel (Twins left right) basis basis')
    (hl : Twins left right l l') :
    Option.Rel (fun _ _ => True) (l.applicabilityError? basis) (l'.applicabilityError? basis') := by
  obtain ⟨hdomain, hproto⟩ := bind_basis_eq habreast hbasis
  have hcontent := hl.content habreast
  have haxis (axis : BoundAxis) : axisApplies axis basis = axisApplies axis basis' := by
    simp only [axisApplies, hdomain, hproto]
  have hdemand (applies : Bool) (operand : Operand) (shown shown' : String) :
      Option.Rel (fun _ _ => True) (if applies then none else some (ParseError.inapplicable operand shown))
        (if applies then none else some (ParseError.inapplicable operand shown')) := by
    cases applies
    · exact .some trivial
    · exact .none
  unfold applicabilityError?
  rw [hdomain]
  generalize l.content = c at hcontent ⊢
  generalize l'.content = c' at hcontent ⊢
  cases hcontent with
  | predicate p => exact .none
  | divisor d => exact hdemand _ _ _ _
  | pattern p => exact hdemand _ _ _ _
  | required key h => exact hdemand _ _ _ _
  | optional key h => exact hdemand _ _ _ _
  | max h =>
      simp only [haxis, Bound.axis_eq h]
      exact hdemand _ _ _ _
  | min h =>
      simp only [haxis, Bound.axis_eq h]
      exact hdemand _ _ _ _
  | _ => exact .some trivial

theorem firstInapplicable?_related {basis basis' : Option Node} (hbasis : Option.Rel (Twins left right) basis basis')
    {constraints constraints' : List Node} (hconstraints : List.Forall₂ (Twins left right) constraints constraints') :
    Option.Rel (fun found found' => Twins left right found.1 found'.1) (firstInapplicable? basis constraints)
      (firstInapplicable? basis' constraints') := by
  refine forall₂_findSome? hconstraints fun {c c'} hc => ?_
  have herror := applicabilityError?_related habreast hbasis hc
  generalize c.applicabilityError? basis = x at herror ⊢
  generalize c'.applicabilityError? basis' = y at herror ⊢
  cases herror with
  | none => exact .none
  | some _ => exact .some hc

omit habreast in
/-- What a bound implies about values goes by its axis. -/
theorem axisBasis_related {bound bound' : Bound} (h : bound.unsigned = bound'.unsigned) :
    Option.Rel (Content.Related (Twins left right))
      (match bound.axis with
        | .value => some (.domain .number)
        | .time => some (.proto .date)
        | .length => none)
      (match bound'.axis with
        | .value => some (.domain .number)
        | .time => some (.proto .date)
        | .length => none) := by
  rw [Bound.axis_eq h]
  cases bound'.axis
  · exact .some (.domain .number)
  · exact .none
  · exact .some (.proto .date)

theorem impliedBasis?_related (hl : Twins left right l l') :
    Option.Rel (Content.Related (Twins left right)) l.impliedBasis? l'.impliedBasis? := by
  have hcontent := hl.content habreast
  unfold impliedBasis?
  generalize l.content = c at hcontent ⊢
  generalize l'.content = c' at hcontent ⊢
  cases hcontent with
  | divisor d => exact .some (.domain .number)
  | pattern p => exact .some (.domain .string)
  | required key h => exact .some (.domain .object)
  | optional key h => exact .some (.domain .object)
  | max h => exact axisBasis_related h
  | min h => exact axisBasis_related h
  | _ => exact .none

-- ---------------------------------------------------------------------------
-- Finishing
-- ---------------------------------------------------------------------------

theorem sortConstraints_related {nodes nodes' : List Node} (h : List.Forall₂ (Twins left right) nodes nodes') :
    List.Forall₂ (Twins left right) (sortConstraints nodes) (sortConstraints nodes') := by
  rw [sortConstraints_eq, sortConstraints_eq]
  exact forall₂_mergeSort h fun a a' b b' hab hab' => by
    rw [constraintLE, constraintLE, hab.kind_eq habreast, hab'.kind_eq habreast, hab.typeId, hab'.typeId]

theorem splitBasis_lockstep {basis basis' : Option Node} (hbasis : Option.Rel (Twins left right) basis basis')
    {rules rules' : List Node} (hrules : List.Forall₂ (Twins left right) rules rules') :
    Lockstep left right (splitBasis basis rules) (splitBasis basis' rules') fun parts parts' =>
      Option.Rel (Twins left right) parts.1 parts'.1 ∧ List.Forall₂ (Twins left right) parts.2 parts'.2 := by
  induction hrules generalizing basis basis' with
  | nil => exact .pure ⟨hbasis, .nil⟩
  | cons hrule _ ih =>
      unfold splitBasis
      refine .ite (by rw [isBasis, isBasis, hrule.kind_eq habreast]) ?_ ?_
      · cases hbasis with
        | none => exact ih (.some hrule)
        | some _ => exact .internalError _ _
      · exact (ih hbasis).map fun _ _ hparts => ⟨hparts.1, .cons hrule hparts.2⟩

omit habreast in
theorem fits_sortConstraints {basis : Option Node} {constraints : List Node}
    (h : firstInapplicable? basis constraints = none) :
    (Content.intersection basis (sortConstraints constraints)).Fits :=
  firstInapplicable?_eq_none.mpr fun c hc => firstInapplicable?_eq_none.mp h c ((sortConstraints_perm constraints).mem_iff.mp hc)

/-- What is finished under any captions. -/
theorem finishWith_lockstep (origin : Origin) (caption caption' : Caption) {basis basis' : Option Node}
    (hbasis : Option.Rel (Twins left right) basis basis') {constraints constraints' : List Node}
    (hconstraints : List.Forall₂ (Twins left right) constraints constraints') :
    Lockstep left right (finishWith origin caption basis constraints) (finishWith origin caption' basis' constraints')
      (Agree (Disjoint.Related (Twins left right)) (Twins left right)) := by
  have hfirst := firstInapplicable?_related habreast hbasis hconstraints
  have hfits := @fits_sortConstraints basis constraints
  have hfits' := @fits_sortConstraints basis' constraints'
  unfold finishWith
  generalize firstInapplicable? basis constraints = x at hfirst hfits ⊢
  generalize firstInapplicable? basis' constraints' = y at hfirst hfits' ⊢
  cases hfirst with
  | some hc =>
      cases hbasis with
      | none => cases origin <;> exact .parseError _ _
      | some hb =>
          cases origin with
          | algebra => exact .pure (.error (Disjoint.related_between _ hb hc))
          | definition => exact .parseError _ _
  | none =>
      have hintern := (@Lockstep.internAs _ _ habreast _ _ caption caption'
        (.intersection hbasis (sortConstraints_related habreast hconstraints)) (fun _ => hfits rfl)
          fun _ => hfits' rfl).map fun _ _ => Agree.ok (E := Disjoint.Related (Twins left right))
      cases hbasis with
      | none => exact hintern
      | @some b b' hb =>
          cases hconstraints with
          | nil =>
              have hok (caption : Caption) (n : Node) :
                  (if caption.isEmpty then return .ok n else return .ok (← SpaceM.intern n.content caption) :
                    SpaceM (Except Disjoint Node)) =
                  (if caption.isEmpty then pure n else SpaceM.intern n.content caption) >>= fun n => pure (.ok n) := by
                split <;> rfl
              dsimp only
              rw [hok caption b, hok caption' b']
              exact (Lockstep.recaption habreast hb caption caption').map fun _ _ => Agree.ok
          | cons _ _ => exact hintern

-- ---------------------------------------------------------------------------
-- Intersections
-- ---------------------------------------------------------------------------

theorem rules_related (hl : Twins left right l l') : List.Forall₂ (Twins left right) l.rules l'.rules := by
  have hcontent := hl.content habreast
  unfold rules
  generalize l.content = c at hcontent ⊢
  generalize l'.content = c' at hcontent ⊢
  cases hcontent with
  | intersection hbasis hconstraints => exact (Content.Related.intersection hbasis hconstraints).children
  | _ => exact .cons hl .nil

section

variable [Behaviour] (hblind : BlindToSign) {meet : Meet} (hmeet : Steady left right meet)

include hblind hmeet

theorem foldInto_lockstep {rule rule' : Node} (hrule : Twins left right rule rule') {merged merged' : Option Node}
    (hmerged : Option.Rel (Twins left right) merged merged') {rules rules' : List Node}
    (hrules : List.Forall₂ (Twins left right) rules rules') :
    Lockstep left right (foldInto meet rule merged rules) (foldInto meet rule' merged' rules')
      (Agree (Disjoint.Related (Twins left right)) (List.Forall₂ (Twins left right))) := by
  induction hrules generalizing merged merged' with
  | nil =>
      refine .pure (.ok ?_)
      cases hmerged with
      | some _ => exact .nil
      | none => exact .cons hrule .nil
  | @cons existing existing' rest rest' hexisting hrest ih =>
      unfold foldInto
      refine (meetRules_lockstep habreast hblind hmeet hexisting hrule).bind ?grows ?grows' fun out out' hout => ?_
      case grows | grows' =>
        intro out
        cases out with
        | orthogonal => exact .bind (foldInto_inherits .grows hmeet.grows _ _ _) fun _ => .pure _
        | disjoint d => exact .pure _
        | node n =>
            dsimp only
            split
            · exact .bind (foldInto_inherits .grows hmeet.grows _ _ _) fun _ => .pure _
            · split
              · exact foldInto_inherits .grows hmeet.grows _ _ _
              · exact .throw _
      cases hout with
      | orthogonal => exact (ih hmerged).map fun _ _ => .map fun _ _ => .cons hexisting
      | disjoint hd => exact .pure (.error hd)
      | node hn =>
          cases hmerged with
          | none => exact (ih (.some hn)).map fun _ _ => .map fun _ _ => .cons hn
          | some hprevious =>
              exact .ite (by rw [sameType_eq hprevious hn]) (ih (.some hprevious)) (.internalError _ _)

theorem addRule_lockstep {rules rules' : List Node} (hrules : List.Forall₂ (Twins left right) rules rules')
    {rule rule' : Node} (hrule : Twins left right rule rule') :
    Lockstep left right (addRule meet rules rule) (addRule meet rules' rule')
      (Agree (Disjoint.Related (Twins left right)) (List.Forall₂ (Twins left right))) :=
  .ite (by rw [hrule.kind_eq habreast]) (foldInto_lockstep habreast hblind hmeet hrule .none hrules)
    (.internalError _ _)

theorem addRules_lockstep {rules rules' more more' : List Node} (hrules : List.Forall₂ (Twins left right) rules rules')
    (hmore : List.Forall₂ (Twins left right) more more') :
    Lockstep left right (addRules meet rules more) (addRules meet rules' more')
      (Agree (Disjoint.Related (Twins left right)) (List.Forall₂ (Twins left right))) := by
  induction hmore generalizing rules rules' with
  | nil => exact .pure (.ok hrules)
  | cons hrule _ ih =>
      refine (addRule_lockstep habreast hblind hmeet hrules hrule).bind ?grows ?grows' fun out out' hout => ?_
      case grows | grows' =>
        intro out
        cases out with
        | error d => exact .pure _
        | ok rules => exact addRules_inherits .grows hmeet.grows _ _
      cases hout with
      | error hd => exact .pure (.error hd)
      | ok hrules => exact ih hrules

theorem finish_lockstep {rules rules' : List Node} (hrules : List.Forall₂ (Twins left right) rules rules') :
    Lockstep left right (finish meet .algebra .none rules) (finish meet .algebra .none rules')
      (Agree (Disjoint.Related (Twins left right)) (Twins left right)) := by
  refine (splitBasis_lockstep habreast .none hrules).bind ?grows ?grows' fun parts parts' hparts => ?_
  case grows | grows' =>
    intro parts
    dsimp only
    split
    · exact .bind (.intern _ _) fun implied =>
        .bind (addRule_inherits .grows hmeet.grows _ implied) (refinish_inherits .grows .none (.inl trivial))
    · exact finishWith_inherits .grows _ _ _ _ (.inl trivial)
  obtain ⟨basis, constraints⟩ := parts
  obtain ⟨basis', constraints'⟩ := parts'
  obtain ⟨hbasis, hconstraints⟩ := hparts
  have hfinish := finishWith_lockstep habreast .algebra .none .none hbasis hconstraints
  have himplied := forall₂_findSome? hconstraints (impliedBasis?_related habreast)
  dsimp only at hbasis hconstraints himplied hfinish ⊢
  generalize constraints.findSome? impliedBasis? = x at himplied ⊢
  generalize constraints'.findSome? impliedBasis? = y at himplied ⊢
  cases hbasis with
  | some _ => exact hfinish
  | none =>
      cases himplied with
      | none => exact hfinish
      | some h =>
          refine (Lockstep.intern habreast h).bind
            (fun implied =>
              .bind (addRule_inherits .grows hmeet.grows _ implied) (refinish_inherits .grows .none (.inl trivial)))
            (fun implied =>
              .bind (addRule_inherits .grows hmeet.grows _ implied) (refinish_inherits .grows .none (.inl trivial)))
            fun implied implied' himplied => ?_
          refine (addRule_lockstep habreast hblind hmeet hconstraints himplied).bind
            (refinish_inherits .grows .none (.inl trivial)) (refinish_inherits .grows .none (.inl trivial))
            fun out out' hout => ?_
          cases hout with
          | error hd => exact .pure (.error hd)
          | ok hrules =>
              refine (splitBasis_lockstep habreast .none hrules).bind
                (fun _ => finishWith_inherits .grows _ _ _ _ (.inl trivial))
                (fun _ => finishWith_inherits .grows _ _ _ _ (.inl trivial)) fun parts parts' hparts => ?_
              exact finishWith_lockstep habreast .algebra .none .none hparts.1 hparts.2

omit hblind hmeet in
/-- The rules of a definition are finished under any captions. -/
theorem finishDefinition_lockstep (caption caption' : Caption) {rules rules' : List Node}
    (hrules : List.Forall₂ (Twins left right) rules rules') :
    Lockstep left right (finish meet .definition caption rules) (finish meet .definition caption' rules')
      (Agree (Disjoint.Related (Twins left right)) (Twins left right)) := by
  refine (splitBasis_lockstep habreast .none hrules).bind (fun _ => finishWith_inherits .grows _ _ _ _ (.inl trivial))
    (fun _ => finishWith_inherits .grows _ _ _ _ (.inl trivial)) fun parts parts' hparts => ?_
  exact finishWith_lockstep habreast .definition caption caption' hparts.1 hparts.2

theorem ofDefinitionBy_lockstep (caption caption' : Caption) {rules rules' : List Node}
    (h : List.Forall₂ (Twins left right) rules rules') :
    Lockstep left right (ofDefinitionBy meet rules caption) (ofDefinitionBy meet rules' caption')
      (Twins left right) := by
  have hfolded : List.Forall₂ (Twins left right) (rules.flatMap Node.rules) (rules'.flatMap Node.rules) :=
    List.rel_flatMap h fun _ _ => rules_related habreast
  refine (addRules_lockstep habreast hblind hmeet .nil hfolded).bind ?grows ?grows' fun out out' hout => ?_
  case grows | grows' =>
    intro out
    cases out with
    | error d => exact .throw _
    | ok rules =>
        refine .bind (finish_inherits .grows hmeet.grows .definition _ rules (.inl trivial)) fun out => ?_
        cases out with
        | error d => exact .throw _
        | ok n => exact .pure _
  cases hout with
  | error hd => exact .parseError _ _
  | ok hrules =>
      refine (finishDefinition_lockstep habreast caption caption' hrules).bind ?grows ?grows' fun out out' hout => ?_
      case grows | grows' =>
        intro out
        cases out with
        | error d => exact .throw _
        | ok n => exact .pure _
      cases hout with
      | error hd => exact .parseError _ _
      | ok hn => exact .pure hn

theorem combineBy_lockstep {operands operands' : List Node} (h : List.Forall₂ (Twins left right) operands operands') :
    Lockstep left right (combineBy meet operands) (combineBy meet operands') (Intersected.Related (Twins left right)) := by
  have hrules : List.Forall₂ (Twins left right) (operands.flatMap rules) (operands'.flatMap rules) :=
    List.rel_flatMap h fun _ _ => rules_related habreast
  refine (addRules_lockstep habreast hblind hmeet .nil hrules).bind ?grows ?grows' fun out out' hout => ?_
  case grows | grows' =>
    intro out
    cases out with
    | error d => exact .pure _
    | ok rules =>
        refine .bind (finish_inherits .grows hmeet.grows .algebra .none rules (.inl trivial)) fun out => ?_
        cases out <;> exact .pure _
  cases hout with
  | error hd => exact .pure (.disjoint hd)
  | ok hrules =>
      refine (finish_lockstep habreast hblind hmeet hrules).bind ?grows ?grows' fun out out' hout => ?_
      case grows | grows' =>
        intro out
        cases out <;> exact .pure _
      cases hout with
      | error hd => exact .pure (.disjoint hd)
      | ok hn => exact .pure (.node hn)

theorem meetIntersections_lockstep (hl : Twins left right l l') (hr : Twins left right r r') :
    Lockstep left right (meetIntersections meet l r) (meetIntersections meet l' r')
      (Intersected.Related (Twins left right)) := by
  have hcontent := hl.content habreast
  have hconstraints := meetConstraints_lockstep habreast hl hr hblind hmeet
  have hcombine := combineBy_lockstep habreast hblind hmeet (.cons hl (.cons hr .nil))
  unfold meetIntersections
  generalize l.content = c at hcontent ⊢
  generalize l'.content = c' at hcontent ⊢
  cases hcontent with
  | intersection _ _ =>
      refine hcombine.onNode (fun _ => .pure _) (fun _ => .pure _) (fun _ => .pure _) (fun _ => .pure _)
        (fun n n' hn => .pure (.node ?_)) fun _ _ hout => .pure hout
      rw [sameType_eq hn hl]
      split
      · exact hl
      · exact hn
  | _ => exact hconstraints

/-- What is orthogonal is combined on both sides. -/
theorem conjoinBy_steady {rule : Meet} (hrule : Steady left right rule) : Steady left right (conjoinBy meet rule) where
  grows := conjoinBy_inherits .grows hmeet.grows hrule.grows
  agree := fun {l l' r r'} hl hr => by
    refine (meetBy_lockstep habreast hl hr hrule).bind ?grows ?grows' fun out out' hout => ?_
    case grows | grows' =>
      intro out
      cases out with
      | orthogonal => exact combineBy_inherits .grows hmeet.grows _
      | node n => exact .pure _
      | disjoint d => exact .pure _
    cases hout with
    | orthogonal => exact combineBy_lockstep habreast hblind hmeet (.cons hl (.cons hr .nil))
    | node hn => exact .pure (.node hn)
    | disjoint hd => exact .pure (.disjoint hd)

end

-- ---------------------------------------------------------------------------
-- Morphs
-- ---------------------------------------------------------------------------

theorem createMorph_lockstep {input input' : Node} (hinput : Twins left right input input')
    {output output' : Option Node} (houtput : Option.Rel (Twins left right) output output')
    (transforms : List Transform) (caption caption' : Caption) :
    Lockstep left right (createMorph input output transforms caption) (createMorph input' output' transforms caption')
      (Twins left right) := by
  have hintern := @Lockstep.internAs _ _ habreast _ _ caption caption'
    (.morph transforms hinput houtput) (fun _ => trivial) fun _ => trivial
  refine .ite (by rw [isBasis, isBasis, hinput.kind_eq habreast]) (.parseError _ _) ?_
  cases houtput with
  | none => exact .ite .rfl (.parseError _ _) hintern
  | @some o o' ho =>
      have hkind : o.isRefinement = o'.isRefinement := by rw [isRefinement, isRefinement, ho.kind_eq habreast]
      cases hrefinement : o'.isRefinement with
      | true =>
          rw [hrefinement] at hkind
          simp only [Option.filter, hkind, hrefinement, if_true]
          exact .parseError _ _
      | false =>
          rw [hrefinement] at hkind
          simp only [Option.filter, hkind, hrefinement, Bool.false_eq_true, if_false]
          exact .ite .rfl (.parseError _ _) hintern

omit habreast in
theorem meetOutputs_lockstep {meet : Meet} (hmeet : Steady left right meet)
    {output output' other other' : Option Node} (h : Option.Rel (Twins left right) output output')
    (h' : Option.Rel (Twins left right) other other') :
    Lockstep left right (meetOutputs meet output other) (meetOutputs meet output' other')
      (Agree (Intersected.Related (Twins left right)) (Option.Rel (Twins left right))) := by
  cases h with
  | none => exact .pure (.ok h')
  | some ha =>
      cases h' with
      | none => exact .pure (.ok (.some ha))
      | some hb =>
          exact (hmeet.agree ha hb).onNode (fun _ => .pure _) (fun _ => .pure _) (fun _ => .pure _) (fun _ => .pure _)
            (fun _ _ hn => .pure (.ok (.some hn))) fun _ _ hout => .pure (.error hout)

section

variable [Behaviour] (hblind : BlindToSign) {meet : Meet} (hmeet : Steady left right meet)

include hblind hmeet

theorem conjoinInputs_steady : Steady left right (conjoinInputs meet) :=
  conjoinBy_steady habreast hblind hmeet
    ⟨meetIntersections_inherits .grows hmeet.grows, meetIntersections_lockstep habreast hblind hmeet⟩

/-- Two morphs that run the same transforms. -/
theorem mergeMorphs_lockstep {input input' other other' : Node} {output output' result result' : Option Node}
    (hinput : Twins left right input input') (hother : Twins left right other other')
    (houtput : Option.Rel (Twins left right) output output') (hresult : Option.Rel (Twins left right) result result')
    (transforms : List Transform) :
    Lockstep left right
      (do match ← conjoinInputs meet input other with
        | .node input => match ← meetOutputs meet output result with
          | .ok output => return .node (← createMorph input output transforms .none)
          | .error other => return other
        | other => return other)
      (do match ← conjoinInputs meet input' other' with
        | .node input => match ← meetOutputs meet output' result' with
          | .ok output => return .node (← createMorph input output transforms .none)
          | .error other => return other
        | other => return other)
      (Intersected.Related (Twins left right)) := by
  refine ((conjoinInputs_steady habreast hblind hmeet).agree hinput hother).onNode
    (fun n => .bind (meetOutputs_inherits .grows hmeet.grows _ _) (mergedMorph_inherits .grows transforms n))
    (fun n => .bind (meetOutputs_inherits .grows hmeet.grows _ _) (mergedMorph_inherits .grows transforms n))
    (fun _ => .pure _) (fun _ => .pure _) (fun n n' hn => ?_) fun _ _ hout => .pure hout
  refine (meetOutputs_lockstep hmeet houtput hresult).bind (mergedMorph_inherits .grows transforms n)
    (mergedMorph_inherits .grows transforms n') fun out out' hout => ?_
  cases hout with
  | ok h => exact (createMorph_lockstep habreast hn h transforms _ _).map fun _ _ => .node
  | error h => exact .pure h

/-- A morph and a node that is none: only what goes in is narrowed. -/
theorem narrowMorph_lockstep {input input' : Node} {output output' : Option Node} (hl : Twins left right l l')
    (hr : Twins left right r r') (hinput : Twins left right input input')
    (houtput : Option.Rel (Twins left right) output output') (transforms : List Transform) :
    Lockstep left right
      (do match ← conjoinInputs meet input r with
        | .node narrowed =>
          if narrowed.sameType input then return .node l
          else return .node (← createMorph narrowed output transforms .none)
        | other => return other)
      (do match ← conjoinInputs meet input' r' with
        | .node narrowed =>
          if narrowed.sameType input' then return .node l'
          else return .node (← createMorph narrowed output' transforms .none)
        | other => return other)
      (Intersected.Related (Twins left right)) := by
  refine ((conjoinInputs_steady habreast hblind hmeet).agree hinput hr).onNode
    (narrowedMorph_inherits .grows transforms l input · output)
    (narrowedMorph_inherits .grows transforms l' input' · output')
    (fun _ => .pure _) (fun _ => .pure _) (fun n n' hn => ?_) fun _ _ hout => .pure hout
  exact .ite (by rw [sameType_eq hn hinput]) (.pure (.node hl))
    ((createMorph_lockstep habreast hn houtput transforms _ _).map fun _ _ => .node)

theorem meetMorphs_lockstep (hl : Twins left right l l') (hr : Twins left right r r') :
    Lockstep left right (meetMorphs meet l r) (meetMorphs meet l' r') (Intersected.Related (Twins left right)) := by
  have hcontent := hl.content habreast
  have hcontent' := hr.content habreast
  have hintersections := meetIntersections_lockstep habreast hblind hmeet hl hr
  unfold meetMorphs
  generalize l.content = c at hcontent ⊢
  generalize l'.content = c' at hcontent ⊢
  generalize r.content = d at hcontent' ⊢
  generalize r'.content = d' at hcontent' ⊢
  cases hcontent with
  | morph transforms hinput houtput =>
      cases hcontent' with
      | morph transforms' hother hresult =>
          have hmerge := mergeMorphs_lockstep habreast hblind hmeet hinput hother houtput hresult transforms
          refine .ite .rfl ?_ hmerge
          exact .bind (.parseError (P := fun _ _ => True) _ _) (fun _ => hmerge.grows) (fun _ => hmerge.grows')
            fun _ _ _ => hmerge
      | _ => exact narrowMorph_lockstep habreast hblind hmeet hl hr hinput houtput transforms
  | _ => exact hintersections

theorem conjoinBranches_steady : Steady left right (conjoinBranches meet) :=
  conjoinBy_steady habreast hblind hmeet
    ⟨meetMorphs_inherits .grows hmeet.grows, meetMorphs_lockstep habreast hblind hmeet⟩

end

end Node

end SchemaAlgebra
