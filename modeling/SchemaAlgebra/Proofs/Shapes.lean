-- SUMMARY: The canonical shape of set nodes in every reachable space, and that no request ends in an internal error.
import SchemaAlgebra.Proofs.Decision
import SchemaAlgebra.Proofs.Reachable
import SchemaAlgebra.Stock

/-!
# Shapes

Whatever was asked of a space, its intersections, morphs and unions have a canonical
shape: nothing is left to merge, to sort or to cover. Two things can still go wrong.
Divisors whose least common multiple does not fit stay side by side, and a rule that
merges with both of them is reported as an internal error; this is out of the question
in regular spaces. And branches of different types can come to be of one type where
they are adopted.
-/

namespace SchemaAlgebra

open SpaceM (exec_bind exec_note)

namespace Node

variable [Behaviour] {space : Space} {a b : Node}

-- ---------------------------------------------------------------------------
-- Rules side by side
-- ---------------------------------------------------------------------------

/-- The rule for two kinds finds rules side by side to be orthogonal, and asks nothing of the space unless both are
divisors. -/
theorem meetConstraints_eq_orthogonal {meet : Meet} (h : a.Beside false b)
    (hdivisors : ¬ (a.kind = .divisor ∧ b.kind = .divisor)) (ha : a.kind.isConstraint = true)
    (hb : b.kind.isConstraint = true) : meetConstraints meet a b = pure .orthogonal := by
  have hslots {l r : Content Node} {slot : Slot} (hl : a.content = l) (hr : b.content = r)
      (hslot : l.slot? = some slot) (hslot' : r.slot? = some slot) : slot = .divisor := by
    subst hl hr
    exact (h.slots slot hslot hslot').1
  unfold meetConstraints
  split
  case h_1 v _ hc => exact absurd (by rw [kind, hc]; rfl) h.left
  case h_2 hc hc' => cases hslots hc hc' rfl rfl
  case h_3 hc hc' => cases hslots hc hc' rfl rfl
  case h_4 hc hc' => cases hslots hc hc' rfl rfl
  case h_5 hc hc' => exact absurd ⟨by rw [kind, hc]; rfl, by rw [kind, hc']; rfl⟩ hdivisors
  case h_6 bound bound' hc hc' =>
    have hne : bound.axis ≠ bound'.axis := fun heq => by cases hslots hc hc' rfl (by rw [heq]; rfl)
    rw [meetBounds, if_pos hne]
  case h_7 bound bound' hc hc' =>
    have hne : bound.axis ≠ bound'.axis := fun heq => by cases hslots hc hc' rfl (by rw [heq]; rfl)
    rw [meetBounds, if_pos hne]
  case h_8 max min hc hc' =>
    have hrange : ¬ (max.axis = min.axis ∧ max.leavesNothing min = true) :=
      fun hnothing => h.range ⟨max, min, .inl ⟨hc, hc'⟩, hnothing⟩
    rw [meetRange, if_neg hrange]
  case h_9 key _ key' _ hc hc' =>
    exact if_neg fun heq => by cases hslots hc hc' rfl (by rw [heq]; rfl)
  case h_10 key _ key' _ hc hc' =>
    exact if_neg fun heq => by cases hslots hc hc' rfl (by rw [heq]; rfl)
  case h_11 =>
    rw [ha, hb]
    rfl

/-- Divisors side by side are orthogonal as well. -/
theorem meetConstraints_beside {meet : Meet} (h : a.Beside false b) (hvalid : space.Valid) (hheld : space.Holds a)
    (hheld' : space.Holds b) (ha : a.kind.isConstraint = true) (hb : b.kind.isConstraint = true) :
    ((meetConstraints meet a b).exec space).1 = .ok .orthogonal := by
  by_cases hdivisors : a.kind = .divisor ∧ b.kind = .divisor
  · obtain ⟨d, hc⟩ := exists_divisor hdivisors.1
    obtain ⟨d', hc'⟩ := exists_divisor hdivisors.2
    unfold meetConstraints
    rw [hc, hc']
    dsimp only
    rw [meetDivisors_eq (divisor_fits hvalid hheld hc) (divisor_fits hvalid hheld' hc'), h.overflow d d' hc hc',
      exec_bind, exec_note]
    rfl
  · rw [meetConstraints_eq_orthogonal h hdivisors ha hb]
    rfl

/-- Constraints are intersected by the rule for their kinds. -/
theorem meetUnions_of_isConstraint {meet : Meet} (h : a.kind.isConstraint = true) :
    meetUnions meet a b = meetConstraints meet a b := by
  unfold kind at h
  unfold meetUnions meetMorphs meetIntersections
  cases hc : a.content with
  | union branches ordered => rw [hc] at h; cases h
  | morph input output transforms => rw [hc] at h; cases h
  | intersection basis constraints => rw [hc] at h; cases h
  | _ => rfl

omit [Behaviour] in
/-- Nodes that a rule finds to be orthogonal in either order stay apart. -/
theorem meetBy_orthogonal {rule : Meet} (hsame : a.sameType b = false)
    (hrule : ((rule a b).exec space).1 = .ok .orthogonal) (hswapped : ((rule b a).exec space).1 = .ok .orthogonal) :
    ((meetBy rule a b).exec space).1 = .ok .orthogonal := by
  rw [meetBy, hsame, if_neg Bool.false_ne_true]
  split
  · rw [exec_bind]
    generalize (rule b a).exec space = outcome at hswapped ⊢
    obtain ⟨result, later⟩ := outcome
    cases hswapped
    rfl
  · exact hrule

/-- Two rules side by side are orthogonal. -/
theorem meetRules_beside {meet : Meet} (h : a.Beside false b) (hvalid : space.Valid) (ha : space.Holds a)
    (hb : space.Holds b) (hconstraint : a.kind.isConstraint = true) (hconstraint' : b.kind.isConstraint = true) :
    ((meetRules meet a b).exec space).1 = .ok .orthogonal :=
  meetBy_orthogonal (h.sameType_eq_false hvalid ha hb hconstraint)
    (meetConstraints_beside h hvalid ha hb hconstraint hconstraint')
    (meetConstraints_beside h.symm hvalid hb ha hconstraint' hconstraint)

theorem intersect_beside (h : a.Beside false b) (hvalid : space.Valid) (ha : space.Holds a) (hb : space.Holds b)
    (hconstraint : a.kind.isConstraint = true) (hconstraint' : b.kind.isConstraint = true) :
    ((intersect a b).exec space).1 = .ok .orthogonal := by
  rw [intersect, exec_bind, exec_adopt_home (hvalid.home b hb)]
  refine meetBy_orthogonal (h.sameType_eq_false hvalid ha hb hconstraint) ?_ ?_
  · rw [meetUnions_of_isConstraint hconstraint]
    exact meetConstraints_beside h hvalid ha hb hconstraint hconstraint'
  · rw [meetUnions_of_isConstraint hconstraint']
    exact meetConstraints_beside h.symm hvalid hb ha hconstraint' hconstraint

-- ---------------------------------------------------------------------------
-- Set nodes
-- ---------------------------------------------------------------------------

/-- The shape of an intersection: refinements in order that apply to a basis, and rules that leave each other as they
are. The basis is no unit, and does not stand alone. -/
structure RulesInShape (space : Space) (basis : Option Node) (constraints : List Node) : Prop where
  isBasis : ∀ b ∈ basis, b.isBasis = true
  notUnit : ∀ b ∈ basis, b.kind ≠ .unit
  areRefinements : ∀ c ∈ constraints, c.isRefinement = true
  notAlone : constraints = [] → basis = none
  sorted : constraints.Pairwise fun a b => constraintLE a b = true ∧ a.sameType b = false
  applicable : ∀ c ∈ constraints, c.applicabilityError? basis = none
  orthogonal : (basis.toList ++ constraints).Pairwise fun a b =>
    ((intersect a b).exec space).1 = .ok .orthogonal ∧ ((intersect b a).exec space).1 = .ok .orthogonal
  keys : constraints.Pairwise fun a b => ∀ key value value',
    ¬ (a.content = .required key value ∧ b.content = .required key value') ∧
      ¬ (a.content = .optional key value ∧ b.content = .optional key value')

/-- The shape of a morph. -/
structure EndsInShape (input : Node) (output : Option Node) (transforms : List Transform) : Prop where
  inputKind : input.kind = .intersection ∨ input.isBasis = true
  outputKind : ∀ o ∈ output, o.isRefinement = false
  transforms_ne_nil : transforms ≠ []

/-- The shape of a union: branches in order, if none was given, that leave something out. One that stands alone has
a caption. -/
structure BranchesInShape (caption : Caption) (branches : List Node) (ordered : Bool) : Prop where
  kinds : ∀ b ∈ branches, b.kind.isBranch = true
  sorted : ordered = false → branches.Pairwise fun a b => a.typeJson.compact ≤ b.typeJson.compact
  notExhaustive : isExhaustive branches = false
  notAlone : branches.length = 1 → caption.isEmpty = false

/-- The shape of any node of a space; constraints have none of their own. -/
def InShape (space : Space) (node : Node) : Prop :=
  match node.content with
  | .intersection basis constraints => RulesInShape space basis constraints
  | .morph input output transforms => EndsInShape input output transforms
  | .union branches ordered => BranchesInShape node.caption branches ordered
  | _ => True

theorem rulesInShape {basis : Option Node} {constraints : List Node} (hvalid : space.Valid)
    (hheld : ∀ e ∈ basis.toList ++ constraints, space.Holds e) (hsettled : Settled basis constraints)
    (hbeside : (basis.toList ++ constraints).Pairwise (Beside false)) : RulesInShape space basis constraints := by
  obtain ⟨-, hconstraints, hacross⟩ := List.pairwise_append.mp hbeside
  have hkinds := hsettled.areConstraints
  refine ⟨hsettled.isBasis, fun b hb => ?_, hsettled.areRefinements, hsettled.notAlone, ?_,
    firstInapplicable?_eq_none.mp hsettled.applicable, ?_, ?_⟩
  · cases constraints with
    | nil =>
        rw [hsettled.notAlone rfl] at hb
        cases hb
    | cons c rest => exact (hacross b (Option.mem_toList.mpr hb) c List.mem_cons_self).left
  · refine (hsettled.sorted.and hconstraints).imp_of_mem fun {a b} ha hb h => ⟨h.1, ?_⟩
    have ha := List.mem_append_right basis.toList ha
    exact h.2.sameType_eq_false hvalid (hheld a ha) (hheld b (List.mem_append_right _ hb)) (hkinds a ha)
  · refine hbeside.imp_of_mem fun {a b} ha hb h => ⟨?_, ?_⟩
    · exact intersect_beside h hvalid (hheld a ha) (hheld b hb) (hkinds a ha) (hkinds b hb)
    · exact intersect_beside h.symm hvalid (hheld b hb) (hheld a ha) (hkinds b hb) (hkinds a ha)
  · refine hconstraints.imp fun {a b} h key value value' => ⟨?_, ?_⟩
    · rintro ⟨hc, hc'⟩
      cases (h.slots (.required key) (by rw [slot?, hc]; rfl) (by rw [slot?, hc']; rfl)).1
    · rintro ⟨hc, hc'⟩
      cases (h.slots (.optional key) (by rw [slot?, hc]; rfl) (by rw [slot?, hc']; rfl)).1

/-- Every node of a reachable space is in shape. The branches of a union are of different types as well where nothing
was adopted. -/
theorem canonical_shape {adopting : Prop} (hreachable : space.Reachable adopting) {node : Node}
    (hnode : space.Holds node) : node.InShape space ∧ (¬ adopting → node.content.Distinct) := by
  have hvalid := hreachable.valid
  have hsound := (hvalid.written node hnode).sound
  have hcanonical := hvalid.canonical node hnode
  refine ⟨?_, fun hnone => hreachable.distinct hnone node hnode⟩
  unfold InShape
  cases hc : node.content with
  | intersection basis constraints =>
      rw [hc] at hsound hcanonical
      refine rulesInShape hvalid (fun e he => hvalid.closed node hnode e ?_) hsound hcanonical
      rw [children, hc]
      exact he
  | morph input output transforms =>
      rw [hc] at hsound
      obtain ⟨hinput, houtput, htransforms⟩ := hsound
      exact ⟨hinput, houtput, htransforms⟩
  | union branches ordered =>
      rw [hc] at hsound hcanonical
      obtain ⟨hsorted, hpartial, halone⟩ := hcanonical
      exact ⟨hsound, hsorted, hpartial, halone⟩
  | _ => exact trivial

omit [Behaviour] in
/-- Texts or even numbers: a union of two branches in shape. -/
theorem union_in_shape : ∃ (space : Space) (node : Node), @Space.Reachable Stock.behaviour False space ∧
    space.Holds node ∧ node.kind = .union ∧ @InShape Stock.behaviour space node ∧ node.content.Distinct := by
  let _ := Stock.behaviour
  let even : Definition := .map [("basis", .string "number"), ("divisor", .number (.ofNat 2))]
  let written : Definition := .map [("branches", .list [.string "string", even]), ("ordered", .bool true)]
  have hyields : written.readRoot.yields (.new 0 .standard) (fun n => n.kind = .union) = true := by
    decide +kernel
  obtain ⟨node, hread, hkind⟩ := SpaceM.yields_iff.mp hyields
  obtain ⟨hreachable, -, hholds⟩ :=
    (@Space.Reachable.new _ False 0 .standard).read (d := written) (List.forall_mem_nil _)
  obtain ⟨hshape, hdistinct⟩ := canonical_shape hreachable (hholds node hread)
  exact ⟨_, node, hreachable, hholds node hread, of_decide_eq_true hkind, hshape, hdistinct not_false⟩

end Node

-- ---------------------------------------------------------------------------
-- Internal errors
-- ---------------------------------------------------------------------------

namespace Request

variable [Behaviour] {space : Space}

/-- No request ends in an internal error where the space is regular afterwards, and no two nodes are orthogonal to
conjunction. -/
theorem no_internal_error {adopting : Prop} (hreachable : space.Reachable adopting) {request : Request}
    {origin : Node → Space} (horigin : ∀ n, (origin n).Reachable adopting)
    (hresidents : ∀ n ∈ request.residents, space.Holds n)
    (hguests : ∀ n ∈ request.guests,
      space.Holds n ∨ adopting ∧ (origin n).number ≠ space.number ∧ (origin n).Holds n) :
    ((request.run.exec space).2.Regular → ∀ reason, (request.run.exec space).1 ≠ .error (.internal reason)) ∧
      ∀ l r, space.Holds l → space.Holds r → ((Node.conjoin l r).exec space).1 ≠ .ok .orthogonal := by
  have hvalid := hreachable.valid
  have hwelcome (n : Node) (hn : n ∈ request.guests) := Space.welcome_of_origin (horigin n).valid (hguests n hn)
  refine ⟨(request.run_spec hresidents hwelcome space hvalid (.refl space)).sane, fun l r hl hr horthogonal => ?_⟩
  have hwelcome : Node.Welcome True space r := .inl hr
  obtain ⟨adopted, depth, -, hout⟩ :=
    (Node.conjoin_always hl hwelcome space hvalid (.refl space)).result _ horthogonal
  exact hout

omit [Behaviour] in
/-- The multiples of 4 that are multiples of 6: divisors that merge. -/
theorem no_internal_error_of_divisors : ∃ (space : Space) (l r : Node), @Space.Reachable Stock.behaviour False space ∧
    space.Holds l ∧ space.Holds r ∧ ((@run Stock.behaviour (.and l r)).exec space).2.Regular ∧
      ∀ reason, ((@run Stock.behaviour (.and l r)).exec space).1 ≠ .error (.internal reason) := by
  let _ := Stock.behaviour
  let multiplesOf (d : Nat) : Definition := .map [("domain", .string "number"), ("divisor", .number (.ofNat d))]
  let program : SpaceM Bool := do
    let l ← (multiplesOf 4).readRoot
    let r ← (multiplesOf 6).readRoot
    let space ← get
    return ((run (.and l r)).exec space).2.Regular
  have hyields : program.yields (.new 0 .standard) (fun b => b) = true := by
    decide +kernel
  obtain ⟨l, hl, hyields⟩ := SpaceM.yields_bind.mp hyields
  obtain ⟨r, hr, hyields⟩ := SpaceM.yields_bind.mp hyields
  rw [SpaceM.yields_get, SpaceM.yields_pure, decide_eq_true_eq] at hyields
  obtain ⟨hreachable, hlHeld, hrHeld⟩ := (@Space.Reachable.new _ False 0 .standard).read_both rfl rfl hl hr
  have hsane := @no_internal_error _ _ False hreachable (.and l r) (fun _ => _) (fun _ => hreachable)
    (List.forall_mem_singleton.mpr hlHeld) (List.forall_mem_singleton.mpr (.inl hrHeld))
  exact ⟨_, l, r, hreachable, hlHeld, hrHeld, hyields, hsane.1 hyields⟩

end Request

end SchemaAlgebra
