-- SUMMARY: The two nodes that a conflict records conflict in the same way when they are conjoined on their own.
import SchemaAlgebra.Proofs.Absorption
import SchemaAlgebra.Proofs.Depth
import SchemaAlgebra.Proofs.SideBySide

/-!
# Conflicts

A conflict is found between two nodes deep inside the operands, is turned round where
these were swapped, and collects the keys on its way out. What it records is followed
here from the rule that found it: whatever two nodes a conflict names, conjoining them
finds a conflict of its kind again. For most rules this depends on the two nodes alone.
That no branches of unions intersect depends on the nodes that were made on the way, so
that here the evidence is the run that found it.
-/

namespace SchemaAlgebra

-- ---------------------------------------------------------------------------
-- Results
-- ---------------------------------------------------------------------------

namespace SpaceM

variable {α β : Type} {space : Space} {P Q : Space → α → Prop} {x y : SpaceM α}

/-- What holds of the result of a computation, if it gives one, and of the space after it. -/
def Results (space : Space) (x : SpaceM α) (Q : Space → α → Prop) : Prop :=
  ∀ a, (x.exec space).1 = .ok a → Q (x.exec space).2 a

namespace Results

theorem pure {a : α} (h : Q space a) : Results space (Pure.pure a) Q := by
  rintro b ⟨⟩
  exact h

theorem throw (error : SchemaError) : Results space (MonadExcept.throw error) Q := fun _ => nofun

theorem imp (h : Results space x P) (hpq : ∀ later a, P later a → Q later a) : Results space x Q :=
  fun a ha => hpq _ a (h a ha)

theorem and (h : Results space x P) (h' : Results space x Q) : Results space x fun later a => P later a ∧ Q later a :=
  fun a ha => ⟨h a ha, h' a ha⟩

theorem bind {f : α → SpaceM β} {R : Space → β → Prop} (h : Results space x P)
    (hf : ∀ later a, P later a → Results later (f a) R) : Results space (x >>= f) R := by
  intro b hb
  unfold Results at h
  rw [exec_bind] at hb ⊢
  generalize x.exec space = first at h hb ⊢
  rcases first with ⟨error | a, later⟩
  · cases hb
  · exact hf later a (h a rfl) b hb

/-- Whatever the first steps give. -/
theorem after {f : α → SpaceM β} {R : Space → β → Prop} (hf : ∀ later a, Results later (f a) R) :
    Results space (x >>= f) R :=
  bind (P := fun _ _ => True) (fun _ _ => trivial) fun later a _ => hf later a

end Results

theorem Ensures.results {ground safe : Prop} (h : Ensures ground safe space x Q) :
    Results space x fun later a => (later.Valid ∧ later.Extends space) ∧ Q later a :=
  fun a ha => ⟨⟨h.valid, h.extension⟩, h.result a ha⟩

end SpaceM

namespace Node

open SpaceM (Results Ensures)

variable [Behaviour] {space later : Space} {l r : Node} {kind : DisjointKind}

-- ---------------------------------------------------------------------------
-- Conflicts that depend on the nodes alone
-- ---------------------------------------------------------------------------

/-- Conjoining two nodes finds a conflict of a kind, whatever the space and the depth. -/
def Opposes (kind : DisjointKind) (l r : Node) : Prop :=
  ∀ meet : Meet, ∃ d, conjoinBy meet (meetUnions meet) l r = pure (.disjoint d) ∧ d.kind = kind

/-- Conjoining two nodes finds a conflict of a kind in either order. -/
structure Opposed (kind : DisjointKind) (l r : Node) : Prop where
  forth : Opposes kind l r
  back : Opposes kind r l

theorem Opposed.symm (h : Opposed kind l r) : Opposed kind r l := ⟨h.back, h.forth⟩

omit [Behaviour] in
theorem meetBy_forth {rule : Meet} (hne : l.sameType r = false) (horder : l.kind.order ≤ r.kind.order) :
    meetBy rule l r = rule l r := by
  rw [meetBy, hne, if_neg Bool.false_ne_true, if_neg (Nat.not_lt.mpr horder)]

omit [Behaviour] in
theorem meetBy_back {rule : Meet} (hne : l.sameType r = false) (horder : l.kind.order < r.kind.order) :
    meetBy rule r l = do return (← rule l r).invert := by
  have hne' := (sameType_comm r l).trans hne
  rw [meetBy, hne', if_neg Bool.false_ne_true, if_pos horder]

/-- Where two nodes in order conflict at once, they do in the other order as well, if nodes of one kind do. -/
theorem opposed_of_meetUnions (horder : l.kind.order ≤ r.kind.order) (hne : l.sameType r = false)
    (h : ∀ meet, meetUnions meet l r = pure (.disjoint (.between kind l r)))
    (hback : l.kind.order = r.kind.order → ∀ meet, meetUnions meet r l = pure (.disjoint (.between kind r l))) :
    Opposed kind l r := by
  constructor
  · intro meet
    refine ⟨.between kind l r, ?_, rfl⟩
    rw [conjoinBy, meetBy_forth hne horder, h, pure_bind]
  · intro meet
    rcases Nat.lt_or_eq_of_le horder with hlt | heq
    · refine ⟨(Disjoint.between kind l r).invert, ?_, rfl⟩
      rw [conjoinBy, meetBy_back hne hlt, h, pure_bind, pure_bind]
      rfl
    · refine ⟨.between kind r l, ?_, rfl⟩
      have hne' := (sameType_comm r l).trans hne
      rw [conjoinBy, meetBy_forth hne' heq.ge, hback heq, pure_bind]

theorem opposed_of_rule (hl : l.kind.isConstraint = true) (hr : r.kind.isConstraint = true)
    (horder : l.kind.order ≤ r.kind.order) (hne : l.sameType r = false)
    (h : ∀ meet, meetConstraints meet l r = pure (.disjoint (.between kind l r)))
    (hback : l.kind.order = r.kind.order → ∀ meet, meetConstraints meet r l = pure (.disjoint (.between kind r l))) :
    Opposed kind l r :=
  opposed_of_meetUnions horder hne (fun meet => (meetUnions_of_isConstraint hl).trans (h meet))
    fun heq meet => (meetUnions_of_isConstraint hr).trans (hback heq meet)

/-- A basis that is no unit and a refinement leave each other as they are. -/
theorem meetUnions_basis {b c : Node} (hb : b.isBasis = true) (hunit : b.kind ≠ .unit) (hc : c.isRefinement = true)
    (meet : Meet) : meetUnions meet b c = pure .orthogonal := by
  rw [meetUnions_of_isConstraint (isConstraint_of_isBasis hb)]
  unfold isRefinement kind at hc
  unfold meetConstraints
  rcases basis_cases hb with ⟨v, hv⟩ | ⟨p, hp⟩ | ⟨d, hd⟩
  · exact absurd (by rw [Node.kind, hv]; rfl) hunit
  · rw [hp, Node.kind, hp]
    cases hcontent : c.content <;> rw [hcontent] at hc <;> first | cases hc; done | rw [Node.kind, hcontent]; rfl
  · rw [hd, Node.kind, hd]
    cases hcontent : c.content <;> rw [hcontent] at hc <;> first | cases hc; done | rw [Node.kind, hcontent]; rfl

/-- A constraint that cannot apply to the basis is a conflict between the two. -/
theorem combineBy_inapplicable {b c : Node} {meet : Meet} {operands : List Node}
    (hoperands : ∀ o ∈ operands, o.kind.isConstraint = true)
    (hadds : addRules meet [] operands = pure (.ok operands))
    (hsplit : splitBasis none operands = pure (some b, [c])) {reason : ParseError}
    (h : c.applicabilityError? (some b) = some reason) :
    combineBy meet operands = pure (.disjoint (.between .assignability b c)) := by
  have hfirst : firstInapplicable? (some b) [c] = some (c, reason) := by
    simp [firstInapplicable?, h]
  rw [combineBy, flatMap_rules hoperands, hadds, pure_bind]
  dsimp only
  rw [finish, hsplit, pure_bind]
  dsimp only
  rw [finishWith, hfirst]
  · rfl
  · rintro _ - ⟨⟩

/-- A basis and a refinement that cannot apply to it. -/
theorem opposed_of_inapplicable {b c : Node} (hb : b.isBasis = true) (hunit : b.kind ≠ .unit)
    (hc : c.isRefinement = true) (hne : b.sameType c = false) {reason : ParseError}
    (h : c.applicabilityError? (some b) = some reason) : Opposed .assignability b c := by
  have hbasis := isConstraint_of_isBasis hb
  obtain ⟨-, hnotBasis, hrefinement⟩ := kind_of_isRefinement hc
  have horder : b.kind.order < c.kind.order := by
    unfold isBasis at hb
    unfold isRefinement at hc
    generalize b.kind = kind at hb
    generalize c.kind = kind' at hc
    cases kind <;> first | cases hb; done | cases kind' <;> first | cases hc; done | decide
  have hboth : (∀ o ∈ [b, c], o.kind.isConstraint = true) ∧ ∀ o ∈ [c, b], o.kind.isConstraint = true := by
    simp [hbasis, hrefinement]
  constructor
  · intro meet
    have hmeets : meetRules meet b c = pure .orthogonal := by
      rw [meetRules, meetBy_forth hne horder.le, ← meetUnions_of_isConstraint hbasis, meetUnions_basis hb hunit hc]
    have hsplit : splitBasis none [b, c] = pure (some b, [c]) := by
      rw [splitBasis, if_pos hb, splitBasis_refinements (List.forall_mem_singleton.mpr hc)]
    refine ⟨.between .assignability b c, ?_, rfl⟩
    rw [conjoinBy, meetBy_forth hne horder.le, meetUnions_basis hb hunit hc, pure_bind]
    exact combineBy_inapplicable hboth.1 (addRules_orthogonal hboth.1 (List.pairwise_pair.mpr hmeets)) hsplit h
  · intro meet
    have hmeets : meetRules meet c b = pure .orthogonal := by
      rw [meetRules, meetBy_back hne horder, ← meetUnions_of_isConstraint hbasis, meetUnions_basis hb hunit hc,
        pure_bind]
      rfl
    have hsplit : splitBasis none [c, b] = pure (some b, [c]) := by
      rw [splitBasis, if_neg (by simp [hnotBasis]), splitBasis, if_pos hb]
      rfl
    refine ⟨.between .assignability b c, ?_, rfl⟩
    rw [conjoinBy, meetBy_back hne horder, meetUnions_basis hb hunit hc, pure_bind, pure_bind]
    exact combineBy_inapplicable hboth.2 (addRules_orthogonal hboth.2 (List.pairwise_pair.mpr hmeets)) hsplit h

-- ---------------------------------------------------------------------------
-- Evidence
-- ---------------------------------------------------------------------------

/-- On the way to a space it was found that no branch of a union intersects any of another node. -/
structure Parted (later : Space) (l r : Node) : Prop where
  isUnion : l.kind = .union
  differ : l.sameType r = false
  found : ∃ (depth : Nat) (start : Space), start.Valid ∧ l.Within False (depth + 1) start ∧
    r.Within False (depth + 1) start ∧ later.Extends ((meetUnions (conjoinWithin depth) l r).exec start).2 ∧
      ((meetUnions (conjoinWithin depth) l r).exec start).1 = .ok (.disjoint (.between .union l r))

end Node

/-- What a conflict records conflicts in the same way: for good, or in a run on the way to a space. -/
structure Disjoint.Evident [Behaviour] (space : Space) (d : Disjoint) : Prop where
  left : space.Holds d.l
  right : space.Holds d.r
  opposed : d.kind ≠ .union → Node.Opposed d.kind d.l d.r
  parted : d.kind = .union → Node.Parted space d.l d.r ∨ Node.Parted space d.r d.l

section

variable [Behaviour] {space : Space} {d : Disjoint}

theorem Disjoint.Evident.invert (h : d.Evident space) : d.invert.Evident space where
  left := h.right
  right := h.left
  opposed := fun hkind => (h.opposed hkind).symm
  parted := fun hkind => (h.parted hkind).symm

theorem Disjoint.Evident.atKey (h : d.Evident space) (key : PropKey) : (d.atKey key).Evident space :=
  ⟨h.left, h.right, h.opposed, h.parted⟩

end

namespace Node

open SpaceM (Results Ensures)

variable [Behaviour] {ground : Prop} {depth : Nat} {space later : Space} {l r : Node} {kind : DisjointKind} {meet : Meet}

theorem evident_between (hl : space.Holds l) (hr : space.Holds r) (hkind : kind ≠ .union) (h : Opposed kind l r) :
    (Disjoint.between kind l r).Evident space :=
  ⟨hl, hr, fun _ => h, fun heq => absurd heq hkind⟩

/-- The conflict that an outcome is, if it is one, is evident. -/
def Founded (space : Space) (out : Intersected) : Prop := ∀ d, out = .disjoint d → d.Evident space

theorem founded_node (n : Node) : Founded space (.node n) := fun _ => nofun

theorem founded_orthogonal : Founded space .orthogonal := fun _ => nofun

theorem founded_disjoint {d : Disjoint} (h : d.Evident space) : Founded space (.disjoint d) := by
  rintro _ ⟨⟩
  exact h

theorem Founded.invert {out : Intersected} (h : Founded space out) : Founded space out.invert := by
  cases out with
  | node n => exact founded_node n
  | disjoint d => exact founded_disjoint (h d rfl).invert
  | orthogonal => exact founded_orthogonal

/-- A way of intersecting nodes that nest to less than a depth all of whose conflicts are evident. -/
def Testifies (depth : Nat) (meet : Meet) : Prop :=
  ∀ space l r, space.Valid → l.Within False depth space → r.Within False depth space →
    Results space (meet l r) Founded

-- ---------------------------------------------------------------------------
-- Constraints
-- ---------------------------------------------------------------------------

theorem meetBy_founded {rule : Meet}
    (hrule : l.kind.order ≤ r.kind.order → l.sameType r = false → Results space (rule l r) Founded)
    (hswap : r.kind.order ≤ l.kind.order → r.sameType l = false → Results space (rule r l) Founded) :
    Results space (meetBy rule l r) Founded := by
  unfold meetBy
  split
  · exact .pure (founded_node l)
  rename_i hne
  rw [Bool.not_eq_true] at hne
  split
  · rename_i hlt
    have hne' := (sameType_comm r l).trans hne
    exact (hswap (Nat.le_of_lt hlt) hne').bind fun _ _ hout => .pure hout.invert
  · rename_i hle
    exact hrule (Nat.le_of_not_lt hle) hne

omit [Behaviour] in
/-- Unions come before all other kinds. -/
theorem order_lt_of_union (h : l.kind = .union) (h' : r.kind ≠ .union) : l.kind.order < r.kind.order := by
  rw [h]
  generalize r.kind = kind at h'
  cases kind <;> first | exact absurd rfl h' | decide

omit [Behaviour] in
theorem unit_of_kind {node : Node} (h : node.kind = .unit) : ∃ v, node.content = .unit v := by
  unfold Node.kind at h
  cases hc : node.content with
  | unit v => exact ⟨v, rfl⟩
  | _ => rw [hc] at h; cases h

section

variable (hl : space.Holds l) (hr : space.Holds r) (hne : l.sameType r = false)

include hl hr hne

theorem meetUnit_founded (hvalid : space.Valid) (hcr : r.kind.isConstraint = true)
    (horder : l.kind.order ≤ r.kind.order) {v : Value} (hc : l.content = .unit v) :
    Founded space (meetUnit l r v) := by
  have hkind : l.kind = .unit := by rw [Node.kind, hc]; rfl
  have hcl : l.kind.isConstraint = true := by rw [hkind]; rfl
  have hrule (meet : Meet) : meetConstraints meet l r = pure (meetUnit l r v) := by
    rw [meetConstraints, hc]
  unfold meetUnit at hrule ⊢
  split
  · exact founded_node l
  rename_i hrefuses
  split
  · rename_i hunit
    obtain ⟨w, hw⟩ := unit_of_kind hunit
    have hback : ¬ l.allows w = true := fun hallows =>
      hrefuses ((allows_unit hvalid hr hw).mpr ((allows_unit hvalid hl hc).mp hallows).symm)
    refine founded_disjoint (evident_between hl hr (by decide)
      (opposed_of_rule hcl hcr horder hne (fun meet => ?_) fun _ meet => ?_))
    · rw [hrule, if_neg hrefuses, if_pos hunit]
    · rw [meetConstraints, hw]
      dsimp only
      rw [meetUnit, if_neg hback, if_pos hkind]
  · rename_i hunit
    refine founded_disjoint (evident_between hl hr (by decide)
      (opposed_of_rule hcl hcr horder hne (fun meet => ?_) fun heq => ?_))
    · rw [hrule, if_neg hrefuses, if_neg hunit]
    · rw [hkind] at heq
      generalize r.kind = kind at heq hunit
      cases kind <;> first | exact absurd rfl hunit | cases heq

theorem meetProtos_founded {a b : Proto} (ha : l.content = .proto a) (hb : r.content = .proto b) :
    Founded space (meetProtos l r a b) := by
  have hkind : l.kind = .proto := by rw [Node.kind, ha]; rfl
  have hkind' : r.kind = .proto := by rw [Node.kind, hb]; rfl
  unfold meetProtos
  split
  · exact founded_node l
  rename_i hforth
  split
  · exact founded_node r
  rename_i hback
  refine founded_disjoint (evident_between hl hr (by decide) (opposed_of_rule (by rw [hkind]; rfl) (by rw [hkind']; rfl)
    (by rw [hkind, hkind']) hne (fun meet => ?_) fun _ meet => ?_))
  · rw [meetConstraints, ha, hb]
    dsimp only
    rw [meetProtos, if_neg hforth, if_neg hback]
  · rw [meetConstraints, ha, hb]
    dsimp only
    rw [meetProtos, if_neg hback, if_neg hforth]

theorem meetRange_founded {max min : Bound} (hmax : l.content = .max max) (hmin : r.content = .min min) :
    Founded space (meetRange l r max min) := by
  have hkind : l.kind = .max := by rw [Node.kind, hmax]; rfl
  have hkind' : r.kind = .min := by rw [Node.kind, hmin]; rfl
  unfold meetRange
  split
  · rename_i hnothing
    refine founded_disjoint (evident_between hl hr (by decide) (opposed_of_rule (by rw [hkind]; rfl) (by rw [hkind']; rfl)
      (by rw [hkind, hkind']; decide) hne (fun meet => ?_) fun heq => ?_))
    · rw [meetConstraints, hmax, hmin]
      dsimp only
      rw [meetRange, if_pos hnothing]
    · rw [hkind, hkind'] at heq
      cases heq
  · exact founded_orthogonal

/-- Two different domains, and a constructor and a domain that is not that of objects. -/
theorem domains_founded {d : Domain} (hd : r.content = .domain d)
    (h : (∃ d', l.content = .domain d') ∨ (∃ p, l.content = .proto p) ∧ d ≠ .object) :
    Founded space (.disjoint (.between .domain l r)) := by
  have hkind' : r.kind = .domain := by rw [Node.kind, hd]; rfl
  refine founded_disjoint (evident_between hl hr (by decide) ?_)
  rcases h with ⟨d', hd'⟩ | ⟨⟨p, hp⟩, hobject⟩
  · have hkind : l.kind = .domain := by rw [Node.kind, hd']; rfl
    refine opposed_of_rule (by rw [hkind]; rfl) (by rw [hkind']; rfl) (by rw [hkind, hkind']) hne (fun meet => ?_)
      fun _ meet => ?_
    · rw [meetConstraints, hd', hd]
    · rw [meetConstraints, hd', hd]
  · have hkind : l.kind = .proto := by rw [Node.kind, hp]; rfl
    refine opposed_of_rule (by rw [hkind]; rfl) (by rw [hkind']; rfl) (by rw [hkind, hkind']; decide) hne
      (fun meet => ?_) fun heq => ?_
    · rw [meetConstraints, hp, hd]
      dsimp only
      rw [if_neg hobject]
    · rw [hkind, hkind'] at heq
      cases heq

end

omit [Behaviour] in
theorem meetBounds_ne_disjoint (side : BoundSide) (l r : Node) (a b : Bound) (d : Disjoint) :
    meetBounds side l r a b ≠ .disjoint d := by
  unfold meetBounds
  split <;> nofun

omit [Behaviour] in
theorem meetDivisors_results (l r : Node) (a b : Nat) :
    Results space (meetDivisors l r a b) fun _ out => ∀ d, out ≠ .disjoint d := by
  refine .after fun later _ => ?_
  split
  · exact .throw _
  · exact .pure fun _ => nofun
  · split
    · exact .pure fun _ => nofun
    · split
      · exact .pure fun _ => nofun
      · exact .after fun _ _ => .pure fun _ => nofun

theorem meetProps_founded (hmeet : Testifies depth meet) (hvalid : space.Valid) (hl : l.Calm False (depth + 1) space)
    (hr : r.Calm False (depth + 1) space) {make : Node → Content Node} {key : PropKey} {kind : Kind} {missing : Bool}
    (h : MakesProp make key kind missing) {a b : Node} (ha : l.content = make a) (hb : r.content = make b) :
    Results space (meetProps meet make l r key a b) Founded := by
  refine (hmeet space a b hvalid (h.within hvalid hl ha) (h.within hvalid hr hb)).bind fun later out hout => ?_
  cases out with
  | node value =>
      dsimp only
      split
      · exact .pure (founded_node l)
      · split
        · exact .pure (founded_node r)
        · exact .after fun _ n => .pure (founded_node n)
  | disjoint d => exact .pure (founded_disjoint ((hout d rfl).atKey key))
  | orthogonal => exact .pure founded_orthogonal

theorem meetConstraints_founded (hmeet : Testifies depth meet) (hvalid : space.Valid)
    (hl : l.Calm False (depth + 1) space) (hr : r.Calm False (depth + 1) space) (hcr : r.kind.isConstraint = true)
    (horder : l.kind.order ≤ r.kind.order) (hne : l.sameType r = false) :
    Results space (meetConstraints meet l r) Founded := by
  unfold meetConstraints
  split
  case h_1 hc => exact .pure (meetUnit_founded hl.holds hr.holds hne hvalid hcr horder hc)
  case h_2 ha hb => exact .pure (meetProtos_founded hl.holds hr.holds hne ha hb)
  case h_3 p d hp hd =>
    refine .pure ?_
    split
    · exact founded_node l
    · rename_i hobject
      exact domains_founded hl.holds hr.holds hne hd (.inr ⟨⟨p, hp⟩, hobject⟩)
  case h_4 d d' hd hd' => exact .pure (domains_founded hl.holds hr.holds hne hd' (.inl ⟨d, hd⟩))
  case h_5 a b _ _ =>
    exact (meetDivisors_results l r a b).imp fun _ _ hout d hd => absurd hd (hout d)
  case h_6 a b _ _ => exact .pure fun d hd => absurd hd (meetBounds_ne_disjoint .max l r a b d)
  case h_7 a b _ _ => exact .pure fun d hd => absurd hd (meetBounds_ne_disjoint .min l r a b d)
  case h_8 hmax hmin => exact .pure (meetRange_founded hl.holds hr.holds hne hmax hmin)
  case h_9 key a key' b ha hb =>
    split
    · rename_i hkey
      exact meetProps_founded hmeet hvalid hl hr (makes_required key) ha (hkey ▸ hb)
    · exact .pure founded_orthogonal
  case h_10 key a key' b ha hb =>
    split
    · rename_i hkey
      exact meetProps_founded hmeet hvalid hl hr (makes_optional key) ha (hkey ▸ hb)
    · exact .pure founded_orthogonal
  case h_11 =>
    split
    · exact .pure founded_orthogonal
    · exact .throw _

theorem meetRules_founded (hmeet : Testifies depth meet) (hvalid : space.Valid)
    (hl : l.Calm False (depth + 1) space) (hr : r.Calm False (depth + 1) space) (hcl : l.kind.isConstraint = true)
    (hcr : r.kind.isConstraint = true) : Results space (meetRules meet l r) Founded :=
  meetBy_founded (meetConstraints_founded hmeet hvalid hl hr hcr) (meetConstraints_founded hmeet hvalid hr hl hcl)

-- ---------------------------------------------------------------------------
-- Intersections
-- ---------------------------------------------------------------------------

/-- The conflict between rules, if there is one, is evident. -/
def Warranted {α : Type} (space : Space) (out : Except Disjoint α) : Prop := ∀ d, out = .error d → d.Evident space

theorem warranted_ok {α : Type} (a : α) : Warranted space (.ok a) := fun _ => nofun

theorem warranted_error {α : Type} {d : Disjoint} (h : d.Evident space) :
    Warranted space (.error d : Except Disjoint α) := by
  rintro _ ⟨⟩
  exact h

theorem Warranted.map {α β : Type} {out : Except Disjoint α} (h : Warranted space out) (f : α → β) :
    Warranted space (out.map f) := by
  cases out with
  | ok a => exact warranted_ok (f a)
  | error d => exact warranted_error (h d rfl)

section

variable (hmeet : Conjoins ground False depth meet) (hfounded : Testifies depth meet)

include hmeet hfounded

theorem foldInto_founded {rule : Node} (hconstraint : rule.kind.isConstraint = true) {rules : List Node}
    {merged : Option Node} (hvalid : space.Valid) (hrules : Rules False depth space rules)
    (hrule : rule.Calm False (depth + 1) space) : Results space (foldInto meet rule merged rules) Warranted := by
  induction rules generalizing space merged with
  | nil => exact .pure (warranted_ok _)
  | cons e rest ih =>
      obtain ⟨⟨hcalm, hc⟩, -, hrest⟩ := rules_cons.mp hrules
      unfold foldInto
      refine ((meetRules_spec hmeet False.elim hvalid hcalm hrule hc hconstraint).results.and
        (meetRules_founded hfounded hvalid hcalm hrule hc hconstraint)).bind ?_
      rintro later out ⟨⟨⟨hvalid', hext⟩, -⟩, hout⟩
      have hnext (merged : Option Node) := @ih later merged hvalid' (hrest.extends hext) (hrule.extends hext)
      cases out with
      | orthogonal => exact (hnext merged).bind fun _ _ hout => .pure (hout.map _)
      | disjoint d => exact .pure (warranted_error (hout d rfl))
      | node n =>
          cases merged with
          | none => exact (hnext (some n)).bind fun _ _ hout => .pure (hout.map _)
          | some previous =>
              dsimp only
              split
              · exact hnext (some previous)
              · exact .throw _

theorem addRule_founded {rule : Node} {rules : List Node} (hvalid : space.Valid) (hrules : Rules False depth space rules)
    (hrule : rule.Calm False (depth + 1) space) (hconstraint : rule.kind.isConstraint = true) :
    Results space (addRule meet rules rule) Warranted := by
  rw [addRule, if_pos hconstraint]
  exact foldInto_founded hmeet hfounded hconstraint hvalid hrules hrule

theorem addRules_founded {rules more : List Node} (hvalid : space.Valid) (hrules : Rules False depth space rules)
    (hmore : ∀ e ∈ more, e.Calm False (depth + 1) space ∧ e.kind.isConstraint = true) :
    Results space (addRules meet rules more) Warranted := by
  induction more generalizing space rules with
  | nil => exact .pure (warranted_ok _)
  | cons rule rest ih =>
      obtain ⟨⟨hrule, hconstraint⟩, hrest⟩ := List.forall_mem_cons.mp hmore
      unfold addRules
      refine ((addRule_spec hmeet False.elim hvalid hrules hrule hconstraint).results.and
        (addRule_founded hmeet hfounded hvalid hrules hrule hconstraint)).bind ?_
      rintro later out ⟨⟨⟨hvalid', hext⟩, hfolded⟩, hout⟩
      cases out with
      | error d => exact .pure (warranted_error (hout d rfl))
      | ok rules => exact ih hvalid' hfolded.areRules fun e he => (hrest e he).imp_left fun h => h.extends hext

omit hmeet hfounded in
theorem finishWith_founded {caption : Caption} {basis : Option Node} {constraints : List Node} (hvalid : space.Valid)
    (hrules : Rules False depth space (basis.toList ++ constraints)) (hbasis : ∀ b ∈ basis, b.isBasis = true)
    (hconstraints : ∀ c ∈ constraints, c.isBasis = false) :
    Results space (finishWith .algebra caption basis constraints) Warranted := by
  unfold finishWith
  split
  · rename_i c reason hfirst
    obtain ⟨c', hc', hsome⟩ := List.exists_of_findSome?_eq_some hfirst
    obtain ⟨reason', hreason, heq⟩ := Option.map_eq_some_iff.mp hsome
    obtain ⟨rfl, rfl⟩ := Prod.mk.inj heq
    cases basis with
    | none => exact .throw _
    | some b =>
        have hb := hbasis b rfl
        have hbHeld := (hrules.calm b List.mem_cons_self).holds
        have hcHeld := (hrules.calm c' (List.mem_cons_of_mem _ hc')).holds
        have hunit : b.kind ≠ .unit := ((List.pairwise_cons.mp hrules.beside).1 c' hc').left
        have hrefinement : c'.isRefinement = true := by
          have hor := hrules.areConstraints c' (List.mem_cons_of_mem _ hc')
          have hnot := hconstraints c' hc'
          rw [isBasis] at hnot
          rwa [Kind.isConstraint, hnot, Bool.false_or] at hor
        have hne : b.sameType c' = false := ((List.pairwise_cons.mp hrules.beside).1 c' hc').sameType_eq_false hvalid
          hbHeld hcHeld (isConstraint_of_isBasis hb)
        exact .pure (warranted_error (evident_between hbHeld hcHeld (by decide)
          (opposed_of_inapplicable hb hunit hrefinement hne hreason)))
  · split
    · split
      · exact .pure (warranted_ok _)
      · exact .after fun _ _ => .pure (warranted_ok _)
    · exact .after fun _ _ => .pure (warranted_ok _)

theorem finish_founded {caption : Caption} {rules : List Node} (hvalid : space.Valid)
    (hrules : Rules False depth space rules) : Results space (finish meet .algebra caption rules) Warranted := by
  obtain ⟨basis, constraints, heq, hperm, hbasis, hconstraints⟩ := @splitBasis_eq none rules hrules.apart (by simp)
  have hrules' := hrules.of_perm hperm
  unfold finish
  rw [heq, pure_bind]
  dsimp only
  split
  · rename_i implied himplied
    obtain ⟨c, hc, hsome⟩ := List.exists_of_findSome?_eq_some himplied
    refine (@internBasis_spec _ ground False space depth _ (impliedBasis?_cases hsome) hvalid).results.bind ?_
    rintro later n ⟨⟨hvalid', hext⟩, hn, hconstraint⟩
    refine ((addRule_spec hmeet False.elim hvalid' (hrules'.extends hext) hn hconstraint).results.and
      (addRule_founded hmeet hfounded hvalid' (hrules'.extends hext) hn hconstraint)).bind ?_
    rintro last out ⟨⟨⟨hlast, -⟩, hfolded⟩, hout⟩
    cases out with
    | error d => exact .pure (warranted_error (hout d rfl))
    | ok folded =>
        obtain ⟨basis', constraints', heq', hperm', hbasis', hconstraints'⟩ :=
          @splitBasis_eq none folded hfolded.areRules.apart (by simp)
        dsimp only
        rw [heq', pure_bind]
        exact finishWith_founded hlast (hfolded.areRules.of_perm hperm') hbasis' hconstraints'
  · exact finishWith_founded hvalid hrules' hbasis hconstraints

theorem combineBy_founded {operands : List Node} (hvalid : space.Valid)
    (hoperands : ∀ o ∈ operands, o.Calm False (depth + 1) space ∧ 2 ≤ o.kind.order) :
    Results space (combineBy meet operands) Founded := by
  have hrules := calm_flatMap hvalid hoperands
  unfold combineBy
  refine ((addRules_spec hmeet False.elim hvalid .nil hrules).results.and
    (addRules_founded hmeet hfounded hvalid .nil hrules)).bind ?_
  rintro later out ⟨⟨⟨hvalid', -⟩, hgathered⟩, hout⟩
  cases out with
  | error d => exact .pure (founded_disjoint (hout d rfl))
  | ok rules =>
      refine (finish_founded hmeet hfounded hvalid' hgathered.areRules).bind fun final out hout => ?_
      cases out with
      | error d => exact .pure (founded_disjoint (hout d rfl))
      | ok n => exact .pure (founded_node n)

-- ---------------------------------------------------------------------------
-- Nodes in order of kind
-- ---------------------------------------------------------------------------

omit hmeet hfounded in
/-- A rule for nodes in order of kind, from some kind on, all of whose conflicts are evident. -/
def TestifiesFrom (first depth : Nat) (rule : Meet) : Prop :=
  ∀ space l r, space.Valid → l.Within False (depth + 1) space → r.Within False (depth + 1) space →
    first ≤ l.kind.order → l.kind.order ≤ r.kind.order → l.sameType r = false → Results space (rule l r) Founded

theorem meetIntersections_founded : TestifiesFrom 2 depth (meetIntersections meet) := by
  intro space l r hvalid hl hr hfirst horder hne
  unfold meetIntersections
  split
  · refine (combineBy_founded hmeet hfounded hvalid (List.forall_mem_cons.mpr
      ⟨⟨hl.toCalm, hfirst⟩, List.forall_mem_singleton.mpr ⟨hr.toCalm, hfirst.trans horder⟩⟩)).bind ?_
    intro later out hout
    cases out with
    | node n => exact .pure (founded_node _)
    | disjoint d => exact .pure hout
    | orthogonal => exact .pure hout
  · rename_i hnot
    obtain ⟨-, hconstraint⟩ := areConstraints_of_order hfirst horder hnot
    exact meetConstraints_founded hfounded hvalid hl.toCalm hr.toCalm hconstraint horder hne

theorem conjoinBy_founded {first : Nat} {rule : Meet} (hrule : Meets first ground False depth rule)
    (htestifies : TestifiesFrom first depth rule) (hvalid : space.Valid) (hl : l.Within False (depth + 1) space)
    (hr : r.Within False (depth + 1) space) (hfirst : first ≤ l.kind.order) (hfirst' : first ≤ r.kind.order) :
    Results space (conjoinBy meet rule l r) Founded := by
  unfold conjoinBy
  refine ((meetBy_met hrule hvalid hl hr hfirst hfirst').results.and (meetBy_founded
    (htestifies space l r hvalid hl hr hfirst) (htestifies space r l hvalid hr hl hfirst'))).bind ?_
  rintro later out ⟨⟨⟨hvalid', hext⟩, hmet⟩, hout⟩
  cases out with
  | node n => exact .pure hout
  | disjoint d => exact .pure hout
  | orthogonal =>
      obtain ⟨hcl, hcr⟩ := hmet.1
      exact combineBy_founded hmeet hfounded hvalid' (List.forall_mem_cons.mpr
        ⟨⟨(hl.extends hext).toCalm, two_le_order_of_isConstraint hcl⟩,
          List.forall_mem_singleton.mpr ⟨(hr.extends hext).toCalm, two_le_order_of_isConstraint hcr⟩⟩)

-- ---------------------------------------------------------------------------
-- Morphs
-- ---------------------------------------------------------------------------

theorem conjoinInputs_founded (hvalid : space.Valid) (hl : l.Within False (depth + 1) space)
    (hr : r.Within False (depth + 1) space) (hfirst : 2 ≤ l.kind.order) (hfirst' : 2 ≤ r.kind.order) :
    Results space (conjoinInputs meet l r) Founded :=
  conjoinBy_founded hmeet hfounded (meetIntersections_met hmeet False.elim) (meetIntersections_founded hmeet hfounded)
    hvalid hl hr hfirst hfirst'

omit hmeet in
theorem meetOutputs_founded {l r : Option Node} (hvalid : space.Valid) (hl : Emits depth space l)
    (hr : Emits depth space r) :
    Results space (meetOutputs meet l r) fun later out => ∀ other, out = .error other → Founded later other := by
  have hany (o : Option Node) (space : Space) :
      Results space (pure (.ok o)) fun later (out : Except Intersected (Option Node)) =>
        ∀ other, out = .error other → Founded later other := .pure fun _ => nofun
  unfold meetOutputs
  split
  · refine (hfounded space _ _ hvalid (hl.within False.elim) (hr.within False.elim)).bind fun later out hout => ?_
    cases out with
    | node n => exact hany _ _
    | disjoint d => exact .pure fun _ heq => Except.error.inj heq ▸ hout
    | orthogonal => exact .pure fun _ heq => Except.error.inj heq ▸ hout
  · exact hany _ _
  · exact hany _ _

theorem meetMorphs_founded : TestifiesFrom 1 depth (meetMorphs meet) := by
  intro space l r hvalid hl hr hfirst horder hne
  unfold meetMorphs
  split
  · rename_i hc hc'
    obtain ⟨hinput, houtput, hkind⟩ := morph_ends hvalid hl.toCalm hc
    obtain ⟨hinput', houtput', hkind'⟩ := morph_ends hvalid hr.toCalm hc'
    dsimp only
    split
    · exact .bind (P := fun _ _ => False) (.throw _) fun _ _ h => h.elim
    refine ((conjoinInputs_spec hmeet False.elim hvalid hinput hinput' hkind hkind').results.and
      (conjoinInputs_founded hmeet hfounded hvalid hinput hinput' hkind hkind')).bind ?_
    rintro later out ⟨⟨⟨hvalid', hext⟩, -⟩, hout⟩
    cases out with
    | disjoint d => exact .pure hout
    | orthogonal => exact .pure hout
    | node input =>
        refine (meetOutputs_founded hfounded hvalid' (houtput.extends hext) (houtput'.extends hext)).bind ?_
        intro final out hout
        cases out with
        | ok output => exact .after fun _ n => .pure (founded_node n)
        | error other => exact .pure (hout other rfl)
  · rename_i hc hnot
    obtain ⟨hinput, -, hkind⟩ := morph_ends hvalid hl.toCalm hc
    have hkind' : 2 ≤ r.kind.order := two_le_order (hfirst.trans horder) hnot
    refine (conjoinInputs_founded hmeet hfounded hvalid hinput hr hkind hkind').bind fun later out hout => ?_
    cases out with
    | disjoint d => exact .pure hout
    | orthogonal => exact .pure hout
    | node narrowed =>
        dsimp only
        split
        · exact .pure (founded_node l)
        · exact .after fun _ n => .pure (founded_node n)
  · rename_i hnot _
    exact meetIntersections_founded hmeet hfounded space l r hvalid hl hr (two_le_order hfirst hnot) horder hne

end

-- ---------------------------------------------------------------------------
-- Unions
-- ---------------------------------------------------------------------------

omit [Behaviour] in
theorem union_of_kind {node : Node} (h : node.kind = .union) : ∃ branches ordered, node.content = .union branches ordered := by
  unfold Node.kind at h
  cases hc : node.content with
  | union branches ordered => exact ⟨branches, ordered, rfl⟩
  | _ => rw [hc] at h; cases h

/-- A union and another node, of which exactly one has no branches, have a conflict. -/
theorem meetUnions_presence {l r : Node} (hl : l.kind = .union) (h : l.branches.1.isEmpty ≠ r.branches.1.isEmpty)
    (meet : Meet) : meetUnions meet l r = pure (.disjoint (.between .presence l r)) := by
  obtain ⟨branches, ordered, hc⟩ := union_of_kind hl
  have hbranches : l.branches = (branches, ordered) := by rw [Node.branches, hc]
  rw [hbranches] at h
  rw [meetUnions, hc]
  dsimp only at h ⊢
  generalize r.branches = all at h ⊢
  obtain ⟨branches', ordered'⟩ := all
  dsimp only at h ⊢
  generalize branches.isEmpty = empty at h ⊢
  generalize branches'.isEmpty = empty' at h ⊢
  cases empty <;> cases empty' <;> first | exact absurd rfl h | rfl

theorem opposed_of_presence (hl : l.kind = .union) (hne : l.sameType r = false)
    (h : l.branches.1.isEmpty ≠ r.branches.1.isEmpty) : Opposed .presence l r := by
  refine opposed_of_meetUnions (by rw [hl]; exact Nat.zero_le _) hne (meetUnions_presence hl h) fun heq => ?_
  refine meetUnions_presence ?_ h.symm
  rw [hl] at heq
  generalize r.kind = kind at heq
  cases kind <;> first | rfl | cases heq

/-- The conflicts of a union itself. -/
theorem meetUnions_results (hl : l.kind = .union) : Results space (meetUnions meet l r) fun _ out => ∀ d,
    out = .disjoint d → l.branches.1.isEmpty ≠ r.branches.1.isEmpty ∧ d = .between .presence l r ∨
      d = .between .union l r := by
  by_cases h : l.branches.1.isEmpty = r.branches.1.isEmpty
  · obtain ⟨branches, ordered, hc⟩ := union_of_kind hl
    have hbranches : l.branches = (branches, ordered) := by rw [Node.branches, hc]
    rw [hbranches] at h
    rw [meetUnions, hc]
    dsimp only at h ⊢
    split
    · exact .pure fun d hd => by cases hd
    · refine .after fun _ found => ?_
      split
      · exact .pure fun d hd => .inr (Intersected.disjoint.inj hd).symm
      · exact .after fun _ _ => .pure fun d hd => by cases hd
    · rename_i hnotBoth hnotNone
      rw [h] at hnotBoth hnotNone
      cases hempty : r.branches.1.isEmpty
      · exact absurd hempty (hnotNone hempty)
      · exact absurd hempty (hnotBoth hempty)
  · rw [meetUnions_presence hl h]
    exact .pure fun d hd => .inl ⟨h, (Intersected.disjoint.inj hd).symm⟩

/-- That no branches intersect is evident from the run that found it. -/
theorem meetUnions_founded (depth : Nat) (htestifies : Testifies depth (conjoinWithin depth)) :
    TestifiesFrom 0 depth (meetUnions (conjoinWithin depth)) := by
  intro space l r hvalid hl hr _ horder hne
  have hspec := @conjoinWithin_spec _ False False False.elim depth
  by_cases hunion : l.kind = .union
  · have hrun := meetUnions_met hspec False.elim space l r hvalid hl hr (Nat.zero_le _) horder hne
    intro out hout d hd
    have hlHeld := hrun.extension.holds l hl.holds
    have hrHeld := hrun.extension.holds r hr.holds
    rcases meetUnions_results hunion out hout d hd with ⟨hpresence, rfl⟩ | rfl
    · exact evident_between hlHeld hrHeld (by decide) (opposed_of_presence hunion hne hpresence)
    · refine ⟨hlHeld, hrHeld, fun hkind => absurd rfl hkind, fun _ => .inl ?_⟩
      exact ⟨hunion, hne, depth, space, hvalid, hl, hr, .refl _, hout.trans (congrArg Except.ok hd)⟩
  · rw [meetUnions_eq hunion]
    refine meetMorphs_founded hspec htestifies space l r hvalid hl hr ?_ horder hne
    generalize l.kind = kind at hunion
    cases kind <;> first | exact absurd rfl hunion | decide

theorem conjoinWithin_founded (depth : Nat) : Testifies depth (conjoinWithin depth) := by
  induction depth with
  | zero => exact fun _ _ _ _ _ _ => .throw _
  | succ depth ih =>
      intro space l r hvalid hl hr
      exact conjoinBy_founded (@conjoinWithin_spec _ False False False.elim depth) ih
        (meetUnions_met (conjoinWithin_spec False.elim depth) False.elim) (meetUnions_founded depth ih) hvalid hl hr
        (Nat.zero_le _) (Nat.zero_le _)

end Node

end SchemaAlgebra
