-- SUMMARY: Whether nodes without morphs conflict is decided by the nodes alone, and is the same in either order.
import SchemaAlgebra.Proofs.Conflicts

/-!
# Exclusion

Whether two nodes without morphs conflict can be read off them, without following what
is made on the way. Constraints exclude each other by their contents, intersections by a
rule of one and a rule of the other, and unions if all their branches do. This is the
same in either order. That rules merge on the way makes no difference: what a rule merges
to excludes what the rule does, among the rules that are still to come.
-/

namespace SchemaAlgebra

namespace Node

open SpaceM (Results)

variable [Behaviour] {values : Node → Node → Prop} {depth : Nat} {space later : Space} {l r p q x : Node} {meet : Meet}

-- ---------------------------------------------------------------------------
-- Exclusion
-- ---------------------------------------------------------------------------

/-- Two constraints in order of kind exclude each other, if it is known which values do. -/
def Repels (values : Node → Node → Prop) (l r : Node) : Prop :=
  match l.content, r.content with
  | .unit v, _ => r.allows v = false
  | .proto a, .proto b => a.isSubclassOf b = false ∧ b.isSubclassOf a = false
  | .proto _, .domain d => d ≠ .object
  | .domain _, .domain _ => True
  | .max max, .min min => max.axis = min.axis ∧ max.leavesNothing min = true
  | .required key a, .required key' b => key = key' ∧ values a b
  | .optional key a, .optional key' b => key = key' ∧ values a b
  | _, _ => False

/-- Two constraints of different types exclude each other. -/
def RulesExclude (values : Node → Node → Prop) (p q : Node) : Prop :=
  p.sameType q = false ∧ if q.kind.order < p.kind.order then Repels values q p else Repels values p q

/-- Two branches of different types exclude each other: some of their rules do. -/
def BranchesExclude (values : Node → Node → Prop) (l r : Node) : Prop :=
  l.sameType r = false ∧ ∃ p ∈ l.rules, ∃ q ∈ r.rules, RulesExclude values p q

/-- Two nodes of different types exclude each other: all their branches do, and at least one of them has any. -/
def NodesExclude (values : Node → Node → Prop) (l r : Node) : Prop :=
  l.sameType r = false ∧ (l.branches.1 ≠ [] ∨ r.branches.1 ≠ []) ∧
    ∀ b ∈ l.branches.1, ∀ c ∈ r.branches.1, BranchesExclude values b c

/-- Two nodes that nest to less than a depth exclude each other. -/
def Excludes : Nat → Node → Node → Prop
  | 0 => fun _ _ => False
  | depth + 1 => NodesExclude (Excludes depth)

/-- Which nodes of a space are related does not depend on the order. -/
def Mutual (values : Node → Node → Prop) (space : Space) : Prop :=
  ∀ a b, space.Holds a → space.Holds b → values a b → values b a

section

variable (hvalid : space.Valid)

include hvalid

theorem Repels.symm (hvalues : Mutual values space) (hl : space.Holds l)
    (hr : space.Holds r) (hkind : l.kind = r.kind) (h : Repels values l r) : Repels values r l := by
  have hchild {node c : Node} (hnode : space.Holds node) (hc : c ∈ node.content.children) : space.Holds c :=
    hvalid.closed node hnode c hc
  unfold Node.kind at hkind
  unfold Repels at h ⊢
  split at h
  case h_1 v hv =>
    obtain ⟨w, hw⟩ : ∃ w, r.content = .unit w := by
      rw [hv] at hkind
      cases hc : r.content <;> rw [hc] at hkind <;> first | cases hkind; done | exact ⟨_, rfl⟩
    rw [hw]
    change l.allows w = false
    rw [← Bool.not_eq_true] at h ⊢
    exact fun hallows => h ((allows_unit hvalid hr hw).mpr ((allows_unit hvalid hl hv).mp hallows).symm)
  case h_2 a b ha hb =>
    rw [ha, hb]
    exact h.symm
  case h_3 a d ha hd =>
    rw [ha, hd] at hkind
    cases hkind
  case h_4 d d' hd hd' =>
    rw [hd, hd']
    trivial
  case h_5 max min hmax hmin =>
    rw [hmax, hmin] at hkind
    cases hkind
  case h_6 key a key' b ha hb =>
    rw [ha, hb]
    exact ⟨h.1.symm, hvalues a b (hchild hl (ha ▸ List.mem_cons_self)) (hchild hr (hb ▸ List.mem_cons_self)) h.2⟩
  case h_7 key a key' b ha hb =>
    rw [ha, hb]
    exact ⟨h.1.symm, hvalues a b (hchild hl (ha ▸ List.mem_cons_self)) (hchild hr (hb ▸ List.mem_cons_self)) h.2⟩
  case h_8 => cases h

theorem RulesExclude.symm (hvalues : Mutual values space)
    (hp : space.Holds p) (hq : space.Holds q) (h : RulesExclude values p q) : RulesExclude values q p := by
  obtain ⟨hne, h⟩ := h
  refine ⟨(sameType_comm q p).trans hne, ?_⟩
  rcases Nat.lt_trichotomy p.kind.order q.kind.order with hlt | heq | hgt
  · rw [if_neg (Nat.not_lt.mpr hlt.le)] at h
    rwa [if_pos hlt]
  · rw [if_neg heq.symm.not_lt] at h
    rw [if_neg heq.not_lt]
    exact h.symm hvalid hvalues hp hq (Kind.order_injective heq)
  · rw [if_pos hgt] at h
    rwa [if_neg (Nat.not_lt.mpr hgt.le)]

omit [Behaviour] in
theorem holds_of_mem_rules {node e : Node} (h : space.Holds node) (he : e ∈ node.rules) : space.Holds e := by
  rcases mem_rules he with rfl | hchild
  · exact h
  · exact hvalid.closed node h e hchild

omit [Behaviour] in
theorem holds_of_mem_branches {node b : Node} (h : space.Holds node) (hb : b ∈ node.branches.1) : space.Holds b := by
  unfold branches at hb
  split at hb
  · rename_i hc
    exact hvalid.closed node h b (by rw [children, hc]; exact hb)
  · rwa [List.mem_singleton.mp hb]

theorem BranchesExclude.symm (hvalues : Mutual values space)
    (hl : space.Holds l) (hr : space.Holds r) (h : BranchesExclude values l r) : BranchesExclude values r l := by
  obtain ⟨hne, p, hp, q, hq, h⟩ := h
  exact ⟨(sameType_comm r l).trans hne, q, hq, p, hp,
    h.symm hvalid hvalues (holds_of_mem_rules hvalid hl hp) (holds_of_mem_rules hvalid hr hq)⟩

theorem NodesExclude.symm (hvalues : Mutual values space) (hl : space.Holds l) (hr : space.Holds r)
    (h : NodesExclude values l r) : NodesExclude values r l := by
  obtain ⟨hne, hsome, h⟩ := h
  refine ⟨(sameType_comm r l).trans hne, hsome.symm, fun b hb c hc => ?_⟩
  exact (h c hc b hb).symm hvalid hvalues (holds_of_mem_branches hvalid hl hc) (holds_of_mem_branches hvalid hr hb)

/-- Exclusion does not depend on the order. -/
theorem Excludes.symm (hl : space.Holds l) (hr : space.Holds r) (h : Excludes depth l r) : Excludes depth r l := by
  induction depth generalizing l r with
  | zero => cases h
  | succ depth ih => exact NodesExclude.symm hvalid (fun _ _ ha hb => ih ha hb) hl hr h

end

-- ---------------------------------------------------------------------------
-- Constraints
-- ---------------------------------------------------------------------------

/-- In a regular space an outcome is a conflict exactly if something holds. -/
def Decided (P : Prop) (space : Space) (out : Intersected) : Prop :=
  space.Regular → ((∃ d, out = .disjoint d) ↔ P)

/-- A way of intersecting nodes without morphs, to less than a depth, that finds the conflicts between nodes that exclude
each other. -/
def Decides (values : Node → Node → Prop) (depth : Nat) (meet : Meet) : Prop :=
  ∀ space l r, space.Valid → l.Within .success depth space → r.Within .success depth space →
    Results space (meet l r) (Decided (values l r))

section

variable {P : Prop}

omit [Behaviour]

theorem decided_node {n : Node} (h : space.Regular → ¬ P) : Decided P space (.node n) :=
  fun hregular => ⟨fun ⟨_, hd⟩ => Intersected.noConfusion hd, fun hp => absurd hp (h hregular)⟩

theorem decided_orthogonal (h : space.Regular → ¬ P) : Decided P space .orthogonal :=
  fun hregular => ⟨fun ⟨_, hd⟩ => Intersected.noConfusion hd, fun hp => absurd hp (h hregular)⟩

theorem decided_disjoint {d : Disjoint} (h : space.Regular → P) : Decided P space (.disjoint d) :=
  fun hregular => ⟨fun _ => h hregular, fun _ => ⟨d, rfl⟩⟩

theorem Decided.congr {Q : Prop} {out : Intersected} (h : Decided P space out) (hiff : space.Regular → (P ↔ Q)) :
    Decided Q space out :=
  fun hregular => (h hregular).trans (hiff hregular)

theorem Decided.invert {out : Intersected} (h : Decided P space out) : Decided P space out.invert := by
  intro hregular
  rw [← h hregular]
  cases out <;> simp [Intersected.invert]

/-- Nodes are intersected as long as nothing excludes them. -/
theorem Decided.not_of_node {n : Node} (h : Decided P space (.node n)) (hregular : space.Regular) : ¬ P := by
  rw [← h hregular]
  rintro ⟨d, hd⟩
  cases hd

theorem Decided.not_of_orthogonal (h : Decided P space .orthogonal) (hregular : space.Regular) : ¬ P := by
  rw [← h hregular]
  rintro ⟨d, hd⟩
  cases hd

end

section

variable (hconjoins : Conjoins False .success depth meet) (hdecides : Decides values depth meet) (hvalid : space.Valid)
  (hl : l.Calm .success (depth + 1) space) (hr : r.Calm .success (depth + 1) space)

include hconjoins hdecides hvalid hl hr

theorem meetProps_decided {make : Node → Content Node} {key : PropKey} {kind : Kind} {missing : Bool}
    (h : MakesProp make key kind missing) {a b : Node} (ha : l.content = make a) (hb : r.content = make b) :
    Results space (meetProps meet make l r key a b) (Decided (values a b)) := by
  have hwithin := h.within hvalid hl ha
  have hwithin' := h.within hvalid hr hb
  refine ((hconjoins space a b hvalid hwithin hwithin').results.and
    (hdecides space a b hvalid hwithin hwithin')).bind ?_
  rintro later out ⟨⟨⟨hvalid', -⟩, hconjoined⟩, hout⟩
  cases out with
  | node value =>
      have hnot := hout.not_of_node
      dsimp only
      split
      · exact .pure (decided_node hnot)
      · split
        · exact .pure (decided_node hnot)
        · have hinterns := @SpaceM.Ensures.intern False False later _ _ hvalid' (h.ready _ _ value hconjoined.calm.holds)
          refine hinterns.results.bind ?_
          rintro final n ⟨⟨-, hext⟩, -⟩
          exact .pure (decided_node fun hregular => hnot (hregular.earlier hext))
  | disjoint d => exact .pure (decided_disjoint fun hregular => (hout hregular).mp ⟨d, rfl⟩)
  | orthogonal => exact hconjoined.elim

/-- Properties of one kind, whatever their keys. -/
theorem meetKeys_decided {make make' : Node → Content Node} {key key' : PropKey} {kind : Kind} {missing : Bool}
    (h : MakesProp make key kind missing) (hsame : key = key' → make = make') {a b : Node} (ha : l.content = make a)
    (hb : r.content = make' b) :
    Results space (if key = key' then meetProps meet make l r key a b else return .orthogonal)
      (Decided (key = key' ∧ values a b)) := by
  split
  · rename_i hkey
    refine (meetProps_decided hconjoins hdecides hvalid hl hr h ha (hsame hkey ▸ hb)).imp fun _ _ hout => ?_
    exact hout.congr fun _ => ⟨fun h => ⟨hkey, h⟩, And.right⟩
  · rename_i hkey
    exact .pure (decided_orthogonal fun _ h => hkey h.1)

theorem meetConstraints_decided : Results space (meetConstraints meet l r) (Decided (Repels values l r)) := by
  unfold meetConstraints
  split
  case h_1 v hv =>
    rw [Repels, hv]
    change Results space _ (Decided (r.allows v = false))
    refine .pure ?_
    unfold meetUnit
    split
    · rename_i hallows
      exact decided_node fun _ h => Bool.false_ne_true (h.symm.trans hallows)
    · rename_i hrefuses
      split <;> exact decided_disjoint fun _ => Bool.not_eq_true _ ▸ hrefuses
  case h_2 a b ha hb =>
    rw [Repels, ha, hb]
    refine .pure ?_
    dsimp only
    unfold meetProtos
    split
    · rename_i hsub
      exact decided_node fun _ h => Bool.false_ne_true (h.1.symm.trans hsub)
    · split
      · rename_i hsub
        exact decided_node fun _ h => Bool.false_ne_true (h.2.symm.trans hsub)
      · rename_i hnot hnot'
        exact decided_disjoint fun _ => ⟨Bool.not_eq_true _ ▸ hnot, Bool.not_eq_true _ ▸ hnot'⟩
  case h_3 a d ha hd =>
    rw [Repels, ha, hd]
    refine .pure ?_
    dsimp only
    split
    · rename_i hobject
      exact decided_node fun _ hne => hne hobject
    · rename_i hne
      exact decided_disjoint fun _ => hne
  case h_4 d d' hd hd' =>
    rw [Repels, hd, hd']
    exact .pure (decided_disjoint fun _ => trivial)
  case h_5 a b ha hb =>
    rw [Repels, ha, hb]
    exact (meetDivisors_results l r a b).imp fun _ _ hout _ => iff_of_false (fun ⟨d, hd⟩ => hout d hd) fun h => h
  case h_6 a b ha hb =>
    rw [Repels, ha, hb]
    exact .pure fun _ => iff_of_false (fun ⟨d, hd⟩ => meetBounds_ne_disjoint .max l r a b d hd) fun h => h
  case h_7 a b ha hb =>
    rw [Repels, ha, hb]
    exact .pure fun _ => iff_of_false (fun ⟨d, hd⟩ => meetBounds_ne_disjoint .min l r a b d hd) fun h => h
  case h_8 max min hmax hmin =>
    rw [Repels, hmax, hmin]
    refine .pure ?_
    dsimp only
    unfold meetRange
    split
    · rename_i hclash
      exact decided_disjoint fun _ => hclash
    · rename_i hnot
      exact decided_orthogonal fun _ => hnot
  case h_9 key a key' b ha hb =>
    rw [Repels, ha, hb]
    exact meetKeys_decided hconjoins hdecides hvalid hl hr (makes_required key) (congrArg _) ha hb
  case h_10 key a key' b ha hb =>
    rw [Repels, ha, hb]
    exact meetKeys_decided hconjoins hdecides hvalid hl hr (makes_optional key) (congrArg _) ha hb
  case h_11 hunit hprotos hprotoDomain hdomains _ _ _ hrange hrequired hoptional =>
    have hrepels : ¬ Repels values l r := by
      unfold Repels
      split
      case h_1 v hv => exact fun _ => hunit v hv
      case h_2 a b ha hb => exact fun _ => hprotos a b ha hb
      case h_3 a d ha hd => exact fun _ => hprotoDomain a d ha hd
      case h_4 d d' hd hd' => exact fun _ => hdomains d d' hd hd'
      case h_5 max min hmax hmin => exact fun _ => hrange max min hmax hmin
      case h_6 key a key' b ha hb => exact fun _ => hrequired key a key' b ha hb
      case h_7 key a key' b ha hb => exact fun _ => hoptional key a key' b ha hb
      case h_8 => exact fun h => h
    split
    · exact .pure (decided_orthogonal fun _ => hrepels)
    · exact .throw _

end

/-- Constraints in either order. -/
theorem meetRules_decided (hconjoins : Conjoins False .success depth meet) (hdecides : Decides values depth meet)
    (hvalid : space.Valid) (hp : p.Calm .success (depth + 1) space) (hq : q.Calm .success (depth + 1) space) :
    Results space (meetRules meet p q) (Decided (RulesExclude values p q)) := by
  unfold meetRules meetBy RulesExclude
  split
  · rename_i hsame
    exact .pure (decided_node fun _ h => Bool.false_ne_true (h.1.symm.trans hsame))
  rename_i hne
  rw [Bool.not_eq_true] at hne
  split
  · refine (meetConstraints_decided hconjoins hdecides hvalid hq hp).bind fun _ _ hout => .pure ?_
    exact (hout.congr fun _ => (and_iff_right hne).symm).invert
  · exact (meetConstraints_decided hconjoins hdecides hvalid hp hq).imp fun _ _ hout =>
      hout.congr fun _ => (and_iff_right hne).symm

-- ---------------------------------------------------------------------------
-- Rules that merge
-- ---------------------------------------------------------------------------

section

variable (hp : p.kind ≠ .unit) (hslots : ∀ slot, p.slot? = some slot → q.slot? ≠ some slot)

include hp hslots

/-- Rules that restrict different aspects of a value exclude each other only if nothing fits between them. -/
theorem repels_iff_clash (horder : p.kind.order ≤ q.kind.order) : Repels values p q ↔ p.Clash q := by
  constructor
  · intro h
    have hslot {slot : Slot} (hs : p.content.slot? = some slot) (hs' : q.content.slot? = some slot) : False :=
      hslots slot hs hs'
    unfold Repels at h
    split at h
    case h_1 v hv => exact absurd (by rw [kind, hv]; rfl) hp
    case h_2 a b ha hb => exact (@hslot .basis (by rw [ha]; rfl) (by rw [hb]; rfl)).elim
    case h_3 a d ha hd => exact (@hslot .basis (by rw [ha]; rfl) (by rw [hd]; rfl)).elim
    case h_4 d d' hd hd' => exact (@hslot .basis (by rw [hd]; rfl) (by rw [hd']; rfl)).elim
    case h_5 max min hmax hmin => exact ⟨max, min, .inl ⟨hmax, hmin⟩, h⟩
    case h_6 key a key' b ha hb =>
      exact (@hslot (.required key) (by rw [ha]; rfl) (by rw [hb, h.1]; rfl)).elim
    case h_7 key a key' b ha hb =>
      exact (@hslot (.optional key) (by rw [ha]; rfl) (by rw [hb, h.1]; rfl)).elim
    case h_8 => exact h.elim
  · rintro ⟨max, min, ⟨hmax, hmin⟩ | ⟨hmin, hmax⟩, h⟩
    · rw [Repels, hmax, hmin]
      exact h
    · rw [kind, kind, hmin, hmax] at horder
      exact absurd (show 8 ≤ 7 from horder) (by decide)

theorem rulesExclude_iff_clash (hq : q.kind ≠ .unit) (hvalid : space.Valid) (hpHeld : space.Holds p)
    (hqHeld : space.Holds q) (hconstraint : p.kind.isConstraint = true) : RulesExclude values p q ↔ p.Clash q := by
  have hne : p.sameType q = false := by
    by_contra hsame
    have houtline := hvalid.outline_eq hpHeld hqHeld (Bool.not_eq_false _ ▸ hsame)
    obtain ⟨slot, hslot⟩ := slot?_isSome hconstraint
    exact hslots slot hslot ((Content.slot?_eq_of_outline houtline).symm.trans hslot)
  rw [RulesExclude, and_iff_right hne]
  split
  · rename_i hlt
    rw [repels_iff_clash hq (fun slot hs hs' => hslots slot hs' hs) hlt.le]
    exact ⟨Clash.symm, Clash.symm⟩
  · rename_i hle
    exact repels_iff_clash hp hslots (Nat.le_of_not_lt hle)

end

/-- Of two bounds on one side and axis the stricter one is left. -/
theorem meetRules_bounds (hvalid : space.Valid) (hl : space.Holds l) (hr : space.Holds r) {side : BoundSide} {a b : Bound}
    (ha : l.content = side.content a) (hb : r.content = side.content b) (haxis : a.axis = b.axis) :
    ∃ n c, meetRules meet l r = pure (.node n) ∧ n.content = side.content c ∧ c.axis = a.axis ∧
      c.isStricter side a = true := by
  have hself : a.isStricter side a = true := Bound.isStricter_of_unsigned (limit_isNaN hvalid hl ha) rfl
  cases hsame : l.sameType r with
  | true =>
      refine ⟨l, a, ?_, ha, rfl, hself⟩
      rw [meetRules, meetBy, if_pos hsame]
  | false =>
      have hkind : l.kind = r.kind := by
        rw [kind, kind, ha, hb]
        cases side <;> rfl
      have hmeets : meetRules meet l r = pure (.node (if a.isStricter side b then l else r)) := by
        rw [meetRules, meetBy_forth hsame (by rw [hkind]), meetConstraints, ha, hb]
        cases side <;> simp only [BoundSide.content, meetBounds, haxis, ne_eq, not_true_eq_false, if_false]
      rw [hmeets]
      split
      · exact ⟨l, a, rfl, ha, rfl, hself⟩
      · rename_i hnot
        exact ⟨r, b, rfl, hb, haxis.symm,
          Bound.isStricter_total (limit_isNaN hvalid hl ha) (limit_isNaN hvalid hr hb) hnot⟩

/-- What a bound merges to clashes with what the bound clashes with. -/
theorem meetRules_clash (hvalid : space.Valid) (hl : space.Holds l) (hr : space.Holds r) (hx : space.Holds x)
    (hslot : l.slot? = r.slot?) (hclash : l.Clash x) :
    Results space (meetRules meet l r) fun _ out => ∀ n, out = .node n → n.Clash x := by
  obtain ⟨max, min, ⟨hmax, hmin⟩ | ⟨hmin, hmax⟩, haxis, hnothing⟩ := hclash
  · have hs : r.slot? = some (.max max.axis) := by rw [← hslot, slot?, hmax]; rfl
    obtain ⟨bound, hbound, haxis'⟩ := slot?_eq_some hs
    obtain ⟨n, c, hmeets, hn, haxis'', hstricter⟩ :=
      @meetRules_bounds _ space l r meet hvalid hl hr .max _ _ hmax hbound haxis'.symm
    rw [hmeets]
    refine .pure ?_
    rintro _ ⟨⟩
    exact ⟨c, min, .inl ⟨hn, hmin⟩, haxis''.trans haxis, Bound.leavesNothing_of_isStricter hnothing hstricter
      (Bound.isStricter_of_unsigned (@limit_isNaN _ _ hvalid hx .min _ hmin) rfl)⟩
  · have hs : r.slot? = some (.min min.axis) := by rw [← hslot, slot?, hmin]; rfl
    obtain ⟨bound, hbound, haxis'⟩ := slot?_eq_some hs
    obtain ⟨n, c, hmeets, hn, haxis'', hstricter⟩ :=
      @meetRules_bounds _ space l r meet hvalid hl hr .min _ _ hmin hbound haxis'.symm
    rw [hmeets]
    refine .pure ?_
    rintro _ ⟨⟩
    exact ⟨max, c, .inr ⟨hn, hmax⟩, haxis.trans haxis''.symm, Bound.leavesNothing_of_isStricter hnothing
      (Bound.isStricter_of_unsigned (@limit_isNaN _ _ hvalid hx .max _ hmax) rfl) hstricter⟩

/-- A unit stays as it is. -/
theorem meetRules_unit (hl : l.kind = .unit) (hr : r.kind.isConstraint = true) :
    Results space (meetRules meet l r) fun _ out => ∀ n, out = .node n → n = l := by
  obtain ⟨v, hv⟩ := unit_of_kind hl
  have horder : l.kind.order ≤ r.kind.order := by
    rw [hl]
    generalize r.kind = kind at hr
    cases kind <;> first | cases hr; done | decide
  cases hsame : l.sameType r with
  | true =>
      rw [meetRules, meetBy, if_pos hsame]
      exact .pure fun n hn => (Intersected.node.inj hn).symm
  | false =>
      rw [meetRules, meetBy_forth hsame horder, meetConstraints, hv]
      refine .pure fun n hn => ?_
      unfold meetUnit at hn
      split at hn
      · exact (Intersected.node.inj hn).symm
      · split at hn <;> cases hn

/-- What a rule merges to: units stay as they are, and bounds become no weaker. -/
theorem meetRules_kept (hvalid : space.Valid) (hl : space.Holds l) (hr : space.Holds r) (hcr : r.kind.isConstraint = true) :
    Results space (meetRules meet l r) fun _ out => ∀ n, out = .node n →
      (l.kind = .unit → n = l) ∧ (l.slot? = r.slot? → ∀ x, space.Holds x → l.Clash x → n.Clash x) :=
  fun out hout n hn => ⟨fun hunit => meetRules_unit hunit hcr out hout n hn,
    fun hslot _ hx hclash => meetRules_clash hvalid hl hr hx hslot hclash out hout n hn⟩

/-- Among what stands beside the other one, a rule excludes the same before and after it merged. -/
theorem Merge.excludes_iff {n : Node} (h : Merge .success depth later l r n) (hvalid : later.Valid)
    (hl : later.Holds l) (hx : later.Holds x) (hconstraint : l.kind.isConstraint = true) (hbeside : r.Beside true x)
    (hunit : l.kind = .unit → n = l) (hclash : l.slot? = r.slot? → l.Clash x → n.Clash x) :
    RulesExclude values n x ↔ RulesExclude values l x := by
  by_cases hkind : l.kind = .unit
  · rw [hunit hkind]
  obtain ⟨hkind', hslot, hslot'⟩ := h.slots hkind hbeside.left
  have hslots : ∀ slot, n.slot? = some slot → x.slot? ≠ some slot := fun slot hs hs' =>
    absurd (hbeside.slots slot (hslot' ▸ hs) hs').2 (by decide)
  rw [rulesExclude_iff_clash hkind' hslots hbeside.right hvalid h.calm.holds hx h.isConstraint,
    rulesExclude_iff_clash hkind (hslot ▸ hslots) hbeside.right hvalid hl hx hconstraint]
  refine ⟨fun hn => ?_, hclash (hslot.symm.trans hslot')⟩
  by_contra hnot
  have hother : l.Beside true x := beside_of_slots hkind hbeside.right (hslot ▸ hslots) hnot
  exact (h.beside true x hother.symm hbeside.symm).range hn.symm

-- ---------------------------------------------------------------------------
-- Lists of rules
-- ---------------------------------------------------------------------------

/-- Rules that stand beside each other do not exclude each other. -/
theorem Beside.not_excludes (h : p.Beside true q) (hvalid : space.Valid) (hp : space.Holds p) (hq : space.Holds q)
    (hconstraint : p.kind.isConstraint = true) : ¬ RulesExclude values p q := by
  have hslots : ∀ slot, p.slot? = some slot → q.slot? ≠ some slot := fun slot hs hs' =>
    absurd (h.slots slot hs hs').2 (by decide)
  rw [rulesExclude_iff_clash h.left hslots h.right hvalid hp hq hconstraint]
  exact h.range

/-- What becomes of rules that a constraint is folded into: a conflict if one of them excludes it, and otherwise rules
that exclude, of all that stands beside the constraint, what these did. -/
structure Screened (values : Node → Node → Prop) (space : Space) (rules : List Node) (rule : Node)
    (out : Except Disjoint (List Node)) : Prop where
  conflict : (∃ d, out = .error d) ↔ ∃ e ∈ rules, RulesExclude values e rule
  excludes : ∀ kept, out = .ok kept → ∀ x, space.Holds x → rule.Beside true x →
    ((∃ e ∈ kept, RulesExclude values e x) ↔ ∃ e ∈ rules, RulesExclude values e x)

theorem screened_error {rules : List Node} {rule e : Node} (he : e ∈ rules) (h : RulesExclude values e rule)
    (d : Disjoint) : Screened values space rules rule (.error d) :=
  ⟨iff_of_true ⟨d, rfl⟩ ⟨e, he, h⟩, by rintro _ ⟨⟩⟩

section

variable (hconjoins : Conjoins False .success depth meet) (hdecides : Decides values depth meet) {rule : Node}
  (hconstraint : rule.kind.isConstraint = true)

include hconjoins hdecides hconstraint

/-- After a constraint has merged with one rule, it can only meet conflicts with those beside it, unless it is a unit. -/
theorem foldOn_decided {origin merged : Node} (horigin : origin.kind.isConstraint = true) {rules : List Node}
    (hvalid : space.Valid) (hrules : Rules .success depth space rules) (hrule : rule.Calm .success (depth + 1) space)
    (hmerge : Merge .success depth space origin rule merged)
    (hbeside : space.Regular → ∀ e ∈ rules, origin.Beside true e) :
    Results space (foldInto meet rule (some merged) rules) fun later out => later.Regular →
      ((∃ d, out = .error d) ↔ ∃ e ∈ rules, RulesExclude values e rule) ∧
        (rule.kind ≠ .unit → ∀ kept, out = .ok kept → kept = rules) := by
  induction rules generalizing space with
  | nil =>
      refine .pure fun _ => ⟨iff_of_false (by rintro ⟨_, ⟨⟩⟩) (by simp), ?_⟩
      rintro _ _ ⟨⟩
      rfl
  | cons e rest ih =>
      obtain ⟨⟨hcalm, hc⟩, -, hrest⟩ := rules_cons.mp hrules
      unfold foldInto
      refine ((meetRules_spec hconjoins False.elim hvalid hcalm hrule hc hconstraint).results.and
        (meetRules_decided hconjoins hdecides hvalid hcalm hrule)).bind ?_
      rintro later out ⟨⟨⟨hvalid', hext⟩, hout⟩, hdecided⟩
      have hbeside (hregular : later.Regular) := List.forall_mem_cons.mp (hbeside (hregular.earlier hext))
      have hnext := (foldOn_spec hconjoins False.elim hconstraint horigin hvalid' (hrest.extends hext)
        (hrule.extends hext) (hmerge.extends hext) fun hregular => (hbeside hregular).2).results.and
          (ih hvalid' (hrest.extends hext) (hrule.extends hext) (hmerge.extends hext) fun hregular => (hbeside hregular).2)
      have hcons (h : ¬ RulesExclude values e rule) :
          (∃ x ∈ e :: rest, RulesExclude values x rule) ↔ ∃ x ∈ rest, RulesExclude values x rule := by
        rw [List.exists_mem_cons_iff, or_iff_right h]
      cases out with
      | orthogonal =>
          refine hnext.bind ?_
          rintro final out ⟨⟨⟨-, hext'⟩, -⟩, hout'⟩
          refine .pure fun hregular => ?_
          obtain ⟨hconflict, hkept⟩ := hout' hregular
          rw [hcons (hdecided.not_of_orthogonal (hregular.earlier hext')), ← hconflict]
          cases out with
          | error d => exact ⟨iff_of_true ⟨d, rfl⟩ ⟨d, rfl⟩, by rintro _ _ ⟨⟩⟩
          | ok kept =>
              refine ⟨iff_of_false (by rintro ⟨_, ⟨⟩⟩) (by rintro ⟨_, ⟨⟩⟩), ?_⟩
              rintro hunit _ ⟨⟩
              rw [hkept hunit kept rfl]
      | disjoint d =>
          refine .pure fun hregular => ⟨iff_of_true ⟨d, rfl⟩ ⟨e, List.mem_cons_self, ?_⟩, by rintro _ _ ⟨⟩⟩
          exact (hdecided hregular).mp ⟨d, rfl⟩
      | node n =>
          have hout : Merge .success depth later e rule n := hout
          dsimp only
          split
          · refine hnext.imp ?_
            rintro final out ⟨⟨⟨-, hext'⟩, -⟩, hout'⟩ hregular
            have hregular' := hregular.earlier hext'
            rw [hcons (hdecided.not_of_node hregular'), ← (hout' hregular).1]
            refine ⟨Iff.rfl, fun hunit => absurd ?_ hunit⟩
            exact (hmerge.extends hext).isUnit hout horigin (hbeside hregular').1.toApart
          · exact .throw _

theorem foldInto_decided {rules : List Node} (hvalid : space.Valid) (hrules : Rules .success depth space rules)
    (hrule : rule.Calm .success (depth + 1) space) :
    Results space (foldInto meet rule none rules) fun later out => later.Regular →
      Screened values space rules rule out := by
  induction rules generalizing space with
  | nil =>
      refine .pure fun _ => ⟨iff_of_false (by rintro ⟨_, ⟨⟩⟩) (by simp), ?_⟩
      rintro _ ⟨⟩ x hx hbeside
      have hnot := @Beside.not_excludes _ values _ _ _ hbeside hvalid hrule.holds hx hconstraint
      exact iff_of_false (by simpa using hnot) (by simp)
  | cons e rest ih =>
      obtain ⟨⟨hcalm, hc⟩, ⟨-, hexact⟩, hrest⟩ := rules_cons.mp hrules
      unfold foldInto
      refine ((meetRules_spec hconjoins False.elim hvalid hcalm hrule hc hconstraint).results.and
        ((meetRules_decided hconjoins hdecides hvalid hcalm hrule).and
          (meetRules_kept hvalid hcalm.holds hrule.holds hconstraint))).bind ?_
      rintro later out ⟨⟨⟨hvalid', hext⟩, hout⟩, hdecided, hkept⟩
      cases out with
      | orthogonal =>
          refine ((foldInto_spec hconjoins False.elim hconstraint hvalid' (hrest.extends hext)
            (hrule.extends hext)).results.and (ih hvalid' (hrest.extends hext) (hrule.extends hext))).bind ?_
          rintro final out ⟨⟨⟨-, hext'⟩, -⟩, hout'⟩
          refine .pure fun hregular => ?_
          obtain ⟨hconflict, hexcludes⟩ := hout' hregular
          have hnot := hdecided.not_of_orthogonal (hregular.earlier hext')
          refine ⟨?_, ?_⟩
          · rw [List.exists_mem_cons_iff, or_iff_right hnot, ← hconflict]
            cases out <;> simp [Except.map]
          · cases out with
            | error d => rintro _ ⟨⟩
            | ok kept =>
                rintro _ ⟨⟩ x hx hbeside
                rw [List.exists_mem_cons_iff, List.exists_mem_cons_iff, hexcludes kept rfl x (hext.holds x hx) hbeside]
      | disjoint d =>
          exact .pure fun hregular => screened_error List.mem_cons_self ((hdecided hregular).mp ⟨d, rfl⟩) d
      | node n =>
          have hout : Merge .success depth later e rule n := hout
          dsimp only
          have hbeside (hregular : later.Regular) := hexact (hregular.earlier hext)
          refine ((foldOn_spec hconjoins False.elim hconstraint hc hvalid' (hrest.extends hext) (hrule.extends hext)
            hout hbeside).results.and (foldOn_decided hconjoins hdecides hconstraint hc hvalid' (hrest.extends hext)
              (hrule.extends hext) hout hbeside)).bind ?_
          rintro final out ⟨⟨⟨-, hext'⟩, -⟩, hout'⟩
          refine .pure fun hregular => ?_
          obtain ⟨hconflict, hrestKept⟩ := hout' hregular
          have hnot := hdecided.not_of_node (hregular.earlier hext')
          refine ⟨?_, ?_⟩
          · rw [List.exists_mem_cons_iff, or_iff_right hnot, ← hconflict]
            cases out <;> simp [Except.map]
          · cases out with
            | error d => rintro _ ⟨⟩
            | ok kept =>
                rintro _ ⟨⟩ x hx hbeside
                obtain ⟨hunit, hclash⟩ := hkept n rfl
                rw [hrestKept hbeside.left kept rfl, List.exists_mem_cons_iff, List.exists_mem_cons_iff,
                  hout.excludes_iff hvalid' (hext.holds e hcalm.holds) (hext.holds x hx) hc hbeside hunit
                    fun hslot h => hclash hslot x hx h]

end

theorem addRules_append (meet : Meet) (rules before after : List Node) : addRules meet rules (before ++ after) =
    addRules meet rules before >>= fun
      | .error d => return .error d
      | .ok rules => addRules meet rules after := by
  induction before generalizing rules with
  | nil => rw [List.nil_append, addRules, pure_bind]
  | cons rule rest ih =>
      rw [List.cons_append, addRules, addRules, bind_assoc]
      refine bind_congr fun out => ?_
      cases out with
      | error d => rw [pure_bind]
      | ok rules => exact ih rules

section

variable (hconjoins : Conjoins False .success depth meet) (hdecides : Decides values depth meet)

include hconjoins hdecides

theorem addRules_decided {rules more : List Node} (hvalid : space.Valid) (hrules : Rules .success depth space rules)
    (hmore : ∀ e ∈ more, e.Calm .success (depth + 1) space ∧ e.kind.isConstraint = true)
    (hbeside : space.Regular → more.Pairwise (Beside true)) :
    Results space (addRules meet rules more) fun later out => later.Regular →
      ((∃ d, out = .error d) ↔ ∃ q ∈ more, ∃ p ∈ rules, RulesExclude values p q) := by
  induction more generalizing space rules with
  | nil => exact .pure fun _ => iff_of_false (by rintro ⟨_, ⟨⟩⟩) (by simp)
  | cons rule rest ih =>
      obtain ⟨⟨hrule, hconstraint⟩, hrest⟩ := List.forall_mem_cons.mp hmore
      have hfolds := foldInto_decided hconjoins hdecides hconstraint hvalid hrules hrule
      have hadds := (addRule_spec hconjoins False.elim hvalid hrules hrule hconstraint).results
      unfold addRules
      rw [addRule, if_pos hconstraint] at hadds ⊢
      refine (hadds.and hfolds).bind ?_
      rintro later out ⟨⟨⟨hvalid', hext⟩, hfolded⟩, hout⟩
      have hrest' (e : Node) (he : e ∈ rest) := (hrest e he).imp_left fun h => h.extends hext
      cases out with
      | error d =>
          refine .pure fun hregular => iff_of_true ⟨d, rfl⟩ ⟨rule, List.mem_cons_self, ?_⟩
          exact (hout hregular).conflict.mp ⟨d, rfl⟩
      | ok kept =>
          have hfolded : Folded .success depth rules rule later kept := hfolded
          refine ((addRules_spec hconjoins False.elim hvalid' hfolded.areRules hrest').results.and
            (ih hvalid' hfolded.areRules hrest' fun hregular => (List.pairwise_cons.mp
              (hbeside (hregular.earlier hext))).2)).imp ?_
          rintro final out ⟨⟨⟨-, hext'⟩, -⟩, hout'⟩ hregular
          have hscreened := hout (hregular.earlier hext')
          have hnot : ¬ ∃ p ∈ rules, RulesExclude values p rule := by
            rw [← hscreened.conflict]
            rintro ⟨_, ⟨⟩⟩
          rw [hout' hregular, List.exists_mem_cons_iff, or_iff_right hnot]
          refine exists_congr fun q => and_congr_right fun hq => ?_
          refine hscreened.excludes kept rfl q (hrest q hq).1.holds ?_
          exact (List.pairwise_cons.mp (hbeside (hregular.earlier (hext'.trans hext)))).1 q hq

/-- Rules of two roots that are no unions are combined unless some of them exclude each other. -/
theorem combineBy_decided (hvalid : space.Valid) (hl : l.Within .success (depth + 1) space)
    (hr : r.Within .success (depth + 1) space) (horder : 2 ≤ l.kind.order) (horder' : 2 ≤ r.kind.order)
    (hne : l.sameType r = false) : Results space (combineBy meet [l, r]) (Decided (BranchesExclude values l r)) := by
  have hrules := hl.toCalm.areRules hvalid horder
  have hrules' := hr.toCalm.areRules hvalid horder'
  have hholds : ∀ o ∈ [l, r], space.Holds o := List.forall_mem_cons.mpr ⟨hl.holds, List.forall_mem_singleton.mpr hr.holds⟩
  have hcalm := calm_flatMap hvalid (List.forall_mem_cons.mpr ⟨⟨hl.toCalm, horder⟩,
    List.forall_mem_singleton.mpr ⟨hr.toCalm, horder'⟩⟩)
  have hfits (hregular : space.Regular) : Fitting ([l, r].flatMap Node.rules) :=
    fitting_flatMap (List.forall_mem_cons.mpr ⟨fitting_rules hvalid hl.holds horder (hl.root trivial hregular),
      List.forall_mem_singleton.mpr (fitting_rules hvalid hr.holds horder' (hr.root trivial hregular))⟩)
  have hiff : (∃ q ∈ r.rules, ∃ p ∈ l.rules, RulesExclude values p q) ↔ BranchesExclude values l r := by
    rw [BranchesExclude, and_iff_right hne]
    constructor
    · rintro ⟨q, hq, p, hp, h⟩
      exact ⟨p, hp, q, hq, h⟩
    · rintro ⟨p, hp, q, hq, h⟩
      exact ⟨q, hq, p, hp, h⟩
  have hadds : Results space (addRules meet [] ([l, r].flatMap Node.rules)) fun later out => later.Regular →
      ((∃ d, out = .error d) ↔ BranchesExclude values l r) := by
    have hboth : [l, r].flatMap Node.rules = l.rules ++ r.rules := by simp
    rw [hboth] at hcalm ⊢
    rw [List.forall_mem_append] at hcalm
    -- The rules of the first root stand beside each other, so adding them to none leaves them as they are.
    have hkeeps := @addRules_beside _ False False _ space meet _ hconjoins False.elim [] _ hvalid hcalm.1 hrules.beside
    rw [addRules_append, ← hiff]
    refine hkeeps.results.bind ?_
    rintro later _ ⟨⟨hvalid', hext⟩, rfl⟩
    exact addRules_decided hconjoins hdecides hvalid' (hrules.extends hext)
      (fun e he => (hcalm.2 e he).imp_left fun h => h.extends hext)
      fun hregular => hrules'.exact (hregular.earlier hext)
  unfold combineBy
  refine ((addRules_spec hconjoins False.elim hvalid .nil hcalm).results.and hadds).bind ?_
  rintro later out ⟨⟨⟨hvalid', hext⟩, hgathered⟩, hout⟩
  cases out with
  | error d => exact .pure (decided_disjoint fun hregular => (hout hregular).mp ⟨d, rfl⟩)
  | ok gathered =>
      refine (finish_gathered hconjoins False.elim hvalid' (fun o ho => hext.holds o (hholds o ho)) hgathered
        fun _ hregular => hfits (hregular.earlier hext)).results.bind ?_
      rintro final out ⟨⟨-, hext'⟩, hout'⟩
      cases out with
      | error d => exact .pure (decided_disjoint fun hregular => (hout' trivial hregular).elim)
      | ok n =>
          refine .pure (decided_node fun hregular h => ?_)
          obtain ⟨d, hd⟩ := (hout (hregular.earlier hext')).mpr h
          cases hd

/-- Roots that are no unions and no morphs, in order of kind. -/
theorem meetIntersections_decided (hvalid : space.Valid) (hl : l.Within .success (depth + 1) space)
    (hr : r.Within .success (depth + 1) space) (hfirst : 2 ≤ l.kind.order) (horder : l.kind.order ≤ r.kind.order)
    (hne : l.sameType r = false) :
    Results space (meetIntersections meet l r) (Decided (BranchesExclude values l r)) := by
  unfold meetIntersections
  split
  · refine (combineBy_decided hconjoins hdecides hvalid hl hr hfirst (hfirst.trans horder) hne).bind fun _ out hout => ?_
    cases out with
    | node n => exact .pure (decided_node hout.not_of_node)
    | disjoint d => exact .pure hout
    | orthogonal => exact .pure hout
  · rename_i hnot
    obtain ⟨hconstraint, hconstraint'⟩ := areConstraints_of_order hfirst horder hnot
    refine (meetConstraints_decided hconjoins hdecides hvalid hl.toCalm hr.toCalm).imp fun _ _ hout => ?_
    have hexcludes : RulesExclude values l r ↔ Repels values l r := by
      rw [RulesExclude, and_iff_right hne, if_neg (Nat.not_lt.mpr horder)]
    rw [BranchesExclude, and_iff_right hne, rules_of_isConstraint hconstraint, rules_of_isConstraint hconstraint']
    simpa [hexcludes] using hout

/-- Roots that are no unions and no morphs, in either order. -/
theorem conjoinBy_decided (hvalues : ∀ space : Space, space.Valid → Mutual values space) (hvalid : space.Valid)
    (hl : l.Within .success (depth + 1) space) (hr : r.Within .success (depth + 1) space) (hfirst : 2 ≤ l.kind.order)
    (hfirst' : 2 ≤ r.kind.order) :
    Results space (conjoinBy meet (meetIntersections meet) l r) (Decided (BranchesExclude values l r)) := by
  cases hsame : l.sameType r with
  | true =>
      rw [conjoinBy, meetBy, if_pos hsame, pure_bind]
      exact .pure (decided_node fun _ h => Bool.false_ne_true (h.1.symm.trans hsame))
  | false =>
      have hmeets : Results space (meetBy (meetIntersections meet) l r) (Decided (BranchesExclude values l r)) := by
        rcases Nat.lt_or_ge r.kind.order l.kind.order with hlt | hle
        · have hsame' : r.sameType l = false := (sameType_comm r l).trans hsame
          rw [meetBy_back hsame' hlt]
          refine (meetIntersections_decided hconjoins hdecides hvalid hr hl hfirst' hlt.le hsame').bind fun _ _ hout => ?_
          refine .pure (Decided.invert (hout.congr fun _ => ⟨fun h => ?_, fun h => ?_⟩))
          · exact h.symm hvalid (hvalues space hvalid) hr.holds hl.holds
          · exact h.symm hvalid (hvalues space hvalid) hl.holds hr.holds
        · rw [meetBy_forth hsame hle]
          exact meetIntersections_decided hconjoins hdecides hvalid hl hr hfirst hle hsame
      unfold conjoinBy
      refine ((meetBy_met (meetIntersections_met hconjoins False.elim) hvalid hl hr hfirst hfirst').results.and
        hmeets).bind ?_
      rintro later out ⟨⟨⟨hvalid', hext⟩, -⟩, hout⟩
      cases out with
      | node n => exact .pure hout
      | disjoint d => exact .pure hout
      | orthogonal =>
          exact combineBy_decided hconjoins hdecides hvalid' (hl.extends hext) (hr.extends hext) hfirst hfirst' hsame

end

omit [Behaviour] in
/-- What is decided in regular spaces is decided. -/
theorem decided_of_regular {ground safe : Prop} {Q : Space → Intersected → Prop} {x : SpaceM Intersected} {P : Prop}
    (hx : SpaceM.Ensures ground safe space x Q) (h : space.Regular → Results space x (Decided P)) :
    Results space x (Decided P) := by
  by_cases hregular : space.Regular
  · exact h hregular
  · exact fun _ _ hlater => (hregular (hlater.earlier hx.extension)).elim

/-- A way of intersecting branches without morphs that finds the conflicts between branches that exclude each other. -/
def DecidesBranches (excludes : Node → Node → Prop) (depth : Nat) (conjoin : Meet) : Prop :=
  ∀ space l r, space.Valid → Branches .success depth space [l, r] →
    Results space (conjoin l r) (Decided (excludes l r))

theorem conjoinBranches_decided (hconjoins : Conjoins False .success depth meet) (hdecides : Decides values depth meet)
    (hvalues : ∀ space : Space, space.Valid → Mutual values space) :
    DecidesBranches (BranchesExclude values) depth (conjoinBranches meet) := by
  intro space l r hvalid hbranches
  refine decided_of_regular (conjoinBranches_spec hconjoins False.elim space l r hvalid hbranches) fun hregular => ?_
  have hmorph {n : Node} (hn : n ∈ [l, r]) : n.kind ≠ .morph := (hbranches.within n hn).not_morph trivial hregular
  have horder {n : Node} (hn : n ∈ [l, r]) : 2 ≤ n.kind.order := by
    have hunion := hbranches.notUnions n hn
    have hmorph := hmorph hn
    generalize n.kind = kind at hunion hmorph
    cases kind <;> first | exact absurd rfl hunion | exact absurd rfl hmorph | decide
  rw [conjoinBranches, conjoinBy_congr (meetMorphs_eq (hmorph (by simp))) (meetMorphs_eq (hmorph (by simp)))]
  exact conjoinBy_decided hconjoins hdecides hvalues hvalid (hbranches.within l (by simp)) (hbranches.within r (by simp))
    (horder (by simp)) (horder (by simp))

-- ---------------------------------------------------------------------------
-- Unions
-- ---------------------------------------------------------------------------

/-- A row that leaves something: a branch that is settled, or something parked in a column. -/
def Row.Finds (row : Row) : Prop := row.settled ≠ [] ∨ parkedOf row.after ≠ []

/-- What a row leaves of columns in which nothing was parked: something, unless the branch excludes all of them. -/
def Scanned (excludes : Node → Node → Prop) (branch : Node) (nodes : List Node) (row : Row) : Prop :=
  (row.Finds ∧ ∃ b ∈ nodes, ¬ excludes branch b) ∨
    (row = ⟨[], (freshColumns nodes).map (·, none), false⟩ ∧ ∀ b ∈ nodes, excludes branch b)

section

variable {conjoin : Meet} {excludes : Node → Node → Prop} {branch : Node} {branches nodes : List Node}
  {columns : List Column}

omit [Behaviour] in
theorem Row.finds_cons {column : Column} {settled : List Node} {candidate : Option Node} {absorbed : Bool} {row : Row} :
    Row.Finds ⟨settled ++ row.settled, (column, candidate) :: row.columns, absorbed⟩ ↔
      settled ≠ [] ∨ (column.park candidate).parked.getD [] ≠ [] ∨ row.Finds := by
  simp only [Row.Finds, Row.after, List.map_cons, parkedOf_cons, ne_eq, List.append_eq_nil_iff, not_and_or]
  tauto

omit [Behaviour] in
/-- What is parked stays parked, unless its column is settled. -/
theorem meetRow_finds (hparked : parkedOf columns ≠ []) :
    Results space (meetRow conjoin branch columns) fun _ row => row.Finds := by
  induction columns generalizing space with
  | nil => exact absurd rfl hparked
  | cons column rest ih =>
      have hpass (space : Space) (column' : Column) (settled : List Node) (candidate : Option Node)
          (h : settled ≠ [] ∨ column' = column) :
          Results space (do
            let row ← meetRow conjoin branch rest
            let candidate := if row.absorbed then none else candidate
            return (⟨settled ++ row.settled, (column', candidate) :: row.columns, row.absorbed⟩ : Row)) fun _ row =>
              row.Finds := by
        rcases h with h | rfl
        · exact .after fun _ row => .pure (Row.finds_cons.mpr (.inl h))
        rw [parkedOf_cons, ne_eq, List.append_eq_nil_iff, not_and_or] at hparked
        rcases hparked with hparked | hparked
        · refine .after fun _ row => .pure (Row.finds_cons.mpr (.inr (.inl ?_)))
          obtain ⟨n, hn⟩ := List.exists_mem_of_ne_nil _ hparked
          exact List.ne_nil_of_mem (column'.parked_subset _ n hn)
        · exact (ih hparked).bind fun _ row hrow => .pure (Row.finds_cons.mpr (.inr (.inr hrow)))
      unfold meetRow
      dsimp only
      split
      · exact hpass space column [] none (.inr rfl)
      rename_i hlive
      split
      · exact .pure (.inl (List.cons_ne_nil _ _))
      refine .after fun later out => ?_
      cases out with
      | node n =>
          dsimp only
          split
          · refine .pure (.inr ?_)
            obtain ⟨node, parked⟩ := column
            cases parked with
            | none => exact absurd rfl hlive
            | some parked => simp [Row.after, parkedOf_cons, Column.park]
          split
          · exact hpass later ⟨column.branch, none⟩ [column.branch] none (.inl (List.cons_ne_nil _ _))
          · exact hpass later column [] (some n) (.inr rfl)
      | disjoint d => exact hpass later column [] none (.inr rfl)
      | orthogonal => exact hpass later column [] none (.inr rfl)

omit [Behaviour] in
theorem finds_append {row : Row} (h : row.Finds) (hrest : parkedOf row.after ≠ [] →
    Results space (meetRows conjoin branches row.after) fun _ found => found ≠ []) :
    Results space (do return row.settled ++ (← meetRows conjoin branches row.after)) fun _ found => found ≠ [] := by
  rcases h with hsettled | hparked
  · exact .after fun _ found => .pure (by simp [hsettled])
  · exact (hrest hparked).bind fun _ found hfound => .pure (by simp [hfound])

omit [Behaviour] in
/-- What is parked comes to something in the end. -/
theorem meetRows_finds (hparked : parkedOf columns ≠ []) :
    Results space (meetRows conjoin branches columns) fun _ found => found ≠ [] := by
  induction branches generalizing space columns with
  | nil => exact .pure hparked
  | cons branch rest ih =>
      unfold meetRows
      exact (meetRow_finds hparked).bind fun _ row hrow => finds_append hrow ih

section

variable (hspec : ConjoinsBranches False .success depth conjoin) (hdecides : DecidesBranches excludes depth conjoin)
  (hne : ∀ a b, excludes a b → a.sameType b = false)

include hspec hdecides hne

theorem meetRow_decided (hvalid : space.Valid) (hbranch : Branches .success depth space [branch])
    (hnodes : Branches .success depth space nodes) :
    Results space (meetRow conjoin branch (freshColumns nodes)) fun later row => later.Regular →
      Scanned excludes branch nodes row := by
  induction nodes generalizing space with
  | nil => exact .pure fun _ => .inr ⟨rfl, List.forall_mem_nil _⟩
  | cons node rest ih =>
      have hrest := hnodes.subset fun _ hn => List.mem_cons_of_mem node hn
      have hpair := hbranch.append (hnodes.subset (List.forall_mem_singleton.mpr List.mem_cons_self))
      have hfound {row : Row} (hfinds : row.Finds) (hnot : ¬ excludes branch node) :
          Scanned excludes branch (node :: rest) row := .inl ⟨hfinds, node, List.mem_cons_self, hnot⟩
      change Results space (meetRow conjoin branch (⟨node, some []⟩ :: freshColumns rest)) _
      unfold meetRow
      dsimp only
      rw [if_neg (by simp)]
      split
      · rename_i hsame
        exact .pure fun _ => hfound (.inl (List.cons_ne_nil _ _)) fun h =>
          Bool.false_ne_true ((hne _ _ h).symm.trans hsame)
      refine ((hspec space branch node hvalid hpair).results.and (hdecides space branch node hvalid hpair)).bind ?_
      rintro later out ⟨⟨⟨hvalid', hext⟩, hconjoined⟩, hdecided⟩
      have hrow := (meetRow_spec hspec hvalid' (hbranch.extends hext) (fit_freshColumns (hrest.extends hext))).results.and
        (ih hvalid' (hbranch.extends hext) (hrest.extends hext))
      cases out with
      | orthogonal => exact hconjoined.elim
      | disjoint d =>
          refine hrow.bind ?_
          rintro final row ⟨⟨⟨-, hext'⟩, -⟩, hscanned⟩
          refine .pure fun hregular => ?_
          have hexcludes := (hdecided (hregular.earlier hext')).mp ⟨d, rfl⟩
          rcases hscanned hregular with ⟨hfinds, b, hb, hnot⟩ | ⟨rfl, hall⟩
          · exact .inl ⟨Row.finds_cons.mpr (.inr (.inr hfinds)), b, List.mem_cons_of_mem _ hb, hnot⟩
          · exact .inr ⟨rfl, List.forall_mem_cons.mpr ⟨hexcludes, hall⟩⟩
      | node n =>
          have hnot := hdecided.not_of_node
          dsimp only
          split
          · exact .pure fun hregular => hfound (.inr (by simp [Row.after, parkedOf_cons, Column.park])) (hnot hregular)
          split
          · refine hrow.bind ?_
            rintro final row ⟨⟨⟨-, hext'⟩, -⟩, -⟩
            exact .pure fun hregular => hfound (.inl (List.cons_ne_nil _ _)) (hnot (hregular.earlier hext'))
          · refine hrow.bind ?_
            rintro final row ⟨⟨⟨-, hext'⟩, -⟩, hscanned⟩
            refine .pure fun hregular => hfound (Row.finds_cons.mpr ?_) (hnot (hregular.earlier hext'))
            rcases hscanned hregular with ⟨hfinds, -⟩ | ⟨rfl, -⟩
            · exact .inr (.inr hfinds)
            · exact .inr (.inl (by simp [Column.park]))

theorem meetRows_decided (hvalid : space.Valid) (hbranches : Branches .success depth space branches)
    (hnodes : Branches .success depth space nodes) :
    Results space (meetRows conjoin branches (freshColumns nodes)) fun later found => later.Regular →
      (found = [] ↔ ∀ a ∈ branches, ∀ b ∈ nodes, excludes a b) := by
  induction branches generalizing space with
  | nil => exact .pure fun _ => iff_of_true (parkedOf_freshColumns nodes) (List.forall_mem_nil _)
  | cons branch rest ih =>
      have hbranch := hbranches.subset (List.forall_mem_singleton.mpr List.mem_cons_self)
      have hrest := hbranches.subset fun _ hn => List.mem_cons_of_mem branch hn
      unfold meetRows
      refine ((meetRow_spec hspec hvalid hbranch (fit_freshColumns hnodes)).results.and
        (meetRow_decided hspec hdecides hne hvalid hbranch hnodes)).bind ?_
      rintro later row ⟨⟨⟨hvalid', hext⟩, hcrossed⟩, hscanned⟩
      change Results later (do return row.settled ++ (← meetRows conjoin rest row.after)) _
      by_cases hregular : later.Regular
      · rcases hscanned hregular with ⟨hfinds, b, hb, hnot⟩ | ⟨rfl, hall⟩
        · refine (finds_append hfinds meetRows_finds).imp fun _ _ hfound _ => iff_of_false hfound fun hall => ?_
          exact hnot (hall branch List.mem_cons_self b hb)
        · rw [Row.after_idle]
          refine (ih hvalid' (hrest.extends hext) (hnodes.extends hext)).bind fun final found hfound => ?_
          refine .pure fun hregular' => ?_
          rw [List.nil_append, hfound hregular', List.forall_mem_cons, and_iff_right hall]
      · refine (meetRows_spec hspec hvalid' (hrest.extends hext) hcrossed.fit).results.bind ?_
        rintro final found ⟨⟨-, hext'⟩, -⟩
        exact .pure fun hregular' => absurd (hregular'.earlier hext') hregular

end

end

section

variable (hconjoins : Conjoins False .success depth meet) (hdecides : Decides values depth meet)
  (hvalues : ∀ space : Space, space.Valid → Mutual values space)

include hconjoins hdecides hvalues

/-- A union and any other node. -/
theorem meetUnions_decided (hvalid : space.Valid) (hl : l.Within .success (depth + 1) space)
    (hr : r.Within .success (depth + 1) space) (hunion : l.kind = .union) (hne : l.sameType r = false) :
    Results space (meetUnions meet l r) (Decided (NodesExclude values l r)) := by
  have hspec := conjoinBranches_spec hconjoins False.elim
  have hlBranches := (branches_spec hvalid hl).1
  have hrBranches := (branches_spec hvalid hr).1
  obtain ⟨branches, ordered, hc⟩ := union_of_kind hunion
  have hbranches : l.branches = (branches, ordered) := by rw [Node.branches, hc]
  unfold NodesExclude
  rw [hbranches] at hlBranches ⊢
  rw [meetUnions, hc, and_iff_right hne]
  generalize r.branches = all at hrBranches ⊢
  obtain ⟨branches', ordered'⟩ := all
  dsimp only at hlBranches hrBranches ⊢
  split
  · rename_i hempty hempty'
    exact .pure (decided_node fun _ h => by simp_all)
  · rename_i hsome _
    have hsome : branches ≠ [] := fun h => by simp [h] at hsome
    refine ((intersectBranches_spec hspec hvalid hlBranches hrBranches).results.and
      (meetRows_decided hspec (conjoinBranches_decided hconjoins hdecides hvalues) (fun _ _ h => h.1) hvalid hlBranches
        hrBranches)).bind ?_
    rintro later found ⟨⟨⟨hvalid', -⟩, hfound, -⟩, hdecided⟩
    split
    · rename_i hempty
      exact .pure (decided_disjoint fun hregular => ⟨.inl hsome, (hdecided hregular).mp (List.isEmpty_iff.mp hempty)⟩)
    · rename_i hnonempty
      refine (assembleUnionBy_spec hspec hvalid' hfound).results.bind ?_
      rintro final n ⟨⟨-, hext⟩, -⟩
      refine .pure (decided_node fun hregular h => hnonempty (List.isEmpty_iff.mpr ?_))
      exact (hdecided (hregular.earlier hext)).mpr h.2
  · rename_i hnotBoth hnotNone
    refine .pure (decided_disjoint fun _ => ?_)
    cases branches <;> cases branches' <;> simp_all

/-- Nodes of any kinds, in either order. -/
theorem conjoinAny_decided : Decides (NodesExclude values) (depth + 1) (conjoinBy meet (meetUnions meet)) := by
  intro space l r hvalid hl hr
  cases hsame : l.sameType r with
  | true =>
      rw [conjoinBy, meetBy, if_pos hsame, pure_bind]
      exact .pure (decided_node fun _ h => Bool.false_ne_true (h.1.symm.trans hsame))
  | false =>
      by_cases hunion : l.kind = .union ∨ r.kind = .union
      · have hmeets : Results space (meetBy (meetUnions meet) l r) (Decided (NodesExclude values l r)) := by
          by_cases hl' : l.kind = .union
          · rw [meetBy_forth hsame (by rw [hl']; exact Nat.zero_le _)]
            exact meetUnions_decided hconjoins hdecides hvalues hvalid hl hr hl' hsame
          · have hr' := hunion.resolve_left hl'
            have hsame' : r.sameType l = false := (sameType_comm r l).trans hsame
            rw [meetBy_back hsame' (order_lt_of_union hr' hl')]
            refine (meetUnions_decided hconjoins hdecides hvalues hvalid hr hl hr' hsame').bind fun _ _ hout => ?_
            refine .pure (Decided.invert (hout.congr fun _ => ⟨fun h => ?_, fun h => ?_⟩))
            · exact h.symm hvalid (hvalues space hvalid) hr.holds hl.holds
            · exact h.symm hvalid (hvalues space hvalid) hl.holds hr.holds
        unfold conjoinBy
        refine ((meetBy_met (meetUnions_met hconjoins False.elim) hvalid hl hr (Nat.zero_le _)
          (Nat.zero_le _)).results.and hmeets).bind ?_
        rintro later out ⟨⟨-, hmet⟩, hout⟩
        cases out with
        | node n => exact .pure hout
        | disjoint d => exact .pure hout
        | orthogonal =>
            obtain ⟨hcl, hcr⟩ := hmet.1
            rcases hunion with h | h
            · cases h ▸ hcl
            · cases h ▸ hcr
      · obtain ⟨hl', hr'⟩ := not_or.mp hunion
        rw [conjoinBy_congr (meetUnions_eq hl') (meetUnions_eq hr')]
        refine (conjoinBranches_decided hconjoins hdecides hvalues space l r hvalid
          ((branches_singleton hl hl').append (branches_singleton hr hr'))).imp fun _ _ hout => hout.congr fun _ => ?_
        simp [NodesExclude, hsame, branches_of_not_union hl', branches_of_not_union hr']

end

/-- Nodes without morphs conflict exactly if they exclude each other. -/
theorem conjoinWithin_decides (depth : Nat) : Decides (Excludes depth) depth (conjoinWithin depth) := by
  induction depth with
  | zero => exact fun _ _ _ _ _ _ => .throw _
  | succ depth ih =>
      exact conjoinAny_decided (conjoinWithin_spec False.elim depth) ih fun _ hvalid _ _ ha hb => Excludes.symm hvalid ha hb

end Node

end SchemaAlgebra
