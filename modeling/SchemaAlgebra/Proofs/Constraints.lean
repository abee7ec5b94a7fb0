-- SUMMARY: Intersecting two constraints: what they merge to, that conflicts are real, and what stays apart.
import SchemaAlgebra.Proofs.Computation
import SchemaAlgebra.Proofs.Leaves
import SchemaAlgebra.Proofs.Meaning

/-!
# Intersecting constraints

Two constraints merge to one that allows what both allow, conflict because no
value satisfies both, or can stand side by side. The values of properties are
intersected by a parameter, of which only its specification is used.
-/

namespace SchemaAlgebra

/-- The content of a bound on a side. -/
def BoundSide.content (side : BoundSide) (bound : Bound) : Content Node :=
  match side with
  | .max => .max bound
  | .min => .min bound

namespace Node

-- ---------------------------------------------------------------------------
-- Slots
-- ---------------------------------------------------------------------------

theorem slot?_eq_some {node : Node} {slot : Slot} (h : node.slot? = some slot) : match slot with
    | .basis => node.isBasis = true
    | .divisor => ∃ d, node.content = .divisor d
    | .max axis => ∃ bound, node.content = .max bound ∧ bound.axis = axis
    | .min axis => ∃ bound, node.content = .min bound ∧ bound.axis = axis
    | .pattern p => node.content = .pattern p
    | .predicate p => node.content = .predicate p
    | .required key => ∃ value, node.content = .required key value
    | .optional key => ∃ value, node.content = .optional key value := by
  unfold slot? at h
  unfold isBasis kind
  cases hc : node.content with
  | union => rw [hc] at h; cases h
  | morph => rw [hc] at h; cases h
  | intersection => rw [hc] at h; cases h
  | unit v => rw [hc] at h; cases h; rfl
  | proto p => rw [hc] at h; cases h; rfl
  | domain d => rw [hc] at h; cases h; rfl
  | divisor d => rw [hc] at h; cases h; exact ⟨d, rfl⟩
  | max bound => rw [hc] at h; cases h; exact ⟨bound, rfl, rfl⟩
  | min bound => rw [hc] at h; cases h; exact ⟨bound, rfl, rfl⟩
  | pattern p => rw [hc] at h; cases h; rfl
  | predicate p => rw [hc] at h; cases h; rfl
  | required key value => rw [hc] at h; cases h; exact ⟨value, rfl⟩
  | optional key value => rw [hc] at h; cases h; exact ⟨value, rfl⟩

theorem slot?_of_isBasis {node : Node} (h : node.isBasis = true) : node.slot? = some .basis := by
  unfold isBasis kind at h
  unfold slot?
  cases hc : node.content with
  | unit v => rfl
  | proto p => rfl
  | domain d => rfl
  | _ => rw [hc] at h; cases h

theorem basis_cases {node : Node} (h : node.isBasis = true) :
    (∃ v, node.content = .unit v) ∨ (∃ p, node.content = .proto p) ∨ ∃ d, node.content = .domain d := by
  unfold isBasis kind at h
  cases hc : node.content with
  | unit v => exact .inl ⟨v, rfl⟩
  | proto p => exact .inr (.inl ⟨p, rfl⟩)
  | domain d => exact .inr (.inr ⟨d, rfl⟩)
  | _ => rw [hc] at h; cases h

/-- A basis takes the place of another: what can apply to the other can apply to it, or it is a unit. -/
def Narrows (b' b : Node) : Prop :=
  b'.kind = .unit ∨ b.kind ≠ .unit ∧ b'.isBasis = true ∧ ∀ slot : Slot, slot.Suits (some b) → slot.Suits (some b')

theorem narrows_of_proto {b' b : Node} (hunit : b.kind ≠ .unit) (hbasis : b'.isBasis = true)
    (hdomain : b'.basisDomain? = b.basisDomain?)
    (hproto : ∀ p, b.basisProto? = some p → ∃ q, b'.basisProto? = some q ∧ q.isSubclassOf p = true) :
    b'.Narrows b := by
  have hsub {target : Proto} : (∃ p, b.basisProto? = some p ∧ p.isSubclassOf target = true) →
      ∃ q, b'.basisProto? = some q ∧ q.isSubclassOf target = true := by
    rintro ⟨p, hp, h⟩
    obtain ⟨q, hq, h'⟩ := hproto p hp
    exact ⟨q, hq, Proto.isSubclassOf_trans h' h⟩
  have haxis (axis : BoundAxis) : axisApplies axis (some b) = true → axisApplies axis (some b') = true := by
    rw [axisApplies_some, axisApplies_some, hdomain]
    cases axis with
    | value => exact fun h => h
    | length => exact Or.imp_right hsub
    | time => exact hsub
  refine .inr ⟨hunit, hbasis, fun slot hslot => ?_⟩
  cases slot with
  | max axis => exact haxis axis hslot
  | min axis => exact haxis axis hslot
  | basis => exact hslot
  | predicate p => exact hslot
  | _ => exact hdomain.trans hslot

theorem basisDomain?_eq (node : Node) : node.basisDomain? = match node.content.outline with
    | .domain d => some d
    | .unit v => some v.domain
    | .proto _ => some .object
    | _ => none := by
  unfold basisDomain?
  cases node.content with
  | unit v => exact congrArg some v.domain_unsigned.symm
  | _ => rfl

theorem basisProto?_eq (node : Node) : node.basisProto? = match node.content.outline with
    | .proto p => some p
    | _ => none := by
  unfold basisProto?
  cases node.content <;> rfl

theorem narrows_of_outline {b' b : Node} (hbasis : b.isBasis = true) (h : b'.content.outline = b.content.outline) :
    b'.Narrows b := by
  by_cases hunit : b.kind = .unit
  · exact .inl ((Content.kind_eq_of_outline h).trans hunit)
  · refine narrows_of_proto hunit ?_ ?_ ?_
    · rw [isBasis, kind, Content.kind_eq_of_outline h]
      exact hbasis
    · rw [basisDomain?_eq, basisDomain?_eq, h]
    · intro p hp
      refine ⟨p, ?_, Proto.isSubclassOf_self p⟩
      rw [basisProto?_eq, h, ← basisProto?_eq]
      exact hp

theorem Narrows.isBasis {b' b : Node} (h : b'.Narrows b) : b'.isBasis = true := by
  rcases h with h | h
  · rw [Node.isBasis, h]
    rfl
  · exact h.2.1

theorem Narrows.trans {c b a : Node} (h : c.Narrows b) (h' : b.Narrows a) : c.Narrows a := by
  rcases h with h | ⟨hb, hbasis, hsuits⟩
  · exact .inl h
  · rcases h' with h' | ⟨ha, -, hsuits'⟩
    · exact absurd h' hb
    · exact .inr ⟨ha, hbasis, fun slot hslot => hsuits slot (hsuits' slot hslot)⟩

theorem isBasis_of_slot? {c b : Node} (h : c.slot? = b.slot?) (hb : b.isBasis = true) : c.isBasis = true :=
  slot?_eq_some (h.trans (slot?_of_isBasis hb))

/-- What is in order of kind and no unit comes first is no unit. -/
theorem not_unit_of_order {l r : Node} (hl : l.kind.isConstraint = true) (h : l.kind.order ≤ r.kind.order)
    (hunit : l.kind ≠ .unit) : r.kind ≠ .unit := by
  intro hr
  rw [hr] at h
  generalize l.kind = kind at *
  cases kind <;> first | exact hunit rfl | exact absurd h (by decide) | exact absurd hl (by decide)

end Node

-- ---------------------------------------------------------------------------
-- Equal contents
-- ---------------------------------------------------------------------------

namespace Space

variable {space : Space}

theorem Valid.sameType_of_json (hvalid : space.Valid) {a b : Node} (ha : space.Holds a) (hb : space.Holds b)
    (hkind : a.kind = b.kind)
    (h : a.content.json space.registry false .none = b.content.json space.registry false .none) :
    a.sameType b = true := by
  have ha := hvalid.written a ha
  have hb := hvalid.written b hb
  rw [Content.json_uncaptioned _ _ .none a.caption, Content.json_uncaptioned _ b.content .none b.caption,
    ← ha.typeJson, ← hb.typeJson] at h
  rw [Node.kind, Node.kind] at hkind
  unfold Node.sameType
  rw [ha.typeId, hb.typeId, Content.identifier, Content.identifier, h, hkind]
  exact beq_self_eq_true _

theorem Valid.sameType_of_content (hvalid : space.Valid) {a b : Node} (ha : space.Holds a) (hb : space.Holds b)
    (h : a.content = b.content) : a.sameType b = true :=
  hvalid.sameType_of_json ha hb (congrArg Content.kind h) (by rw [h])

theorem Valid.sameType_of_unit (hvalid : space.Valid) {a b : Node} (ha : space.Holds a) (hb : space.Holds b)
    {v w : Value} (hv : a.content = .unit v) (hw : b.content = .unit w) (h : v.unsigned = w.unsigned) :
    a.sameType b = true := by
  refine hvalid.sameType_of_json ha hb (by rw [Node.kind, Node.kind, hv, hw]; rfl) ?_
  rw [hv, hw, Content.json, Content.json, ← Literal.encode_unsigned _ v, h, Literal.encode_unsigned]

end Space

namespace Node

open SpaceM (Ensures)

variable [Behaviour]

-- ---------------------------------------------------------------------------
-- Specifications
-- ---------------------------------------------------------------------------

/-- A node that a conjunction gives. It allows nothing but what both operands allow, and all of that where `safe`
holds; a bare refinement comes from one only. -/
structure Conjunct (safe : Safety) (depth : Nat) (l r : Node) (space : Space) (n : Node) : Prop where
  calm : n.Calm safe depth space
  root : l.isRefinement = false → r.isRefinement = false → n.isRefinement = false
  allows : BlindToSign → space.Regular → ∀ v, Agrees safe.exact (n.allows v) (l.allows v && r.allows v)

/-- What a conjunction gives: a node, or a conflict, which is one between nodes that share no value where `safe`
holds. -/
def Conjoined (safe : Safety) (depth : Nat) (l r : Node) (space : Space) : Intersected → Prop
  | .node n => Conjunct safe depth l r space n
  | .disjoint _ => safe.exact → space.Regular → ∀ v, (l.allows v && r.allows v) = false
  | .orthogonal => False

/-- The specification of conjunctions of nodes that nest to less than a depth. -/
def Conjoins (ground : Prop) (safe : Safety) (depth : Nat) (meet : Meet) : Prop :=
  ∀ space l r, space.Valid → l.Within safe depth space → r.Within safe depth space →
    Ensures ground safe space (meet l r) fun later out => Conjoined safe depth l r later out

/-- What two constraints merge to. -/
structure Merge (safe : Safety) (depth : Nat) (space : Space) (l r n : Node) : Prop where
  calm : n.Calm safe (depth + 1) space
  isConstraint : n.kind.isConstraint = true
  left : l.kind = .unit → n.kind = .unit ∧ n.sameType l = true
  right : r.kind = .unit → n.kind = .unit ∧ n.sameType r = true
  slots : l.kind ≠ .unit → r.kind ≠ .unit → n.kind ≠ .unit ∧ n.slot? = l.slot? ∧ n.slot? = r.slot?
  narrows : ∀ b, b = l ∨ b = r → b.isBasis = true → n.Narrows b
  beside : ∀ (exact : Bool) (x : Node), x.Beside exact l → x.Beside exact r → x.Beside exact n
  allows : BlindToSign → space.Regular → ∀ v, Agrees safe.exact (n.allows v) (l.allows v && r.allows v)

/-- What intersecting two constraints gives. -/
def Merged (safe : Safety) (depth : Nat) (l r : Node) (space : Space) : Intersected → Prop
  | .node n => Merge safe depth space l r n
  | .disjoint _ => safe.exact → space.Regular → ∀ v, (l.allows v && r.allows v) = false
  | .orthogonal => l.Beside false r ∧ (space.Regular → l.Beside true r)

variable {ground : Prop} {safe : Safety} {depth : Nat} {space : Space} {l r n : Node}

theorem Conjunct.within (h : Conjunct safe depth l r space n) (hl : l.Within safe depth space)
    (hr : r.Within safe depth space) : n.Within safe depth space :=
  ⟨h.calm, fun hsafe hregular => h.root (hl.root hsafe hregular) (hr.root hsafe hregular)⟩

theorem Conjunct.extends {later : Space} (h : Conjunct safe depth l r space n) (hext : later.Extends space) :
    Conjunct safe depth l r later n :=
  ⟨h.calm.extends hext, h.root, fun hblind hregular => h.allows hblind (hregular.earlier hext)⟩

/-- What a conjunction of the type of one operand says: the other operand allows all that this one does. -/
theorem Conjunct.right_of_left (h : Conjunct safe depth l r space n) (hvalid : space.Valid)
    (hl : space.Holds l) (hsame : n.sameType l = true) (hblind : BlindToSign) (hregular : space.Regular) {v : Value}
    (hv : l.allows v = true) : r.allows v = true := by
  rw [← hvalid.allows_eq hregular h.calm.holds hl hsame] at hv
  exact (Bool.and_eq_true_iff.mp ((h.allows hblind hregular v).sound hv)).2

theorem Conjunct.left_of_right (h : Conjunct safe depth l r space n) (hvalid : space.Valid)
    (hr : space.Holds r) (hsame : n.sameType r = true) (hblind : BlindToSign) (hregular : space.Regular) {v : Value}
    (hv : r.allows v = true) : l.allows v = true := by
  rw [← hvalid.allows_eq hregular h.calm.holds hr hsame] at hv
  exact (Bool.and_eq_true_iff.mp ((h.allows hblind hregular v).sound hv)).1

theorem Merge.symm (h : Merge safe depth space l r n) : Merge safe depth space r l n where
  calm := h.calm
  isConstraint := h.isConstraint
  left := h.right
  right := h.left
  slots := fun hr hl => (h.slots hl hr).imp_right And.symm
  narrows := fun b hb => h.narrows b hb.symm
  beside := fun exact x hr hl => h.beside exact x hl hr
  allows := fun hblind hregular v => Bool.and_comm _ _ ▸ h.allows hblind hregular v

theorem Merged.invert {out : Intersected} (h : Merged safe depth l r space out) :
    Merged safe depth r l space out.invert := by
  cases out with
  | node n => exact Merge.symm h
  | disjoint d =>
      intro hexact hregular v
      rw [Bool.and_comm]
      exact h hexact hregular v
  | orthogonal => exact ⟨h.1.symm, fun hregular => (h.2 hregular).symm⟩

/-- One of two constraints is what they merge to. -/
theorem merge_left (hl : l.Calm safe (depth + 1) space) (hconstraint : l.kind.isConstraint = true)
    (hright : r.kind = .unit → l.kind = .unit ∧ l.sameType r = true)
    (hslots : l.kind ≠ .unit → r.kind ≠ .unit → l.slot? = r.slot?) (hnarrows : r.isBasis = true → l.Narrows r)
    (hallows : BlindToSign → space.Regular → ∀ v, l.allows v = true → r.allows v = true) :
    Merge safe depth space l r l where
  calm := hl
  isConstraint := hconstraint
  left := fun h => ⟨h, beq_self_eq_true _⟩
  right := hright
  slots := fun hl hr => ⟨hl, rfl, hslots hl hr⟩
  narrows := by
    rintro b (rfl | rfl) hb
    · exact narrows_of_outline hb rfl
    · exact hnarrows hb
  beside := fun _ _ hl _ => hl
  allows := by
    intro hblind hregular v
    refine .of_eq ?_
    have himp := hallows hblind hregular v
    cases hv : l.allows v with
    | false => rfl
    | true => rw [himp hv]; rfl

theorem merge_right (hr : r.Calm safe (depth + 1) space) (hconstraint : r.kind.isConstraint = true)
    (hleft : l.kind = .unit → r.kind = .unit ∧ r.sameType l = true)
    (hslots : l.kind ≠ .unit → r.kind ≠ .unit → l.slot? = r.slot?) (hnarrows : l.isBasis = true → r.Narrows l)
    (hallows : BlindToSign → space.Regular → ∀ v, r.allows v = true → l.allows v = true) :
    Merge safe depth space l r r :=
  (merge_left hr hconstraint hleft (fun hr hl => (hslots hl hr).symm) hnarrows hallows).symm

theorem merged_orthogonal (hl : l.kind ≠ .unit) (hr : r.kind ≠ .unit)
    (h : ∀ slot, l.slot? = some slot → r.slot? ≠ some slot) (hrange : ¬ l.Clash r) :
    Merged safe depth l r space .orthogonal :=
  ⟨beside_of_slots hl hr h hrange, fun _ => beside_of_slots hl hr h hrange⟩

omit [Behaviour] in
theorem kind_of_isRefinement {node : Node} (h : node.isRefinement = true) :
    node.kind ≠ .unit ∧ node.isBasis = false ∧ node.kind.isConstraint = true := by
  rw [isRefinement] at h
  rw [isBasis]
  generalize node.kind = kind at *
  cases kind <;> first | exact ⟨by decide, rfl, rfl⟩ | cases h

/-- What two refinements of one aspect merge to. -/
theorem merge_refinements (hl : l.isRefinement = true) (hr : r.isRefinement = true) (hn : n.isRefinement = true)
    (hslot : n.slot? = l.slot?) (hslot' : l.slot? = r.slot?) (hcalm : n.Calm safe (depth + 1) space)
    (hbeside : ∀ (exact : Bool) (x : Node), x.Beside exact l → x.Beside exact r → x.Beside exact n)
    (hallows : BlindToSign → space.Regular → ∀ v, Agrees safe.exact (n.allows v) (l.allows v && r.allows v)) :
    Merge safe depth space l r n where
  calm := hcalm
  isConstraint := (kind_of_isRefinement hn).2.2
  left := fun h => absurd h (kind_of_isRefinement hl).1
  right := fun h => absurd h (kind_of_isRefinement hr).1
  slots := fun _ _ => ⟨(kind_of_isRefinement hn).1, hslot, hslot.trans hslot'⟩
  narrows := by
    rintro b (rfl | rfl) hb
    · exact absurd hb (by rw [(kind_of_isRefinement hl).2.1]; exact Bool.false_ne_true)
    · exact absurd hb (by rw [(kind_of_isRefinement hr).2.1]; exact Bool.false_ne_true)
  beside := hbeside
  allows := hallows

/-- One of two refinements of one aspect is what they merge to. -/
theorem merge_left_refinement (hcalm : l.Calm safe (depth + 1) space) (hl : l.isRefinement = true)
    (hr : r.isRefinement = true) (hslot : l.slot? = r.slot?)
    (hallows : BlindToSign → space.Regular → ∀ v, l.allows v = true → r.allows v = true) :
    Merge safe depth space l r l := by
  obtain ⟨-, -, hconstraint⟩ := kind_of_isRefinement hl
  obtain ⟨hunit, hbasis, -⟩ := kind_of_isRefinement hr
  exact merge_left hcalm hconstraint (fun h => absurd h hunit) (fun _ _ => hslot)
    (fun h => absurd (hbasis.symm.trans h) Bool.false_ne_true) hallows

theorem merge_right_refinement (hcalm : r.Calm safe (depth + 1) space) (hl : l.isRefinement = true)
    (hr : r.isRefinement = true) (hslot : l.slot? = r.slot?)
    (hallows : BlindToSign → space.Regular → ∀ v, r.allows v = true → l.allows v = true) :
    Merge safe depth space l r r :=
  (merge_left_refinement hcalm hr hl hslot.symm hallows).symm

theorem not_allows_both (h : ∀ v, l.allows v = true → r.allows v = true → False) (v : Value) :
    (l.allows v && r.allows v) = false := by
  rw [Bool.eq_false_iff]
  intro hv
  obtain ⟨hl, hr⟩ := Bool.and_eq_true_iff.mp hv
  exact h v hl hr

-- ---------------------------------------------------------------------------
-- Bases
-- ---------------------------------------------------------------------------

theorem allows_unit (hvalid : space.Valid) (h : space.Holds n) {u v : Value} (hc : n.content = .unit u) :
    n.allows v = true ↔ u.unsigned = v.unsigned := by
  rw [hvalid.allows h, hc]
  exact Value.isUnitFor_iff

/-- Where the sign of zero does not count, a node that allows the value of a unit allows all that the unit does. -/
theorem allows_of_unit (hblind : BlindToSign) (hvalid : space.Valid) (h : space.Holds l) {u v : Value}
    (hc : l.content = .unit u) (hv : l.allows v = true) : r.allows v = r.allows u := by
  rw [← allows_unsigned hblind r v, ← (allows_unit hvalid h hc).mp hv, allows_unsigned hblind]

theorem meetUnit_spec (hblind : safe.exact → BlindToSign) (hvalid : space.Valid) (hl : l.Calm safe (depth + 1) space)
    (hr : space.Holds r) (hne : l.sameType r = false) {u : Value} (hc : l.content = .unit u) :
    Merged safe depth l r space (meetUnit l r u) := by
  have hkind : l.kind = .unit := by rw [kind, hc]; rfl
  unfold meetUnit
  split
  · rename_i hallows
    refine merge_left hl (by rw [hkind]; rfl) ?_ ?_ (fun _ => .inl hkind) ?_
    · intro hunit
      obtain ⟨w, hw⟩ : ∃ w, r.content = .unit w := by
        unfold kind at hunit
        cases hc : r.content with
        | unit w => exact ⟨w, rfl⟩
        | _ => rw [hc] at hunit; cases hunit
      have heq := (allows_unit hvalid hr hw).mp hallows
      rw [hvalid.sameType_of_unit hl.holds hr hc hw heq.symm] at hne
      cases hne
    · intro hunit
      exact absurd hkind hunit
    · intro hblind _ v hv
      rw [allows_of_unit hblind hvalid hl.holds hc hv]
      exact hallows
  · rename_i hrefuses
    have hnone : safe.exact → space.Regular → ∀ v, (l.allows v && r.allows v) = false := by
      intro hexact _ v
      cases hv : l.allows v with
      | false => rfl
      | true =>
          rw [allows_of_unit (hblind hexact) hvalid hl.holds hc hv]
          simpa using hrefuses
    split
    · exact hnone
    · exact hnone

theorem allows_proto (hvalid : space.Valid) (h : space.Holds n) {p : Proto} {v : Value} (hc : n.content = .proto p) :
    n.allows v = true ↔ ∃ o, v = .object o ∧ o.isInstanceOf p = true := by
  rw [hvalid.allows h, hc]
  cases v <;> simp [Content.allows]

theorem allows_domain (hvalid : space.Valid) (h : space.Holds n) {d : Domain} {v : Value}
    (hc : n.content = .domain d) : n.allows v = true ↔ v.domain = d := by
  rw [hvalid.allows h, hc]
  simp [Content.allows]

theorem meetProtos_spec (hvalid : space.Valid) (hl : l.Calm safe (depth + 1) space)
    (hr : r.Calm safe (depth + 1) space) {a b : Proto} (ha : l.content = .proto a) (hb : r.content = .proto b) :
    Merged safe depth l r space (meetProtos l r a b) := by
  have hkind : l.kind = .proto := by rw [kind, ha]; rfl
  have hkind' : r.kind = .proto := by rw [kind, hb]; rfl
  have hslots : l.slot? = r.slot? := by rw [slot?, slot?, ha, hb]; rfl
  have hunit {n : Node} (h : n.kind = .proto) : ¬ n.kind = .unit := by rw [h]; decide
  have hnarrows {x y : Node} {p q : Proto} (hx : x.content = .proto p) (hy : y.content = .proto q)
      (hsub : p.isSubclassOf q = true) : x.Narrows y := by
    refine narrows_of_proto (by rw [kind, hy]; rintro ⟨⟩) (by rw [isBasis, kind, hx]; rfl) ?_ ?_
    · rw [basisDomain?, basisDomain?, hx, hy]
    · rw [basisProto?, basisProto?, hx, hy]
      rintro _ ⟨⟩
      exact ⟨p, rfl, hsub⟩
  unfold meetProtos
  split
  · rename_i hsub
    refine merge_left hl (by rw [hkind]; rfl) (fun h => absurd h (hunit hkind')) (fun _ _ => hslots)
      (fun _ => hnarrows ha hb hsub) ?_
    intro _ _ v hv
    obtain ⟨o, rfl, ho⟩ := (allows_proto hvalid hl.holds ha).mp hv
    exact (allows_proto hvalid hr.holds hb).mpr ⟨o, rfl, Object.isInstanceOf_of_isSubclassOf ho hsub⟩
  · split
    · rename_i hsub
      refine merge_right hr (by rw [hkind']; rfl) (fun h => absurd h (hunit hkind)) (fun _ _ => hslots)
        (fun _ => hnarrows hb ha hsub) ?_
      intro _ _ v hv
      obtain ⟨o, rfl, ho⟩ := (allows_proto hvalid hr.holds hb).mp hv
      exact (allows_proto hvalid hl.holds ha).mpr ⟨o, rfl, Object.isInstanceOf_of_isSubclassOf ho hsub⟩
    · rename_i hsub hsub'
      intro _ _
      refine not_allows_both fun v hv hv' => ?_
      obtain ⟨o, rfl, ho⟩ := (allows_proto hvalid hl.holds ha).mp hv
      obtain ⟨o', heq, ho'⟩ := (allows_proto hvalid hr.holds hb).mp hv'
      cases heq
      rcases Object.isSubclassOf_of_isInstanceOf ho ho' with h | h
      · exact hsub h
      · exact hsub' h

theorem meetProtoDomain_spec (hvalid : space.Valid) (hl : l.Calm safe (depth + 1) space) (hr : space.Holds r)
    {p : Proto} {d : Domain} (hp : l.content = .proto p) (hd : r.content = .domain d) :
    Merged safe depth l r space (if d = .object then .node l else .disjoint (.between .domain l r)) := by
  have hkind : l.kind = .proto := by rw [kind, hp]; rfl
  have hkind' : r.kind = .domain := by rw [kind, hd]; rfl
  split
  · rename_i hobject
    refine merge_left hl (by rw [hkind]; rfl) ?_ ?_ (fun _ => ?_) ?_
    · intro h
      rw [hkind'] at h
      cases h
    · intro _ _
      rw [slot?, slot?, hp, hd]
      rfl
    · refine narrows_of_proto (by rw [hkind']; rintro ⟨⟩) (by rw [isBasis, hkind]; rfl) ?_ ?_
      · rw [basisDomain?, basisDomain?, hp, hd, hobject]
      · rw [basisProto?, hd]
        rintro _ ⟨⟩
    · intro _ _ v hv
      obtain ⟨o, rfl, -⟩ := (allows_proto hvalid hl.holds hp).mp hv
      exact (allows_domain hvalid hr hd).mpr hobject.symm
  · rename_i hobject
    intro _ _
    refine not_allows_both fun v hv hv' => ?_
    obtain ⟨o, rfl, -⟩ := (allows_proto hvalid hl.holds hp).mp hv
    exact hobject ((allows_domain hvalid hr hd).mp hv').symm

theorem meetDomains_spec (hvalid : space.Valid) (hl : space.Holds l) (hr : space.Holds r)
    (hne : l.sameType r = false) {d d' : Domain} (hd : l.content = .domain d) (hd' : r.content = .domain d') :
    Merged safe depth l r space (.disjoint (.between .domain l r)) := by
  intro _ _
  refine not_allows_both fun v hv hv' => ?_
  have heq := ((allows_domain hvalid hl hd).mp hv).symm.trans ((allows_domain hvalid hr hd').mp hv')
  rw [hvalid.sameType_of_content hl hr (by rw [hd, hd', heq])] at hne
  cases hne

-- ---------------------------------------------------------------------------
-- Refinements without nodes in them
-- ---------------------------------------------------------------------------

omit [Behaviour] in
/-- The limits of bounds are numbers. -/
theorem limit_isNaN (hvalid : space.Valid) (hn : space.Holds n) {side : BoundSide} {bound : Bound}
    (h : n.content = side.content bound) : bound.limit.isNaN = false := by
  have hsound := (hvalid.written n hn).sound
  rw [h] at hsound
  cases side <;> exact hsound

theorem meetBounds_spec (hvalid : space.Valid) (hl : l.Calm safe (depth + 1) space)
    (hr : r.Calm safe (depth + 1) space) {side : BoundSide} {a b : Bound} (ha : l.content = side.content a)
    (hb : r.content = side.content b) : Merged safe depth l r space (meetBounds side l r a b) := by
  have hkind : l.kind = r.kind := by rw [kind, kind, ha, hb]; cases side <;> rfl
  have hrefinement : l.isRefinement = true := by rw [isRefinement, kind, ha]; cases side <;> rfl
  have hrefinement' : r.isRefinement = true := by rw [isRefinement, kind, hb]; cases side <;> rfl
  have hallows (v : Value) : l.allows v = a.allows side v := by
    rw [hvalid.allows hl.holds, ha]; cases side <;> rfl
  have hallows' (v : Value) : r.allows v = b.allows side v := by
    rw [hvalid.allows hr.holds, hb]; cases side <;> rfl
  unfold meetBounds
  split
  · rename_i haxis
    refine merged_orthogonal (kind_of_isRefinement hrefinement).1 (kind_of_isRefinement hrefinement').1 ?_ ?_
    · intro slot hslot hslot'
      rw [slot?, ha] at hslot
      rw [slot?, hb] at hslot'
      cases side <;> cases hslot <;> exact haxis (by simpa [BoundSide.content, Content.slot?] using hslot'.symm)
    · intro hclash
      rcases hclash.kinds with ⟨hkl, hkr⟩ | ⟨hkl, hkr⟩ <;> rw [hkind, hkr] at hkl <;> cases hkl
  · rename_i haxis
    have haxis : a.axis = b.axis := not_not.mp haxis
    have hslots : l.slot? = r.slot? := by
      rw [slot?, slot?, ha, hb]
      cases side <;> exact congrArg some (by rw [haxis])
    have hstrict (v : Value) := @Bound.allows_isStricter side a b (limit_isNaN hvalid hl.holds ha)
      (limit_isNaN hvalid hr.holds hb) haxis v
    split
    · rename_i hleft
      refine merge_left_refinement hl hrefinement hrefinement' hslots ?_
      intro _ _ v hv
      have hboth := hstrict v
      rw [if_pos hleft, ← hallows, ← hallows', hv] at hboth
      simpa using hboth.symm
    · rename_i hleft
      refine merge_right_refinement hr hrefinement hrefinement' hslots ?_
      intro _ _ v hv
      have hboth := hstrict v
      rw [if_neg hleft, ← hallows, ← hallows', hv] at hboth
      simpa using hboth.symm

theorem meetRange_spec (hvalid : space.Valid) (hl : space.Holds l) (hr : space.Holds r) {max min : Bound}
    (hmax : l.content = .max max) (hmin : r.content = .min min) :
    Merged safe depth l r space (meetRange l r max min) := by
  unfold meetRange
  split
  · rename_i h
    intro _ _ v
    rw [hvalid.allows hl, hvalid.allows hr, hmax, hmin]
    exact Bound.not_allows_both h.1 h.2 v
  · rename_i h
    refine merged_orthogonal (by rw [kind, hmax]; rintro ⟨⟩) (by rw [kind, hmin]; rintro ⟨⟩) ?_ ?_
    · intro slot hslot hslot'
      rw [slot?, hmax] at hslot
      rw [slot?, hmin] at hslot'
      cases hslot
      cases hslot'
    · rintro ⟨max', min', ⟨ha, hb⟩ | ⟨ha, hb⟩, hclash⟩
      · rw [hmax] at ha
        rw [hmin] at hb
        cases ha
        cases hb
        exact h hclash
      · rw [hmax] at ha
        cases ha

omit [Behaviour] in
/-- What stands beside a divisor stands beside its multiples. -/
theorem beside_multiple {exact : Bool} {x : Node} {a multiple : Nat} (h : x.Beside exact l)
    (ha : l.content = .divisor a) (hn : n.content = .divisor multiple) (hdvd : a ∣ multiple) (hpos : 0 < multiple) :
    x.Beside exact n := by
  have hslot : n.slot? = l.slot? := by rw [slot?, slot?, ha, hn]; rfl
  refine ⟨⟨h.left, by rw [kind, hn]; rintro ⟨⟩, fun slot hs hs' => h.slots slot hs (hslot ▸ hs')⟩, ?_, ?_⟩
  · intro d d' hd hd'
    rw [hn] at hd'
    cases hd'
    have hnone := leastCommonMultiple?_eq_none.mp (h.overflow d a hd ha)
    have hdpos : 0 < d := by
      refine Nat.pos_of_ne_zero ?_
      rintro rfl
      rw [Nat.lcm_zero_left] at hnone
      exact absurd hnone (by decide)
    refine leastCommonMultiple?_eq_none.mpr (hnone.trans (Nat.le_of_dvd (Nat.lcm_pos hdpos hpos) ?_))
    exact Nat.lcm_dvd (Nat.dvd_lcm_left d multiple) (hdvd.trans (Nat.dvd_lcm_right d multiple))
  · exact not_clash_of_kind (by rw [kind, hn]; rintro ⟨⟩) (by rw [kind, hn]; rintro ⟨⟩)

omit [Behaviour] in
/-- Divisors whose least common multiple does not fit stay side by side. -/
theorem beside_of_overflow {a b : Nat} (ha : l.content = .divisor a) (hb : r.content = .divisor b)
    (h : leastCommonMultiple? a b = none) : l.Beside false r where
  left := by rw [kind, ha]; rintro ⟨⟩
  right := by rw [kind, hb]; rintro ⟨⟩
  slots := by
    intro slot hs _
    rw [slot?, ha] at hs
    exact ⟨(Option.some.inj hs).symm, rfl⟩
  overflow := by
    intro d d' hd hd'
    rw [ha] at hd
    rw [hb] at hd'
    cases hd
    cases hd'
    exact h
  range := not_clash_of_kind (by rw [kind, hb]; rintro ⟨⟩) (by rw [kind, hb]; rintro ⟨⟩)

/-- In a regular space that noted it, the least common multiple of two divisors says what both say. -/
theorem allows_multiple (hvalid : space.Valid) (hregular : space.Regular) (hl : space.Holds l) (hr : space.Holds r)
    {a b : Nat} (ha : l.content = .divisor a) (hb : r.content = .divisor b)
    (hnoted : Event.multiple (leastCommonMultiple a b) ∈ space.trace) (v : Value) :
    Number.isDivisibleBy (leastCommonMultiple a b) v = (l.allows v && r.allows v) := by
  have hexact := hregular.exact l hl
  have hexact' := hregular.exact r hr
  rw [ha] at hexact
  rw [hb] at hexact'
  rw [Number.isDivisibleBy_lcm hexact hexact' (hregular.multiples _ hnoted), hvalid.allows hl, hvalid.allows hr, ha, hb]
  rfl

/-- The least common multiple of two divisors, interned. -/
theorem merge_multiple (hvalid : space.Valid) (hl : space.Holds l) (hr : space.Holds r) {a b : Nat}
    (ha : l.content = .divisor a) (hb : r.content = .divisor b) (hpos : 0 < leastCommonMultiple a b)
    (hnoted : Event.multiple (leastCommonMultiple a b) ∈ space.trace)
    (hinterned : space.Interned (.divisor (leastCommonMultiple a b)) n) : Merge safe depth space l r n := by
  have hcontent := Content.eq_divisor_of_outline hinterned.outline
  refine merge_refinements (by rw [isRefinement, kind, ha]; rfl) (by rw [isRefinement, kind, hb]; rfl)
    (by rw [isRefinement, kind, hcontent]; rfl) (by rw [slot?, slot?, hcontent, ha]; rfl)
    (by rw [slot?, slot?, ha, hb]; rfl) ?_ ?_ ?_
  · exact hinterned.calm_leaf hvalid (fun hregular => hregular.multiples _ hnoted) rfl rfl (by rintro ⟨⟩) (by rintro ⟨⟩)
  · intro exact x hx _
    refine beside_multiple hx ha hcontent ?_ hpos
    rw [leastCommonMultiple_eq]
    exact Nat.dvd_lcm_left a b
  · intro _ hregular v
    rw [← allows_multiple hvalid hregular hl hr ha hb hnoted, hvalid.allows hinterned.holds, hcontent]
    exact .refl _

omit [Behaviour] in
/-- Divisors are positive numbers of 64 bits. -/
theorem divisor_fits (hvalid : space.Valid) (hn : space.Holds n) {d : Nat} (hd : n.content = .divisor d) :
    0 < d ∧ d < Nat.pow 2 64 := by
  have hsound := (hvalid.written n hn).sound
  have hcanonical := hvalid.canonical n hn
  rw [hd] at hsound hcanonical
  exact ⟨hsound, hcanonical⟩

omit [Behaviour] in
theorem multiple_pos (hvalid : space.Valid) (hl : space.Holds l) (hr : space.Holds r) {a b : Nat}
    (ha : l.content = .divisor a) (hb : r.content = .divisor b) : 0 < leastCommonMultiple a b := by
  rw [leastCommonMultiple_eq]
  exact Nat.lcm_pos (divisor_fits hvalid hl ha).1 (divisor_fits hvalid hr hb).1

omit [Behaviour] in
/-- Positive divisors of 64 bits merge by their least common multiple of any size, if it fits. -/
theorem meetDivisors_eq {a b : Nat} (ha : 0 < a ∧ a < Nat.pow 2 64) (hb : 0 < b ∧ b < Nat.pow 2 64) :
    meetDivisors l r a b = do
      SpaceM.note (.multiple (leastCommonMultiple a b))
      match leastCommonMultiple? a b with
      | none => return .orthogonal
      | some multiple =>
        if multiple = a then return .node l
        else if multiple = b then return .node r
        else return .node (← SpaceM.internPlain (.divisor multiple)) := by
  obtain ⟨multiple, hok, hmultiple⟩ := Word.lcm_ofNat ha hb
  rw [meetDivisors, hok, ← hmultiple]
  cases multiple <;> rfl

theorem meetDivisors_spec (hvalid : space.Valid) (hl : l.Calm safe (depth + 1) space)
    (hr : r.Calm safe (depth + 1) space) {a b : Nat} (ha : l.content = .divisor a) (hb : r.content = .divisor b) :
    Ensures ground safe space (meetDivisors l r a b) fun later out => Merged safe depth l r later out := by
  have hrefinement : l.isRefinement = true := by rw [isRefinement, kind, ha]; rfl
  have hrefinement' : r.isRefinement = true := by rw [isRefinement, kind, hb]; rfl
  have hslots : l.slot? = r.slot? := by rw [slot?, slot?, ha, hb]; rfl
  have hposMultiple := multiple_pos hvalid hl.holds hr.holds ha hb
  rw [meetDivisors_eq (divisor_fits hvalid hl.holds ha) (divisor_fits hvalid hr.holds hb)]
  refine (Ensures.note hvalid).bind ?_
  rintro later ⟨⟩ hvalid hext hnoted
  have hl := hl.extends hext
  have hr := hr.extends hext
  have hboth (hregular : later.Regular) := allows_multiple hvalid hregular hl.holds hr.holds ha hb hnoted
  cases hmultiple : leastCommonMultiple? a b with
  | none =>
      refine Ensures.pure hvalid ⟨beside_of_overflow ha hb hmultiple, fun hregular => ?_⟩
      refine absurd (hregular.multiples _ hnoted) ?_
      rw [leastCommonMultiple_eq]
      exact Nat.not_le.mpr (Nat.lt_of_lt_of_le (by decide) (leastCommonMultiple?_eq_none.mp hmultiple))
  | some multiple =>
      obtain ⟨rfl, hlt⟩ := leastCommonMultiple?_eq_some hmultiple
      dsimp only
      split
      · rename_i hleft
        refine Ensures.pure hvalid (merge_left_refinement hl hrefinement hrefinement' hslots fun _ hregular v hv => ?_)
        have hall := hboth hregular v
        rw [hleft, hv] at hall
        rw [hvalid.allows hl.holds, ha] at hv
        exact hall.symm.trans hv
      split
      · rename_i hright
        refine Ensures.pure hvalid (merge_right_refinement hr hrefinement hrefinement' hslots fun _ hregular v hv => ?_)
        have hall := hboth hregular v
        rw [hright, hv, Bool.and_true] at hall
        rw [hvalid.allows hr.holds, hb] at hv
        exact hall.symm.trans hv
      · have hready : (Content.divisor (leastCommonMultiple a b)).Ready ground later .none :=
          ⟨hposMultiple, hlt, List.forall_mem_nil _, fun _ _ => trivial⟩
        refine (Ensures.intern hvalid hready).bind fun final n hfinal hext' hinterned => Ensures.pure hfinal ?_
        exact merge_multiple hfinal (hext'.holds l hl.holds) (hext'.holds r hr.holds) ha hb hposMultiple
          (hext'.trace _ hnoted) hinterned

-- ---------------------------------------------------------------------------
-- Properties
-- ---------------------------------------------------------------------------

/-- How properties of a kind are made from their values under a key. What they allow without the key is `missing`. -/
structure MakesProp (make : Node → Content Node) (key : PropKey) (kind : Kind) (missing : Bool) : Prop where
  isProp : kind = .required ∨ kind = .optional
  sampled : ∀ sample value, (make value).SampledBy sample ↔ (missing = true → value.allows (sample key) = true)
  ofKind : ∀ value, (make value).kind = kind
  slot : ∀ value other, (make value).slot? = (make other).slot?
  children : ∀ value, (make value).children = [value]
  nesting : ∀ value, contentNesting (make value) = value.nesting + 1
  exact_iff : ∀ value, (make value).Exact ↔ value.isRefinement = false
  ready : ∀ (ground : Prop) (space : Space) value, space.Holds value → (make value).Ready ground space .none
  allows : ∀ value v, Content.allows none (make value) v =
    match v.get? key with
    | some x => value.allows x
    | none => missing

theorem makes_required (key : PropKey) : MakesProp (.required key) key .required false where
  isProp := .inl rfl
  sampled := fun _ _ => ⟨(by rintro - ⟨⟩), fun _ => trivial⟩
  ofKind := fun _ => rfl
  slot := fun _ _ => rfl
  children := fun _ => rfl
  nesting := fun _ => rfl
  exact_iff := fun _ => .rfl
  ready := fun _ _ _ h => ⟨trivial, trivial, List.forall_mem_singleton.mpr h, fun _ _ => trivial⟩
  allows := fun value v => by cases h : v.get? key <;> simp only [Content.allows, h]

theorem makes_optional (key : PropKey) : MakesProp (.optional key) key .optional true where
  isProp := .inr rfl
  sampled := fun _ _ => ⟨fun h _ => h, fun h => h rfl⟩
  ofKind := fun _ => rfl
  slot := fun _ _ => rfl
  children := fun _ => rfl
  nesting := fun _ => rfl
  exact_iff := fun _ => .rfl
  ready := fun _ _ _ h => ⟨trivial, trivial, List.forall_mem_singleton.mpr h, fun _ _ => trivial⟩
  allows := fun value v => by cases h : v.get? key <;> simp only [Content.allows, h]

variable {make : Node → Content Node} {key : PropKey} {kind : Kind} {missing : Bool} {a b : Node}

theorem MakesProp.kind_eq (h : MakesProp make key kind missing) {node value : Node} (hc : node.content = make value) :
    node.kind = kind := by
  rw [Node.kind, hc, h.ofKind]

theorem MakesProp.isRefinement (h : MakesProp make key kind missing) {node value : Node}
    (hc : node.content = make value) : node.isRefinement = true := by
  rw [Node.isRefinement, h.kind_eq hc]
  rcases h.isProp with rfl | rfl <;> rfl

theorem MakesProp.slot?_eq (h : MakesProp make key kind missing) {node other value value' : Node}
    (hc : node.content = make value) (hc' : other.content = make value') : node.slot? = other.slot? := by
  rw [slot?, slot?, hc, hc', h.slot value value']

theorem MakesProp.allows_eq (h : MakesProp make key kind missing) (hvalid : space.Valid) {node value : Node}
    (hnode : space.Holds node) (hc : node.content = make value) (v : Value) : node.allows v =
      match v.get? key with
      | some x => value.allows x
      | none => missing := by
  rw [hvalid.allows hnode, hc, h.allows]

/-- No property of a regular space holds a bare refinement. -/
theorem MakesProp.root (h : MakesProp make key kind missing) {node value : Node} (hnode : space.Holds node)
    (hc : node.content = make value) (hregular : space.Regular) : value.isRefinement = false := by
  have hexact := hregular.exact node hnode
  rw [hc] at hexact
  exact (h.exact_iff value).mp hexact

/-- The value of a property is one level less deep, and no bare refinement. -/
theorem MakesProp.within (h : MakesProp make key kind missing) (hvalid : space.Valid) {node value : Node}
    (hnode : node.Calm safe (depth + 1) space) (hc : node.content = make value) : value.Within safe depth space := by
  refine ⟨hnode.deeper hvalid ?_ ?_, fun _ => h.root hnode.holds hc⟩
  · rw [Node.children, hc, h.children]
    exact List.mem_cons_self
  · rw [nesting_eq node, hc, h.nesting]

/-- Where an exact result is promised, a property that may be missing allows the sample of its key. -/
theorem MakesProp.sample (h : MakesProp make key kind missing) {node value : Node}
    (hnode : node.Calm safe (depth + 1) space) (hexact : safe.exact) (hregular : space.Regular)
    (hc : node.content = make value) (hmissing : missing = true) : value.allows (safe.sample key) = true := by
  have hsampled := hnode.sampledBy hexact hregular
  rw [hc] at hsampled
  exact (h.sampled _ value).mp hsampled hmissing

/-- The conjunction of the values of two properties, interned as a property. -/
theorem MakesProp.merge (h : MakesProp make key kind missing) (hblind : safe.exact → BlindToSign) (hvalid : space.Valid)
    (hl : l.Calm safe (depth + 1) space) (hr : r.Calm safe (depth + 1) space) (ha : l.content = make a)
    (hb : r.content = make b) {value : Node} (hvalue : Conjunct safe depth a b space value)
    (hinterned : space.Interned (make value) n) : Merge safe depth space l r n := by
  have hkind : n.kind = kind := (Content.kind_eq_of_outline hinterned.outline).trans (h.ofKind value)
  have hrefinement : n.isRefinement = true := by
    rw [Node.isRefinement, hkind, ← h.kind_eq ha]
    exact h.isRefinement ha
  have hslot : n.slot? = l.slot? := by
    rw [slot?, slot?, Content.slot?_eq_of_outline hinterned.outline, ha, h.slot value a]
  have hchildren : ∀ c ∈ (make value).children, space.Holds c := by
    rw [h.children]
    exact List.forall_mem_singleton.mpr hvalue.calm.holds
  have hexact (hregular : space.Regular) : (make value).Exact :=
    (h.exact_iff value).mpr (hvalue.root (h.root hl.holds ha hregular) (h.root hr.holds hb hregular))
  refine merge_refinements (h.isRefinement ha) (h.isRefinement hb) hrefinement hslot (h.slot?_eq ha hb) ?_ ?_ ?_
  · refine hinterned.calm hvalid hexact hchildren (fun hsafe hregular => ⟨?_, fun hall => ?_⟩) (fun hsafe hregular => ?_)
      fun hregular => ?_
    · rw [h.ofKind, ← h.kind_eq ha]
      exact (hl.admitted hsafe hregular).self.1
    · refine (h.sampled _ value).mpr fun hmissing => ?_
      rw [(hvalue.allows (hblind hall) hregular _).eq hall, h.sample hl hall hregular ha hmissing,
        h.sample hr hall hregular hb hmissing]
      rfl
    · rw [h.children]
      exact List.forall_mem_singleton.mpr (hvalue.calm.admitted hsafe hregular)
    · rw [h.nesting]
      exact Nat.succ_lt_succ (hvalue.calm.shallow hregular)
  · intro exact x hx _
    refine ⟨⟨hx.left, (kind_of_isRefinement hrefinement).1, fun slot hs hs' => hx.slots slot hs (hslot ▸ hs')⟩, ?_, ?_⟩
    · intro d d' _ hd'
      rw [Node.kind, hd'] at hkind
      rcases h.isProp with rfl | rfl <;> cases hkind
    · refine not_clash_of_kind ?_ ?_ <;> rw [hkind] <;> rcases h.isProp with rfl | rfl <;> rintro ⟨⟩
  · intro hblind hregular v
    rw [(hinterned.means hregular (hexact hregular)).allows hvalid hinterned.holds hchildren, h.allows,
      h.allows_eq hvalid hl.holds ha, h.allows_eq hvalid hr.holds hb]
    cases v.get? key with
    | none => exact .of_eq (Bool.and_self missing).symm
    | some x => exact hvalue.allows hblind hregular x

/-- Properties of one kind and key: the values are intersected. -/
theorem meetProps_spec {meet : Meet} (hmeet : Conjoins ground safe depth meet) (hblind : safe.exact → BlindToSign)
    (hvalid : space.Valid)
    (hl : l.Calm safe (depth + 1) space) (hr : r.Calm safe (depth + 1) space) (h : MakesProp make key kind missing)
    (ha : l.content = make a) (hb : r.content = make b) :
    Ensures ground safe space (meetProps meet make l r key a b) fun later out => Merged safe depth l r later out := by
  have hrefinement := h.isRefinement ha
  have hrefinement' := h.isRefinement hb
  have hslots := h.slot?_eq ha hb
  unfold meetProps
  refine (hmeet space a b hvalid (h.within hvalid hl ha) (h.within hvalid hr hb)).bind ?_
  intro later out hvalid' hext hout
  have hl := hl.extends hext
  have hr := hr.extends hext
  have hallowsl := h.allows_eq hvalid' hl.holds ha
  have hallowsr := h.allows_eq hvalid' hr.holds hb
  cases out with
  | node value =>
      have hout : Conjunct safe depth a b later value := hout
      dsimp only
      split
      · rename_i hsame
        refine Ensures.pure hvalid' (merge_left_refinement hl hrefinement hrefinement' hslots ?_)
        intro hblind hregular v
        rw [hallowsl, hallowsr]
        cases v.get? key with
        | none => exact fun h => h
        | some x => exact hout.right_of_left hvalid' (h.within hvalid' hl ha).holds hsame hblind hregular
      split
      · rename_i hsame
        refine Ensures.pure hvalid' (merge_right_refinement hr hrefinement hrefinement' hslots ?_)
        intro hblind hregular v
        rw [hallowsl, hallowsr]
        cases v.get? key with
        | none => exact fun h => h
        | some x => exact hout.left_of_right hvalid' (h.within hvalid' hr hb).holds hsame hblind hregular
      · refine (Ensures.intern hvalid' (h.ready ground later value hout.calm.holds)).bind ?_
        intro final n hfinal hext' hinterned
        refine Ensures.pure hfinal ?_
        exact h.merge hblind hfinal (hl.extends hext') (hr.extends hext') ha hb (hout.extends hext') hinterned
  | disjoint d =>
      refine Ensures.pure hvalid' fun hexact hregular v => ?_
      -- Optional properties allow the sample, so these two are required, and the key is there.
      have hmissing : missing = false := by
        rw [Bool.eq_false_iff]
        intro hmissing
        have hnone := hout hexact hregular (safe.sample key)
        rw [h.sample hl hexact hregular ha hmissing, h.sample hr hexact hregular hb hmissing] at hnone
        cases hnone
      rw [hallowsl, hallowsr, hmissing]
      cases v.get? key with
      | none => rfl
      | some x => exact hout hexact hregular x
  | orthogonal => exact hout.elim

/-- Properties of one kind, whatever their keys. -/
theorem meetKeys_spec {meet : Meet} (hmeet : Conjoins ground safe depth meet) (hblind : safe.exact → BlindToSign)
    (hvalid : space.Valid)
    (hl : l.Calm safe (depth + 1) space) (hr : r.Calm safe (depth + 1) space) {key' : PropKey}
    (h : MakesProp make key kind missing) {make' : Node → Content Node} (h' : MakesProp make' key' kind missing)
    (hslot : key ≠ key' → ∀ slot, (make a).slot? = some slot → (make' b).slot? ≠ some slot)
    (hsame : key = key' → make = make') (ha : l.content = make a) (hb : r.content = make' b) :
    Ensures ground safe space (if key = key' then meetProps meet make l r key a b else return .orthogonal)
      fun later out => Merged safe depth l r later out := by
  split
  · rename_i heq
    exact meetProps_spec hmeet hblind hvalid hl hr h ha (hsame heq ▸ hb)
  · rename_i hne
    refine Ensures.pure hvalid (merged_orthogonal (kind_of_isRefinement (h.isRefinement ha)).1
      (kind_of_isRefinement (h'.isRefinement hb)).1 ?_ ?_)
    · intro slot hs hs'
      rw [slot?, ha] at hs
      rw [slot?, hb] at hs'
      exact hslot hne slot hs hs'
    · refine not_clash_of_kind ?_ ?_ <;> rw [h'.kind_eq hb] <;> rcases h'.isProp with rfl | rfl <;> rintro ⟨⟩

-- ---------------------------------------------------------------------------
-- Constraints
-- ---------------------------------------------------------------------------

/-- Constraints in order of kind and of different types. -/
theorem meetConstraints_spec {meet : Meet} (hmeet : Conjoins ground safe depth meet) (hblind : safe.exact → BlindToSign)
    (hvalid : space.Valid) (hl : l.Calm safe (depth + 1) space) (hr : r.Calm safe (depth + 1) space)
    (hcl : l.kind.isConstraint = true) (hcr : r.kind.isConstraint = true) (horder : l.kind.order ≤ r.kind.order)
    (hne : l.sameType r = false) :
    Ensures ground safe space (meetConstraints meet l r) fun later out => Merged safe depth l r later out := by
  unfold meetConstraints
  split
  · rename_i hu
    exact Ensures.pure hvalid (meetUnit_spec hblind hvalid hl hr.holds hne hu)
  · rename_i ha hb
    exact Ensures.pure hvalid (meetProtos_spec hvalid hl hr ha hb)
  · rename_i hp hd
    exact Ensures.pure hvalid (meetProtoDomain_spec hvalid hl hr.holds hp hd)
  · rename_i hd hd'
    exact Ensures.pure hvalid (meetDomains_spec hvalid hl.holds hr.holds hne hd hd')
  · rename_i ha hb
    exact meetDivisors_spec hvalid hl hr ha hb
  · rename_i ha hb
    exact Ensures.pure hvalid (@meetBounds_spec _ safe depth space l r hvalid hl hr .max _ _ ha hb)
  · rename_i ha hb
    exact Ensures.pure hvalid (@meetBounds_spec _ safe depth space l r hvalid hl hr .min _ _ ha hb)
  · rename_i ha hb
    exact Ensures.pure hvalid (meetRange_spec hvalid hl.holds hr.holds ha hb)
  · rename_i key a key' b ha hb
    refine meetKeys_spec hmeet hblind hvalid hl hr (makes_required key) (makes_required key') ?_ (congrArg _) ha hb
    rintro hkey slot ⟨⟩ hs
    exact hkey (Slot.required.inj (Option.some.inj hs).symm)
  · rename_i key a key' b ha hb
    refine meetKeys_spec hmeet hblind hvalid hl hr (makes_optional key) (makes_optional key') ?_ (congrArg _) ha hb
    rintro hkey slot ⟨⟩ hs
    exact hkey (Slot.optional.inj (Option.some.inj hs).symm)
  · rename_i hunit hproto hprotoDomain hdomain hdivisor hmax hmin hrange hrequired hoptional
    rw [if_pos (by rw [hcl, hcr]; rfl)]
    have hnu : l.kind ≠ .unit := by
      intro h
      unfold kind at h
      cases hc : l.content with
      | unit v => exact hunit v hc
      | _ => rw [hc] at h; cases h
    refine Ensures.pure hvalid (merged_orthogonal hnu (not_unit_of_order hcl horder hnu) ?_ ?_)
    · intro slot hs hs'
      have hcontent := slot?_eq_some hs
      have hcontent' := slot?_eq_some hs'
      have hsame (h : l.content = r.content) : False := by
        rw [hvalid.sameType_of_content hl.holds hr.holds h] at hne
        cases hne
      cases slot with
      | basis =>
          rcases basis_cases hcontent with ⟨v, hv⟩ | ⟨p, hp⟩ | ⟨d, hd⟩
          · exact hunit v hv
          · rcases basis_cases hcontent' with ⟨v, hv⟩ | ⟨q, hq⟩ | ⟨d, hd⟩
            · rw [kind, kind, hp, hv] at horder
              simp [Content.kind, Kind.order] at horder
            · exact hproto p q hp hq
            · exact hprotoDomain p d hp hd
          · rcases basis_cases hcontent' with ⟨v, hv⟩ | ⟨q, hq⟩ | ⟨d', hd'⟩
            · rw [kind, kind, hd, hv] at horder
              simp [Content.kind, Kind.order] at horder
            · rw [kind, kind, hd, hq] at horder
              simp [Content.kind, Kind.order] at horder
            · exact hdomain d d' hd hd'
      | divisor =>
          obtain ⟨d, hd⟩ := hcontent
          obtain ⟨d', hd'⟩ := hcontent'
          exact hdivisor d d' hd hd'
      | max axis =>
          obtain ⟨bound, hb, -⟩ := hcontent
          obtain ⟨bound', hb', -⟩ := hcontent'
          exact hmax bound bound' hb hb'
      | min axis =>
          obtain ⟨bound, hb, -⟩ := hcontent
          obtain ⟨bound', hb', -⟩ := hcontent'
          exact hmin bound bound' hb hb'
      | pattern p => exact hsame (hcontent.trans hcontent'.symm)
      | predicate p => exact hsame (hcontent.trans hcontent'.symm)
      | required key =>
          obtain ⟨value, hvalue⟩ := hcontent
          obtain ⟨value', hvalue'⟩ := hcontent'
          exact hrequired key value key value' hvalue hvalue'
      | optional key =>
          obtain ⟨value, hvalue⟩ := hcontent
          obtain ⟨value', hvalue'⟩ := hcontent'
          exact hoptional key value key value' hvalue hvalue'
    · rintro ⟨max, min, ⟨ha, hb⟩ | ⟨ha, hb⟩, -⟩
      · exact hrange max min ha hb
      · rw [kind, kind, ha, hb] at horder
        simp [Content.kind, Kind.order] at horder

end Node

end SchemaAlgebra
