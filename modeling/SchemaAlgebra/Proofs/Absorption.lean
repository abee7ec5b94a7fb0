-- SUMMARY: Conjoining nodes without unions and morphs: the outcome says what both say, and no more than one that says all of it.
import SchemaAlgebra.Proofs.Conjunctions
import SchemaAlgebra.Proofs.Entailment

/-!
# Absorption

A conjunction of simple nodes says all that either says. If one of the two says all
that the other says, there is a conjunction, and it says no more than that one. So
whether the conjunction is of the type of an operand tells whether that operand says
all that the other says, whichever comes first.
-/

namespace SchemaAlgebra

open SpaceM (Ensures)

-- ---------------------------------------------------------------------------
-- Computations
-- ---------------------------------------------------------------------------

namespace SpaceM

variable {α : Type} {ground : Prop} {space : Space} {x : SpaceM α} {P Q : Space → α → Prop}

/-- What holds from a regular space on holds if the space is regular in the end. -/
theorem Ensures.of_regular (h : Ensures ground False space x P) (h' : space.Regular → Ensures ground True space x Q) :
    Ensures ground True space x fun later a => P later a ∧ (later.Regular → Q later a) := by
  by_cases hregular : space.Regular
  · exact (h.and (h' hregular)).imp fun _ _ _ _ hout => hout.imp_right fun hq _ => hq
  · exact { h with
      succeeds := fun _ hlater => (hregular (hlater.earlier h.extension)).elim
      result := fun a ha => ⟨h.result a ha, fun hlater => (hregular (hlater.earlier h.extension)).elim⟩ }

end SpaceM

theorem Intersected.invert_eq_node {out : Intersected} {n : Node} : out.invert = .node n ↔ out = .node n := by
  cases out <;> simp [invert]

namespace Node

variable [Behaviour] {entails : Node → Node → Prop} {ground : Prop} {depth : Nat} {space : Space} {l r p q n : Node}

-- ---------------------------------------------------------------------------
-- Specifications
-- ---------------------------------------------------------------------------

/-- What conjoining simple roots gives: a node that says what both say, and no more than one of them that says all of
it. -/
structure Balanced (entails : Node → Node → Prop) (depth : Nat) (l r : Node) (space : Space) (out : Intersected) :
    Prop where
  simple : ∀ n, out = .node n → n.SimpleRoot depth space
  below : space.Regular → ∀ n, out = .node n → entails n l ∧ entails n r
  left : space.Regular → entails l r → ∃ n, out = .node n ∧ entails l n
  right : space.Regular → entails r l → ∃ n, out = .node n ∧ entails r n

/-- The specification of conjunctions of simple roots that nest to less than a depth. -/
def Balances (ground : Prop) (entails : Node → Node → Prop) (depth : Nat) (meet : Meet) : Prop :=
  ∀ space l r, space.Valid → l.SimpleRoot depth space → r.SimpleRoot depth space →
    Ensures ground True space (meet l r) fun later out => Balanced entails depth l r later out

/-- Rules that stand apart, or of which one says all that the other says. -/
def Compatible (entails : Node → Node → Prop) (p q : Node) : Prop :=
  RuleEntails entails p q ∨ RuleEntails entails q p ∨ p.Beside true q

/-- What intersecting simple rules gives: a rule that says what both say. Compatible rules have no conflict, and give
nothing new. -/
structure Weighed (entails : Node → Node → Prop) (depth : Nat) (p q : Node) (space : Space) (out : Intersected) :
    Prop where
  simple : ∀ n, out = .node n → n.Simple (depth + 1) space
  below : space.Regular → ∀ n, out = .node n → RuleEntails entails n p ∧ RuleEntails entails n q
  compatible : space.Regular → Compatible entails p q → out = .node p ∨ out = .node q ∨ out = .orthogonal

theorem Compatible.symm (h : Compatible entails p q) : Compatible entails q p := by
  rcases h with h | h | h
  · exact .inr (.inl h)
  · exact .inl h
  · exact .inr (.inr h.symm)

theorem Weighed.invert {out : Intersected} (h : Weighed entails depth q p space out) :
    Weighed entails depth p q space out.invert := by
  refine ⟨fun n hn => h.simple n (Intersected.invert_eq_node.mp hn),
    fun hregular n hn => (h.below hregular n (Intersected.invert_eq_node.mp hn)).symm, ?_⟩
  intro hregular hcompatible
  rcases h.compatible hregular hcompatible.symm with rfl | rfl | rfl
  · exact .inr (.inl rfl)
  · exact .inl rfl
  · exact .inr (.inr rfl)

theorem Balanced.invert {out : Intersected} (h : Balanced entails depth r l space out) :
    Balanced entails depth l r space out.invert := by
  refine ⟨fun n hn => h.simple n (Intersected.invert_eq_node.mp hn),
    fun hregular n hn => (h.below hregular n (Intersected.invert_eq_node.mp hn)).symm, fun hregular hsaid => ?_,
    fun hregular hsaid => ?_⟩
  · obtain ⟨n, hn, hln⟩ := h.right hregular hsaid
    exact ⟨n, Intersected.invert_eq_node.mpr hn, hln⟩
  · obtain ⟨n, hn, hrn⟩ := h.left hregular hsaid
    exact ⟨n, Intersected.invert_eq_node.mpr hn, hrn⟩

theorem weighed_orthogonal : Weighed entails depth p q space .orthogonal :=
  ⟨nofun, fun _ => nofun, fun _ _ => .inr (.inr rfl)⟩

theorem weighed_disjoint {d : Disjoint} (h : space.Regular → ¬ Compatible entails p q) :
    Weighed entails depth p q space (.disjoint d) :=
  ⟨nofun, fun _ => nofun, fun hregular hcompatible => (h hregular hcompatible).elim⟩

/-- Rules that restrict one aspect of a value, neither of them a unit, are compatible only if one implies the other. -/
theorem Compatible.implies (h : Compatible entails p q) (hslot : p.slot? = q.slot?) (hp : p.kind.isConstraint = true)
    (hunit : p.kind ≠ .unit) (hunit' : q.kind ≠ .unit) :
    p.content.Implies entails q.content ∨ q.content.Implies entails p.content := by
  rcases h with (⟨v, hv, -⟩ | h) | (⟨v, hv, -⟩ | h) | h
  · exact absurd (by rw [kind, hv]; rfl) hunit
  · exact .inl h
  · exact absurd (by rw [kind, hv]; rfl) hunit'
  · exact .inr h
  · obtain ⟨slot, hs⟩ := slot?_isSome hp
    exact absurd (h.slots slot hs (hslot ▸ hs)).2 (by decide)

-- ---------------------------------------------------------------------------
-- Pairs of rules
-- ---------------------------------------------------------------------------

section

variable (horders : ∀ space : Space, space.Valid → space.Regular → Orders entails depth space) (hvalid : space.Valid)
  (hp : p.Simple (depth + 1) space) (hq : q.Simple (depth + 1) space)

include horders hvalid

theorem weighed_left (hp : p.Simple (depth + 1) space) (hcp : p.kind.isConstraint = true)
    (h : space.Regular → RuleEntails entails p q) : Weighed entails depth p q space (.node p) where
  simple := by
    rintro n ⟨⟩
    exact hp
  below := by
    rintro hregular n ⟨⟩
    have hself := ruleEntails_of_sameType hvalid hregular (horders space hvalid hregular) hp hp hcp (beq_self_eq_true _)
    exact ⟨hself, h hregular⟩
  compatible := fun _ _ => .inl rfl

theorem weighed_right (hq : q.Simple (depth + 1) space) (hcq : q.kind.isConstraint = true)
    (h : space.Regular → RuleEntails entails q p) : Weighed entails depth p q space (.node q) :=
  (weighed_left horders hvalid hq hcq h).invert

include hp

theorem meetUnit_weighed (hq : space.Holds q) {v : Value} (hc : p.content = .unit v) :
    Weighed entails depth p q space (meetUnit p q v) := by
  have hkind : p.kind = .unit := by rw [kind, hc]; rfl
  unfold meetUnit
  split
  · rename_i hallows
    exact weighed_left horders hvalid hp (by rw [hkind]; rfl) fun _ => .inl ⟨v, hc, hallows⟩
  rename_i hrefuses
  have hnot : ¬ Compatible entails p q := by
    rintro ((⟨u, hu, hallows⟩ | h) | (⟨u, hu, hallows⟩ | h) | h)
    · obtain rfl := Content.unit.inj (hc.symm.trans hu)
      exact hrefuses hallows
    · exact h.not_unit.1 hkind
    · rw [allows_unit hvalid hp.holds hc] at hallows
      exact hrefuses ((allows_unit hvalid hq hu).mpr hallows.symm)
    · exact h.not_unit.2 hkind
    · exact h.left hkind
  split <;> exact weighed_disjoint fun _ => hnot

theorem meetProtoDomain_weighed {a : Proto} {d : Domain} (ha : p.content = .proto a) (hd : q.content = .domain d) :
    Weighed entails depth p q space (if d = .object then .node p else .disjoint (.between .domain p q)) := by
  have hkind : p.kind = .proto := by rw [kind, ha]; rfl
  have hkind' : q.kind = .domain := by rw [kind, hd]; rfl
  split
  · rename_i hobject
    exact weighed_left horders hvalid hp (by rw [hkind]; rfl) fun _ => .inr (ha ▸ hd ▸ hobject ▸ .object a)
  · rename_i hobject
    refine weighed_disjoint fun _ h => ?_
    have himplies := h.implies (by rw [slot?, slot?, ha, hd]; rfl) (by rw [hkind]; rfl) (by rw [hkind]; decide)
      (by rw [hkind']; decide)
    rw [ha, hd] at himplies
    rcases himplies with h | h <;> cases h
    exact hobject rfl

include hq

theorem meetProtos_weighed {a b : Proto} (ha : p.content = .proto a) (hb : q.content = .proto b) :
    Weighed entails depth p q space (meetProtos p q a b) := by
  have hkind {n : Node} {a : Proto} (h : n.content = .proto a) : n.kind = .proto := by rw [kind, h]; rfl
  unfold meetProtos
  split
  · rename_i hsub
    exact weighed_left horders hvalid hp (by rw [hkind ha]; rfl) fun _ => .inr (ha ▸ hb ▸ .proto hsub)
  split
  · rename_i hsub
    exact weighed_right horders hvalid hq (by rw [hkind hb]; rfl) fun _ => .inr (ha ▸ hb ▸ .proto hsub)
  rename_i hsub hsub'
  refine weighed_disjoint fun _ h => ?_
  have himplies := h.implies (by rw [slot?, slot?, ha, hb]; rfl) (by rw [hkind ha]; rfl) (by rw [hkind ha]; decide)
    (by rw [hkind hb]; decide)
  rw [ha, hb] at himplies
  rcases himplies with h | h
  · cases h with | proto h => exact hsub h
  · cases h with | proto h => exact hsub' h

omit horders in
theorem meetDomains_weighed (hne : p.sameType q = false) {d d' : Domain} (hd : p.content = .domain d)
    (hd' : q.content = .domain d') : Weighed entails depth p q space (.disjoint (.between .domain p q)) := by
  have hkind {n : Node} {d : Domain} (h : n.content = .domain d) : n.kind = .domain := by rw [kind, h]; rfl
  have hdomain : d ≠ d' := by
    rintro rfl
    rw [hvalid.sameType_of_content hp.holds hq.holds (hd.trans hd'.symm)] at hne
    cases hne
  refine weighed_disjoint fun _ h => ?_
  have himplies := h.implies (by rw [slot?, slot?, hd, hd']; rfl) (by rw [hkind hd]; rfl) (by rw [hkind hd]; decide)
    (by rw [hkind hd']; decide)
  rw [hd, hd'] at himplies
  rcases himplies with h | h <;> cases h <;> exact hdomain rfl

theorem meetBounds_weighed {side : BoundSide} {a b : Bound} (ha : p.content = side.content a)
    (hb : q.content = side.content b) : Weighed entails depth p q space (meetBounds side p q a b) := by
  have hconstraint {n : Node} {a : Bound} (h : n.content = side.content a) : n.kind.isConstraint = true := by
    rw [kind, h]
    cases side <;> rfl
  have himplies {a b : Bound} (haxis : a.axis = b.axis) (h : a.isStricter side b = true) :
      (side.content a).Implies entails (side.content b) := by
    cases side
    · exact .max haxis h
    · exact .min haxis h
  unfold meetBounds
  split
  · exact weighed_orthogonal
  rename_i haxis
  have haxis := not_not.mp haxis
  split
  · rename_i hstricter
    exact weighed_left horders hvalid hp (hconstraint ha) fun _ => .inr (ha ▸ hb ▸ himplies haxis hstricter)
  · rename_i hnot
    have hstricter := Bound.isStricter_total (limit_isNaN hvalid hp.holds ha) (limit_isNaN hvalid hq.holds hb) hnot
    exact weighed_right horders hvalid hq (hconstraint hb) fun _ => .inr (ha ▸ hb ▸ himplies haxis.symm hstricter)

omit horders hvalid hp hq in
theorem meetRange_weighed {max min : Bound} (hmax : p.content = .max max) (hmin : q.content = .min min) :
    Weighed entails depth p q space (meetRange p q max min) := by
  unfold meetRange
  split
  · rename_i hclash
    refine weighed_disjoint fun _ => ?_
    rintro ((⟨v, hv, -⟩ | h) | (⟨v, hv, -⟩ | h) | h)
    · cases hmax.symm.trans hv
    · rw [hmax, hmin] at h; cases h
    · cases hmin.symm.trans hv
    · rw [hmax, hmin] at h; cases h
    · exact absurd ⟨max, min, .inl ⟨hmax, hmin⟩, hclash⟩ h.range
  · exact weighed_orthogonal

end

/-- What a simple content is interned as is simple. -/
theorem simple_of_interned {content : Content Node} (h : space.Interned content n) (hvalid : space.Valid)
    (hexact : space.Regular → content.Exact) (hholds : ∀ c ∈ content.children, space.Holds c)
    (hkind : content.kind ≠ .union ∧ content.kind ≠ .morph)
    (hchildren : space.Regular → ∀ c ∈ content.children, c.Everywhere fun n => n.kind ≠ .union ∧ n.kind ≠ .morph)
    (hnesting : space.Regular → contentNesting content < depth) : n.Simple depth space where
  toCalm := h.calm hvalid hexact hholds False.elim False.elim hnesting
  simple := fun hregular =>
    h.kinds (fun kind => kind ≠ .union ∧ kind ≠ .morph) hregular (hexact hregular) hkind (hchildren hregular)

/-- The conjunction of the values of two properties, interned as a property. -/
theorem interned_prop {make : Node → Content Node} {value : Node} (hvalid : space.Valid) (hmake : Property make)
    (hvalue : value.SimpleRoot depth space) (h : space.Interned (make value) n) : n.Simple (depth + 1) space ∧
      (space.Regular → ∃ value', n.content = make value' ∧ Space.Twins space space value' value) := by
  have hchildren : (make value).children = [value] := by cases hmake <;> rfl
  have hexact (hregular : space.Regular) : (make value).Exact := by
    cases hmake <;> exact hvalue.root hregular
  have hholds : ∀ c ∈ (make value).children, space.Holds c := by
    rw [hchildren]
    exact List.forall_mem_singleton.mpr hvalue.holds
  refine ⟨simple_of_interned h hvalid hexact hholds ?_ (fun hregular => ?_) fun hregular => ?_, fun hregular => ?_⟩
  · cases hmake <;> exact ⟨nofun, nofun⟩
  · rw [hchildren]
    exact List.forall_mem_singleton.mpr (hvalue.simple hregular)
  · cases hmake <;> exact Nat.succ_lt_succ (hvalue.shallow hregular)
  · have hrelated := h.related hvalid hregular (hexact hregular) hholds
    generalize n.content = content at *
    cases hmake with
    | required key => cases hrelated with | required _ htwins => exact ⟨_, rfl, htwins⟩
    | optional key => cases hrelated with | optional _ htwins => exact ⟨_, rfl, htwins⟩

section

variable (horders : ∀ space : Space, space.Valid → space.Regular → Orders entails depth space) (hvalid : space.Valid)
  (hp : p.Simple (depth + 1) space) (hq : q.Simple (depth + 1) space)

include horders hvalid hp hq

theorem meetDivisors_weighed {a b : Nat} (ha : p.content = .divisor a) (hb : q.content = .divisor b) :
    Ensures ground True space (meetDivisors p q a b) fun later out => Weighed entails depth p q later out := by
  have hkind {n : Node} {a : Nat} (h : n.content = .divisor a) : n.kind = .divisor := by rw [kind, h]; rfl
  have hconstraint {n : Node} {a : Nat} (h : n.content = .divisor a) : n.kind.isConstraint = true := by
    rw [hkind h]
    rfl
  have hsaid {m n : Node} {a b : Nat} (ha : m.content = .divisor a) (hb : n.content = .divisor b) (h : b ∣ a) :
      RuleEntails entails m n := .inr (ha ▸ hb ▸ .divisor h)
  have hpos := multiple_pos hvalid hp.holds hq.holds ha hb
  have hleft : a ∣ leastCommonMultiple a b := leastCommonMultiple_eq a b ▸ Nat.dvd_lcm_left a b
  have hright : b ∣ leastCommonMultiple a b := leastCommonMultiple_eq a b ▸ Nat.dvd_lcm_right a b
  rw [meetDivisors_eq (divisor_fits hvalid hp.holds ha) (divisor_fits hvalid hq.holds hb)]
  refine (Ensures.note hvalid).bind ?_
  rintro later ⟨⟩ hvalid hext hnoted
  have hp := hp.extends hext
  have hq := hq.extends hext
  cases hmultiple : leastCommonMultiple? a b with
  | none => exact .pure hvalid weighed_orthogonal
  | some multiple =>
      obtain ⟨rfl, hlt⟩ := leastCommonMultiple?_eq_some hmultiple
      dsimp only
      split
      · rename_i heq
        exact .pure hvalid (weighed_left horders hvalid hp (hconstraint ha) fun _ => hsaid ha hb (heq ▸ hright))
      split
      · rename_i heq
        exact .pure hvalid (weighed_right horders hvalid hq (hconstraint hb) fun _ => hsaid hb ha (heq ▸ hleft))
      rename_i hne hne'
      have hready : (Content.divisor (leastCommonMultiple a b)).Ready ground later .none :=
        ⟨hpos, hlt, List.forall_mem_nil _, fun _ _ => trivial⟩
      refine (Ensures.intern hvalid hready).bind fun final n hfinal hext' hinterned => .pure hfinal ?_
      have hcontent := Content.eq_divisor_of_outline hinterned.outline
      refine ⟨?simple, ?below, fun _ h => ?compatible⟩
      case simple =>
        rintro m ⟨⟩
        exact simple_of_interned hinterned hfinal (fun hregular => hregular.multiples _ (hext'.trace _ hnoted))
          (List.forall_mem_nil _) ⟨by rintro ⟨⟩, by rintro ⟨⟩⟩ (fun _ => List.forall_mem_nil _) fun _ => Nat.succ_pos depth
      case below =>
        rintro _ m ⟨⟩
        exact ⟨hsaid hcontent ha hleft, hsaid hcontent hb hright⟩
      case compatible =>
        rw [leastCommonMultiple_eq] at hne hne'
        have himplies := h.implies (by rw [slot?, slot?, ha, hb]; rfl) (hconstraint ha) (by rw [hkind ha]; decide)
          (by rw [hkind hb]; decide)
        rw [ha, hb] at himplies
        rcases himplies with h | h
        · cases h with | divisor hdvd => exact absurd (Nat.lcm_eq_left hdvd) hne
        · cases h with | divisor hdvd => exact absurd (Nat.lcm_eq_right hdvd) hne'

theorem meetProps_weighed {meet : Meet} (hmeet : Balances ground entails depth meet) {make : Node → Content Node}
    (hmake : Property make) {key : PropKey} {a b : Node} (ha : p.content = make a) (hb : q.content = make b) :
    Ensures ground True space (meetProps meet make p q key a b) fun later out =>
      Weighed entails depth p q later out := by
  have hkind {n c : Node} (h : n.content = make c) : n.kind ≠ .unit ∧ n.kind.isConstraint = true := by
    rw [kind, h]
    cases hmake <;> exact ⟨by rintro ⟨⟩, rfl⟩
  have hsaid {m n c d : Node} (hm : m.content = make c) (hn : n.content = make d) (h : entails c d) :
      RuleEntails entails m n := .inr (hm ▸ hn ▸ hmake.implies_iff.mpr h)
  have hcompatible (h : Compatible entails p q) : entails a b ∨ entails b a := by
    have hslot : p.slot? = q.slot? := by
      rw [slot?, slot?, ha, hb]
      cases hmake <;> rfl
    have himplies := h.implies hslot (hkind ha).2 (hkind ha).1 (hkind hb).1
    rw [ha, hb, hmake.implies_iff, hmake.implies_iff] at himplies
    exact himplies
  have haRoot := hp.value hvalid hmake ha
  have hbRoot := hq.value hvalid hmake hb
  unfold meetProps
  refine (hmeet space a b hvalid haRoot hbRoot).bind fun later out hvalid' hext hout => ?_
  have hp := hp.extends hext
  have hq := hq.extends hext
  have haRoot := haRoot.extends hext
  have hbRoot := hbRoot.extends hext
  have horders' := horders later hvalid'
  cases out with
  | node value =>
      have hvalue := hout.simple value rfl
      dsimp only
      split
      · rename_i hsame
        refine .pure hvalid' (weighed_left horders hvalid' hp (hkind ha).2 fun hregular => hsaid ha hb ?_)
        have hav := (horders' hregular).alike a value haRoot hvalue (BEq.symm hsame)
        exact (horders' hregular).trans a value b haRoot hvalue hbRoot hav (hout.below hregular value rfl).2
      split
      · rename_i hsame
        refine .pure hvalid' (weighed_right horders hvalid' hq (hkind hb).2 fun hregular => hsaid hb ha ?_)
        have hbv := (horders' hregular).alike b value hbRoot hvalue (BEq.symm hsame)
        exact (horders' hregular).trans b value a hbRoot hvalue haRoot hbv (hout.below hregular value rfl).1
      rename_i hne hne'
      have hready : (make value).Ready ground later .none := by
        cases hmake <;> exact ⟨trivial, trivial, List.forall_mem_singleton.mpr hvalue.holds, fun _ _ => trivial⟩
      refine (Ensures.intern hvalid' hready).bind fun final n hfinal hext' hinterned => .pure hfinal ?_
      obtain ⟨hsimple, hcontent⟩ := interned_prop hfinal hmake (hvalue.extends hext') hinterned
      refine ⟨?simple, ?below, fun hregular h => ?compatible⟩
      case simple =>
        rintro m ⟨⟩
        exact hsimple
      case below =>
        rintro hregular m ⟨⟩
        obtain ⟨value', hc, htwins⟩ := hcontent hregular
        obtain ⟨hva, hvb⟩ := hout.below (hregular.earlier hext') value rfl
        have hroot' := hsimple.value hfinal hmake hc
        have hroot := hvalue.extends hext'
        have hfinalOrders := horders final hfinal hregular
        have hsame := hfinalOrders.alike value' value hroot' hroot (beq_iff_eq.mpr htwins.typeId)
        exact ⟨hsaid hc ha (hfinalOrders.trans value' value a hroot' hroot (haRoot.extends hext') hsame hva),
          hsaid hc hb (hfinalOrders.trans value' value b hroot' hroot (hbRoot.extends hext') hsame hvb)⟩
      case compatible =>
        have hregular' := hregular.earlier hext'
        obtain ⟨hva, hvb⟩ := hout.below hregular' value rfl
        rcases hcompatible h with hab | hba
        · obtain ⟨_, ⟨⟩, hav⟩ := hout.left hregular' hab
          exact absurd ((horders' hregular').antisymm value a hvalue haRoot hva hav) hne
        · obtain ⟨_, ⟨⟩, hbv⟩ := hout.right hregular' hba
          exact absurd ((horders' hregular').antisymm value b hvalue hbRoot hvb hbv) hne'
  | disjoint d =>
      refine .pure hvalid' (weighed_disjoint fun hregular h => ?_)
      rcases hcompatible h with hab | hba
      · obtain ⟨n, hn, -⟩ := hout.left hregular hab
        cases hn
      · obtain ⟨n, hn, -⟩ := hout.right hregular hba
        cases hn
  | orthogonal => exact .pure hvalid' weighed_orthogonal

/-- Simple constraints in order of kind and of different types. -/
theorem meetConstraints_weighed {meet : Meet} (hmeet : Balances ground entails depth meet)
    (hcp : p.kind.isConstraint = true) (hcq : q.kind.isConstraint = true) (hne : p.sameType q = false) :
    Ensures ground True space (meetConstraints meet p q) fun later out => Weighed entails depth p q later out := by
  unfold meetConstraints
  split
  · rename_i hu
    exact .pure hvalid (meetUnit_weighed horders hvalid hp hq.holds hu)
  · rename_i ha hb
    exact .pure hvalid (meetProtos_weighed horders hvalid hp hq ha hb)
  · rename_i ha hd
    exact .pure hvalid (meetProtoDomain_weighed horders hvalid hp ha hd)
  · rename_i hd hd'
    exact .pure hvalid (meetDomains_weighed hvalid hp hq hne hd hd')
  · rename_i ha hb
    exact meetDivisors_weighed horders hvalid hp hq ha hb
  · rename_i ha hb
    exact .pure hvalid (@meetBounds_weighed _ entails depth space p q horders hvalid hp hq .max _ _ ha hb)
  · rename_i ha hb
    exact .pure hvalid (@meetBounds_weighed _ entails depth space p q horders hvalid hp hq .min _ _ ha hb)
  · rename_i ha hb
    exact .pure hvalid (meetRange_weighed ha hb)
  · rename_i key a key' b ha hb
    split
    · rename_i heq
      exact meetProps_weighed horders hvalid hp hq hmeet (.required key) ha (heq ▸ hb)
    · exact .pure hvalid weighed_orthogonal
  · rename_i key a key' b ha hb
    split
    · rename_i heq
      exact meetProps_weighed horders hvalid hp hq hmeet (.optional key) ha (heq ▸ hb)
    · exact .pure hvalid weighed_orthogonal
  · rw [if_pos (by rw [hcp, hcq]; rfl)]
    exact .pure hvalid weighed_orthogonal

theorem meetRules_weighed {meet : Meet} (hmeet : Balances ground entails depth meet)
    (hcp : p.kind.isConstraint = true) (hcq : q.kind.isConstraint = true) :
    Ensures ground True space (meetRules meet p q) fun later out => Weighed entails depth p q later out := by
  unfold meetRules
  refine meetBy_spec hvalid (fun hsame => ?_) (fun _ hne => ?_) fun _ hne => ?_
  · exact weighed_left horders hvalid hp hcp fun hregular =>
      ruleEntails_of_sameType hvalid hregular (horders space hvalid hregular) hp hq hcp hsame
  · exact meetConstraints_weighed horders hvalid hp hq hmeet hcp hcq hne
  · exact (meetConstraints_weighed horders hvalid hq hp hmeet hcq hcp hne).imp fun _ _ _ _ => Weighed.invert

end

-- ---------------------------------------------------------------------------
-- Lists of rules
-- ---------------------------------------------------------------------------

/-- What rules become that are folded together: simple rules that say all that was said, and nothing new where all were
compatible. -/
structure Condensed (entails : Node → Node → Prop) (depth : Nat) (given : List Node) (space : Space)
    (out : Except Disjoint (List Node)) : Prop where
  simple : ∀ kept, out = .ok kept → ∀ e ∈ kept, e.Simple (depth + 1) space
  below : space.Regular → ∀ kept, out = .ok kept → Support entails kept given
  compatible : space.Regular → (∀ p ∈ given, ∀ q ∈ given, Compatible entails p q) →
    ∃ kept, out = .ok kept ∧ kept ⊆ given

/-- A conflict says that not all that was given is compatible. -/
theorem condensed_conflict {given : List Node} {d : Disjoint}
    (h : space.Regular → ¬ ∀ p ∈ given, ∀ q ∈ given, Compatible entails p q) :
    Condensed entails depth given space (.error d) :=
  ⟨nofun, fun _ => nofun, fun hregular hcompatible => (h hregular hcompatible).elim⟩

/-- A rule that stands beside another one that is folded in is kept. -/
theorem Condensed.keep {rule e : Node} {rest : List Node} {out : Except Disjoint (List Node)}
    (h : Condensed entails depth (rule :: rest) space out) (he : e.Simple (depth + 1) space)
    (hself : space.Regular → RuleEntails entails e e) :
    Condensed entails depth (rule :: e :: rest) space (out.map (e :: ·)) := by
  have hsubset : rule :: rest ⊆ rule :: e :: rest := List.cons_subset_cons _ (List.subset_cons_self e rest)
  cases out with
  | error d =>
      refine condensed_conflict fun hregular hcompatible => ?_
      obtain ⟨kept, hkept, -⟩ := h.compatible hregular fun p hp q hq => hcompatible p (hsubset hp) q (hsubset hq)
      cases hkept
  | ok kept =>
      refine ⟨?simple, ?below, fun hregular hcompatible => ?compatible⟩
      case simple =>
        rintro _ ⟨⟩
        exact List.forall_mem_cons.mpr ⟨he, h.simple kept rfl⟩
      case below =>
        rintro hregular _ ⟨⟩
        obtain ⟨hrule, hrest⟩ := support_cons.mp ((h.below hregular kept rfl).mono (List.subset_cons_self e kept))
        exact support_cons.mpr ⟨hrule, support_cons.mpr ⟨⟨e, List.mem_cons_self, hself hregular⟩, hrest⟩⟩
      case compatible =>
        obtain ⟨_, ⟨⟩, hkept⟩ := h.compatible hregular fun p hp q hq => hcompatible p (hsubset hp) q (hsubset hq)
        exact ⟨_, rfl, List.cons_subset.mpr ⟨List.mem_cons_of_mem _ List.mem_cons_self, List.Subset.trans hkept hsubset⟩⟩

theorem SimpleRules.sublist {rules kept : List Node} (h : SimpleRules depth space rules) (hkept : kept.Sublist rules) :
    SimpleRules depth space kept :=
  ⟨h.areRules.sublist hkept, fun hregular e he => h.simple hregular e (hkept.subset he)⟩

section

variable (hblind : BlindToSign)
  (horders : ∀ space : Space, space.Valid → space.Regular → Orders entails depth space) {meet : Meet}
  (hmeet : Conjoins ground False depth meet) (hbalances : Balances ground entails depth meet) {rule merged : Node}
  {rules : List Node}

include hblind horders hmeet hbalances

/-- Folding the rest of a rule in, after it has become `merged` by one that stands beside all of them. -/
theorem foldOn_condensed {origin : Node} (hconstraint : rule.kind.isConstraint = true)
    (horigin : origin.kind.isConstraint = true) (hvalid : space.Valid) (hrules : SimpleRules depth space rules)
    (hrule : rule.Simple (depth + 1) space) (hmerged : merged.Simple (depth + 1) space)
    (hmerge : Merge False depth space origin rule merged)
    (hbeside : space.Regular → ∀ e ∈ rules, origin.Beside true e) :
    Ensures ground True space (foldInto meet rule (some merged) rules) fun later out => later.Regular →
      (∀ kept, out = .ok kept → Support entails (merged :: kept) rules) ∧
        ((∀ e ∈ rules, Compatible entails e rule) → ∃ kept, out = .ok kept) := by
  induction rules generalizing space with
  | nil => exact .pure hvalid fun _ => ⟨fun _ _ => List.forall_mem_nil _, fun _ => ⟨_, rfl⟩⟩
  | cons e rest ih =>
      have he := hrules.rule List.mem_cons_self
      have hc := hrules.areRules.areConstraints e List.mem_cons_self
      unfold foldInto
      refine ((meetRules_spec hmeet False.elim hvalid he.toCalm hrule.toCalm hc hconstraint).and
        (meetRules_weighed horders hvalid he hrule hbalances hc hconstraint)).bind ?_
      rintro later out hvalid' hext ⟨hout, hweighed⟩
      have he := he.extends hext
      have hmerged := hmerged.extends hext
      have hmerge := hmerge.extends hext
      have hbeside (hregular : later.Regular) := List.forall_mem_cons.mp (hbeside (hregular.earlier hext))
      have hnext := ih hvalid' ((hrules.sublist (List.sublist_cons_self e rest)).extends hext) (hrule.extends hext)
        hmerged hmerge fun hregular => (hbeside hregular).2
      cases out with
      | orthogonal =>
          dsimp only
          refine hnext.bind fun final out hfinal hext' hout' => .pure hfinal fun hregular => ?_
          obtain ⟨hbelow, hgood⟩ := hout' hregular
          cases out with
          | error d =>
              refine ⟨by rintro _ ⟨⟩, fun hcompatible => ?_⟩
              obtain ⟨kept, hkept⟩ := hgood (List.forall_mem_cons.mp hcompatible).2
              cases hkept
          | ok kept =>
              refine ⟨?_, fun _ => ⟨_, rfl⟩⟩
              rintro _ ⟨⟩
              have hself := ruleEntails_of_sameType hfinal hregular (horders final hfinal hregular) (he.extends hext')
                (he.extends hext') hc (beq_self_eq_true _)
              exact support_cons.mpr ⟨⟨e, List.mem_cons_of_mem _ List.mem_cons_self, hself⟩,
                (hbelow kept rfl).mono (List.cons_subset_cons _ (List.subset_cons_self e kept))⟩
      | disjoint d =>
          refine .pure hvalid' fun hregular => ⟨by rintro _ ⟨⟩, fun hcompatible => ?_⟩
          rcases hweighed.compatible hregular (hcompatible e List.mem_cons_self) with h | h | h <;> cases h
      | node n =>
          have hout : Merge False depth later e rule n := hout
          have hn := hweighed.simple n rfl
          dsimp only
          split
          · rename_i hsame
            refine hnext.imp fun final out _ hext' hout' hregular => ?_
            have hregular' := hregular.earlier hext'
            have horders' := horders later hvalid' hregular'
            have hmn := ruleEntails_of_sameType hvalid' hregular' horders' hmerged hn
              (hvalid'.kind_eq hmerged.holds hn.holds hsame ▸ hout.isConstraint) hsame
            have hme := hmn.trans hblind hvalid' hregular' horders' hmerged hn he (hweighed.below hregular' n rfl).1
            obtain ⟨hbelow, hgood⟩ := hout' hregular
            exact ⟨fun kept hkept => support_cons.mpr ⟨⟨merged, List.mem_cons_self, hme⟩, hbelow kept hkept⟩,
              fun hcompatible => hgood (List.forall_mem_cons.mp hcompatible).2⟩
          · rename_i hne
            refine Ensures.absurd hvalid' (fun hregular => hne ?_) (by rintro ⟨⟩)
            exact hmerge.sameType hout horigin (hbeside hregular).1.toApart

theorem foldInto_condensed (hconstraint : rule.kind.isConstraint = true) (hvalid : space.Valid)
    (hrules : SimpleRules depth space rules) (hrule : rule.Simple (depth + 1) space) :
    Ensures ground True space (foldInto meet rule none rules) fun later out =>
      Condensed entails depth (rule :: rules) later out := by
  have hself {space : Space} {e : Node} (hvalid : space.Valid) (hregular : space.Regular)
      (he : e.Simple (depth + 1) space) (hc : e.kind.isConstraint = true) : RuleEntails entails e e :=
    ruleEntails_of_sameType hvalid hregular (horders space hvalid hregular) he he hc (beq_self_eq_true _)
  induction rules generalizing space with
  | nil =>
      refine .pure hvalid ⟨?simple, ?below, fun _ _ => ⟨_, rfl, List.Subset.refl _⟩⟩
      case simple =>
        rintro _ ⟨⟩
        exact List.forall_mem_singleton.mpr hrule
      case below =>
        rintro hregular _ ⟨⟩
        exact support_singleton.mpr ⟨rule, List.mem_cons_self, hself hvalid hregular hrule hconstraint⟩
  | cons e rest ih =>
      have he := hrules.rule List.mem_cons_self
      have hc := hrules.areRules.areConstraints e List.mem_cons_self
      have hrest := hrules.sublist (List.sublist_cons_self e rest)
      have hbeside (hregular : space.Regular) := (List.pairwise_cons.mp (hrules.areRules.exact hregular)).1
      unfold foldInto
      refine ((meetRules_spec hmeet False.elim hvalid he.toCalm hrule.toCalm hc hconstraint).and
        (meetRules_weighed horders hvalid he hrule hbalances hc hconstraint)).bind ?_
      rintro later out hvalid' hext ⟨hout, hweighed⟩
      have hrule := hrule.extends hext
      have hrest := hrest.extends hext
      have hpair : ∀ {P : Node → Node → Prop}, (∀ x ∈ rule :: e :: rest, ∀ y ∈ rule :: e :: rest, P x y) → P e rule :=
        fun h => h e (by simp) rule (by simp)
      cases out with
      | orthogonal =>
          dsimp only
          refine (ih hvalid' hrest hrule).bind fun final out hfinal hext' hout' => .pure hfinal ?_
          have he := he.extends (hext'.trans hext)
          exact hout'.keep he fun hregular => hself hfinal hregular he hc
      | disjoint d =>
          refine .pure hvalid' (condensed_conflict fun hregular hcompatible => ?_)
          rcases hweighed.compatible hregular (hpair hcompatible) with h | h | h <;> cases h
      | node n =>
          have hout : Merge False depth later e rule n := hout
          have hn := hweighed.simple n rfl
          dsimp only
          refine ((foldOn_spec hmeet False.elim hconstraint hc hvalid' hrest.areRules hrule.toCalm hout
            fun hregular => hbeside (hregular.earlier hext)).and (foldOn_condensed hblind horders hmeet hbalances
              hconstraint hc hvalid' hrest hrule hn hout fun hregular => hbeside (hregular.earlier hext))).bind ?_
          rintro final out hfinal hext' ⟨hfolded, hout'⟩
          refine .pure hfinal ?_
          have hrest := hrest.extends hext'
          cases out with
          | error d =>
              refine condensed_conflict fun hregular hcompatible => ?_
              obtain ⟨kept, hkept⟩ := (hout' hregular).2 fun x hx => hcompatible x (by simp [hx]) rule (by simp)
              cases hkept
          | ok kept =>
              have hsubset := FoldedOn.sublist hfolded |>.subset
              refine ⟨?simple, ?below, fun hregular hcompatible => ⟨_, rfl, List.cons_subset.mpr ⟨?_, ?_⟩⟩⟩
              case simple =>
                rintro _ ⟨⟩
                exact List.forall_mem_cons.mpr ⟨hn.extends hext', fun x hx => hrest.rule (hsubset hx)⟩
              case below =>
                rintro hregular _ ⟨⟩
                obtain ⟨hne, hnr⟩ := hweighed.below (hregular.earlier hext') n rfl
                exact support_cons.mpr ⟨⟨n, List.mem_cons_self, hnr⟩, support_cons.mpr
                  ⟨⟨n, List.mem_cons_self, hne⟩, (hout' hregular).1 kept rfl⟩⟩
              · rcases hweighed.compatible (hregular.earlier hext') (hpair hcompatible) with h | h | h <;> cases h
                · exact List.mem_cons_of_mem _ List.mem_cons_self
                · exact List.mem_cons_self
              · exact fun x hx => List.mem_cons_of_mem _ (List.mem_cons_of_mem _ (hsubset hx))

theorem addRules_condensed {more : List Node} (hvalid : space.Valid) (hrules : SimpleRules depth space rules)
    (hmore : ∀ e ∈ more, e.Simple (depth + 1) space ∧ e.kind.isConstraint = true) :
    Ensures ground True space (addRules meet rules more) fun later out =>
      Condensed entails depth (rules ++ more) later out := by
  induction more generalizing space rules with
  | nil =>
      rw [List.append_nil]
      refine .pure hvalid ⟨?simple, ?below, fun _ _ => ⟨rules, rfl, List.Subset.refl _⟩⟩
      case simple =>
        rintro _ ⟨⟩
        exact fun e he => hrules.rule he
      case below =>
        rintro hregular _ ⟨⟩
        exact fun e he => ⟨e, he, ruleEntails_of_sameType hvalid hregular (horders space hvalid hregular) (hrules.rule he)
          (hrules.rule he) (hrules.areRules.areConstraints e he) (beq_self_eq_true _)⟩
  | cons rule rest ih =>
      obtain ⟨⟨hrule, hconstraint⟩, hrest⟩ := List.forall_mem_cons.mp hmore
      have hgiven : rule :: rules ⊆ rules ++ rule :: rest := by
        intro e he
        simp only [List.mem_append, List.mem_cons] at he ⊢
        tauto
      have hcondensed : Ensures ground True space (addRule meet rules rule) fun later out =>
          Condensed entails depth (rule :: rules) later out := by
        unfold addRule
        rw [if_pos hconstraint]
        exact foldInto_condensed hblind horders hmeet hbalances hconstraint hvalid hrules hrule
      unfold addRules
      refine ((addRule_spec hmeet False.elim hvalid hrules.areRules hrule.toCalm hconstraint).and hcondensed).bind ?_
      rintro later out hvalid' hext ⟨hfolded, hout⟩
      cases out with
      | error d =>
          refine .pure hvalid' (condensed_conflict fun hregular hcompatible => ?_)
          obtain ⟨_, ⟨⟩, -⟩ := hout.compatible hregular fun p hp q hq => hcompatible p (hgiven hp) q (hgiven hq)
      | ok folded =>
          have hfolded : Folded False depth rules rule later folded := hfolded
          have hsimple := hout.simple folded rfl
          have hfoldedRules : SimpleRules depth later folded :=
            ⟨hfolded.areRules, fun hregular e he => (hsimple e he).simple hregular⟩
          dsimp only
          refine (ih hvalid' hfoldedRules fun e he => (hrest e he).imp_left fun h => h.extends hext).imp ?_
          intro final out hfinal hext' hout'
          refine ⟨hout'.simple, fun hregular kept hkept => ?below, fun hregular hcompatible => ?compatible⟩
          case below =>
            obtain ⟨hkeptFolded, hkeptRest⟩ := support_append.mp (hout'.below hregular kept hkept)
            have hsaid := Support.trans hblind hfinal hregular (horders final hfinal hregular)
              (hout'.simple kept hkept) (fun e he => (hsimple e he).extends hext')
              (List.forall_mem_cons.mpr ⟨hrule.extends (hext'.trans hext),
                fun e he => (hrules.rule he).extends (hext'.trans hext)⟩)
              hkeptFolded (hout.below (hregular.earlier hext') folded rfl)
            obtain ⟨hkeptRule, hkeptRules⟩ := support_cons.mp hsaid
            exact support_append.mpr ⟨hkeptRules, support_cons.mpr ⟨hkeptRule, hkeptRest⟩⟩
          case compatible =>
            obtain ⟨_, ⟨⟩, hsubset⟩ := hout.compatible (hregular.earlier hext') fun p hp q hq =>
              hcompatible p (hgiven hp) q (hgiven hq)
            have hsubset : folded ++ rest ⊆ rules ++ rule :: rest := by
              refine List.append_subset.mpr ⟨List.Subset.trans hsubset hgiven, fun e he => ?_⟩
              exact List.mem_append_right _ (List.mem_cons_of_mem _ he)
            obtain ⟨kept, hkept, hkeptSubset⟩ := hout'.compatible hregular fun p hp q hq =>
              hcompatible p (hsubset hp) q (hsubset hq)
            exact ⟨kept, hkept, List.Subset.trans hkeptSubset hsubset⟩

end

-- ---------------------------------------------------------------------------
-- Finishing
-- ---------------------------------------------------------------------------

/-- What rules side by side are interned as is simple if they are, and has rules of the same types. -/
theorem rules_of_interned {basis : Option Node} {constraints : List Node} (hvalid : space.Valid)
    (hregular : space.Regular) (hrules : SimpleRules depth space (basis.toList ++ constraints))
    (h : space.Interned (.intersection basis constraints) n) :
    (n.Everywhere fun n => n.kind ≠ .union ∧ n.kind ≠ .morph) ∧
      n.rules.map typeId = (basis.toList ++ constraints).map typeId := by
  have hexact : (Content.intersection basis constraints).Exact :=
    (List.pairwise_append.mp (hrules.areRules.exact hregular)).2.1.imp Beside.not_divisors
  refine ⟨h.kinds (fun kind => kind ≠ .union ∧ kind ≠ .morph) hregular hexact ⟨nofun, nofun⟩
    (hrules.simple hregular), ?_⟩
  have hrelated := h.related hvalid hregular hexact fun c hc => (hrules.areRules.calm c hc).holds
  have htypes := forall₂_map_eq.mp (hrelated.children.imp fun _ _ htwins => htwins.typeId)
  obtain ⟨basis', constraints', hc⟩ := intersection_of_kind hrelated.kind_eq
  rw [Node.rules, hc]
  rw [hc] at htypes
  exact htypes

/-- Fitting rules are finished, to a node whose rules are of the same types. -/
theorem finish_fitting {meet : Meet} {rules : List Node} (hvalid : space.Valid) (hrules : SimpleRules depth space rules)
    (hfits : Fitting rules) :
    Ensures ground True space (finish meet .algebra .none rules) fun later out => ∃ n, out = .ok n ∧ (later.Regular →
      (n.Everywhere fun n => n.kind ≠ .union ∧ n.kind ≠ .morph) ∧ (n.rules.map typeId).Perm (rules.map typeId)) := by
  obtain ⟨basis, constraints, heq, hperm, hbasis, hconstraints⟩ := @splitBasis_eq none rules hrules.areRules.apart nofun
  have hrules' : SimpleRules depth space (basis.toList ++ constraints) :=
    ⟨hrules.areRules.of_perm hperm, fun hregular e he => hrules.simple hregular e (hperm.mem_iff.mp he)⟩
  have hfits' : Fitting (basis.toList ++ constraints) :=
    hfits.descends ((Descends.refl rules).of_perm (.refl rules) hperm.symm)
  have happlies := hfits'.applicable hrules'.areRules.apart hconstraints
  have hwith : finish meet .algebra .none rules = finishWith .algebra .none basis constraints := by
    unfold finish
    rw [heq, pure_bind]
    cases basis with
    | some b => rfl
    | none =>
        have hnone : constraints.findSome? impliedBasis? = none := by
          refine List.findSome?_eq_none_iff.mpr fun c hc => ?_
          exact impliedBasis?_eq_none (firstInapplicable?_eq_none.mp happlies c hc)
        dsimp only
        rw [hnone]
  rw [hwith]
  unfold finishWith
  rw [happlies]
  dsimp only
  split
  · rename_i b
    refine .pure hvalid ⟨b, rfl, fun hregular => ⟨hrules'.simple hregular b List.mem_cons_self, ?_⟩⟩
    rw [rules_of_isConstraint (isConstraint_of_isBasis (hbasis b rfl))]
    exact hperm.map typeId
  · rename_i hnot
    have halone (h : constraints = []) : basis = none := by
      cases basis with
      | none => rfl
      | some b => exact (hnot b rfl h).elim
    obtain ⟨hsorted, hready⟩ := @ready_sorted _ ground False depth space .none basis constraints hrules'.areRules
      hbasis hconstraints happlies halone
    have hperm' : (basis.toList ++ sortConstraints constraints).Perm rules :=
      ((sortConstraints_perm constraints).append_left _).trans hperm
    have hsortedRules : SimpleRules depth space (basis.toList ++ sortConstraints constraints) :=
      ⟨hsorted, fun hregular e he => hrules.simple hregular e (hperm'.mem_iff.mp he)⟩
    refine (Ensures.intern hvalid hready).bind fun later n hvalid' hext hinterned => .pure hvalid' ?_
    refine ⟨n, rfl, fun hregular => ?_⟩
    obtain ⟨hsimple, htypes⟩ := rules_of_interned hvalid' hregular (hsortedRules.extends hext) hinterned
    exact ⟨hsimple, htypes ▸ hperm'.map typeId⟩

-- ---------------------------------------------------------------------------
-- Combining roots
-- ---------------------------------------------------------------------------

/-- What stands beside a rule stands beside what the rule entails. -/
theorem Beside.of_entailed {p' : Node} (h : p.Beside true p') (hvalid : space.Valid) (hp : space.Holds p)
    (hsaid : RuleEntails entails p' q) : p.Beside true q := by
  obtain ⟨hslot, hunit⟩ := hsaid.slot?_eq h.right
  rcases hsaid with ⟨v, hv, -⟩ | himplies
  · exact absurd (by rw [kind, hv]; rfl) h.right
  have hself {side : BoundSide} {bound : Bound} (hc : p.content = side.content bound) :
      bound.isStricter side bound = true := by
    have hsound := (hvalid.written p hp).sound
    rw [hc] at hsound
    refine Bound.isStricter_of_unsigned ?_ rfl
    cases side <;> exact hsound
  refine ⟨⟨h.left, hunit, fun slot hs hs' => h.slots slot hs (hslot.trans hs')⟩, fun d d' hd hd' => ?_, ?_⟩
  · have hs : p.slot? = some .divisor := by rw [slot?, hd]; rfl
    have hs' : q.slot? = some .divisor := by rw [slot?, hd']; rfl
    exact absurd (h.slots .divisor hs (hslot.trans hs')).2 (by decide)
  · rintro ⟨max, min, ⟨hpc, hqc⟩ | ⟨hpc, hqc⟩, haxis, hnothing⟩
    · rw [hqc] at himplies
      generalize hc : p'.content = c at himplies
      cases himplies with
      | min haxis' hstricter =>
          exact h.range ⟨max, _, .inl ⟨hpc, hc⟩, haxis.trans haxis'.symm,
            Bound.leavesNothing_of_isStricter hnothing (@hself .max max hpc) hstricter⟩
    · rw [hqc] at himplies
      generalize hc : p'.content = c at himplies
      cases himplies with
      | max haxis' hstricter =>
          exact h.range ⟨_, min, .inr ⟨hpc, hc⟩, haxis'.trans haxis,
            Bound.leavesNothing_of_isStricter hnothing hstricter (@hself .min min hpc)⟩

section

variable {ps qs : List Node} (hvalid : space.Valid) (hregular : space.Regular) (horders : Orders entails depth space)
  (hps : SimpleRules depth space ps) (hqs : SimpleRules depth space qs)

include hvalid hregular horders

/-- Rules side by side support themselves. -/
theorem support_self (hps : SimpleRules depth space ps) : Support entails ps ps := fun p hp =>
  ⟨p, hp, ruleEntails_of_sameType hvalid hregular horders (hps.rule hp) (hps.rule hp)
    (hps.areRules.areConstraints p hp) (beq_self_eq_true _)⟩

omit horders in
/-- Rules side by side are compatible with what they entail. -/
theorem compatible_of_support (hps : SimpleRules depth space ps) (h : Support entails ps qs) :
    ∀ p ∈ ps, ∀ q ∈ qs, Compatible entails p q := by
  intro p hp q hq
  obtain ⟨p', hp', hsaid⟩ := h q hq
  by_cases heq : p = p'
  · exact .inl (heq ▸ hsaid)
  · have : Std.Symm (Beside true) := ⟨fun _ _ => Beside.symm⟩
    have hbeside := (hps.areRules.exact hregular).forall hp hp' heq
    exact .inr (.inr (hbeside.of_entailed hvalid (hps.rule hp).holds hsaid))

include hps hqs

/-- So all rules of two lists are compatible, if those of one support those of the other. -/
theorem compatible_append (h : Support entails ps qs) :
    ∀ p ∈ ps ++ qs, ∀ q ∈ ps ++ qs, Compatible entails p q := by
  have hself {rules : List Node} (hrules : SimpleRules depth space rules) :=
    compatible_of_support hvalid hregular hrules (support_self hvalid hregular horders hrules)
  have hcross := compatible_of_support hvalid hregular hps h
  intro p hp q hq
  rcases List.mem_append.mp hp with hp | hp <;> rcases List.mem_append.mp hq with hq | hq
  · exact hself hps p hp q hq
  · exact hcross p hp q hq
  · exact (hcross q hq p hp).symm
  · exact hself hqs p hp q hq

end

/-- Constraints say as nodes what they say as rules. -/
theorem entails_of_isConstraint (hl : l.kind.isConstraint = true) (hr : r.kind.isConstraint = true) :
    Entails (depth + 1) l r ↔ RuleEntails (Entails depth) l r := by
  rw [Entails, rules_of_isConstraint hl, rules_of_isConstraint hr, support_singleton]
  simp

/-- A node whose rules are of the types of some rules says what they say, and no more. -/
theorem support_of_perm {kept : List Node} (hvalid : space.Valid) (hregular : space.Regular)
    (horders : Orders entails depth space) (hn : n.SimpleRoot (depth + 1) space) (hkept : SimpleRules depth space kept)
    (h : (n.rules.map typeId).Perm (kept.map typeId)) : Support entails n.rules kept ∧ Support entails kept n.rules := by
  have hrules := hn.rules hvalid hregular
  have htypes {ps qs : List Node} (h : (ps.map typeId).Perm (qs.map typeId)) :
      ∀ q ∈ qs, ∃ p ∈ ps, p.sameType q = true := by
    intro q hq
    obtain ⟨p, hp, htype⟩ := List.mem_map.mp (h.mem_iff.mpr (List.mem_map_of_mem hq))
    exact ⟨p, hp, beq_iff_eq.mpr htype⟩
  exact ⟨support_of_types hvalid hregular horders (fun e he => hrules.rule he)
      (fun e he => ⟨hkept.rule he, hkept.areRules.areConstraints e he⟩) (htypes h),
    support_of_types hvalid hregular horders (fun e he => hkept.rule he)
      (fun e he => ⟨hrules.rule he, hrules.areRules.areConstraints e he⟩) (htypes h.symm)⟩

section

variable (hblind : BlindToSign) {meet : Meet} (hmeet : Conjoins ground False depth meet)
  (hbalances : Balances ground (Entails depth) depth meet) (hvalid : space.Valid) (hl : l.SimpleRoot (depth + 1) space)
  (hr : r.SimpleRoot (depth + 1) space) (hkl : 2 ≤ l.kind.order) (hkr : 2 ≤ r.kind.order)

include hblind hmeet hbalances hvalid hl hr hkl hkr

theorem combineBy_balanced : Ensures ground True space (combineBy meet [l, r]) fun later out =>
    Balanced (Entails (depth + 1)) (depth + 1) l r later out := by
  have hlRules := hl.toSimple.rules hvalid hkl
  have hrRules := hr.toSimple.rules hvalid hkr
  have hmore : ∀ e ∈ l.rules ++ r.rules, e.Simple (depth + 1) space ∧ e.kind.isConstraint = true :=
    List.forall_mem_append.mpr ⟨fun e he => ⟨hlRules.rule he, hlRules.areRules.areConstraints e he⟩,
      fun e he => ⟨hrRules.rule he, hrRules.areRules.areConstraints e he⟩⟩
  have hflat : [l, r].flatMap Node.rules = l.rules ++ r.rules := by
    rw [List.flatMap_cons, List.flatMap_singleton]
  have horders (space : Space) (hvalid : space.Valid) (hregular : space.Regular) :=
    entails_orders hblind hvalid hregular depth
  unfold combineBy
  rw [hflat]
  refine ((addRules_spec hmeet False.elim hvalid .nil fun e he => (hmore e he).imp_left Simple.toCalm).and
    (addRules_condensed hblind horders hmeet hbalances hvalid ⟨.nil, fun _ => List.forall_mem_nil _⟩ hmore)).bind ?_
  rintro later out hvalid' hext ⟨hgathered, hout⟩
  -- If the rules of one operand support those of the other, they support what becomes of both.
  have hcovers {ps qs : List Node} (hregular : later.Regular) (hps : SimpleRules depth later ps)
      (hqs : SimpleRules depth later qs) (h : Support (Entails depth) ps qs) (hsubset : l.rules ++ r.rules ⊆ ps ++ qs) :
      ∃ kept, out = .ok kept ∧ Support (Entails depth) ps kept := by
    have horders := horders later hvalid' hregular
    have hcompatible := compatible_append hvalid' hregular horders hps hqs h
    obtain ⟨kept, hkept, hkeptSubset⟩ := hout.compatible hregular fun p hp q hq =>
      hcompatible p (hsubset hp) q (hsubset hq)
    have hself := support_append.mpr ⟨support_self hvalid' hregular horders hps, h⟩
    exact ⟨kept, hkept, fun e he => hself e (hsubset (hkeptSubset he))⟩
  have hleft (hregular : later.Regular) (h : Entails (depth + 1) l r) :=
    hcovers hregular (hlRules.extends hext) (hrRules.extends hext) h (List.Subset.refl _)
  have hright (hregular : later.Regular) (h : Entails (depth + 1) r l) :=
    hcovers hregular (hrRules.extends hext) (hlRules.extends hext) h List.perm_append_comm.subset
  cases out with
  | error d =>
      refine .pure hvalid' ⟨nofun, fun _ => nofun, fun hregular h => ?_, fun hregular h => ?_⟩
      · obtain ⟨kept, hkept, -⟩ := hleft hregular h
        cases hkept
      · obtain ⟨kept, hkept, -⟩ := hright hregular h
        cases hkept
  | ok kept =>
      have hgathered : Gathered False depth [] (l.rules ++ r.rules) later kept := hgathered
      have hkept : SimpleRules depth later kept :=
        ⟨hgathered.areRules, fun hregular e he => (hout.simple kept rfl e he).simple hregular⟩
      have hfits (hregular : later.Regular) : Fitting kept := by
        have hregular := hregular.earlier hext
        exact ((fitting_rules hvalid hl.holds hkl (hl.root hregular)).append
          (fitting_rules hvalid hr.holds hkr (hr.root hregular))).descends hgathered.descends
      dsimp only
      refine ((finish_spec hmeet False.elim hvalid' hkept.areRules False.elim).of_regular fun hregular =>
        finish_fitting hvalid' hkept (hfits hregular)).bind ?_
      rintro final out hfinal hext' ⟨hstands, hfinished⟩
      cases out with
      | error d =>
          have hnone (hregular : final.Regular) : False := by
            obtain ⟨n, hn, -⟩ := hfinished hregular
            cases hn
          exact .pure hfinal ⟨nofun, fun _ => nofun, fun hregular => (hnone hregular).elim,
            fun hregular => (hnone hregular).elim⟩
      | ok n =>
          have hstands : Stands False depth kept final n := hstands
          have hrules (hregular : final.Regular) :
              (n.Everywhere fun n => n.kind ≠ .union ∧ n.kind ≠ .morph) ∧ (n.rules.map typeId).Perm (kept.map typeId) := by
            obtain ⟨_, ⟨⟩, hrules⟩ := hfinished hregular
            exact hrules hregular
          have hn : n.SimpleRoot (depth + 1) final :=
            ⟨⟨hstands.calm, fun hregular => (hrules hregular).1⟩, fun _ => hstands.root⟩
          have hsupport (hregular : final.Regular) := support_of_perm hfinal hregular (horders final hfinal hregular) hn
            (hkept.extends hext') (hrules hregular).2
          have htrans {a b c : List Node} (hregular : final.Regular) (ha : ∀ e ∈ a, e.Simple (depth + 1) final)
              (hb : ∀ e ∈ b, e.Simple (depth + 1) final) (hc : ∀ e ∈ c, e.Simple (depth + 1) final) :=
            Support.trans hblind hfinal hregular (horders final hfinal hregular) ha hb hc
          have hnSimple (hregular : final.Regular) : ∀ e ∈ n.rules, e.Simple (depth + 1) final :=
            fun _ => (hn.rules hfinal hregular).rule
          have hkeptSimple : ∀ e ∈ kept, e.Simple (depth + 1) final := fun _ => (hkept.extends hext').rule
          have hgiven : ∀ e ∈ l.rules ++ r.rules, e.Simple (depth + 1) final :=
            fun e he => (hmore e he).1.extends (hext'.trans hext)
          obtain ⟨hlGiven, hrGiven⟩ := List.forall_mem_append.mp hgiven
          refine .pure hfinal ⟨?simple, ?below, fun hregular h => ?left, fun hregular h => ?right⟩
          case simple =>
            rintro _ ⟨⟩
            exact hn
          case below =>
            rintro hregular _ ⟨⟩
            exact support_append.mp (htrans hregular (hnSimple hregular) hkeptSimple hgiven (hsupport hregular).1
              (hout.below (hregular.earlier hext') kept rfl))
          case left =>
            obtain ⟨_, ⟨⟩, hlKept⟩ := hleft (hregular.earlier hext') h
            exact ⟨n, rfl, htrans hregular hlGiven hkeptSimple (hnSimple hregular) hlKept (hsupport hregular).2⟩
          case right =>
            obtain ⟨_, ⟨⟩, hrKept⟩ := hright (hregular.earlier hext') h
            exact ⟨n, rfl, htrans hregular hrGiven hkeptSimple (hnSimple hregular) hrKept (hsupport hregular).2⟩

omit hr hkl hkr hmeet hbalances in
/-- One of two roots says all that both say, if it says all that the other says. -/
theorem balanced_left (h : space.Regular → Entails (depth + 1) l r) :
    Balanced (Entails (depth + 1)) (depth + 1) l r space (.node l) := by
  have hself (hregular : space.Regular) : Entails (depth + 1) l l :=
    (entails_orders hblind hvalid hregular (depth + 1)).alike l l hl hl (beq_self_eq_true _)
  refine ⟨?simple, ?below, fun hregular _ => ⟨l, rfl, hself hregular⟩, fun _ h => ⟨l, rfl, h⟩⟩
  case simple =>
    rintro _ ⟨⟩
    exact hl
  case below =>
    rintro hregular _ ⟨⟩
    exact ⟨hself hregular, h hregular⟩

omit hkl hkr in
/-- Bases in order of kind and of different types. -/
theorem meetConstraints_balanced (hcl : l.kind.isConstraint = true) (hcr : r.kind.isConstraint = true)
    (horder : l.kind.order ≤ r.kind.order) (hne : l.sameType r = false) :
    Ensures ground True space (meetConstraints meet l r) fun later out =>
      out = .orthogonal ∨ Balanced (Entails (depth + 1)) (depth + 1) l r later out := by
  have horders (space : Space) (hvalid : space.Valid) (hregular : space.Regular) :=
    entails_orders hblind hvalid hregular depth
  refine ((meetConstraints_spec hmeet False.elim hvalid hl.toCalm hr.toCalm hcl hcr horder hne).and
    (meetConstraints_weighed horders hvalid hl.toSimple hr.toSimple hbalances hcl hcr hne)).imp ?_
  rintro later out hvalid' hext ⟨hmerged, hout⟩
  have hcompatible (h : Entails (depth + 1) l r ∨ Entails (depth + 1) r l) : Compatible (Entails depth) l r := by
    rw [entails_of_isConstraint hcl hcr, entails_of_isConstraint hcr hcl] at h
    exact h.imp_right .inl
  cases out with
  | orthogonal => exact .inl rfl
  | disjoint d =>
      have hnone (hregular : later.Regular) (h : Entails (depth + 1) l r ∨ Entails (depth + 1) r l) : False := by
        rcases hout.compatible hregular (hcompatible h) with h | h | h <;> cases h
      exact .inr ⟨nofun, fun _ => nofun, fun hregular h => (hnone hregular (.inl h)).elim,
        fun hregular h => (hnone hregular (.inr h)).elim⟩
  | node n =>
      have hmerged : Merge False depth later l r n := hmerged
      have hself {e : Node} (hregular : later.Regular) (he : e.SimpleRoot (depth + 1) later) : Entails (depth + 1) e e :=
        (entails_orders hblind hvalid' hregular (depth + 1)).alike e e he he (beq_self_eq_true _)
      have hl' := hl.extends hext
      have hr' := hr.extends hext
      refine .inr ⟨?simple, ?below, fun hregular h => ⟨n, rfl, ?left⟩, fun hregular h => ⟨n, rfl, ?right⟩⟩
      case simple =>
        rintro _ ⟨⟩
        refine ⟨hout.simple n rfl, fun hregular => ?_⟩
        have hbasis := ((hl'.kind_cases hregular).resolve_left fun h => by rw [h] at hcl; cases hcl)
        exact basis_not_refinement (hmerged.narrows l (.inl rfl) hbasis).isBasis
      case below =>
        rintro hregular _ ⟨⟩
        rw [entails_of_isConstraint hmerged.isConstraint hcl, entails_of_isConstraint hmerged.isConstraint hcr]
        exact hout.below hregular n rfl
      case left =>
        rcases hout.compatible hregular (hcompatible (.inl h)) with heq | heq | heq <;> cases heq
        · exact hself hregular hl'
        · exact h
      case right =>
        rcases hout.compatible hregular (hcompatible (.inr h)) with heq | heq | heq <;> cases heq
        · exact h
        · exact hself hregular hr'

/-- Simple roots in order of kind and of different types. -/
theorem meetIntersections_balanced (horder : l.kind.order ≤ r.kind.order) (hne : l.sameType r = false) :
    Ensures ground True space (meetIntersections meet l r) fun later out =>
      out = .orthogonal ∨ Balanced (Entails (depth + 1)) (depth + 1) l r later out := by
  unfold meetIntersections
  split
  · refine (combineBy_balanced hblind hmeet hbalances hvalid hl hr hkl hkr).bind ?_
    intro later out hvalid' hext hout
    cases out with
    | node n =>
        refine .pure hvalid' (.inr ?_)
        have hl' := hl.extends hext
        split
        · rename_i hsame
          refine balanced_left hblind hvalid' hl' fun hregular => ?_
          have horders := entails_orders hblind hvalid' hregular (depth + 1)
          have hn := hout.simple n rfl
          exact horders.trans l n r hl' hn (hr.extends hext) (horders.alike l n hl' hn (BEq.symm hsame))
            (hout.below hregular n rfl).2
        · exact hout
    | disjoint d => exact .pure hvalid' (.inr hout)
    | orthogonal => exact .pure hvalid' (.inl rfl)
  · rename_i hnot
    obtain ⟨hconstraint, hconstraint'⟩ := areConstraints_of_order hkl horder hnot
    exact meetConstraints_balanced hblind hmeet hbalances hvalid hl hr hconstraint hconstraint' horder hne

/-- Conjoining simple roots. -/
theorem conjoinBy_balanced : Ensures ground True space (conjoinBy meet (meetIntersections meet) l r) fun later out =>
    Balanced (Entails (depth + 1)) (depth + 1) l r later out := by
  have hmet : Ensures ground True space (meetBy (meetIntersections meet) l r) fun later out =>
      out = .orthogonal ∨ Balanced (Entails (depth + 1)) (depth + 1) l r later out := by
    refine meetBy_spec hvalid (fun hsame => .inr ?_) (fun horder hne => ?_) fun horder hne => ?_
    · refine balanced_left hblind hvalid hl fun hregular => ?_
      exact (entails_orders hblind hvalid hregular (depth + 1)).alike l r hl hr hsame
    · exact meetIntersections_balanced hblind hmeet hbalances hvalid hl hr hkl hkr horder hne
    · refine (meetIntersections_balanced hblind hmeet hbalances hvalid hr hl hkr hkl horder hne).imp ?_
      rintro _ _ _ _ (rfl | hout)
      · exact .inl rfl
      · exact .inr hout.invert
  unfold conjoinBy
  refine hmet.bind fun later out hvalid' hext hout => ?_
  have hl := hl.extends hext
  have hr := hr.extends hext
  cases out with
  | orthogonal => exact combineBy_balanced hblind hmeet hbalances hvalid' hl hr hkl hkr
  | node n => exact .pure hvalid' (hout.resolve_left nofun)
  | disjoint d => exact .pure hvalid' (hout.resolve_left nofun)

end

theorem conjoinBy_congr {meet rule rule' : Meet} (h : rule l r = rule' l r) (h' : rule r l = rule' r l) :
    conjoinBy meet rule l r = conjoinBy meet rule' l r := by
  rw [conjoinBy, conjoinBy, meetBy, meetBy, h, h']

/-- Nodes that are no morphs are intersected like what comes after morphs. -/
theorem meetMorphs_eq {meet : Meet} (h : l.kind ≠ .morph) : meetMorphs meet l r = meetIntersections meet l r := by
  unfold meetMorphs
  unfold kind at h
  cases hc : l.content with
  | morph input output transforms => exact absurd (by rw [hc]; rfl) h
  | _ => rfl

theorem meetUnions_eq {meet : Meet} (h : l.kind ≠ .union) : meetUnions meet l r = meetMorphs meet l r := by
  unfold meetUnions
  unfold kind at h
  cases hc : l.content with
  | union branches ordered => exact absurd (by rw [hc]; rfl) h
  | _ => rfl

theorem SimpleRoot.within (h : n.SimpleRoot depth space) : n.Within False depth space := ⟨h.toCalm, False.elim⟩

/-- What is simple in a regular space is so wherever it is in the end. -/
theorem Balanced.of_regular {out : Intersected} (h : Conjoined False depth l r space out)
    (h' : space.Regular → Balanced entails depth l r space out) : Balanced entails depth l r space out where
  simple := by
    rintro n rfl
    have h : Conjunct False depth l r space n := h
    have hroot (hregular : space.Regular) := (h' hregular).simple n rfl
    exact ⟨⟨h.calm, fun hregular => (hroot hregular).simple hregular⟩, fun hregular => (hroot hregular).root hregular⟩
  below := fun hregular => (h' hregular).below hregular
  left := fun hregular => (h' hregular).left hregular
  right := fun hregular => (h' hregular).right hregular

/-- Conjunctions at any depth weigh simple roots. -/
theorem conjoinWithin_balances (hblind : BlindToSign) (depth : Nat) :
    Balances ground (Entails depth) depth (conjoinWithin depth) := by
  induction depth with
  | zero =>
      intro space l r hvalid hl _
      exact Ensures.absurd hvalid (fun hregular => Nat.not_lt_zero _ (hl.shallow hregular)) (by rintro ⟨⟩)
  | succ depth ih =>
      intro space l r hvalid hl hr
      refine ((conjoinWithin_spec False.elim (depth + 1) space l r hvalid hl.within hr.within).of_regular
        fun hregular => ?_).imp fun _ _ _ _ hout => .of_regular hout.1 hout.2
      obtain ⟨hlUnion, hlMorph⟩ := (hl.simple hregular).self
      obtain ⟨hrUnion, hrMorph⟩ := (hr.simple hregular).self
      rw [conjoinWithin, conjoinBy_congr ((meetUnions_eq hlUnion).trans (meetMorphs_eq hlMorph))
        ((meetUnions_eq hrUnion).trans (meetMorphs_eq hrMorph))]
      exact conjoinBy_balanced hblind (conjoinWithin_spec False.elim depth) ih hvalid hl hr (hl.two_le_order hregular)
        (hr.two_le_order hregular)

/-- So do conjunctions of branches. -/
theorem conjoinBranches_balanced (hblind : BlindToSign) (hvalid : space.Valid) (hl : l.SimpleRoot (depth + 1) space)
    (hr : r.SimpleRoot (depth + 1) space) (hlUnion : l.kind ≠ .union) (hrUnion : r.kind ≠ .union) :
    Ensures ground True space (conjoinBranches (conjoinWithin depth) l r) fun later out =>
      Balanced (Entails (depth + 1)) (depth + 1) l r later out := by
  have hbranches : Branches False depth space [l, r] :=
    (branches_singleton hl.within hlUnion).append (branches_singleton hr.within hrUnion)
  refine ((conjoinBranches_spec (conjoinWithin_spec False.elim depth) False.elim space l r hvalid hbranches).of_regular
    fun hregular => ?_).imp fun _ _ _ _ hout => .of_regular hout.1 hout.2
  rw [conjoinBranches, conjoinBy_congr (meetMorphs_eq ((hl.simple hregular).self.2))
    (meetMorphs_eq ((hr.simple hregular).self.2))]
  exact conjoinBy_balanced hblind (conjoinWithin_spec False.elim depth) (conjoinWithin_balances hblind depth) hvalid hl hr
    (hl.two_le_order hregular) (hr.two_le_order hregular)

section

variable (hblind : BlindToSign) (hvalid : space.Valid) (hregular : space.Regular) (hl : l.SimpleRoot depth space)
  (hr : r.SimpleRoot depth space) {out : Intersected}

include hblind hvalid hregular hl hr

/-- An operand says all that the other says if and only if both together are of its type. -/
theorem Balanced.left_iff (h : Balanced (Entails depth) depth l r space out) :
    Entails depth l r ↔ ∃ n, out = .node n ∧ n.sameType l = true := by
  have horders := entails_orders hblind hvalid hregular depth
  constructor
  · intro hentails
    obtain ⟨n, hn, hln⟩ := h.left hregular hentails
    exact ⟨n, hn, horders.antisymm n l (h.simple n hn) hl (h.below hregular n hn).1 hln⟩
  · rintro ⟨n, hn, hsame⟩
    have hsimple := h.simple n hn
    have hln := horders.alike l n hl hsimple (BEq.comm.trans hsame)
    exact horders.trans l n r hl hsimple hr hln (h.below hregular n hn).2

theorem Balanced.right_iff (h : Balanced (Entails depth) depth l r space out) :
    Entails depth r l ↔ ∃ n, out = .node n ∧ n.sameType r = true := by
  rw [h.invert.left_iff hblind hvalid hregular hr hl]
  simp only [Intersected.invert_eq_node]

end

end Node

end SchemaAlgebra
