-- SUMMARY: Rules that stand side by side: gathering them again changes nothing, also after some were replaced.
import SchemaAlgebra.Proofs.Rewriting
import SchemaAlgebra.Proofs.Shapes
import Mathlib.Data.List.Forall2

/-!
# Rules side by side

The rules of an intersection leave nothing to merge, and this remains so when the
value of a property is replaced: the key is what keeps rules apart. Gathering such
rules keeps them as they are, so that combining them gives their intersection and
nothing else.
-/

namespace SchemaAlgebra

open SpaceM (Ensures)

theorem exists_mem_of_forall₂ {α β : Type} {R : α → β → Prop} {as : List α} {bs : List β} (h : List.Forall₂ R as bs)
    {b : β} (hb : b ∈ bs) : ∃ a ∈ as, R a b := by
  obtain ⟨i, hi, rfl⟩ := List.mem_iff_getElem.mp hb
  have hi' : i < as.length := h.length_eq ▸ hi
  exact ⟨as[i], List.getElem_mem hi', h.get hi' hi⟩

namespace Node

-- ---------------------------------------------------------------------------
-- Replacing rules
-- ---------------------------------------------------------------------------

/-- A rule takes the place of another: it is that one, or asks for the same property with another value. -/
def Replaces (n rule : Node) : Prop :=
  n = rule ∨ n.content.outline = rule.content.outline ∧ rule.content.property?.isSome = true

theorem Replaces.outline_eq {n rule : Node} (h : n.Replaces rule) : n.content.outline = rule.content.outline := by
  rcases h with rfl | ⟨h, -⟩
  · rfl
  · exact h

theorem Replaces.kind_eq {n rule : Node} (h : n.Replaces rule) : n.kind = rule.kind :=
  Content.kind_eq_of_outline h.outline_eq

theorem Replaces.slot?_eq {n rule : Node} (h : n.Replaces rule) : n.slot? = rule.slot? :=
  Content.slot?_eq_of_outline h.outline_eq

variable {a b : Node}

/-- What takes the place of a rule stands beside what the rule stands beside. -/
theorem Beside.replace (h : a.Beside false b) {n : Node} (hn : n.Replaces a) : n.Beside false b := by
  have hslot := hn.slot?_eq
  have hkind := hn.kind_eq
  rcases hn with rfl | ⟨-, hproperty⟩
  · exact h
  refine beside_of_slots (by rw [hkind]; exact h.left) h.right (fun slot hs hs' => ?_) fun hclash => ?_
  · rw [hslot] at hs
    obtain ⟨rfl, -⟩ := h.slots slot hs hs'
    obtain ⟨d, hc⟩ := slot?_eq_some hs
    rw [hc] at hproperty
    cases hproperty
  · have horder := property?_isSome_iff.mp hproperty
    change Kind.required.order ≤ a.kind.order at horder
    rw [← hkind] at horder
    rcases hclash.kinds with ⟨hmax, -⟩ | ⟨hmin, -⟩
    · rw [hmax] at horder
      exact absurd horder (by decide)
    · rw [hmin] at horder
      exact absurd horder (by decide)

theorem beside_of_replaces {rules ns : List Node} (h : List.Forall₂ (fun rule n => n.Replaces rule) rules ns)
    (hbeside : rules.Pairwise (Beside false)) : ns.Pairwise (Beside false) := by
  induction h with
  | nil => exact .nil
  | @cons rule n rest ns hreplaces hrest ih =>
      obtain ⟨hall, hbeside⟩ := List.pairwise_cons.mp hbeside
      refine List.pairwise_cons.mpr ⟨fun m hm => ?_, ih hbeside⟩
      obtain ⟨r, hr, hm⟩ := exists_mem_of_forall₂ hrest hm
      exact (((hall r hr).replace hreplaces).symm.replace hm).symm

-- ---------------------------------------------------------------------------
-- Intersections with a basis
-- ---------------------------------------------------------------------------

/-- A basis and refinements that leave nothing to merge. -/
structure SideBySide (basis : Node) (refinements : List Node) : Prop where
  isBasis : basis.isBasis = true
  areRefinements : ∀ c ∈ refinements, c.isRefinement = true
  ne_nil : refinements ≠ []
  beside : (basis :: refinements).Pairwise (Beside false)
  applicable : ∀ c ∈ refinements, c.applicabilityError? (some basis) = none

variable {basis : Node} {refinements ns : List Node}

theorem SideBySide.areConstraints (h : SideBySide basis refinements) :
    ∀ e ∈ basis :: refinements, e.kind.isConstraint = true :=
  List.forall_mem_cons.mpr
    ⟨isConstraint_of_isBasis h.isBasis, fun c hc => (kind_of_isRefinement (h.areRefinements c hc)).2.2⟩

theorem SideBySide.notUnits (h : SideBySide basis refinements) : ∀ e ∈ basis :: refinements, e.kind ≠ .unit := by
  refine List.forall_mem_cons.mpr ⟨?_, fun c hc => ?_⟩
  · obtain ⟨c, rest, rfl⟩ := List.exists_cons_of_ne_nil h.ne_nil
    exact ((List.pairwise_cons.mp h.beside).1 c List.mem_cons_self).left
  · exact (kind_of_isRefinement (h.areRefinements c hc)).1

theorem SideBySide.settled (h : SideBySide basis refinements) : Settled (some basis) (sortConstraints refinements) :=
  settled_sorted (h.beside.imp Beside.toApart) (by rintro _ ⟨⟩; exact h.isBasis) h.areRefinements
    (firstInapplicable?_eq_none.mpr h.applicable) fun hnil => absurd hnil h.ne_nil

/-- They can be interned as an intersection. -/
theorem SideBySide.ready (h : SideBySide basis refinements) {ground : Prop} {space : Space} {caption : Caption}
    (hholds : ∀ e ∈ basis :: refinements, space.Holds e) :
    (Content.intersection (some basis) (sortConstraints refinements)).Ready ground space caption := by
  have hsorted : (basis :: sortConstraints refinements).Perm (basis :: refinements) :=
    (sortConstraints_perm refinements).cons basis
  exact ⟨h.settled, h.beside.perm hsorted.symm Beside.symm, fun c hc => hholds c (hsorted.mem_iff.mp hc),
    fun _ _ => trivial⟩

/-- Refinements can be replaced all at once. -/
theorem SideBySide.replace (h : SideBySide basis refinements)
    (hns : List.Forall₂ (fun rule n => n.Replaces rule) refinements ns) : SideBySide basis ns where
  isBasis := h.isBasis
  areRefinements := by
    intro n hn
    obtain ⟨c, hc, hn⟩ := exists_mem_of_forall₂ hns hn
    rw [isRefinement, hn.kind_eq]
    exact h.areRefinements c hc
  ne_nil := by
    rintro rfl
    exact h.ne_nil (List.forall₂_nil_right_iff.mp hns)
  beside := beside_of_replaces (.cons (.inl rfl) hns) h.beside
  applicable := by
    intro n hn
    obtain ⟨c, hc, hn⟩ := exists_mem_of_forall₂ hns hn
    rw [applicabilityError?_eq_none, hn.slot?_eq]
    exact applicabilityError?_eq_none.mp (h.applicable c hc)

/-- Next to a basis of objects there is no divisor. -/
theorem SideBySide.exact (h : SideBySide basis refinements) (hdomain : basis.basisDomain? = some .object) :
    (Content.intersection (some basis) (sortConstraints refinements)).Exact := by
  have hnone : ∀ c ∈ refinements, c.kind ≠ .divisor := by
    intro c hc hkind
    have happlies := h.applicable c hc
    unfold kind at hkind
    cases hcontent : c.content with
    | divisor d => simp [applicabilityError?, hcontent, hdomain] at happlies
    | _ => rw [hcontent] at hkind; cases hkind
  refine List.pairwise_of_forall_mem_list fun a ha _ _ hboth => ?_
  exact hnone a ((sortConstraints_perm refinements).mem_iff.mp ha) hboth.1

-- ---------------------------------------------------------------------------
-- Gathering
-- ---------------------------------------------------------------------------

variable [Behaviour] {ground promised : Prop} {depth : Nat} {space : Space} {meet : Meet}

/-- The intersection of rules next to a basis of objects allows what all of them allow. -/
theorem SideBySide.allows (h : SideBySide basis refinements) (hdomain : basis.basisDomain? = some .object)
    (hvalid : space.Valid) (hregular : space.Regular) (hholds : ∀ e ∈ basis :: refinements, space.Holds e) {n : Node}
    (hinterned : space.Interned (.intersection (some basis) (sortConstraints refinements)) n) (v : Value) :
    n.allows v = everyAllows (basis :: refinements) v := by
  have hperm : (basis :: sortConstraints refinements).Perm (basis :: refinements) :=
    (sortConstraints_perm refinements).cons basis
  rw [(hinterned.means hregular (h.exact hdomain)).allows hvalid hinterned.holds
    fun c hc => hholds c (hperm.mem_iff.mp hc), ← everyAllows_perm hperm]
  rfl

/-- Folding a rule into rules that it stands beside adds it to them, and cannot fail. -/
theorem foldInto_beside {safe : Safety} (hmeet : Conjoins ground safe depth meet) (hblind : safe.exact → BlindToSign)
    {rule : Node} {rules : List Node} (hvalid : space.Valid)
    (hrule : rule.Calm safe (depth + 1) space ∧ rule.kind.isConstraint = true)
    (hrules : ∀ e ∈ rules, e.Calm safe (depth + 1) space ∧ e.kind.isConstraint = true)
    (hbeside : ∀ e ∈ rules, e.Beside false rule) :
    Ensures ground promised space (foldInto meet rule none rules) fun _ out => out = .ok (rules ++ [rule]) := by
  induction rules generalizing space with
  | nil => exact Ensures.pure hvalid rfl
  | cons e rest ih =>
      obtain ⟨⟨hcalm, hkind⟩, hrest⟩ := List.forall_mem_cons.mp hrules
      obtain ⟨hfirst, hbeside⟩ := List.forall_mem_cons.mp hbeside
      have hmeets : Ensures ground promised space (meetRules meet e rule) fun _ out => out = .orthogonal := by
        have horthogonal := @meetRules_beside _ space e rule meet hfirst hvalid hcalm.holds hrule.1.holds hkind hrule.2
        refine { meetRules_spec hmeet hblind hvalid hcalm hrule.1 hkind hrule.2 with
          result := fun out hout => ?_
          succeeds := fun _ _ => ⟨_, horthogonal⟩ }
        rw [horthogonal] at hout
        exact (Except.ok.inj hout).symm
      unfold foldInto
      refine hmeets.bind ?_
      rintro later _ hvalid' hext rfl
      dsimp only
      refine (ih hvalid' (hrule.imp_left fun h => h.extends hext)
        (fun c hc => (hrest c hc).imp_left fun h => h.extends hext) hbeside).bind ?_
      rintro final _ hfinal - rfl
      exact Ensures.pure hfinal rfl

theorem addRules_beside {safe : Safety} (hmeet : Conjoins ground safe depth meet) (hblind : safe.exact → BlindToSign)
    {rules more : List Node} (hvalid : space.Valid)
    (hrules : ∀ e ∈ rules ++ more, e.Calm safe (depth + 1) space ∧ e.kind.isConstraint = true)
    (hbeside : (rules ++ more).Pairwise (Beside false)) :
    Ensures ground promised space (addRules meet rules more) fun _ out => out = .ok (rules ++ more) := by
  induction more generalizing space rules with
  | nil =>
      rw [List.append_nil]
      exact Ensures.pure hvalid rfl
  | cons rule rest ih =>
      obtain ⟨hkept, hmore⟩ := List.forall_mem_append.mp hrules
      have hrule := hmore rule List.mem_cons_self
      have hacross (e : Node) (he : e ∈ rules) : e.Beside false rule :=
        (List.pairwise_append.mp hbeside).2.2 e he rule List.mem_cons_self
      unfold addRules addRule
      rw [if_pos hrule.2]
      refine (foldInto_beside hmeet hblind hvalid hrule hkept hacross).bind ?_
      rintro later _ hvalid' hext rfl
      dsimp only
      rw [List.append_cons rules rule rest] at hrules hbeside ⊢
      exact ih hvalid' (fun e he => (hrules e he).imp_left fun h => h.extends hext) hbeside

omit [Behaviour] in
theorem splitBasis_refinements {basis : Option Node} {constraints : List Node}
    (h : ∀ c ∈ constraints, c.isRefinement = true) : splitBasis basis constraints = pure (basis, constraints) := by
  induction constraints with
  | nil => rfl
  | cons c rest ih =>
      obtain ⟨hc, hrest⟩ := List.forall_mem_cons.mp h
      unfold splitBasis
      rw [(kind_of_isRefinement hc).2.1, if_neg Bool.false_ne_true, ih hrest, pure_bind]

omit [Behaviour] in
theorem flatMap_rules {operands : List Node} (h : ∀ o ∈ operands, o.kind.isConstraint = true) :
    operands.flatMap rules = operands := by
  induction operands with
  | nil => rfl
  | cons o rest ih =>
      obtain ⟨ho, hrest⟩ := List.forall_mem_cons.mp h
      rw [List.flatMap_cons, rules_of_isConstraint ho, ih hrest, List.singleton_append]

/-- Folded rules that leave nothing to merge are interned as they are. -/
theorem SideBySide.finish (h : SideBySide basis refinements) (origin : Origin) (caption : Caption) :
    finish meet origin caption (basis :: refinements) =
      return .ok (← SpaceM.intern (.intersection (some basis) (sortConstraints refinements)) caption) := by
  have hsplit : splitBasis none (basis :: refinements) = pure (some basis, refinements) := by
    unfold splitBasis
    rw [if_pos h.isBasis, splitBasis_refinements h.areRefinements]
  have hwith : finishWith origin caption (some basis) refinements =
      return .ok (← SpaceM.intern (.intersection (some basis) (sortConstraints refinements)) caption) := by
    obtain ⟨c, rest, rfl⟩ := List.exists_cons_of_ne_nil h.ne_nil
    unfold finishWith
    rw [firstInapplicable?_eq_none.mpr h.applicable]
  unfold Node.finish
  rw [hsplit, pure_bind]
  cases origin <;> exact hwith

theorem SideBySide.finish_spec (h : SideBySide basis refinements) {origin : Origin} {caption : Caption}
    (hvalid : space.Valid) (hholds : ∀ e ∈ basis :: refinements, space.Holds e) :
    Ensures ground promised space (Node.finish meet origin caption (basis :: refinements)) fun later out =>
      ∃ n, out = .ok n ∧ later.Interned (.intersection (some basis) (sortConstraints refinements)) n := by
  rw [h.finish]
  exact (Ensures.intern hvalid (h.ready hholds)).bind fun later n hvalid' _ hinterned => .pure hvalid' ⟨n, rfl, hinterned⟩

/-- Combining rules that leave nothing to merge gives the intersection of just these. -/
theorem SideBySide.combine (h : SideBySide basis refinements) (hvalid : space.Valid)
    (hholds : ∀ e ∈ basis :: refinements, space.Holds e) :
    Ensures ground promised space (combineProjected (basis :: refinements)) fun later n =>
      later.Interned (.intersection (some basis) (sortConstraints refinements)) n := by
  have hwithin := within_listNesting hholds
  have hadds : Ensures ground promised space (addRules (conjoinWithin (listNesting (basis :: refinements))) []
      ((basis :: refinements).flatMap rules)) fun _ out => out = .ok (basis :: refinements) := by
    rw [flatMap_rules h.areConstraints]
    exact addRules_beside (@conjoinWithin_spec _ ground False False.elim _) False.elim hvalid
      (fun e he => ⟨(hwithin e he).toCalm, h.areConstraints e he⟩) h.beside
  unfold combineProjected Node.combine combineBy
  refine Ensures.bind (P := fun later out => ∃ n, out = .node n ∧
    later.Interned (.intersection (some basis) (sortConstraints refinements)) n) (hadds.bind ?_) ?_
  · rintro first _ hvalid' hext rfl
    dsimp only
    refine (h.finish_spec hvalid' fun e he => hext.holds e (hholds e he)).bind ?_
    rintro final _ hfinal - ⟨n, rfl, hinterned⟩
    exact Ensures.pure hfinal ⟨n, rfl, hinterned⟩
  · rintro final _ hfinal - ⟨n, rfl, hinterned⟩
    exact Ensures.pure hfinal hinterned

-- ---------------------------------------------------------------------------
-- Definitions
-- ---------------------------------------------------------------------------

/-- Two rules that are intersected without a look at the space, and found to be orthogonal. -/
theorem meetRules_eq_orthogonal {a b : Node} (h : a.Beside false b)
    (hdivisors : ¬ (a.kind = .divisor ∧ b.kind = .divisor)) (hsame : a.sameType b = false)
    (ha : a.kind.isConstraint = true) (hb : b.kind.isConstraint = true) : meetRules meet a b = pure .orthogonal := by
  rw [meetRules, meetBy, hsame, if_neg Bool.false_ne_true]
  split
  · rw [meetConstraints_eq_orthogonal h.symm (fun hboth => hdivisors hboth.symm) hb ha, pure_bind]
    rfl
  · exact meetConstraints_eq_orthogonal h hdivisors ha hb

theorem foldInto_orthogonal {rule : Node} {rules : List Node} (h : ∀ e ∈ rules, meetRules meet e rule = pure .orthogonal) :
    foldInto meet rule none rules = pure (.ok (rules ++ [rule])) := by
  induction rules with
  | nil => rfl
  | cons e rest ih =>
      obtain ⟨he, hrest⟩ := List.forall_mem_cons.mp h
      rw [foldInto, he, pure_bind]
      dsimp only
      rw [ih hrest, pure_bind]
      rfl

theorem addRules_orthogonal {rules more : List Node} (hmore : ∀ e ∈ more, e.kind.isConstraint = true)
    (h : (rules ++ more).Pairwise fun a b => meetRules meet a b = pure .orthogonal) :
    addRules meet rules more = pure (.ok (rules ++ more)) := by
  induction more generalizing rules with
  | nil => rw [List.append_nil]; rfl
  | cons rule rest ih =>
      obtain ⟨hrule, hrest⟩ := List.forall_mem_cons.mp hmore
      have hacross (e : Node) (he : e ∈ rules) : meetRules meet e rule = pure .orthogonal :=
        (List.pairwise_append.mp h).2.2 e he rule List.mem_cons_self
      rw [addRules, addRule, if_pos hrule, foldInto_orthogonal hacross, pure_bind]
      rw [List.append_cons rules rule rest] at h ⊢
      exact ih hrest h

/-- Rules of different types that leave nothing to merge, and of which no two are divisors, are defined as they are. -/
theorem SideBySide.ofDefinition (h : SideBySide basis refinements) (hdiffer : (basis :: refinements).Pairwise fun a b =>
    a.sameType b = false ∧ ¬ (a.kind = .divisor ∧ b.kind = .divisor)) (caption : Caption) :
    ofDefinition (some basis) refinements caption =
      SpaceM.intern (.intersection (some basis) (sortConstraints refinements)) caption := by
  have horthogonal {meet : Meet} : (basis :: refinements).Pairwise fun a b => meetRules meet a b = pure .orthogonal :=
    (h.beside.and hdiffer).imp_of_mem fun {a b} ha hb hab =>
      meetRules_eq_orthogonal hab.1 hab.2.2 hab.2.1 (h.areConstraints a ha) (h.areConstraints b hb)
  unfold Node.ofDefinition ofDefinitionBy
  dsimp only
  rw [Option.toList_some, List.singleton_append, flatMap_rules h.areConstraints,
    addRules_orthogonal h.areConstraints horthogonal, pure_bind, List.nil_append]
  dsimp only
  rw [h.finish, bind_assoc]
  exact bind_pure _

/-- A basis alone is defined as itself, with its caption. -/
theorem ofDefinition_basis (h : basis.isBasis = true) (caption : Caption) : ofDefinition (some basis) [] caption =
    if caption.isEmpty then pure basis else SpaceM.intern basis.content caption := by
  have hadds {meet : Meet} : addRules meet [] ([basis].flatMap rules) = pure (.ok [basis]) := by
    rw [flatMap_rules (List.forall_mem_singleton.mpr (isConstraint_of_isBasis h)), addRules, addRule,
      if_pos (isConstraint_of_isBasis h)]
    rfl
  have hfinish {meet : Meet} : Node.finish meet .definition caption [basis] =
      if caption.isEmpty then pure (.ok basis) else return .ok (← SpaceM.intern basis.content caption) := by
    unfold Node.finish splitBasis
    rw [if_pos h]
    rfl
  unfold Node.ofDefinition ofDefinitionBy
  dsimp only
  rw [Option.toList_some, List.append_nil, hadds, pure_bind]
  dsimp only
  rw [hfinish]
  split
  · rfl
  · rw [bind_assoc]
    exact bind_pure _

end Node

end SchemaAlgebra
