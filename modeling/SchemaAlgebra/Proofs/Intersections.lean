-- SUMMARY: Finishing folded rules and conjoining nodes below unions: what the result allows, and that it exists.
import SchemaAlgebra.Proofs.Folding

/-!
# Intersections

Rules that were gathered from intersections and bases always suit the basis that
is left of them, so that finishing them neither fails nor finds a conflict. What
is built from them allows what every one of them allows.
-/

namespace SchemaAlgebra

-- ---------------------------------------------------------------------------
-- Rules and their basis
-- ---------------------------------------------------------------------------

theorem Slot.suits_of_none {slot : Slot} (h : slot.Suits none) (basis : Option Node) : slot.Suits basis := by
  cases slot with
  | predicate p => exact trivial
  | basis => exact h
  | max axis => cases axis <;> cases h
  | min axis => cases axis <;> cases h
  | _ => cases h

namespace Node

open SpaceM (Ensures)

/-- Every rule that is no basis can apply to one of the rules that are, if it needs a basis at all; or one rule is a
unit, which leaves no other. -/
def Fitting (rules : List Node) : Prop :=
  (∃ e ∈ rules, e.kind = .unit) ∨ ∀ c ∈ rules, c.isBasis = true ∨
    ∃ basis : Option Node, (∀ b ∈ basis, b ∈ rules ∧ b.isBasis = true) ∧ c.applicabilityError? basis = none

theorem Fitting.append {a b : List Node} (ha : Fitting a) (hb : Fitting b) : Fitting (a ++ b) := by
  rcases ha with ⟨e, he, hunit⟩ | ha
  · exact .inl ⟨e, List.mem_append_left _ he, hunit⟩
  rcases hb with ⟨e, he, hunit⟩ | hb
  · exact .inl ⟨e, List.mem_append_right _ he, hunit⟩
  refine .inr fun c hc => ?_
  rcases List.mem_append.mp hc with hc | hc
  · refine (ha c hc).imp_right ?_
    rintro ⟨basis, hbasis, happlies⟩
    exact ⟨basis, fun x hx => (hbasis x hx).imp_left (List.mem_append_left _), happlies⟩
  · refine (hb c hc).imp_right ?_
    rintro ⟨basis, hbasis, happlies⟩
    exact ⟨basis, fun x hx => (hbasis x hx).imp_left (List.mem_append_right _), happlies⟩

theorem Fitting.descends {rules out : List Node} (h : Fitting rules) (hdescends : Descends rules out) :
    Fitting out := by
  rcases h with ⟨e, he, hunit⟩ | h
  · obtain ⟨e', he', hnarrows⟩ := hdescends.bases e he (by rw [isBasis, hunit]; rfl)
    rcases hnarrows with hunit' | ⟨hne, -⟩
    · exact .inl ⟨e', he', hunit'⟩
    · exact absurd hunit hne
  by_cases hunit : ∃ e ∈ out, e.kind = .unit
  · exact .inl hunit
  refine .inr fun c hc => ?_
  rcases hdescends.slots c hc with hbasis | ⟨c', hc', hslot⟩
  · exact .inl hbasis
  rcases h c' hc' with hbasis | ⟨basis, hmem, happlies⟩
  · exact .inl (isBasis_of_slot? hslot hbasis)
  obtain ⟨slot, hs, hsuits⟩ := applicabilityError?_eq_none.mp happlies
  have hs' : c.slot? = some slot := hslot.trans hs
  cases basis with
  | none => exact .inr ⟨none, by rintro _ ⟨⟩, applicabilityError?_eq_none.mpr ⟨slot, hs', hsuits⟩⟩
  | some b =>
      obtain ⟨hb, hbasis⟩ := hmem b rfl
      obtain ⟨b', hb', hnarrows⟩ := hdescends.bases b hb hbasis
      rcases hnarrows with hunit' | ⟨-, hbasis', hsuits'⟩
      · exact absurd ⟨b', hb', hunit'⟩ hunit
      · refine .inr ⟨some b', ?_, applicabilityError?_eq_none.mpr ⟨slot, hs', hsuits' slot hsuits⟩⟩
        rintro x ⟨⟩
        exact ⟨hb', hbasis'⟩

/-- Where rules fit and stand apart, all apply to the basis. -/
theorem Fitting.applicable {basis : Option Node} {constraints : List Node}
    (h : Fitting (basis.toList ++ constraints)) (hapart : (basis.toList ++ constraints).Pairwise (Apart false))
    (hconstraints : ∀ c ∈ constraints, c.isBasis = false) : firstInapplicable? basis constraints = none := by
  rcases h with ⟨e, he, hunit⟩ | h
  · have hb : e.isBasis = true := by rw [isBasis, hunit]; rfl
    rcases List.mem_append.mp he with hmem | hmem
    · cases constraints with
      | nil => rfl
      | cons c rest =>
          have hapart := (List.pairwise_append.mp hapart).2.2 e hmem c List.mem_cons_self
          exact absurd hunit hapart.left
    · rw [hconstraints e hmem] at hb
      cases hb
  · refine firstInapplicable?_eq_none.mpr fun c hc => ?_
    rcases h c (List.mem_append_right _ hc) with hb | ⟨basis', hmem, happlies⟩
    · rw [hconstraints c hc] at hb
      cases hb
    · obtain ⟨slot, hs, hsuits⟩ := applicabilityError?_eq_none.mp happlies
      refine applicabilityError?_eq_none.mpr ⟨slot, hs, ?_⟩
      cases basis' with
      | none => exact Slot.suits_of_none hsuits basis
      | some b =>
          obtain ⟨hb, hbasis'⟩ := hmem b rfl
          rcases List.mem_append.mp hb with hb | hb
          · rw [Option.mem_def.mp (Option.mem_toList.mp hb)]
            exact hsuits
          · rw [hconstraints b hb] at hbasis'
            cases hbasis'

theorem Settled.fitting {basis : Option Node} {constraints : List Node} (h : Settled basis constraints) :
    Fitting (basis.toList ++ constraints) := by
  refine .inr fun c hc => ?_
  rcases List.mem_append.mp hc with hc | hc
  · exact .inl (h.isBasis c (Option.mem_toList.mp hc))
  · refine .inr ⟨basis, fun b hb => ?_, firstInapplicable?_eq_none.mp h.applicable c hc⟩
    exact ⟨List.mem_append_left _ (Option.mem_toList.mpr hb), h.isBasis b hb⟩

variable [Behaviour]

-- ---------------------------------------------------------------------------
-- The meaning of lists of rules
-- ---------------------------------------------------------------------------

theorem everyAllows_append (a b : List Node) (v : Value) :
    everyAllows (a ++ b) v = (everyAllows a v && everyAllows b v) := by
  induction a with
  | nil => rfl
  | cons e rest ih => rw [List.cons_append, everyAllows, everyAllows, ih, Bool.and_assoc]

theorem everyAllows_perm {a b : List Node} (h : a.Perm b) (v : Value) : everyAllows a v = everyAllows b v := by
  rw [Bool.eq_iff_iff, Discriminant.everyAllows_iff, Discriminant.everyAllows_iff]
  simp only [h.mem_iff]

theorem everyAllows_toList (basis : Option Node) (v : Value) :
    everyAllows basis.toList v = basisAllows basis v := by
  cases basis with
  | none => rfl
  | some b => exact Bool.and_true _

variable {ground : Prop} {safe : Safety} {depth : Nat} {space : Space} {l r : Node}

/-- A node allows what all its rules allow. -/
theorem everyAllows_rules (hvalid : space.Valid) {node : Node} (h : space.Holds node) (v : Value) :
    everyAllows node.rules v = node.allows v := by
  rw [hvalid.allows h]
  unfold rules
  split
  · rename_i hc
    rw [hc, everyAllows_append, everyAllows_toList]
    rfl
  · rw [← hvalid.allows h]
    exact Bool.and_true _

theorem everyAllows_flatMap_rules (hvalid : space.Valid) {nodes : List Node} (h : ∀ n ∈ nodes, space.Holds n)
    (v : Value) : everyAllows (nodes.flatMap rules) v = everyAllows nodes v := by
  induction nodes with
  | nil => rfl
  | cons node rest ih =>
      obtain ⟨hnode, hrest⟩ := List.forall_mem_cons.mp h
      rw [List.flatMap_cons, everyAllows_append, everyAllows_rules hvalid hnode, ih hrest, everyAllows]

-- ---------------------------------------------------------------------------
-- Finishing
-- ---------------------------------------------------------------------------

/-- A node that stands for rules in a space: an intersection of them, or the basis that they come down to. -/
structure Stands (safe : Safety) (depth : Nat) (rules : List Node) (space : Space) (node : Node) : Prop where
  calm : node.Calm safe (depth + 1) space
  kind : node.kind = .intersection ∨ node.isBasis = true
  allows : BlindToSign → space.Regular → ∀ v, Agrees safe.exact (node.allows v) (everyAllows rules v)

theorem Stands.root {rules : List Node} {node : Node} (h : Stands safe depth rules space node) :
    node.isRefinement = false := by
  rcases h.kind with hkind | hbasis
  · rw [isRefinement, hkind]
    rfl
  · exact basis_not_refinement hbasis

omit [Behaviour] in
/-- Rules that stand apart have one basis at most, and splitting it off loses none of them. -/
theorem splitBasis_eq {basis : Option Node} {rules : List Node}
    (hapart : (basis.toList ++ rules).Pairwise (Apart false)) (hbasis : ∀ b ∈ basis, b.isBasis = true) :
    ∃ basis' constraints, splitBasis basis rules = pure (basis', constraints) ∧
      (basis'.toList ++ constraints).Perm (basis.toList ++ rules) ∧ (∀ b ∈ basis', b.isBasis = true) ∧
        ∀ c ∈ constraints, c.isBasis = false := by
  induction rules generalizing basis with
  | nil => exact ⟨basis, [], rfl, .refl _, hbasis, List.forall_mem_nil _⟩
  | cons rule rest ih =>
      unfold splitBasis
      split
      · rename_i hrule
        cases basis with
        | some existing =>
            have happart := (List.pairwise_cons.mp hapart).1 rule List.mem_cons_self
            have hslots := happart.slots .basis (slot?_of_isBasis (hbasis existing rfl)) (slot?_of_isBasis hrule)
            cases hslots.1
        | none =>
            refine ih hapart ?_
            rintro b ⟨⟩
            exact hrule
      · rename_i hrule
        obtain ⟨basis', constraints, heq, hperm, hbasis', hconstraints⟩ :=
          ih (hapart.sublist ((List.sublist_cons_self rule rest).append_left _)) hbasis
        refine ⟨basis', rule :: constraints, ?_, ?_, hbasis', ?_⟩
        · rw [heq, pure_bind]
        · exact (List.perm_middle.trans (hperm.cons rule)).trans List.perm_middle.symm
        · exact List.forall_mem_cons.mpr ⟨by simpa using hrule, hconstraints⟩

theorem Rules.of_perm {rules rules' : List Node} (h : Rules safe depth space rules) (hperm : rules'.Perm rules) :
    Rules safe depth space rules' where
  calm := fun e he => h.calm e (hperm.mem_iff.mp he)
  areConstraints := fun e he => h.areConstraints e (hperm.mem_iff.mp he)
  beside := h.beside.perm hperm.symm Beside.symm
  exact := fun hregular => (h.exact hregular).perm hperm.symm Beside.symm

theorem Rules.apart {rules : List Node} (h : Rules safe depth space rules) : rules.Pairwise (Apart false) :=
  h.beside.imp Beside.toApart

/-- The same content under another caption. -/
theorem stands_of_interned {n m : Node} {content : Content Node} (h : space.Interned content n) (hvalid : space.Valid)
    (hm : m.Calm safe (depth + 1) space) (hcontent : m.content = content) (hbasis : content.kind.isBasis = true) :
    Stands safe depth [m] space n := by
  subst hcontent
  have hexact (hregular : space.Regular) := hregular.exact m hm.holds
  have hchildren := hvalid.closed m hm.holds
  refine ⟨h.calm hvalid hexact hchildren (fun hsafe hregular => ?_) (fun hsafe hregular c hc => ?_) fun hregular => ?_,
    ?_, ?_⟩
  · exact (hm.admitted hsafe hregular).self
  · exact (hm.admitted hsafe hregular).child hc
  · rw [← nesting_eq]
    exact hm.shallow hregular
  · rw [isBasis, kind, Content.kind_eq_of_outline h.outline]
    exact .inr hbasis
  · intro _ hregular v
    refine .of_eq ?_
    rw [(h.means hregular (hexact hregular)).allows hvalid h.holds hchildren, ← hvalid.allows hm.holds]
    exact (Bool.and_true _).symm

omit [Behaviour] in
theorem settled_sorted {basis : Option Node} {constraints : List Node}
    (hapart : (basis.toList ++ constraints).Pairwise (Apart false)) (hbasis : ∀ b ∈ basis, b.isBasis = true)
    (hrefinements : ∀ c ∈ constraints, c.isRefinement = true) (happlies : firstInapplicable? basis constraints = none)
    (halone : constraints = [] → basis = none) : Settled basis (sortConstraints constraints) where
  isBasis := hbasis
  areRefinements := fun c hc => hrefinements c ((sortConstraints_perm constraints).mem_iff.mp hc)
  sorted := sortConstraints_sorted constraints
  apart := hapart.perm ((sortConstraints_perm constraints).symm.append_left _) Apart.symm
  applicable := by
    refine firstInapplicable?_eq_none.mpr fun c hc => ?_
    exact firstInapplicable?_eq_none.mp happlies c ((sortConstraints_perm constraints).mem_iff.mp hc)
  notAlone := fun h => halone (List.perm_nil.mp (h ▸ (sortConstraints_perm constraints).symm))

omit [Behaviour] in
theorem optionNesting_lt {node : Option Node} {depth : Nat} :
    optionNesting node < depth + 1 ↔ ∀ n ∈ node, n.nesting < depth + 1 := by
  cases node with
  | none => simp [optionNesting]
  | some n => simp [optionNesting]

/-- Rules side by side, interned as an intersection. -/
theorem stands_of_rules {basis : Option Node} {constraints : List Node} {n : Node} (hvalid : space.Valid)
    (hrules : Rules safe depth space (basis.toList ++ constraints))
    (hinterned : space.Interned (.intersection basis constraints) n) :
    Stands safe depth (basis.toList ++ constraints) space n := by
  have hcalm := hrules.calm
  have hexact (hregular : space.Regular) : (Content.intersection basis constraints).Exact :=
    (List.pairwise_append.mp (hrules.exact hregular)).2.1.imp Beside.not_divisors
  refine ⟨?_, ?_, fun _ hregular v => .of_eq ?_⟩
  · refine hinterned.calm hvalid hexact (fun c hc => (hcalm c hc).holds)
      (fun _ _ => Safety.admits_of_kind (by rintro ⟨⟩) (by rintro ⟨⟩))
      (fun hsafe hregular c hc => (hcalm c hc).admitted hsafe hregular) fun hregular => ?_
    refine Nat.max_lt.mpr ⟨optionNesting_lt.mpr fun b hb => ?_, listNesting_lt.mpr fun c hc => ?_⟩
    · exact (hcalm b (List.mem_append_left _ (Option.mem_toList.mpr hb))).shallow hregular
    · exact (hcalm c (List.mem_append_right _ hc)).shallow hregular
  · exact .inl (Content.kind_eq_of_outline hinterned.outline)
  · rw [(hinterned.means hregular (hexact hregular)).allows hvalid hinterned.holds fun c hc => (hcalm c hc).holds,
      everyAllows_append, everyAllows_toList]
    rfl

/-- Rules side by side that suit their basis can be interned as an intersection. -/
theorem ready_sorted {caption : Caption} {basis : Option Node} {constraints : List Node}
    (hrules : Rules safe depth space (basis.toList ++ constraints)) (hbasis : ∀ b ∈ basis, b.isBasis = true)
    (hconstraints : ∀ c ∈ constraints, c.isBasis = false) (happlicable : firstInapplicable? basis constraints = none)
    (halone : constraints = [] → basis = none) :
    Rules safe depth space (basis.toList ++ sortConstraints constraints) ∧
      (Content.intersection basis (sortConstraints constraints)).Ready ground space caption := by
  have hrefinements : ∀ c ∈ constraints, c.isRefinement = true := by
    intro c hc
    have hor := hrules.areConstraints c (List.mem_append_right _ hc)
    have hnb := hconstraints c hc
    rw [isBasis] at hnb
    rw [Kind.isConstraint, hnb, Bool.false_or] at hor
    exact hor
  have hsorted := hrules.of_perm ((sortConstraints_perm constraints).append_left basis.toList)
  exact ⟨hsorted, settled_sorted hrules.apart hbasis hrefinements happlicable halone, hsorted.beside,
    fun c hc => (hsorted.calm c hc).holds, fun _ _ => trivial⟩

theorem finishWith_spec {origin : Origin} {caption : Caption} {basis : Option Node} {constraints : List Node}
    (hvalid : space.Valid) (hrules : Rules safe depth space (basis.toList ++ constraints))
    (hbasis : ∀ b ∈ basis, b.isBasis = true) (hconstraints : ∀ c ∈ constraints, c.isBasis = false)
    (hfits : safe → space.Regular → Fitting (basis.toList ++ constraints)) :
    Ensures ground safe space (finishWith origin caption basis constraints) fun later out =>
      Settles (Stands safe depth (basis.toList ++ constraints) later) (safe → later.Regular → False) out := by
  have happlies (hsafe : safe) (hregular : space.Regular) :=
    (hfits hsafe hregular).applicable hrules.apart hconstraints
  unfold finishWith
  split
  · rename_i h
    have hnone : safe → space.Regular → False := by
      intro hsafe hregular
      rw [happlies hsafe hregular] at h
      cases h
    split
    · exact Ensures.pure hvalid hnone
    · exact Ensures.refuse hvalid hnone
  rename_i happlicable
  split
  · rename_i basis
    have hcalm := hrules.calm basis List.mem_cons_self
    have hisBasis := hbasis basis rfl
    split
    · refine Ensures.pure hvalid ⟨hcalm, .inr hisBasis, fun _ _ v => .of_eq ?_⟩
      exact (Bool.and_true _).symm
    · have hcanonical : basis.content.Canonical caption := by
        rcases basis_cases hisBasis with ⟨_, hc⟩ | ⟨_, hc⟩ | ⟨_, hc⟩ <;> rw [hc] <;> exact trivial
      refine (Ensures.intern hvalid (hvalid.ready hcalm.holds hcanonical)).bind ?_
      intro later n hvalid' hext hinterned
      exact Ensures.pure hvalid' (stands_of_interned hinterned hvalid' (hcalm.extends hext) rfl hisBasis)
  · rename_i hnot
    have halone (h : constraints = []) : basis = none := by
      cases basis with
      | none => rfl
      | some b => exact (hnot b rfl h).elim
    obtain ⟨hsorted, hready⟩ := @ready_sorted _ _ safe depth space caption basis constraints hrules hbasis hconstraints
      happlicable halone
    have hperm : (basis.toList ++ sortConstraints constraints).Perm (basis.toList ++ constraints) :=
      (sortConstraints_perm constraints).append_left _
    refine (Ensures.intern hvalid hready).bind fun later n hvalid' hext hinterned => Ensures.pure hvalid' ?_
    have hstands := stands_of_rules hvalid' (hsorted.extends hext) hinterned
    refine ⟨hstands.calm, hstands.kind, fun hblind hregular v => ?_⟩
    rw [← everyAllows_perm hperm]
    exact hstands.allows hblind hregular v

omit [Behaviour] in
/-- Implied bases are domains and constructors. -/
theorem impliedBasis?_cases {constraint : Node} {content : Content Node}
    (h : constraint.impliedBasis? = some content) : (∃ d, content = .domain d) ∨ ∃ p, content = .proto p := by
  unfold impliedBasis? at h
  cases hc : constraint.content with
  | max bound =>
      simp only [hc] at h
      cases haxis : bound.axis <;> rw [haxis] at h <;> cases h
      · exact .inl ⟨_, rfl⟩
      · exact .inr ⟨_, rfl⟩
  | min bound =>
      simp only [hc] at h
      cases haxis : bound.axis <;> rw [haxis] at h <;> cases h
      · exact .inl ⟨_, rfl⟩
      · exact .inr ⟨_, rfl⟩
  | _ => rw [hc] at h; cases h <;> exact .inl ⟨_, rfl⟩

theorem internBasis_spec (depth : Nat) {content : Content Node}
    (h : (∃ d, content = .domain d) ∨ ∃ p, content = .proto p) (hvalid : space.Valid) :
    Ensures ground safe space (SpaceM.internPlain content) fun later n =>
      n.Calm safe (depth + 1) later ∧ n.kind.isConstraint = true := by
  have hready : content.Ready ground space .none := by
    rcases h with ⟨d, rfl⟩ | ⟨p, rfl⟩ <;> exact ⟨trivial, trivial, List.forall_mem_nil _, fun _ _ => trivial⟩
  refine (Ensures.intern hvalid hready).imp fun later n hvalid' _ hinterned => ⟨?_, ?_⟩
  · rcases h with ⟨d, rfl⟩ | ⟨p, rfl⟩
    all_goals exact hinterned.calm_leaf hvalid' (fun _ => trivial) rfl rfl (by rintro ⟨⟩) (by rintro ⟨⟩)
  · rw [kind, Content.kind_eq_of_outline hinterned.outline]
    rcases h with ⟨d, rfl⟩ | ⟨p, rfl⟩ <;> rfl

omit [Behaviour] in
/-- What applies without a basis implies none. -/
theorem impliedBasis?_eq_none {constraint : Node} (h : constraint.applicabilityError? none = none) :
    constraint.impliedBasis? = none := by
  obtain ⟨slot, hslot, hsuits⟩ := applicabilityError?_eq_none.mp h
  cases slot with
  | predicate p =>
      unfold impliedBasis?
      rw [slot?_eq_some hslot]
  | basis => exact hsuits.elim
  | max axis => cases axis <;> cases hsuits
  | min axis => cases axis <;> cases hsuits
  | _ => cases hsuits

theorem finish_spec {meet : Meet} (hmeet : Conjoins ground safe depth meet) (hblind : safe.exact → BlindToSign)
    {origin : Origin} {caption : Caption} {rules : List Node} (hvalid : space.Valid)
    (hrules : Rules safe depth space rules) (hfits : safe → space.Regular → Fitting rules) :
    Ensures ground safe space (finish meet origin caption rules) fun later out =>
      Settles (Stands safe depth rules later) (safe → later.Regular → False) out := by
  obtain ⟨basis, constraints, heq, hperm, hbasis, hconstraints⟩ := @splitBasis_eq none rules hrules.apart nofun
  have hrules' := hrules.of_perm hperm
  have hfits' (hsafe : safe) (hregular : space.Regular) : Fitting (basis.toList ++ constraints) :=
    (hfits hsafe hregular).descends ((Descends.refl rules).of_perm (.refl rules) hperm.symm)
  unfold finish
  rw [heq, pure_bind]
  dsimp only
  split
  · -- Only a bare refinement implies a basis; the basis then restricts what is left of the rules further.
    rename_i implied himplied
    have hnone : safe → space.Regular → False := by
      intro hsafe hregular
      have happlies := (hfits' hsafe hregular).applicable hrules'.apart hconstraints
      obtain ⟨c, hc, hsome⟩ := List.exists_of_findSome?_eq_some himplied
      rw [impliedBasis?_eq_none (firstInapplicable?_eq_none.mp happlies c hc)] at hsome
      cases hsome
    obtain ⟨c, hc, hsome⟩ := List.exists_of_findSome?_eq_some himplied
    refine (internBasis_spec depth (impliedBasis?_cases hsome) hvalid).bind ?_
    rintro later n hvalid' hext ⟨hn, hconstraint⟩
    refine (addRule_spec hmeet hblind hvalid' (hrules'.extends hext) hn hconstraint).bind ?_
    intro last out hlast hext' hout
    have hnone' (hsafe : safe) (hregular : last.Regular) := hnone hsafe (hregular.earlier (hext'.trans hext))
    cases out with
    | error d => exact Ensures.pure hlast hnone'
    | ok folded =>
        obtain ⟨basis', constraints', heq', hperm', hbasis', hconstraints'⟩ :=
          @splitBasis_eq none folded hout.areRules.apart nofun
        dsimp only
        rw [heq', pure_bind]
        refine (finishWith_spec hlast (hout.areRules.of_perm hperm') hbasis' hconstraints'
          fun hsafe hregular => (hnone' hsafe hregular).elim).imp ?_
        intro final out _ hext'' hout'
        cases out with
        | error d => exact hout'
        | ok node =>
            have hnone'' (hsafe : safe) (hregular : final.Regular) := hnone' hsafe (hregular.earlier hext'')
            refine ⟨hout'.calm, hout'.kind, fun hblind hregular v => ⟨fun hv => ?_, fun hexact => ?_⟩⟩
            · have hrest := (hout'.allows hblind hregular v).sound hv
              rw [everyAllows_perm hperm'] at hrest
              have hboth := (hout.allows hblind (hregular.earlier hext'') v).sound hrest
              exact (everyAllows_perm hperm v).symm.trans (Bool.and_eq_true_iff.mp hboth).1
            · exact (hnone'' (safe.succeeds_of_exact hexact) hregular).elim
  · refine (finishWith_spec hvalid hrules' hbasis hconstraints hfits').imp ?_
    intro later out _ _ hout
    cases out with
    | error d => exact hout
    | ok n =>
        exact ⟨hout.calm, hout.kind, fun hblind hregular v =>
          everyAllows_perm hperm v ▸ hout.allows hblind hregular v⟩

-- ---------------------------------------------------------------------------
-- Combining nodes
-- ---------------------------------------------------------------------------

/-- What combining nodes gives. -/
def Combined (safe : Safety) (depth : Nat) (operands : List Node) (space : Space) : Intersected → Prop
  | .node n => Stands safe depth operands space n
  | .disjoint _ => safe.exact → space.Regular → ∀ v, everyAllows operands v = false
  | .orthogonal => False

omit [Behaviour] in
theorem kind_cases {node : Node} (h : 2 ≤ node.kind.order) :
    node.kind = .intersection ∨ node.kind.isConstraint = true := by
  generalize node.kind = kind at h
  cases kind <;> first | exact .inl rfl | exact .inr rfl | exact absurd h (by decide)

omit [Behaviour] in
theorem two_le_order_of_isConstraint {node : Node} (h : node.kind.isConstraint = true) : 2 ≤ node.kind.order := by
  generalize node.kind = kind at h
  cases kind <;> first | decide | cases h

omit [Behaviour] in
theorem intersection_of_kind {node : Node} (h : node.kind = .intersection) :
    ∃ basis constraints, node.content = .intersection basis constraints := by
  unfold kind at h
  cases hc : node.content with
  | intersection basis constraints => exact ⟨basis, constraints, rfl⟩
  | _ => rw [hc] at h; cases h

omit [Behaviour] in
/-- In order of kind, only constraints come after what is no intersection. -/
theorem areConstraints_of_order (hfirst : 2 ≤ l.kind.order) (horder : l.kind.order ≤ r.kind.order)
    (hnot : ∀ basis constraints, l.content ≠ .intersection basis constraints) :
    l.kind.isConstraint = true ∧ r.kind.isConstraint = true := by
  have hconstraint : l.kind.isConstraint = true := by
    refine (kind_cases hfirst).resolve_left fun hk => ?_
    obtain ⟨basis, constraints, hc⟩ := intersection_of_kind hk
    exact hnot basis constraints hc
  refine ⟨hconstraint, (kind_cases (hfirst.trans horder)).resolve_left fun hk => ?_⟩
  rw [hk] at horder
  generalize l.kind = kind at horder hconstraint
  cases kind <;> first | exact absurd horder (by decide) | cases hconstraint

omit [Behaviour] in
theorem rules_of_isConstraint {node : Node} (h : node.kind.isConstraint = true) : node.rules = [node] := by
  unfold kind at h
  unfold rules
  cases hc : node.content with
  | intersection basis constraints => rw [hc] at h; cases h
  | _ => rfl

/-- The rules of an intersection, and a constraint as a rule of itself, are constraints within reach. -/
theorem Calm.rules (hvalid : space.Valid) {node : Node} (h : node.Calm safe (depth + 1) space)
    (hkind : 2 ≤ node.kind.order) :
    ∀ e ∈ node.rules, e.Calm safe (depth + 1) space ∧ e.kind.isConstraint = true := by
  rcases kind_cases hkind with hkind | hconstraint
  · obtain ⟨basis, constraints, hc⟩ := intersection_of_kind hkind
    have hsettled : Settled basis constraints := by
      have hsound := (hvalid.written node h.holds).sound
      rw [hc] at hsound
      exact hsound
    unfold Node.rules
    rw [hc]
    exact fun e he => ⟨h.child hvalid (by rw [children, hc]; exact he), hsettled.areConstraints e he⟩
  · rw [rules_of_isConstraint hconstraint]
    exact List.forall_mem_singleton.mpr ⟨h, hconstraint⟩

omit [Behaviour] in
/-- The rules of a root that is no union and no morph fit. -/
theorem fitting_rules (hvalid : space.Valid) {node : Node} (h : space.Holds node) (hkind : 2 ≤ node.kind.order)
    (hroot : node.isRefinement = false) : Fitting node.rules := by
  rcases kind_cases hkind with hkind | hconstraint
  · obtain ⟨basis, constraints, hc⟩ := intersection_of_kind hkind
    have hsound := (hvalid.written node h).sound
    rw [hc] at hsound
    unfold rules
    rw [hc]
    exact Settled.fitting hsound
  · rw [rules_of_isConstraint hconstraint]
    rw [isRefinement] at hroot
    rw [Kind.isConstraint, hroot, Bool.or_false] at hconstraint
    exact .inr (List.forall_mem_singleton.mpr (.inl hconstraint))

omit [Behaviour] in
theorem fitting_flatMap {operands : List Node} (h : ∀ o ∈ operands, Fitting o.rules) :
    Fitting (operands.flatMap rules) := by
  induction operands with
  | nil => exact .inr (List.forall_mem_nil _)
  | cons o rest ih =>
      obtain ⟨ho, hrest⟩ := List.forall_mem_cons.mp h
      exact ho.append (ih hrest)

theorem calm_flatMap {operands : List Node} (hvalid : space.Valid)
    (h : ∀ o ∈ operands, o.Calm safe (depth + 1) space ∧ 2 ≤ o.kind.order) :
    ∀ e ∈ operands.flatMap rules, e.Calm safe (depth + 1) space ∧ e.kind.isConstraint = true := by
  intro e he
  obtain ⟨o, ho, he⟩ := List.mem_flatMap.mp he
  exact (h o ho).1.rules hvalid (h o ho).2 e he

/-- What the rules of operands are folded to is finished as what the operands say. -/
theorem finish_gathered {meet : Meet} (hmeet : Conjoins ground safe depth meet) (hblind : safe.exact → BlindToSign)
    {origin : Origin} {caption : Caption} {operands gathered : List Node} (hvalid : space.Valid)
    (hholds : ∀ o ∈ operands, space.Holds o) (hgathered : Gathered safe depth [] (operands.flatMap rules) space gathered)
    (hfits : safe → space.Regular → Fitting (operands.flatMap rules)) :
    Ensures ground safe space (finish meet origin caption gathered) fun later out =>
      Settles (Stands safe depth operands later) (safe → later.Regular → False) out := by
  obtain ⟨hrules, hdescends, hmeaning⟩ := hgathered
  refine (finish_spec hmeet hblind hvalid hrules
    fun hsafe hregular => (hfits hsafe hregular).descends hdescends).imp fun later out _ hext hout => ?_
  cases out with
  | error d => exact hout
  | ok n =>
      refine ⟨hout.calm, hout.kind, fun hblind hregular v => ?_⟩
      rw [← everyAllows_flatMap_rules hvalid hholds]
      exact (hout.allows hblind hregular v).trans (hmeaning hblind (hregular.earlier hext) v)

theorem combineBy_spec {meet : Meet} (hmeet : Conjoins ground safe depth meet) (hblind : safe.exact → BlindToSign)
    {operands : List Node} (hvalid : space.Valid)
    (hwithin : ∀ o ∈ operands, o.Within safe (depth + 1) space ∧ 2 ≤ o.kind.order) :
    Ensures ground safe space (combineBy meet operands) fun later out => Combined safe depth operands later out := by
  have hholds (o : Node) (ho : o ∈ operands) : space.Holds o := (hwithin o ho).1.holds
  have hrules := calm_flatMap hvalid fun o ho => (hwithin o ho).imp_left Within.toCalm
  have hfits (hsafe : safe) (hregular : space.Regular) : Fitting (operands.flatMap Node.rules) :=
    fitting_flatMap fun o ho => fitting_rules hvalid (hholds o ho) (hwithin o ho).2 ((hwithin o ho).1.root hsafe hregular)
  unfold combineBy
  refine (addRules_spec hmeet hblind hvalid .nil hrules).bind ?_
  intro later out hvalid' hext hout
  cases out with
  | error d =>
      refine Ensures.pure hvalid' fun hexact hregular v => ?_
      rw [← everyAllows_flatMap_rules hvalid hholds]
      exact hout hexact hregular v
  | ok gathered =>
      dsimp only
      refine (finish_gathered hmeet hblind hvalid' (fun o ho => hext.holds o (hholds o ho)) hout
        fun hsafe hregular => hfits hsafe (hregular.earlier hext)).bind ?_
      intro final out hfinal _ hout'
      cases out with
      | error d => exact Ensures.pure hfinal fun hexact hregular =>
          (hout' (safe.succeeds_of_exact hexact) hregular).elim
      | ok n => exact Ensures.pure hfinal hout'

-- ---------------------------------------------------------------------------
-- Intersecting two nodes
-- ---------------------------------------------------------------------------

/-- What intersecting two nodes gives: as for a conjunction, but constraints can stay side by side if one is a
refinement. -/
def Met (safe : Safety) (depth : Nat) (l r : Node) (space : Space) : Intersected → Prop
  | .node n => Conjoined safe (depth + 1) l r space (.node n)
  | .disjoint d => Conjoined safe (depth + 1) l r space (.disjoint d)
  | .orthogonal => (l.kind.isConstraint = true ∧ r.kind.isConstraint = true) ∧
      (l.isRefinement = true ∨ r.isRefinement = true)

/-- The specification of a rule for nodes in order of kind, from some kind on. -/
def Meets (first : Nat) (ground : Prop) (safe : Safety) (depth : Nat) (rule : Meet) : Prop :=
  ∀ space l r, space.Valid → l.Within safe (depth + 1) space → r.Within safe (depth + 1) space →
    first ≤ l.kind.order → l.kind.order ≤ r.kind.order → l.sameType r = false →
      Ensures ground safe space (rule l r) fun later out => Met safe depth l r later out

theorem Conjoined.symm {out : Intersected} (h : Conjoined safe depth l r space out) :
    Conjoined safe depth r l space out.invert := by
  cases out with
  | node n =>
      have h : Conjunct safe depth l r space n := h
      exact ⟨h.calm, fun hr hl => h.root hl hr, fun hblind hregular v => Bool.and_comm _ _ ▸ h.allows hblind hregular v⟩
  | disjoint d =>
      intro hexact hregular v
      rw [Bool.and_comm]
      exact h hexact hregular v
  | orthogonal => exact h

theorem Met.symm {out : Intersected} (h : Met safe depth l r space out) : Met safe depth r l space out.invert := by
  cases out with
  | node n => exact @Conjoined.symm _ safe (depth + 1) space l r (.node n) h
  | disjoint d => exact @Conjoined.symm _ safe (depth + 1) space l r (.disjoint d) h
  | orthogonal => exact h.imp And.symm Or.symm

/-- One of two nodes of one type is their conjunction. -/
theorem conjoined_of_sameType (hvalid : space.Valid) (hl : l.Calm safe depth space) (hr : space.Holds r)
    (h : l.sameType r = true) : Conjunct safe depth l r space l := by
  refine ⟨hl, fun hroot _ => hroot, fun _ hregular v => .of_eq ?_⟩
  rw [← hvalid.allows_eq hregular hl.holds hr h, Bool.and_self]

theorem meetBy_met {first : Nat} {rule : Meet} (hrule : Meets first ground safe depth rule) (hvalid : space.Valid)
    (hl : l.Within safe (depth + 1) space) (hr : r.Within safe (depth + 1) space) (hfirst : first ≤ l.kind.order)
    (hfirst' : first ≤ r.kind.order) :
    Ensures ground safe space (meetBy rule l r) fun later out => Met safe depth l r later out := by
  refine meetBy_spec hvalid ?_ ?_ ?_
  · intro hsame
    exact conjoined_of_sameType hvalid hl.toCalm hr.holds hsame
  · intro horder hne
    exact hrule space l r hvalid hl hr hfirst horder hne
  · intro horder hne
    exact (hrule space r l hvalid hr hl hfirst' horder hne).imp fun _ _ _ _ => Met.symm

theorem everyAllows_pair (l r : Node) (v : Value) : everyAllows [l, r] v = (l.allows v && r.allows v) := by
  rw [everyAllows, everyAllows, everyAllows, Bool.and_true]

/-- What combining two nodes gives is their conjunction. -/
theorem Combined.conjoined {out : Intersected} (h : Combined safe depth [l, r] space out) :
    Conjoined safe (depth + 1) l r space out := by
  cases out with
  | node n =>
      refine ⟨h.calm, fun _ _ => h.root, fun hblind hregular v => ?_⟩
      rw [← everyAllows_pair]
      exact h.allows hblind hregular v
  | disjoint d =>
      intro hexact hregular v
      rw [← everyAllows_pair]
      exact h hexact hregular v
  | orthogonal => exact h

/-- Conjoining by a rule never leaves nodes side by side. -/
theorem conjoinBy_spec {first : Nat} {meet rule : Meet} (hmeet : Conjoins ground safe depth meet)
    (hblind : safe.exact → BlindToSign) (hrule : Meets first ground safe depth rule) (hvalid : space.Valid)
    (hl : l.Within safe (depth + 1) space) (hr : r.Within safe (depth + 1) space) (hfirst : first ≤ l.kind.order)
    (hfirst' : first ≤ r.kind.order) :
    Ensures ground safe space (conjoinBy meet rule l r) fun later out => Conjoined safe (depth + 1) l r later out := by
  unfold conjoinBy
  refine (meetBy_met hrule hvalid hl hr hfirst hfirst').bind ?_
  intro later out hvalid' hext hout
  cases out with
  | node n => exact Ensures.pure hvalid' hout
  | disjoint d => exact Ensures.pure hvalid' hout
  | orthogonal =>
      obtain ⟨hcl, hcr⟩ := hout.1
      refine (combineBy_spec hmeet hblind hvalid' ?_).imp fun _ _ _ _ => Combined.conjoined
      exact List.forall_mem_cons.mpr ⟨⟨hl.extends hext, two_le_order_of_isConstraint hcl⟩,
        List.forall_mem_singleton.mpr ⟨hr.extends hext, two_le_order_of_isConstraint hcr⟩⟩

/-- Constraints in order of kind, of which roots are bases. -/
theorem meetConstraints_met {meet : Meet} (hmeet : Conjoins ground safe depth meet) (hblind : safe.exact → BlindToSign) :
    Meets 3 ground safe depth (meetConstraints meet) := by
  intro space l r hvalid hl hr hfirst horder hne
  have hconstraint {node : Node} (h : 3 ≤ node.kind.order) : node.kind.isConstraint = true := by
    generalize node.kind = kind at h
    cases kind <;> first | rfl | exact absurd h (by decide)
  have hbasis {node : Node} (h : node.kind.isConstraint = true) (hroot : node.isRefinement = false) :
      node.isBasis = true := by
    rw [isRefinement] at hroot
    rw [Kind.isConstraint, hroot, Bool.or_false] at h
    exact h
  have hcl := hconstraint hfirst
  have hcr := hconstraint (hfirst.trans horder)
  refine (meetConstraints_spec hmeet hblind hvalid hl.toCalm hr.toCalm hcl hcr horder hne).imp ?_
  intro later out _ hext hout
  cases out with
  | node n =>
      have hout : Merge safe depth later l r n := hout
      refine ⟨hout.calm, fun hroot _ => ?_, hout.allows⟩
      exact basis_not_refinement (hout.narrows l (.inl rfl) (hbasis hcl hroot)).isBasis
  | disjoint d => exact hout
  | orthogonal =>
      refine ⟨⟨hcl, hcr⟩, ?_⟩
      by_contra h
      simp only [not_or, Bool.not_eq_true] at h
      have hslots := hout.1.slots .basis (slot?_of_isBasis (hbasis hcl h.1)) (slot?_of_isBasis (hbasis hcr h.2))
      cases hslots.1

theorem meetIntersections_met {meet : Meet} (hmeet : Conjoins ground safe depth meet) (hblind : safe.exact → BlindToSign) :
    Meets 2 ground safe depth (meetIntersections meet) := by
  intro space l r hvalid hl hr hfirst horder hne
  unfold meetIntersections
  split
  · refine (combineBy_spec hmeet hblind hvalid (List.forall_mem_cons.mpr
      ⟨⟨hl, hfirst⟩, List.forall_mem_singleton.mpr ⟨hr, hfirst.trans horder⟩⟩)).bind ?_
    intro later out hvalid' hext hout
    have hout := Combined.conjoined hout
    cases out with
    | node n =>
        have hout : Conjunct safe (depth + 1) l r later n := hout
        refine Ensures.pure hvalid' ?_
        split
        · rename_i hsame
          have hl := hl.extends hext
          refine ⟨hl.toCalm, fun hroot _ => hroot, fun hblind hregular v => ?_⟩
          rw [← hvalid'.allows_eq hregular hout.calm.holds hl.holds hsame]
          exact hvalid'.allows_eq hregular hout.calm.holds hl.holds hsame v ▸ hout.allows hblind hregular v
        · exact hout
    | disjoint d => exact Ensures.pure hvalid' hout
    | orthogonal => exact hout.elim
  · rename_i hnot
    refine meetConstraints_met hmeet hblind space l r hvalid hl hr ?_ horder hne
    have hk : l.kind ≠ .intersection := by
      intro hk
      obtain ⟨basis, constraints, hc⟩ := intersection_of_kind hk
      exact hnot basis constraints hc
    generalize l.kind = kind at hfirst hk
    cases kind <;> first | exact absurd hfirst (by decide) | exact absurd rfl hk | decide

/-- The intersection of rules that were written down stands for them, if it is one at all. It is one where the rules fit
and have a value in common. -/
theorem ofDefinitionBy_spec {promised : Prop} {meet : Meet} (hmeet : Conjoins ground promised depth meet)
    (hblind : promised → BlindToSign) {rules : List Node} {caption : Caption} (hvalid : space.Valid)
    (hrules : ∀ e ∈ rules, e.Calm promised (depth + 1) space ∧ 2 ≤ e.kind.order)
    (hfits : promised → space.Regular → Fitting (rules.flatMap Node.rules))
    (hshared : promised → space.Regular → ∃ v, everyAllows rules v = true) :
    Ensures ground promised space (ofDefinitionBy meet rules caption) fun later n =>
      Stands promised depth rules later n := by
  have hholds (e : Node) (he : e ∈ rules) : space.Holds e := (hrules e he).1.holds
  unfold ofDefinitionBy
  refine (addRules_spec hmeet hblind hvalid .nil (calm_flatMap hvalid hrules)).bind ?_
  intro later out hvalid' hext hout
  cases out with
  | error d =>
      refine Ensures.refuse hvalid' fun hpromised hregular => ?_
      obtain ⟨v, hv⟩ := hshared hpromised (hregular.earlier hext)
      have hnone := hout hpromised hregular v
      rw [everyAllows_flatMap_rules hvalid hholds, hv] at hnone
      cases hnone
  | ok gathered =>
      dsimp only
      refine (finish_gathered hmeet hblind hvalid' (fun e he => hext.holds e (hholds e he)) hout
        fun hpromised hregular => hfits hpromised (hregular.earlier hext)).bind ?_
      intro final out hfinal _ hout'
      cases out with
      | error d => exact Ensures.refuse hfinal hout'
      | ok n => exact Ensures.pure hfinal hout'

end Node

end SchemaAlgebra
