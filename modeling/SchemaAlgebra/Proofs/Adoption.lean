-- SUMMARY: Adopting nodes of other spaces: what is rebuilt is well-formed, and of the outline it had.
import SchemaAlgebra.Proofs.Conjunctions

/-!
# Adoption

A node of another space is rebuilt from the leaves up. Kinds, aspects and bases
can be read off outlines, which rebuilding keeps, so that what was well-formed
there is well-formed here, once constraints are sorted anew.
-/

namespace SchemaAlgebra

namespace Node

open SpaceM (Ensures)

-- ---------------------------------------------------------------------------
-- Nodes of one outline
-- ---------------------------------------------------------------------------

/-- Two nodes that say the same, apart from the nodes in them. -/
def Alike (a b : Node) : Prop := a.content.outline = b.content.outline

theorem Alike.kind_eq {a b : Node} (h : a.Alike b) : a.kind = b.kind := Content.kind_eq_of_outline h

theorem Alike.slot?_eq {a b : Node} (h : a.Alike b) : a.slot? = b.slot? := Content.slot?_eq_of_outline h

theorem Alike.basisDomain?_eq {a b : Node} (h : a.Alike b) : a.basisDomain? = b.basisDomain? := by
  rw [Node.basisDomain?_eq, Node.basisDomain?_eq, h]

theorem Alike.basisProto?_eq {a b : Node} (h : a.Alike b) : a.basisProto? = b.basisProto? := by
  rw [Node.basisProto?_eq, Node.basisProto?_eq, h]

theorem Alike.divisor {a b : Node} (h : a.Alike b) {d : Nat} (ha : a.content = .divisor d) :
    b.content = .divisor d := by
  unfold Alike at h
  rw [ha] at h
  cases hb : b.content <;> rw [hb] at h <;> cases h
  rfl

theorem Alike.max {a b : Node} (h : a.Alike b) {bound : Bound} (ha : a.content = .max bound) :
    ∃ bound', b.content = .max bound' ∧ bound.unsigned = bound'.unsigned := by
  unfold Alike at h
  rw [ha] at h
  cases hb : b.content with
  | max bound' => rw [hb] at h; exact ⟨bound', rfl, Content.max.inj h⟩
  | _ => rw [hb] at h; cases h

theorem Alike.min {a b : Node} (h : a.Alike b) {bound : Bound} (ha : a.content = .min bound) :
    ∃ bound', b.content = .min bound' ∧ bound.unsigned = bound'.unsigned := by
  unfold Alike at h
  rw [ha] at h
  cases hb : b.content with
  | min bound' => rw [hb] at h; exact ⟨bound', rfl, Content.min.inj h⟩
  | _ => rw [hb] at h; cases h

theorem Alike.domain {a b : Node} (h : a.Alike b) {d : Domain} (ha : a.content = .domain d) :
    b.content = .domain d := by
  unfold Alike at h
  rw [ha] at h
  cases hb : b.content <;> rw [hb] at h <;> cases h
  rfl

/-- Only the sign of zero can differ between units. -/
theorem Alike.unit {a b : Node} (h : a.Alike b) {v : Value} (ha : a.content = .unit v) (hv : ∀ n, v ≠ .number n) :
    b.content = .unit v := by
  unfold Alike at h
  rw [ha] at h
  cases hb : b.content with
  | unit w =>
      rw [hb] at h
      have heq : v.unsigned = w.unsigned := Content.unit.inj h
      have hv' : v.unsigned = v := by cases v <;> first | rfl | exact absurd rfl (hv _)
      rw [hv'] at heq
      have hw : w.unsigned = w := by cases w <;> first | rfl | exact absurd heq (hv _)
      rw [heq, hw]
  | _ => rw [hb] at h; cases h

theorem Alike.clash {a a' b b' : Node} (ha : a'.Alike a) (hb : b'.Alike b) (h : a'.Clash b') : a.Clash b := by
  obtain ⟨max, min, ⟨hmax, hmin⟩ | ⟨hmin, hmax⟩, haxis, hnothing⟩ := h
  · obtain ⟨max', hmax', hmaxEq⟩ := ha.max hmax
    obtain ⟨min', hmin', hminEq⟩ := hb.min hmin
    refine ⟨max', min', .inl ⟨hmax', hmin'⟩, ?_, ?_⟩
    · exact (Bound.axis_eq hmaxEq).symm.trans (haxis.trans (Bound.axis_eq hminEq))
    · rw [← Bound.leavesNothing_unsigned, ← hmaxEq, ← hminEq, Bound.leavesNothing_unsigned]
      exact hnothing
  · obtain ⟨max', hmax', hmaxEq⟩ := hb.max hmax
    obtain ⟨min', hmin', hminEq⟩ := ha.min hmin
    refine ⟨max', min', .inr ⟨hmin', hmax'⟩, ?_, ?_⟩
    · exact (Bound.axis_eq hmaxEq).symm.trans (haxis.trans (Bound.axis_eq hminEq))
    · rw [← Bound.leavesNothing_unsigned, ← hmaxEq, ← hminEq, Bound.leavesNothing_unsigned]
      exact hnothing

theorem Alike.beside {exact : Bool} {a a' b b' : Node} (ha : a'.Alike a) (hb : b'.Alike b) (h : a.Beside exact b) :
    a'.Beside exact b' where
  left := by rw [ha.kind_eq]; exact h.left
  right := by rw [hb.kind_eq]; exact h.right
  slots := by rw [ha.slot?_eq, hb.slot?_eq]; exact h.slots
  overflow := fun d d' hd hd' => h.overflow d d' (ha.divisor hd) (hb.divisor hd')
  range := fun hclash => h.range (ha.clash hb hclash)

/-- Lists of nodes that say the same place by place. -/
abbrev AllAlike (nodes nodes' : List Node) : Prop := List.Forall₂ Alike nodes nodes'

theorem AllAlike.exists_of_mem {nodes nodes' : List Node} (h : AllAlike nodes nodes') {n : Node} (hn : n ∈ nodes) :
    ∃ n' ∈ nodes', n.Alike n' := by
  induction h with
  | nil => cases hn
  | cons hab _ ih =>
      rcases List.mem_cons.mp hn with rfl | hn
      · exact ⟨_, List.mem_cons_self, hab⟩
      · obtain ⟨n', hn', h⟩ := ih hn
        exact ⟨n', List.mem_cons_of_mem _ hn', h⟩

theorem AllAlike.pairwise_beside {exact : Bool} {nodes nodes' : List Node} (h : AllAlike nodes nodes')
    (hbeside : nodes'.Pairwise (Beside exact)) : nodes.Pairwise (Beside exact) := by
  induction h with
  | nil => exact .nil
  | cons hab hrest ih =>
      obtain ⟨hfirst, hlater⟩ := List.pairwise_cons.mp hbeside
      refine List.pairwise_cons.mpr ⟨fun n hn => ?_, ih hlater⟩
      obtain ⟨n', hn', halike⟩ := AllAlike.exists_of_mem hrest hn
      exact hab.beside halike (hfirst n' hn')

/-- What is alike to branches that are not found exhaustive is not either. -/
theorem AllAlike.isExhaustive {nodes nodes' : List Node} (h : AllAlike nodes nodes')
    (hnot : isExhaustive nodes' = false) : isExhaustive nodes = false := by
  rw [Bool.eq_false_iff] at hnot ⊢
  intro hexhaustive
  refine hnot ?_
  obtain ⟨hunits, hdomains⟩ := Bool.and_eq_true_iff.mp hexhaustive
  rw [List.all_eq_true] at hunits hdomains
  refine Bool.and_eq_true_iff.mpr ⟨List.all_eq_true.mpr fun v hv => ?_, List.all_eq_true.mpr fun d hd => ?_⟩
  · obtain ⟨n, hn, hc⟩ := hasUnit_iff.mp (hunits v hv)
    obtain ⟨n', hn', halike⟩ := h.exists_of_mem hn
    have hnumber (x : Number) : v ≠ .number x := by
      rintro rfl
      simp at hv
    exact hasUnit_iff.mpr ⟨n', hn', halike.unit hc hnumber⟩
  · obtain ⟨n, hn, hc⟩ := hasDomain_iff.mp (hdomains d hd)
    obtain ⟨n', hn', halike⟩ := h.exists_of_mem hn
    exact hasDomain_iff.mpr ⟨n', hn', halike.domain hc⟩

/-- Bases that say the same, or none on both sides. -/
def BasesAlike (basis basis' : Option Node) : Prop := AllAlike basis.toList basis'.toList

theorem BasesAlike.bind_eq {basis basis' : Option Node} (h : BasesAlike basis basis') :
    basis.bind basisDomain? = basis'.bind basisDomain? ∧ basis.bind basisProto? = basis'.bind basisProto? := by
  cases basis with
  | none =>
      cases basis' with
      | none => exact ⟨rfl, rfl⟩
      | some b' => cases h
  | some b =>
      cases basis' with
      | none => cases h
      | some b' =>
          cases h with
          | cons hb _ => exact ⟨hb.basisDomain?_eq, hb.basisProto?_eq⟩

theorem BasesAlike.suits {basis basis' : Option Node} (h : BasesAlike basis basis') {slot : Slot}
    (hsuits : slot.Suits basis') : slot.Suits basis := by
  obtain ⟨hdomain, hproto⟩ := h.bind_eq
  have haxis (axis : BoundAxis) : axisApplies axis basis = axisApplies axis basis' := by
    simp only [axisApplies, hdomain, hproto]
  cases slot <;> simp_all only [Slot.Suits]

/-- What is alike to canonical rules stands side by side as well. -/
theorem beside_of_alike {basis basis' : Option Node} {constraints constraints' : List Node}
    (h : (basis'.toList ++ constraints').Pairwise (Beside false)) (hbasis : BasesAlike basis basis')
    (hconstraints : AllAlike constraints constraints') : (basis.toList ++ constraints).Pairwise (Beside false) :=
  AllAlike.pairwise_beside (List.rel_append hbasis hconstraints) h

/-- What is alike to settled rules is settled once it is sorted. -/
theorem Settled.alike {basis basis' : Option Node} {constraints constraints' : List Node}
    (h : Settled basis' constraints') (hbeside : (basis.toList ++ constraints).Pairwise (Beside false))
    (hbasis : BasesAlike basis basis') (hconstraints : AllAlike constraints constraints') :
    Settled basis (sortConstraints constraints) := by
  refine settled_sorted (hbeside.imp Beside.toApart) ?_ ?_ ?_ ?_
  · intro b hb
    obtain ⟨b', hb', halike⟩ := AllAlike.exists_of_mem hbasis (Option.mem_toList.mpr hb)
    rw [Node.isBasis, halike.kind_eq]
    exact h.isBasis b' (Option.mem_toList.mp hb')
  · intro c hc
    obtain ⟨c', hc', halike⟩ := hconstraints.exists_of_mem hc
    rw [Node.isRefinement, halike.kind_eq]
    exact h.areRefinements c' hc'
  · rw [firstInapplicable?_eq_none]
    intro c hc
    obtain ⟨c', hc', halike⟩ := hconstraints.exists_of_mem hc
    obtain ⟨slot, hslot, hsuits⟩ := applicabilityError?_eq_none.mp
      (firstInapplicable?_eq_none.mp h.applicable c' hc')
    exact applicabilityError?_eq_none.mpr ⟨slot, halike.slot?_eq.trans hslot, hbasis.suits hsuits⟩
  · rintro rfl
    cases hconstraints
    rw [h.notAlone rfl] at hbasis
    cases basis with
    | none => rfl
    | some b => cases hbasis

-- ---------------------------------------------------------------------------
-- Rebuilding
-- ---------------------------------------------------------------------------

/-- A well-formed node that is at home somewhere else, with everything in it. -/
def Foreign (number : Nat) (node : Node) : Prop :=
  node.Everywhere fun n => (n.content.Sound ∧ n.content.Canonical n.caption) ∧ n.space ≠ number

/-- What adopting a node gives in any valid space that the node is foreign to. Branches of different types can be of
one type in another space. -/
def Adopts (node : Node) : Prop :=
  ∀ (ground safe : Prop) (space : Space), ¬ ground → space.Valid → node.Foreign space.number →
    Ensures ground safe space (adopt node) fun later n => later.Holds n ∧ n.Alike node

variable {ground safe : Prop} {space : Space}

theorem adoptList_spec {nodes : List Node} (hadopts : ∀ n ∈ nodes, n.Adopts) (hground : ¬ ground)
    (hvalid : space.Valid) (hforeign : ∀ n ∈ nodes, n.Foreign space.number) :
    Ensures ground safe space (adoptList nodes) fun later out =>
      (∀ n ∈ out, later.Holds n) ∧ AllAlike out nodes := by
  induction nodes generalizing space with
  | nil => exact Ensures.pure hvalid ⟨List.forall_mem_nil _, .nil⟩
  | cons node rest ih =>
      obtain ⟨hnode, hrest⟩ := List.forall_mem_cons.mp hforeign
      obtain ⟨hadopt, hadopts⟩ := List.forall_mem_cons.mp hadopts
      refine (hadopt ground safe space hground hvalid hnode).bind ?_
      rintro later n hvalid' hext ⟨hn, halike⟩
      refine (ih hadopts hvalid' (by rwa [hext.number])).bind ?_
      rintro final out hfinal hext' ⟨hout, hall⟩
      exact Ensures.pure hfinal ⟨List.forall_mem_cons.mpr ⟨hext'.holds n hn, hout⟩, .cons halike hall⟩

theorem adoptOption_spec {node : Option Node} (hadopts : ∀ n ∈ node, n.Adopts) (hground : ¬ ground)
    (hvalid : space.Valid) (hforeign : ∀ n ∈ node, n.Foreign space.number) :
    Ensures ground safe space (adoptOption node) fun later out =>
      (∀ n ∈ out, later.Holds n) ∧ BasesAlike out node := by
  cases node with
  | none => exact Ensures.pure hvalid ⟨nofun, .nil⟩
  | some node =>
      refine (hadopts node rfl ground safe space hground hvalid (hforeign node rfl)).bind ?_
      rintro later n hvalid' _ ⟨hn, halike⟩
      refine Ensures.pure hvalid' ⟨?_, .cons halike .nil⟩
      rintro _ ⟨⟩
      exact hn

/-- What rebuilding makes of a content whose children are rebuilt as nodes that are alike. -/
inductive Remade : Content Node → Content Node → Prop where
  | union {branches out : List Node} (ordered : Bool) (h : AllAlike out branches) :
      Remade (.union branches ordered) (.union (if ordered then out else sortBranches out) ordered)
  | morph {input input' : Node} {output output' : Option Node} (transforms : List Transform) (h : input'.Alike input)
      (h' : BasesAlike output' output) : Remade (.morph input output transforms) (.morph input' output' transforms)
  | intersection {basis basis' : Option Node} {constraints out : List Node} (h : BasesAlike basis' basis)
      (h' : AllAlike out constraints) :
      Remade (.intersection basis constraints) (.intersection basis' (sortConstraints out))
  | required (key : PropKey) (value value' : Node) : Remade (.required key value) (.required key value')
  | optional (key : PropKey) (value value' : Node) : Remade (.optional key value) (.optional key value')
  | leaf {content : Content Node} (h : content.children = []) : Remade content content

theorem Remade.outline_eq {content out : Content Node} (h : Remade content out) : out.outline = content.outline := by
  cases h <;> rfl

/-- Rebuilding keeps a content well-formed. -/
theorem Remade.preserves {content out : Content Node} {caption : Caption} (h : Remade content out)
    (hsound : content.Sound) (hcanonical : content.Canonical caption) : out.Sound ∧ out.Canonical caption := by
  cases h with
  | @union branches out ordered halike =>
      have hperm : (if ordered then out else sortBranches out).Perm out := by
        split
        · exact .refl _
        · exact sortBranches_perm out
      obtain ⟨-, hnotAll, hsingle⟩ := hcanonical
      refine ⟨fun b hb => ?_, ?_, ?_, ?_⟩
      · obtain ⟨b', hb', h⟩ := halike.exists_of_mem (hperm.mem_iff.mp hb)
        rw [h.kind_eq]
        exact hsound b' hb'
      · rintro rfl
        exact sortBranches_sorted out
      · exact (isExhaustive_perm hperm).trans (AllAlike.isExhaustive halike hnotAll)
      · intro hlength
        exact hsingle (halike.length_eq.symm.trans (hperm.length_eq.symm.trans hlength))
  | morph transforms halike hall =>
      refine ⟨⟨?_, fun o ho => ?_, hsound.2.2⟩, trivial⟩
      · rw [isBasis, halike.kind_eq]
        exact hsound.1
      · obtain ⟨o', ho', h⟩ := AllAlike.exists_of_mem hall (Option.mem_toList.mpr ho)
        rw [isRefinement, h.kind_eq]
        exact hsound.2.1 o' (Option.mem_toList.mp ho')
  | @intersection basis basis' constraints out hbases halike =>
      have hbeside := beside_of_alike hcanonical hbases halike
      refine ⟨hsound.alike hbeside hbases halike, ?_⟩
      exact hbeside.perm ((sortConstraints_perm out).symm.append_left _) Beside.symm
  | required key value value' => exact ⟨trivial, trivial⟩
  | optional key value value' => exact ⟨trivial, trivial⟩
  | leaf h => exact ⟨hsound, hcanonical⟩

/-- Rebuilding the content of a node whose children can be adopted. -/
theorem adoptContent_spec {content : Content Node} (hadopts : ∀ c ∈ content.children, c.Adopts) (hground : ¬ ground)
    (hvalid : space.Valid) (hforeign : ∀ c ∈ content.children, c.Foreign space.number) :
    Ensures ground safe space (adoptContent content) fun later out =>
      Remade content out ∧ ∀ c ∈ out.children, later.Holds c := by
  cases content with
  | union branches ordered =>
      refine (adoptList_spec hadopts hground hvalid hforeign).bind ?_
      rintro later out hvalid' _ ⟨hout, halike⟩
      refine Ensures.pure hvalid' ⟨.union ordered halike, fun b hb => hout b ?_⟩
      have hb : b ∈ if ordered then out else sortBranches out := hb
      split at hb
      · exact hb
      · exact (sortBranches_perm out).mem_iff.mp hb
  | morph input output transforms =>
      obtain ⟨hinput, houtput⟩ := List.forall_mem_cons.mp hforeign
      obtain ⟨hadopt, hadopts⟩ := List.forall_mem_cons.mp hadopts
      refine (hadopt ground safe space hground hvalid hinput).bind ?_
      rintro later n hvalid' hext ⟨hn, halike⟩
      refine (adoptOption_spec (fun o ho => hadopts o (Option.mem_toList.mpr ho)) hground hvalid'
        (by rw [hext.number]; exact fun o ho => houtput o (Option.mem_toList.mpr ho))).bind ?_
      rintro final out hfinal hext' ⟨hout, hall⟩
      refine Ensures.pure hfinal ⟨.morph transforms halike hall, ?_⟩
      exact List.forall_mem_cons.mpr ⟨hext'.holds n hn, fun o ho => hout o (Option.mem_toList.mp ho)⟩
  | intersection basis constraints =>
      obtain ⟨hbasis, hconstraints⟩ := List.forall_mem_append.mp hforeign
      obtain ⟨hadoptBasis, hadopts⟩ := List.forall_mem_append.mp hadopts
      refine (adoptOption_spec (fun o ho => hadoptBasis o (Option.mem_toList.mpr ho)) hground hvalid
        fun o ho => hbasis o (Option.mem_toList.mpr ho)).bind ?_
      rintro later out hvalid' hext ⟨hout, hbases⟩
      refine (adoptList_spec hadopts hground hvalid' (by rwa [hext.number])).bind ?_
      rintro final rules hfinal hext' ⟨hrules, halike⟩
      refine Ensures.pure hfinal ⟨.intersection hbases halike, ?_⟩
      refine List.forall_mem_append.mpr ⟨fun b hb => hext'.holds b (hout b (Option.mem_toList.mp hb)), fun c hc => ?_⟩
      exact hrules c ((sortConstraints_perm rules).mem_iff.mp hc)
  | required key value =>
      have hadopt := hadopts value List.mem_cons_self ground safe space hground hvalid
      refine (hadopt (hforeign value List.mem_cons_self)).bind ?_
      rintro later n hvalid' _ ⟨hn, -⟩
      exact Ensures.pure hvalid' ⟨.required key value n, List.forall_mem_singleton.mpr hn⟩
  | optional key value =>
      have hadopt := hadopts value List.mem_cons_self ground safe space hground hvalid
      refine (hadopt (hforeign value List.mem_cons_self)).bind ?_
      rintro later n hvalid' _ ⟨hn, -⟩
      exact Ensures.pure hvalid' ⟨.optional key value n, List.forall_mem_singleton.mpr hn⟩
  | _ => exact Ensures.pure hvalid ⟨.leaf rfl, List.forall_mem_nil _⟩

/-- A foreign node can be adopted. -/
theorem adopts (node : Node) : node.Adopts := by
  induction node using induct with
  | step content caption profile ih =>
      intro ground safe space hground hvalid hforeign
      unfold adopt
      refine (Ensures.get hvalid).bind ?_
      rintro later current hvalid' hext rfl
      rw [← hext.number] at hforeign
      have hhome : ¬ profile.space = current.number := hforeign.self.2
      obtain ⟨hsound, hcanonical⟩ := hforeign.self.1
      rw [if_neg hhome]
      refine (adoptContent_spec ih hground hvalid' fun c hc => hforeign.child hc).bind ?_
      rintro final out hfinal _ ⟨hout, hchildren⟩
      obtain ⟨hsound, hcanonical⟩ := hout.preserves hsound hcanonical
      have hready : out.Ready ground final caption := ⟨hsound, hcanonical, hchildren, fun h => absurd h hground⟩
      refine (Ensures.intern hfinal hready).imp ?_
      exact fun _ n _ _ hn => ⟨hn.holds, hn.outline.trans hout.outline_eq⟩

/-- What operations of a space can be handed: its own nodes, and nodes of other spaces, if branches may come to be of
one type. -/
def Welcome (ground : Prop) (space : Space) (node : Node) : Prop :=
  space.Holds node ∨ ¬ ground ∧ node.Foreign space.number

theorem Welcome.extends {later : Space} {node : Node} (h : Welcome ground space node) (hext : later.Extends space) :
    Welcome ground later node := by
  rcases h with h | ⟨hground, h⟩
  · exact .inl (hext.holds node h)
  · exact .inr ⟨hground, by rwa [hext.number]⟩

/-- Adopting a node where it is at home does nothing. -/
theorem exec_adopt_home {node : Node} (hhome : node.space = space.number) :
    (adopt node).exec space = (.ok node, space) := by
  cases node with
  | mk content caption profile =>
      have hhome : profile.space = space.number := hhome
      rw [adopt, SpaceM.exec_bind, SpaceM.exec_get]
      dsimp only
      rw [if_pos hhome, SpaceM.exec_pure]

theorem exec_adoptList_home {nodes : List Node} (hhome : ∀ n ∈ nodes, n.space = space.number) :
    (adoptList nodes).exec space = (.ok nodes, space) := by
  induction nodes with
  | nil => rfl
  | cons node rest ih =>
      obtain ⟨hnode, hrest⟩ := List.forall_mem_cons.mp hhome
      rw [adoptList, SpaceM.exec_bind, exec_adopt_home hnode]
      dsimp only
      rw [SpaceM.exec_bind, ih hrest]
      rfl

/-- A node from elsewhere is rebuilt and interned. -/
theorem exec_adopt_foreign {node : Node} (hne : node.space ≠ space.number) : (adopt node).exec space =
    (do SpaceM.intern (← adoptContent node.content) node.caption : SpaceM Node).exec space := by
  cases node with
  | mk content caption profile =>
      have hne : ¬ profile.space = space.number := hne
      rw [adopt, SpaceM.exec_bind, SpaceM.exec_get]
      dsimp only
      rw [if_neg hne]
      rfl

/-- A node of a space is itself there, and any other is rebuilt. -/
theorem adopt_spec {node : Node} (hvalid : space.Valid) (h : Welcome ground space node) :
    Ensures ground safe space (adopt node) fun later n =>
      later.Holds n ∧ n.Alike node ∧ (space.Holds node → n = node) := by
  rcases h with h | ⟨hground, h⟩
  · have hhome := hvalid.home node h
    cases node with
    | mk content caption profile =>
        unfold adopt
        refine (Ensures.get hvalid).bind ?_
        rintro later current hvalid' hext rfl
        have hhome : profile.space = current.number := hhome.trans hext.number.symm
        rw [if_pos hhome]
        exact Ensures.pure hvalid' ⟨hext.holds _ h, rfl, fun _ => rfl⟩
  · refine (adopts node ground safe space hground hvalid h).imp ?_
    intro later n _ _ hn
    exact ⟨hn.1, hn.2, fun hheld => absurd (hvalid.home node hheld) h.self.2⟩

theorem adoptAll_spec {nodes : List Node} (hvalid : space.Valid) (h : ∀ n ∈ nodes, Welcome ground space n) :
    Ensures ground safe space (adoptList nodes) fun later out => ∀ n ∈ out, later.Holds n := by
  induction nodes generalizing space with
  | nil => exact Ensures.pure hvalid (List.forall_mem_nil _)
  | cons node rest ih =>
      obtain ⟨hnode, hrest⟩ := List.forall_mem_cons.mp h
      refine (adopt_spec hvalid hnode).bind ?_
      rintro later n hvalid' hext ⟨hn, -, -⟩
      refine (ih hvalid' fun m hm => (hrest m hm).extends hext).bind ?_
      intro final out hfinal hext' hout
      exact Ensures.pure hfinal (List.forall_mem_cons.mpr ⟨hext'.holds n hn, hout⟩)

end Node

end SchemaAlgebra
