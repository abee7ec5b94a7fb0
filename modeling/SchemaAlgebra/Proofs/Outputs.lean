-- SUMMARY: What comes out of a node: its output allows every result, unless a rule or an output undoes what was found.
import SchemaAlgebra.Proofs.Exactness
import SchemaAlgebra.Proofs.SideBySide

/-!
# Outputs

The output of a node describes the values after all transforms ran. It is put
together from the outputs of everything in the node: the rules of an intersection
keep their keys, so they stay side by side and nothing is merged. A result is
allowed by the output as long as no morph hands on to another, and no rule rewrites
what an earlier one was about.
-/

namespace SchemaAlgebra

open SpaceM (Always Ensures)

-- ---------------------------------------------------------------------------
-- Objects with a replaced property
-- ---------------------------------------------------------------------------

namespace Object

@[simp] theorem proto_withProp (o : Object Value) (serial : Nat) (key : PropKey) (value : Value) :
    (o.withProp serial key value).proto = o.proto := by
  unfold withProp
  split
  · split <;> rfl
  · rfl

@[simp] theorem length?_withProp (o : Object Value) (serial : Nat) (key : PropKey) (value : Value) :
    (o.withProp serial key value).length? = o.length? := by
  obtain ⟨id, proto, body, props⟩ := o
  cases body with
  | array items =>
      cases hkey : key.index? with
      | none => simp only [withProp, hkey, length?]
      | some i =>
          simp only [withProp, hkey]
          split
          · simp only [length?, List.length_set]
          · rfl
  | _ => rfl

@[simp] theorem time?_withProp (o : Object Value) (serial : Nat) (key : PropKey) (value : Value) :
    (o.withProp serial key value).time? = o.time? := by
  obtain ⟨id, proto, body, props⟩ := o
  cases body with
  | array items =>
      cases hkey : key.index? with
      | none => simp only [withProp, hkey, time?]
      | some i =>
          simp only [withProp, hkey]
          split <;> rfl
  | _ => rfl

end Object

theorem Bound.allows_withProp (bound : Bound) (side : BoundSide) (o : Object Value) (serial : Nat) (key : PropKey)
    (value : Value) : bound.allows side (.object (o.withProp serial key value)) = bound.allows side (.object o) := by
  have hmeasure (axis : BoundAxis) :
      axis.measure? (.object (o.withProp serial key value)) = axis.measure? (.object o) := by
    cases axis <;> simp [BoundAxis.measure?, Value.length?]
  unfold Bound.allows
  rw [hmeasure]

theorem Finding.get?_backInto {finding : Finding} {whole x : Value} {key : PropKey} (hget : whole.get? key = some x)
    (hindex : key.index? = none) : (finding.backInto whole key true).value.get? key = some finding.value := by
  cases whole with
  | object o => exact Object.get?_withProp_self hindex o finding.nextSerial finding.value
  | _ => cases hget

-- ---------------------------------------------------------------------------
-- Rules that undo others
-- ---------------------------------------------------------------------------

namespace Node

/-- The key under which a rule puts the result of a morph. -/
def rewrites? (rule : Node) : Option PropKey :=
  rule.content.property?.bind fun property => if property.2.includesMorph then some property.1 else none

/-- Whether a rule rewrites what an earlier one is about: a predicate is about the value as a whole. -/
def undoes (rule earlier : Node) : Bool :=
  rule.rewrites?.any fun key =>
    decide (earlier.kind = .predicate) || earlier.content.property?.any fun property => key.overlaps property.1

/-- Whether everything that was found while a node was traversed still holds of the result: the declared output of a
morph changes nothing any more, no rule undoes an earlier one, and what a rule put under a key is what is read there. -/
def lasting (node : Node) : Bool :=
  match node.content with
  | .morph _ output _ => output.all fun o => !o.includesMorph
  | .intersection _ constraints => decide (constraints.Pairwise fun rule later => later.undoes rule = false)
  | _ => node.rewrites?.all fun key => key.index?.isNone

/-- What undoes a rule undoes any that takes its place. -/
theorem Replaces.undoes_eq {n rule : Node} (h : n.Replaces rule) (later : Node) :
    later.undoes n = later.undoes rule := by
  have hkey {content : Content Node} : content.property?.map Prod.fst = content.outline.property?.map Prod.fst := by
    cases content <;> rfl
  have hkeys (test : PropKey → Bool) : (n.content.property?.any fun property => test property.1) =
      rule.content.property?.any fun property => test property.1 := by
    have hany (content : Content Node) : (content.property?.any fun property => test property.1) =
        (content.outline.property?.map Prod.fst).any test := by
      rw [← hkey, Option.any_map]
    rw [hany, hany, h.outline_eq]
  unfold undoes
  simp only [h.kind_eq, hkeys]

variable [Behaviour]

/-- A rule that is not undone judges what a later one makes of a value as it judged the value. -/
theorem allows_of_not_undone {rule later : Node} (hrule : rule.kind.isConstraint = true) (hunit : rule.kind ≠ .unit)
    (hlater : later.kind.isConstraint = true) (hundoes : later.undoes rule = false) (scene : Scene) (v : Value)
    (serial : Nat) : rule.allows (later.traverse scene v serial).value = rule.allows v := by
  rcases traverse_constraint hlater scene v serial with hsame | ⟨key, value, o, x, hproperty, hmorph, rfl, -, heq⟩
  · rw [hsame]
  rw [heq, Finding.backInto_object]
  have hrewrites : later.rewrites? = some key := by
    rw [rewrites?, hproperty, Option.bind_some, if_pos hmorph]
  rw [undoes, hrewrites, Option.any_some, Bool.or_eq_false_iff, decide_eq_false_iff_not] at hundoes
  obtain ⟨hpredicate, hkeys⟩ := hundoes
  cases hc : rule.content.property? with
  | some property =>
      obtain ⟨key', value'⟩ := property
      rw [hc, Option.any_some] at hkeys
      exact allows_of_get? hc (Object.get?_withProp hkeys o _ _)
  | none =>
      cases rule with
      | mk content caption profile =>
          rw [allows_mk, allows_mk]
          cases content with
          | proto p => simp only [Content.allows, Object.isInstanceOf, Object.proto_withProp]
          | max bound => exact bound.allows_withProp .max o _ key _
          | min bound => exact bound.allows_withProp .min o _ key _
          | union | morph | intersection => cases hrule
          | unit u => exact absurd rfl hunit
          | predicate p => exact absurd rfl hpredicate
          | required | optional => cases hc
          | _ => rfl

theorem allows_traverseAll {rule : Node} {later : List Node} (hrule : rule.kind.isConstraint = true)
    (hunit : rule.kind ≠ .unit) (hlater : ∀ l ∈ later, l.kind.isConstraint = true)
    (hundoes : ∀ l ∈ later, l.undoes rule = false) (scene : Scene) (v : Value) (serial : Nat) :
    rule.allows (traverseAll later scene v serial).value = rule.allows v := by
  induction later generalizing scene v serial with
  | nil => rfl
  | cons l rest ih =>
      obtain ⟨hl, hlater⟩ := List.forall_mem_cons.mp hlater
      obtain ⟨hundone, hundoes⟩ := List.forall_mem_cons.mp hundoes
      rw [traverseAll]
      exact (ih hlater hundoes _ _ _).trans (allows_of_not_undone hrule hunit hl hundone scene v serial)

-- ---------------------------------------------------------------------------
-- Descriptions of results
-- ---------------------------------------------------------------------------

/-- Every result of a node is allowed by the other. -/
def Describes (n node : Node) : Prop :=
  ∀ scene v serial, (node.traverse scene v serial).isSound = true → n.allows (node.traverse scene v serial).value = true

/-- A node without morphs describes its own results, which are the values it allows. -/
theorem describes_self {registry : Registry} {node : Node} (hwritten : node.Everywhere (Written registry))
    (hmorph : node.includesMorph = false) : node.Describes node := by
  intro scene v serial hsound
  have hexplained := explained hwritten ((includesMorph_eq_false hwritten).mp hmorph) scene v serial
  rw [hexplained.value, ← hexplained.isSound]
  exact hsound

/-- Results of rules that undo no earlier one are described by all that takes the place of the rules. -/
theorem everyAllows_traverseAll {rules ns : List Node}
    (h : List.Forall₂ (fun rule n => n.Replaces rule ∧ n.Describes rule) rules ns)
    (hkinds : ∀ r ∈ rules, r.kind.isConstraint = true ∧ r.kind ≠ .unit)
    (hlasting : rules.Pairwise fun rule later => later.undoes rule = false) {scene : Scene} {v : Value} {serial : Nat}
    (hsound : (traverseAll rules scene v serial).isSound = true) :
    everyAllows ns (traverseAll rules scene v serial).value = true := by
  induction h generalizing scene v serial with
  | nil => rfl
  | @cons rule n rest ns hfirst _ ih =>
      obtain ⟨hreplaces, hdescribes⟩ := hfirst
      obtain ⟨⟨hkind, hunit⟩, hkinds⟩ := List.forall_mem_cons.mp hkinds
      obtain ⟨hundoes, hlasting⟩ := List.pairwise_cons.mp hlasting
      rw [traverseAll, Finding.isSound] at hsound
      obtain ⟨hnow, hlater⟩ := List.append_eq_nil_iff.mp (List.isEmpty_iff.mp hsound)
      rw [traverseAll, everyAllows, Bool.and_eq_true]
      refine ⟨?_, ih hkinds hlasting (List.isEmpty_iff.mpr hlater)⟩
      rw [← hreplaces.kind_eq] at hkind hunit
      rw [allows_traverseAll hkind hunit (fun l hl => (hkinds l hl).1) fun l hl => ?_]
      · exact hdescribes scene v serial (List.isEmpty_iff.mpr hnow)
      · rw [hreplaces.undoes_eq]
        exact hundoes l hl

-- ---------------------------------------------------------------------------
-- Outputs
-- ---------------------------------------------------------------------------

/-- A node of a space that is the output of another. -/
structure IsOutput (space : Space) (node n : Node) : Prop where
  holds : space.Holds n
  root : node.isRefinement = false → n.isRefinement = false
  replaces : node.kind.isConstraint = true → n.Replaces node
  describes : space.Regular → n.Describes node

variable {ground : Prop} {space later : Space} {node n basis : Node} {refinements ns : List Node}

theorem IsOutput.extends (h : IsOutput space node n) (hext : later.Extends space) : IsOutput later node n where
  holds := hext.holds n h.holds
  root := h.root
  replaces := h.replaces
  describes := fun hregular => h.describes (hregular.earlier hext)

/-- Only rules are to be replaced by rules. -/
theorem isOutput_of_not_isConstraint (hkind : node.kind.isConstraint = false) (hholds : space.Holds n)
    (hroot : n.isRefinement = false) (hdescribes : space.Regular → n.Describes node) : IsOutput space node n :=
  ⟨hholds, fun _ => hroot, fun h => absurd (hkind.symm.trans h) Bool.false_ne_true, hdescribes⟩

/-- A node without morphs is its own output. -/
theorem isOutput_self (hvalid : space.Valid) (hnode : space.Holds node) (hmorph : node.includesMorph = false) :
    IsOutput space node node :=
  ⟨hnode, fun h => h, fun _ => .inl rfl, fun _ => describes_self (hvalid.everywhere_written hnode) hmorph⟩

theorem project_of_not_includesMorph (side : Projection) (h : node.includesMorph = false) :
    project side node = pure node := by
  cases node with
  | mk content caption profile =>
      unfold project
      rw [if_neg]
      change profile.includesMorph = false at h
      rw [h]
      exact Bool.false_ne_true

/-- A node with a morph has no short way. -/
theorem describes_of_content {content : Content Node} {caption : Caption} {profile : Profile}
    (hmorph : profile.includesMorph = true) (h : ∀ scene v serial,
      (Content.traverse profile content scene v serial).isSound = true →
        n.allows (Content.traverse profile content scene v serial).value = true) :
    n.Describes (.mk content caption profile) := by
  intro scene v serial hsound
  rw [traverse, hmorph, if_neg (by simp)] at hsound ⊢
  exact h scene v serial hsound

/-- What is computed for a node in any space that holds it is its output. -/
def HasOutput (ground : Prop) (node : Node) : Prop :=
  ∀ space : Space, space.Holds node → Always ground space (project .output node) fun later n => IsOutput later node n

theorem projectList_outputs {nodes : List Node} (houtputs : ∀ n ∈ nodes, HasOutput ground n)
    (h : ∀ n ∈ nodes, space.Holds n) : Always ground space (projectList .output nodes) fun later out =>
      List.Forall₂ (IsOutput later) nodes out := by
  induction nodes generalizing space with
  | nil => exact .pure fun _ _ => .nil
  | cons node rest ih =>
      obtain ⟨hnode, hrest⟩ := List.forall_mem_cons.mp h
      obtain ⟨houtput, houtputs⟩ := List.forall_mem_cons.mp houtputs
      refine (houtput space hnode).bind fun first n hext hn => ?_
      refine (ih houtputs fun m hm => hext.holds m (hrest m hm)).bind fun second out hext' hout => ?_
      refine .pure fun later hext'' => .cons (hn.extends (hext''.trans hext')) ?_
      exact hout.imp fun _ _ h => h.extends hext''

/-- The output of a morph is what it declares, or anything. -/
theorem morph_output {input : Node} {output : Option Node} {transforms : List Transform} {caption : Caption}
    {profile : Profile} (hmorph : profile.includesMorph = true)
    (hnode : space.Holds (.mk (.morph input output transforms) caption profile))
    (hlasting : ∀ o ∈ output, o.includesMorph = false) :
    Always ground space (projectContent .output (.mk (.morph input output transforms) caption profile)
      (.morph input output transforms)) fun later n =>
        IsOutput later (.mk (.morph input output transforms) caption profile) n := by
  intro later hvalid hext
  have hnode := hext.holds _ hnode
  have hsound : (Content.morph input output transforms).Sound := (hvalid.written _ hnode).sound
  cases output with
  | none =>
      refine (@unknown_spec _ ground False 0 later False hvalid).imp ?_
      rintro final n - - ⟨hcalm, hkind, hallows⟩
      refine isOutput_of_not_isConstraint rfl hcalm.holds ?_ fun hregular => ?_
      · rw [isRefinement, hkind]
        rfl
      · exact describes_of_content hmorph fun scene v serial _ => hallows hregular _
  | some o =>
      have ho : later.Holds o := hvalid.closed _ hnode o (List.mem_cons_of_mem _ List.mem_cons_self)
      have hdescribes := describes_self (hvalid.everywhere_written ho) (hlasting o rfl)
      refine Ensures.pure hvalid (isOutput_of_not_isConstraint rfl ho (hsound.2.1 o rfl) fun _ => ?_)
      refine describes_of_content hmorph fun scene v serial hfound => ?_
      obtain ⟨hfirst, hlast⟩ := isSound_andThen hfound
      rw [Content.traverse, Finding.andThen, if_pos hfirst]
      exact hdescribes _ _ _ hlast

/-- The output of a union is the union of the outputs of its branches. -/
theorem union_output (hblind : BlindToSign) {branches : List Node} {ordered : Bool} {caption : Caption}
    {profile : Profile} (hmorph : profile.includesMorph = true) (houtputs : ∀ b ∈ branches, HasOutput ground b)
    (hbranches : ∀ b ∈ branches, space.Holds b) :
    Always ground space (projectContent .output (.mk (.union branches ordered) caption profile)
      (.union branches ordered)) fun later n => IsOutput later (.mk (.union branches ordered) caption profile) n := by
  refine (projectList_outputs houtputs hbranches).bind fun first ns _ hns => ?_
  have hholds : ∀ n ∈ ns, first.Holds n := by
    intro n hn
    obtain ⟨branch, -, hn⟩ := exists_mem_of_forall₂ hns hn
    exact hn.holds
  intro later hvalid hext
  refine (assembleUnionBy_spec (conjoinBranches_spec (conjoinWithin_spec False.elim _) False.elim) hvalid
    (within_listNesting fun n hn => hext.holds n (hholds n hn))).imp fun final n _ hext' hn => ?_
  refine isOutput_of_not_isConstraint rfl hn.calm.holds hn.root fun hregular => ?_
  refine describes_of_content hmorph fun scene v serial hsound => ?_
  rw [hn.allows hblind hregular, anyAllows_iff]
  obtain ⟨i, branch, other, hbranch, -, heq⟩ := found_of_conclude (List.forall_mem_nil _) hsound
  obtain ⟨hi, rfl⟩ := List.getElem?_eq_some_iff.mp hbranch
  have hi' : i < ns.length := hns.length_eq ▸ hi
  have hdescribes := (hns.get hi hi').describes (hregular.earlier (hext'.trans hext))
  refine ⟨ns[i], List.getElem_mem hi', ?_⟩
  rw [Content.traverse] at hsound ⊢
  rw [heq] at hsound ⊢
  exact hdescribes _ _ _ hsound

/-- How properties of a kind are traversed and projected. -/
structure TransformsProp (make : Node → Content Node) (key : PropKey) (kind : Kind) (missing : Bool) : Prop
    extends MakesProp make key kind missing where
  property : ∀ value, (make value).property? = some (key, value)
  outline : ∀ value other, (make value).outline = (make other).outline
  projected : ∀ side node value,
    projectContent side node (make value) = do SpaceM.internPlain (make (← project side value))
  present : ∀ profile value scene (v : Value) serial x, v.get? key = some x →
    Content.traverse profile (make value) scene v serial =
      (value.traverse (scene.enter key) x serial).backInto v key value.includesMorph
  absent : ∀ profile value scene (v : Value) serial, v.get? key = none →
    (Content.traverse profile (make value) scene v serial).isSound = missing ∧
      (Content.traverse profile (make value) scene v serial).value = v

theorem transforms_required (key : PropKey) : TransformsProp (.required key) key .required false where
  toMakesProp := makes_required key
  property := fun _ => rfl
  outline := fun _ _ => rfl
  projected := fun _ _ _ => rfl
  present := fun _ _ _ _ _ _ h => by rw [Content.traverse, h]
  absent := fun _ _ _ _ _ h => by rw [Content.traverse, h]; exact ⟨rfl, rfl⟩

theorem transforms_optional (key : PropKey) : TransformsProp (.optional key) key .optional true where
  toMakesProp := makes_optional key
  property := fun _ => rfl
  outline := fun _ _ => rfl
  projected := fun _ _ _ => rfl
  present := fun _ _ _ _ _ _ h => by rw [Content.traverse, h]
  absent := fun _ _ _ _ _ h => by rw [Content.traverse, h]; exact ⟨rfl, rfl⟩

/-- The output of a property is the property with the output of its value. -/
theorem property_output {make : Node → Content Node} {key : PropKey} {kind : Kind} {missing : Bool}
    (hmake : TransformsProp make key kind missing) {value : Node} {caption : Caption} {profile : Profile}
    (hmorph : profile.includesMorph = true) (hvalue : value.includesMorph = true) (hindex : key.index? = none)
    (houtput : HasOutput ground value) (hnode : space.Holds (.mk (make value) caption profile))
    (hholds : space.Holds value) :
    Always ground space (projectContent .output (.mk (make value) caption profile) (make value)) fun later n =>
      IsOutput later (.mk (make value) caption profile) n := by
  rw [hmake.projected]
  refine (houtput space hholds).bind fun first value' hext hvalue' => ?_
  intro later hvalid hext'
  have hvalue' := hvalue'.extends hext'
  refine (Ensures.intern hvalid (hmake.ready ground later value' hvalue'.holds)).imp
    fun final n hfinal hext'' hinterned => ?_
  refine ⟨hinterned.holds, fun hroot => ?_, fun _ => .inr ⟨?_, ?_⟩, fun hregular => ?_⟩
  · rw [hmake.isRefinement rfl] at hroot
    cases hroot
  · exact hinterned.outline.trans (hmake.outline value' value)
  · exact Option.isSome_of_eq_some (hmake.property value)
  have hvalue' := hvalue'.extends hext''
  have hroot := hmake.root ((hext''.trans (hext'.trans hext)).holds _ hnode) rfl hregular
  have hallows (w : Value) : n.allows w = Content.allows none (make value') w := by
    refine (hinterned.means hregular ((hmake.exact_iff value').mpr (hvalue'.root hroot))).allows hfinal
      hinterned.holds ?_ w
    rw [hmake.children]
    exact List.forall_mem_singleton.mpr hvalue'.holds
  refine describes_of_content hmorph fun scene v serial hsound => ?_
  rw [hallows, hmake.allows]
  cases hget : v.get? key with
  | none =>
      obtain ⟨hmissing, hsame⟩ := hmake.absent profile value scene v serial hget
      rw [hsame, hget, ← hmissing]
      exact hsound
  | some x =>
      rw [hmake.present profile value scene v serial x hget, hvalue] at hsound ⊢
      rw [Finding.get?_backInto hget hindex]
      exact hvalue'.describes hregular _ _ _ ((isSound_backInto _ _ _ _).symm.trans hsound)

omit [Behaviour] in
/-- The only constraints with a morph are properties. -/
theorem property?_of_includesMorph {registry : Registry} {rule : Node} (hwritten : rule.Written registry)
    (hkind : rule.kind.isConstraint = true) (hmorph : rule.includesMorph = true) :
    rule.content.property?.isSome = true := by
  rw [hwritten.includesMorph, children, kind] at hmorph
  rw [kind] at hkind
  cases hc : rule.content with
  | required key value => rfl
  | optional key value => rfl
  | union | morph | intersection => rw [hc] at hkind; cases hkind
  | _ => rw [hc] at hmorph; exact absurd hmorph Bool.false_ne_true

omit [Behaviour] in
/-- Next to a property there is a basis of objects. -/
theorem basis_of_property {basis : Option Node} {rule : Node} (happlies : rule.applicabilityError? basis = none)
    (hproperty : rule.content.property?.isSome = true) : ∃ b, basis = some b ∧ b.basisDomain? = some .object := by
  obtain ⟨slot, hslot, hsuits⟩ := applicabilityError?_eq_none.mp happlies
  unfold slot? at hslot
  cases hc : rule.content with
  | required key value => rw [hc] at hslot; cases hslot; exact Option.bind_eq_some_iff.mp hsuits
  | optional key value => rw [hc] at hslot; cases hslot; exact Option.bind_eq_some_iff.mp hsuits
  | _ => rw [hc] at hproperty; cases hproperty

omit [Behaviour] in
theorem undoes_basis {basis : Node} (h : basis.isBasis = true) (later : Node) : later.undoes basis = false := by
  have hpredicate : basis.kind ≠ .predicate := by
    intro hkind
    rw [isBasis, hkind] at h
    cases h
  unfold undoes
  rw [property?_of_isBasis h, decide_eq_false hpredicate]
  cases later.rewrites? <;> rfl

omit [Behaviour] in
/-- An intersection with a morph has a basis of objects, with the rules beside it. -/
theorem sideBySide_of_includesMorph (hvalid : space.Valid) (hnode : space.Holds node) {basis : Option Node}
    {constraints : List Node} (hcontent : node.content = .intersection basis constraints)
    (hmorph : node.includesMorph = true) :
    ∃ b, basis = some b ∧ b.basisDomain? = some .object ∧ b.includesMorph = false ∧ SideBySide b constraints := by
  have hwritten := hvalid.written node hnode
  have hsettled : Settled basis constraints := by
    have hsound := hwritten.sound
    rw [hcontent] at hsound
    exact hsound
  have hchildren : node.children = basis.toList ++ constraints := by rw [children, hcontent]; rfl
  have hproperty {e : Node} (he : e ∈ basis.toList ++ constraints) (hmorph : e.includesMorph = true) :=
    property?_of_includesMorph (hvalid.written e (hvalid.closed node hnode e (hchildren ▸ he)))
      (hsettled.areConstraints e he) hmorph
  have hplain {b : Node} (hb : b ∈ basis) : b.includesMorph = false := by
    by_contra hmorph
    have hsome := hproperty (List.mem_append_left _ (Option.mem_toList.mpr hb)) (Bool.not_eq_false _ ▸ hmorph)
    rw [property?_of_isBasis (hsettled.isBasis b hb)] at hsome
    cases hsome
  rw [hwritten.includesMorph, kind, hcontent, hchildren] at hmorph
  obtain ⟨e, he, hmorph⟩ := List.any_eq_true.mp hmorph
  rcases List.mem_append.mp he with hb | hc
  · rw [hplain (Option.mem_toList.mp hb)] at hmorph
    cases hmorph
  · obtain ⟨b, rfl, hdomain⟩ := basis_of_property (firstInapplicable?_eq_none.mp hsettled.applicable e hc)
      (hproperty he hmorph)
    have hcanonical := hvalid.canonical node hnode
    rw [hcontent] at hcanonical
    exact ⟨b, rfl, hdomain, hplain rfl, hsettled.isBasis b rfl, hsettled.areRefinements, List.ne_nil_of_mem hc,
      hcanonical, firstInapplicable?_eq_none.mp hsettled.applicable⟩

/-- A basis has no morph, and only the rules beside it are projected. -/
theorem projectContent_intersection {side : Projection} {constraints : List Node} (hplain : basis.includesMorph = false) :
    projectContent side node (.intersection (some basis) constraints) =
      (do combineProjected (basis :: (← projectList side constraints))) := by
  unfold projectContent projectOption
  rw [project_of_not_includesMorph side hplain, pure_bind, pure_bind]
  rfl

/-- Results of an intersection whose rules undo no earlier one are described by what takes the place of the rules. -/
theorem SideBySide.describes {registry : Registry} {profile : Profile} (h : SideBySide basis refinements)
    (hwritten : basis.Everywhere (Written registry)) (hplain : basis.includesMorph = false)
    (hlasting : refinements.Pairwise fun rule later => later.undoes rule = false)
    (hns : List.Forall₂ (fun rule n => n.Replaces rule ∧ n.Describes rule) refinements ns) {scene : Scene} {v : Value}
    {serial : Nat}
    (hsound : (Content.traverse profile (.intersection (some basis) refinements) scene v serial).isSound = true) :
    everyAllows (basis :: ns)
      (Content.traverse profile (.intersection (some basis) refinements) scene v serial).value = true := by
  obtain ⟨hkind, hkinds⟩ := List.forall_mem_cons.mp h.areConstraints
  obtain ⟨hunit, hunits⟩ := List.forall_mem_cons.mp h.notUnits
  obtain ⟨hfirst, hrules⟩ := isSound_andThen hsound
  have hsame : (traverseOption (some basis) scene v serial).value = v := by
    refine traverse_basis ?_ scene v serial
    rintro _ ⟨⟩
    exact h.isBasis
  have hdescribes := describes_self hwritten hplain scene v serial hfirst
  rw [traverseOption] at hsame
  rw [hsame] at hdescribes
  rw [Content.traverse, Finding.andThen, if_pos hfirst]
  rw [traverseOption, hsame] at hrules ⊢
  rw [everyAllows, Bool.and_eq_true]
  refine ⟨?_, everyAllows_traverseAll hns (fun c hc => ⟨hkinds c hc, hunits c hc⟩) hlasting hrules⟩
  rw [allows_traverseAll hkind hunit hkinds fun c _ => undoes_basis h.isBasis c]
  exact hdescribes

/-- The output of an intersection is the intersection of the outputs of its rules. -/
theorem intersection_output {basis : Option Node} {constraints : List Node} {caption : Caption} {profile : Profile}
    (hmorph : profile.includesMorph = true) (houtputs : ∀ c ∈ constraints, HasOutput ground c)
    (hlasting : constraints.Pairwise fun rule later => later.undoes rule = false)
    (hvalid : space.Valid) (hnode : space.Holds (.mk (.intersection basis constraints) caption profile)) :
    Always ground space (projectContent .output (.mk (.intersection basis constraints) caption profile)
      (.intersection basis constraints)) fun later n =>
        IsOutput later (.mk (.intersection basis constraints) caption profile) n := by
  obtain ⟨b, rfl, hdomain, hplain, hrules⟩ := sideBySide_of_includesMorph hvalid hnode rfl hmorph
  have hholds : ∀ e ∈ b :: constraints, space.Holds e := hvalid.closed _ hnode
  obtain ⟨hb, hconstraints⟩ := List.forall_mem_cons.mp hholds
  rw [projectContent_intersection hplain]
  refine (projectList_outputs houtputs hconstraints).bind fun first ns hext hns => ?_
  have hkinds := (List.forall_mem_cons.mp hrules.areConstraints).2
  have hnew : SideBySide b ns := hrules.replace <|
    ((List.forall₂_and_left _ _).mpr ⟨hkinds, hns⟩).imp fun rule n h => h.2.replaces h.1
  have hheld : ∀ e ∈ b :: ns, first.Holds e := by
    refine List.forall_mem_cons.mpr ⟨hext.holds b hb, fun n hn => ?_⟩
    obtain ⟨c, -, hn⟩ := exists_mem_of_forall₂ hns hn
    exact hn.holds
  intro later hvalid' hext'
  refine (hnew.combine hvalid' fun e he => hext'.holds e (hheld e he)).imp fun final n hfinal hext'' hinterned => ?_
  have hext := hext''.trans hext'
  refine isOutput_of_not_isConstraint rfl hinterned.holds ?_ fun hregular =>
    describes_of_content hmorph fun scene v serial hsound => ?_
  · rw [isRefinement, kind, Content.kind_eq_of_outline hinterned.outline]
    rfl
  rw [hnew.allows hdomain hfinal hregular (fun c hc => hext.holds c (hheld c hc)) hinterned]
  refine hrules.describes (hvalid.everywhere_written hb) hplain hlasting ?_ hsound
  exact ((List.forall₂_and_left _ _).mpr ⟨hkinds, hns⟩).imp fun rule n h =>
    ⟨h.2.replaces h.1, h.2.describes (hregular.earlier hext)⟩

omit [Behaviour] in
/-- A property with a morph in a lasting node puts what the value gives under a key that spells no index. -/
theorem index?_of_lasting {registry : Registry} (hwritten : node.Written registry) (hmorph : node.includesMorph = true)
    (hlasting : node.lasting = true) {key : PropKey} {value : Node}
    (hproperty : node.content.property? = some (key, value)) : value.includesMorph = true ∧ key.index? = none := by
  have hvalue : value.includesMorph = true := by
    rw [hwritten.includesMorph, kind, children] at hmorph
    cases hc : node.content with
    | required k x => rw [hc] at hproperty hmorph; cases hproperty; simpa [Content.kind, Content.children] using hmorph
    | optional k x => rw [hc] at hproperty hmorph; cases hproperty; simpa [Content.kind, Content.children] using hmorph
    | _ => rw [hc] at hproperty; cases hproperty
  refine ⟨hvalue, ?_⟩
  have hrewrites : node.rewrites? = some key := by rw [rewrites?, hproperty, Option.bind_some, if_pos hvalue]
  unfold lasting at hlasting
  cases hc : node.content with
  | required k x => rw [hc, hrewrites] at hlasting; exact Option.isNone_iff_eq_none.mp hlasting
  | optional k x => rw [hc, hrewrites] at hlasting; exact Option.isNone_iff_eq_none.mp hlasting
  | _ => rw [hc] at hproperty; cases hproperty

/-- Where nothing is undone, what is computed as the output of a node is its output. -/
theorem hasOutput (hblind : BlindToSign) {node : Node} (hlasting : node.Everywhere fun n => n.lasting = true) :
    HasOutput ground node := by
  induction node using induct with
  | step content caption profile ih =>
      intro space hnode later hvalid hext
      have hheld := hext.holds _ hnode
      have hchildren := hvalid.closed _ hheld
      have houtputs (c : Node) (hc : c ∈ content.children) : HasOutput ground c := ih c hc (hlasting.child hc)
      cases hmorph : profile.includesMorph with
      | false =>
          have hplain : (Node.mk content caption profile).includesMorph = false := hmorph
          rw [project_of_not_includesMorph .output hplain]
          exact Ensures.pure hvalid (isOutput_self hvalid hheld hplain)
      | true =>
          have hwritten := hvalid.written _ hheld
          have hself := hlasting.self
          unfold project
          rw [hmorph, if_pos rfl]
          cases content with
          | union branches ordered =>
              exact union_output hblind hmorph houtputs hchildren later hvalid (.refl later)
          | morph input output transforms =>
              refine morph_output hmorph hheld ?_ later hvalid (.refl later)
              rintro o ⟨⟩
              simpa [lasting, content] using hself
          | intersection basis constraints =>
              exact intersection_output hmorph (fun c hc => houtputs c (List.mem_append_right _ hc))
                (of_decide_eq_true hself) hvalid hheld later hvalid (.refl later)
          | required key value =>
              obtain ⟨hvalue, hindex⟩ := index?_of_lasting hwritten hmorph hself rfl
              exact property_output (transforms_required key) hmorph hvalue hindex (houtputs value List.mem_cons_self)
                hheld (hchildren value List.mem_cons_self) later hvalid (.refl later)
          | optional key value =>
              obtain ⟨hvalue, hindex⟩ := index?_of_lasting hwritten hmorph hself rfl
              exact property_output (transforms_optional key) hmorph hvalue hindex (houtputs value List.mem_cons_self)
                hheld (hchildren value List.mem_cons_self) later hvalid (.refl later)
          | _ =>
              have hsome := property?_of_includesMorph hwritten rfl hmorph
              cases hsome

/-- Where nothing that was found is undone, the output of a node allows every result. -/
theorem output_allows {adopting : Prop} (hblind : BlindToSign) (hreachable : space.Reachable adopting)
    (hnode : space.Holds node) (hlasting : node.Everywhere fun n => n.lasting = true) {o : Node}
    (houtput : ((project .output node).exec space).1 = .ok o)
    (hregular : ((project .output node).exec space).2.Regular) {v w : Value} {serial : Nat}
    (happly : (node.apply v serial).1 = .ok w) : o.allows w = true := by
  have houtputs : HasOutput False node := hasOutput hblind hlasting
  have hspec := houtputs space hnode space hreachable.valid (.refl space)
  have hdescribes := (hspec.result o houtput).describes hregular
  unfold apply at happly
  dsimp only at happly
  split at happly
  · rename_i hsound
    cases happly
    exact hdescribes .start v serial hsound
  · cases happly

omit [Behaviour] in
/-- An object whose digits under a key are parsed: its output asks for a number there. -/
theorem parsed_property_described : ∃ (space : Space) (node o : Node) (v w : Value),
    @Space.Reachable Stock.behaviour False space ∧ space.Holds node ∧ node.includesMorph = true ∧
      (node.Everywhere fun n => n.lasting = true) ∧
      ((@project Stock.behaviour .output node).exec space).1 = .ok o ∧
      ((@project Stock.behaviour .output node).exec space).2.Regular ∧
      (@apply Stock.behaviour node v 1).1 = .ok w ∧ @allows Stock.behaviour o v = false ∧
      @allows Stock.behaviour o w = true := by
  let _ := Stock.behaviour
  let parsing : Definition :=
    .map [("in", .string "string"), ("morph", .transform ⟨0, none, "parseInt"⟩), ("out", .string "number")]
  let written : Definition := .map [("basis", .string "object"),
    ("required", .list [.map [("key", .string "a"), ("value", parsing)]])]
  let v : Value := .object ⟨0, some .object, .plain, [(.string "a", .string "5")]⟩
  let program : SpaceM Bool := do
    let node ← written.readRoot
    let o ← project .output node
    let space ← get
    return node.includesMorph && (node.Everywhere fun n => n.lasting = true) && (node.traverse .start v 1).isSound &&
      !o.allows v && space.Regular
  have hyields : program.yields (.new 0 .standard) (fun b => b) = true := by
    decide +kernel
  obtain ⟨node, hread, hyields⟩ := SpaceM.yields_bind.mp hyields
  obtain ⟨o, houtput, hyields⟩ := SpaceM.yields_bind.mp hyields
  rw [SpaceM.yields_get, SpaceM.yields_pure] at hyields
  simp only [Bool.and_eq_true, Bool.not_eq_true', decide_eq_true_eq] at hyields
  obtain ⟨⟨⟨⟨hmorph, hlasting⟩, hsound⟩, hrefused⟩, hregular⟩ := hyields
  obtain ⟨hreachable, -, hholds⟩ :=
    (@Space.Reachable.new _ False 0 .standard).read (d := written) (List.forall_mem_nil _)
  have happly : (node.apply v 1).1 = .ok (node.traverse .start v 1).value := if_pos hsound
  exact ⟨_, node, o, v, _, hreachable, hholds node hread, hmorph, hlasting, houtput, hregular, happly, hrefused,
    output_allows Stock.blindToSign hreachable (hholds node hread) hlasting houtput hregular happly⟩

omit [Behaviour] in
/-- A morph that trims hands on to one that parses: the result is a number, but the output is still the morph that
parses, and asks for a text. -/
theorem handed_on_refused : ∃ (space : Space) (node o : Node) (v w : Value),
    @Space.Reachable Stock.behaviour False space ∧ space.Holds node ∧
      ((@project Stock.behaviour .output node).exec space).1 = .ok o ∧
      ((@project Stock.behaviour .output node).exec space).2.Regular ∧
      (@apply Stock.behaviour node v 1).1 = .ok w ∧ @allows Stock.behaviour o w = false := by
  let _ := Stock.behaviour
  let parsing : Definition :=
    .map [("in", .string "string"), ("morph", .transform ⟨1, none, "parseInt"⟩), ("out", .string "number")]
  let written : Definition :=
    .map [("in", .string "string"), ("morph", .transform ⟨0, none, "trim"⟩), ("out", parsing)]
  let v : Value := .string " 5 "
  let program : SpaceM Bool := do
    let node ← written.readRoot
    let o ← project .output node
    let space ← get
    return (node.traverse .start v 1).isSound && !o.allows (node.traverse .start v 1).value && space.Regular
  have hyields : program.yields (.new 0 .standard) (fun b => b) = true := by
    decide +kernel
  obtain ⟨node, hread, hyields⟩ := SpaceM.yields_bind.mp hyields
  obtain ⟨o, houtput, hyields⟩ := SpaceM.yields_bind.mp hyields
  rw [SpaceM.yields_get, SpaceM.yields_pure] at hyields
  simp only [Bool.and_eq_true, Bool.not_eq_true', decide_eq_true_eq] at hyields
  obtain ⟨⟨hsound, hrefused⟩, hregular⟩ := hyields
  obtain ⟨hreachable, -, hholds⟩ :=
    (@Space.Reachable.new _ False 0 .standard).read (d := written) (List.forall_mem_nil _)
  have happly : (node.apply v 1).1 = .ok (node.traverse .start v 1).value := if_pos hsound
  exact ⟨_, node, o, v, _, hreachable, hholds node hread, houtput, hregular, happly, hrefused⟩

end Node

end SchemaAlgebra
