-- SUMMARY: What projecting gives: always a node, the input accepts what the node accepts, and no morph is left.
import SchemaAlgebra.Proofs.Matching
import SchemaAlgebra.Proofs.Outputs

/-!
# Projections

In a regular space both sides of a node exist: the rules of an intersection stay
side by side, and a union is put together from branches of which those without
morphs can be conjoined. The input of a node accepts exactly what the node accepts,
and a side has no morph left unless the same side of a morph has one.
-/

namespace SchemaAlgebra

open SpaceM (Ensures)

namespace Node

/-- Whether a side of a morph has no morph in turn. -/
def endsPlain (side : Projection) (node : Node) : Bool :=
  match side, node.content with
  | .input, .morph input _ _ => !input.includesMorph
  | .output, .morph _ output _ => output.all fun o => !o.includesMorph
  | _, _ => true

variable [Behaviour] {ground : Prop} {side : Projection} {space later : Space} {node n : Node}

/-- A node of a space that is a side of another. -/
structure IsSide (side : Projection) (space : Space) (node n : Node) : Prop where
  holds : space.Holds n
  root : node.isRefinement = false → n.isRefinement = false
  replaces : node.kind.isConstraint = true → n.Replaces node
  plain : (node.Everywhere fun m => m.endsPlain side = true) → space.Regular → n.Everywhere fun m => m.kind ≠ .morph
  accepts : side = .input → BlindToSign → space.Regular → ∀ v, n.allows v = node.allows v

theorem IsSide.extends (h : IsSide side space node n) (hext : later.Extends space) : IsSide side later node n where
  holds := hext.holds n h.holds
  root := h.root
  replaces := h.replaces
  plain := fun hends hregular => h.plain hends (hregular.earlier hext)
  accepts := fun hside hblind hregular => h.accepts hside hblind (hregular.earlier hext)

/-- A node without morphs is its own side. -/
theorem isSide_self (hvalid : space.Valid) (hnode : space.Holds node) (hmorph : node.includesMorph = false) :
    IsSide side space node node where
  holds := hnode
  root := fun h => h
  replaces := fun _ => .inl rfl
  plain := fun _ _ => (includesMorph_eq_false (hvalid.everywhere_written hnode)).mp hmorph
  accepts := fun _ _ _ _ => rfl

/-- Projecting a node in any space that holds it gives the side of it, at least where the space stays regular. -/
def HasSide (ground : Prop) (side : Projection) (node : Node) : Prop :=
  ∀ space : Space, space.Valid → space.Holds node →
    Ensures ground True space (project side node) fun later n => IsSide side later node n

theorem projectList_sides {nodes : List Node} (hsides : ∀ n ∈ nodes, HasSide ground side n) (hvalid : space.Valid)
    (h : ∀ n ∈ nodes, space.Holds n) : Ensures ground True space (projectList side nodes) fun later out =>
      List.Forall₂ (IsSide side later) nodes out := by
  induction nodes generalizing space with
  | nil => exact Ensures.pure hvalid .nil
  | cons node rest ih =>
      obtain ⟨hnode, hrest⟩ := List.forall_mem_cons.mp h
      obtain ⟨hside, hsides⟩ := List.forall_mem_cons.mp hsides
      refine (hside space hvalid hnode).bind fun first n hvalid' hext hn => ?_
      refine (ih hsides hvalid' fun m hm => hext.holds m (hrest m hm)).bind fun second out hvalid'' hext' hout => ?_
      exact Ensures.pure hvalid'' (.cons (hn.extends hext') hout)

/-- Only rules are to be replaced by rules. -/
theorem isSide_of_not_isConstraint (hkind : node.kind.isConstraint = false) (hholds : space.Holds n)
    (hroot : n.isRefinement = false)
    (hplain : (node.Everywhere fun m => m.endsPlain side = true) → space.Regular → n.Everywhere fun m => m.kind ≠ .morph)
    (haccepts : side = .input → BlindToSign → space.Regular → ∀ v, n.allows v = node.allows v) :
    IsSide side space node n :=
  ⟨hholds, fun _ => hroot, fun h => absurd (hkind.symm.trans h) Bool.false_ne_true, hplain, haccepts⟩

/-- A side of a morph is what it takes or what it declares, if anything. -/
theorem morph_side {input : Node} {output : Option Node} {transforms : List Transform} {caption : Caption}
    {profile : Profile} (hvalid : space.Valid)
    (hnode : space.Holds (.mk (.morph input output transforms) caption profile)) :
    Ensures ground True space (projectContent side (.mk (.morph input output transforms) caption profile)
      (.morph input output transforms)) fun later n =>
        IsSide side later (.mk (.morph input output transforms) caption profile) n := by
  have hsound : (Content.morph input output transforms).Sound := (hvalid.written _ hnode).sound
  obtain ⟨hinput, houtput⟩ := List.forall_mem_cons.mp (hvalid.closed _ hnode)
  have hplain {o : Node} (ho : space.Holds o) (h : (!o.includesMorph) = true) : o.Everywhere fun m => m.kind ≠ .morph :=
    (includesMorph_eq_false (hvalid.everywhere_written ho)).mp (Bool.not_eq_true' _ ▸ h)
  cases side with
  | input =>
      refine Ensures.pure hvalid (isSide_of_not_isConstraint rfl hinput ?_ (fun hends _ => hplain hinput hends.self) ?_)
      · rcases hsound.1 with hkind | hbasis
        · rw [isRefinement, hkind]
          rfl
        · exact basis_not_refinement hbasis
      · exact fun _ _ _ v => (allows_morph hvalid hnode rfl v).symm
  | output =>
      cases output with
      | none =>
          refine (@unknown_spec _ ground True 0 space True hvalid).imp ?_
          rintro later n - - ⟨hcalm, hkind, -⟩
          refine isSide_of_not_isConstraint rfl hcalm.holds (by rw [isRefinement, hkind]; rfl) (fun _ hregular => ?_)
            (fun hside => by cases hside)
          exact fun m hm => (hcalm.admitted trivial hregular m hm).1
      | some o =>
          have ho := houtput o List.mem_cons_self
          exact Ensures.pure hvalid (isSide_of_not_isConstraint rfl ho (hsound.2.1 o rfl)
            (fun hends _ => hplain ho hends.self) (fun hside => by cases hside))

/-- A side of a union is the union of that side of its branches. -/
theorem union_side {branches : List Node} {ordered : Bool} {caption : Caption} {profile : Profile}
    (hsides : ∀ b ∈ branches, HasSide ground side b) (hvalid : space.Valid)
    (hnode : space.Holds (.mk (.union branches ordered) caption profile)) :
    Ensures ground True space (projectContent side (.mk (.union branches ordered) caption profile)
      (.union branches ordered)) fun later n => IsSide side later (.mk (.union branches ordered) caption profile) n := by
  have hkinds : ∀ b ∈ branches, b.kind.isBranch = true := (hvalid.written _ hnode).sound
  refine (projectList_sides hsides hvalid (hvalid.closed _ hnode)).bind fun first ns hfirst hext hns => ?_
  -- What is asked of the branches is that no morph is left, as far as that is so for the union.
  let safe : Safety := ⟨∀ b ∈ branches, b.Everywhere fun m => m.endsPlain side = true, False, False.elim, fun _ => .undefined⟩
  have hheld : ∀ n ∈ ns, first.Holds n := by
    intro n hn
    obtain ⟨b, -, hn⟩ := exists_mem_of_forall₂ hns hn
    exact hn.holds
  have hroots : ∀ n ∈ ns, n.isRefinement = false := by
    intro n hn
    obtain ⟨b, hb, hn⟩ := exists_mem_of_forall₂ hns hn
    exact hn.root (branch_not_refinement (hkinds b hb))
  have hwithin : ∀ n ∈ ns, n.Within safe (listNesting ns + 1) first := by
    intro n hn
    obtain ⟨b, hb, hside⟩ := exists_mem_of_forall₂ hns hn
    have hcalm := within_listNesting hheld n hn
    exact ⟨⟨hside.holds, hcalm.shallow, fun hends hregular m hm => ⟨hside.plain (hends b hb) hregular m hm, False.elim⟩⟩,
      fun _ _ => hroots n hn⟩
  refine (assembleUnionBy_succeeds (conjoinBranches_spec (conjoinWithin_spec False.elim _) False.elim) hfirst hwithin
    fun _ => hroots).imp fun later n hlater hext' hn => ?_
  refine isSide_of_not_isConstraint rfl hn.calm.holds hn.root (fun hends hregular m hm => ?_)
    fun hside hblind hregular v => ?_
  · exact (hn.calm.admitted (fun b hb => hends.child hb) hregular m hm).1
  · rw [hn.allows hblind hregular, allows_union hlater ((hext'.trans hext).holds _ hnode) rfl]
    exact (anyAllows_of_forall₂ (hns.imp fun _ _ hn v =>
      (hn.accepts hside hblind (hregular.earlier hext') v).symm)).symm

/-- A side of a property is the property with that side of its value. -/
theorem property_side {make : Node → Content Node} {key : PropKey} {kind : Kind} {missing : Bool}
    (hmake : TransformsProp make key kind missing) {value : Node} {caption : Caption} {profile : Profile}
    (hside : HasSide ground side value) (hvalid : space.Valid) (hnode : space.Holds (.mk (make value) caption profile))
    (hholds : space.Holds value) :
    Ensures ground True space (projectContent side (.mk (make value) caption profile) (make value)) fun later n =>
      IsSide side later (.mk (make value) caption profile) n := by
  rw [hmake.projected]
  refine (hside space hvalid hholds).bind fun first value' hfirst hext hvalue' => ?_
  refine (Ensures.intern hfirst (hmake.ready ground first value' hvalue'.holds)).imp
    fun later n hlater hext' hinterned => ?_
  have hvalue' := hvalue'.extends hext'
  have hnode' := (hext'.trans hext).holds _ hnode
  have hchildren : ∀ c ∈ (make value').children, later.Holds c := by
    rw [hmake.children]
    exact List.forall_mem_singleton.mpr hvalue'.holds
  have hexact (hregular : later.Regular) : (make value').Exact :=
    (hmake.exact_iff value').mpr (hvalue'.root (hmake.root hnode' rfl hregular))
  have hmember : value ∈ (Node.mk (make value) caption profile).children := by
    rw [children, content, hmake.children]
    exact List.mem_cons_self
  refine ⟨hinterned.holds, fun hroot => ?_, fun _ => .inr ⟨?_, ?_⟩, fun hends hregular => ?_,
    fun hside hblind hregular v => ?_⟩
  · rw [hmake.isRefinement rfl] at hroot
    cases hroot
  · exact hinterned.outline.trans (hmake.outline value' value)
  · exact Option.isSome_of_eq_some (hmake.property value)
  · refine hinterned.kinds (· ≠ .morph) hregular (hexact hregular) ?_ ?_
    · rw [hmake.ofKind]
      rcases hmake.isProp with rfl | rfl <;> rintro ⟨⟩
    · rw [hmake.children]
      exact List.forall_mem_singleton.mpr (hvalue'.plain (hends.child hmember) hregular)
  · rw [(hinterned.means hregular (hexact hregular)).allows hlater hinterned.holds hchildren, hmake.allows,
      hmake.allows_eq hlater hnode' rfl]
    cases v.get? key with
    | none => rfl
    | some x => exact hvalue'.accepts hside hblind hregular x

/-- A side of an intersection is the intersection of that side of its rules. -/
theorem intersection_side {basis : Option Node} {constraints : List Node} {caption : Caption} {profile : Profile}
    (hmorph : profile.includesMorph = true) (hsides : ∀ c ∈ constraints, HasSide ground side c) (hvalid : space.Valid)
    (hnode : space.Holds (.mk (.intersection basis constraints) caption profile)) :
    Ensures ground True space (projectContent side (.mk (.intersection basis constraints) caption profile)
      (.intersection basis constraints)) fun later n =>
        IsSide side later (.mk (.intersection basis constraints) caption profile) n := by
  obtain ⟨b, rfl, hdomain, hplain, hrules⟩ := sideBySide_of_includesMorph hvalid hnode rfl hmorph
  have hholds : ∀ e ∈ b :: constraints, space.Holds e := hvalid.closed _ hnode
  obtain ⟨hb, hconstraints⟩ := List.forall_mem_cons.mp hholds
  rw [projectContent_intersection hplain]
  refine (projectList_sides hsides hvalid hconstraints).bind fun first ns hfirst hext hns => ?_
  have hkinds := (List.forall_mem_cons.mp hrules.areConstraints).2
  have hnew : SideBySide b ns := hrules.replace <|
    ((List.forall₂_and_left _ _).mpr ⟨hkinds, hns⟩).imp fun rule n h => h.2.replaces h.1
  have hheld : ∀ e ∈ b :: ns, first.Holds e := by
    refine List.forall_mem_cons.mpr ⟨hext.holds b hb, fun n hn => ?_⟩
    obtain ⟨c, -, hn⟩ := exists_mem_of_forall₂ hns hn
    exact hn.holds
  refine (hnew.combine hfirst hheld).imp fun later n hlater hext' hinterned => ?_
  have hperm : (b :: sortConstraints ns).Perm (b :: ns) := (sortConstraints_perm ns).cons b
  refine isSide_of_not_isConstraint rfl hinterned.holds ?_ (fun hends hregular => ?_) fun hside hblind hregular v => ?_
  · rw [isRefinement, kind, Content.kind_eq_of_outline hinterned.outline]
    rfl
  · refine hinterned.kinds (· ≠ .morph) hregular (hnew.exact hdomain) (by rintro ⟨⟩) fun c hc => ?_
    rcases List.mem_cons.mp (hperm.mem_iff.mp hc) with rfl | hn
    · exact (includesMorph_eq_false (hvalid.everywhere_written hb)).mp hplain
    · obtain ⟨rule, hrule, hn⟩ := exists_mem_of_forall₂ hns hn
      exact hn.plain (hends.child (List.mem_cons_of_mem _ hrule)) (hregular.earlier hext')
  · rw [hnew.allows hdomain hlater hregular (fun e he => hext'.holds e (hheld e he)) hinterned,
      hlater.allows ((hext'.trans hext).holds _ hnode)]
    exact (everyAllows_of_forall₂ (.cons (fun _ => rfl) (hns.imp fun _ _ hn v =>
      (hn.accepts hside hblind (hregular.earlier hext') v).symm))).symm

/-- Every node has both sides. -/
theorem hasSide (side : Projection) (node : Node) : HasSide ground side node := by
  induction node using induct with
  | step content caption profile ih =>
      intro space hvalid hnode
      have hchildren := hvalid.closed _ hnode
      cases hmorph : profile.includesMorph with
      | false =>
          have hplain : (Node.mk content caption profile).includesMorph = false := hmorph
          rw [project_of_not_includesMorph side hplain]
          exact Ensures.pure hvalid (isSide_self hvalid hnode hplain)
      | true =>
          unfold project
          rw [hmorph, if_pos rfl]
          cases content with
          | union branches ordered => exact union_side ih hvalid hnode
          | morph input output transforms => exact morph_side hvalid hnode
          | intersection basis constraints =>
              exact intersection_side hmorph (fun c hc => ih c (List.mem_append_right _ hc)) hvalid hnode
          | required key value =>
              exact property_side (transforms_required key) (ih value List.mem_cons_self) hvalid hnode
                (hchildren value List.mem_cons_self)
          | optional key value =>
              exact property_side (transforms_optional key) (ih value List.mem_cons_self) hvalid hnode
                (hchildren value List.mem_cons_self)
          | _ =>
              have hsome := property?_of_includesMorph (hvalid.written _ hnode) rfl hmorph
              cases hsome

/-- In a regular space every node has an input, and it accepts exactly what the node accepts. -/
theorem input_accepts {adopting : Prop} (hblind : BlindToSign) (hreachable : space.Reachable adopting)
    (hnode : space.Holds node) (hregular : ((project .input node).exec space).2.Regular) :
    ∃ i, ((project .input node).exec space).1 = .ok i ∧ ∀ v, i.allows v = node.allows v := by
  have hspec := (@hasSide _ False .input node) space hreachable.valid hnode
  obtain ⟨i, hi⟩ := hspec.succeeds trivial hregular
  exact ⟨i, hi, (hspec.result i hi).accepts rfl hblind hregular⟩

omit [Behaviour] in
/-- Digits under a key are taken in two ways, one of which asks for at least three of them: only the other is left in the
input. -/
theorem parsed_or_trimmed_input : ∃ (space : Space) (node i : Node), @Space.Reachable Stock.behaviour False space ∧
    space.Holds node ∧ node.includesMorph = true ∧ i.includesMorph = false ∧
      ((@project Stock.behaviour .input node).exec space).1 = .ok i ∧
      ((@project Stock.behaviour .input node).exec space).2.Regular ∧
      ∀ v, @allows Stock.behaviour i v = @allows Stock.behaviour node v := by
  let _ := Stock.behaviour
  let parsing : Definition := .map
    [("in", .map [("basis", .string "string"), ("min", .number (.ofNat 3))]), ("morph", .transform ⟨0, none, "parseInt"⟩)]
  let trimming : Definition := .map [("in", .string "string"), ("morph", .transform ⟨1, none, "trim"⟩)]
  let either : Definition := .map [("branches", .list [parsing, trimming]), ("ordered", .bool true)]
  let written : Definition := .map [("basis", .string "object"),
    ("required", .list [.map [("key", .string "a"), ("value", either)]])]
  let program : SpaceM Bool := do
    let node ← written.readRoot
    let i ← project .input node
    let space ← get
    return node.includesMorph && !i.includesMorph && space.Regular
  have hyields : program.yields (.new 0 .standard) (fun b => b) = true := by
    decide +kernel
  obtain ⟨node, hread, hyields⟩ := SpaceM.yields_bind.mp hyields
  obtain ⟨i, hinput, hyields⟩ := SpaceM.yields_bind.mp hyields
  rw [SpaceM.yields_get, SpaceM.yields_pure] at hyields
  simp only [Bool.and_eq_true, Bool.not_eq_true', decide_eq_true_eq] at hyields
  obtain ⟨⟨hmorph, hplain⟩, hregular⟩ := hyields
  obtain ⟨hreachable, -, hholds⟩ :=
    (@Space.Reachable.new _ False 0 .standard).read (d := written) (List.forall_mem_nil _)
  obtain ⟨i', hinput', haccepts⟩ := input_accepts Stock.blindToSign hreachable (hholds node hread) hregular
  cases hinput.symm.trans hinput'
  exact ⟨_, node, i, hreachable, hholds node hread, hmorph, hplain, hinput, hregular, haccepts⟩

/-- In a regular space every node has both sides, and a side has no morph left, unless the same side of a morph in the
node has one. It is its own side then. -/
theorem side_plain {adopting : Prop} (hreachable : space.Reachable adopting) (hnode : space.Holds node)
    (hends : node.Everywhere fun m => m.endsPlain side = true)
    (hregular : ((project side node).exec space).2.Regular) :
    ∃ n, ((project side node).exec space).1 = .ok n ∧ (n.Everywhere fun m => m.kind ≠ .morph) ∧
      ∀ (side' : Projection) (later : Space), (project side' n).exec later = (.ok n, later) := by
  have hspec := (@hasSide _ False side node) space hreachable.valid hnode
  obtain ⟨n, hn⟩ := hspec.succeeds trivial hregular
  have hside := hspec.result n hn
  have hplain := hside.plain hends hregular
  refine ⟨n, hn, hplain, fun side' later => ?_⟩
  rw [project_of_not_includesMorph side'
    ((includesMorph_eq_false (hspec.valid.everywhere_written hside.holds)).mpr hplain)]
  rfl

omit [Behaviour] in
/-- Nothing is left to parse in the output of an object with digits under a key. -/
theorem parsed_property_plain : ∃ (space : Space) (node o : Node), @Space.Reachable Stock.behaviour False space ∧
    space.Holds node ∧ node.includesMorph = true ∧ (node.Everywhere fun m => m.endsPlain .output = true) ∧
      ((@project Stock.behaviour .output node).exec space).2.Regular ∧
      ((@project Stock.behaviour .output node).exec space).1 = .ok o ∧ (o.Everywhere fun m => m.kind ≠ .morph) ∧
      ∀ (side : Projection) (later : Space), (@project Stock.behaviour side o).exec later = (.ok o, later) := by
  let _ := Stock.behaviour
  let parsing : Definition :=
    .map [("in", .string "string"), ("morph", .transform ⟨0, none, "parseInt"⟩), ("out", .string "number")]
  let written : Definition := .map [("basis", .string "object"),
    ("required", .list [.map [("key", .string "a"), ("value", parsing)]])]
  let program : SpaceM Bool := do
    let node ← written.readRoot
    let _ ← project .output node
    let space ← get
    return node.includesMorph && (node.Everywhere fun m => m.endsPlain .output = true) && space.Regular
  have hyields : program.yields (.new 0 .standard) (fun b => b) = true := by
    decide +kernel
  obtain ⟨node, hread, hyields⟩ := SpaceM.yields_bind.mp hyields
  obtain ⟨o, houtput, hyields⟩ := SpaceM.yields_bind.mp hyields
  rw [SpaceM.yields_get, SpaceM.yields_pure] at hyields
  simp only [Bool.and_eq_true, decide_eq_true_eq] at hyields
  obtain ⟨⟨hmorph, hends⟩, hregular⟩ := hyields
  obtain ⟨hreachable, -, hholds⟩ :=
    (@Space.Reachable.new _ False 0 .standard).read (d := written) (List.forall_mem_nil _)
  obtain ⟨o', houtput', hplain, hstays⟩ := side_plain hreachable (hholds node hread) hends hregular
  exact ⟨_, node, o', hreachable, hholds node hread, hmorph, hends, hregular, houtput', hplain, hstays⟩

omit [Behaviour] in
/-- What a morph takes is handed back as it is: the digits under a key are still parsed in the input of a morph that
takes such objects. -/
theorem taken_morph_left : ∃ (space : Space) (node i : Node), @Space.Reachable Stock.behaviour False space ∧
    space.Holds node ∧ ((@project Stock.behaviour .input node).exec space).1 = .ok i ∧
      ((@project Stock.behaviour .input node).exec space).2.Regular ∧ i.includesMorph = true := by
  let _ := Stock.behaviour
  let parsing : Definition := .map [("in", .string "string"), ("morph", .transform ⟨0, none, "parseInt"⟩)]
  let taking : Definition := .map [("basis", .string "object"),
    ("required", .list [.map [("key", .string "a"), ("value", parsing)]])]
  let written : Definition := .map [("in", taking), ("morph", .transform ⟨1, none, "wrap"⟩)]
  let program : SpaceM Bool := do
    let node ← written.readRoot
    let i ← project .input node
    let space ← get
    return i.includesMorph && space.Regular
  have hyields : program.yields (.new 0 .standard) (fun b => b) = true := by
    decide +kernel
  obtain ⟨node, hread, hyields⟩ := SpaceM.yields_bind.mp hyields
  obtain ⟨i, hinput, hyields⟩ := SpaceM.yields_bind.mp hyields
  rw [SpaceM.yields_get, SpaceM.yields_pure] at hyields
  simp only [Bool.and_eq_true, decide_eq_true_eq] at hyields
  obtain ⟨hreachable, -, hholds⟩ :=
    (@Space.Reachable.new _ False 0 .standard).read (d := written) (List.forall_mem_nil _)
  exact ⟨_, node, i, hreachable, hholds node hread, hinput, hyields.2, hyields.1⟩

end Node

end SchemaAlgebra
