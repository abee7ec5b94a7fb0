-- SUMMARY: Adopting a node elsewhere gives a copy that matches it, and adopting the copy back gives the very same node.
import SchemaAlgebra.Proofs.Adoption
import SchemaAlgebra.Proofs.Interning
import SchemaAlgebra.Proofs.Matching
import SchemaAlgebra.Proofs.Sessions

/-!
# Round trips

A copy is made from the leaves up, with new names and newly sorted branches and
rules. If the copy is adopted where the original is alive, all of this is undone:
names are known already, sorting puts everything back where it was, and the content
that comes about is found under the identifier of the original.
-/

namespace SchemaAlgebra

namespace Space

variable {space : Space}

-- ---------------------------------------------------------------------------
-- Interning exact contents
-- ---------------------------------------------------------------------------

/-- In a regular space, an exact content is interned as a node of this caption and content, up to the sign of a zero. -/
theorem Valid.intern_content (hvalid : space.Valid) (hregular : space.Regular) {content : Content Node}
    (caption : Caption) (hsound : content.Sound) (hexact : content.Exact)
    (hchildren : ∀ c ∈ content.children, space.Holds c) :
    (space.intern content caption).1.caption = caption ∧
      (space.intern content caption).1.content.unsigned = content.unsigned := by
  have hnaming := hvalid.naming content
  have hinterned := hvalid.interned caption hsound hchildren
  rcases intern_cases space content caption with ⟨node, hfind, heq⟩ | ⟨-, heq⟩
  · rw [heq] at hinterned ⊢
    obtain ⟨hholds, hid⟩ := holds_of_find? hnaming.tidy hfind
    have hwritten := hnaming.everywhere_written hholds
    rw [hwritten.self.id] at hid
    have hfinite : (content.json (space.naming content).registry true caption).isFinite = true :=
      Content.isFinite_json fun c hc => Node.isFinite_childJson (hnaming.everywhere_written (hchildren c hc)) true
    have hjson := Node.json_eq_of_identifier (Node.isFinite_childJson hwritten true) hfinite hid
    rw [hwritten.self.childJson true] at hjson
    exact ⟨Content.caption_of_json hjson, hinterned.same hexact (hregular.exact node hholds)⟩
  · rw [heq]
    exact ⟨rfl, rfl⟩

/-- Interning what is written like a live node gives this node, and leaves the space as it is. -/
theorem Valid.intern_of_json (hvalid : space.Valid) {node : Node} (h : space.Holds node) {content : Content Node}
    {caption : Caption} (hidentities : content.identities = node.content.identities) (hkind : content.kind = node.kind)
    (hjson : content.json space.registry true caption = node.json) : space.intern content caption = (node, space) := by
  have hwritten := hvalid.written node h
  have hnaming : space.naming content = space := by
    rw [Space.naming, hidentities, Registry.registerAll_of_known hwritten.known]
  have hfind : (space.naming content).find?
      (content.identifier (content.json (space.naming content).registry true caption)) = some node := by
    rw [hnaming, hjson, Content.identifier, hkind, Node.kind, ← Content.identifier, ← hwritten.id]
    exact hvalid.tidy.find? h
  rcases intern_cases space content caption with ⟨found, hfound, heq⟩ | ⟨hnone, -⟩
  · rw [heq, hnaming, Option.some.inj (hfound.symm.trans hfind)]
  · cases hnone.symm.trans hfind

/-- Interning the content of a live node under its caption gives this node, and leaves the space as it is. -/
theorem Valid.intern_live (hvalid : space.Valid) {node : Node} (h : space.Holds node) {content : Content Node}
    (hcontent : content.unsigned = node.content.unsigned) : space.intern content node.caption = (node, space) := by
  have hidentities : content.identities = node.content.identities := by
    rw [← Content.identities_unsigned, hcontent, Content.identities_unsigned]
  have hkind : content.kind = node.content.kind := by
    rw [← Content.kind_unsigned, hcontent, Content.kind_unsigned]
  have hjson : content.json space.registry true node.caption = node.json := by
    rw [← Content.json_unsigned, hcontent, Content.json_unsigned, (hvalid.written node h).json]
  exact hvalid.intern_of_json h hidentities hkind hjson

end Space

-- ---------------------------------------------------------------------------
-- Computations that give a result
-- ---------------------------------------------------------------------------

namespace SpaceM

variable {α β : Type} {space : Space}

/-- The computation gives a result, and leaves a valid space valid and regular. -/
def Gives (space : Space) (x : SpaceM α) (Q : Space → α → Prop) : Prop :=
  ∃ a later, x.exec space = (.ok a, later) ∧ later.Valid ∧ later.Regular ∧ later.Extends space ∧ Q later a

theorem Gives.pure {Q : Space → α → Prop} {a : α} (hvalid : space.Valid) (hregular : space.Regular) (h : Q space a) :
    Gives space (Pure.pure a) Q :=
  ⟨a, space, rfl, hvalid, hregular, .refl space, h⟩

theorem Gives.bind {P : Space → α → Prop} {Q : Space → β → Prop} {x : SpaceM α} {f : α → SpaceM β}
    (hx : Gives space x P) (hf : ∀ later a, later.Valid → later.Regular → later.Extends space → P later a →
      Gives later (f a) Q) : Gives space (x >>= f) Q := by
  obtain ⟨a, later, hexec, hvalid, hregular, hext, ha⟩ := hx
  obtain ⟨b, final, hexec', hvalid', hregular', hext', hb⟩ := hf later a hvalid hregular hext ha
  refine ⟨b, final, ?_, hvalid', hregular', hext'.trans hext, hb⟩
  rw [exec_bind, hexec]
  exact hexec'

/-- What is known of the result of a computation holds of what it gives. -/
theorem Gives.and {ground safe : Prop} {P Q : Space → α → Prop} {x : SpaceM α} (h : Gives space x P)
    (hspec : Ensures ground safe space x Q) : Gives space x fun later a => P later a ∧ Q later a := by
  obtain ⟨a, later, hexec, hvalid, hregular, hext, ha⟩ := h
  have hresult := hspec.result a (by rw [hexec])
  rw [hexec] at hresult
  exact ⟨a, later, hexec, hvalid, hregular, hext, ha, hresult⟩

theorem Gives.intern {content : Content Node} {caption : Caption} (hvalid : space.Valid) (hregular : space.Regular)
    (hsound : content.Sound) (hcanonical : content.Canonical caption) (hexact : content.Exact)
    (hchildren : ∀ c ∈ content.children, space.Holds c) : Gives space (intern content caption) fun later n =>
      later.Holds n ∧ n.caption = caption ∧ n.content.unsigned = content.unsigned :=
  ⟨_, _, rfl, hvalid.intern hsound hcanonical hchildren, hregular.intern hvalid caption hexact,
    hvalid.intern_extends content caption, (hvalid.interned caption hsound hchildren).holds,
    hvalid.intern_content hregular caption hsound hexact hchildren⟩

end SpaceM

namespace Node

open SpaceM (Gives)

-- ---------------------------------------------------------------------------
-- Copies
-- ---------------------------------------------------------------------------

/-- What adopting a live node of a space gives in another space: a node that matches it, and that is adopted back as
the node it is a copy of. -/
structure Copy (home space : Space) (node copy : Node) : Prop where
  original : home.Holds node
  holds : space.Holds copy
  matching : node.Matches copy
  back : (adopt copy).exec home = (.ok node, home)

/-- Lists of nodes with their copies. -/
abbrev Copies (home space : Space) (nodes copies : List Node) : Prop := List.Forall₂ (Copy home space) nodes copies

variable {home space : Space}

theorem Copy.extends {later : Space} {node copy : Node} (h : Copy home space node copy) (hext : later.Extends space) :
    Copy home later node copy :=
  ⟨h.original, hext.holds copy h.holds, h.matching, h.back⟩

theorem Copies.matching {nodes copies : List Node} (h : Copies home space nodes copies) :
    List.Forall₂ Matches nodes copies :=
  h.imp fun _ _ hcopy => hcopy.matching

/-- A list of copies is adopted back as the originals. -/
theorem Copies.back {nodes copies : List Node} (h : Copies home space nodes copies) :
    (adoptList copies).exec home = (.ok nodes, home) := by
  induction h with
  | nil => rfl
  | cons hcopy _ ih =>
      rw [adoptList, SpaceM.exec_bind, hcopy.back]
      dsimp only
      rw [SpaceM.exec_bind, ih]
      rfl

theorem exec_adoptOption {node copy : Option Node} (h : Copies home space node.toList copy.toList) :
    (adoptOption copy).exec home = (.ok node, home) := by
  cases node with
  | none =>
      cases copy with
      | none => rfl
      | some copy => cases h
  | some node =>
      cases copy with
      | none => cases h
      | some copy =>
          rw [adoptOption, SpaceM.exec_bind, (List.forall₂_cons.mp h).1.back]
          rfl

/-- Copies of branches, sorted, are those of the branches in some order, and sorting takes this back. -/
theorem Copies.sortBranches (hhome : home.Valid) (hexact : home.Regular) (hvalid : space.Valid)
    (hregular : space.Regular) {branches copies : List Node} (h : Copies home space branches copies)
    (hbranch : ∀ b ∈ branches, b.kind.isBranch = true) (hsorted : branches.Pairwise (branchLE · ·)) :
    ∃ order, Copies home space order (Node.sortBranches copies) ∧ Node.sortBranches order = branches := by
  simp only [sortBranches_eq]
  have hpairs := (List.forall₂_and_left branches copies).mpr ⟨hbranch, h⟩
  obtain ⟨order, horder, hback⟩ := exists_order_of_copies branchLE_trans branchLE_total hpairs hsorted <| by
    rintro a b a' b' ⟨hbranch, ha⟩ ⟨hbranch', hb⟩ htied
    have hsame :=
      matches_of_plain (plain_eq_of_tied_branches hhome hexact ha.original hb.original hbranch hbranch' htied)
    have hplain := (ha.matching.symm.trans (hsame.trans hb.matching)).plain_eq hvalid hregular ha.holds hb.holds
    rw [← branchLE_plain hvalid ha.holds hb.holds, hplain]
    simpa using branchLE_total (b'.plain space.registry) (b'.plain space.registry)
  exact ⟨order, horder.imp fun _ _ hcopy => hcopy.2, hback⟩

/-- Copies of constraints, sorted, are those of the constraints in some order, and sorting takes this back. -/
theorem Copies.sortConstraints (hhome : home.Valid) (hexact : home.Regular) (hvalid : space.Valid)
    (hregular : space.Regular) {constraints copies : List Node} (h : Copies home space constraints copies)
    (hsorted : constraints.Pairwise (constraintLE · ·)) :
    ∃ order, Copies home space order (Node.sortConstraints copies) ∧ Node.sortConstraints order = constraints := by
  simp only [sortConstraints_eq]
  refine exists_order_of_copies constraintLE_trans constraintLE_total h hsorted ?_
  intro a b a' b' ha hb htied
  have hsame := matches_of_plain (plain_eq_of_tied_rules hhome hexact ha.original hb.original htied)
  have hplain := (ha.matching.symm.trans (hsame.trans hb.matching)).plain_eq hvalid hregular ha.holds hb.holds
  rw [← constraintLE_plain hvalid ha.holds hb.holds, hplain]
  simpa using constraintLE_total (b'.plain space.registry) (b'.plain space.registry)

-- ---------------------------------------------------------------------------
-- Rebuilding
-- ---------------------------------------------------------------------------

/-- A content that was rebuilt elsewhere. Rebuilding it where the original is gives the original, up to the sign of
a zero. -/
structure Rewritten (home : Space) (content out : Content Node) : Prop where
  exact : out.Exact
  matching : ∃ order, List.Forall₂ Matches content.children order ∧ order.Perm out.children ∧
    (content.arranged = true → order = out.children)
  back : ∀ other : Content Node, other.unsigned = out.unsigned →
    ∃ again, (adoptContent other).exec home = (.ok again, home) ∧ again.unsigned = content.unsigned

/-- A node of a space that can be copied to any other. -/
def Copyable (home : Space) (node : Node) : Prop :=
  ∀ space : Space, space.Valid → space.Regular → space.number ≠ home.number →
    Gives space (adopt node) fun later copy => Copy home later node copy

theorem adoptList_gives {nodes : List Node} (hcopyable : ∀ n ∈ nodes, Copyable home n) (hvalid : space.Valid)
    (hregular : space.Regular) (hne : space.number ≠ home.number) :
    Gives space (adoptList nodes) fun later copies => Copies home later nodes copies := by
  induction nodes generalizing space with
  | nil => exact .pure hvalid hregular .nil
  | cons node rest ih =>
      obtain ⟨hnode, hrest⟩ := List.forall_mem_cons.mp hcopyable
      refine (hnode space hvalid hregular hne).bind fun first copy hvalid' hregular' hext hcopy => ?_
      refine (ih hrest hvalid' hregular' (by rwa [hext.number])).bind fun second copies hvalid'' hregular'' hext' h => ?_
      exact .pure hvalid'' hregular'' (.cons (hcopy.extends hext') h)

theorem adoptOption_gives {node : Option Node} (hcopyable : ∀ n ∈ node.toList, Copyable home n) (hvalid : space.Valid)
    (hregular : space.Regular) (hne : space.number ≠ home.number) :
    Gives space (adoptOption node) fun later copy => Copies home later node.toList copy.toList := by
  cases node with
  | none => exact .pure hvalid hregular .nil
  | some node =>
      refine (hcopyable node List.mem_cons_self space hvalid hregular hne).bind ?_
      intro later copy hvalid' hregular' _ hcopy
      exact .pure hvalid' hregular' (.cons hcopy .nil)

/-- Rules without two divisors have copies without two. -/
theorem Copies.exact {constraints copies : List Node} (h : Copies home space constraints copies)
    {basis basis' : Option Node} (hexact : (Content.intersection basis constraints).Exact) :
    (Content.intersection basis' (Node.sortConstraints copies)).Exact := by
  have hkinds : copies.Pairwise fun a b => ¬ (a.kind = .divisor ∧ b.kind = .divisor) := by
    have hmap : constraints.map kind = copies.map kind :=
      forall₂_map_eq.mp (h.imp fun _ _ hcopy => hcopy.matching.kind_eq)
    have hpairwise : (constraints.map kind).Pairwise fun k k' => ¬ (k = .divisor ∧ k' = .divisor) :=
      List.pairwise_map.mpr hexact
    rw [hmap] at hpairwise
    exact List.pairwise_map.mp hpairwise
  exact hkinds.perm (sortConstraints_perm copies).symm fun hnot hboth => hnot hboth.symm

theorem adoptContent_gives {content : Content Node} {caption : Caption} (hhome : home.Valid) (hregularHome : home.Regular)
    (hcopyable : ∀ c ∈ content.children, Copyable home c) (hsound : content.Sound)
    (hcanonical : content.Canonical caption) (hexact : content.Exact) (hvalid : space.Valid)
    (hregular : space.Regular) (hne : space.number ≠ home.number) :
    Gives space (adoptContent content) fun _ out => Rewritten home content out := by
  cases content with
  | union branches ordered =>
      refine (adoptList_gives hcopyable hvalid hregular hne).bind ?_
      intro later copies hvalid' hregular' _ (hcopies : Copies home later branches copies)
      refine .pure hvalid' hregular' ?_
      cases ordered with
      | true =>
          refine ⟨trivial, ⟨copies, hcopies.matching, .refl _, fun _ => rfl⟩, fun other hother => ?_⟩
          cases other <;> cases hother
          refine ⟨.union branches true, ?_, rfl⟩
          simp only [adoptContent, SpaceM.exec_bind, hcopies.back, SpaceM.exec_pure, if_true]
      | false =>
          refine ⟨trivial, ⟨copies, hcopies.matching, (sortBranches_perm copies).symm, nofun⟩, fun other hother => ?_⟩
          obtain ⟨order, horder, hback⟩ := Copies.sortBranches hhome hregularHome hvalid' hregular' hcopies hsound
            ((hcanonical.1 rfl).imp decide_eq_true)
          cases other <;> cases hother
          refine ⟨.union branches false, ?_, rfl⟩
          simp only [adoptContent, SpaceM.exec_bind, SpaceM.exec_pure, Bool.false_eq_true, if_false, horder.back, hback]
  | morph input output transforms =>
      obtain ⟨hinput, houtput⟩ := List.forall_mem_cons.mp hcopyable
      refine (hinput space hvalid hregular hne).bind fun first copy hvalid' hregular' hext hcopy => ?_
      refine (adoptOption_gives houtput hvalid' hregular' (by rwa [hext.number])).bind ?_
      intro later copies hvalid'' hregular'' hext' hcopies
      refine .pure hvalid'' hregular'' ⟨trivial, ⟨copy :: copies.toList, .cons hcopy.matching hcopies.matching, .refl _,
        fun _ => rfl⟩, fun other hother => ?_⟩
      cases other <;> cases hother
      refine ⟨.morph input output transforms, ?_, rfl⟩
      simp only [adoptContent, SpaceM.exec_bind, hcopy.back, exec_adoptOption hcopies, SpaceM.exec_pure]
  | intersection basis constraints =>
      obtain ⟨hbasis, hconstraints⟩ := List.forall_mem_append.mp hcopyable
      refine (adoptOption_gives hbasis hvalid hregular hne).bind fun first copy hvalid' hregular' hext hcopy => ?_
      refine (adoptList_gives hconstraints hvalid' hregular' (by rwa [hext.number])).bind ?_
      intro later copies hvalid'' hregular'' hext' hcopies
      obtain ⟨order, horder, hback⟩ := Copies.sortConstraints hhome hregularHome hvalid'' hregular'' hcopies hsound.sorted
      refine .pure hvalid'' hregular''
        ⟨hcopies.exact hexact, ⟨copy.toList ++ copies, ?_, ?_, nofun⟩, fun other hother => ?_⟩
      · exact List.rel_append hcopy.matching hcopies.matching
      · exact (sortConstraints_perm copies).symm.append_left copy.toList
      · cases other <;> cases hother
        refine ⟨.intersection basis constraints, ?_, rfl⟩
        simp only [adoptContent, SpaceM.exec_bind, exec_adoptOption hcopy, horder.back, SpaceM.exec_pure, hback]
  | required key value =>
      refine (hcopyable value List.mem_cons_self space hvalid hregular hne).bind ?_
      intro later copy hvalid' hregular' _ hcopy
      refine .pure hvalid' hregular'
        ⟨?_, ⟨[copy], .cons hcopy.matching .nil, .refl _, fun _ => rfl⟩, fun other hother => ?_⟩
      · exact (congrArg Kind.isRefinement hcopy.matching.kind_eq).symm.trans hexact
      · cases other <;> cases hother
        refine ⟨.required key value, ?_, rfl⟩
        simp only [adoptContent, SpaceM.exec_bind, hcopy.back, SpaceM.exec_pure]
  | optional key value =>
      refine (hcopyable value List.mem_cons_self space hvalid hregular hne).bind ?_
      intro later copy hvalid' hregular' _ hcopy
      refine .pure hvalid' hregular'
        ⟨?_, ⟨[copy], .cons hcopy.matching .nil, .refl _, fun _ => rfl⟩, fun other hother => ?_⟩
      · exact (congrArg Kind.isRefinement hcopy.matching.kind_eq).symm.trans hexact
      · cases other <;> cases hother
        refine ⟨.optional key value, ?_, rfl⟩
        simp only [adoptContent, SpaceM.exec_bind, hcopy.back, SpaceM.exec_pure]
  | _ =>
      refine .pure hvalid hregular ⟨hexact, ⟨[], .nil, .refl _, fun _ => rfl⟩, fun other hother => ?_⟩
      cases other <;> first | cases hother; done | exact ⟨_, rfl, hother⟩

/-- Every live node of a regular space can be copied to any other. -/
theorem copyable {node : Node} (hhome : home.Valid) (hregularHome : home.Regular) (hnode : home.Holds node) :
    Copyable home node := by
  induction node using induct with
  | step content caption profile ih =>
      intro space hvalid hregular hne
      have hchildren := hhome.closed _ hnode
      have hsound : content.Sound := (hhome.written _ hnode).sound
      have hcanonical : content.Canonical caption := hhome.canonical _ hnode
      have hforeign := hhome.foreign hnode hne.symm
      have hrebuilt : SpaceM.Ensures False False space (adoptContent content) fun later out =>
          Remade content out ∧ ∀ c ∈ out.children, later.Holds c :=
        adoptContent_spec (fun c _ => adopts c) not_false hvalid fun c hc => hforeign.child hc
      have hrewritten := adoptContent_gives hhome hregularHome (fun c hc => ih c hc (hchildren c hc)) hsound hcanonical
        (hregularHome.exact _ hnode) hvalid hregular hne
      have hgives : Gives space (do SpaceM.intern (← adoptContent content) caption) fun later copy =>
          Copy home later (.mk content caption profile) copy := by
        refine (hrewritten.and hrebuilt).bind fun first out hvalid' hregular' hext hout => ?_
        obtain ⟨⟨hexact, ⟨order, horder, hperm, hfixed⟩, hback⟩, hremade, hheld⟩ := hout
        obtain ⟨hsound', hcanonical'⟩ := hremade.preserves hsound hcanonical
        obtain ⟨copy, later, hexec, hvalid'', hregular'', hext', hholds, hcaption, hcontent⟩ :=
          SpaceM.Gives.intern hvalid' hregular' hsound' hcanonical' hexact hheld
        refine ⟨copy, later, hexec, hvalid'', hregular'', hext', hnode, hholds, ?_, ?_⟩
        · have houtline : copy.content.outline = content.outline := by
            rw [← Content.outline_unsigned, hcontent, Content.outline_unsigned, hremade.outline_eq]
          have hcopied : out.children = copy.children := by
            rw [← Content.children_unsigned, ← hcontent, Content.children_unsigned]
            rfl
          exact .mk houtline.symm horder (hcopied ▸ hperm) fun h => (hfixed h).trans hcopied
        · obtain ⟨again, hexec', hagain⟩ := hback copy.content hcontent
          have haway : copy.space ≠ home.number := by
            rw [hvalid''.home copy hholds, hext'.number, hext.number]
            exact hne
          have hlive : home.intern again copy.caption = (.mk content caption profile, home) := by
            rw [hcaption]
            exact hhome.intern_live hnode hagain
          rw [exec_adopt_foreign haway, SpaceM.exec_bind, hexec']
          exact congrArg (fun out : Node × Space => (Except.ok out.1, out.2)) hlive
      have haway : (Node.mk content caption profile).space ≠ space.number := by
        rw [hhome.home _ hnode]
        exact hne.symm
      unfold SpaceM.Gives
      rw [exec_adopt_foreign haway]
      exact hgives

/-- Adopting a live node of a regular space in another, under whatever prefix and configuration, gives a node there
that accepts the same values, and adopting that one back, while the first node is live, gives the very same node. -/
theorem adopt_round_trip [Behaviour] {adopting : Prop} {node : Node} (hhome : home.Reachable adopting)
    (hregularHome : home.Regular) (hspace : space.Reachable adopting) (hregular : space.Regular)
    (hnode : home.Holds node) : ∃ copy, ((adopt node).exec space).1 = .ok copy ∧ copy.space = space.number ∧
      (∀ v, copy.allows v = node.allows v) ∧ (adopt copy).exec home = (.ok node, home) := by
  have hvalid := hhome.valid
  have hplace := hvalid.home node hnode
  by_cases hsame : home.number = space.number
  · refine ⟨node, ?_, hplace.trans hsame, fun _ => rfl, exec_adopt_home hplace⟩
    rw [exec_adopt_home (hplace.trans hsame)]
  · obtain ⟨copy, later, hexec, hvalid', hregular', hext, hcopy⟩ :=
      copyable hvalid hregularHome hnode space hspace.valid hregular fun h => hsame h.symm
    refine ⟨copy, by rw [hexec], (hvalid'.home copy hcopy.holds).trans hext.number, fun v => ?_, hcopy.back⟩
    exact (hcopy.matching.allows_eq (hvalid.everywhere_written hnode) (hvalid'.everywhere_written hcopy.holds) v).symm

/-- A test without a name is the first of its kind in one space and the second in another: the copy is of another
type, and still the node comes back. -/
theorem unnamed_test_round_trip : ∃ (home space : Space) (node copy : Node),
    @Space.Reachable Stock.behaviour True home ∧ home.Regular ∧ @Space.Reachable Stock.behaviour True space ∧
      space.Regular ∧ home.Holds node ∧ ((adopt node).exec space).1 = .ok copy ∧ copy.typeId ≠ node.typeId ∧
      (∀ v, @allows Stock.behaviour copy v = @allows Stock.behaviour node v) ∧
      (adopt copy).exec home = (.ok node, home) := by
  let _ := Stock.behaviour
  let positive : Definition := .predicate ⟨0, none, "positive"⟩
  let even : Definition := .map [("basis", .string "number"), ("predicate", .list [.predicate ⟨1, none, "even"⟩])]
  let tested : Definition := .map [("basis", .string "number"), ("predicate", .list [positive])]
  let space := (even.readRoot.exec (.new 1 ⟨"$other", false, 8⟩)).2
  let program : SpaceM Bool := do
    let node ← tested.readRoot
    let home ← get
    return decide home.Regular && decide space.Regular &&
      (adopt node).yields space (fun copy => decide (copy.typeId ≠ node.typeId))
  have hyields : program.yields (.new 0 .standard) (fun b => b) = true := by
    decide +kernel
  obtain ⟨node, hnode, hyields⟩ := SpaceM.yields_bind.mp hyields
  rw [SpaceM.yields_get, SpaceM.yields_pure] at hyields
  simp only [Bool.and_eq_true, decide_eq_true_eq, SpaceM.yields_iff] at hyields
  obtain ⟨⟨hregularHome, hregular⟩, copy, hcopy, htype⟩ := hyields
  obtain ⟨hhome, -, hholds⟩ := (@Space.Reachable.new _ True 0 .standard).read (d := tested) (List.forall_mem_nil _)
  obtain ⟨hspace, -, -⟩ := (@Space.Reachable.new _ True 1 ⟨"$other", false, 8⟩).read (d := even) (List.forall_mem_nil _)
  obtain ⟨copy', hcopy', -, hallows, hback⟩ := adopt_round_trip hhome hregularHome hspace hregular (hholds node hnode)
  obtain rfl : copy' = copy := Except.ok.inj (hcopy'.symm.trans hcopy)
  exact ⟨_, _, node, copy', hhome, hregularHome, hspace, hregular, hholds node hnode, hcopy, htype, hallows, hback⟩

end Node

end SchemaAlgebra
