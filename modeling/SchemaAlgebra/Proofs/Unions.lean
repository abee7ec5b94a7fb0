-- SUMMARY: Building unions: flattening, dropping covered branches, and that no value is gained or lost by either.
import SchemaAlgebra.Proofs.Intersections
import SchemaAlgebra.Proofs.StableSort

/-!
# Unions

Each step of building a union keeps what its branches allow together: nested
unions give their branches, a branch is dropped for one that allows all it does,
and branches that cover every value give way to the node that allows every value.
-/

namespace SchemaAlgebra

namespace Node

open SpaceM (Ensures)

-- ---------------------------------------------------------------------------
-- Branches of different types
-- ---------------------------------------------------------------------------

/-- What is kept of the nodes seen so far: a first node of each type, the last one first. -/
structure Kept (seen kept : List Node) : Prop where
  sublist : kept.reverse.Sublist seen
  distinct : kept.Pairwise fun a b => a.sameType b = false
  covers : ∀ n ∈ seen, ∃ m ∈ kept, n.sameType m = true

theorem Kept.step {seen kept : List Node} (h : Kept seen kept) (node : Node) :
    Kept (seen ++ [node]) (if kept.any node.sameType then kept else node :: kept) := by
  split
  · rename_i hany
    refine ⟨h.sublist.trans (List.sublist_append_left _ _), h.distinct, List.forall_mem_append.mpr ⟨h.covers, ?_⟩⟩
    exact List.forall_mem_singleton.mpr (List.any_eq_true.mp hany)
  · rename_i hany
    refine ⟨?_, List.pairwise_cons.mpr ⟨fun n hn => ?_, h.distinct⟩, List.forall_mem_append.mpr ⟨fun n hn => ?_, ?_⟩⟩
    · rw [List.reverse_cons]
      exact h.sublist.append (.refl _)
    · rw [Bool.eq_false_iff]
      exact fun hsame => hany (List.any_eq_true.mpr ⟨n, hn, hsame⟩)
    · obtain ⟨m, hm, hsame⟩ := h.covers n hn
      exact ⟨m, List.mem_cons_of_mem _ hm, hsame⟩
    · exact List.forall_mem_singleton.mpr ⟨node, List.mem_cons_self, beq_self_eq_true _⟩

theorem kept_foldl {seen rest kept : List Node} (h : Kept seen kept) : Kept (seen ++ rest)
    (rest.foldl (fun kept node => if kept.any node.sameType then kept else node :: kept) kept) := by
  induction rest generalizing seen kept with
  | nil =>
      rw [List.append_nil]
      exact h
  | cons node rest ih =>
      rw [List.foldl_cons, List.append_cons]
      exact ih (h.step node)

theorem kept_distinctByType (nodes : List Node) :
    ∃ kept, Kept nodes kept ∧ distinctByType nodes = kept.reverse :=
  ⟨_, kept_foldl ⟨.refl _, .nil, List.forall_mem_nil _⟩, rfl⟩

theorem distinctByType_sublist (nodes : List Node) : (distinctByType nodes).Sublist nodes := by
  obtain ⟨kept, h, heq⟩ := kept_distinctByType nodes
  rw [heq]
  exact h.sublist

theorem distinctByType_distinct (nodes : List Node) :
    (distinctByType nodes).Pairwise fun a b => a.sameType b = false := by
  obtain ⟨kept, h, heq⟩ := kept_distinctByType nodes
  rw [heq, List.pairwise_reverse]
  exact h.distinct.imp fun hab => (sameType_comm _ _).trans hab

theorem distinctByType_covers {nodes : List Node} {node : Node} (h : node ∈ nodes) :
    ∃ m ∈ distinctByType nodes, m.sameType node = true := by
  obtain ⟨kept, hkept, heq⟩ := kept_distinctByType nodes
  obtain ⟨m, hm, hsame⟩ := hkept.covers node h
  rw [heq]
  exact ⟨m, List.mem_reverse.mpr hm, (sameType_comm m node).trans hsame⟩

theorem distinctByType_nodup (nodes : List Node) : ((distinctByType nodes).map typeId).Nodup :=
  List.pairwise_map.mpr ((distinctByType_distinct nodes).imp fun hne => beq_eq_false_iff_ne.mp hne)

theorem mem_types_distinctByType {nodes : List Node} {type : String} :
    type ∈ (distinctByType nodes).map typeId ↔ type ∈ nodes.map typeId := by
  refine ⟨fun htype => List.map_subset typeId (distinctByType_sublist nodes).subset htype, fun htype => ?_⟩
  obtain ⟨n, hn, rfl⟩ := List.mem_map.mp htype
  obtain ⟨m, hm, hsame⟩ := distinctByType_covers hn
  exact List.mem_map.mpr ⟨m, hm, eq_of_beq hsame⟩

/-- Where nodes are of the same types, so are the nodes without those whose type occurred before. -/
theorem distinctByType_perm {nodes nodes' : List Node}
    (h : ∀ type, type ∈ nodes.map typeId ↔ type ∈ nodes'.map typeId) :
    ((distinctByType nodes).map typeId).Perm ((distinctByType nodes').map typeId) :=
  (List.perm_ext_iff_of_nodup (distinctByType_nodup nodes) (distinctByType_nodup nodes')).mpr fun type => by
    rw [mem_types_distinctByType, mem_types_distinctByType, h]

variable [Behaviour] {ground : Prop} {safe : Safety} {depth : Nat} {space : Space}

-- ---------------------------------------------------------------------------
-- What branches allow together
-- ---------------------------------------------------------------------------

/-- Whether some node of a list allows a value. -/
def anyAllows (nodes : List Node) (v : Value) : Bool := nodes.any fun node => node.allows v

@[simp] theorem anyAllows_nil (v : Value) : anyAllows [] v = false := rfl

@[simp] theorem anyAllows_cons (node : Node) (rest : List Node) (v : Value) :
    anyAllows (node :: rest) v = (node.allows v || anyAllows rest v) := rfl

@[simp] theorem anyAllows_append (a b : List Node) (v : Value) :
    anyAllows (a ++ b) v = (anyAllows a v || anyAllows b v) := List.any_append

theorem anyAllows_iff {nodes : List Node} {v : Value} :
    anyAllows nodes v = true ↔ ∃ n ∈ nodes, n.allows v = true := List.any_eq_true

theorem anyAllows_perm {a b : List Node} (h : a.Perm b) (v : Value) : anyAllows a v = anyAllows b v := by
  rw [Bool.eq_iff_iff, anyAllows_iff, anyAllows_iff]
  simp only [h.mem_iff]

theorem anyAllows_distinctByType (hvalid : space.Valid) (hregular : space.Regular) {nodes : List Node}
    (h : ∀ n ∈ nodes, space.Holds n) (v : Value) : anyAllows (distinctByType nodes) v = anyAllows nodes v := by
  have hsubset := (distinctByType_sublist nodes).subset
  rw [Bool.eq_iff_iff, anyAllows_iff, anyAllows_iff]
  constructor
  · rintro ⟨n, hn, hv⟩
    exact ⟨n, hsubset hn, hv⟩
  · rintro ⟨n, hn, hv⟩
    obtain ⟨m, hm, hsame⟩ := distinctByType_covers hn
    refine ⟨m, hm, ?_⟩
    rw [hvalid.allows_eq hregular (h m (hsubset hm)) (h n hn) hsame]
    exact hv

theorem allows_union (hvalid : space.Valid) {node : Node} (h : space.Holds node) {branches : List Node}
    {ordered : Bool} (hc : node.content = .union branches ordered) (v : Value) :
    node.allows v = anyAllows branches v := by
  rw [hvalid.allows h, hc, Bool.eq_iff_iff, anyAllows_iff]
  exact someAllows_iff

/-- Nodes that can be conjoined as branches: they are within reach and no unions. -/
structure Branches (safe : Safety) (depth : Nat) (space : Space) (nodes : List Node) : Prop where
  within : ∀ n ∈ nodes, n.Within safe (depth + 1) space
  notUnions : ∀ n ∈ nodes, n.kind ≠ .union

theorem Branches.holds {nodes : List Node} (h : Branches safe depth space nodes) : ∀ n ∈ nodes, space.Holds n :=
  fun n hn => (h.within n hn).holds

theorem Branches.subset {nodes kept : List Node} (h : Branches safe depth space nodes)
    (hsubset : ∀ n ∈ kept, n ∈ nodes) : Branches safe depth space kept where
  within := fun n hn => h.within n (hsubset n hn)
  notUnions := fun n hn => h.notUnions n (hsubset n hn)

theorem Branches.extends {later : Space} {nodes : List Node} (h : Branches safe depth space nodes)
    (hext : later.Extends space) : Branches safe depth later nodes where
  within := fun n hn => (h.within n hn).extends hext
  notUnions := h.notUnions

theorem Branches.append {a b : List Node} (ha : Branches safe depth space a) (hb : Branches safe depth space b) :
    Branches safe depth space (a ++ b) where
  within := List.forall_mem_append.mpr ⟨ha.within, hb.within⟩
  notUnions := List.forall_mem_append.mpr ⟨ha.notUnions, hb.notUnions⟩

theorem branches_nil : Branches safe depth space [] :=
  ⟨List.forall_mem_nil _, List.forall_mem_nil _⟩

theorem branches_singleton {node : Node} (h : node.Within safe (depth + 1) space) (hunion : node.kind ≠ .union) :
    Branches safe depth space [node] :=
  ⟨List.forall_mem_singleton.mpr h, List.forall_mem_singleton.mpr hunion⟩

omit [Behaviour] in
theorem branch_not_union {node : Node} (h : node.kind.isBranch = true) : node.kind ≠ .union := by
  intro hk
  rw [hk] at h
  cases h

omit [Behaviour] in
/-- A node that is no bare refinement is a branch or a union. -/
theorem isBranch_of_root {node : Node} (hroot : node.isRefinement = false) (hunion : node.kind ≠ .union) :
    node.kind.isBranch = true := by
  unfold isRefinement at hroot
  generalize node.kind = kind at hroot hunion
  cases kind <;> first | rfl | cases hroot; done | exact absurd rfl hunion

omit [Behaviour] in
theorem not_union_of_content {node : Node} (h : ∀ branches ordered, node.content ≠ .union branches ordered) :
    node.kind ≠ .union := by
  unfold kind
  intro hkind
  cases hc : node.content with
  | union branches ordered => exact h branches ordered hc
  | _ => rw [hc] at hkind; cases hkind

omit [Behaviour] in
/-- A node is a union with its branches, or its only branch. -/
theorem branches_cases (node : Node) :
    (∃ branches ordered, node.content = .union branches ordered ∧ node.branches = (branches, ordered)) ∨
      node.kind ≠ .union ∧ node.branches = ([node], false) := by
  unfold branches kind
  cases node.content with
  | union branches ordered => exact .inl ⟨branches, ordered, rfl, rfl⟩
  | _ => exact .inr ⟨by rintro ⟨⟩, rfl⟩

omit [Behaviour] in
theorem branches_of_not_union {node : Node} (hunion : node.kind ≠ .union) : node.branches = ([node], false) := by
  rcases branches_cases node with ⟨branches, ordered, hc, -⟩ | ⟨-, hbranches⟩
  · exact absurd (by rw [kind, hc]; rfl) hunion
  · exact hbranches

/-- The branches of a union. -/
theorem branches_of_union (hvalid : space.Valid) {node : Node} (h : node.Calm safe (depth + 1) space)
    {branches : List Node} {ordered : Bool} (hc : node.content = .union branches ordered) :
    Branches safe depth space branches ∧ ∀ n ∈ branches, n.kind.isBranch = true := by
  have hchild {n : Node} (hn : n ∈ branches) : n ∈ node.children := by
    rw [children, hc]
    exact hn
  have hkinds : ∀ n ∈ branches, n.kind.isBranch = true := by
    have hsound := (hvalid.written node h.holds).sound
    rw [hc] at hsound
    exact hsound
  refine ⟨⟨fun n hn => ?_, fun n hn => branch_not_union (hkinds n hn)⟩, hkinds⟩
  exact ⟨h.child hvalid (hchild hn), fun _ _ => branch_not_refinement (hkinds n hn)⟩

-- ---------------------------------------------------------------------------
-- Flattening
-- ---------------------------------------------------------------------------

/-- The branches of any node that is no bare refinement. -/
theorem branches_within (hvalid : space.Valid) {node : Node} (h : node.Within safe (depth + 1) space)
    (hroot : node.isRefinement = false) :
    Branches safe depth space node.branches.1 ∧ ∀ n ∈ node.branches.1, n.kind.isBranch = true := by
  rcases branches_cases node with ⟨branches, ordered, hc, hbranches⟩ | ⟨hunion, hbranches⟩
  · rw [hbranches]
    exact branches_of_union hvalid h.toCalm hc
  · rw [hbranches]
    exact ⟨branches_singleton h hunion, List.forall_mem_singleton.mpr (isBranch_of_root hroot hunion)⟩

omit [Behaviour] in
/-- Flattening gives the branches of each node. -/
theorem flatten_eq {nodes : List Node} (h : ∀ n ∈ nodes, n.isRefinement = false) :
    flatten nodes = pure (nodes.flatMap fun n => n.branches.1) := by
  induction nodes with
  | nil => rfl
  | cons node rest ih =>
      obtain ⟨hnode, hrest⟩ := List.forall_mem_cons.mp h
      rw [List.flatMap_cons]
      unfold flatten
      rcases branches_cases node with ⟨branches, ordered, hc, hbranches⟩ | ⟨hunion, hbranches⟩
      · rw [hc, hbranches, ih hrest]
        rfl
      · rw [hbranches, ih hrest]
        split
        · rename_i hc
          exact absurd (by rw [kind, hc]; rfl) hunion
        · rw [if_pos (isBranch_of_root hnode hunion)]
          rfl

theorem flatten_spec {promised : Prop} {nodes : List Node} (hvalid : space.Valid)
    (hwithin : ∀ n ∈ nodes, n.Within safe (depth + 1) space)
    (hroots : promised → space.Regular → ∀ n ∈ nodes, n.isRefinement = false) :
    Ensures ground promised space (flatten nodes) fun later out => out = (nodes.flatMap fun n => n.branches.1) ∧
      Branches safe depth later out ∧ (∀ n ∈ out, n.kind.isBranch = true) ∧
        ∀ v, anyAllows out v = anyAllows nodes v := by
  induction nodes generalizing space with
  | nil =>
      exact Ensures.pure hvalid ⟨rfl, branches_nil, List.forall_mem_nil _, fun _ => rfl⟩
  | cons node rest ih =>
      obtain ⟨hnode, hrest⟩ := List.forall_mem_cons.mp hwithin
      have hnext := ih hvalid hrest fun hpromised hregular =>
        (List.forall_mem_cons.mp (hroots hpromised hregular)).2
      unfold flatten
      split
      · rename_i branches ordered hc
        refine hnext.bind ?_
        rintro later out hvalid' hext ⟨heq, hout, hkinds, hallows⟩
        obtain ⟨hbranches, hkinds'⟩ := branches_of_union hvalid hnode.toCalm hc
        refine Ensures.pure hvalid' ⟨?_, (hbranches.extends hext).append hout, ?_, fun v => ?_⟩
        · rw [List.flatMap_cons, heq, Node.branches, hc]
        · exact List.forall_mem_append.mpr ⟨hkinds', hkinds⟩
        · rw [anyAllows_append, hallows, anyAllows_cons, allows_union hvalid hnode.holds hc]
      · rename_i hnot
        split
        · rename_i hbranch
          refine hnext.bind ?_
          rintro later out hvalid' hext ⟨heq, hout, hkinds, hallows⟩
          have hunion := branch_not_union hbranch
          have hsingle := branches_singleton hnode hunion
          refine Ensures.pure hvalid' ⟨?_, (hsingle.extends hext).append hout, ?_, fun v => ?_⟩
          · rw [List.flatMap_cons, heq, branches_of_not_union hunion, List.singleton_append]
          · exact List.forall_mem_cons.mpr ⟨hbranch, hkinds⟩
          · rw [anyAllows_cons, hallows, anyAllows_cons]
        · rename_i hbranch
          refine Ensures.refuse hvalid fun hpromised hregular => hbranch ?_
          exact isBranch_of_root (hroots hpromised hregular node List.mem_cons_self) (not_union_of_content hnot)

-- ---------------------------------------------------------------------------
-- Dropping covered branches
-- ---------------------------------------------------------------------------

/-- The specification of conjunctions of branches. -/
def ConjoinsBranches (ground : Prop) (safe : Safety) (depth : Nat) (conjoin : Meet) : Prop :=
  ∀ space l r, space.Valid → Branches safe depth space [l, r] →
    Ensures ground safe space (conjoin l r) fun later out => Conjoined safe (depth + 1) l r later out

/-- Nodes of which those without morphs can be conjoined as branches. No others are. -/
structure Candidates (safe : Safety) (depth : Nat) (space : Space) (nodes : List Node) : Prop where
  holds : ∀ n ∈ nodes, space.Holds n
  plain : ∀ n ∈ nodes, n.includesMorph = false → Branches safe depth space [n]

theorem Branches.candidates {nodes : List Node} (h : Branches safe depth space nodes) :
    Candidates safe depth space nodes :=
  ⟨h.holds, fun _ hn _ => h.subset (List.forall_mem_singleton.mpr hn)⟩

/-- Branches can be compared whatever else they include, as far as results go. -/
theorem Branches.plain {nodes : List Node} (h : Branches safe depth space nodes) (hvalid : space.Valid)
    (hkinds : ∀ n ∈ nodes, n.kind.isBranch = true) : Candidates .success depth space nodes where
  holds := h.holds
  plain := fun n hn hmorph => branches_singleton
    ((h.within n hn).toCalm.plain hvalid (fun _ => branch_not_refinement (hkinds n hn)) hmorph) (h.notUnions n hn)

theorem Candidates.subset {nodes kept : List Node} (h : Candidates safe depth space nodes)
    (hsubset : ∀ n ∈ kept, n ∈ nodes) : Candidates safe depth space kept :=
  ⟨fun n hn => h.holds n (hsubset n hn), fun n hn => h.plain n (hsubset n hn)⟩

theorem Candidates.extends {later : Space} {nodes : List Node} (h : Candidates safe depth space nodes)
    (hext : later.Extends space) : Candidates safe depth later nodes :=
  ⟨fun n hn => hext.holds n (h.holds n hn), fun n hn hmorph => (h.plain n hn hmorph).extends hext⟩

/-- The later branches that still count. -/
def keptOf : List Node → List Bool → List Node
  | node :: rest, true :: kept => node :: keptOf rest kept
  | _ :: rest, false :: kept => keptOf rest kept
  | _, _ => []

omit [Behaviour] in
theorem keptOf_all (nodes : List Node) : keptOf nodes (nodes.map fun _ => true) = nodes := by
  induction nodes with
  | nil => rfl
  | cons node rest ih => rw [List.map_cons, keptOf, ih]

/-- What comparing a branch with later ones leaves: none with a morph is dropped, and together they allow what they
did. -/
structure SiftedBy (branch : Node) (later : List Node) (kept : List Bool) (space : Space) (out : Bool × List Bool) :
    Prop where
  keep : branch.includesMorph = true → out.1 = true
  morphs : ∀ n ∈ keptOf later kept, n.includesMorph = true → n ∈ keptOf later out.2
  allows : BlindToSign → space.Regular → ∀ v, (out.1 && branch.allows v || anyAllows (keptOf later out.2) v) =
    (branch.allows v || anyAllows (keptOf later kept) v)

theorem siftedBy_nil {branch : Node} {later : List Node} {kept : List Bool} (h : keptOf later kept = []) :
    SiftedBy branch later kept space (true, kept) where
  keep := fun _ => rfl
  morphs := by
    rw [h]
    exact List.forall_mem_nil _
  allows := fun _ _ _ => rfl

/-- A later branch stays, or is dropped since the branch allows all that it does. -/
theorem SiftedBy.pass {branch node : Node} {rest : List Node} {kept : List Bool} {out : Bool × List Bool}
    (h : SiftedBy branch rest kept space out) (drop : Bool) (hmorph : drop = true → node.includesMorph = false)
    (hdrop : BlindToSign → space.Regular → drop = true → ∀ v, node.allows v = true → branch.allows v = true) :
    SiftedBy branch (node :: rest) (true :: kept) space (out.1, (!drop) :: out.2) := by
  cases drop with
  | false =>
      refine ⟨h.keep, fun n hn hn' => ?_, fun hblind hregular v => ?_⟩
      · rw [keptOf, List.mem_cons] at hn
        rw [Bool.not_false, keptOf, List.mem_cons]
        exact hn.imp_right fun hn => h.morphs n hn hn'
      · simp only [Bool.not_false, keptOf, anyAllows_cons]
        rw [Bool.or_left_comm, h.allows hblind hregular v, Bool.or_left_comm]
  | true =>
      refine ⟨h.keep, fun n hn hn' => ?_, fun hblind hregular v => ?_⟩
      · rw [keptOf, List.mem_cons] at hn
        rw [Bool.not_true, keptOf]
        rcases hn with rfl | hn
        · exact absurd ((hmorph rfl).symm.trans hn') Bool.false_ne_true
        · exact h.morphs n hn hn'
      · simp only [Bool.not_true, keptOf, anyAllows_cons]
        rw [h.allows hblind hregular v, ← Bool.or_assoc]
        have himp := hdrop hblind hregular rfl v
        cases hb : branch.allows v with
        | true => rfl
        | false =>
            cases hn : node.allows v with
            | false => rfl
            | true => rw [hb] at himp; exact absurd (himp hn) Bool.false_ne_true

/-- The branch itself is dropped, since a later one allows all that it does. -/
theorem siftedBy_covered {branch node : Node} {rest : List Node} {kept : List Bool}
    (hmorph : branch.includesMorph = false)
    (hcovered : BlindToSign → space.Regular → ∀ v, branch.allows v = true → node.allows v = true) :
    SiftedBy branch (node :: rest) (true :: kept) space (false, true :: kept) where
  keep := fun h => absurd (hmorph.symm.trans h) Bool.false_ne_true
  morphs := fun _ hn _ => hn
  allows := by
    intro hblind hregular v
    simp only [Bool.false_and, Bool.false_or, keptOf, anyAllows_cons]
    cases hv : branch.allows v with
    | false => rfl
    | true => rw [hcovered hblind hregular v hv]; rfl

theorem compareWithLater_spec {conjoin : Meet} (hconjoin : ConjoinsBranches ground safe depth conjoin) {branch : Node}
    {later : List Node} {kept : List Bool} (hvalid : space.Valid)
    (hbranches : Candidates safe depth space (branch :: later)) :
    Ensures ground safe space (compareWithLater conjoin branch later kept) fun final out =>
      SiftedBy branch later kept final out := by
  induction later generalizing space kept with
  | nil =>
      unfold compareWithLater
      exact Ensures.pure hvalid (siftedBy_nil (by cases kept <;> rfl))
  | cons node rest ih =>
      have hrest : Candidates safe depth space (branch :: rest) := hbranches.subset (by simp +contextual)
      cases kept with
      | nil =>
          unfold compareWithLater
          exact Ensures.pure hvalid (siftedBy_nil rfl)
      | cons first kept =>
          cases first with
          | false =>
              unfold compareWithLater
              refine (@ih space kept hvalid hrest).bind ?_
              intro final out hfinal _ hout
              exact Ensures.pure hfinal ⟨hout.keep, hout.morphs, hout.allows⟩
          | true =>
              have hskip (space' : Space) (hvalid' : space'.Valid) (hext : space'.Extends space) (drop : Bool)
                  (hmorph : drop = true → node.includesMorph = false)
                  (hdrop : BlindToSign → space'.Regular → drop = true → ∀ v,
                    node.allows v = true → branch.allows v = true) :
                  Ensures ground safe space' (do
                    let out ← compareWithLater conjoin branch rest kept
                    return (out.1, (!drop) :: out.2)) fun final out =>
                      SiftedBy branch (node :: rest) (true :: kept) final out := by
                refine (@ih space' kept hvalid' (hrest.extends hext)).bind ?_
                intro final out hfinal hext' hout
                exact Ensures.pure hfinal (hout.pass drop hmorph fun hblind hregular =>
                  hdrop hblind (hregular.earlier hext'))
              unfold compareWithLater
              split
              · exact hskip space hvalid (.refl space) false (fun h => by cases h) fun _ _ h => by cases h
              · rename_i hmorphs
                obtain ⟨hbranch, hnode⟩ := Bool.or_eq_false_iff.mp (Bool.eq_false_iff.mpr hmorphs)
                have hpair : Branches safe depth space [branch, node] :=
                  (hbranches.plain branch (by simp) hbranch).append (hbranches.plain node (by simp) hnode)
                refine (hconjoin space branch node hvalid hpair).bind ?_
                intro space' out hvalid' hext hout
                cases out with
                | node result =>
                    have hout : Conjunct safe (depth + 1) branch node space' result := hout
                    have hb := hext.holds branch (hpair.holds branch (by simp))
                    have hn := hext.holds node (hpair.holds node (by simp))
                    dsimp only
                    split
                    · rename_i hsame
                      refine Ensures.pure hvalid' (siftedBy_covered hbranch fun hblind hregular v => ?_)
                      exact @hout.right_of_left _ _ _ _ _ _ _ hvalid' hb hsame hblind hregular v
                    · refine hskip space' hvalid' hext _ (fun _ => hnode) fun hblind hregular hsame v hv => ?_
                      exact hout.left_of_right hvalid' hn hsame hblind hregular hv
                | disjoint d => exact hskip space' hvalid' hext false (fun h => by cases h) fun _ _ h => by cases h
                | orthogonal => exact hout.elim

/-- What is left of branches: they are some of those, with all that have a morph, and allow the same. -/
structure Sifted (branches : List Node) (kept : List Bool) (space : Space) (out : List Node) : Prop where
  sublist : out.Sublist branches
  morphs : ∀ n ∈ keptOf branches kept, n.includesMorph = true → n ∈ out
  allows : BlindToSign → space.Regular → ∀ v, anyAllows out v = anyAllows (keptOf branches kept) v

theorem sifted_nil {branches : List Node} {kept : List Bool} (h : keptOf branches kept = []) :
    Sifted branches kept space [] := by
  refine ⟨List.nil_sublist _, ?_, fun _ _ v => ?_⟩ <;> rw [h]
  exact List.forall_mem_nil _

theorem Sifted.cons {branch : Node} {rest out : List Node} {keep : Bool} {kept kept' : List Bool}
    (h : Sifted rest kept' space out) (hfirst : SiftedBy branch rest kept space (keep, kept')) :
    Sifted (branch :: rest) (true :: kept) space (if keep then branch :: out else out) where
  sublist := by
    cases keep with
    | true => exact h.sublist.cons_cons branch
    | false => exact h.sublist.cons branch
  morphs := by
    intro n hn hmorph
    rw [keptOf, List.mem_cons] at hn
    rcases hn with rfl | hn
    · have hkeep : keep = true := hfirst.keep hmorph
      rw [if_pos hkeep]
      exact List.mem_cons_self
    · have hn := h.morphs n (hfirst.morphs n hn hmorph) hmorph
      split
      · exact List.mem_cons_of_mem _ hn
      · exact hn
  allows := by
    intro hblind hregular v
    have hmeaning := hfirst.allows hblind hregular v
    rw [keptOf, anyAllows_cons, ← hmeaning, ← h.allows hblind hregular]
    cases keep <;> rfl

theorem reduceFrom_spec {conjoin : Meet} (hconjoin : ConjoinsBranches ground safe depth conjoin) {branches : List Node}
    {kept : List Bool} (hvalid : space.Valid) (hbranches : Candidates safe depth space branches) :
    Ensures ground safe space (reduceFrom conjoin branches kept) fun later out => Sifted branches kept later out := by
  induction branches generalizing space kept with
  | nil =>
      unfold reduceFrom
      exact Ensures.pure hvalid (sifted_nil (by cases kept <;> rfl))
  | cons branch rest ih =>
      have hrest : Candidates safe depth space rest := hbranches.subset fun n hn => List.mem_cons_of_mem _ hn
      cases kept with
      | nil =>
          unfold reduceFrom
          exact Ensures.pure hvalid (sifted_nil rfl)
      | cons first kept =>
          cases first with
          | false =>
              unfold reduceFrom
              refine (@ih space kept hvalid hrest).imp ?_
              intro later out _ _ hout
              exact ⟨hout.sublist.cons branch, hout.morphs, hout.allows⟩
          | true =>
              unfold reduceFrom
              refine (@compareWithLater_spec _ ground safe depth space conjoin hconjoin branch rest kept hvalid
                hbranches).bind ?_
              rintro later ⟨keep, kept'⟩ hvalid' hext hcompared
              refine (@ih later kept' hvalid' (hrest.extends hext)).bind ?_
              intro final out hfinal hext' hout
              exact Ensures.pure hfinal (hout.cons ⟨hcompared.keep, hcompared.morphs,
                fun hblind hregular => hcompared.allows hblind (hregular.earlier hext')⟩)

theorem reduceUpTo_spec {conjoin : Meet} (hconjoin : ConjoinsBranches ground safe depth conjoin) {branches : List Node}
    {limit : Nat} (hvalid : space.Valid) (hbranches : Candidates safe depth space branches) :
    Ensures ground safe space (reduceUpTo limit conjoin branches) fun later out =>
      Sifted branches (branches.map fun _ => true) later out := by
  unfold reduceUpTo reduceBranches
  split
  · exact reduceFrom_spec hconjoin hvalid hbranches
  · refine Ensures.pure hvalid ⟨.refl _, ?_, fun _ _ v => ?_⟩ <;> rw [keptOf_all]
    exact fun n hn _ => hn

-- ---------------------------------------------------------------------------
-- Exhaustive branches
-- ---------------------------------------------------------------------------

omit [Behaviour] in
theorem hasUnit_iff {unit : Value} {nodes : List Node} :
    hasUnit unit nodes = true ↔ ∃ n ∈ nodes, n.content = .unit unit := by
  rw [hasUnit, List.any_eq_true]
  refine exists_congr fun n => and_congr_right fun _ => ?_
  cases n.content <;> simp

omit [Behaviour] in
theorem hasDomain_iff {domain : Domain} {nodes : List Node} :
    hasDomain domain nodes = true ↔ ∃ n ∈ nodes, n.content = .domain domain := by
  rw [hasDomain, List.any_eq_true]
  refine exists_congr fun n => and_congr_right fun _ => ?_
  cases n.content <;> simp

/-- Branches that are found exhaustive allow every value. -/
theorem anyAllows_of_isExhaustive (hvalid : space.Valid) {nodes : List Node} (hholds : ∀ n ∈ nodes, space.Holds n)
    (h : isExhaustive nodes = true) (v : Value) : anyAllows nodes v = true := by
  obtain ⟨hunits, hdomains⟩ := Bool.and_eq_true_iff.mp h
  rw [List.all_eq_true] at hunits hdomains
  have hunit {u : Value} (hu : hasUnit u nodes = true) (hv : u.unsigned = v.unsigned) : anyAllows nodes v = true := by
    obtain ⟨n, hn, hc⟩ := hasUnit_iff.mp hu
    exact anyAllows_iff.mpr ⟨n, hn, (allows_unit hvalid (hholds n hn) hc).mpr hv⟩
  have hdomain {d : Domain} (hd : hasDomain d nodes = true) (hv : v.domain = d) : anyAllows nodes v = true := by
    obtain ⟨n, hn, hc⟩ := hasDomain_iff.mp hd
    exact anyAllows_iff.mpr ⟨n, hn, (allows_domain hvalid (hholds n hn) hc).mpr hv⟩
  cases v with
  | boolean b => exact hunit (hunits (.boolean b) (by cases b <;> decide)) rfl
  | null => exact hunit (hunits .null (by decide)) rfl
  | undefined => exact hunit (hunits .undefined (by decide)) rfl
  | number n => exact hdomain (hdomains .number (by decide)) rfl
  | string s => exact hdomain (hdomains .string (by decide)) rfl
  | bigint n => exact hdomain (hdomains .bigint (by decide)) rfl
  | symbol s => exact hdomain (hdomains .symbol (by decide)) rfl
  | object o => exact hdomain (hdomains .object (by decide)) rfl

omit [Behaviour] in
theorem isExhaustive_perm {a b : List Node} (h : a.Perm b) : isExhaustive a = isExhaustive b := by
  simp only [isExhaustive, hasUnit, hasDomain, h.any_eq]

omit [Behaviour] in
/-- More branches cover more. -/
theorem isExhaustive_mono {a b : List Node} (hsubset : ∀ n ∈ a, n ∈ b) (h : isExhaustive b = false) :
    isExhaustive a = false := by
  rw [Bool.eq_false_iff] at h ⊢
  intro ha
  refine h ?_
  obtain ⟨hunits, hdomains⟩ := Bool.and_eq_true_iff.mp ha
  rw [List.all_eq_true] at hunits hdomains
  rw [isExhaustive, Bool.and_eq_true, List.all_eq_true, List.all_eq_true]
  refine ⟨fun unit hunit => ?_, fun domain hdomain => ?_⟩
  · obtain ⟨n, hn, hc⟩ := hasUnit_iff.mp (hunits unit hunit)
    exact hasUnit_iff.mpr ⟨n, hsubset n hn, hc⟩
  · obtain ⟨n, hn, hc⟩ := hasDomain_iff.mp (hdomains domain hdomain)
    exact hasDomain_iff.mpr ⟨n, hsubset n hn, hc⟩

omit [Behaviour] in
/-- Where no branch is a unit, they are not found exhaustive. -/
theorem isExhaustive_of_not_unit {nodes : List Node} (h : ∀ n ∈ nodes, n.kind ≠ .unit) :
    isExhaustive nodes = false := by
  have hnull : hasUnit .null nodes = false := by
    rw [Bool.eq_false_iff, Ne, hasUnit_iff]
    rintro ⟨n, hn, hc⟩
    exact h n hn (by rw [kind, hc]; rfl)
  simp [isExhaustive, hnull]

theorem unknown_spec {promised : Prop} (hvalid : space.Valid) :
    Ensures ground promised space SpaceM.unknown fun later n =>
      n.Calm safe (depth + 1) later ∧ n.kind = .intersection ∧ (later.Regular → ∀ v, n.allows v = true) := by
  have hsettled : Settled none [] :=
    ⟨nofun, List.forall_mem_nil _, .nil, .nil, rfl, fun _ => rfl⟩
  have hready : (Content.unknown : Content Node).Ready ground space .none :=
    ⟨hsettled, .nil, List.forall_mem_nil _, fun _ _ => trivial⟩
  refine (Ensures.intern hvalid hready).imp ?_
  intro later n hvalid' _ hinterned
  refine ⟨?_, Content.kind_eq_of_outline hinterned.outline, fun hregular v => ?_⟩
  · exact hinterned.calm_leaf hvalid' (fun _ => .nil) rfl rfl (by rintro ⟨⟩) (by rintro ⟨⟩)
  · rw [(hinterned.means hregular .nil).allows hvalid' hinterned.holds (List.forall_mem_nil _)]
    rfl

/-- What is left of branches that may cover everything. -/
structure Covered (safe : Safety) (depth : Nat) (branches : List Node) (space : Space) (out : List Node) : Prop where
  areBranches : Branches safe depth space out
  kinds : ∀ n ∈ out, n.kind.isBranch = true
  notAll : isExhaustive out = false
  same : isExhaustive branches = false → out = branches
  distinct : (branches.Pairwise fun a b => a.sameType b = false) → out.Pairwise fun a b => a.sameType b = false
  allows : space.Regular → ∀ v, anyAllows out v = anyAllows branches v

theorem coverAll_spec {promised : Prop} {branches : List Node} (hvalid : space.Valid)
    (hbranches : Branches safe depth space branches) (hkinds : ∀ n ∈ branches, n.kind.isBranch = true) :
    Ensures ground promised space (coverAll branches) fun later out => Covered safe depth branches later out := by
  unfold coverAll
  split
  · rename_i hexhaustive
    refine (Ensures.note hvalid).bind ?_
    rintro noted ⟨⟩ hvalid' hext -
    refine (@unknown_spec _ ground safe depth noted promised hvalid').bind ?_
    rintro later n hlater hext' ⟨hcalm, hkind, hall⟩
    have hbranch : n.kind.isBranch = true := by rw [hkind]; rfl
    refine Ensures.pure hlater ⟨?_, List.forall_mem_singleton.mpr hbranch, ?_,
      fun h => absurd (h.symm.trans hexhaustive) Bool.false_ne_true, fun _ => List.pairwise_singleton _ _,
      fun hregular v => ?_⟩
    · exact branches_singleton ⟨hcalm, fun _ _ => branch_not_refinement hbranch⟩ (branch_not_union hbranch)
    · exact isExhaustive_of_not_unit (List.forall_mem_singleton.mpr (by rw [hkind]; decide))
    · rw [anyAllows_of_isExhaustive hvalid hbranches.holds hexhaustive, anyAllows_cons, hall hregular]
      rfl
  · rename_i hexhaustive
    exact Ensures.pure hvalid ⟨hbranches, hkinds, by simpa using hexhaustive, fun _ => rfl, fun h => h, fun _ _ => rfl⟩

-- ---------------------------------------------------------------------------
-- Assembling
-- ---------------------------------------------------------------------------

omit [Behaviour] in
theorem sortBranches_perm (branches : List Node) : (sortBranches branches).Perm branches := by
  rw [sortBranches_eq]
  exact List.mergeSort_perm branches branchLE

omit [Behaviour] in
theorem sortBranches_sorted (branches : List Node) :
    (sortBranches branches).Pairwise fun a b => a.typeJson.compact ≤ b.typeJson.compact := by
  rw [sortBranches_eq]
  exact (List.pairwise_mergeSort branchLE_trans branchLE_total branches).imp of_decide_eq_true

omit [Behaviour] in
theorem reducible_spec {safe : Prop} (hvalid : space.Valid) :
    Ensures ground safe space SpaceM.reducible fun later limit => limit = later.config.maxReducibleBranches := by
  refine (Ensures.get hvalid).bind ?_
  rintro later _ hvalid' _ rfl
  exact Ensures.pure hvalid' rfl

theorem allows_of_union_content {nodes : List Node} {ordered : Bool} (v : Value) :
    Content.allows none (.union nodes ordered) v = anyAllows nodes v := by
  rw [Bool.eq_iff_iff, anyAllows_iff]
  exact someAllows_iff

/-- A node that stands for branches: a union, or the only branch that is left. Every branch with a morph is left, unless
there is another of its type or the branches cover everything. -/
structure Unites (safe : Safety) (depth : Nat) (nodes : List Node) (space : Space) (n : Node) : Prop where
  calm : n.Calm safe (depth + 1) space
  root : n.isRefinement = false
  allows : BlindToSign → space.Regular → ∀ v, n.allows v = anyAllows nodes v
  morphs : isExhaustive (nodes.flatMap fun m => m.branches.1) = false →
    ∀ b ∈ nodes.flatMap fun m => m.branches.1, b.includesMorph = true →
      (∀ other ∈ nodes.flatMap fun m => m.branches.1, other.sameType b = true → other = b) → b ∈ n.branches.1

omit [Behaviour] in
/-- Nodes other than unions are their branches. -/
theorem flatMap_branches {nodes : List Node} (h : ∀ n ∈ nodes, n.kind ≠ .union) :
    (nodes.flatMap fun n => n.branches.1) = nodes := by
  have hbranches : nodes.flatMap (fun n => n.branches.1) = nodes.flatMap fun n => [n] :=
    List.flatMap_congr fun n hn => by rw [branches_of_not_union (h n hn)]
  rw [hbranches, List.flatMap_singleton']

omit [Behaviour] in
/-- Interned branches are those of the union. -/
theorem branches_of_interned {branches : List Node} {ordered : Bool} {n : Node}
    (h : space.Interned (.union branches ordered) n) : n.branches.1 = branches := by
  have hkind : n.content.kind = .union := Content.kind_eq_of_outline h.outline
  have hsame := h.same trivial
  rw [Node.branches]
  cases hc : n.content with
  | union branches' ordered' =>
      rw [hc] at hsame
      exact (Content.union.inj (hsame trivial)).1
  | _ => rw [hc] at hkind; cases hkind

/-- Branches of a space, interned as a union. -/
theorem unites_of_interned {branches : List Node} {ordered : Bool} {n : Node} (hvalid : space.Valid)
    (hbranches : Branches safe depth space branches) (hinterned : space.Interned (.union branches ordered) n) :
    Unites safe depth branches space n := by
  refine ⟨?_, ?_, fun _ hregular v => ?_, fun _ b hb _ _ => ?_⟩
  · refine hinterned.calm hvalid (fun _ => trivial) hbranches.holds
      (fun _ _ => Safety.admits_of_kind (by rintro ⟨⟩) (by rintro ⟨⟩)) (fun hsafe hregular c hc => ?_)
      fun hregular => listNesting_lt.mpr fun c hc => ?_
    · exact (hbranches.within c hc).admitted hsafe hregular
    · exact (hbranches.within c hc).shallow hregular
  · rw [isRefinement, kind, Content.kind_eq_of_outline hinterned.outline]
    rfl
  · rw [(hinterned.means hregular trivial).allows hvalid hinterned.holds hbranches.holds, allows_of_union_content]
  · rw [flatMap_branches hbranches.notUnions] at hb
    rw [branches_of_interned hinterned]
    exact hb

/-- A union allows what the nodes it is made of allow. What is promised of it need not be what is known of the nodes,
as long as the branches to compare are within reach of conjunctions that keep the promise. -/
theorem assembleUnionBy_candidates {promised : Safety} {conjoin : Meet}
    (hconjoin : ConjoinsBranches ground promised depth conjoin) {nodes : List Node} {ordered : Bool}
    {caption : Caption} (hvalid : space.Valid) (hwithin : ∀ n ∈ nodes, n.Within safe (depth + 1) space)
    (hroots : promised → space.Regular → ∀ n ∈ nodes, n.isRefinement = false)
    (hcandidates : ∀ later flat, later.Valid → Branches safe depth later flat →
      (∀ n ∈ flat, n.kind.isBranch = true) → Candidates promised depth later flat) :
    Ensures ground promised space (assembleUnionBy conjoin nodes ordered caption) fun later n =>
      Unites safe depth nodes later n := by
  unfold assembleUnionBy
  refine (flatten_spec hvalid hwithin hroots).bind ?_
  rintro flattened flat hvalid hext ⟨rfl, hflat, hflatKinds, hflatAllows⟩
  generalize hflatten : (nodes.flatMap fun n => n.branches.1) = flat at hflat hflatKinds hflatAllows ⊢
  have hdistinct := distinctByType_sublist flat
  refine (Ensures.note hvalid).bind ?_
  rintro noted ⟨⟩ hvalidNoted hextNoted -
  refine (reducible_spec hvalidNoted).bind ?_
  intro limited limit hvalidLimited hextLimited _
  have hlimited := hflat.extends (hextLimited.trans hextNoted)
  have hcompared := (hcandidates limited flat hvalidLimited hlimited hflatKinds).subset fun _ hn => hdistinct.subset hn
  refine (reduceUpTo_spec hconjoin hvalidLimited hcompared).bind ?_
  rintro reduced branches hvalidReduced hextReduced ⟨hsublist, hmorphs, hreducedAllows⟩
  rw [keptOf_all] at hmorphs hreducedAllows
  have hkept {n : Node} (hn : n ∈ branches) : n ∈ flat := (hsublist.trans hdistinct).subset hn
  refine (coverAll_spec hvalidReduced ((hlimited.extends hextReduced).subset fun _ => hkept)
    fun n hn => hflatKinds n (hkept hn)).bind ?_
  intro covered simplified hvalidCovered hextCovered hcovered
  have hallows (hblind : BlindToSign) (hregular : covered.Regular) (v : Value) :
      anyAllows simplified v = anyAllows nodes v := by
    have hregularReduced := hregular.earlier hextCovered
    have hregularFlat := hregularReduced.earlier (hextReduced.trans (hextLimited.trans hextNoted))
    rw [hcovered.allows hregular, hreducedAllows hblind hregularReduced,
      anyAllows_distinctByType hvalid hregularFlat hflat.holds, hflatAllows]
  have hmorph (hnotAll : isExhaustive flat = false) {b : Node} (hb : b ∈ flat) (hmorph : b.includesMorph = true)
      (hdistinct : ∀ other ∈ flat, other.sameType b = true → other = b) : b ∈ simplified := by
    obtain ⟨m, hm, hsame⟩ := distinctByType_covers hb
    obtain rfl := hdistinct m ((distinctByType_sublist flat).subset hm) hsame
    rw [hcovered.same (isExhaustive_mono (fun _ => hkept) hnotAll)]
    exact hmorphs m hm hmorph
  have hdifferent := hcovered.distinct ((distinctByType_distinct flat).sublist hsublist)
  have hperm : (if ordered then simplified else sortBranches simplified).Perm simplified := by
    cases ordered with
    | true => exact .refl _
    | false => exact sortBranches_perm simplified
  have hinOrder : ordered = false → (if ordered then simplified else sortBranches simplified).Pairwise
      fun a b => a.typeJson.compact ≤ b.typeJson.compact := by
    rintro rfl
    exact sortBranches_sorted simplified
  generalize (if ordered then simplified else sortBranches simplified) = sorted at hperm hinOrder ⊢
  have hsorted := hcovered.areBranches.subset fun _ hn => hperm.mem_iff.mp hn
  have hsortedKinds (n : Node) (hn : n ∈ sorted) := hcovered.kinds n (hperm.mem_iff.mp hn)
  have hsortedDistinct : sorted.Pairwise fun a b => a.sameType b = false :=
    hdifferent.perm hperm.symm fun {a b} h => (sameType_comm b a).trans h
  dsimp only
  split
  · rename_i only _
    refine Ensures.pure hvalidCovered ⟨(hsorted.within only (by simp)).toCalm, ?_, fun hblind hregular v => ?_, ?_⟩
    · exact branch_not_refinement (hsortedKinds only (by simp))
    · rw [← hallows hblind hregular v, ← anyAllows_perm hperm, anyAllows_cons, anyAllows_nil, Bool.or_false]
    · rw [hflatten, branches_of_not_union (hsorted.notUnions only (by simp))]
      exact fun hnotAll b hb hb' hdistinct => hperm.mem_iff.mpr (hmorph hnotAll hb hb' hdistinct)
  · rename_i sorted _ _ hnot
    have hcanonical : (Content.union sorted ordered).Canonical caption := by
      refine ⟨hinOrder, (isExhaustive_perm hperm).trans hcovered.notAll, fun hlength => ?_⟩
      obtain ⟨only, rfl⟩ := List.length_eq_one_iff.mp hlength
      simpa using hnot only
    have hready : (Content.union sorted ordered).Ready ground covered caption :=
      ⟨hsortedKinds, hcanonical, hsorted.holds, fun _ _ => hsortedDistinct⟩
    refine (Ensures.intern hvalidCovered hready).imp fun later n hvalidLater hextLater hinterned => ?_
    have hunites := unites_of_interned hvalidLater (hsorted.extends hextLater) hinterned
    refine ⟨hunites.calm, hunites.root, fun hblind hregular v => ?_, ?_⟩
    · rw [hunites.allows hblind hregular, anyAllows_perm hperm, hallows hblind (hregular.earlier hextLater)]
    · rw [hflatten, branches_of_interned hinterned]
      exact fun hnotAll b hb hb' hdistinct => hperm.mem_iff.mpr (hmorph hnotAll hb hb' hdistinct)

theorem assembleUnionBy_spec {conjoin : Meet} (hconjoin : ConjoinsBranches ground safe depth conjoin)
    {nodes : List Node} {ordered : Bool} {caption : Caption} (hvalid : space.Valid)
    (hwithin : ∀ n ∈ nodes, n.Within safe (depth + 1) space) :
    Ensures ground safe space (assembleUnionBy conjoin nodes ordered caption) fun later n =>
      Unites safe depth nodes later n :=
  assembleUnionBy_candidates hconjoin hvalid hwithin (fun hsafe hregular n hn => (hwithin n hn).root hsafe hregular)
    fun _ _ _ hflat _ => hflat.candidates

/-- Assembling a union succeeds whatever morphs are in its branches: those with morphs are not compared. -/
theorem assembleUnionBy_succeeds {conjoin : Meet} (hconjoin : ConjoinsBranches ground .success depth conjoin)
    {nodes : List Node} {ordered : Bool} {caption : Caption} (hvalid : space.Valid)
    (hwithin : ∀ n ∈ nodes, n.Within safe (depth + 1) space)
    (hroots : space.Regular → ∀ n ∈ nodes, n.isRefinement = false) :
    Ensures ground True space (assembleUnionBy conjoin nodes ordered caption) fun later n =>
      Unites safe depth nodes later n :=
  assembleUnionBy_candidates hconjoin hvalid hwithin (fun _ => hroots) fun _ _ hvalid hflat => hflat.plain hvalid

end Node

end SchemaAlgebra
