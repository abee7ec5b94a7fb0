-- SUMMARY: Unions accept what some of their branches accept, however they are put together, and keep their morphs.
import SchemaAlgebra.Proofs.Entries
import SchemaAlgebra.Proofs.Exactness
import SchemaAlgebra.Proofs.RoundTrip

/-!
# Disjunctions

Branches are flattened, dropped where others cover them, replaced where they cover
everything, sorted, and a branch that is left alone stands for the union. None of it
shows in the values: a union allows what one of the nodes allows that it was made of,
and nothing else. Nodes of other spaces are adopted first, which does not show either.
Branches with a morph are left, unless the branches cover everything.
-/

namespace SchemaAlgebra

open SpaceM (Ensures exec_bind)

-- ---------------------------------------------------------------------------
-- Guests
-- ---------------------------------------------------------------------------

namespace Space

variable {space : Space}

/-- A node of the space, or of another space, where texts are unambiguous. -/
def Guest (space : Space) (node : Node) : Prop :=
  space.Holds node ∨
    ∃ home : Space, home.Valid ∧ home.Regular ∧ home.number ≠ space.number ∧ home.Holds node

theorem Guest.extends {later : Space} {node : Node} (h : space.Guest node) (hext : later.Extends space) :
    later.Guest node := by
  rcases h with h | ⟨home, hvalid, hregular, hne, hnode⟩
  · exact .inl (hext.holds node h)
  · exact .inr ⟨home, hvalid, hregular, by rwa [hext.number], hnode⟩

theorem Guest.welcome {node : Node} (h : space.Guest node) : Node.Welcome False space node := by
  rcases h with h | ⟨home, hvalid, -, hne, hnode⟩
  · exact .inl h
  · exact .inr ⟨id, hvalid.foreign hnode hne⟩

end Space

namespace Node

variable [Behaviour] {space : Space}

/-- A guest becomes a node of the space that allows the same values. -/
theorem adopt_allows {node : Node} (hvalid : space.Valid) (h : space.Guest node) :
    Ensures False False space (adopt node) fun later n =>
      later.Holds n ∧ (later.Regular → ∀ v, n.allows v = node.allows v) := by
  have hspec : Ensures False False space (adopt node) fun later n =>
      later.Holds n ∧ n.Alike node ∧ (space.Holds node → n = node) := adopt_spec hvalid h.welcome
  refine { hspec with result := fun n hn => ⟨(hspec.result n hn).1, fun hregular v => ?_⟩ }
  rcases h with h | ⟨home, hhome, hregularHome, hne, hnode⟩
  · rw [(hspec.result n hn).2.2 h]
  · obtain ⟨copy, later, hexec, -, -, -, hcopy⟩ :=
      copyable hhome hregularHome hnode space hvalid (hregular.earlier hspec.extension) hne.symm
    have hlater := hspec.valid
    rw [hexec] at hn hlater
    cases hn
    exact (hcopy.matching.allows_eq (hhome.everywhere_written hnode) (hlater.everywhere_written hcopy.holds) v).symm

theorem adoptList_allows {nodes : List Node} (hvalid : space.Valid) (h : ∀ n ∈ nodes, space.Guest n) :
    Ensures False False space (adoptList nodes) fun later out =>
      (∀ n ∈ out, later.Holds n) ∧ (later.Regular → ∀ v, anyAllows out v = anyAllows nodes v) := by
  induction nodes generalizing space with
  | nil => exact .pure hvalid ⟨List.forall_mem_nil _, fun _ _ => rfl⟩
  | cons node rest ih =>
      obtain ⟨hnode, hrest⟩ := List.forall_mem_cons.mp h
      refine (adopt_allows hvalid hnode).bind fun first n hvalid' hext hn => ?_
      refine (ih hvalid' fun m hm => (hrest m hm).extends hext).bind fun second out hvalid'' hext' hout => ?_
      refine .pure hvalid'' ⟨List.forall_mem_cons.mpr ⟨hext'.holds n hn.1, hout.1⟩, fun hregular v => ?_⟩
      rw [anyAllows_cons, anyAllows_cons, hn.2 (hregular.earlier hext'), hout.2 hregular]

-- ---------------------------------------------------------------------------
-- Assembling
-- ---------------------------------------------------------------------------

/-- A node that allows what some node of a list allows. -/
def Joins (n : Node) (nodes : List Node) : Prop := ∀ v, n.allows v = true ↔ ∃ b ∈ nodes, b.allows v = true

/-- Whatever branches of a space are assembled to, it allows what one of them allows. -/
theorem assembleUnion_joins {ground : Prop} {branches : List Node} {ordered : Bool} {caption : Caption}
    (hblind : BlindToSign) (hvalid : space.Valid) (hbranches : ∀ b ∈ branches, space.Holds b) :
    Ensures ground False space (assembleUnion branches ordered caption) fun later n =>
      later.Regular → n.Joins branches := by
  have hconjoin := @conjoinBranches_spec _ ground False _ _ (conjoinWithin_spec False.elim (listNesting branches))
    False.elim
  refine (assembleUnionBy_spec hconjoin hvalid (within_listNesting hbranches)).imp fun later n _ _ hn hregular v => ?_
  rw [hn.allows hblind hregular v, anyAllows_iff]

/-- A union loses no branch with a morph, unless the branches cover every value: what comes out of a morph is not covered
by a branch that accepts what goes in. Only of branches of one type a single one is left. -/
theorem union_keeps_morphs {adopting : Prop} (hspace : space.Reachable adopting) {nodes : List Node} {ordered : Bool}
    {caption : Caption} {n b : Node} (hnodes : ∀ m ∈ nodes, space.Holds m)
    (hunion : ((assembleUnion nodes ordered caption).exec space).1 = .ok n)
    (hcover : isExhaustive (nodes.flatMap fun m => m.branches.1) = false)
    (hb : b ∈ nodes.flatMap fun m => m.branches.1) (hmorph : b.includesMorph = true)
    (hdistinct : ∀ other ∈ nodes.flatMap fun m => m.branches.1, other.sameType b = true → other = b) :
    b ∈ n.branches.1 := by
  have hconjoin := @conjoinBranches_spec _ False False _ _ (conjoinWithin_spec False.elim (listNesting nodes)) False.elim
  have hspec := @assembleUnionBy_spec _ False False _ _ _ hconjoin nodes ordered caption hspace.valid
    (within_listNesting hnodes)
  exact (hspec.result n hunion).morphs hcover b hb hmorph hdistinct

omit [Behaviour] in
/-- Texts of at least three characters are parsed. The union with all texts keeps the morph, though it accepts nothing
more. -/
theorem narrow_morph_kept : ∃ (space : Space) (parsing texts n : Node), @Space.Reachable Stock.behaviour False space ∧
    (∀ m ∈ [parsing, texts], space.Holds m) ∧
      ((@assembleUnion Stock.behaviour [parsing, texts] true .none).exec space).1 = .ok n ∧
      isExhaustive ([parsing, texts].flatMap fun m => m.branches.1) = false ∧ parsing.includesMorph = true ∧
      texts.sameType parsing = false ∧ parsing ∈ n.branches.1 := by
  let _ := Stock.behaviour
  let parsing : Definition := .map
    [("in", .map [("basis", .string "string"), ("min", .number (.ofNat 3))]), ("morph", .transform ⟨0, none, "parseInt"⟩)]
  let texts : Definition := .string "string"
  let program : SpaceM Bool := do
    let p ← parsing.readRoot
    let t ← texts.readRoot
    let space ← get
    return decide (p.kind ≠ .union ∧ t.kind ≠ .union) && p.includesMorph && !t.sameType p && !isExhaustive [p, t] &&
      (assembleUnion [p, t] true .none).yields space fun _ => true
  have hyields : program.yields (.new 0 .standard) (fun b => b) = true := by
    decide +kernel
  obtain ⟨p, hp, hyields⟩ := SpaceM.yields_bind.mp hyields
  obtain ⟨t, ht, hyields⟩ := SpaceM.yields_bind.mp hyields
  rw [SpaceM.yields_get, SpaceM.yields_pure] at hyields
  simp only [Bool.and_eq_true, Bool.not_eq_true', decide_eq_true_eq, SpaceM.yields_iff] at hyields
  obtain ⟨⟨⟨⟨hunions, hmorph⟩, hother⟩, hcover⟩, n, hunion, -⟩ := hyields
  obtain ⟨hspace, hpHeld, htHeld⟩ := (@Space.Reachable.new _ False 0 .standard).read_both
    (d := parsing) rfl rfl hp ht
  have hnodes : ∀ m ∈ [p, t], ((texts.readRoot).exec ((parsing.readRoot).exec (.new 0 .standard)).2).2.Holds m :=
    List.forall_mem_cons.mpr ⟨hpHeld, List.forall_mem_singleton.mpr htHeld⟩
  have hflat : ([p, t].flatMap fun m => m.branches.1) = [p, t] :=
    flatMap_branches (List.forall_mem_cons.mpr ⟨hunions.1, List.forall_mem_singleton.mpr hunions.2⟩)
  have hcover : isExhaustive ([p, t].flatMap fun m => m.branches.1) = false := by
    rw [hflat]
    exact hcover
  refine ⟨_, p, t, n, hspace, hnodes, hunion, hcover, hmorph, hother, ?_⟩
  have hgiven : p ∈ [p, t].flatMap fun m => m.branches.1 := by
    rw [hflat]
    exact List.mem_cons_self
  refine union_keeps_morphs hspace hnodes hunion hcover hgiven hmorph ?_
  rw [hflat]
  refine List.forall_mem_cons.mpr ⟨fun _ => rfl, List.forall_mem_singleton.mpr fun hsame => ?_⟩
  exact absurd (hother.symm.trans hsame) Bool.false_ne_true

omit [Behaviour] in
/-- Where the branches cover every value, a morph is lost: `true` is no longer wrapped. -/
theorem covered_morph_lost : ∃ (items : List Definition) (branches : List Node) (n b : Node),
    ((@Definition.readRoots Stock.behaviour items).exec (.new 0 .standard)).1 = .ok branches ∧
      ((@Definition.readRoot Stock.behaviour (.list items)).exec (.new 0 .standard)).1 = .ok n ∧
      b ∈ branches ∧ b.includesMorph = true ∧ (∀ other ∈ branches, other.sameType b = true → other = b) ∧
      b ∉ n.branches.1 := by
  let _ := Stock.behaviour
  let wrapping : Definition := .map [("in", .map [("unit", .bool true)]), ("morph", .transform ⟨0, none, "wrap"⟩)]
  let units : List Value := [.boolean true, .boolean false, .null, .undefined]
  let items : List Definition :=
    wrapping :: ["string", "number", "bigint", "symbol", "object"].map .string ++ units.map .value
  have hread : (Definition.readRoots items).yields (.new 0 .standard) (fun branches =>
      branches.head?.any fun b => b.includesMorph && branches.tail.all fun other => !other.sameType b) = true := by
    decide +kernel
  have hunion : (Definition.list items).readRoot.yields (.new 0 .standard) (fun n =>
      n.branches.1.all fun b => !b.includesMorph) = true := by
    decide +kernel
  obtain ⟨branches, hbranches, hfirst⟩ := SpaceM.yields_iff.mp hread
  obtain ⟨n, hn, hplain⟩ := SpaceM.yields_iff.mp hunion
  cases branches with
  | nil => cases hfirst
  | cons b rest =>
      rw [List.head?_cons, Option.any_some, List.tail_cons, Bool.and_eq_true, List.all_eq_true] at hfirst
      obtain ⟨hmorph, hothers⟩ := hfirst
      refine ⟨items, b :: rest, n, b, hbranches, hn, List.mem_cons_self, hmorph, ?_, fun hmem => ?_⟩
      · refine List.forall_mem_cons.mpr ⟨fun _ => rfl, fun other hother hsame => ?_⟩
        have hdiffers := hothers other hother
        rw [hsame] at hdiffers
        cases hdiffers
      · have hnone := List.all_eq_true.mp hplain b hmem
        rw [hmorph] at hnone
        cases hnone

end Node

-- ---------------------------------------------------------------------------
-- Reading
-- ---------------------------------------------------------------------------

namespace Definition

/-- The definitions of the branches of a union, which is written as a list or in full. -/
def branchItems? : Definition → Option (List Definition)
  | .list items => some items
  | .map entries => match entries.lookup "branches" with
    | some (.list items) => some items
    | _ => none
  | _ => none

theorem lookup_of_branchItems? {entries : Entries} {items : List Definition}
    (h : (Definition.map entries).branchItems? = some items) : entries.lookup "branches" = some (.list items) := by
  rw [branchItems?] at h
  split at h
  · rename_i hlookup
    cases h
    exact hlookup
  · cases h

/-- The nodes in the definitions of the branches are among those in the definition of the union. -/
theorem mem_nodes_of_branchItems? {d : Definition} {items : List Definition} (h : d.branchItems? = some items) {n : Node}
    (hn : n ∈ nodesIn items) : n ∈ d.nodes := by
  have hat (entries : Entries) (hlookup : entries.lookup "branches" = some (.list items)) : n ∈ nodesAt entries := by
    induction entries with
    | nil => cases hlookup
    | cons entry rest ih =>
        obtain ⟨k, d⟩ := entry
        rw [List.lookup_cons] at hlookup
        split at hlookup
        · cases hlookup
          exact List.mem_append_left _ hn
        · exact List.mem_append_right _ (ih hlookup)
  cases d with
  | list items' =>
      cases h
      exact hn
  | map entries => exact hat entries (lookup_of_branchItems? h)
  | _ => cases h

variable [Behaviour]

theorem rootsAt_of_lookup {key : String} {entries : Entries} {items : List Definition}
    (h : entries.lookup key = some (.list items)) : rootsAt key entries = readRoots items := by
  induction entries with
  | nil => cases h
  | cons entry rest ih =>
      obtain ⟨k, d⟩ := entry
      rw [List.lookup_cons] at h
      unfold rootsAt
      by_cases hk : key = k
      · rw [beq_iff_eq.mpr hk] at h
        cases h
        rw [if_pos hk]
        rfl
      · rw [beq_false_of_ne hk] at h
        rw [if_neg hk]
        exact ih h

/-- A union that is read in full is assembled from its branches, which are read before. -/
theorem unionOf_exec {entries : Entries} {items : List Definition} {space : Space} {n : Node}
    (h : entries.lookup "branches" = some (.list items))
    (hread : ((unionOf entries (rootsAt "branches" entries)).exec space).1 = .ok n) :
    ∃ ordered caption, (unionOf entries (rootsAt "branches" entries)).exec space =
      (do Node.assembleUnion (← readRoots items) ordered caption).exec space := by
  have hentry : requiredEntry .union "branches" entries = pure (.list items) := by
    rw [requiredEntry, h]
  rw [unionOf, rootsAt_of_lookup h] at hread ⊢
  obtain ⟨caption, hcaption, hexec⟩ := (checkEntries_decided _ _ _).exec_bind hread
  rw [hexec, hentry] at hread ⊢
  obtain ⟨ordered, hordered, hexec⟩ := (optionalFlag_decided _ _).exec_bind hread
  exact ⟨ordered, caption, hexec⟩

/-- However a union is read, it is assembled from its branches. -/
theorem readUnion_exec {d : Definition} {items : List Definition} {space : Space} {n : Node} {x : SpaceM Node}
    (h : d.branchItems? = some items) (hx : x = d.readRoot ∨ x = readKind .union d) (hread : (x.exec space).1 = .ok n) :
    ∃ ordered caption, x.exec space = (do Node.assembleUnion (← readRoots items) ordered caption).exec space := by
  cases d with
  | list items' =>
      cases h
      rcases hx with rfl | rfl
      · exact ⟨false, .none, rfl⟩
      · exact ⟨false, .none, rfl⟩
  | map entries =>
      have hlookup := lookup_of_branchItems? h
      have hkey : hasKey "branches" entries = true := by rw [hasKey, hlookup]; rfl
      have hroot : readRoot (.map entries) = unionOf entries (rootsAt "branches" entries) := by
        rw [readRoot, if_pos hkey]
      have hkind : readKind .union (.map entries) = unionOf entries (rootsAt "branches" entries) := rfl
      rw [hroot, hkind, or_self] at hx
      subst hx
      exact unionOf_exec hlookup hread
  | _ => cases h

end Definition

-- ---------------------------------------------------------------------------
-- Exactness
-- ---------------------------------------------------------------------------

namespace Node

open Definition (readRoots readKind)

variable [Behaviour] {space : Space}

/-- Union construction is exact. A union of nodes allows what one of them allows; so does a union that is read, of what
its branches are read as, whether ordered or not and under whatever caption. The space is to be regular also after it,
since branches are intersected to find out which others cover. -/
theorem union_exact {adopting : Prop} (hblind : BlindToSign) (hspace : space.Reachable adopting) :
    (∀ nodes n, (∀ b ∈ nodes, space.Guest b) → ((union nodes).exec space).1 = .ok n →
        ((union nodes).exec space).2.Regular → n.Joins nodes) ∧
      ∀ (d : Definition) items x n, d.branchItems? = some items → (x = d.readRoot ∨ x = readKind .union d) →
        (∀ b ∈ d.nodes, space.Guest b) → (x.exec space).1 = .ok n → (x.exec space).2.Regular →
          ∃ branches, ((readRoots items).exec space).1 = .ok branches ∧ n.Joins branches := by
  have hvalid := hspace.valid
  refine ⟨fun nodes n hnodes hunion hregular => ?_, fun d items x n hitems hx hnodes hread hregular => ?_⟩
  · have hjoins : Ensures False False space (union nodes) fun later n => later.Regular → n.Joins nodes := by
      refine (adoptList_allows hvalid hnodes).bind fun later out hvalid' _ hout => ?_
      refine (assembleUnion_joins hblind hvalid' hout.1).imp fun final n _ hext hn hregular v => ?_
      rw [hn hregular v, ← anyAllows_iff, hout.2 (hregular.earlier hext), anyAllows_iff]
    exact hjoins.result n hunion hregular
  · obtain ⟨ordered, caption, hexec⟩ := Definition.readUnion_exec hitems hx hread
    rw [hexec, exec_bind] at hread hregular
    have hwelcome (b : Node) (hb : b ∈ Definition.nodesIn items) :=
      (hnodes b (Definition.mem_nodes_of_branchItems? hitems hb)).welcome
    obtain ⟨hlater, -, hholds, -⟩ := Definition.readRoots_spec items hwelcome space hvalid (.refl space)
    rcases hout : (readRoots items).exec space with ⟨error | branches, later⟩
    · rw [hout] at hread
      cases hread
    · rw [hout] at hread hregular hlater hholds
      have hjoins := @assembleUnion_joins _ later False branches ordered caption hblind hlater (hholds branches rfl)
      exact ⟨branches, rfl, hjoins.result n hread hregular⟩

omit [Behaviour] in
/-- Multiples of 4, numbers, and multiples of 6 from another space: only the numbers are left, and allow what the three
allow. An ordered union that is read under a description allows what its branches allow. -/
theorem multiples_join : ∃ (space : Space) (nodes branches : List Node) (d : Definition) (items : List Definition)
    (n m : Node), @Space.Reachable Stock.behaviour True space ∧ nodes.length = 3 ∧ (∀ b ∈ nodes, space.Guest b) ∧
      ((@union Stock.behaviour nodes).exec space).1 = .ok n ∧ @Joins Stock.behaviour n nodes ∧
      d.branchItems? = some items ∧ (∀ b ∈ d.nodes, space.Guest b) ∧
      ((@Definition.readRoot Stock.behaviour d).exec space).1 = .ok m ∧
      ((@readRoots Stock.behaviour items).exec space).1 = .ok branches ∧ @Joins Stock.behaviour m branches := by
  let _ := Stock.behaviour
  let multiplesOf (d : Nat) : Definition := .map [("domain", .string "number"), ("divisor", .number (.ofNat d))]
  let items (sixes : Node) : List Definition := [.node sixes, .string "string", .map [("unit", .number (.ofNat 5))]]
  let scalar (sixes : Node) : Definition := .map
    [("branches", .list (items sixes)), ("ordered", .bool true), ("description", .string "a text or some numbers")]
  let program (sixes : Node) : SpaceM Bool := do
    let fours ← (multiplesOf 4).readRoot
    let numbers ← (Definition.string "number").readRoot
    let space ← get
    let regular {α : Type} (x : SpaceM α) : Bool := (x.exec space).2.Regular
    return decide (fours.space = 0) && ((union [fours, numbers, sixes]).yields space (fun _ => true) &&
      regular (union [fours, numbers, sixes])) &&
        ((scalar sixes).readRoot.yields space (fun _ => true) && regular (scalar sixes).readRoot)
  have hyields : (multiplesOf 6).readRoot.yields (.new 1 .standard) (fun sixes => decide (sixes.space = 1) &&
      ((multiplesOf 6).readRoot.exec (.new 1 .standard)).2.Regular &&
        (program sixes).yields (.new 0 .standard) (fun b => b)) = true := by
    decide +kernel
  obtain ⟨sixes, hsixes, hyields⟩ := SpaceM.yields_iff.mp hyields
  simp only [Bool.and_eq_true, decide_eq_true_eq] at hyields
  obtain ⟨⟨haway, hregularHome⟩, hyields⟩ := hyields
  obtain ⟨fours, hfours, hyields⟩ := SpaceM.yields_bind.mp hyields
  obtain ⟨numbers, hnumbers, hyields⟩ := SpaceM.yields_bind.mp hyields
  rw [SpaceM.yields_get, SpaceM.yields_pure] at hyields
  simp only [Bool.and_eq_true, decide_eq_true_eq, SpaceM.yields_iff] at hyields
  obtain ⟨⟨hat, ⟨n, hunion, -⟩, hregular⟩, ⟨m, hread, -⟩, hregular'⟩ := hyields
  obtain ⟨hhome, -, hheld⟩ := (@Space.Reachable.new _ True 1 .standard).read (d := multiplesOf 6) (List.forall_mem_nil _)
  obtain ⟨hspace, hfoursHeld, hnumbersHeld⟩ := (@Space.Reachable.new _ True 0 .standard).read_both
    (d := multiplesOf 4) rfl rfl hfours hnumbers
  generalize ((Definition.string "number").readRoot.exec ((multiplesOf 4).readRoot.exec (.new 0 .standard)).2).2 = space
    at hspace hfoursHeld hnumbersHeld hunion hregular hread hregular'
  have hne : ((multiplesOf 6).readRoot.exec (.new 1 .standard)).2.number ≠ space.number := by
    rw [← hhome.valid.home sixes (hheld sixes hsixes), haway, ← hspace.valid.home fours hfoursHeld, hat]
    decide
  have hguest : space.Guest sixes := .inr ⟨_, hhome.valid, hregularHome, hne, hheld sixes hsixes⟩
  have hguests : ∀ b ∈ [fours, numbers, sixes], space.Guest b := by
    simp only [List.forall_mem_cons]
    exact ⟨.inl hfoursHeld, .inl hnumbersHeld, hguest, List.forall_mem_nil _⟩
  have hnodes : ∀ b ∈ (scalar sixes).nodes, space.Guest b := List.forall_mem_singleton.mpr hguest
  obtain ⟨hunions, hreads⟩ := union_exact Stock.blindToSign hspace
  obtain ⟨branches, hbranches, hjoins⟩ := hreads (scalar sixes) (items sixes) _ m rfl (.inl rfl) hnodes hread hregular'
  exact ⟨space, [fours, numbers, sixes], branches, scalar sixes, items sixes, n, m, hspace, rfl, hguests, hunion,
    hunions _ n hguests hunion hregular, rfl, hnodes, hread, hbranches, hjoins⟩

end Node

end SchemaAlgebra
