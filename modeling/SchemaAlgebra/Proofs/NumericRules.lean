-- SUMMARY: Which divisors and bounds read back from their JSON, alone and in the intersections that they are in.
import SchemaAlgebra.Proofs.Multiples
import SchemaAlgebra.Proofs.NumericText
import SchemaAlgebra.Proofs.Rereading
import SchemaAlgebra.Proofs.Uncaptioned

/-!
# Numeric rules read back

An intersection writes its basis and, kind by kind, its refinements. If all of them are
divisors and bounds that read back, what is read is gathered as it is, so that the
intersection itself is found under its identifier. One thing is lost on the way: of
several divisors only the first is written, but then the JSON is that of the whole
intersection as well.
-/

namespace SchemaAlgebra

namespace SpaceM

variable {α β : Type} {space : Space}

/-- The computation gives a certain result, and leaves a valid space valid. -/
def Returns (space : Space) (x : SpaceM α) (a : α) : Prop :=
  ∃ later, x.exec space = (.ok a, later) ∧ later.Valid ∧ later.Extends space

theorem Returns.bind {x : SpaceM α} {f : α → SpaceM β} {a : α} {b : β} (hx : Returns space x a)
    (hf : ∀ later : Space, later.Valid → later.Extends space → Returns later (f a) b) : Returns space (x >>= f) b := by
  obtain ⟨later, hexec, hvalid, hext⟩ := hx
  obtain ⟨final, hexec', hvalid', hext'⟩ := hf later hvalid hext
  refine ⟨final, ?_, hvalid', hext'.trans hext⟩
  rw [exec_bind, hexec]
  exact hexec'

/-- A computation that leaves the space as it is. -/
theorem Returns.here {x : SpaceM α} {a : α} (hvalid : space.Valid) (h : x.exec space = (.ok a, space)) :
    Returns space x a :=
  ⟨space, h, hvalid, .refl space⟩

theorem Returns.pure {a : α} (hvalid : space.Valid) : Returns space (Pure.pure a) a := .here hvalid rfl

theorem Returns.congr {x y : SpaceM α} {a : α} (hx : Returns space x a) (h : y.exec space = x.exec space) :
    Returns space y a := by
  obtain ⟨later, hexec, hlater⟩ := hx
  exact ⟨later, h.trans hexec, hlater⟩

/-- Interning the content of a live node under its caption. -/
theorem Returns.intern_live {node : Node} (hvalid : space.Valid) (hnode : space.Holds node) :
    Returns space (SpaceM.intern node.content node.caption) node := by
  refine .here hvalid ?_
  change (Except.ok (space.intern _ _).1, (space.intern _ _).2) = _
  rw [hvalid.intern_live hnode rfl]

/-- Interning a content without children gives a node of the later space. -/
theorem Returns.intern_leaf (content : Content Node) (hvalid : space.Valid) (hsound : content.Sound)
    (hcanonical : content.Canonical .none) (hleaf : content.children = []) :
    ∃ n, Returns space (internPlain content) n ∧ n.content.outline = content.outline := by
  have hchildren : ∀ c ∈ content.children, space.Holds c := by
    rw [hleaf]
    exact List.forall_mem_nil _
  exact ⟨_, ⟨_, rfl, hvalid.intern hsound hcanonical hchildren, hvalid.intern_extends content .none⟩,
    (hvalid.interned .none hsound hchildren).outline⟩

end SpaceM

namespace Node

variable {constraints : List Node} {kind : Kind}

-- ---------------------------------------------------------------------------
-- Constraints that are written
-- ---------------------------------------------------------------------------

/-- The constraint that is written for a kind that cannot be repeated: the first. -/
def leading (constraints : List Node) (kind : Kind) : List Node := (constraints.filter fun c => c.kind = kind).take 1

/-- The constraints that are written if no kind is repeated. -/
def leaders (constraints : List Node) : List Node := Kind.refinements.flatMap (leading constraints)

theorem kind_of_mem_leading {c : Node} (h : c ∈ leading constraints kind) : c.kind = kind := by
  simpa using (List.mem_filter.mp (List.mem_of_mem_take h)).2

theorem filter_flatMap_of_kind {kinds : List Kind} (hnodup : kinds.Nodup) {found : Kind → List Node}
    (hfound : ∀ k, ∀ c ∈ found k, c.kind = k) (hmem : kind ∈ kinds) :
    (kinds.flatMap found).filter (fun c => c.kind = kind) = found kind := by
  induction kinds with
  | nil => cases hmem
  | cons k rest ih =>
      obtain ⟨hfresh, hnodup⟩ := List.nodup_cons.mp hnodup
      rw [List.flatMap_cons, List.filter_append]
      by_cases hk : k = kind
      · subst hk
        have hnone : (rest.flatMap found).filter (fun c => c.kind = k) = [] := by
          refine List.filter_eq_nil_iff.mpr fun c hc => ?_
          obtain ⟨k', hk', hc⟩ := List.mem_flatMap.mp hc
          rw [hfound k' c hc, decide_eq_true_eq]
          rintro rfl
          exact hfresh hk'
        rw [List.filter_eq_self.mpr fun c hc => by rw [hfound k c hc, decide_eq_true rfl], hnone, List.append_nil]
      · have hnone : (found k).filter (fun c => c.kind = kind) = [] := by
          refine List.filter_eq_nil_iff.mpr fun c hc => ?_
          rw [hfound k c hc, decide_eq_true_eq]
          exact hk
        rw [hnone, List.nil_append]
        exact ih hnodup ((List.mem_cons.mp hmem).resolve_left fun h => hk h.symm)

/-- Constraints in order contain those that are written, in the same order. -/
theorem leaders_sublist {basis : Option Node} (h : Settled basis constraints) :
    (leaders constraints).Sublist constraints := by
  have hkinds : ∀ c ∈ constraints, c.kind ∈ Kind.refinements := fun c hc => mem_refinements (h.areRefinements c hc)
  have hsorted : constraints.Pairwise fun a b => a.kind.order ≤ b.kind.order := by
    refine h.sorted.imp fun {a b} hle => ?_
    rcases constraintLE_iff.mp hle with hlt | ⟨heq, -⟩
    · exact hlt.le
    · exact heq.le
  have hsublist : (leaders constraints).Sublist
      (Kind.refinements.flatMap fun kind => constraints.filter fun c => c.kind = kind) :=
    List.Sublist.flatMap_right _ fun _ _ => List.take_sublist 1 _
  rwa [flatMap_filter_kind (by decide) hsorted hkinds] at hsublist

theorem sortConstraints_of_sorted (h : constraints.Pairwise (constraintLE · ·)) :
    sortConstraints constraints = constraints := by
  rw [sortConstraints_eq]
  exact List.mergeSort_of_pairwise h

/-- What an intersection writes is what it would write if the others were not there. -/
theorem constraintField_leaders (hrepeated : ∀ c ∈ constraints, c.kind.isRepeatable = false) (captioned : Bool)
    (implied : BoundAxis) (hkind : kind ∈ Kind.refinements) :
    Content.constraintField captioned implied (leaders constraints) kind =
      Content.constraintField captioned implied constraints kind := by
  have hfilter : (leaders constraints).filter (fun c => c.kind = kind) = leading constraints kind :=
    filter_flatMap_of_kind (by decide) (fun _ _ => kind_of_mem_leading) hkind
  rw [Content.constraintField_eq, Content.constraintField_eq, hfilter, leading]
  cases hfound : constraints.filter fun c => c.kind = kind with
  | nil => rfl
  | cons first rest =>
      have hfirst := List.mem_filter.mp (hfound ▸ List.mem_cons_self : first ∈ constraints.filter fun c => c.kind = kind)
      have hsingle : kind.isRepeatable = false := by
        rw [← of_decide_eq_true hfirst.2]
        exact hrepeated first hfirst.1
      simp [Content.constraintJson?, hsingle]

/-- No two of the constraints that are written are divisors. -/
theorem leaders_pairwise : (leaders constraints).Pairwise fun a b => ¬ (a.kind = .divisor ∧ b.kind = .divisor) := by
  refine List.pairwise_flatMap.mpr ⟨fun kind _ => ?_, ?_⟩
  · rw [leading]
    cases constraints.filter fun c => c.kind = kind with
    | nil => exact .nil
    | cons first rest => exact List.pairwise_singleton _ first
  · have hkinds : Kind.refinements.Pairwise (· ≠ ·) := by decide
    refine hkinds.imp fun {kind kind'} hne a ha b hb hboth => hne ?_
    rw [← kind_of_mem_leading ha, ← kind_of_mem_leading hb, hboth.1, hboth.2]

variable {space : Space} {basis : Node}

/-- The constraints that a live intersection writes leave nothing to merge with its basis. -/
theorem leaders_sideBySide (hsettled : Settled (some basis) constraints)
    (hbeside : (basis :: constraints).Pairwise (Beside false)) : SideBySide basis (leaders constraints) where
  isBasis := hsettled.isBasis basis rfl
  areRefinements := fun c hc => hsettled.areRefinements c ((leaders_sublist hsettled).subset hc)
  ne_nil := by
    intro hnil
    obtain ⟨c, rest, rfl⟩ := List.exists_cons_of_ne_nil fun hnone => nomatch hsettled.notAlone hnone
    have hkind := mem_refinements (hsettled.areRefinements c List.mem_cons_self)
    have hleading := List.flatMap_eq_nil_iff.mp hnil c.kind hkind
    simp [leading] at hleading
  beside := hbeside.sublist ((leaders_sublist hsettled).cons_cons basis)
  applicable := fun c hc =>
    firstInapplicable?_eq_none.mp hsettled.applicable c ((leaders_sublist hsettled).subset hc)

/-- The basis that a divisor or a bound is applied to is a constructor, or a domain with more than finitely many
values. -/
theorem basis_of_numeric {c : Node} (hbasis : basis.isBasis = true) (hunit : basis.kind ≠ .unit)
    (hnumeric : c.kind.isNumeric = true) (happlies : c.applicabilityError? (some basis) = none) :
    (∃ p, basis.content = .proto p) ∨ ∃ d : Domain, d.isEnumerable = false ∧ basis.content = .domain d := by
  rcases basis_cases hbasis with ⟨v, hc⟩ | ⟨p, hc⟩ | ⟨d, hc⟩
  · exact absurd (by rw [kind, hc]; rfl) hunit
  · exact .inl ⟨p, hc⟩
  · have hdomain : basis.basisDomain? = some d := by rw [basisDomain?, hc]
    have hproto : basis.basisProto? = none := by rw [basisProto?, hc]
    have haxis {axis : BoundAxis} (h : axisApplies axis (some basis) = true) : d = .number ∨ d = .string := by
      rw [axisApplies_some, hdomain, hproto] at h
      cases axis <;> simp_all
    have hnumbers : d = .number ∨ d = .string := by
      rcases content_of_isNumeric hnumeric with ⟨n, hn⟩ | ⟨make, bound, rfl | rfl, hbound⟩
      · obtain ⟨slot, hslot, hsuits⟩ := applicabilityError?_eq_none.mp happlies
        obtain rfl : .divisor = slot := Option.some.inj (by rw [← hslot, slot?, hn]; rfl)
        exact .inl (Option.some.inj (hdomain.symm.trans hsuits))
      · exact haxis (axisApplies_of_max hbound happlies)
      · exact haxis (axisApplies_of_min hbound happlies)
    exact .inr ⟨d, by rcases hnumbers with rfl | rfl <;> rfl, hc⟩

end Node

namespace Definition

open SpaceM (Returns)

variable [Behaviour] {space : Space} {fields : List (String × Json)} {caption : Caption} {entries : Entries}
  {basis node : Node}

-- ---------------------------------------------------------------------------
-- Bases
-- ---------------------------------------------------------------------------

/-- The basis that is read under one of the keys for bases. -/
def basisUnder (readBasis : SpaceM (Option Node)) (key : String) (d : Definition) : SpaceM Node :=
  match key with
  | "domain" => readDomain d
  | "unit" => do SpaceM.internPlain (.unit (← readLiteral d))
  | "proto" => readProto d
  | _ => do
    match ← readBasis with
    | some n => if n.isBasis then pure n else SpaceM.parseError (.notBasis n.kind)
    | none => SpaceM.parseError (.missingKey .intersection key)

omit [Behaviour] in
theorem basisOf_none {readBasis : SpaceM (Option Node)} {found : Option Node} {keys : List String}
    (h : ∀ key ∈ keys, entries.lookup key = none) : basisOf entries readBasis found keys = pure found := by
  induction keys with
  | nil => rfl
  | cons key rest ih =>
      obtain ⟨hkey, hrest⟩ := List.forall_mem_cons.mp h
      rw [basisOf, hkey]
      exact ih hrest

omit [Behaviour] in
/-- If there is one key for a basis, the basis is read under it. -/
theorem basisOf_alone {readBasis : SpaceM (Option Node)} {key : String} {d : Definition} {keys : List String}
    (hnodup : keys.Nodup) (hkey : key ∈ keys) (hfound : entries.lookup key = some d)
    (hothers : ∀ k ∈ keys, k ≠ key → entries.lookup k = none) :
    basisOf entries readBasis none keys = (do return some (← basisUnder readBasis key d)) := by
  induction keys with
  | nil => cases hkey
  | cons k rest ih =>
      obtain ⟨hfresh, hnodup⟩ := List.nodup_cons.mp hnodup
      obtain ⟨hk, hrest⟩ := List.forall_mem_cons.mp hothers
      by_cases hsame : k = key
      · subst hsame
        have hnone {found : Option Node} : basisOf entries readBasis found rest = pure found :=
          basisOf_none fun other hother => hrest other hother fun heq => hfresh (heq ▸ hother)
        rw [basisOf, hfound]
        simp only [Option.isSome_none, Bool.false_eq_true, if_false, hnone]
        split
        · rfl
        · rw [basisUnder, bind_assoc]
        · rfl
        · rename_i hdomain hunit hproto
          rw [basisUnder, bind_assoc]
          · refine bind_congr fun basis => ?_
            cases basis with
            | none => rfl
            | some n => dsimp only; split <;> rfl
          all_goals assumption
      · rw [basisOf, hk hsame]
        exact ih hnodup ((List.mem_cons.mp hkey).resolve_left fun heq => hsame heq.symm) hrest

omit [Behaviour] in
theorem readDomain_name (d : Domain) : readDomain (.string d.name) = SpaceM.internPlain (.domain d) := by
  cases d <;> rfl

/-- The name of a domain with more than finitely many values is read as the domain, whatever references look like. -/
theorem exec_readRootName_domain {d : Domain} (h : d.isEnumerable = false) :
    (readRootName d.name).exec space = (SpaceM.internPlain (.domain d)).exec space := by
  rw [exec_readRootName, readDomain_name]
  · revert h
    cases d <;> decide
  · rw [Registry.isReference, Registry.nameIn?_of_no_point (by cases d <;> decide), Option.isSome_none]

/-- What is read as an intersection from entries that an intersection is written with. -/
theorem intersectionOf_written (hkeys : ∀ field ∈ fields, field.1 ∈ basisKeys ++ Kind.refinements.map Kind.name)
    (readBasis : SpaceM (Option Node)) (readRefinements : Kind → BoundAxis → SpaceM (List Node)) :
    intersectionOf (ofFields (fields ++ caption.notes)) readBasis readRefinements = (do
      let basis ← basisOf (ofFields (fields ++ caption.notes)) readBasis none basisKeys
      let refinements ← refinementsOf (fun kind => readRefinements kind (Node.impliedAxis basis)) Kind.refinements
      Node.ofDefinition basis refinements caption) := by
  have hreserved : ∀ field ∈ fields, ¬ Caption.Reserved field.1 := by
    have hall : ∀ key ∈ basisKeys ++ Kind.refinements.map Kind.name, ¬ Caption.Reserved key := by decide
    exact fun field hfield => hall _ (hkeys field hfield)
  unfold intersectionOf
  rw [checkEntries_written .intersection hkeys hreserved, pure_bind]

/-- An object with a basis and nothing else but a caption is read as the basis with this caption. -/
theorem readRoot_basis_written {key : String} {json : Json} (hkey : key = "domain" ∨ key = "proto") :
    readRoot (ofJson (.object ([(key, json)] ++ caption.notes))) = (do
      let basis ← basisUnder (pure none) key (ofJson json)
      Node.ofDefinition (some basis) [] caption) := by
  have hlookup {k : String} (hreserved : ¬ Caption.Reserved k) :
      (ofFields ([(key, json)] ++ caption.notes)).lookup k = if k = key then some (ofJson json) else none := by
    rw [lookup_written hreserved, List.lookup_cons]
    by_cases hk : k = key
    · rw [beq_iff_eq.mpr hk, if_pos hk]
      rfl
    · rw [beq_false_of_ne hk, if_neg hk]
      rfl
  have hfields : ∀ field ∈ [(key, json)], field.1 ∈ basisKeys ++ Kind.refinements.map Kind.name := by
    refine List.forall_mem_singleton.mpr ?_
    show key ∈ basisKeys ++ Kind.refinements.map Kind.name
    rcases hkey with rfl | rfl <;> decide
  have habsent {k : String} (hreserved : ¬ Caption.Reserved k) (hne : k ≠ key) :
      (ofFields ([(key, json)] ++ caption.notes)).lookup k = none := by
    rw [hlookup hreserved, if_neg hne]
  have hroot (k : String) (hk : k ∈ ["branches", "morph", "basis"]) :
      (ofFields ([(key, json)] ++ caption.notes)).lookup k = none := by
    have hreserved : ∀ k ∈ ["branches", "morph", "basis"], ¬ Caption.Reserved k ∧ k ≠ "domain" ∧ k ≠ "proto" := by
      decide
    obtain ⟨hk, hdomain, hproto⟩ := hreserved k hk
    exact habsent hk (by rcases hkey with rfl | rfl <;> assumption)
  have hbasis : basisOf (ofFields ([(key, json)] ++ caption.notes))
      (rootAt "basis" (ofFields ([(key, json)] ++ caption.notes))) none basisKeys = (do
        return some (← basisUnder (pure none) key (ofJson json))) := by
    rw [rootAt_eq_lookup, hroot "basis" (by decide)]
    refine basisOf_alone (by decide) (by rcases hkey with rfl | rfl <;> decide) ?_ fun k hk hne => ?_
    · rw [hlookup (by rcases hkey with rfl | rfl <;> decide), if_pos rfl]
    · have hreserved : ∀ k ∈ basisKeys, ¬ Caption.Reserved k := by decide
      exact habsent (hreserved k hk) hne
  have hrefinements (axis : BoundAxis) : refinementsOf (fun kind =>
      refinementsAt kind axis (ofFields ([(key, json)] ++ caption.notes))) Kind.refinements = pure [] := by
    refine refinementsOf_none fun kind hkind => ?_
    have hname : ∀ kind ∈ Kind.refinements, ¬ Caption.Reserved kind.name ∧ kind.name ≠ "domain" ∧ kind.name ≠ "proto" := by
      decide
    obtain ⟨hreserved, hdomain, hproto⟩ := hname kind hkind
    rw [refinementsAt_eq_lookup, habsent hreserved (by rcases hkey with rfl | rfl <;> assumption)]
    rfl
  rw [ofJson, readRoot, hasKey, hroot "branches" (by decide), hasKey, hroot "morph" (by decide)]
  simp only [Option.isSome_none, Bool.false_eq_true, if_false]
  rw [intersectionOf_written hfields, hbasis, bind_assoc]
  refine bind_congr fun basis => ?_
  rw [pure_bind, hrefinements, pure_bind]

/-- A basis that is made without a caption, and defined with the caption of a live node, is this node. -/
theorem returns_basis {read : SpaceM Node} (hvalid : space.Valid) (hnode : space.Holds node)
    (hbasis : (∃ p, node.content = .proto p) ∨ ∃ d, node.content = .domain d)
    (hread : read.exec space = (SpaceM.internPlain node.content).exec space) :
    Returns space (do let basis ← read; Node.ofDefinition (some basis) [] node.caption) node := by
  cases hempty : node.caption.isEmpty with
  | true =>
      have hplain : SpaceM.internPlain node.content = SpaceM.intern node.content node.caption := by
        rw [Caption.eq_none_of_isEmpty hempty]
        rfl
      rw [hplain] at hread
      refine ((Returns.intern_live hvalid hnode).congr hread).bind fun later hvalid' _ => ?_
      have hisBasis : node.isBasis = true := by
        rw [Node.isBasis, Node.kind]
        rcases hbasis with ⟨p, hc⟩ | ⟨d, hc⟩ <;> rw [hc] <;> rfl
      rw [Node.ofDefinition_basis hisBasis, if_pos hempty]
      exact .pure hvalid'
  | false =>
      have hmade : ∃ plain, Returns space (SpaceM.internPlain node.content) plain ∧ plain.content = node.content := by
        rcases hbasis with ⟨p, hc⟩ | ⟨d, hc⟩ <;> rw [hc]
        · obtain ⟨plain, hreturns, houtline⟩ := Returns.intern_leaf (.proto p) hvalid trivial trivial rfl
          exact ⟨plain, hreturns, Content.eq_proto_of_outline houtline⟩
        · obtain ⟨plain, hreturns, houtline⟩ := Returns.intern_leaf (.domain d) hvalid trivial trivial rfl
          exact ⟨plain, hreturns, Content.eq_domain_of_outline houtline⟩
      obtain ⟨plain, hreturns, hcontent⟩ := hmade
      refine (hreturns.congr hread).bind fun later hvalid' hext => ?_
      have hisBasis : plain.isBasis = true := by
        rw [Node.isBasis, Node.kind, hcontent]
        rcases hbasis with ⟨p, hc⟩ | ⟨d, hc⟩ <;> rw [hc] <;> rfl
      rw [Node.ofDefinition_basis hisBasis, hempty, if_neg Bool.false_ne_true, hcontent]
      exact .intern_live hvalid' (hext.holds node hnode)

/-- A constructor, or a domain with more than finitely many values, is read from its JSON. -/
theorem readRoot_basis (hvalid : space.Valid) (hnode : space.Holds node)
    (h : (∃ p, node.content = .proto p) ∨ ∃ d : Domain, d.isEnumerable = false ∧ node.content = .domain d) :
    Returns space (readRoot (ofJson node.json)) node := by
  have hwritten := hvalid.written node hnode
  rcases h with ⟨p, hc⟩ | ⟨d, hd, hc⟩
  · have hjson : node.json =
        .object ([("proto", .string (space.registry.reference (.proto p)))] ++ node.caption.notes) := by
      rw [hwritten.json, hc, Content.json]
      exact Caption.attach_none _ _
    have hknown : space.registry.Knows (.proto p) := hwritten.known _ (by rw [hc]; exact List.mem_cons_self)
    have hmeans : space.registry.constructor? (space.registry.reference (.proto p)) = some p := by
      rw [Registry.constructor?, hknown.resolve?_reference hvalid.lawful]
    rw [hjson, readRoot_basis_written (.inr rfl)]
    refine returns_basis hvalid hnode (.inl ⟨p, hc⟩) ?_
    rw [hc]
    exact @exec_constructor _ .none _ _ hmeans
  · have hjson := node.caption.attach_some (.string d.name) [("domain", .string d.name)]
    have hjson' : node.json = node.caption.attach true (some (.string d.name)) [("domain", .string d.name)] := by
      rw [hwritten.json, hc]
      rfl
    rw [← hjson'] at hjson
    rcases hjson with ⟨hnone, hjson⟩ | hjson
    · rw [hjson, ofJson, readRoot]
      refine (Returns.intern_live hvalid hnode).congr ?_
      rw [exec_readRootName_domain hd, hc, hnone]
      rfl
    · rw [hjson, readRoot_basis_written (.inl rfl)]
      refine returns_basis hvalid hnode (.inr ⟨d, hc⟩) ?_
      rw [hc, ← readDomain_name]
      rfl

-- ---------------------------------------------------------------------------
-- Intersections
-- ---------------------------------------------------------------------------

omit [Behaviour] in
theorem exec_refinementsOf {read : Kind → SpaceM (List Node)} {found : Kind → List Node} {kinds : List Kind}
    (h : ∀ kind ∈ kinds, (read kind).exec space = (.ok (found kind), space)) :
    (refinementsOf read kinds).exec space = (.ok (kinds.flatMap found), space) := by
  induction kinds with
  | nil => rfl
  | cons kind rest ih =>
      obtain ⟨hkind, hrest⟩ := List.forall_mem_cons.mp h
      rw [refinementsOf, SpaceM.exec_bind, hkind]
      dsimp only
      rw [SpaceM.exec_bind, ih hrest]
      rfl

theorem refinementsAt_numeric {kind : Kind} (h : kind.isNumeric = true) (axis : BoundAxis) (d : Definition) :
    refinementsAt kind axis [(kind.name, d)] = (do return [← readFlatRefinement kind axis d]) := by
  rcases Kind.isNumeric_iff.mp h with rfl | rfl | rfl <;> cases d <;> rfl

/-- What an intersection is written with. -/
def rulesFields (basis : Node) (constraints : List Node) : List (String × Json) :=
  ("basis", basis.json) ::
    Kind.refinements.flatMap (Content.constraintField true (Node.impliedAxis (some basis)) constraints)

variable {constraints : List Node}

/-- The constraints of an intersection, as far as they are written, are read if all of them survive in their JSON. -/
theorem exec_refinementsAt (hvalid : space.Valid) (hholds : ∀ c ∈ constraints, space.Holds c)
    (hnumeric : ∀ c ∈ constraints, c.kind.isNumeric = true ∧ c.content.Legible) {kind : Kind}
    (hkind : kind ∈ Kind.refinements) :
    (refinementsAt kind (Node.impliedAxis (some basis))
        (ofFields (rulesFields basis constraints ++ caption.notes))).exec space =
      (.ok (Node.leading constraints kind), space) := by
  have hrefines : kind.isRefinement = true := by
    revert hkind
    cases kind <;> decide
  have hlookup : (rulesFields basis constraints).lookup kind.name = Content.constraintJson? true
      (Node.impliedAxis (some basis)) kind (constraints.filter fun c => c.kind = kind) := by
    rw [rulesFields, List.lookup_cons, ← Content.lookup_constraintFields _ _ hrefines]
    have hname : (kind.name == "basis") = false := by
      revert hkind
      cases kind <;> decide
    rw [hname]
  rw [refinementsAt_eq_lookup, lookup_written (Content.not_reserved_of_mem hkind), hlookup, Node.leading]
  cases hfound : constraints.filter fun c => c.kind = kind with
  | nil => rfl
  | cons first rest =>
      have hfirst := List.mem_filter.mp (hfound ▸ List.mem_cons_self : first ∈ constraints.filter fun c => c.kind = kind)
      obtain rfl : first.kind = kind := of_decide_eq_true hfirst.2
      obtain ⟨hnumeric, hlegible⟩ := hnumeric first hfirst.1
      have hread := readFlatRefinement_live hvalid (hholds first hfirst.1) hnumeric (Node.impliedAxis (some basis)) hlegible
      have hjson : Content.constraintJson? true (Node.impliedAxis (some basis)) first.kind (first :: rest) =
          some (first.jsonUnder (Node.impliedAxis (some basis))) := by
        have hsingle : first.kind.isRepeatable = false := by
          rcases Kind.isNumeric_iff.mp hnumeric with h | h | h <;> rw [h] <;> rfl
        rw [Content.constraintJson?, hsingle]
        rfl
      rw [hjson]
      simp only [Option.map_some, Option.elim_some]
      rw [refinementsAt_numeric hnumeric, SpaceM.exec_bind, hread]
      rfl

omit [Behaviour] in
theorem rulesFields_keys (basis : Node) (constraints : List Node) :
    ∀ field ∈ rulesFields basis constraints, field.1 ∈ basisKeys ++ Kind.refinements.map Kind.name := by
  intro field hfield
  rcases List.mem_cons.mp hfield with rfl | hfield
  · exact List.mem_append_left _ List.mem_cons_self
  · obtain ⟨kind, hkind, hfield⟩ := List.mem_flatMap.mp hfield
    rw [Content.constraintField_eq] at hfield
    obtain ⟨json, -, rfl⟩ := List.mem_map.mp hfield
    exact List.mem_append_right _ (List.mem_map_of_mem hkind)

/-- The basis of an intersection is read under its key. -/
theorem basisOf_rules (basis : Node) (constraints : List Node) (caption : Caption) :
    basisOf (ofFields (rulesFields basis constraints ++ caption.notes))
        (rootAt "basis" (ofFields (rulesFields basis constraints ++ caption.notes))) none basisKeys = (do
      return some (← basisUnder (do return some (← readRoot (ofJson basis.json))) "basis" (ofJson basis.json))) := by
  have hlookup (key : String) (hkey : key ∈ basisKeys) :
      (ofFields (rulesFields basis constraints ++ caption.notes)).lookup key =
        if key = "basis" then some (ofJson basis.json) else none := by
    have hkeys : ∀ key ∈ basisKeys, ¬ Caption.Reserved key ∧ ∀ kind ∈ Kind.refinements, key ≠ kind.name := by decide
    obtain ⟨hreserved, hkinds⟩ := hkeys key hkey
    rw [lookup_written hreserved, rulesFields, List.lookup_cons, Content.lookup_constraintFields_none _ _ hkinds]
    by_cases hk : key = "basis"
    · rw [beq_iff_eq.mpr hk, if_pos hk]
      rfl
    · rw [beq_false_of_ne hk, if_neg hk]
      rfl
  have hbasis := hlookup "basis" List.mem_cons_self
  rw [if_pos rfl] at hbasis
  rw [rootAt_eq_lookup, hbasis]
  refine basisOf_alone (by decide) List.mem_cons_self hbasis fun key hkey hne => ?_
  rw [hlookup key hkey, if_neg hne]

omit [Behaviour] in
/-- The rules of a live intersection: they are alive, fit together and leave nothing to merge. -/
theorem rules_of_live (hvalid : space.Valid) (hnode : space.Holds node)
    (hc : node.content = .intersection (some basis) constraints) : Node.Settled (some basis) constraints ∧
      (basis :: constraints).Pairwise (Node.Beside false) ∧ ∀ e ∈ basis :: constraints, space.Holds e := by
  have hsound := (hvalid.written node hnode).sound
  have hcanonical := hvalid.canonical node hnode
  rw [hc] at hsound hcanonical
  refine ⟨hsound, hcanonical, fun e he => hvalid.closed node hnode e ?_⟩
  rw [Node.children, hc]
  exact he

omit [Behaviour] in
theorem json_of_rules (hvalid : space.Valid) (hnode : space.Holds node)
    (hc : node.content = .intersection (some basis) constraints) :
    node.json = .object (rulesFields basis constraints ++ node.caption.notes) := by
  rw [(hvalid.written node hnode).json, hc]
  exact Caption.attach_none _ _

/-- What an intersection writes of its rules, if none is repeated, is enough to define it again. -/
theorem returns_ofDefinition_leaders (hvalid : space.Valid) (hnode : space.Holds node)
    (hc : node.content = .intersection (some basis) constraints)
    (hrepeated : ∀ c ∈ constraints, c.kind.isRepeatable = false) :
    Returns space (Node.ofDefinition (some basis) (Node.leaders constraints) node.caption) node := by
  obtain ⟨hsettled, hbeside, hholds⟩ := rules_of_live hvalid hnode hc
  have hsublist := Node.leaders_sublist hsettled
  have hrules := Node.leaders_sideBySide hsettled hbeside
  have hdiffer : (basis :: Node.leaders constraints).Pairwise fun a b =>
      a.sameType b = false ∧ ¬ (a.kind = .divisor ∧ b.kind = .divisor) := by
    have hheld (e : Node) (he : e ∈ basis :: Node.leaders constraints) : space.Holds e :=
      hholds e ((hsublist.cons_cons basis).subset he)
    have htypes : (basis :: Node.leaders constraints).Pairwise fun a b => a.sameType b = false :=
      hrules.beside.imp_of_mem fun {a b} ha hb h =>
        h.sameType_eq_false hvalid (hheld a ha) (hheld b hb) (hrules.areConstraints a ha)
    have hbasis : basis.kind ≠ .divisor := by
      intro hkind
      have hisBasis := hrules.isBasis
      rw [Node.isBasis, hkind] at hisBasis
      cases hisBasis
    exact htypes.and (List.pairwise_cons.mpr ⟨fun _ _ hboth => hbasis hboth.1, Node.leaders_pairwise⟩)
  have hsorted : Node.sortConstraints (Node.leaders constraints) = Node.leaders constraints :=
    Node.sortConstraints_of_sorted (hsettled.sorted.sublist hsublist)
  have hjson : (Content.intersection (some basis) (Node.leaders constraints)).json space.registry true node.caption =
      node.json := by
    have hfields : rulesFields basis (Node.leaders constraints) = rulesFields basis constraints :=
      congrArg (("basis", basis.json) :: ·) (List.flatMap_congr fun _ hkind =>
        Node.constraintField_leaders hrepeated true _ hkind)
    rw [json_of_rules hvalid hnode hc, ← hfields]
    exact Caption.attach_none _ _
  rw [hrules.ofDefinition hdiffer, hsorted]
  refine .here hvalid ?_
  change (Except.ok (space.intern _ _).1, (space.intern _ _).2) = _
  rw [hvalid.intern_of_json hnode (by rw [hc]; rfl) (by rw [Node.kind, hc]; rfl) hjson]

/-- A live intersection with a basis and divisors and bounds that survive in their JSON is read from its JSON. -/
theorem readKind_intersection (hvalid : space.Valid) (hnode : space.Holds node)
    (hc : node.content = .intersection (some basis) constraints)
    (hnumeric : ∀ c ∈ constraints, c.kind.isNumeric = true ∧ c.content.Legible) :
    Returns space (readKind .intersection (ofJson node.json)) node := by
  obtain ⟨hsettled, hbeside, hholds⟩ := rules_of_live hvalid hnode hc
  obtain ⟨hbasis, hconstraints⟩ := List.forall_mem_cons.mp hholds
  have hrules := Node.leaders_sideBySide hsettled hbeside
  have hread : Returns space (basisUnder (do return some (← readRoot (ofJson basis.json))) "basis" (ofJson basis.json))
      basis := by
    obtain ⟨c, rest, rfl⟩ := List.exists_cons_of_ne_nil fun hnil => nomatch hsettled.notAlone hnil
    have happlies := Node.firstInapplicable?_eq_none.mp hsettled.applicable c List.mem_cons_self
    have hkinds := Node.basis_of_numeric hrules.isBasis (hrules.notUnits basis List.mem_cons_self)
      (hnumeric c List.mem_cons_self).1 happlies
    change Returns space ((do return some (← readRoot (ofJson basis.json))) >>= _) basis
    rw [bind_assoc]
    refine (readRoot_basis hvalid hbasis hkinds).bind fun later hvalid' _ => ?_
    rw [pure_bind]
    dsimp only
    rw [if_pos hrules.isBasis]
    exact .pure hvalid'
  have hrepeated : ∀ c ∈ constraints, c.kind.isRepeatable = false := by
    intro c hc
    rcases Kind.isNumeric_iff.mp (hnumeric c hc).1 with h | h | h <;> rw [h] <;> rfl
  rw [json_of_rules hvalid hnode hc]
  change Returns space (intersectionOf (ofFields (rulesFields basis constraints ++ node.caption.notes)) (rootAt "basis" _)
    fun kind axis => refinementsAt kind axis _) node
  rw [intersectionOf_written (rulesFields_keys basis constraints), basisOf_rules, bind_assoc]
  refine hread.bind fun later hvalid' hext => ?_
  rw [pure_bind]
  have hleaders : Returns later (refinementsOf (fun kind => refinementsAt kind (Node.impliedAxis (some basis))
      (ofFields (rulesFields basis constraints ++ node.caption.notes))) Kind.refinements) (Node.leaders constraints) :=
    .here hvalid' (exec_refinementsOf fun _ hkind =>
      exec_refinementsAt hvalid' (fun c hc => hext.holds c (hconstraints c hc)) hnumeric hkind)
  exact hleaders.bind fun final hvalid'' hext' =>
    returns_ofDefinition_leaders hvalid'' (hext'.holds node (hext.holds node hnode)) hc hrepeated

end Definition

namespace Space

open Definition (ofJson)

variable [Behaviour] {space : Space}

/-- A live divisor or bound is read from its JSON, by its kind, exactly if its number survives there. A live
intersection of a basis with divisors and bounds is read from its JSON if all their numbers survive. -/
theorem Reachable.numeric_read_back {adopting : Prop} (h : space.Reachable adopting) {node : Node}
    (hnode : space.Holds node) : (node.kind.isNumeric = true →
      (((Definition.readKind node.kind (ofJson node.json)).exec space).1 = .ok node ↔ node.content.Legible)) ∧
    ∀ basis constraints, node.content = .intersection (some basis) constraints →
      (∀ c ∈ constraints, c.kind.isNumeric = true ∧ c.content.Legible) →
        ((Definition.readKind .intersection (ofJson node.json)).exec space).1 = .ok node := by
  have hvalid := h.valid
  refine ⟨fun hnumeric => ?_, fun basis constraints hc hconstraints => ?_⟩
  · rw [Definition.readKind_ofJson hnumeric, ← Node.jsonUnder_value (hvalid.written node hnode)]
    refine ⟨Definition.legible_of_readFlatRefinement hvalid hnode hnumeric, fun hlegible => ?_⟩
    rw [Definition.readFlatRefinement_live hvalid hnode hnumeric .value hlegible]
  · obtain ⟨later, hexec, -⟩ := Definition.readKind_intersection hvalid hnode hc hconstraints
    rw [hexec]

omit [Behaviour] in
/-- Strings of less than four characters: a bound on their length, which the basis implies. -/
theorem length_reads_back : ∃ (space : Space) (node basis : Node) (constraints : List Node),
    @Reachable Stock.behaviour False space ∧ space.Holds node ∧
      node.content = .intersection (some basis) constraints ∧
      (∀ c ∈ constraints, c.kind.isNumeric = true ∧ c.content.Legible) ∧
      ((@Definition.readKind Stock.behaviour .intersection (ofJson node.json)).exec space).1 = .ok node := by
  let _ := Stock.behaviour
  let written : Definition := .map [("domain", .string "string"),
    ("max", .map [("limit", .number (.ofNat 4)), ("exclusive", .bool true)])]
  let test (node : Node) : Bool := decide (node.kind = .intersection) && node.basis?.isSome &&
    node.content.children.tail.all fun c => c.kind.isNumeric && decide c.content.Legible
  have hyields : written.readRoot.yields (.new 0 .standard) test = true := by
    decide +kernel
  obtain ⟨node, hread, htest⟩ := SpaceM.yields_iff.mp hyields
  obtain ⟨hreachable, -, hholds⟩ := (@Reachable.new _ False 0 .standard).read (d := written) (List.forall_mem_nil _)
  have hcontent : ∃ basis constraints, node.content = .intersection (some basis) constraints ∧
      ∀ c ∈ constraints, c.kind.isNumeric = true ∧ c.content.Legible := by
    simp only [test, Bool.and_eq_true, decide_eq_true_eq] at htest
    obtain ⟨⟨hkind, hbasis⟩, hall⟩ := htest
    obtain ⟨content, caption, profile⟩ := node
    cases content with
    | intersection basis constraints =>
        obtain ⟨basis, rfl⟩ := Option.isSome_iff_exists.mp hbasis
        change (constraints.all fun c => c.kind.isNumeric && decide c.content.Legible) = true at hall
        exact ⟨basis, constraints, rfl, by simpa using hall⟩
    | _ => cases hkind
  obtain ⟨basis, constraints, hc, hconstraints⟩ := hcontent
  exact ⟨_, node, basis, constraints, hreachable, hholds node hread, hc, hconstraints,
    (hreachable.numeric_read_back (hholds node hread)).2 basis constraints hc hconstraints⟩

omit [Behaviour] in
/-- The least common multiple of two divisors that are doubles need not be one: its JSON is read as the double next to
it. And no bound is read from the text that stands for a limit that is infinite. -/
theorem numeric_not_read_back : ∃ (space : Space) (multiple bound : Node), @Reachable Stock.behaviour False space ∧
    space.Holds multiple ∧ multiple.kind = .divisor ∧ space.Holds bound ∧ bound.kind = .min ∧
      ((@Definition.readKind Stock.behaviour .divisor (ofJson multiple.json)).exec space).1 ≠ .ok multiple ∧
      ((@Definition.readKind Stock.behaviour .min (ofJson bound.json)).exec space).1 ≠ .ok bound := by
  let _ := Stock.behaviour
  let program : SpaceM Bool := do
    let large ← Definition.readKind .divisor (.number (.ofNat 9007199254740991))
    let five ← Definition.readKind .divisor (.number (.ofNat 5))
    let multiple ← large.and five
    let bound ← Definition.readKind .min (.number (.infinity false))
    let space ← get
    return decide (multiple.kind = .divisor) && decide (bound.kind = .min) &&
      !((Definition.readKind .divisor (ofJson multiple.json)).yields space fun n => decide (n.id = multiple.id)) &&
      !((Definition.readKind .min (ofJson bound.json)).yields space fun n => decide (n.id = bound.id))
  have hyields : program.yields (.new 0 .standard) (fun b => b) = true := by
    decide +kernel
  obtain ⟨large, hlarge, hyields⟩ := SpaceM.yields_bind.mp hyields
  obtain ⟨five, hfive, hyields⟩ := SpaceM.yields_bind.mp hyields
  obtain ⟨multiple, hmultiple, hyields⟩ := SpaceM.yields_bind.mp hyields
  obtain ⟨bound, hbound, hyields⟩ := SpaceM.yields_bind.mp hyields
  rw [SpaceM.yields_get, SpaceM.yields_pure] at hyields
  simp only [Bool.and_eq_true, decide_eq_true_eq, Bool.not_eq_true'] at hyields
  obtain ⟨⟨⟨hdivisor, hmin⟩, hother⟩, hrefused⟩ := hyields
  have hdiffers {x : SpaceM Node} {space : Space} {n : Node}
      (h : x.yields space (fun m => decide (m.id = n.id)) = false) : (x.exec space).1 ≠ .ok n := by
    intro hok
    rw [SpaceM.yields, hok] at h
    simp at h
  obtain ⟨hfirst, -, hheld⟩ := @Reachable.readKind _ _ False (.new 0 .standard) .divisor
    (.number (.ofNat 9007199254740991)) (List.forall_mem_nil _)
  obtain ⟨hsecond, hext, hheld'⟩ := @Reachable.readKind _ _ False hfirst .divisor (.number (.ofNat 5))
    (List.forall_mem_nil _)
  have hl := hext.holds large (hheld large hlarge)
  have hr := hheld' five hfive
  obtain ⟨hthird, -, hmade⟩ := @Reachable.answer _ _ False hsecond (.and large five) (large.and five) rfl
    (Node.and_reads hl (.inl hr)) (List.forall_mem_singleton.mpr hl) (List.forall_mem_singleton.mpr hr)
  obtain ⟨hfourth, hext', hmade'⟩ := @Reachable.readKind _ _ False hthird .min (.number (.infinity false))
    (List.forall_mem_nil _)
  exact ⟨_, multiple, bound, hfourth, hext'.holds multiple (hmade multiple hmultiple), hdivisor,
    hmade' bound hbound, hmin, hdiffers hother, hdiffers hrefused⟩

end Space

end SchemaAlgebra
