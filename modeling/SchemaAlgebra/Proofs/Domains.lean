-- SUMMARY: No node is a domain with finitely many values, unless a definition names it under the key for domains.
import SchemaAlgebra.Proofs.NumericRules

/-!
# Domains

What a domain with finitely many values allows is written as the units of these values.
Reading a root sees to this, and nothing in the algebra makes such a domain: the domains
that refinements imply have infinitely many values. Under the key for domains, however,
every domain is read as it is named. So a space without such domains comes to hold one
only if a definition names it there.
-/

namespace SchemaAlgebra

-- ---------------------------------------------------------------------------
-- Spaces
-- ---------------------------------------------------------------------------

namespace Space

variable {space : Space}

/-- No live node is an enumerable domain. -/
def NonEnumerable (space : Space) : Prop := ∀ node, space.Holds node → node.NonEnumerable

theorem NonEnumerable.intern (h : space.NonEnumerable) {content : Content Node} (hcontent : content.NonEnumerable)
    (caption : Caption) : (space.intern content caption).2.NonEnumerable := by
  rcases intern_cases space content caption with ⟨node, -, heq⟩ | ⟨-, heq⟩
  · rw [heq]
    exact h
  · rw [heq]
    rintro node ⟨entry, hentry, hnode⟩
    rcases mem_setEntry.mp hentry with rfl | ⟨hold, -⟩
    · cases hnode
      exact hcontent
    · exact h node ⟨entry, hold, hnode⟩

/-- Nothing in a node of a valid space without enumerable domains is one. -/
theorem NonEnumerable.everywhere (h : space.NonEnumerable) (hvalid : space.Valid) {node : Node}
    (hnode : space.Holds node) : node.Everywhere Node.NonEnumerable :=
  fun found hfound => h found (hvalid.reaches hfound hnode)

end Space

-- ---------------------------------------------------------------------------
-- Computations
-- ---------------------------------------------------------------------------

namespace SpaceM

variable {α β : Type} {space : Space}

/-- A computation that interns no enumerable domain. -/
def Restrained (x : SpaceM α) : Prop :=
  ∀ space : Space, space.NonEnumerable → (x.exec space).2.NonEnumerable

theorem Restrained.intern {content : Content Node} (h : content.NonEnumerable) (caption : Caption) :
    (SpaceM.intern content caption).Restrained :=
  fun _ hclean => hclean.intern h caption

/-- What is put together from simple steps interns no enumerable domain, if it interns none by itself. -/
theorem Compositional.restrained : Compositional Restrained False where
  pure _ _ h := h
  throw _ _ _ h := h
  bind hx hf space h := by
    have hlater := hx space h
    rw [exec_bind]
    rcases hout : SpaceM.exec _ space with ⟨_ | a, later⟩
    · rwa [hout] at hlater
    · rw [hout] at hlater
      exact hf a later hlater
  look _ hf space h := hf space space h
  note _ _ h := h
  intern _ caption h := .intern (h.resolve_left id) caption

/-- A computation that interns no enumerable domain in a valid space and in those that extend it. -/
def RestrainedFrom (space : Space) (x : SpaceM α) : Prop :=
  ∀ later : Space, later.Valid → later.Extends space → later.NonEnumerable → (x.exec later).2.NonEnumerable

theorem Restrained.onward {x : SpaceM α} (h : x.Restrained) : RestrainedFrom space x := fun later _ _ => h later

theorem Restrained.pure (a : α) : (Pure.pure a : SpaceM α).Restrained := fun _ h => h

theorem Restrained.throw (error : SchemaError) : (MonadExcept.throw error : SpaceM α).Restrained := fun _ h => h

theorem RestrainedFrom.pure (a : α) : RestrainedFrom space (Pure.pure a) := (Restrained.pure a).onward

theorem RestrainedFrom.throw (error : SchemaError) : RestrainedFrom space (MonadExcept.throw error : SpaceM α) :=
  (Restrained.throw error).onward

theorem RestrainedFrom.later {later : Space} {x : SpaceM α} (h : RestrainedFrom space x)
    (hext : later.Extends space) : RestrainedFrom later x :=
  fun final hvalid hext' => h final hvalid (hext'.trans hext)

/-- What comes second may rely on what is known of the result of what comes first. -/
theorem RestrainedFrom.bind {ground : Prop} {Q : Space → α → Prop} {x : SpaceM α} {f : α → SpaceM β}
    (hspec : Always ground space x Q) (hx : RestrainedFrom space x)
    (hf : ∀ later a, later.Extends space → later.NonEnumerable → Q later a → RestrainedFrom later (f a)) :
    RestrainedFrom space (x >>= f) := by
  intro later hvalid hext h
  have hends := hspec later hvalid hext
  have hfinal := hx later hvalid hext h
  rw [exec_bind]
  rcases hout : x.exec later with ⟨_ | a, final⟩
  · rwa [hout] at hfinal
  · rw [hout] at hfinal
    have hresult := hends.result a (by rw [hout])
    have hvalid' := hends.valid
    have hext' := hends.extension
    rw [hout] at hresult hvalid' hext'
    exact hf final a (hext'.trans hext) hfinal hresult final hvalid' (.refl final) hfinal

theorem RestrainedFrom.andThen {x : SpaceM α} {f : α → SpaceM β} (hx : RestrainedFrom space x)
    (hf : ∀ a, (f a).Restrained) : RestrainedFrom space (x >>= f) := by
  intro later hvalid hext h
  have hfinal := hx later hvalid hext h
  rw [exec_bind]
  rcases hout : x.exec later with ⟨_ | a, final⟩
  · rwa [hout] at hfinal
  · rw [hout] at hfinal
    exact hf a final hfinal

/-- A decision leaves the space to what comes next. -/
theorem Decided.restrained_bind {x : SpaceM α} {f : α → SpaceM β} (hx : Decided x)
    (hf : ∀ a, RestrainedFrom space (f a)) : RestrainedFrom space (x >>= f) := by
  cases hx with
  | result a => exact hf a
  | refusal reason => exact fun _ _ _ h => h

end SpaceM

open SpaceM (Restrained RestrainedFrom Always Returns)
open Node (Welcome)

-- ---------------------------------------------------------------------------
-- Definitions and the domains they name
-- ---------------------------------------------------------------------------

namespace Definition

/-- The domain that a text names. -/
def named? : Definition → Option Domain
  | .string name => Domain.ofName? name
  | _ => none

mutual

/-- The domains that are named under the key for domains, anywhere in a definition. -/
def domains : Definition → List Domain
  | .list items => domainsIn items
  | .map entries => domainsAt entries
  | _ => []
termination_by structural d => d

def domainsIn : List Definition → List Domain
  | [] => []
  | d :: rest => domains d ++ domainsIn rest
termination_by structural items => items

def domainsAt : List (String × Definition) → List Domain
  | [] => []
  | (key, d) :: rest => (if key = "domain" then d.named?.toList else []) ++ domains d ++ domainsAt rest
termination_by structural entries => entries

end

/-- What is written under the key for domains counts. -/
theorem domains_of_lookup {entries : Entries} {d : Definition} (h : entries.lookup "domain" = some d) :
    d.named?.toList ++ d.domains ⊆ domainsAt entries := by
  induction entries with
  | nil => cases h
  | cons entry rest ih =>
      obtain ⟨key, first⟩ := entry
      rw [List.lookup_cons] at h
      rw [domainsAt]
      by_cases hkey : key = "domain"
      · rw [hkey, beq_self_eq_true] at h
        cases h
        rw [if_pos hkey]
        exact List.subset_append_left _ _
      · rw [beq_false_of_ne (Ne.symm hkey)] at h
        exact List.Subset.trans (ih h) (List.subset_append_right _ _)

/-- No domain and no node of those that are listed is an enumerable domain. -/
structure Plain (domains : List Domain) (nodes : List Node) : Prop where
  domains : ∀ domain ∈ domains, domain.isEnumerable = false
  nodes : ∀ node ∈ nodes, node.Everywhere Node.NonEnumerable

theorem Plain.append {domains more : List Domain} {nodes others : List Node}
    (h : Plain (domains ++ more) (nodes ++ others)) : Plain domains nodes ∧ Plain more others :=
  ⟨⟨fun d hd => h.domains d (List.mem_append_left _ hd), fun n hn => h.nodes n (List.mem_append_left _ hn)⟩,
    ⟨fun d hd => h.domains d (List.mem_append_right _ hd), fun n hn => h.nodes n (List.mem_append_right _ hn)⟩⟩

/-- What is under the first key, and what is under the others. -/
theorem Plain.entry {key : String} {d : Definition} {rest : List (String × Definition)}
    (h : Plain (domainsAt ((key, d) :: rest)) (nodesAt ((key, d) :: rest))) :
    Plain d.domains d.nodes ∧ Plain (domainsAt rest) (nodesAt rest) := by
  rw [domainsAt, List.append_assoc] at h
  exact Plain.append ⟨fun e he => h.domains e (List.mem_append_right _ he), h.nodes⟩

end Definition

theorem Domain.name_of_ofName? {name : String} {domain : Domain} (h : Domain.ofName? name = some domain) :
    domain.name = name := by
  simpa using List.find?_some h

theorem Domain.mem_nonEnumerable {domain : Domain} :
    domain ∈ Domain.nonEnumerable ↔ domain.isEnumerable = false := by
  cases domain <;> decide

/-- The enumerable domains are those with the names that stand for units at the root. -/
theorem Domain.isEnumerable_eq_false {domain : Domain} (hboolean : domain.name ≠ "boolean")
    (hnull : domain.name ≠ "null") (hundefined : domain.name ≠ "undefined") : domain.isEnumerable = false := by
  cases domain
  case boolean => exact absurd rfl hboolean
  case null => exact absurd rfl hnull
  case undefined => exact absurd rfl hundefined
  all_goals rfl

namespace Node

variable [Behaviour] {space : Space}

/-- A caption is given to the basis that the rules come to. This is a live node, and no enumerable domain. -/
theorem ofDefinition_restrained {basis : Option Node} {refinements : List Node} {caption : Caption}
    (hbasis : ∀ b ∈ basis, space.Holds b ∧ b.kind.isConstraint = true)
    (h : ∀ c ∈ refinements, space.Holds c ∧ c.kind.isConstraint = true) :
    RestrainedFrom space (ofDefinition basis refinements caption) := by
  have hrules : ∀ e ∈ basis.toList ++ refinements, space.Holds e ∧ e.kind.isConstraint = true :=
    List.forall_mem_append.mpr ⟨fun b hb => hbasis b (Option.mem_toList.mp hb), h⟩
  have hspec : Always True space (addRules (conjoinWithin (listNesting (basis.toList ++ refinements))) []
      ((basis.toList ++ refinements).flatMap Node.rules)) fun later out => ∀ gathered, out = .ok gathered →
        Rules False (listNesting (basis.toList ++ refinements)) later gathered := by
    intro later hvalid hext
    have hwithin := within_listNesting fun e he => hext.holds e (hrules e he).1
    refine (addRules_spec (conjoinWithin_spec False.elim _) False.elim hvalid .nil
      (calm_flatMap hvalid fun e he => ⟨(hwithin e he).toCalm, two_le_order_of_isConstraint (hrules e he).2⟩)).imp ?_
    rintro final _ - - hout gathered rfl
    exact Gathered.areRules hout
  refine .bind hspec (addRules_inherits .restrained (conjoinWithin_inherits .restrained _) [] _).onward ?_
  intro later out hext hclean hout
  cases out with
  | error d => exact .throw _
  | ok gathered =>
      have hgathered := hout gathered rfl
      refine .andThen ?_ fun out => ?_
      · obtain ⟨b, constraints, heq, hperm, -⟩ := @splitBasis_eq none gathered hgathered.apart (by simp)
        have hheld : ∀ n ∈ b, later.Holds n := fun n hn =>
          (hgathered.calm n (hperm.mem_iff.mp (List.mem_append_left _ (Option.mem_toList.mpr hn)))).holds
        unfold finish
        rw [heq, pure_bind]
        exact (finishWith_inherits .restrained _ _ _ _ (.inr (.inr fun n hn => hclean n (hheld n hn)))).onward
      · cases out with
        | error d => exact .throw _
        | ok n => exact .pure n

end Node

-- ---------------------------------------------------------------------------
-- Reading
-- ---------------------------------------------------------------------------

namespace Definition

variable {ground : Prop} {space : Space}

theorem named_restrained {name : String} (h : ∀ domain ∈ Domain.ofName? name, domain.isEnumerable = false)
    (caption : Caption) : (do SpaceM.intern (.domain (← readDomainName name)) caption).Restrained := by
  unfold readDomainName
  split
  · rename_i domain hdomain
    rw [pure_bind]
    exact @Restrained.intern (.domain domain) (h domain hdomain) _
  · exact fun _ h => h

theorem readDomain_restrained {d : Definition}
    (h : ∀ domain ∈ d.named?.toList ++ d.domains, domain.isEnumerable = false) : (readDomain d).Restrained := by
  have hP := SpaceM.Compositional.restrained
  unfold readDomain
  split
  · exact named_restrained (fun domain hdomain => h domain (List.mem_append_left _ (Option.mem_toList.mpr hdomain))) _
  · unfold entriesOf
    split
    · rw [pure_bind]
      refine hP.bind ((checkEntries_decided _ _ _).inherits hP) fun caption => ?_
      unfold requiredEntry
      split
      · rename_i inner hinner
        rw [pure_bind]
        have hnamed (domain : Domain) (hdomain : domain ∈ inner.named?) : domain.isEnumerable = false :=
          h domain (List.mem_append_right _
            (domains_of_lookup hinner (List.mem_append_left _ (Option.mem_toList.mpr hdomain))))
        split
        · exact named_restrained hnamed _
        · exact .throw _
      · exact fun _ h => h
    · exact fun _ h => h

variable [Behaviour]

/-- The names of enumerable domains are read as units at the root. -/
theorem readRootName_restrained (name : String) : (readRootName name).Restrained := by
  have hP := SpaceM.Compositional.restrained
  unfold readRootName
  split
  · exact hP.bind (hP.intern _ _ (.inr trivial)) fun _ => hP.bind (hP.intern _ _ (.inr trivial)) fun _ =>
      Node.assembleUnion_inherits hP _ _ _
  · exact hP.intern _ _ (.inr trivial)
  · exact hP.intern _ _ (.inr trivial)
  · rename_i hboolean hnull hundefined
    refine hP.bind (registry_inherits hP) fun _ => ?_
    split
    · split
      · exact hP.intern _ _ (.inr trivial)
      · exact hP.intern _ _ (.inr trivial)
      · exact readProto_inherits hP _
    · refine readDomain_restrained fun domain hdomain => ?_
      have hname : domain.name = name := by
        rcases List.mem_append.mp hdomain with hdomain | hdomain
        · exact Domain.name_of_ofName? (Option.mem_toList.mp hdomain)
        · cases hdomain
      subst hname
      exact Domain.isEnumerable_eq_false hboolean hnull hundefined

omit [Behaviour] in
theorem propOf_restrained (kind : Kind) (make : PropKey → Node → Content Node)
    (hmake : ∀ key value, (make key value).NonEnumerable) (entries : Entries) {readValue : SpaceM (Option Node)}
    (hvalue : RestrainedFrom space readValue) : RestrainedFrom space (propOf kind make entries readValue) := by
  have hP := SpaceM.Compositional.restrained
  refine (checkEntries_decided _ _ _).restrained_bind fun _ => (requiredEntry_decided _ _ _).restrained_bind fun d => ?_
  refine .bind (@readKey_spec space True d) (readKey_inherits hP d).onward fun later key hext _ _ => ?_
  refine (hvalue.later hext).andThen fun held => ?_
  cases held with
  | none => exact .throw _
  | some held => exact .intern (hmake key held) _

omit [Behaviour] in
theorem morphOf_restrained (entries : Entries) {readInput readOutput : SpaceM (Option Node)}
    (hspec : ReadsOption ground space readInput) (hinput : RestrainedFrom space readInput)
    (houtput : RestrainedFrom space readOutput) : RestrainedFrom space (morphOf entries readInput readOutput) := by
  have hP := SpaceM.Compositional.restrained
  refine (checkEntries_decided _ _ _).restrained_bind fun caption => ?_
  refine .bind hspec hinput fun first input hext _ _ => ?_
  have hrest {later : Space} (hlater : later.Extends first) (input : Node) : RestrainedFrom later (do
      let output ← readOutput
      let transforms ← resolveTransforms (← requiredEntry .morph "morph" entries)
      Node.createMorph input output transforms caption) :=
    (houtput.later (hlater.trans hext)).andThen fun _ => hP.bind ((requiredEntry_decided _ _ _).inherits hP) fun _ =>
      hP.bind (resolveTransforms_inherits hP _) fun _ => Node.createMorph_inherits hP _ _ _ _
  cases input with
  | some input => exact hrest (.refl first) input
  | none =>
      exact .bind (@unknown_reads first True) (@Restrained.intern .unknown trivial .none).onward
        fun later input hlater _ _ => hrest hlater input

theorem unionOf_restrained (entries : Entries) {readBranches : SpaceM (List Node)}
    (hbranches : RestrainedFrom space readBranches) : RestrainedFrom space (unionOf entries readBranches) := by
  refine (checkEntries_decided _ _ _).restrained_bind fun _ => (requiredEntry_decided _ _ _).restrained_bind fun d => ?_
  split
  · exact (optionalFlag_decided _ _).restrained_bind fun _ =>
      hbranches.andThen fun _ => Node.assembleUnion_inherits .restrained _ _ _
  · exact .throw _

omit [Behaviour] in
theorem basisOf_restrained {entries : Entries} (hdomains : ∀ domain ∈ domainsAt entries, domain.isEnumerable = false)
    {readBasis : SpaceM (Option Node)} (hspec : ReadsOption ground space readBasis)
    (hbasis : RestrainedFrom space readBasis) (found : Option Node) (keys : List String) :
    RestrainedFrom space (basisOf entries readBasis found keys) := by
  have hP := SpaceM.Compositional.restrained
  induction keys generalizing space found with
  | nil => exact .pure found
  | cons key keys ih =>
      unfold basisOf
      split
      · exact ih hspec hbasis found
      · rename_i d hd
        have hnext (later : Space) (hlater : later.Extends space) (basis : Node) :
            RestrainedFrom later (basisOf entries readBasis (some basis) keys) :=
          ih (hspec.later hlater) (hbasis.later hlater) (some basis)
        by_cases hsome : found.isSome = true
        · rw [if_pos hsome]
          exact fun _ _ _ h => h
        rw [if_neg hsome]
        dsimp only
        split
        · have hread : (readDomain d).Restrained := readDomain_restrained fun domain hdomain =>
            hdomains domain (domains_of_lookup hd hdomain)
          exact .bind (@readDomain_spec space True d).rule hread.onward fun later basis hlater _ _ => hnext later hlater basis
        · refine .bind (@readLiteral_spec space True d) (readLiteral_inherits hP d).onward fun first v hfirst _ _ => ?_
          exact .bind (@reads_leaf first True (.unit v) .none rfl trivial trivial rfl).rule
            (@Restrained.intern (.unit v) trivial .none).onward
            fun later basis hlater _ _ => hnext later (hlater.trans hfirst) basis
        · exact .bind (@readProto_spec space True d).rule (readProto_inherits hP d).onward
            fun later basis hlater _ _ => hnext later hlater basis
        · refine .bind hspec hbasis fun first out hfirst _ _ => ?_
          split
          · split
            · exact hnext first hfirst _
            · exact fun _ _ _ h => h
          · exact fun _ _ _ h => h

theorem intersectionOf_restrained {entries : Entries}
    (hdomains : ∀ domain ∈ domainsAt entries, domain.isEnumerable = false) {readBasis : SpaceM (Option Node)}
    (hspec : ReadsOption ground space readBasis) (hbasis : RestrainedFrom space readBasis)
    {readRefinements : Kind → BoundAxis → SpaceM (List Node)}
    (hspecs : ∀ kind axis, ReadsRules ground space (readRefinements kind axis))
    (hrefinements : ∀ kind axis, RestrainedFrom space (readRefinements kind axis)) :
    RestrainedFrom space (intersectionOf entries readBasis readRefinements) := by
  have hkinds (axis : BoundAxis) (kinds : List Kind) : ∀ {later : Space}, later.Extends space →
      RestrainedFrom later (refinementsOf (fun kind => readRefinements kind axis) kinds) := by
    induction kinds with
    | nil => exact fun _ => .pure []
    | cons kind rest ih =>
        intro later hlater
        refine .bind ((hspecs kind axis).later hlater) ((hrefinements kind axis).later hlater)
          fun final found hfinal _ _ => ?_
        exact (ih (hfinal.trans hlater)).andThen fun _ => .pure _
  refine (checkEntries_decided _ _ _).restrained_bind fun caption => ?_
  refine .bind (basisOf_spec entries (fun _ h => by cases h) hspec) (basisOf_restrained hdomains hspec hbasis _ _)
    fun first basis hfirst _ hb => ?_
  refine .bind (refinementsOf_spec (fun kind => (hspecs kind _).later hfirst) _) (hkinds _ _ hfirst)
    fun second refinements hsecond _ hr => ?_
  exact Node.ofDefinition_restrained (fun b hmem => (hb b hmem).imp_left (hsecond.holds b)) hr

omit [Behaviour] in
theorem adopt_restrained {n : Node} (h : n.Everywhere Node.NonEnumerable) : (Node.adopt n).Restrained :=
  Node.adopt_inherits .restrained n (.inr h)

mutual

/-- Reading a root definition interns no enumerable domain if the definition names none. -/
theorem readRoot_restrained : (d : Definition) → ∀ {space : Space}, (∀ n ∈ d.nodes, Welcome ground space n) →
    Plain d.domains d.nodes → RestrainedFrom space (readRoot d)
  | .list items, _, hwelcome, h => (readRoots_restrained items hwelcome h).andThen fun _ =>
      Node.assembleUnion_inherits .restrained _ _ _
  | .map entries, _, hwelcome, h => by
    unfold readRoot
    split
    · exact unionOf_restrained entries (rootsAt_restrained "branches" entries hwelcome h)
    · split
      · exact morphOf_restrained entries (rootAt_spec "in" entries hwelcome)
          (rootAt_restrained "in" entries hwelcome h) (rootAt_restrained "out" entries hwelcome h)
      · exact intersectionOf_restrained h.domains (rootAt_spec "basis" entries hwelcome)
          (rootAt_restrained "basis" entries hwelcome h) (fun kind axis => refinementsAt_spec kind axis entries hwelcome)
          fun kind axis => refinementsAt_restrained kind axis entries hwelcome h
  | .node n, _, _, h => (adopt_restrained (h.nodes n List.mem_cons_self)).onward
  | .string name, _, _, _ => (readRootName_restrained name).onward
  | .proto p, _, _, _ => (@Restrained.intern (.proto p) trivial _).onward
  | .value v, _, _, _ => (@Restrained.intern (.unit v) trivial _).onward
  | .symbol s, _, _, _ => (@Restrained.intern (.unit (.symbol s)) trivial _).onward
  | .predicate p, space, _, _ => .bind (@reads_leaf space True (.predicate p) .none rfl trivial trivial rfl).rule
      (@Restrained.intern (.predicate p) trivial _).onward fun _ _ _ _ hn =>
        Node.ofDefinition_restrained nofun (List.forall_mem_singleton.mpr hn)
  | .null, _, _, _ | .bool _, _, _, _ | .number _, _, _, _ | .transform _, _, _, _ => .throw _
termination_by structural d => d

theorem readRefinement_restrained (kind : Kind) (axis : BoundAxis) : (d : Definition) → ∀ {space : Space},
    (∀ n ∈ d.nodes, Welcome ground space n) → Plain d.domains d.nodes →
      RestrainedFrom space (readRefinement kind axis d)
  | .map entries, _, hwelcome, h => by
    unfold readRefinement
    split
    · exact propOf_restrained .required .required (fun _ _ => trivial) entries
        (rootAt_restrained "value" entries hwelcome h)
    · exact propOf_restrained .optional .optional (fun _ _ => trivial) entries
        (rootAt_restrained "value" entries hwelcome h)
    · exact (readFlatRefinement_inherits .restrained _ _ _).onward
  | .null, _, _, _ | .bool _, _, _, _ | .number _, _, _, _ | .string _, _, _, _ | .list _, _, _, _ | .value _, _, _, _
  | .proto _, _, _, _ | .predicate _, _, _, _ | .transform _, _, _, _ | .symbol _, _, _, _ | .node _, _, _, _ =>
    (readFlatRefinement_inherits .restrained _ _ _).onward
termination_by structural d => d

theorem readRoots_restrained : (items : List Definition) → ∀ {space : Space},
    (∀ n ∈ nodesIn items, Welcome ground space n) → Plain (domainsIn items) (nodesIn items) →
      RestrainedFrom space (readRoots items)
  | [], _, _, _ => .pure []
  | d :: rest, _, hwelcome, h => by
    obtain ⟨hfirst, hrest⟩ := List.forall_mem_append.mp hwelcome
    obtain ⟨h, hmore⟩ := h.append
    refine .bind (readRoot_spec d hfirst) (readRoot_restrained d hfirst h) fun later n hlater _ _ => ?_
    exact (readRoots_restrained rest (fun m hm => (hrest m hm).extends hlater) hmore).andThen fun _ =>
      .pure _
termination_by structural items => items

theorem readRefinements_restrained (kind : Kind) (axis : BoundAxis) : (items : List Definition) → ∀ {space : Space},
    (∀ n ∈ nodesIn items, Welcome ground space n) → Plain (domainsIn items) (nodesIn items) →
      RestrainedFrom space (readRefinements kind axis items)
  | [], _, _, _ => .pure []
  | d :: rest, _, hwelcome, h => by
    obtain ⟨hfirst, hrest⟩ := List.forall_mem_append.mp hwelcome
    obtain ⟨h, hmore⟩ := h.append
    refine .bind (readRefinement_spec kind axis d hfirst).rule (readRefinement_restrained kind axis d hfirst h)
      fun later n hlater _ _ => ?_
    exact (readRefinements_restrained kind axis rest (fun m hm => (hrest m hm).extends hlater) hmore).andThen
      fun _ => .pure _
termination_by structural items => items

theorem rootAt_restrained (key : String) : (entries : List (String × Definition)) → ∀ {space : Space},
    (∀ n ∈ nodesAt entries, Welcome ground space n) → Plain (domainsAt entries) (nodesAt entries) →
      RestrainedFrom space (rootAt key entries)
  | [], _, _, _ => .pure none
  | (k, d) :: rest, _, hwelcome, h => by
    obtain ⟨hfirst, hrest⟩ := List.forall_mem_append.mp hwelcome
    unfold rootAt
    split
    · exact (readRoot_restrained d hfirst h.entry.1).andThen fun _ => .pure _
    · exact rootAt_restrained key rest hrest h.entry.2
termination_by structural entries => entries

theorem rootsAt_restrained (key : String) : (entries : List (String × Definition)) → ∀ {space : Space},
    (∀ n ∈ nodesAt entries, Welcome ground space n) → Plain (domainsAt entries) (nodesAt entries) →
      RestrainedFrom space (rootsAt key entries)
  | [], _, _, _ => .pure []
  | (k, d) :: rest, _, hwelcome, h => by
    obtain ⟨hfirst, hrest⟩ := List.forall_mem_append.mp hwelcome
    unfold rootsAt
    split
    · exact rootsIn_restrained d hfirst h.entry.1
    · exact rootsAt_restrained key rest hrest h.entry.2
termination_by structural entries => entries

theorem rootsIn_restrained : (d : Definition) → ∀ {space : Space}, (∀ n ∈ d.nodes, Welcome ground space n) →
    Plain d.domains d.nodes → RestrainedFrom space (rootsIn d)
  | .list items, _, hwelcome, h => readRoots_restrained items hwelcome h
  | .null, _, _, _ | .bool _, _, _, _ | .number _, _, _, _ | .string _, _, _, _ | .map _, _, _, _ | .value _, _, _, _
  | .proto _, _, _, _ | .predicate _, _, _, _ | .transform _, _, _, _ | .symbol _, _, _, _ | .node _, _, _, _ =>
    .pure []
termination_by structural d => d

theorem refinementsAt_restrained (kind : Kind) (axis : BoundAxis) : (entries : List (String × Definition)) →
    ∀ {space : Space}, (∀ n ∈ nodesAt entries, Welcome ground space n) →
      Plain (domainsAt entries) (nodesAt entries) → RestrainedFrom space (refinementsAt kind axis entries)
  | [], _, _, _ => .pure []
  | (k, d) :: rest, _, hwelcome, h => by
    obtain ⟨hfirst, hrest⟩ := List.forall_mem_append.mp hwelcome
    cases d with
    | list items =>
        unfold refinementsAt
        split
        · exact refinementsAt_restrained kind axis rest hrest h.entry.2
        · split
          · exact readRefinements_restrained kind axis items hfirst h.entry.1
          · exact (readFlatRefinement_inherits .restrained _ _ _).onward.andThen fun _ =>
              .pure _
    | _ =>
        unfold refinementsAt
        split
        · exact refinementsAt_restrained kind axis rest hrest h.entry.2
        · exact (readRefinement_restrained kind axis _ hfirst h.entry.1).andThen fun _ =>
            .pure _
termination_by structural entries => entries

end

omit [Behaviour] in
theorem readEntries_restrained (kind : Kind) {read : Entries → SpaceM Node} {d : Definition}
    (hread : ∀ entries, d = .map entries → RestrainedFrom space (read entries)) :
    RestrainedFrom space (readEntries kind read d) := by
  unfold readEntries entriesOf
  split
  · rw [pure_bind]
    exact hread _ rfl
  · exact fun _ _ _ h => h

/-- As a domain, a text is read as it is, whatever it names. -/
theorem readKind_restrained (kind : Kind) (d : Definition) (hwelcome : ∀ n ∈ d.nodes, Welcome ground space n)
    (hnamed : kind = .domain → ∀ domain ∈ d.named?, domain.isEnumerable = false) (h : Plain d.domains d.nodes) :
    RestrainedFrom space (readKind kind d) := by
  have hP := SpaceM.Compositional.restrained
  unfold readKind
  split
  · rename_i n
    split
    · exact (adopt_restrained (h.nodes n List.mem_cons_self)).onward
    · exact .throw _
  split
  · split
    · exact readRoot_restrained _ hwelcome h
    · refine readEntries_restrained _ fun entries hd => ?_
      subst hd
      exact unionOf_restrained entries (rootsAt_restrained _ _ hwelcome h)
  · refine readEntries_restrained _ fun entries hd => ?_
    subst hd
    exact morphOf_restrained entries (rootAt_spec _ _ hwelcome) (rootAt_restrained _ _ hwelcome h)
      (rootAt_restrained _ _ hwelcome h)
  · split
    · exact (readRootName_restrained _).onward
    · exact (@Restrained.intern (.proto _) trivial .none).onward
    · refine readEntries_restrained _ fun entries hd => ?_
      subst hd
      exact intersectionOf_restrained h.domains (rootAt_spec _ _ hwelcome) (rootAt_restrained _ _ hwelcome h)
        (fun kind axis => refinementsAt_spec kind axis _ hwelcome)
        fun kind axis => refinementsAt_restrained kind axis _ hwelcome h
  · exact (readUnit_inherits hP d).onward
  · exact (readProto_inherits hP d).onward
  · refine (readDomain_restrained fun domain hdomain => ?_).onward
    rcases List.mem_append.mp hdomain with hdomain | hdomain
    · exact hnamed rfl domain (Option.mem_toList.mp hdomain)
    · exact h.domains domain hdomain
  · exact readRefinement_restrained _ _ d hwelcome h

/-- Under the key for domains, every domain is read as it is named. -/
theorem readRoot_domain_key (hvalid : space.Valid) (domain : Domain) :
    ∃ node, Returns space (readRoot (.map [("domain", .string domain.name)])) node ∧ node.content = .domain domain := by
  obtain ⟨node, hreturns, houtline⟩ := Returns.intern_leaf (.domain domain) hvalid trivial trivial rfl
  have hcontent := Content.eq_domain_of_outline houtline
  have hbasis : node.isBasis = true := by
    rw [Node.isBasis, Node.kind, hcontent]
    rfl
  have hread : readRoot (.map [("domain", .string domain.name)]) = (do
      let basis ← SpaceM.internPlain (.domain domain)
      Node.ofDefinition (some basis) [] .none) := by
    rw [← readDomain_name]
    exact @readRoot_basis_written _ .none "domain" (.string domain.name) (.inl rfl)
  refine ⟨node, ?_, hcontent⟩
  rw [hread]
  refine hreturns.bind fun later hvalid' _ => ?_
  rw [Node.ofDefinition_basis hbasis]
  exact .pure hvalid'

end Definition

open Definition (Plain)

theorem Node.constrain_restrained [Behaviour] {ground : Prop} {space : Space} {node : Node} {kind : Kind}
    {d : Definition} (hwelcome : ∀ n ∈ d.nodes, Welcome ground space n) (h : Plain d.domains d.nodes) :
    RestrainedFrom space (constrain node kind d) := by
  unfold constrain
  by_cases hkind : (!kind.isRefinement) = true
  · rw [if_pos hkind]
    exact fun _ _ _ h => h
  rw [if_neg hkind]
  refine .bind (Definition.readRefinement_spec kind _ d hwelcome).rule
    (Definition.readRefinement_restrained kind _ d hwelcome h) fun later refinement hlater _ hrefinement => ?_
  split
  · exact .throw _
  · intro final hvalid hfinal hclean
    exact and_inherits .restrained (fun _ => .throw _) node refinement
      (.inr (hclean.everywhere hvalid (hfinal.holds refinement hrefinement.1))) final hclean

-- ---------------------------------------------------------------------------
-- Requests
-- ---------------------------------------------------------------------------

namespace Request

/-- The domains that a request names: under the key for domains, or as what is to be read as a domain. -/
def domains : Request → List Domain
  | .read d | .constrain _ _ d => d.domains
  | .readKind kind d => (if kind = .domain then d.named?.toList else []) ++ d.domains
  | _ => []

/-- A request that names no enumerable domain. -/
def NamesNoEnumerable (request : Request) : Prop := ∀ domain ∈ request.domains, domain.isEnumerable = false

instance (request : Request) : Decidable request.NamesNoEnumerable :=
  inferInstanceAs (Decidable (∀ domain ∈ request.domains, domain.isEnumerable = false))

variable [Behaviour]

/-- A request that names no enumerable domain makes none. -/
theorem run_restrained {ground : Prop} {space : Space} (request : Request) (h : request.NamesNoEnumerable)
    (hresidents : ∀ n ∈ request.residents, space.Holds n) (hwelcome : ∀ n ∈ request.guests, Welcome ground space n)
    (hguests : ∀ n ∈ request.guests, n.Everywhere Node.NonEnumerable) : RestrainedFrom space request.run := by
  have hdone {α : Type} {x : SpaceM α} (hx : RestrainedFrom space x) : RestrainedFrom space (do let _ ← x) :=
    hx.andThen fun _ => .pure _
  have hguest {r : Node} {nodes : List Node} (hr : ∀ n ∈ r :: nodes, n.Everywhere Node.NonEnumerable) :
      False ∨ r.Everywhere Node.NonEnumerable := .inr (hr r List.mem_cons_self)
  have hP := SpaceM.Compositional.restrained
  cases request with
  | read d => exact hdone (Definition.readRoot_restrained d hwelcome ⟨h, hguests⟩)
  | readKind kind d =>
      refine hdone (Definition.readKind_restrained kind d hwelcome ?_ ⟨?_, hguests⟩)
      · rintro rfl domain hdomain
        exact h domain (List.mem_append_left _ (Option.mem_toList.mpr hdomain))
      · exact fun domain hdomain => h domain (List.mem_append_right _ hdomain)
  | unknown => exact hdone (@Restrained.intern .unknown trivial .none).onward
  | never => exact hdone (@Restrained.intern .never trivial .none).onward
  | union nodes => exact hdone (Node.union_inherits hP nodes (.inr hguests)).onward
  | adopt node => exact hdone (Node.adopt_inherits hP node (hguest hguests)).onward
  | intersect l r => exact hdone (Node.intersect_inherits hP l r (hguest hguests)).onward
  | and l r => exact hdone (Node.and_inherits hP (fun _ => .throw _) l r (hguest hguests)).onward
  | comparison l r => exact hdone (Node.extends?_inherits hP l r (hguest hguests)).onward
  | equality l r => exact hdone (Node.equals_inherits hP l r (hguest hguests)).onward
  | constrain node kind d => exact hdone (Node.constrain_restrained hwelcome ⟨h, hguests⟩)
  | describe node description =>
      refine hdone fun later _ hext hclean => ?_
      have hnode := hclean node (hext.holds node (hresidents node List.mem_cons_self))
      exact Node.withDescription_inherits hP node description (.inr hnode) later hclean
  | project side node => exact hdone (Node.project_inherits hP (fun _ => .throw _) side node).onward
  | register thing => exact fun _ _ _ h => h

end Request

-- ---------------------------------------------------------------------------
-- Reachable spaces
-- ---------------------------------------------------------------------------

namespace Space

variable [Behaviour] {space : Space}

/-- The spaces that come about by permitted requests, sweeping and pruning. Nodes that are handed to requests may come
from other spaces that came about in the same way. -/
inductive ReachableBy (permitted : Request → Prop) : Space → Prop where
  | new (number : Nat) (config : SpaceConfig) : ReachableBy permitted (new number config)
  | request {space : Space} (request : Request) (origin : Node → Space) (h : ReachableBy permitted space)
      (hpermitted : permitted request) (horigin : ∀ n, ReachableBy permitted (origin n))
      (hresidents : ∀ n ∈ request.residents, space.Holds n)
      (hguests : ∀ n ∈ request.guests, space.Holds n ∨ (origin n).number ≠ space.number ∧ (origin n).Holds n) :
      ReachableBy permitted (request.run.exec space).2
  | sweep {space : Space} (roots : List Node) (h : ReachableBy permitted space)
      (hroots : ∀ root ∈ roots, root.space = space.number → space.Holds root) :
      ReachableBy permitted (space.sweep roots)
  | prune {space : Space} (h : ReachableBy permitted space) : ReachableBy permitted space.prune

theorem ReachableBy.reachable {permitted : Request → Prop} (h : space.ReachableBy permitted) :
    space.Reachable True := by
  induction h with
  | new number config => exact .new number config
  | request request origin _ _ _ hresidents hguests ih ihorigin =>
      exact .request request origin ih ihorigin hresidents fun n hn => (hguests n hn).imp_right fun h => ⟨trivial, h⟩
  | sweep roots _ hroots ih => exact .sweep roots ih hroots
  | prune _ ih => exact .prune ih

/-- Where no request names an enumerable domain, no node becomes one. -/
theorem ReachableBy.nonEnumerable (h : space.ReachableBy Request.NamesNoEnumerable) : space.NonEnumerable := by
  induction h with
  | new number config => rintro node ⟨entry, hentry, -⟩; cases hentry
  | @request space request origin hspace hpermitted horigin hresidents hguests ih ihorigin =>
      have hvalid := hspace.reachable.valid
      have hwelcome : ∀ n ∈ request.guests, Welcome (¬ True) space n := fun n hn =>
        welcome_of_origin (horigin n).reachable.valid ((hguests n hn).imp_right fun h => ⟨trivial, h⟩)
      refine request.run_restrained hpermitted hresidents hwelcome (fun n hn => ?_) space hvalid (.refl space) ih
      rcases hguests n hn with hheld | ⟨-, hheld⟩
      · exact ih.everywhere hvalid hheld
      · exact (ihorigin n).everywhere (horigin n).reachable.valid hheld
  | sweep roots _ _ ih => exact fun node hnode => ih node (holds_sweep.mp hnode).1
  | prune _ ih => exact fun node hnode => ih node (holds_prune.mp hnode)

theorem ReachableBy.read {permitted : Request → Prop} (h : space.ReachableBy permitted) {d : Definition}
    (hd : d.nodes = []) (hpermitted : permitted (.read d)) : (d.readRoot.exec space).2.ReachableBy permitted := by
  rw [← SpaceM.exec_discard]
  refine .request (.read d) (fun _ => space) h hpermitted (fun _ => h) (List.forall_mem_nil _) fun n hn => ?_
  rw [Request.guests, hd] at hn
  cases hn

/-- Every live domain node has infinitely many values, as long as no request names another domain. But whatever was
requested, a domain of finitely many values becomes a node once it is named under the key for domains. -/
theorem domain_nodes : (∀ space : Space, space.ReachableBy Request.NamesNoEnumerable → ∀ node, space.Holds node →
      ∀ domain, node.content = .domain domain → domain ∈ Domain.nonEnumerable) ∧
    ∀ (adopting : Prop) (space : Space), space.Reachable adopting → ∀ domain : Domain, ∃ node,
      ((Definition.map [("domain", .string domain.name)]).readRoot.exec space).1 = .ok node ∧
        node.content = .domain domain := by
  constructor
  · intro space h node hnode domain hdomain
    have hclean := h.nonEnumerable node hnode
    rw [Node.NonEnumerable, hdomain] at hclean
    exact Domain.mem_nonEnumerable.mpr hclean
  · intro adopting space h domain
    obtain ⟨node, hreturns, hcontent⟩ := Definition.readRoot_domain_key h.valid domain
    obtain ⟨later, hexec, -⟩ := hreturns
    exact ⟨node, by rw [hexec], hcontent⟩

omit [Behaviour] in
/-- Booleans are the two units, next to the domain of strings. -/
theorem string_nonEnumerable : ∃ (space : Space) (node : Node),
    @ReachableBy Stock.behaviour Request.NamesNoEnumerable space ∧ space.Holds node ∧
      node.content = .domain .string ∧ Domain.string ∈ Domain.nonEnumerable := by
  let _ := Stock.behaviour
  have hbooleans : ((Definition.string "boolean").readRoot.exec (.new 0 .standard)).2.ReachableBy
      Request.NamesNoEnumerable :=
    (ReachableBy.new 0 .standard).read rfl (by decide)
  obtain ⟨node, hread, hcontent⟩ := domain_nodes.2 True _ hbooleans.reachable .string
  have hreachable := hbooleans.read (d := .map [("domain", .string "string")]) rfl (by decide)
  have hnode := (hbooleans.reachable.read (List.forall_mem_nil _)).2.2 node hread
  exact ⟨_, node, hreachable, hnode, hcontent, domain_nodes.1 _ hreachable node hnode .string hcontent⟩

omit [Behaviour] in
/-- Under the key for domains, booleans are a domain node. -/
theorem boolean_domain_node : ∃ (space : Space) (node : Node), @Reachable Stock.behaviour False space ∧
    space.Holds node ∧ node.content = .domain .boolean ∧ Domain.boolean ∉ Domain.nonEnumerable := by
  let _ := Stock.behaviour
  have hnew := @Reachable.new _ False 0 .standard
  obtain ⟨node, ⟨later, hexec, -⟩, hcontent⟩ := Definition.readRoot_domain_key hnew.valid .boolean
  obtain ⟨hreachable, -, hholds⟩ := hnew.read (d := .map [("domain", .string "boolean")]) (List.forall_mem_nil _)
  exact ⟨_, node, hreachable, hholds node (congrArg Prod.fst hexec), hcontent, by decide⟩

end Space

end SchemaAlgebra
