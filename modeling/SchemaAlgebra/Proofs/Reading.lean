-- SUMMARY: Reading a definition keeps a space valid, and what is read is a node of the space.
import SchemaAlgebra.Definition.Reader
import SchemaAlgebra.Proofs.Adoption

/-!
# Reading

Whatever a definition looks like, reading it interns well-formed contents only:
divisors are positive, limits are numbers, patterns are compiled, and nodes that
occur in the definition are adopted first. Nothing is said here about when reading
succeeds.
-/

namespace SchemaAlgebra

-- ---------------------------------------------------------------------------
-- Computations from some state of a space on
-- ---------------------------------------------------------------------------

namespace SpaceM

variable {α β : Type} {ground : Prop} {space : Space}

/-- A specification that holds in a space and in all valid spaces that extend it. -/
def Always (ground : Prop) (space : Space) (x : SpaceM α) (Q : Space → α → Prop) : Prop :=
  ∀ later, later.Valid → later.Extends space → Ensures ground False later x Q

theorem Always.later {later : Space} {x : SpaceM α} {Q : Space → α → Prop} (h : Always ground space x Q)
    (hext : later.Extends space) : Always ground later x Q :=
  fun final hvalid hext' => h final hvalid (hext'.trans hext)

theorem Always.imp {P Q : Space → α → Prop} {x : SpaceM α} (h : Always ground space x P)
    (hpq : ∀ later a, P later a → Q later a) : Always ground space x Q :=
  fun later hvalid hext => (h later hvalid hext).imp fun final a _ _ ha => hpq final a ha

theorem Always.pure {Q : Space → α → Prop} {a : α} (h : ∀ later, later.Extends space → Q later a) :
    Always ground space (Pure.pure a) Q :=
  fun later hvalid hext => .pure hvalid (h later hext)

theorem Always.throw {Q : Space → α → Prop} {error : SchemaError} (h : ∀ reason, error ≠ .internal reason) :
    Always ground space (MonadExcept.throw error : SpaceM α) Q :=
  fun _ hvalid _ => .throw hvalid False.elim (fun _ => h) (h .divisionByZero)

theorem Always.refuse {Q : Space → α → Prop} {reason : ParseError} :
    Always ground space (parseError reason : SpaceM α) Q :=
  .throw nofun

theorem Always.bind {P : Space → α → Prop} {Q : Space → β → Prop} {x : SpaceM α} {f : α → SpaceM β}
    (hx : Always ground space x P) (hf : ∀ later a, later.Extends space → P later a → Always ground later (f a) Q) :
    Always ground space (x >>= f) Q := by
  intro later hvalid hext
  refine (hx later hvalid hext).bind fun final a hvalid' hext' ha => ?_
  exact hf final a (hext'.trans hext) ha final hvalid' (.refl final)

theorem Always.intern {content : Content Node} {caption : Caption} (hsound : content.Sound)
    (hcanonical : content.Canonical caption) (hdistinct : content.Distinct)
    (hchildren : ∀ c ∈ content.children, space.Holds c) :
    Always ground space (intern content caption) fun later n => later.Holds n ∧ n.kind = content.kind := by
  intro later hvalid hext
  have hready : content.Ready ground later caption :=
    ⟨hsound, hcanonical, fun c hc => hext.holds c (hchildren c hc), fun _ _ => hdistinct⟩
  exact (Ensures.intern hvalid hready).imp fun _ _ _ _ h => ⟨h.holds, Content.kind_eq_of_outline h.outline⟩

end SpaceM

open SpaceM (Always Ensures)

/-- A pattern is what its own source and flags give. -/
theorem Pattern.ofSource_self {source flags : String} {p : Pattern} (h : Pattern.ofSource source flags = .ok p) :
    Pattern.ofSource p.source p.flags = .ok p := by
  unfold ofSource at h
  split at h
  · cases h
  dsimp only at h
  split at h
  · rename_i regex hregex
    have hp := Except.ok.inj h
    subst hp
    have hall : (String.ofList (validFlags.filter flags.toList.contains)).toList.find?
        (fun c => !validFlags.contains c) = none := by
      rw [List.find?_eq_none]
      intro c hc
      rw [String.toList_ofList] at hc
      simpa using (List.mem_filter.mp hc).1
    have hflags : validFlags.filter (String.ofList (validFlags.filter flags.toList.contains)).toList.contains =
        validFlags.filter flags.toList.contains := by
      refine List.filter_congr fun c hc => ?_
      rw [String.toList_ofList, Bool.eq_iff_iff, List.contains_iff_mem, List.contains_iff_mem, List.mem_filter]
      exact ⟨fun h => by simpa using h.2, fun h => ⟨hc, by simpa using h⟩⟩
    unfold ofSource
    rw [hall]
    simp only [hflags, hregex]
  · cases h

namespace Node

variable [Behaviour] {ground : Prop} {space : Space}

-- ---------------------------------------------------------------------------
-- Building
-- ---------------------------------------------------------------------------

/-- Any node is within reach at a depth that is greater than its nesting. -/
theorem within_of_nesting {depth : Nat} {node : Node} (h : space.Holds node) (hdepth : node.nesting < depth) :
    node.Within False depth space :=
  ⟨⟨h, fun _ => hdepth, False.elim⟩, False.elim⟩

theorem within_listNesting {nodes : List Node} (h : ∀ n ∈ nodes, space.Holds n) :
    ∀ n ∈ nodes, n.Within False (listNesting nodes + 1) space :=
  fun n hn => within_of_nesting (h n hn) (listNesting_lt.mp (Nat.lt_succ_self _) n hn)

theorem assembleUnion_spec {branches : List Node} {ordered : Bool} {caption : Caption}
    (h : ∀ b ∈ branches, space.Holds b) :
    Always ground space (assembleUnion branches ordered caption) fun later n =>
      later.Holds n ∧ n.isRefinement = false := by
  intro later hvalid hext
  have hconjoin :=
    conjoinBranches_spec (@conjoinWithin_spec _ ground False False.elim (listNesting branches)) False.elim
  exact (assembleUnionBy_spec hconjoin hvalid (within_listNesting fun b hb => hext.holds b (h b hb))).imp
    fun _ _ _ _ hn => ⟨hn.calm.holds, hn.root⟩

theorem ofDefinition_spec {basis : Option Node} {refinements : List Node} {caption : Caption}
    (hbasis : ∀ b ∈ basis, space.Holds b ∧ b.kind.isConstraint = true)
    (h : ∀ c ∈ refinements, space.Holds c ∧ c.kind.isConstraint = true) :
    Always ground space (ofDefinition basis refinements caption) fun later n =>
      later.Holds n ∧ (n.kind = .intersection ∨ n.isBasis = true) := by
  intro later hvalid hext
  have hrules : ∀ e ∈ basis.toList ++ refinements, space.Holds e ∧ e.kind.isConstraint = true :=
    List.forall_mem_append.mpr ⟨fun b hb => hbasis b (Option.mem_toList.mp hb), h⟩
  have hwithin := within_listNesting fun e he => hext.holds e (hrules e he).1
  refine (ofDefinitionBy_spec (conjoinWithin_spec False.elim _) False.elim hvalid (fun e he => ?_) False.elim
    False.elim).imp fun _ _ _ _ hn => ⟨hn.calm.holds, hn.kind⟩
  exact ⟨(hwithin e he).toCalm, two_le_order_of_isConstraint (hrules e he).2⟩

omit [Behaviour] in
theorem adopt_always {node : Node} (h : Welcome ground space node) :
    Always ground space (adopt node) fun later n => later.Holds n ∧ (space.Holds node → n = node) :=
  fun _ hvalid hext => (adopt_spec hvalid (h.extends hext)).imp fun _ _ _ _ hn =>
    ⟨hn.1, fun hheld => hn.2.2 (hext.holds node hheld)⟩

end Node

/-- The kinds of what a definition of a kind comes down to: an intersection may come down to its basis, and a union to
its only branch. -/
def Kind.ComesTo (kind actual : Kind) : Prop :=
  actual = kind ∨ kind = .intersection ∧ actual.isBasis = true ∨ kind = .union ∧ actual.isBranch = true

namespace Definition

variable {space : Space}

-- ---------------------------------------------------------------------------
-- Entries
-- ---------------------------------------------------------------------------

theorem optionalText_spec (key : String) (entries : Entries) :
    Always ground space (optionalText key entries) fun _ _ => True := by
  unfold optionalText
  split
  · exact .pure fun _ _ => trivial
  · exact .pure fun _ _ => trivial
  · exact .refuse

theorem optionalFlag_spec (key : String) (entries : Entries) :
    Always ground space (optionalFlag key entries) fun _ _ => True := by
  unfold optionalFlag
  split
  · exact .pure fun _ _ => trivial
  · exact .pure fun _ _ => trivial
  · exact .refuse

theorem checkEntries_spec (kind : Kind) (allowed : List String) (entries : Entries) :
    Always ground space (checkEntries kind allowed entries) fun _ _ => True := by
  unfold checkEntries
  split
  · exact .refuse
  · refine (optionalText_spec _ _).bind fun _ _ _ _ => (optionalText_spec _ _).bind fun _ _ _ _ => ?_
    exact .pure fun _ _ => trivial

theorem entriesOf_spec (kind : Kind) (d : Definition) :
    Always ground space (entriesOf kind d) fun _ entries => d = .map entries := by
  unfold entriesOf
  split
  · exact .pure fun _ _ => rfl
  · exact .refuse

theorem requiredEntry_spec (kind : Kind) (key : String) (entries : Entries) :
    Always ground space (requiredEntry kind key entries) fun _ d => entries.lookup key = some d := by
  unfold requiredEntry
  split
  · exact .pure fun _ _ => by assumption
  · exact .refuse

theorem requiredNumber_spec (kind : Kind) (key : String) (entries : Entries) :
    Always ground space (requiredNumber kind key entries) fun _ n => n.isNaN = false := by
  unfold requiredNumber
  refine (requiredEntry_spec _ _ _).bind fun _ d _ _ => ?_
  dsimp only
  split
  · split
    · exact .refuse
    · exact .pure fun _ _ => Bool.eq_false_iff.mpr ‹_›
  · split
    · exact .refuse
    · exact .pure fun _ _ => Bool.eq_false_iff.mpr ‹_›
  · exact .refuse

theorem registry_spec : Always ground space registry fun later current => current = later.registry := by
  intro later hvalid _
  refine (Ensures.get hvalid).bind ?_
  rintro final _ hvalid' _ rfl
  exact .pure hvalid' rfl

-- ---------------------------------------------------------------------------
-- Leaves
-- ---------------------------------------------------------------------------

/-- What reading a node gives. -/
abbrev Reads (ground : Prop) (space : Space) (x : SpaceM Node) : Prop :=
  Always ground space x fun later n => later.Holds n

/-- What reading a rule of an intersection gives. -/
abbrev ReadsRule (ground : Prop) (space : Space) (x : SpaceM Node) : Prop :=
  Always ground space x fun later n => later.Holds n ∧ n.kind.isConstraint = true

/-- What reading a rule of a kind gives. -/
abbrev ReadsKind (ground : Prop) (space : Space) (x : SpaceM Node) (kind : Kind) : Prop :=
  Always ground space x fun later n => later.Holds n ∧ n.kind = kind ∧ kind.isConstraint = true

theorem ReadsKind.rule {x : SpaceM Node} {kind : Kind} (h : ReadsKind ground space x kind) :
    ReadsRule ground space x :=
  h.imp fun _ _ hn => ⟨hn.1, hn.2.1 ▸ hn.2.2⟩

theorem ReadsKind.reads {x : SpaceM Node} {kind : Kind} (h : ReadsKind ground space x kind) : Reads ground space x :=
  h.imp fun _ _ => And.left

theorem reads_leaf {content : Content Node} {caption : Caption} (hkind : content.kind.isConstraint = true)
    (hsound : content.Sound) (hcanonical : content.Canonical caption) (hchildren : content.children = []) :
    ReadsKind ground space (SpaceM.intern content caption) content.kind := by
  have hdistinct : content.Distinct := by
    cases content with
    | union branches ordered => cases hkind
    | _ => exact trivial
  refine (Always.intern hsound hcanonical hdistinct (by rw [hchildren]; exact List.forall_mem_nil _)).imp ?_
  exact fun _ _ hn => ⟨hn.1, hn.2, hkind⟩

/-- The intersection without rules is settled. -/
theorem unknown_sound : (Content.unknown : Content Node).Sound where
  isBasis := by rintro _ ⟨⟩
  areRefinements := List.forall_mem_nil _
  sorted := .nil
  apart := .nil
  applicable := rfl
  notAlone := fun _ => rfl

theorem unknown_reads : Reads ground space SpaceM.unknown :=
  (Always.intern unknown_sound .nil trivial (List.forall_mem_nil _)).imp fun _ _ => And.left

theorem readDomainName_spec (name : String) : Always ground space (readDomainName name) fun _ _ => True := by
  unfold readDomainName
  split
  · exact .pure fun _ _ => trivial
  · exact .refuse

theorem readDomain_spec (d : Definition) : ReadsKind ground space (readDomain d) .domain := by
  unfold readDomain
  split
  · exact (readDomainName_spec _).bind fun _ _ _ _ => reads_leaf rfl trivial trivial rfl
  · refine (entriesOf_spec _ _).bind fun _ _ _ _ => (checkEntries_spec _ _ _).bind fun _ _ _ _ => ?_
    refine (requiredEntry_spec _ _ _).bind fun _ d _ _ => ?_
    split
    · exact (readDomainName_spec _).bind fun _ _ _ _ => reads_leaf rfl trivial trivial rfl
    · exact .refuse

theorem readLiteral_spec (d : Definition) : Always ground space (readLiteral d) fun _ _ => True := by
  unfold readLiteral
  split
  case h_6 =>
    refine registry_spec.bind fun _ _ _ _ => ?_
    split
    · exact .pure fun _ _ => trivial
    · exact .refuse
  case h_7 => exact .refuse
  all_goals exact .pure fun _ _ => trivial

theorem readUnit_spec (d : Definition) : ReadsKind ground space (readUnit d) .unit := by
  unfold readUnit
  split
  · exact reads_leaf rfl trivial trivial rfl
  · refine (entriesOf_spec _ _).bind fun _ _ _ _ => (checkEntries_spec _ _ _).bind fun _ _ _ _ => ?_
    refine (requiredEntry_spec _ _ _).bind fun _ _ _ _ => (readLiteral_spec _).bind fun _ _ _ _ => ?_
    exact reads_leaf rfl trivial trivial rfl

theorem readProtoName_spec (name : String) : Always ground space (readProtoName name) fun _ _ => True := by
  unfold readProtoName
  refine registry_spec.bind fun _ _ _ _ => ?_
  split
  · exact .pure fun _ _ => trivial
  · split
    · exact .pure fun _ _ => trivial
    · exact .refuse

theorem readProto_spec (d : Definition) : ReadsKind ground space (readProto d) .proto := by
  unfold readProto
  split
  · exact reads_leaf rfl trivial trivial rfl
  · exact (readProtoName_spec _).bind fun _ _ _ _ => reads_leaf rfl trivial trivial rfl
  · refine (entriesOf_spec _ _).bind fun _ _ _ _ => (checkEntries_spec _ _ _).bind fun _ _ _ _ => ?_
    refine (requiredEntry_spec _ _ _).bind fun _ _ _ _ => ?_
    split
    · exact reads_leaf rfl trivial trivial rfl
    · exact (readProtoName_spec _).bind fun _ _ _ _ => reads_leaf rfl trivial trivial rfl
    · exact .refuse

/-- A divisor is positive and fits. It is the integer that is written, of which what exceeds 64 bits is cut off. -/
theorem divisorOf_spec (n : Number) : Always ground space (divisorOf n) fun _ d => 0 < d ∧ d < Nat.pow 2 64 ∧
    ∃ i, n.toInt? = some i ∧ 1 ≤ i ∧ d = Nat.min i.toNat (Nat.pow 2 64 - 1) := by
  unfold divisorOf
  split
  · rename_i i hn
    split
    · rename_i hrange
      refine .pure fun _ _ => ?_
      have hpow : 0 < Nat.pow 2 64 - 1 := by decide
      exact ⟨Nat.lt_min.mpr ⟨by omega, hpow⟩, Nat.lt_of_le_of_lt (Nat.min_le_right _ _) (by decide),
        i, hn, hrange.1, rfl⟩
    · exact .refuse
  · exact .refuse

theorem readDivisor_spec (d : Definition) : ReadsKind ground space (readDivisor d) .divisor := by
  unfold readDivisor
  split
  · exact (divisorOf_spec _).bind fun _ _ _ hd => reads_leaf rfl hd.1 hd.2.1 rfl
  · refine (entriesOf_spec _ _).bind fun _ _ _ _ => (checkEntries_spec _ _ _).bind fun _ _ _ _ => ?_
    refine (requiredNumber_spec _ _ _).bind fun _ _ _ _ => (divisorOf_spec _).bind fun _ _ _ hd => ?_
    exact reads_leaf rfl hd.1 hd.2.1 rfl

theorem readAxis_spec (implied : BoundAxis) (entries : Entries) :
    Always ground space (readAxis implied entries) fun _ _ => True := by
  unfold readAxis
  refine (optionalText_spec _ _).bind fun _ _ _ _ => ?_
  split
  · exact .pure fun _ _ => trivial
  · split
    · exact .pure fun _ _ => trivial
    · exact .refuse

/-- The limit of a bound is a number. -/
theorem readBound_spec (kind : Kind) (implied : BoundAxis) (d : Definition) :
    Always ground space (readBound kind implied d) fun _ read => read.1.limit.isNaN = false := by
  unfold readBound
  split
  · split
    · exact .refuse
    · exact .pure fun _ _ => Bool.eq_false_iff.mpr ‹_›
  · refine (entriesOf_spec _ _).bind fun _ _ _ _ => (checkEntries_spec _ _ _).bind fun _ _ _ _ => ?_
    refine (requiredNumber_spec _ _ _).bind fun _ limit _ hlimit => ?_
    refine (optionalFlag_spec _ _).bind fun _ _ _ _ => (readAxis_spec _ _).bind fun _ _ _ _ => ?_
    exact .pure fun _ _ => hlimit

theorem compilePattern_spec (source flags : String) :
    Always ground space (compilePattern source flags) fun _ p => Pattern.ofSource p.source p.flags = .ok p := by
  unfold compilePattern
  split
  · exact .pure fun _ _ => Pattern.ofSource_self ‹_›
  · exact .refuse

theorem readPattern_spec (d : Definition) : ReadsKind ground space (readPattern d) .pattern := by
  unfold readPattern
  split
  · exact (compilePattern_spec _ _).bind fun _ _ _ hp => reads_leaf rfl hp trivial rfl
  · refine (entriesOf_spec _ _).bind fun _ _ _ _ => (checkEntries_spec _ _ _).bind fun _ _ _ _ => ?_
    refine (requiredEntry_spec _ _ _).bind fun _ _ _ _ => ?_
    split
    · refine (optionalText_spec _ _).bind fun _ _ _ _ => (compilePattern_spec _ _).bind fun _ _ _ hp => ?_
      exact reads_leaf rfl hp trivial rfl
    · exact .refuse

theorem resolvePredicate_spec (reference : String) :
    Always ground space (resolvePredicate reference) fun _ _ => True := by
  unfold resolvePredicate
  refine registry_spec.bind fun _ _ _ _ => ?_
  split
  · exact .pure fun _ _ => trivial
  · exact .refuse

theorem readPredicate_spec (d : Definition) : ReadsKind ground space (readPredicate d) .predicate := by
  unfold readPredicate
  split
  · exact reads_leaf rfl trivial trivial rfl
  · exact (resolvePredicate_spec _).bind fun _ _ _ _ => reads_leaf rfl trivial trivial rfl
  · refine (entriesOf_spec _ _).bind fun _ _ _ _ => (checkEntries_spec _ _ _).bind fun _ _ _ _ => ?_
    refine (requiredEntry_spec _ _ _).bind fun _ _ _ _ => ?_
    split
    · exact reads_leaf rfl trivial trivial rfl
    · exact (resolvePredicate_spec _).bind fun _ _ _ _ => reads_leaf rfl trivial trivial rfl
    · exact .refuse

theorem readFlatRefinement_spec (kind : Kind) (axis : BoundAxis) (d : Definition) :
    ReadsKind ground space (readFlatRefinement kind axis d) kind := by
  unfold readFlatRefinement
  split
  · exact readDivisor_spec d
  · exact (readBound_spec _ _ _).bind fun _ _ _ hlimit => reads_leaf rfl hlimit trivial rfl
  · exact (readBound_spec _ _ _).bind fun _ _ _ hlimit => reads_leaf rfl hlimit trivial rfl
  · exact readPattern_spec d
  · exact readPredicate_spec d
  · exact .refuse

-- ---------------------------------------------------------------------------
-- Nodes that hold other nodes
-- ---------------------------------------------------------------------------

theorem readKey_spec (d : Definition) : Always ground space (readKey d) fun _ _ => True := by
  unfold readKey
  split
  case h_4 =>
    refine registry_spec.bind fun _ _ _ _ => ?_
    split
    · exact .pure fun _ _ => trivial
    · exact .refuse
  case h_5 => exact .refuse
  case h_6 => exact .refuse
  all_goals exact .pure fun _ _ => trivial

/-- What reading an optional node gives. -/
abbrev ReadsOption (ground : Prop) (space : Space) (x : SpaceM (Option Node)) : Prop :=
  Always ground space x fun later out => ∀ n ∈ out, later.Holds n

/-- What reading several nodes gives. -/
abbrev ReadsList (ground : Prop) (space : Space) (x : SpaceM (List Node)) : Prop :=
  Always ground space x fun later out => ∀ n ∈ out, later.Holds n

/-- What reading several rules of an intersection gives. -/
abbrev ReadsRules (ground : Prop) (space : Space) (x : SpaceM (List Node)) : Prop :=
  Always ground space x fun later out => ∀ n ∈ out, later.Holds n ∧ n.kind.isConstraint = true

/-- Interning a property. -/
theorem reads_prop {kind : Kind} {make : PropKey → Node → Content Node}
    (hmake : kind = .required ∧ make = .required ∨ kind = .optional ∧ make = .optional)
    {key : PropKey} {value : Node} {caption : Caption} (hvalue : space.Holds value) :
    ReadsKind ground space (SpaceM.intern (make key value) caption) kind := by
  have hchildren : ∀ c ∈ [value], space.Holds c := List.forall_mem_singleton.mpr hvalue
  rcases hmake with ⟨rfl, rfl⟩ | ⟨rfl, rfl⟩
  · exact (@Always.intern ground space (.required key value) caption trivial trivial trivial hchildren).imp
      fun _ _ hn => ⟨hn.1, hn.2, rfl⟩
  · exact (@Always.intern ground space (.optional key value) caption trivial trivial trivial hchildren).imp
      fun _ _ hn => ⟨hn.1, hn.2, rfl⟩

theorem propOf_spec {kind : Kind} {make : PropKey → Node → Content Node}
    (hmake : kind = .required ∧ make = .required ∨ kind = .optional ∧ make = .optional) (entries : Entries)
    {readValue : SpaceM (Option Node)} (hvalue : ReadsOption ground space readValue) :
    ReadsKind ground space (propOf kind make entries readValue) kind := by
  unfold propOf
  refine (checkEntries_spec _ _ _).bind fun _ _ hext _ => (requiredEntry_spec _ _ _).bind fun _ _ hext' _ => ?_
  refine (readKey_spec _).bind fun _ _ hext'' _ => ?_
  refine (hvalue.later (hext''.trans (hext'.trans hext))).bind fun later out _ hout => ?_
  split
  · exact .refuse
  · rename_i held
    exact reads_prop hmake (hout held rfl)

theorem resolveTransform_spec (d : Definition) : Always ground space (resolveTransform d) fun _ _ => True := by
  unfold resolveTransform
  split
  · exact .pure fun _ _ => trivial
  · refine registry_spec.bind fun _ _ _ _ => ?_
    split
    · exact .pure fun _ _ => trivial
    · exact .refuse
  · exact .refuse

theorem resolveTransforms_spec (d : Definition) : Always ground space (resolveTransforms d) fun _ _ => True := by
  have hitems (items : List Definition) (space : Space) :
      Always ground space (items.mapM resolveTransform) fun _ _ => True := by
    induction items generalizing space with
    | nil => exact .pure fun _ _ => trivial
    | cons d rest ih =>
        rw [List.mapM_cons]
        exact (resolveTransform_spec d).bind fun _ _ _ _ => (ih _).bind fun _ _ _ _ => .pure fun _ _ => trivial
  unfold resolveTransforms
  split
  · exact hitems _ space
  · exact (resolveTransform_spec _).bind fun _ _ _ _ => .pure fun _ _ => trivial

variable [Behaviour]

theorem morphOf_spec (entries : Entries) {readInput readOutput : SpaceM (Option Node)}
    (hinput : ReadsOption ground space readInput) (houtput : ReadsOption ground space readOutput) :
    Always ground space (morphOf entries readInput readOutput) fun later n => later.Holds n ∧ n.kind = .morph := by
  unfold morphOf
  refine (checkEntries_spec _ _ _).bind fun _ caption hext _ => ?_
  refine (hinput.later hext).bind fun first input hext' hin => ?_
  -- What is left to do once the input is known.
  have hrest (later : Space) (input : Node) (hlater : later.Extends first) (hin : later.Holds input) :
      Always ground later (do
        let output ← readOutput
        let transforms ← resolveTransforms (← requiredEntry .morph "morph" entries)
        Node.createMorph input output transforms caption) fun final n => final.Holds n ∧ n.kind = .morph := by
    refine (houtput.later (hlater.trans (hext'.trans hext))).bind fun second output hext'' hout => ?_
    refine (requiredEntry_spec _ _ _).bind fun third d hthird _ => ?_
    refine (resolveTransforms_spec d).bind fun fourth transforms hfourth _ final hvalid hfinal => ?_
    have hextends := hfinal.trans (hfourth.trans hthird)
    have hinput : input.Within False (Nat.max input.nesting (Node.optionNesting output) + 1 + 1) final :=
      Node.within_of_nesting ((hextends.trans hext'').holds _ hin)
        (Nat.lt_succ_of_le (Nat.le_succ_of_le (Nat.le_max_left _ _)))
    have houtput : Node.Emits (Nat.max input.nesting (Node.optionNesting output) + 1) final output :=
      ⟨fun o ho => hextends.holds o (hout o ho), fun _ => Nat.lt_succ_of_le (Nat.le_max_right _ _)⟩
    exact (Node.createMorph_spec hvalid hinput.toCalm houtput fun h _ => h).imp fun _ _ _ _ hn =>
      ⟨hn.calm.holds, hn.kind⟩
  cases input with
  | some input =>
      refine Always.bind (P := fun later n => later.Holds n) (.pure fun later hlater => ?_) fun later n hlater hn => ?_
      · exact hlater.holds _ (hin input rfl)
      · exact hrest later n hlater hn
  | none =>
      exact unknown_reads.bind hrest

theorem unionOf_spec (entries : Entries) {readBranches : SpaceM (List Node)}
    (hbranches : ReadsList ground space readBranches) :
    Always ground space (unionOf entries readBranches) fun later n => later.Holds n ∧ n.isRefinement = false := by
  unfold unionOf
  refine (checkEntries_spec _ _ _).bind fun _ _ hext _ => (requiredEntry_spec _ _ _).bind fun _ _ hext' _ => ?_
  split
  · refine (optionalFlag_spec _ _).bind fun _ _ hext'' _ => ?_
    refine (hbranches.later (hext''.trans (hext'.trans hext))).bind fun _ out _ hout => ?_
    exact Node.assembleUnion_spec hout
  · exact .refuse

omit [Behaviour] in
theorem basisOf_spec (entries : Entries) {readBasis : SpaceM (Option Node)} {found : Option Node} {keys : List String}
    (hfound : ∀ n ∈ found, space.Holds n ∧ n.kind.isConstraint = true) (hbasis : ReadsOption ground space readBasis) :
    Always ground space (basisOf entries readBasis found keys) fun later out =>
      ∀ n ∈ out, later.Holds n ∧ n.kind.isConstraint = true := by
  induction keys generalizing space found with
  | nil => exact .pure fun later hext n hn => (hfound n hn).imp_left (hext.holds n)
  | cons key keys ih =>
      unfold basisOf
      cases entries.lookup key with
      | none => exact ih hfound hbasis
      | some d =>
        dsimp only
        by_cases hsome : found.isSome = true
        · rw [if_pos hsome]
          exact Always.bind (P := fun _ _ => False) .refuse fun _ _ _ h => h.elim
        rw [if_neg hsome]
        have hnext (later : Space) (n : Node) (hlater : later.Extends space)
            (hn : later.Holds n ∧ n.kind.isConstraint = true) :
            Always ground later (basisOf entries readBasis (some n) keys) fun later out =>
              ∀ n ∈ out, later.Holds n ∧ n.kind.isConstraint = true := by
          refine ih ?_ (hbasis.later hlater)
          rintro _ ⟨⟩
          exact hn
        split
        · exact (readDomain_spec d).rule.bind hnext
        · refine (readLiteral_spec d).bind fun second _ hext' _ => ?_
          refine (@reads_leaf _ _ (.unit _) _ rfl trivial trivial rfl).rule.bind ?_
          exact fun later n hlater hn => hnext later n (hlater.trans hext') hn
        · exact (readProto_spec d).rule.bind hnext
        · refine Always.bind hbasis fun second out hext' hout => ?_
          split
          · rename_i n
            split
            · rename_i hisBasis
              have hconstraint := Node.isConstraint_of_isBasis hisBasis
              refine Always.bind (P := fun later n => later.Holds n ∧ n.kind.isConstraint = true)
                (.pure fun _ hext => ⟨hext.holds n (hout n rfl), hconstraint⟩) ?_
              exact fun later n hlater hn => hnext later n (hlater.trans hext') hn
            · exact Always.bind (P := fun _ _ => False) .refuse fun _ _ _ h => h.elim
          · exact Always.bind (P := fun _ _ => False) .refuse fun _ _ _ h => h.elim

omit [Behaviour] in
theorem refinementsOf_spec {readRefinements : Kind → SpaceM (List Node)}
    (hread : ∀ kind, ReadsRules ground space (readRefinements kind)) (kinds : List Kind) :
    ReadsRules ground space (refinementsOf readRefinements kinds) := by
  induction kinds generalizing space with
  | nil => exact .pure fun _ _ => List.forall_mem_nil _
  | cons kind rest ih =>
      unfold refinementsOf
      refine (hread kind).bind fun first out hext hout => ?_
      refine (ih fun kind => (hread kind).later hext).bind fun second more hext' hmore => ?_
      refine .pure fun later hext'' => List.forall_mem_append.mpr ⟨fun n hn => ?_, fun n hn => ?_⟩
      · exact (hout n hn).imp_left ((hext''.trans hext').holds n)
      · exact (hmore n hn).imp_left (hext''.holds n)

theorem intersectionOf_spec (entries : Entries) {readBasis : SpaceM (Option Node)}
    {readRefinements : Kind → BoundAxis → SpaceM (List Node)} (hbasis : ReadsOption ground space readBasis)
    (hrefinements : ∀ kind axis, ReadsRules ground space (readRefinements kind axis)) :
    Always ground space (intersectionOf entries readBasis readRefinements) fun later n =>
      later.Holds n ∧ (n.kind = .intersection ∨ n.isBasis = true) := by
  unfold intersectionOf
  refine (checkEntries_spec _ _ _).bind fun _ _ hext _ => ?_
  refine (basisOf_spec entries (fun _ h => by cases h) (hbasis.later hext)).bind fun _ basis hext' hb => ?_
  refine (refinementsOf_spec (fun kind => (hrefinements kind _).later (hext'.trans hext)) _).bind
    fun _ refinements hext'' hr => ?_
  exact Node.ofDefinition_spec (fun b hbasis => (hb b hbasis).imp_left (hext''.holds b)) hr

/-- Every single word but one stands for a basis. -/
theorem readRootName_spec (name : String) :
    Always ground space (readRootName name) fun later n =>
      later.Holds n ∧ (name ≠ "boolean" → n.isBasis = true) := by
  have hbasis {x : SpaceM Node} {kind : Kind} {space : Space} (hx : ReadsKind ground space x kind)
      (hkind : kind.isBasis = true) :
      Always ground space x fun later n => later.Holds n ∧ (name ≠ "boolean" → n.isBasis = true) :=
    hx.imp fun _ _ hn => ⟨hn.1, fun _ => (congrArg Kind.isBasis hn.2.1).trans hkind⟩
  unfold readRootName
  split
  · refine (@reads_leaf _ _ (.unit _) _ rfl trivial trivial rfl).bind fun _ yes _ hyes => ?_
    refine (@reads_leaf _ _ (.unit _) _ rfl trivial trivial rfl).bind fun _ no hext hno => ?_
    refine (Node.assembleUnion_spec (List.forall_mem_cons.mpr ⟨hext.holds yes hyes.1, ?_⟩)).imp fun _ _ hn =>
      ⟨hn.1, fun hname => absurd rfl hname⟩
    exact List.forall_mem_singleton.mpr hno.1
  · exact hbasis (@reads_leaf _ _ (.unit _) _ rfl trivial trivial rfl) rfl
  · exact hbasis (@reads_leaf _ _ (.unit _) _ rfl trivial trivial rfl) rfl
  · refine registry_spec.bind fun _ _ _ _ => ?_
    split
    · split
      · exact hbasis (@reads_leaf _ _ (.proto _) _ rfl trivial trivial rfl) rfl
      · exact hbasis (@reads_leaf _ _ (.unit _) _ rfl trivial trivial rfl) rfl
      · exact hbasis (readProto_spec _) rfl
    · exact hbasis (readDomain_spec _) rfl

-- ---------------------------------------------------------------------------
-- Definitions
-- ---------------------------------------------------------------------------

mutual

/-- The nodes that occur in a definition. -/
def nodes : Definition → List Node
  | .list items => nodesIn items
  | .map entries => nodesAt entries
  | .node n => [n]
  | _ => []
termination_by structural d => d

def nodesIn : List Definition → List Node
  | [] => []
  | d :: rest => nodes d ++ nodesIn rest
termination_by structural items => items

def nodesAt : List (String × Definition) → List Node
  | [] => []
  | (_, d) :: rest => nodes d ++ nodesAt rest
termination_by structural entries => entries

end

open Node (Welcome)

mutual

/-- Reading a root definition whose nodes are welcome gives a node of the space. -/
theorem readRoot_spec : (d : Definition) → ∀ {space : Space}, (∀ n ∈ d.nodes, Welcome ground space n) →
    Reads ground space (readRoot d)
  | .list items, _, h => (readRoots_spec items h).bind fun _ _ _ hout =>
      (Node.assembleUnion_spec hout).imp fun _ _ => And.left
  | .map entries, _, h => by
    unfold readRoot
    split
    · exact (unionOf_spec entries (rootsAt_spec "branches" entries h)).imp fun _ _ => And.left
    · split
      · exact (morphOf_spec entries (rootAt_spec "in" entries h) (rootAt_spec "out" entries h)).imp fun _ _ => And.left
      · exact (intersectionOf_spec entries (rootAt_spec "basis" entries h) fun kind axis =>
          refinementsAt_spec kind axis entries h).imp fun _ _ => And.left
  | .node n, _, h => (Node.adopt_always (h n List.mem_cons_self)).imp fun _ _ => And.left
  | .string name, _, _ => (readRootName_spec name).imp fun _ _ => And.left
  | .proto _, _, _ | .value _, _, _ | .symbol _, _, _ => ReadsKind.reads (reads_leaf rfl trivial trivial rfl)
  | .predicate p, _, _ => (@reads_leaf _ _ (.predicate p) _ rfl trivial trivial rfl).bind fun _ _ _ hn =>
      (Node.ofDefinition_spec (fun _ h => by cases h) (List.forall_mem_singleton.mpr ⟨hn.1, hn.2.1 ▸ hn.2.2⟩)).imp
        fun _ _ => And.left
  | .null, _, _ | .bool _, _, _ | .number _, _, _ | .transform _, _, _ => .refuse
termination_by structural d => d

theorem readRefinement_spec (kind : Kind) (axis : BoundAxis) : (d : Definition) → ∀ {space : Space},
    (∀ n ∈ d.nodes, Welcome ground space n) → ReadsKind ground space (readRefinement kind axis d) kind
  | .map entries, _, h => by
    unfold readRefinement
    split
    · exact propOf_spec (.inl ⟨rfl, rfl⟩) entries (rootAt_spec "value" entries h)
    · exact propOf_spec (.inr ⟨rfl, rfl⟩) entries (rootAt_spec "value" entries h)
    · exact readFlatRefinement_spec _ _ _
  | .null, _, _ | .bool _, _, _ | .number _, _, _ | .string _, _, _ | .list _, _, _ | .value _, _, _ | .proto _, _, _
  | .predicate _, _, _ | .transform _, _, _ | .symbol _, _, _ | .node _, _, _ => readFlatRefinement_spec _ _ _
termination_by structural d => d

theorem readRoots_spec : (items : List Definition) → ∀ {space : Space}, (∀ n ∈ nodesIn items, Welcome ground space n) →
    ReadsList ground space (readRoots items)
  | [], _, _ => .pure fun _ _ => List.forall_mem_nil _
  | d :: rest, _, h => by
    obtain ⟨hfirst, hrest⟩ := List.forall_mem_append.mp h
    refine (readRoot_spec d hfirst).bind fun _ n hext hn => ?_
    refine (readRoots_spec rest fun m hm => (hrest m hm).extends hext).bind fun _ out hext' hout => ?_
    refine .pure fun later hext'' => List.forall_mem_cons.mpr ⟨(hext''.trans hext').holds n hn, ?_⟩
    exact fun m hm => hext''.holds m (hout m hm)
termination_by structural items => items

theorem readRefinements_spec (kind : Kind) (axis : BoundAxis) : (items : List Definition) → ∀ {space : Space},
    (∀ n ∈ nodesIn items, Welcome ground space n) → ReadsRules ground space (readRefinements kind axis items)
  | [], _, _ => .pure fun _ _ => List.forall_mem_nil _
  | d :: rest, _, h => by
    obtain ⟨hfirst, hrest⟩ := List.forall_mem_append.mp h
    refine (readRefinement_spec kind axis d hfirst).rule.bind fun _ n hext hn => ?_
    refine (readRefinements_spec kind axis rest fun m hm => (hrest m hm).extends hext).bind fun _ out hext' hout => ?_
    refine .pure fun later hext'' => List.forall_mem_cons.mpr ⟨hn.imp_left ((hext''.trans hext').holds n), ?_⟩
    exact fun m hm => (hout m hm).imp_left (hext''.holds m)
termination_by structural items => items

theorem rootAt_spec (key : String) : (entries : List (String × Definition)) → ∀ {space : Space},
    (∀ n ∈ nodesAt entries, Welcome ground space n) → ReadsOption ground space (rootAt key entries)
  | [], _, _ => .pure fun _ _ => nofun
  | (k, d) :: rest, _, h => by
    obtain ⟨hfirst, hrest⟩ := List.forall_mem_append.mp h
    unfold rootAt
    split
    · refine (readRoot_spec d hfirst).bind fun _ n _ hn => .pure fun later hext => ?_
      rintro _ ⟨⟩
      exact hext.holds n hn
    · exact rootAt_spec key rest hrest
termination_by structural entries => entries

theorem rootsAt_spec (key : String) : (entries : List (String × Definition)) → ∀ {space : Space},
    (∀ n ∈ nodesAt entries, Welcome ground space n) → ReadsList ground space (rootsAt key entries)
  | [], _, _ => .pure fun _ _ => List.forall_mem_nil _
  | (k, d) :: rest, _, h => by
    obtain ⟨hfirst, hrest⟩ := List.forall_mem_append.mp h
    unfold rootsAt
    split
    · exact rootsIn_spec d hfirst
    · exact rootsAt_spec key rest hrest
termination_by structural entries => entries

theorem rootsIn_spec : (d : Definition) → ∀ {space : Space}, (∀ n ∈ d.nodes, Welcome ground space n) →
    ReadsList ground space (rootsIn d)
  | .list items, _, h => readRoots_spec items h
  | .null, _, _ | .bool _, _, _ | .number _, _, _ | .string _, _, _ | .map _, _, _ | .value _, _, _ | .proto _, _, _
  | .predicate _, _, _ | .transform _, _, _ | .symbol _, _, _ | .node _, _, _ => .pure fun _ _ => List.forall_mem_nil _
termination_by structural d => d

theorem refinementsAt_spec (kind : Kind) (axis : BoundAxis) : (entries : List (String × Definition)) →
    ∀ {space : Space}, (∀ n ∈ nodesAt entries, Welcome ground space n) →
      ReadsRules ground space (refinementsAt kind axis entries)
  | [], _, _ => .pure fun _ _ => List.forall_mem_nil _
  | (k, d) :: rest, _, h => by
    obtain ⟨hfirst, hrest⟩ := List.forall_mem_append.mp h
    have hone {x : SpaceM Node} {space : Space} (hx : ReadsRule ground space x) :
        ReadsRules ground space (do return [← x]) :=
      hx.bind fun _ n _ hn => .pure fun later hext => List.forall_mem_singleton.mpr (hn.imp_left (hext.holds n))
    cases d with
    | list items =>
        unfold refinementsAt
        split
        · exact refinementsAt_spec kind axis rest hrest
        · split
          · exact readRefinements_spec kind axis items hfirst
          · exact hone (readFlatRefinement_spec _ _ _).rule
    | _ =>
        unfold refinementsAt
        split
        · exact refinementsAt_spec kind axis rest hrest
        · exact hone (readRefinement_spec kind axis _ hfirst).rule
termination_by structural entries => entries

end

omit [Behaviour] in
theorem readEntries_spec (kind : Kind) {read : Entries → SpaceM Node} {d : Definition} {Q : Space → Node → Prop}
    (hread : ∀ entries later, d = .map entries → later.Extends space → Always ground later (read entries) Q) :
    Always ground space (readEntries kind read d) Q := by
  unfold readEntries
  exact (entriesOf_spec kind d).bind fun later entries hext h => hread entries later h hext

/-- Reading a definition of a kind gives a node of the space, and one of this kind, unless an intersection is asked for
by the one word that stands for a union. -/
theorem readKind_spec (kind : Kind) (d : Definition) (h : ∀ n ∈ d.nodes, Welcome ground space n) :
    Always ground space (readKind kind d) fun later n =>
      later.Holds n ∧ ((kind = .intersection → d ≠ .string "boolean") → kind.ComesTo n.kind) := by
  have hentries {entries : Entries} {later : Space} (hd : d = .map entries) (hext : later.Extends space) :
      ∀ n ∈ nodesAt entries, Welcome ground later n := by
    subst hd
    exact fun n hn => (h n hn).extends hext
  unfold readKind
  split
  · rename_i n
    split
    · rename_i hkind
      intro later hvalid hext
      refine (Node.adopt_spec hvalid ((h n List.mem_cons_self).extends hext)).imp fun _ _ _ _ hn => ⟨hn.1, fun _ => ?_⟩
      exact .inl ((Node.Alike.kind_eq hn.2.1).trans hkind)
    · exact .refuse
  split
  · -- A union
    have hunion {node : Node} (hroot : node.isRefinement = false) : Kind.union.ComesTo node.kind := by
      by_cases hkind : node.kind = .union
      · exact .inl hkind
      · exact .inr (.inr ⟨rfl, Node.isBranch_of_root hroot hkind⟩)
    split
    · rename_i items _
      refine (readRoots_spec items h).bind fun _ _ _ hout => ?_
      exact (Node.assembleUnion_spec hout).imp fun _ _ hn => ⟨hn.1, fun _ => hunion hn.2⟩
    · refine readEntries_spec _ fun entries later hd hext => ?_
      exact (unionOf_spec entries (rootsAt_spec _ _ (hentries hd hext))).imp fun _ _ hn => ⟨hn.1, fun _ => hunion hn.2⟩
  · refine readEntries_spec _ fun entries later hd hext => ?_
    exact (morphOf_spec entries (rootAt_spec _ _ (hentries hd hext)) (rootAt_spec _ _ (hentries hd hext))).imp
      fun _ _ hn => ⟨hn.1, fun _ => .inl hn.2⟩
  · -- An intersection
    have hbasis {node : Node} (hkind : node.isBasis = true) : Kind.intersection.ComesTo node.kind :=
      .inr (.inl ⟨rfl, hkind⟩)
    split
    · rename_i name _
      refine (readRootName_spec name).imp fun _ _ hn => ⟨hn.1, fun hname => hbasis (hn.2 fun heq => ?_)⟩
      exact hname rfl (congrArg Definition.string heq)
    · refine (@reads_leaf _ _ (.proto _) _ rfl trivial trivial rfl).imp fun _ _ hn => ⟨hn.1, fun _ => hbasis ?_⟩
      exact congrArg Kind.isBasis hn.2.1
    · refine readEntries_spec _ fun entries later hd hext => ?_
      refine (intersectionOf_spec entries (rootAt_spec _ _ (hentries hd hext)) fun kind axis =>
        refinementsAt_spec kind axis _ (hentries hd hext)).imp fun _ _ hn => ⟨hn.1, fun _ => ?_⟩
      exact hn.2.imp_right fun hkind => .inl ⟨rfl, hkind⟩
  · exact (readUnit_spec d).imp fun _ _ hn => ⟨hn.1, fun _ => .inl hn.2.1⟩
  · exact (readProto_spec d).imp fun _ _ hn => ⟨hn.1, fun _ => .inl hn.2.1⟩
  · exact (readDomain_spec d).imp fun _ _ hn => ⟨hn.1, fun _ => .inl hn.2.1⟩
  · exact (readRefinement_spec _ _ d h).imp fun _ _ hn => ⟨hn.1, fun _ => .inl hn.2.1⟩

end Definition

end SchemaAlgebra
