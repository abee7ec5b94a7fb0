-- SUMMARY: Everything that can be done with spaces, and that it keeps them valid.
import SchemaAlgebra.Algebra.Projection
import SchemaAlgebra.Proofs.Reading

/-!
# Reachable spaces

A space starts empty and changes by requests, by forgetting nodes that nothing
reaches any more, and by pruning their entries. Each of these keeps a space valid,
so that every reachable space is.
-/

namespace SchemaAlgebra

open SpaceM (Always Ensures)
open Definition (Reads ReadsRule)
open Node (Welcome)

namespace Node

variable [Behaviour] {ground : Prop} {space : Space}

-- ---------------------------------------------------------------------------
-- The algebra
-- ---------------------------------------------------------------------------

/-- Nodes of a space are within reach one level above the deeper of the two, if they are admitted where that is asked
for. -/
theorem within_pair {safe : Safety} {l r : Node} (hl : space.Holds l) (hr : space.Holds r)
    (hadmitted : safe → l.Admitted safe ∧ r.Admitted safe) :
    l.Within safe (Nat.max l.nesting r.nesting + 1) space ∧ r.Within safe (Nat.max l.nesting r.nesting + 1) space :=
  ⟨⟨⟨hl, fun _ => Nat.lt_succ_of_le (Nat.le_max_left _ _), fun hsafe _ => (hadmitted hsafe).1.admits⟩,
      fun hsafe _ => (hadmitted hsafe).1.root⟩,
    ⟨⟨hr, fun _ => Nat.lt_succ_of_le (Nat.le_max_right _ _), fun hsafe _ => (hadmitted hsafe).2.admits⟩,
      fun hsafe _ => (hadmitted hsafe).2.root⟩⟩

/-- Intersecting nodes of one space, with what can be said of the outcome where `safe` holds. -/
theorem meetHere_spec {safe : Safety} {l r : Node} (hblind : safe.exact → BlindToSign) (hvalid : space.Valid)
    (hl : space.Holds l) (hr : space.Holds r) (hadmitted : safe → l.Admitted safe ∧ r.Admitted safe) :
    Ensures ground safe space (meetHere l r) fun later out =>
      Met safe (Nat.max l.nesting r.nesting) l r later out := by
  obtain ⟨hl, hr⟩ := within_pair hl hr hadmitted
  exact meetBy_met (meetUnions_met (conjoinWithin_spec hblind _) hblind) hvalid hl hr (Nat.zero_le _) (Nat.zero_le _)

theorem intersect_always {l r : Node} (hl : space.Holds l) (hr : Welcome ground space r) :
    Always ground space (intersect l r) fun _ _ => True := by
  refine (adopt_always hr).bind fun first adopted hext hadopted later hvalid hext' => ?_
  exact (@meetHere_spec _ _ _ False _ _ False.elim hvalid (hext'.holds l (hext.holds l hl))
    (hext'.holds adopted hadopted.1) False.elim).imp fun _ _ _ _ _ => trivial

/-- Conjoining a node with another gives the conjunction with what the other is adopted as. -/
theorem conjoin_always {l r : Node} (hl : space.Holds l) (hr : Welcome ground space r) :
    Always ground space (conjoin l r) fun later out => ∃ adopted depth, (space.Holds r → adopted = r) ∧
      Conjoined False depth l adopted later out := by
  refine (adopt_always hr).bind fun first adopted hext hadopted later hvalid hext' => ?_
  obtain ⟨hlWithin, hrWithin⟩ :=
    @within_pair _ _ False _ _ (hext'.holds l (hext.holds l hl)) (hext'.holds adopted hadopted.1) False.elim
  exact (conjoinWithin_spec False.elim _ later l adopted hvalid hlWithin hrWithin).imp
    fun _ _ _ _ hout => ⟨adopted, _, hadopted.2, hout⟩

/-- A conjunction is never orthogonal. -/
theorem and_always {l r : Node} (hl : space.Holds l) (hr : Welcome ground space r) :
    Always ground space (and l r) fun later n => ∃ adopted depth, (space.Holds r → adopted = r) ∧
      Conjunct False depth l adopted later n := by
  refine (conjoin_always hl hr).bind fun first out hext hout => ?_
  obtain ⟨adopted, depth, hadopted, hout⟩ := hout
  cases out with
  | node n =>
      have hout : Conjunct False depth l adopted first n := hout
      exact .pure fun later hext' => ⟨adopted, depth, hadopted, hout.extends hext'⟩
  | disjoint d => exact .throw nofun
  | orthogonal => exact hout.elim

theorem and_reads {l r : Node} (hl : space.Holds l) (hr : Welcome ground space r) : Reads ground space (and l r) :=
  (and_always hl hr).imp fun _ _ ⟨_, _, _, hn⟩ => hn.calm.holds

/-- Whatever is found to extend another node allows only what the other allows. -/
theorem extends?_always {l r : Node} (hl : space.Holds l) (hr : Welcome ground space r) :
    Always ground space (extends? l r) fun later extending => extending = true →
      ∃ adopted, (space.Holds r → adopted = r) ∧
        (BlindToSign → later.Regular → ∀ v, l.allows v = true → adopted.allows v = true) := by
  intro later hvalid hext
  refine (conjoin_always hl hr later hvalid hext).bind fun final out hvalid' hext' hout => ?_
  obtain ⟨adopted, depth, hadopted, hout⟩ := hout
  cases out with
  | node n =>
      have hout : Conjunct False depth l adopted final n := hout
      refine .pure hvalid' fun hsame => ⟨adopted, hadopted, fun hblind hregular v hv => ?_⟩
      exact hout.right_of_left hvalid' (hext'.holds l (hext.holds l hl)) hsame hblind hregular hv
  | disjoint d => exact .pure hvalid' fun h => by cases h
  | orthogonal => exact hout.elim

omit [Behaviour] in
theorem equals_always {l r : Node} (hr : Welcome ground space r) : Always ground space (equals l r) fun _ _ => True :=
  (adopt_always hr).bind fun _ _ _ _ => .pure fun _ _ => trivial

theorem union_reads {nodes : List Node} (h : ∀ n ∈ nodes, Welcome ground space n) :
    Reads ground space (union nodes) := by
  intro later hvalid hext
  refine (adoptAll_spec hvalid fun n hn => (h n hn).extends hext).bind fun final out hfinal _ hout => ?_
  exact ((assembleUnion_spec hout).imp fun _ _ => And.left) final hfinal (.refl final)

omit [Behaviour] in
/-- A content stays canonical when its caption gets a description. -/
theorem canonical_described {content : Content Node} {caption : Caption} (h : content.Canonical caption)
    (description : String) : content.Canonical ⟨some description, caption.label⟩ := by
  cases content with
  | union branches ordered => exact ⟨h.1, h.2.1, fun _ => rfl⟩
  | _ => exact h

omit [Behaviour] in
theorem withDescription_reads {node : Node} (hnode : space.Holds node) (description : String) :
    Reads ground space (withDescription node description) := by
  intro later hvalid hext
  have hheld := hext.holds node hnode
  have hcanonical := canonical_described (hvalid.canonical node hheld) description
  exact (Ensures.intern hvalid (hvalid.ready hheld hcanonical)).imp fun _ _ _ _ hn => hn.holds

theorem constrain_reads {node : Node} {kind : Kind} {d : Definition} (hnode : space.Holds node)
    (h : ∀ n ∈ d.nodes, Welcome ground space n) : Reads ground space (constrain node kind d) := by
  unfold constrain
  by_cases hkind : (!kind.isRefinement) = true
  · rw [if_pos hkind]
    exact Always.bind (P := fun _ _ => False) .refuse fun _ _ _ h => h.elim
  rw [if_neg hkind]
  refine (Definition.readRefinement_spec kind _ d h).rule.bind fun first refinement hext hrefinement => ?_
  split
  · exact .refuse
  · exact and_reads (hext.holds node hnode) (.inl hrefinement.1)

-- ---------------------------------------------------------------------------
-- Projection
-- ---------------------------------------------------------------------------

theorem combineProjected_reads {rules : List Node} (h : ∀ n ∈ rules, space.Holds n ∧ n.kind.isConstraint = true) :
    Reads ground space (combineProjected rules) := by
  have hcombine : Always ground space (combine rules) fun later out =>
      Combined False (listNesting rules) rules later out := by
    intro later hvalid hext
    have hwithin := within_listNesting fun n hn => hext.holds n (h n hn).1
    exact combineBy_spec (conjoinWithin_spec False.elim _) False.elim hvalid fun n hn =>
      ⟨hwithin n hn, two_le_order_of_isConstraint (h n hn).2⟩
  refine hcombine.bind fun first out _ hout => ?_
  cases out with
  | node n =>
      have hout : Stands False (listNesting rules) rules first n := hout
      exact .pure fun later hext => hext.holds n hout.calm.holds
  | disjoint d => exact .throw nofun
  | orthogonal => exact hout.elim

/-- What projecting a node gives in any space that holds it. Constraints stay constraints. -/
def Projects (ground : Prop) (side : Projection) (node : Node) : Prop :=
  ∀ space : Space, space.Holds node → Always ground space (project side node) fun later n =>
    later.Holds n ∧ (node.kind.isConstraint = true → n.kind.isConstraint = true)

theorem projectList_spec {side : Projection} {nodes : List Node} (hprojects : ∀ n ∈ nodes, Projects ground side n)
    (h : ∀ n ∈ nodes, space.Holds n) : Always ground space (projectList side nodes) fun later out => ∀ n ∈ out,
      later.Holds n ∧ ((∀ m ∈ nodes, m.kind.isConstraint = true) → n.kind.isConstraint = true) := by
  induction nodes generalizing space with
  | nil => exact .pure fun _ _ => List.forall_mem_nil _
  | cons node rest ih =>
      obtain ⟨hnode, hrest⟩ := List.forall_mem_cons.mp h
      obtain ⟨hproject, hprojects⟩ := List.forall_mem_cons.mp hprojects
      refine (hproject space hnode).bind fun first n hext hn => ?_
      refine (ih hprojects fun m hm => hext.holds m (hrest m hm)).bind fun second out hext' hout => ?_
      refine .pure fun later hext'' => List.forall_mem_cons.mpr ⟨⟨(hext''.trans hext').holds n hn.1, ?_⟩, ?_⟩
      · exact fun hall => hn.2 (hall node List.mem_cons_self)
      · exact fun m hm => ⟨hext''.holds m (hout m hm).1, fun hall =>
          (hout m hm).2 fun k hk => hall k (List.mem_cons_of_mem node hk)⟩

theorem projectOption_spec {side : Projection} {node : Option Node} (hprojects : ∀ n ∈ node, Projects ground side n)
    (h : ∀ n ∈ node, space.Holds n) : Always ground space (projectOption side node) fun later out => ∀ n ∈ out,
      later.Holds n ∧ ((∀ m ∈ node, m.kind.isConstraint = true) → n.kind.isConstraint = true) := by
  cases node with
  | none => exact .pure fun _ _ _ h => by cases h
  | some node =>
      refine (hprojects node rfl space (h node rfl)).bind fun first n hext hn => .pure fun later hext' => ?_
      rintro _ ⟨⟩
      exact ⟨hext'.holds n hn.1, fun hall => hn.2 (hall node rfl)⟩

/-- Projecting the content of a node. -/
theorem projectContent_spec {side : Projection} {node : Node} {content : Content Node}
    (hprojects : ∀ c ∈ content.children, Projects ground side c) (hnode : space.Holds node)
    (hcontent : node.content = content) (hsound : content.Sound) (h : ∀ c ∈ content.children, space.Holds c) :
    Always ground space (projectContent side node content) fun later n =>
      later.Holds n ∧ (content.kind.isConstraint = true → n.kind.isConstraint = true) := by
  cases content with
  | union branches ordered =>
      refine (projectList_spec hprojects h).bind fun _ out _ hout => ?_
      exact (assembleUnion_spec fun n hn => (hout n hn).1).imp fun _ _ hn => ⟨hn.1, nofun⟩
  | morph input output transforms =>
      obtain ⟨hinput, houtput⟩ := List.forall_mem_cons.mp h
      unfold projectContent
      split
      · exact .pure fun later hext => ⟨hext.holds input hinput, nofun⟩
      · rename_i o
        exact .pure fun later hext => ⟨hext.holds o (houtput o List.mem_cons_self), nofun⟩
      · exact Definition.unknown_reads.imp fun _ _ hn => ⟨hn, nofun⟩
  | intersection basis constraints =>
      obtain ⟨hbasis, hconstraints⟩ := List.forall_mem_append.mp h
      obtain ⟨hprojectBasis, hprojects⟩ := List.forall_mem_append.mp hprojects
      obtain ⟨hkind, hkinds⟩ := List.forall_mem_append.mp (Settled.areConstraints hsound)
      refine (projectOption_spec (fun b hb => hprojectBasis b (Option.mem_toList.mpr hb)) fun b hb =>
        hbasis b (Option.mem_toList.mpr hb)).bind fun first basis hext hb => ?_
      refine (projectList_spec hprojects fun c hc => hext.holds c (hconstraints c hc)).bind
        fun second rules hext' hrules => ?_
      refine (combineProjected_reads (List.forall_mem_append.mpr ⟨fun n hn => ?_, fun n hn => ?_⟩)).imp
        fun _ _ hn => ⟨hn, nofun⟩
      · have hn := hb n (Option.mem_toList.mp hn)
        exact ⟨hext'.holds n hn.1, hn.2 fun m hm => hkind m (Option.mem_toList.mpr hm)⟩
      · exact (hrules n hn).imp_right fun hall => hall hkinds
  | required key value =>
      refine (hprojects value List.mem_cons_self space (h value List.mem_cons_self)).bind fun _ n _ hn => ?_
      exact (Definition.reads_prop (.inl ⟨rfl, rfl⟩) hn.1).rule.imp fun _ _ => And.imp_right fun hconstraint _ => hconstraint
  | optional key value =>
      refine (hprojects value List.mem_cons_self space (h value List.mem_cons_self)).bind fun _ n _ hn => ?_
      exact (Definition.reads_prop (.inr ⟨rfl, rfl⟩) hn.1).rule.imp fun _ _ => And.imp_right fun hconstraint _ => hconstraint
  | _ => exact .pure fun later hext => ⟨hext.holds node hnode, fun hkind => by rwa [kind, hcontent]⟩

theorem project_spec (side : Projection) (node : Node) : Projects ground side node := by
  induction node using induct with
  | step content caption profile ih =>
      intro space hnode later hvalid hext
      have hheld := hext.holds _ hnode
      unfold project
      split
      · exact projectContent_spec ih hheld rfl (hvalid.written _ hheld).sound (hvalid.closed _ hheld) later hvalid
          (.refl later)
      · exact .pure hvalid ⟨hheld, fun hkind => hkind⟩

end Node

-- ---------------------------------------------------------------------------
-- Requests
-- ---------------------------------------------------------------------------

/-- What can be asked of a space. -/
inductive Request where
  | read (d : Definition)
  | readKind (kind : Kind) (d : Definition)
  | unknown
  | never
  | union (nodes : List Node)
  | adopt (node : Node)
  | intersect (l r : Node)
  | and (l r : Node)
  | comparison (l r : Node)
  | equality (l r : Node)
  | constrain (node : Node) (kind : Kind) (d : Definition)
  | describe (node : Node) (description : String)
  | project (side : Projection) (node : Node)
  | register (thing : Registered)

namespace Request

/-- The nodes whose own space is asked. -/
def residents : Request → List Node
  | .intersect l _ | .and l _ | .comparison l _ | .equality l _ => [l]
  | .constrain node _ _ | .describe node _ | .project _ node => [node]
  | _ => []

/-- The nodes that can come from elsewhere. -/
def guests : Request → List Node
  | .read d | .readKind _ d | .constrain _ _ d => d.nodes
  | .union nodes => nodes
  | .adopt node => [node]
  | .intersect _ r | .and _ r | .comparison _ r | .equality _ r => [r]
  | _ => []

variable [Behaviour]

/-- What a request does to the space. -/
def run : Request → SpaceM Unit
  | .read d => do let _ ← d.readRoot
  | .readKind kind d => do let _ ← Definition.readKind kind d
  | .unknown => do let _ ← SpaceM.unknown
  | .never => do let _ ← SpaceM.never
  | .union nodes => do let _ ← Node.union nodes
  | .adopt node => do let _ ← Node.adopt node
  | .intersect l r => do let _ ← Node.intersect l r
  | .and l r => do let _ ← Node.and l r
  | .comparison l r => do let _ ← Node.extends? l r
  | .equality l r => do let _ ← Node.equals l r
  | .constrain node kind d => do let _ ← Node.constrain node kind d
  | .describe node description => do let _ ← Node.withDescription node description
  | .project side node => do let _ ← Node.project side node
  | .register thing => modify fun space => { space with registry := (space.registry.register thing).2 }

theorem register_spec {ground : Prop} {space : Space} (thing : Registered) :
    Always ground space (run (.register thing)) fun _ _ => True := by
  intro later hvalid _
  have hext := Registry.register_extends later.registry thing
  refine ⟨⟨Registry.register_lawful hvalid.lawful thing, hvalid.nodup, hvalid.named, fun node hnode => ?_,
    hvalid.closed, hvalid.home, hvalid.numbered, hvalid.serials, hvalid.labelled, hvalid.labels,
    hvalid.counted, hvalid.full, hvalid.canonical⟩,
    ⟨rfl, rfl, hext, fun _ h => h, fun _ h => h, .of_subset rfl fun _ h => h⟩, fun _ _ => trivial, False.elim,
    fun _ => nofun, fun _ h => h, nofun⟩
  exact (hvalid.written node hnode).extends hext

omit [Behaviour] in
/-- The union without branches is canonical. -/
theorem never_reads {ground : Prop} {space : Space} : Reads ground space SpaceM.never :=
  (@Always.intern ground space .never .none (List.forall_mem_nil _) ⟨fun _ => .nil, rfl, nofun⟩ .nil
    (List.forall_mem_nil _)).imp fun _ _ => And.left

/-- No request makes a valid space invalid, nor does it end in an internal error where the space stays regular. -/
theorem run_spec {ground : Prop} {space : Space} (request : Request)
    (hresidents : ∀ n ∈ request.residents, space.Holds n) (hguests : ∀ n ∈ request.guests, Welcome ground space n) :
    Always ground space request.run fun _ _ => True := by
  have hdone {α : Type} {x : SpaceM α} {Q : Space → α → Prop} (hx : Always ground space x Q) :
      Always ground space (do let _ ← x) fun _ _ => True := hx.bind fun _ _ _ _ => .pure fun _ _ => trivial
  cases request with
  | read d => exact hdone (Definition.readRoot_spec d hguests)
  | readKind kind d => exact hdone (Definition.readKind_spec kind d hguests)
  | unknown => exact hdone Definition.unknown_reads
  | never => exact hdone never_reads
  | union nodes => exact hdone (Node.union_reads hguests)
  | adopt node => exact hdone (Node.adopt_always (hguests node List.mem_cons_self))
  | intersect l r =>
      exact hdone (Node.intersect_always (hresidents l List.mem_cons_self) (hguests r List.mem_cons_self))
  | and l r => exact hdone (Node.and_always (hresidents l List.mem_cons_self) (hguests r List.mem_cons_self))
  | comparison l r =>
      exact hdone (Node.extends?_always (hresidents l List.mem_cons_self) (hguests r List.mem_cons_self))
  | equality l r => exact hdone (Node.equals_always (hguests r List.mem_cons_self))
  | constrain node kind d => exact hdone (Node.constrain_reads (hresidents node List.mem_cons_self) hguests)
  | describe node description =>
      exact hdone (Node.withDescription_reads (hresidents node List.mem_cons_self) description)
  | project side node => exact hdone (Node.project_spec side node space (hresidents node List.mem_cons_self))
  | register thing => exact register_spec thing

end Request

-- ---------------------------------------------------------------------------
-- Lifetime
-- ---------------------------------------------------------------------------

namespace Space

/-- Whether a number belongs to a node that is found in one of the nodes. -/
def Numbered (nodes : List Node) (serial : Nat) : Prop :=
  ∃ n ∈ nodes, ∃ found, n.Reaches found ∧ found.profile.serial = serial

theorem numbered_nil {serial : Nat} : ¬ Numbered [] serial := nofun

theorem numbered_cons {node : Node} {rest : List Node} {serial : Nat} :
    Numbered (node :: rest) serial ↔ Numbered [node] serial ∨ Numbered rest serial := by
  simp [Numbered]

theorem numbered_append {a b : List Node} {serial : Nat} :
    Numbered (a ++ b) serial ↔ Numbered a serial ∨ Numbered b serial := by
  simp [Numbered, or_and_right, exists_or]

/-- A node numbers itself and what its children number. -/
theorem numbered_node {content : Content Node} {caption : Caption} {profile : Profile} {serial : Nat} :
    Numbered [.mk content caption profile] serial ↔ profile.serial = serial ∨ Numbered content.children serial := by
  constructor
  · rintro ⟨n, hn, found, hfound, hserial⟩
    rw [List.mem_singleton.mp hn] at hfound
    cases hfound with
    | refl => exact .inl hserial
    | child hc hfound => exact .inr ⟨_, hc, found, hfound, hserial⟩
  · rintro (hserial | ⟨c, hc, found, hfound, hserial⟩)
    · exact ⟨_, List.mem_cons_self, _, .refl _, hserial⟩
    · exact ⟨_, List.mem_cons_self, found, .child hc hfound, hserial⟩

/-- Collecting from a list of nodes, each of which collects what it numbers. -/
theorem mem_collectList {nodes : List Node} {serial : Nat}
    (h : ∀ n ∈ nodes, ∀ seen, serial ∈ collect n seen ↔ serial ∈ seen ∨ Numbered [n] serial)
    (seen : Std.HashSet Nat) : serial ∈ collectList nodes seen ↔ serial ∈ seen ∨ Numbered nodes serial := by
  induction nodes generalizing seen with
  | nil => simp [collectList, numbered_nil]
  | cons node rest ih =>
      obtain ⟨hnode, hrest⟩ := List.forall_mem_cons.mp h
      rw [collectList, ih hrest, hnode, or_assoc, ← numbered_cons]

theorem mem_collectOption {node : Option Node} {serial : Nat}
    (h : ∀ n ∈ node.toList, ∀ seen, serial ∈ collect n seen ↔ serial ∈ seen ∨ Numbered [n] serial)
    (seen : Std.HashSet Nat) :
    serial ∈ collectOption node seen ↔ serial ∈ seen ∨ Numbered node.toList serial := by
  cases node with
  | none => simp [collectOption, numbered_nil]
  | some node => exact h node List.mem_cons_self seen

/-- What is collected from a node are the numbers of the nodes in it. -/
theorem mem_collect (node : Node) (serial : Nat) (seen : Std.HashSet Nat) :
    serial ∈ collect node seen ↔ serial ∈ seen ∨ Numbered [node] serial := by
  induction node using Node.induct generalizing seen with
  | step content caption profile ih =>
      have hcontent (seen : Std.HashSet Nat) :
          serial ∈ collectContent content seen ↔ serial ∈ seen ∨ Numbered content.children serial := by
        cases content with
        | union branches ordered => exact mem_collectList ih seen
        | morph input output transforms =>
            obtain ⟨hinput, houtput⟩ := List.forall_mem_cons.mp ih
            rw [collectContent, mem_collectOption houtput, hinput, or_assoc, ← numbered_cons, Content.children]
        | intersection basis constraints =>
            obtain ⟨hbasis, hconstraints⟩ := List.forall_mem_append.mp ih
            rw [collectContent, mem_collectList hconstraints, mem_collectOption hbasis, Content.children,
              numbered_append, or_assoc]
        | required key value => exact ih value List.mem_cons_self seen
        | optional key value => exact ih value List.mem_cons_self seen
        | _ => exact (or_iff_left numbered_nil).symm
      rw [collect, hcontent, Std.HashSet.mem_insert, numbered_node, beq_iff_eq, or_assoc, or_left_comm]

variable {space : Space}

theorem mem_reached {roots : List Node} {serial : Nat} (seen : Std.HashSet Nat) :
    serial ∈ roots.foldl (fun seen root => collect root seen) seen ↔ serial ∈ seen ∨ Numbered roots serial := by
  induction roots generalizing seen with
  | nil => simp [numbered_nil]
  | cons root rest ih => rw [List.foldl_cons, ih, mem_collect, or_assoc, ← numbered_cons]

/-- Where nobody holds on to anything, every node dies. -/
theorem sweep_nil (space : Space) :
    space.sweep [] = { space with entries := space.entries.map fun entry => ⟨entry.id, none⟩ } := by
  refine congrArg (fun entries => { space with entries }) (List.map_congr_left fun entry _ => ?_)
  obtain ⟨id, _ | node⟩ := entry
  · rfl
  · simp only [List.filter_nil, List.foldl_nil, Std.HashSet.contains_empty, Bool.false_eq_true, if_false]

/-- The nodes that sweeping leaves alive. -/
theorem holds_sweep {roots : List Node} {node : Node} : (space.sweep roots).Holds node ↔
    space.Holds node ∧ Numbered (roots.filter fun root => root.space = space.number) node.profile.serial := by
  unfold Holds sweep
  simp only [List.mem_map]
  constructor
  · rintro ⟨_, ⟨entry, hentry, rfl⟩, hnode⟩
    cases hn : entry.node with
    | none => rw [hn] at hnode; simp only at hnode; rw [hn] at hnode; cases hnode
    | some n =>
        rw [hn] at hnode
        dsimp only at hnode
        split at hnode
        · rename_i hreached
          rw [hn] at hnode
          cases hnode
          rw [Std.HashSet.contains_iff_mem, mem_reached] at hreached
          exact ⟨⟨entry, hentry, hn⟩, hreached.resolve_left Std.HashSet.not_mem_empty⟩
        · cases hnode
  · rintro ⟨⟨entry, hentry, hnode⟩, hreached⟩
    refine ⟨_, ⟨entry, hentry, rfl⟩, ?_⟩
    rw [hnode]
    dsimp only
    rw [if_pos (Std.HashSet.contains_iff_mem.mpr ((mem_reached _).mpr (.inr hreached)))]
    exact hnode

theorem Tidy.sweep (h : space.Tidy) (roots : List Node) : (space.sweep roots).Tidy where
  nodup := by
    have hids : (space.sweep roots).entries.map Entry.id = space.entries.map Entry.id := by
      unfold Space.sweep
      rw [List.map_map]
      refine List.map_congr_left fun entry _ => ?_
      cases hn : entry.node with
      | none => simp only [Function.comp, hn]
      | some n => simp only [Function.comp, hn]; split <;> rfl
    rw [hids]
    exact h.nodup
  named := by
    intro entry hentry node hnode
    obtain ⟨old, hold, rfl⟩ := List.mem_map.mp hentry
    cases hn : old.node with
    | none => rw [hn] at hnode; simp only at hnode; rw [hn] at hnode; cases hnode
    | some n =>
        simp only [hn] at hnode ⊢
        split at hnode
        · rename_i hreached
          rw [if_pos hreached]
          exact h.named old hold node hnode
        · cases hnode

/-- Nodes that are swept away are in nothing that stays. -/
theorem Valid.sweep (h : space.Valid) {roots : List Node}
    (hroots : ∀ root ∈ roots, root.space = space.number → space.Holds root) : (space.sweep roots).Valid where
  lawful := h.lawful
  nodup := (h.tidy.sweep roots).nodup
  named := (h.tidy.sweep roots).named
  written := fun node hnode => h.written node (holds_sweep.mp hnode).1
  closed := by
    intro node hnode c hc
    obtain ⟨hnode, root, hroot, found, hfound, hserial⟩ := holds_sweep.mp hnode
    have hc' := h.closed node hnode c hc
    obtain ⟨hmem, hhome⟩ := List.mem_filter.mp hroot
    have hheld := h.reaches hfound (hroots root hmem (by simpa using hhome))
    have hsame := h.serials found node hheld hnode hserial
    rw [← hsame] at hc
    refine holds_sweep.mpr ⟨hc', root, hroot, c, ?_, rfl⟩
    clear hserial hsame hheld hhome hmem hroot
    induction hfound with
    | refl => exact .child hc (.refl c)
    | child hchild _ ih => exact .child hchild (ih hc)
  home := fun node hnode => h.home node (holds_sweep.mp hnode).1
  numbered := fun node hnode => h.numbered node (holds_sweep.mp hnode).1
  serials := fun a b ha hb => h.serials a b (holds_sweep.mp ha).1 (holds_sweep.mp hb).1
  labelled := fun node hnode => h.labelled node (holds_sweep.mp hnode).1
  labels := fun a b ha hb => h.labels a b (holds_sweep.mp ha).1 (holds_sweep.mp hb).1
  counted := h.counted
  full := h.full
  canonical := fun node hnode => h.canonical node (holds_sweep.mp hnode).1

theorem holds_prune {node : Node} : space.prune.Holds node ↔ space.Holds node := by
  constructor
  · rintro ⟨entry, hentry, hnode⟩
    exact ⟨entry, (List.mem_filter.mp hentry).1, hnode⟩
  · rintro ⟨entry, hentry, hnode⟩
    exact ⟨entry, List.mem_filter.mpr ⟨hentry, by rw [hnode]; rfl⟩, hnode⟩

theorem Tidy.prune (h : space.Tidy) : space.prune.Tidy where
  nodup := h.nodup.sublist (List.filter_sublist.map _)
  named := fun entry hentry => h.named entry (List.mem_filter.mp hentry).1

theorem Valid.prune (h : space.Valid) : space.prune.Valid where
  lawful := h.lawful
  nodup := h.tidy.prune.nodup
  named := h.tidy.prune.named
  written := fun node hnode => h.written node (holds_prune.mp hnode)
  closed := fun node hnode c hc => holds_prune.mpr (h.closed node (holds_prune.mp hnode) c hc)
  home := fun node hnode => h.home node (holds_prune.mp hnode)
  numbered := fun node hnode => h.numbered node (holds_prune.mp hnode)
  serials := fun a b ha hb => h.serials a b (holds_prune.mp ha) (holds_prune.mp hb)
  labelled := fun node hnode => h.labelled node (holds_prune.mp hnode)
  labels := fun a b ha hb => h.labels a b (holds_prune.mp ha) (holds_prune.mp hb)
  counted := h.counted
  full := h.full
  canonical := fun node hnode => h.canonical node (holds_prune.mp hnode)

-- ---------------------------------------------------------------------------
-- Reachable spaces
-- ---------------------------------------------------------------------------

variable [Behaviour]

/-- The spaces that come about by requests, sweeping and pruning. Whether nodes of other spaces may be handed to
requests is said by `adopting`; these nodes come from spaces that came about in the same way. -/
inductive Reachable (adopting : Prop) : Space → Prop where
  | new (number : Nat) (config : SpaceConfig) : Reachable adopting (new number config)
  | request {space : Space} (request : Request) (origin : Node → Space) (h : Reachable adopting space)
      (horigin : ∀ n, Reachable adopting (origin n)) (hresidents : ∀ n ∈ request.residents, space.Holds n)
      (hguests : ∀ n ∈ request.guests,
        space.Holds n ∨ adopting ∧ (origin n).number ≠ space.number ∧ (origin n).Holds n) :
      Reachable adopting (request.run.exec space).2
  | sweep {space : Space} (roots : List Node) (h : Reachable adopting space)
      (hroots : ∀ root ∈ roots, root.space = space.number → space.Holds root) :
      Reachable adopting (space.sweep roots)
  | prune {space : Space} (h : Reachable adopting space) : Reachable adopting space.prune

omit [Behaviour] in
/-- A node of a valid space is foreign to every other. -/
theorem Valid.foreign (h : space.Valid) {node : Node} (hnode : space.Holds node) {number : Nat}
    (hne : space.number ≠ number) : node.Foreign number := by
  intro found hfound
  have hheld := h.reaches hfound hnode
  refine ⟨⟨(h.written found hheld).sound, h.canonical found hheld⟩, ?_⟩
  rw [h.home found hheld]
  exact hne

omit [Behaviour] in
/-- What may be handed to a request is welcome in a valid space. -/
theorem welcome_of_origin {adopting : Prop} {origin : Space} {node : Node} (horigin : origin.Valid)
    (h : space.Holds node ∨ adopting ∧ origin.number ≠ space.number ∧ origin.Holds node) :
    Welcome (¬ adopting) space node := by
  rcases h with h | ⟨hadopting, hne, h⟩
  · exact .inl h
  · exact .inr ⟨not_not_intro hadopting, horigin.foreign h hne⟩

/-- Every reachable space is valid. -/
theorem Reachable.valid {adopting : Prop} (h : space.Reachable adopting) : space.Valid := by
  induction h with
  | new number config => exact valid_new number config
  | request request origin _ _ hresidents hguests ih ihorigin =>
      have hwelcome (n : Node) (hn : n ∈ request.guests) := welcome_of_origin (ihorigin n) (hguests n hn)
      exact (request.run_spec hresidents hwelcome _ ih (.refl _)).valid
  | sweep roots _ hroots ih => exact ih.sweep hroots
  | prune _ ih => exact ih.prune

/-- The branches of every union are of different types where nothing is adopted. -/
theorem Reachable.distinct {adopting : Prop} (h : space.Reachable adopting) (hnone : ¬ adopting) : space.Distinct := by
  induction h with
  | new number config => exact nofun
  | request request origin hspace horigin hresidents hguests ih ihorigin =>
      have hwelcome (n : Node) (hn : n ∈ request.guests) := welcome_of_origin (horigin n).valid (hguests n hn)
      exact (request.run_spec hresidents hwelcome _ hspace.valid (.refl _)).distinct hnone ih
  | sweep roots _ hroots ih => exact fun node hnode => ih node (holds_sweep.mp hnode).1
  | prune _ ih => exact fun node hnode => ih node (holds_prune.mp hnode)

/-- After a request about nodes of its own, the space is reachable and holds all it held. -/
theorem Reachable.after {adopting : Prop} (h : space.Reachable adopting) {request : Request} {α : Type} {x : SpaceM α}
    (hrun : request.run = do let _ ← x) (hresidents : ∀ n ∈ request.residents, space.Holds n)
    (hguests : ∀ n ∈ request.guests, space.Holds n) :
    (x.exec space).2.Reachable adopting ∧ (x.exec space).2.Extends space := by
  have hspec := @Request.run_spec _ False space request hresidents (fun n hn => .inl (hguests n hn)) space h.valid (.refl space)
  rw [← SpaceM.exec_discard, ← hrun]
  exact ⟨.request request (fun _ => space) h (fun _ => h) hresidents fun n hn => .inl (hguests n hn), hspec.extension⟩

/-- After a request that gives a node, the space is reachable, and holds the node next to all it held. -/
theorem Reachable.answer {adopting : Prop} (h : space.Reachable adopting) {request : Request} {x : SpaceM Node}
    (hrun : request.run = do let _ ← x) (hx : Reads False space x) (hresidents : ∀ n ∈ request.residents, space.Holds n)
    (hguests : ∀ n ∈ request.guests, space.Holds n) :
    (x.exec space).2.Reachable adopting ∧ (x.exec space).2.Extends space ∧
      ∀ n, (x.exec space).1 = .ok n → (x.exec space).2.Holds n := by
  obtain ⟨hreachable, hext⟩ := h.after hrun hresidents hguests
  exact ⟨hreachable, hext, (hx space h.valid (.refl space)).result⟩

theorem Reachable.read {adopting : Prop} (h : space.Reachable adopting) {d : Definition}
    (hd : ∀ n ∈ d.nodes, space.Holds n) :
    (d.readRoot.exec space).2.Reachable adopting ∧ (d.readRoot.exec space).2.Extends space ∧
      ∀ n, (d.readRoot.exec space).1 = .ok n → (d.readRoot.exec space).2.Holds n :=
  @Reachable.answer space _ adopting h (.read d) d.readRoot rfl
    (Definition.readRoot_spec d fun n hn => .inl (hd n hn)) (List.forall_mem_nil _) hd

/-- Two definitions without nodes, read one after the other: the space holds what both give. -/
theorem Reachable.read_both {adopting : Prop} (h : space.Reachable adopting) {d d' : Definition} (hd : d.nodes = [])
    (hd' : d'.nodes = []) {l r : Node} (hl : (d.readRoot.exec space).1 = .ok l)
    (hr : (d'.readRoot.exec (d.readRoot.exec space).2).1 = .ok r) :
    (d'.readRoot.exec (d.readRoot.exec space).2).2.Reachable adopting ∧
      (d'.readRoot.exec (d.readRoot.exec space).2).2.Holds l ∧
      (d'.readRoot.exec (d.readRoot.exec space).2).2.Holds r := by
  obtain ⟨hfirst, -, hholds⟩ := h.read (d := d) (by rw [hd]; exact List.forall_mem_nil _)
  obtain ⟨hsecond, hext, hholds'⟩ := hfirst.read (d := d') (by rw [hd']; exact List.forall_mem_nil _)
  exact ⟨hsecond, hext.holds l (hholds l hl), hholds' r hr⟩

theorem Reachable.readKind {adopting : Prop} (h : space.Reachable adopting) {kind : Kind} {d : Definition}
    (hd : ∀ n ∈ d.nodes, space.Holds n) :
    ((Definition.readKind kind d).exec space).2.Reachable adopting ∧
      ((Definition.readKind kind d).exec space).2.Extends space ∧
      ∀ n, ((Definition.readKind kind d).exec space).1 = .ok n → ((Definition.readKind kind d).exec space).2.Holds n :=
  @Reachable.answer space _ adopting h (.readKind kind d) (Definition.readKind kind d) rfl
    ((Definition.readKind_spec kind d fun n hn => .inl (hd n hn)).imp fun _ _ => And.left) (List.forall_mem_nil _) hd

end Space

end SchemaAlgebra
