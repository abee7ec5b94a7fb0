-- SUMMARY: Nodes of one type are the same to the algebra: in any later state, operations on them give what they gave before.
import SchemaAlgebra.Proofs.Exactness
import SchemaAlgebra.Proofs.References
import SchemaAlgebra.Proofs.SteadyUnions

/-!
# Congruence

Nodes of one type can differ in their captions, and in those of the nodes in them.
Whatever is asked about nodes gives the same for any others of their types: nodes of
one type, the same conflict, or errors of one variant. The second time it is asked in
a later state of the space, when anything may have happened in between.
-/

namespace SchemaAlgebra

open SpaceM (Always Lockstep)

-- ---------------------------------------------------------------------------
-- Later states
-- ---------------------------------------------------------------------------

namespace Space

/-- A later state of a space, whatever became of its nodes: it has the same settings, and names that were given are
kept. -/
structure Succeeds (later earlier : Space) : Prop where
  config : later.config = earlier.config
  registry : later.registry.Extends earlier.registry

theorem Succeeds.refl (space : Space) : space.Succeeds space := ⟨rfl, .refl _⟩

theorem Succeeds.trans {a b c : Space} (h : c.Succeeds b) (h' : b.Succeeds a) : c.Succeeds a :=
  ⟨h.config.trans h'.config, h.registry.trans h'.registry⟩

/-- A space that only went on is a later state. -/
theorem Continues.succeeds {later earlier : Space} (h : later.Continues earlier) : later.Succeeds earlier :=
  ⟨h.config, h.registry.extends⟩

end Space

/-- A session only goes on to later states of its space. -/
theorem Session.Run.succeeds [Behaviour] {checked : Prop} {session later : Session} (h : Run checked session later)
    (hkept : session.Kept checked) : later.space.Succeeds session.space :=
  (h.continues hkept).succeeds

namespace Node

open Space (Twins Abreast)

section

variable {left right : Space} {l l' r r' : Node} (habreast : Abreast left right)

include habreast

-- ---------------------------------------------------------------------------
-- Adoption
-- ---------------------------------------------------------------------------

/-- A node of the space is itself. -/
theorem adopt_lockstep (h : Twins left right l l') :
    Lockstep left right (adopt l) (adopt l') (Twins left right) where
  grows := adopt_inherits .grows l (.inl trivial)
  grows' := adopt_inherits .grows l' (.inl trivial)
  agree := by
    intro space other htidy htidy' hext hext'
    have hnumber := (hext.trans (adopt_inherits .grows l (.inl trivial) space htidy).2).number
    have hnumber' := (hext'.trans (adopt_inherits .grows l' (.inl trivial) other htidy').2).number
    rw [exec_adopt_home ((habreast.valid.home l h.holds).trans hnumber),
      exec_adopt_home ((habreast.valid'.home l' h.holds').trans hnumber')]
    exact .ok h

theorem adoptList_lockstep {nodes nodes' : List Node} (h : List.Forall₂ (Twins left right) nodes nodes') :
    Lockstep left right (adoptList nodes) (adoptList nodes') (List.Forall₂ (Twins left right)) := by
  induction h with
  | nil => exact .pure .nil
  | cons hn _ ih =>
      have hgrows (nodes : List Node) : (adoptList nodes).Grows := adoptAll_inherits .grows nodes (.inl trivial)
      exact (adopt_lockstep habreast hn).bind (fun _ => .bind (hgrows _) fun _ => .pure _)
        (fun _ => .bind (hgrows _) fun _ => .pure _) fun _ _ hfirst => ih.map fun _ _ hrest => .cons hfirst hrest

theorem listNesting_eq {nodes nodes' : List Node} (h : List.Forall₂ (Twins left right) nodes nodes') :
    listNesting nodes = listNesting nodes' := by
  induction h with
  | nil => rfl
  | cons hn _ ih => rw [listNesting, listNesting, hn.nesting_eq habreast, ih]

-- ---------------------------------------------------------------------------
-- Operations
-- ---------------------------------------------------------------------------

variable [Behaviour] (hblind : BlindToSign)

include hblind

theorem intersect_lockstep (hl : Twins left right l l') (hr : Twins left right r r') :
    Lockstep left right (intersect l r) (intersect l' r') (Intersected.Related (Twins left right)) := by
  have hgrows (l r : Node) : (meetHere l r).Grows :=
    meetBy_inherits .grows (meetUnions_inherits .grows (conjoinWithin_inherits .grows _)) l r
  refine (adopt_lockstep habreast hr).bind (hgrows l) (hgrows l') fun n n' hn => ?_
  have hmeet := conjoinWithin_steady habreast hblind (Nat.max l.nesting n.nesting)
  rw [meetHere, meetHere, ← hl.nesting_eq habreast, ← hn.nesting_eq habreast]
  exact meetBy_lockstep habreast hl hn
    ⟨meetUnions_inherits .grows hmeet.grows, meetUnions_lockstep habreast hblind hmeet⟩

theorem conjoin_lockstep (hl : Twins left right l l') (hr : Twins left right r r') :
    Lockstep left right (conjoin l r) (conjoin l' r') (Intersected.Related (Twins left right)) := by
  refine (adopt_lockstep habreast hr).bind (fun _ => conjoinWithin_inherits .grows _ _ _)
    (fun _ => conjoinWithin_inherits .grows _ _ _)
    fun n n' hn => ?_
  rw [conjoinHere, conjoinHere, ← hl.nesting_eq habreast, ← hn.nesting_eq habreast]
  exact (conjoinWithin_steady habreast hblind _).agree hl hn

theorem and_lockstep (hl : Twins left right l l') (hr : Twins left right r r') :
    Lockstep left right (and l r) (and l' r') (Twins left right) :=
  (conjoin_lockstep habreast hblind hl hr).onOutcome (fun _ => .pure _) (fun _ => .pure _) (fun _ => .throw _)
    (fun _ => .throw _) (fun _ _ hn => .pure hn) (fun _ _ hd => .throw (.unsatisfiable hd)) (.internalError _ _)

theorem extends?_lockstep (hl : Twins left right l l') (hr : Twins left right r r') :
    Lockstep left right (extends? l r) (extends? l' r') (· = ·) :=
  (conjoin_lockstep habreast hblind hl hr).onNode (fun _ => .pure _) (fun _ => .pure _) (fun _ => .pure _)
    (fun _ => .pure _) (fun _ _ hn => .pure (sameType_eq hn hl)) fun _ _ _ => .pure rfl

theorem assembleUnion_joined {caption caption' : Caption}
    (hcaptions : caption'.isEmpty = true → caption.isEmpty = true) {branches branches' : List Node}
    (h : List.Forall₂ (Twins left right) branches branches') (ordered : Bool) :
    Lockstep left right (assembleUnion branches ordered caption) (assembleUnion branches' ordered caption')
      (Joined left right caption caption') := by
  rw [assembleUnion, assembleUnion, ← listNesting_eq habreast h]
  exact assembleUnionBy_joined habreast
    (conjoinBranches_steady habreast hblind (conjoinWithin_steady habreast hblind _)) hcaptions h ordered

theorem assembleUnion_lockstep {branches branches' : List Node}
    (h : List.Forall₂ (Twins left right) branches branches') (ordered : Bool) :
    Lockstep left right (assembleUnion branches ordered .none) (assembleUnion branches' ordered .none)
      (Twins left right) :=
  (assembleUnion_joined habreast hblind (fun h => h) h ordered).imp fun _ _ => Joined.twins_of_eq

theorem ofDefinition_lockstep {basis basis' : Option Node} (hbasis : Option.Rel (Twins left right) basis basis')
    {refinements refinements' : List Node} (h : List.Forall₂ (Twins left right) refinements refinements')
    (caption caption' : Caption) :
    Lockstep left right (ofDefinition basis refinements caption) (ofDefinition basis' refinements' caption')
      (Twins left right) := by
  have hrules : List.Forall₂ (Twins left right) (basis.toList ++ refinements) (basis'.toList ++ refinements') := by
    refine List.rel_append ?_ h
    cases hbasis with
    | none => exact .nil
    | some hb => exact .cons hb .nil
  rw [ofDefinition, ofDefinition, ← listNesting_eq habreast hrules]
  exact ofDefinitionBy_lockstep habreast hblind (conjoinWithin_steady habreast hblind _) caption caption' hrules

theorem or_lockstep (hl : Twins left right l l') (hr : Twins left right r r') :
    Lockstep left right (or l r) (or l' r') (Twins left right) :=
  (adoptList_lockstep habreast (.cons hl (.cons hr .nil))).bind (fun _ => assembleUnion_inherits .grows _ _ _)
    (fun _ => assembleUnion_inherits .grows _ _ _) fun _ _ h => assembleUnion_lockstep habreast hblind h false

-- ---------------------------------------------------------------------------
-- Projection
-- ---------------------------------------------------------------------------

theorem combineProjected_lockstep {rules rules' : List Node} (h : List.Forall₂ (Twins left right) rules rules') :
    Lockstep left right (combineProjected rules) (combineProjected rules') (Twins left right) := by
  have hcombine : Lockstep left right (combine rules) (combine rules') (Intersected.Related (Twins left right)) := by
    rw [combine, combine, ← listNesting_eq habreast h]
    exact combineBy_lockstep habreast hblind (conjoinWithin_steady habreast hblind _) h
  exact hcombine.onOutcome (fun _ => .pure _) (fun _ => .pure _) (fun _ => .throw _) (fun _ => .throw _)
    (fun _ _ hn => .pure hn) (fun _ _ hd => .throw (.unsatisfiable hd)) (.intern habreast (.intersection .none .nil))

omit habreast hblind in
theorem projectList_lockstep {side : Projection} {nodes nodes' : List Node}
    (h : List.Forall₂ (Twins left right) nodes nodes')
    (hproject : ∀ n ∈ nodes, ∀ n', Twins left right n n' →
      Lockstep left right (project side n) (project side n') (Twins left right)) :
    Lockstep left right (projectList side nodes) (projectList side nodes') (List.Forall₂ (Twins left right)) := by
  induction h with
  | nil => exact .pure .nil
  | cons hn _ ih =>
      obtain ⟨hfirst, hrest⟩ := List.forall_mem_cons.mp hproject
      have hgrows (nodes : List Node) : (projectList side nodes).Grows :=
        projectList_inherits .grows fun n _ => project_inherits .grows (fun _ => .throw _) side n
      exact (hfirst _ hn).bind (fun _ => .bind (hgrows _) fun _ => .pure _)
        (fun _ => .bind (hgrows _) fun _ => .pure _) fun _ _ hn => (ih hrest).map fun _ _ => .cons hn

omit habreast hblind in
theorem projectOption_lockstep {side : Projection} {node node' : Option Node}
    (h : Option.Rel (Twins left right) node node')
    (hproject : ∀ n ∈ node.toList, ∀ n', Twins left right n n' →
      Lockstep left right (project side n) (project side n') (Twins left right)) :
    Lockstep left right (projectOption side node) (projectOption side node') (Option.Rel (Twins left right)) := by
  cases h with
  | none => exact .pure .none
  | some hn => exact (hproject _ List.mem_cons_self _ hn).map fun _ _ => .some

/-- Projecting the contents of nodes of one type. -/
theorem projectContent_lockstep {side : Projection} {content content' : Content Node}
    (h : Twins left right l l') (hcontent : content.Related (Twins left right) content')
    (hproject : ∀ n ∈ content.children, ∀ n', Twins left right n n' →
      Lockstep left right (project side n) (project side n') (Twins left right)) :
    Lockstep left right (projectContent side l content) (projectContent side l' content') (Twins left right) := by
  cases hcontent with
  | union ordered hbranches =>
      exact (projectList_lockstep hbranches hproject).bind (fun _ => assembleUnion_inherits .grows _ _ _)
        (fun _ => assembleUnion_inherits .grows _ _ _) fun _ _ h => assembleUnion_lockstep habreast hblind h ordered
  | morph transforms hinput houtput =>
      cases side with
      | input => exact .pure hinput
      | output =>
          cases houtput with
          | none => exact .intern habreast (.intersection .none .nil)
          | some ho => exact .pure ho
  | intersection hbasis hconstraints =>
      obtain ⟨hprojectBasis, hprojects⟩ := List.forall_mem_append.mp hproject
      have hgrows (nodes : List Node) : (projectList side nodes).Grows :=
        projectList_inherits .grows fun n _ => project_inherits .grows (fun _ => .throw _) side n
      refine (projectOption_lockstep hbasis hprojectBasis).bind
        (fun _ => .bind (hgrows _) fun _ => combineProjected_inherits .grows (fun _ => .throw _) _)
        (fun _ => .bind (hgrows _) fun _ => combineProjected_inherits .grows (fun _ => .throw _) _) fun basis basis' hbasis => ?_
      refine (projectList_lockstep hconstraints hprojects).bind (fun _ => combineProjected_inherits .grows (fun _ => .throw _) _)
        (fun _ => combineProjected_inherits .grows (fun _ => .throw _) _) fun rules rules' hrules => ?_
      exact combineProjected_lockstep habreast hblind (Content.Related.intersection hbasis hrules).children
  | required key hvalue =>
      exact (hproject _ List.mem_cons_self _ hvalue).bind (fun _ => .intern _ _) (fun _ => .intern _ _)
        fun _ _ hn => .intern habreast (.required key hn)
  | optional key hvalue =>
      exact (hproject _ List.mem_cons_self _ hvalue).bind (fun _ => .intern _ _) (fun _ => .intern _ _)
        fun _ _ hn => .intern habreast (.optional key hn)
  | _ => exact .pure h

theorem project_lockstep (side : Projection) (h : Twins left right l l') :
    Lockstep left right (project side l) (project side l') (Twins left right) := by
  induction l using induct generalizing l' with
  | step content caption profile ih =>
      have hcontent := h.content habreast
      have hmorph := h.includesMorph_eq habreast
      cases l' with
      | mk content' caption' profile' =>
          unfold project
          exact .ite (by rw [show profile.includesMorph = profile'.includesMorph from hmorph])
            (projectContent_lockstep habreast hblind h hcontent fun n hn n' => ih n hn) (.pure h)

end

-- ---------------------------------------------------------------------------
-- Congruence
-- ---------------------------------------------------------------------------

/-- Nodes that mean the same by their type identifiers. -/
def OfOneType (a b : Node) : Prop := a.typeId = b.typeId

instance (a b : Node) : Decidable (a.OfOneType b) := inferInstanceAs (Decidable (a.typeId = b.typeId))

variable [Behaviour] {α β : Type} {space : Space}

/-- What was asked in a regular space gives the same, or an error of the same variant, when it is asked in a regular
later state about other nodes that are alive there. -/
def Recurs (space : Space) (x : SpaceM α) (nodes : List Node) (y : SpaceM β) (Q : α → β → Prop) : Prop :=
  ∀ later : Space, later.Reachable True → later.Succeeds (x.exec space).2 → (∀ n ∈ nodes, later.Holds n) →
    (x.exec space).2.Regular → (y.exec later).2.Regular →
      Agree (SchemaError.Related OfOneType) Q (x.exec space).1 (y.exec later).1

omit [Behaviour] in
/-- The spaces in which a run and another one in a later state end. -/
theorem abreast_of_runs {later : Space} (hspace : space.Valid) (hlater : later.Valid) {x : SpaceM α} {y : SpaceM β}
    {S : Space → α → Prop} {T : Space → β → Prop} (hx : Always False space x S) (hy : Always False later y T)
    (hsucceeds : later.Succeeds (x.exec space).2) (hregular : (x.exec space).2.Regular)
    (hregular' : (y.exec later).2.Regular) : Abreast (x.exec space).2 (y.exec later).2 := by
  have hfirst := hx space hspace (.refl space)
  have hsecond := hy later hlater (.refl later)
  exact ⟨hfirst.valid, hsecond.valid, hregular, hregular', hsecond.extension.registry.trans hsucceeds.registry,
    by rw [hsecond.extension.config, hsucceeds.config]⟩

/-- What keeps in step recurs. -/
theorem recurs_of_lockstep (hspace : space.Valid) {x : SpaceM α} {nodes : List Node} {y : SpaceM β}
    {P : Space → Space → α → β → Prop} {Q : α → β → Prop} {S : Space → α → Prop} {T : Space → Space → β → Prop}
    (hx : Always False space x S)
    (hy : ∀ later : Space, (∀ n ∈ nodes, later.Holds n) → Always False later y (T later))
    (hstep : ∀ left right : Space, Abreast left right → left.Extends space → (∀ n ∈ nodes, right.Holds n) →
      Lockstep left right x y (P left right))
    (hQ : ∀ left right a b, P left right a b → Q a b) : Recurs space x nodes y Q := by
  intro later hlater hsucceeds hheld hregular hregular'
  have hext := (hx space hspace (.refl space)).extension
  have hext' := (hy later hheld later hlater.valid (.refl later)).extension
  have habreast := abreast_of_runs hspace hlater.valid hx (hy later hheld) hsucceeds hregular hregular'
  have hlockstep := hstep _ _ habreast hext fun n hn => hext'.holds n (hheld n hn)
  exact (hlockstep.agree space later hspace.tidy hlater.valid.tidy (.refl _) (.refl _)).imp
    (fun _ _ => SchemaError.Related.imp fun _ _ hn => hn.typeId) (hQ _ _)

/-- Equality of types is a congruence for the algebra: whatever is asked about two nodes of a space gives the same when
it is asked later about nodes of their types, which may differ from them in their captions and in those of the nodes in
them. -/
theorem algebra_congruence (hblind : BlindToSign) (hspace : space.Reachable True) {l l' r r' : Node}
    (hl : space.Holds l) (hr : space.Holds r) (htype : l.OfOneType l') (htype' : r.OfOneType r') :
    Recurs space (intersect l r) [l', r'] (intersect l' r') (Intersected.Related OfOneType) ∧
      Recurs space (and l r) [l', r'] (and l' r') OfOneType ∧
      Recurs space (or l r) [l', r'] (or l' r') OfOneType ∧
      Recurs space (extends? l r) [l', r'] (extends? l' r') (· = ·) ∧
      ∀ side, Recurs space (project side l) [l'] (project side l') OfOneType := by
  have hboth {later : Space} (h : ∀ n ∈ [l', r'], later.Holds n) : later.Holds l' ∧ later.Holds r' :=
    ⟨h l' List.mem_cons_self, h r' (List.mem_cons_of_mem _ List.mem_cons_self)⟩
  have htwins {left right : Space} {a b : Node} (hext : left.Extends space) (ha : space.Holds a) (hb : right.Holds b)
      (h : a.OfOneType b) : Twins left right a b := ⟨hext.holds a ha, hb, h⟩
  have hmembers {later : Space} {a b : Node} (ha : later.Holds a) (hb : later.Holds b) :
      ∀ n ∈ [a, b], Welcome False later n :=
    List.forall_mem_cons.mpr ⟨.inl ha, List.forall_mem_singleton.mpr (.inl hb)⟩
  have hvalid := hspace.valid
  refine ⟨?_, ?_, ?_, ?_, fun side => ?_⟩
  · exact recurs_of_lockstep hvalid (intersect_always hl (.inl hr))
      (fun later h => intersect_always (hboth h).1 (.inl (hboth h).2))
      (fun left right habreast hext h => intersect_lockstep habreast hblind (htwins hext hl (hboth h).1 htype)
        (htwins hext hr (hboth h).2 htype'))
      fun _ _ _ _ => Intersected.Related.imp fun _ _ hn => hn.typeId
  · exact recurs_of_lockstep hvalid (and_always hl (.inl hr))
      (fun later h => and_always (hboth h).1 (.inl (hboth h).2))
      (fun left right habreast hext h => and_lockstep habreast hblind (htwins hext hl (hboth h).1 htype)
        (htwins hext hr (hboth h).2 htype'))
      fun _ _ _ _ hn => hn.typeId
  · exact recurs_of_lockstep hvalid (union_reads (hmembers hl hr))
      (fun later h => union_reads (hmembers (hboth h).1 (hboth h).2))
      (fun left right habreast hext h => or_lockstep habreast hblind (htwins hext hl (hboth h).1 htype)
        (htwins hext hr (hboth h).2 htype'))
      fun _ _ _ _ hn => hn.typeId
  · exact recurs_of_lockstep hvalid (extends?_always hl (.inl hr))
      (fun later h => extends?_always (hboth h).1 (.inl (hboth h).2))
      (fun left right habreast hext h => extends?_lockstep habreast hblind (htwins hext hl (hboth h).1 htype)
        (htwins hext hr (hboth h).2 htype'))
      fun _ _ _ _ h => h
  · exact recurs_of_lockstep hvalid (project_spec side l space hl)
      (fun later h => project_spec side l' later (h l' List.mem_cons_self))
      (fun left right habreast hext h => project_lockstep habreast hblind side
        (htwins hext hl (h l' List.mem_cons_self) htype))
      fun _ _ _ _ hn => hn.typeId

omit [Behaviour] in
/-- Records of a number and records of the number 5, each with and without a description of what they hold: what was
asked about the ones gives the same about the others. -/
theorem described_count_recurs : ∃ (space : Space) (l l' r r' : Node), @Space.Reachable Stock.behaviour True space ∧
    space.Holds l ∧ space.Holds r ∧ l.id ≠ l'.id ∧ r.id ≠ r'.id ∧ l.OfOneType l' ∧ r.OfOneType r' ∧
      Agree (SchemaError.Related OfOneType) (Intersected.Related OfOneType)
        ((@intersect Stock.behaviour l r).exec space).1
        ((@intersect Stock.behaviour l' r').exec ((@intersect Stock.behaviour l r).exec space).2).1 ∧
      Agree (SchemaError.Related OfOneType) OfOneType ((@and Stock.behaviour l r).exec space).1
        ((@and Stock.behaviour l' r').exec ((@and Stock.behaviour l r).exec space).2).1 ∧
      Agree (SchemaError.Related OfOneType) OfOneType ((@or Stock.behaviour l r).exec space).1
        ((@or Stock.behaviour l' r').exec ((@or Stock.behaviour l r).exec space).2).1 ∧
      Agree (SchemaError.Related OfOneType) (· = ·) ((@extends? Stock.behaviour l r).exec space).1
        ((@extends? Stock.behaviour l' r').exec ((@extends? Stock.behaviour l r).exec space).2).1 ∧
      Agree (SchemaError.Related OfOneType) OfOneType ((@project Stock.behaviour .output l).exec space).1
        ((@project Stock.behaviour .output l').exec ((@project Stock.behaviour .output l).exec space).2).1 := by
  let _ := Stock.behaviour
  let described (text : String) (entries : List (String × Definition)) : Definition :=
    .map (("description", .string text) :: entries)
  let holding (d : Definition) : Definition :=
    .map [("domain", .string "object"), ("required", .map [("key", .string "a"), ("value", d)])]
  let count := holding (.string "number")
  let count' := holding (described "a count" [("domain", .string "number")])
  let five := holding (.map [("unit", .number (.ofNat 5))])
  let five' := holding (described "five" [("unit", .number (.ofNat 5))])
  let program : SpaceM Bool := do
    let l ← count.readRoot
    let l' ← count'.readRoot
    let r ← five.readRoot
    let r' ← five'.readRoot
    let space ← get
    let regular {α : Type} (x y : SpaceM α) : Bool := (x.exec space).2.Regular && (y.exec (x.exec space).2).2.Regular
    return decide (l.id ≠ l'.id ∧ r.id ≠ r'.id ∧ l.OfOneType l' ∧ r.OfOneType r') &&
      (regular (intersect l r) (intersect l' r') && (regular (and l r) (and l' r') && (regular (or l r) (or l' r') &&
        (regular (extends? l r) (extends? l' r') && regular (project .output l) (project .output l')))))
  have hyields : program.yields (.new 0 .standard) (fun b => b) = true := by
    decide +kernel
  obtain ⟨l, hl, hyields⟩ := SpaceM.yields_bind.mp hyields
  obtain ⟨l', hl', hyields⟩ := SpaceM.yields_bind.mp hyields
  obtain ⟨r, hr, hyields⟩ := SpaceM.yields_bind.mp hyields
  obtain ⟨r', hr', hyields⟩ := SpaceM.yields_bind.mp hyields
  rw [SpaceM.yields_get, SpaceM.yields_pure] at hyields
  simp only [Bool.and_eq_true, decide_eq_true_eq] at hyields
  obtain ⟨⟨hlId, hrId, hlType, hrType⟩, hintersect, hand, hor, hextends, hproject⟩ := hyields
  obtain ⟨hfirst, -, hheld⟩ := (@Space.Reachable.new _ True 0 .standard).read (d := count) (List.forall_mem_nil _)
  obtain ⟨hsecond, hext, hheld'⟩ := hfirst.read (d := count') (List.forall_mem_nil _)
  obtain ⟨hthird, hext', hheld''⟩ := hsecond.read (d := five) (List.forall_mem_nil _)
  obtain ⟨hspace, hext'', hheld'''⟩ := hthird.read (d := five') (List.forall_mem_nil _)
  have hleft := hext''.holds l (hext'.holds l (hext.holds l (hheld l hl)))
  have hleft' := hext''.holds l' (hext'.holds l' (hheld' l' hl'))
  have hright := hext''.holds r (hheld'' r hr)
  have hright' := hheld''' r' hr'
  obtain ⟨hintersects, hands, hors, hextending, hprojects⟩ :=
    algebra_congruence Stock.blindToSign hspace hleft hright hlType hrType
  have hafter (request : Request) {α : Type} {x : SpaceM α} (hrun : request.run = do let _ ← x)
      (hresidents : ∀ n ∈ request.residents, n = l) (hguests : ∀ n ∈ request.guests, n = l ∨ n = r) :=
    hspace.after hrun (fun n hn => hresidents n hn ▸ hleft) fun n hn => (hguests n hn).elim (· ▸ hleft) (· ▸ hright)
  have hheldAfter {later : Space} (hext : later.Extends _) : ∀ n ∈ [l', r'], later.Holds n :=
    List.forall_mem_cons.mpr ⟨hext.holds l' hleft', List.forall_mem_singleton.mpr (hext.holds r' hright')⟩
  refine ⟨_, l, l', r, r', hspace, hleft, hright, hlId, hrId, hlType, hrType, ?_, ?_, ?_, ?_, ?_⟩
  · obtain ⟨hlater, hext⟩ := hafter (.intersect l r) rfl (by simp [Request.residents]) (by simp [Request.guests])
    exact hintersects _ hlater (.refl _) (hheldAfter hext) hintersect.1 hintersect.2
  · obtain ⟨hlater, hext⟩ := hafter (.and l r) rfl (by simp [Request.residents]) (by simp [Request.guests])
    exact hands _ hlater (.refl _) (hheldAfter hext) hand.1 hand.2
  · obtain ⟨hlater, hext⟩ := hafter (.union [l, r]) rfl (by simp [Request.residents]) (by simp [Request.guests])
    exact hors _ hlater (.refl _) (hheldAfter hext) hor.1 hor.2
  · obtain ⟨hlater, hext⟩ := hafter (.comparison l r) rfl (by simp [Request.residents]) (by simp [Request.guests])
    exact hextending _ hlater (.refl _) (hheldAfter hext) hextends.1 hextends.2
  · obtain ⟨hlater, hext⟩ := hafter (.project .output l) rfl (by simp [Request.residents]) (by simp [Request.guests])
    exact hprojects .output _ hlater (.refl _) (List.forall_mem_singleton.mpr (hext.holds l' hleft')) hproject.1
      hproject.2

end Node

end SchemaAlgebra
