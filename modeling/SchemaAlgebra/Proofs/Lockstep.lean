-- SUMMARY: Two runs side by side: nodes of one type in the spaces they end in, and computations that keep in step.
import SchemaAlgebra.Proofs.Adoption
import SchemaAlgebra.Proofs.Growth
import SchemaAlgebra.Proofs.Matching
import SchemaAlgebra.Proofs.Uncaptioned

/-!
# Lockstep

Two runs of one operation are compared by the spaces they end in. Every node that
one of them comes across is still there at its end, so that its text can be read
there, and nodes with one text are of one structure. Hence runs on nodes of one type
take the same turns, and intern contents that are of one type again.
-/

namespace SchemaAlgebra

-- ---------------------------------------------------------------------------
-- Contents
-- ---------------------------------------------------------------------------

namespace Content

variable {ν μ κ : Type}

/-- Contents that say the same up to the sign of zeros, with related nodes in the same places. -/
inductive Related (R : ν → μ → Prop) : Content ν → Content μ → Prop where
  | union {branches : List ν} {branches' : List μ} (ordered : Bool) (h : List.Forall₂ R branches branches') :
      Related R (.union branches ordered) (.union branches' ordered)
  | morph {input : ν} {input' : μ} {output : Option ν} {output' : Option μ} (transforms : List Transform)
      (hinput : R input input') (houtput : Option.Rel R output output') :
      Related R (.morph input output transforms) (.morph input' output' transforms)
  | intersection {basis : Option ν} {basis' : Option μ} {constraints : List ν} {constraints' : List μ}
      (hbasis : Option.Rel R basis basis') (hconstraints : List.Forall₂ R constraints constraints') :
      Related R (.intersection basis constraints) (.intersection basis' constraints')
  | unit {v v' : Value} (h : v.unsigned = v'.unsigned) : Related R (.unit v) (.unit v')
  | proto (p : Proto) : Related R (.proto p) (.proto p)
  | domain (d : Domain) : Related R (.domain d) (.domain d)
  | divisor (d : Nat) : Related R (.divisor d) (.divisor d)
  | max {bound bound' : Bound} (h : bound.unsigned = bound'.unsigned) : Related R (.max bound) (.max bound')
  | min {bound bound' : Bound} (h : bound.unsigned = bound'.unsigned) : Related R (.min bound) (.min bound')
  | pattern (p : Pattern) : Related R (.pattern p) (.pattern p)
  | predicate (p : Predicate) : Related R (.predicate p) (.predicate p)
  | required {value : ν} {value' : μ} (key : PropKey) (h : R value value') :
      Related R (.required key value) (.required key value')
  | optional {value : ν} {value' : μ} (key : PropKey) (h : R value value') :
      Related R (.optional key value) (.optional key value')

variable {R : ν → μ → Prop} {f : ν → κ} {g : μ → κ} {a : Content ν} {b : Content μ}

theorem optionRel_of_map {x : Option ν} {y : Option μ} (h : x.map f = y.map g)
    (hR : ∀ c ∈ x.toList, ∀ d ∈ y.toList, f c = g d → R c d) : Option.Rel R x y := by
  cases x with
  | none =>
      cases y with
      | none => exact .none
      | some d => cases h
  | some c =>
      cases y with
      | none => cases h
      | some d => exact .some (hR c List.mem_cons_self d List.mem_cons_self (Option.some.inj h))

/-- Contents with the same images are related, if nodes with the same image are. -/
theorem related_of_map (h : (a.map f).unsigned = (b.map g).unsigned)
    (hR : ∀ c ∈ a.children, ∀ d ∈ b.children, f c = g d → R c d) : a.Related R b := by
  cases a with
  | union branches ordered =>
      cases b with
      | union branches' ordered' =>
          obtain ⟨hbranches, rfl⟩ := Content.union.inj h
          exact .union ordered (forall₂_imp_of_mem (forall₂_map_eq.mpr hbranches) hR)
      | _ => cases h
  | morph input output transforms =>
      cases b with
      | morph input' output' transforms' =>
          obtain ⟨hinput, houtput, rfl⟩ := Content.morph.inj h
          exact .morph transforms (hR input List.mem_cons_self input' List.mem_cons_self hinput)
            (optionRel_of_map houtput fun c hc d hd =>
              hR c (List.mem_cons_of_mem _ hc) d (List.mem_cons_of_mem _ hd))
      | _ => cases h
  | intersection basis constraints =>
      cases b with
      | intersection basis' constraints' =>
          obtain ⟨hbasis, hconstraints⟩ := Content.intersection.inj h
          refine .intersection (optionRel_of_map hbasis fun c hc d hd => ?_)
            (forall₂_imp_of_mem (forall₂_map_eq.mpr hconstraints) fun c hc d hd => ?_)
          · exact hR c (List.mem_append_left _ hc) d (List.mem_append_left _ hd)
          · exact hR c (List.mem_append_right _ hc) d (List.mem_append_right _ hd)
      | _ => cases h
  | unit v =>
      cases b with
      | unit v' => exact .unit (Content.unit.inj h)
      | _ => cases h
  | max bound =>
      cases b with
      | max bound' => exact .max (Content.max.inj h)
      | _ => cases h
  | min bound =>
      cases b with
      | min bound' => exact .min (Content.min.inj h)
      | _ => cases h
  | required key value =>
      cases b with
      | required key' value' =>
          obtain ⟨rfl, hvalue⟩ := Content.required.inj h
          exact .required key (hR value List.mem_cons_self value' List.mem_cons_self hvalue)
      | _ => cases h
  | optional key value =>
      cases b with
      | optional key' value' =>
          obtain ⟨rfl, hvalue⟩ := Content.optional.inj h
          exact .optional key (hR value List.mem_cons_self value' List.mem_cons_self hvalue)
      | _ => cases h
  | proto p => cases b <;> cases h; exact .proto p
  | domain d => cases b <;> cases h; exact .domain d
  | divisor d => cases b <;> cases h; exact .divisor d
  | pattern p => cases b <;> cases h; exact .pattern p
  | predicate p => cases b <;> cases h; exact .predicate p

theorem map_of_optionRel {x : Option ν} {y : Option μ} (h : Option.Rel R x y) (hR : ∀ c d, R c d → f c = g d) :
    x.map f = y.map g := by
  cases h with
  | some hcd => exact congrArg some (hR _ _ hcd)
  | none => rfl

/-- Related contents have the same images, if related nodes have. -/
theorem Related.map_eq (h : a.Related R b) (hR : ∀ c d, R c d → f c = g d) :
    (a.map f).unsigned = (b.map g).unsigned := by
  cases h with
  | union ordered h =>
      exact congrArg (Content.union · ordered) (forall₂_map_eq.mp (h.imp hR))
  | morph transforms hinput houtput =>
      rw [map, map, hR _ _ hinput, map_of_optionRel houtput hR]
  | intersection hbasis hconstraints =>
      rw [map, map, map_of_optionRel hbasis hR, forall₂_map_eq.mp (hconstraints.imp hR)]
  | unit h => exact congrArg Content.unit h
  | max h => exact congrArg Content.max h
  | min h => exact congrArg Content.min h
  | required key h => rw [map, map, hR _ _ h]
  | optional key h => rw [map, map, hR _ _ h]
  | _ => rfl

theorem Related.outline_eq (h : a.Related R b) : a.outline = b.outline := by
  cases h with
  | unit h => exact congrArg Content.unit h
  | max h => exact congrArg Content.max h
  | min h => exact congrArg Content.min h
  | _ => rfl

theorem Related.kind_eq (h : a.Related R b) : a.kind = b.kind := kind_eq_of_outline h.outline_eq

theorem Related.children (h : a.Related R b) : List.Forall₂ R a.children b.children := by
  have hlist {x : Option ν} {y : Option μ} (h : Option.Rel R x y) : List.Forall₂ R x.toList y.toList := by
    cases h with
    | some hcd => exact .cons hcd .nil
    | none => exact .nil
  cases h with
  | union ordered h => exact h
  | morph transforms hinput houtput => exact .cons hinput (hlist houtput)
  | intersection hbasis hconstraints => exact List.rel_append (hlist hbasis) hconstraints
  | required key h => exact .cons h .nil
  | optional key h => exact .cons h .nil
  | _ => exact .nil

end Content

-- ---------------------------------------------------------------------------
-- Spaces
-- ---------------------------------------------------------------------------

namespace Space

/-- Two spaces whose texts can be compared. -/
structure Abreast (left right : Space) : Prop where
  valid : left.Valid
  valid' : right.Valid
  regular : left.Regular
  regular' : right.Regular
  /-- What has a name in the first has it in the second. -/
  registry : right.registry.Extends left.registry
  reducible : left.config.maxReducibleBranches = right.config.maxReducibleBranches

/-- Nodes of one type, each alive in its space. -/
structure Twins (left right : Space) (a b : Node) : Prop where
  holds : left.Holds a
  holds' : right.Holds b
  typeId : a.typeId = b.typeId

variable {left right : Space} {a b : Node} (habreast : Abreast left right)

theorem Valid.abreast {space : Space} (hvalid : space.Valid) (hregular : space.Regular) : Abreast space space :=
  ⟨hvalid, hvalid, hregular, hregular, .refl _, rfl⟩

theorem Abreast.first (h : Abreast left right) : Abreast left left := h.valid.abreast h.regular

theorem Abreast.second (h : Abreast left right) : Abreast right right := h.valid'.abreast h.regular'

include habreast

theorem Abreast.everywhere_written (ha : left.Holds a) : a.Everywhere (Node.Written right.registry) :=
  fun found hfound => (habreast.valid.everywhere_written ha found hfound).extends habreast.registry

theorem Twins.plain_eq (h : Twins left right a b) : a.plain right.registry = b.plain right.registry :=
  Node.plain_eq_of_typeId habreast.valid'.lawful (habreast.everywhere_written h.holds)
    (habreast.valid'.everywhere_written h.holds') (habreast.regular.everywhere_exact habreast.valid h.holds)
    (habreast.regular'.everywhere_exact habreast.valid' h.holds') h.typeId

theorem twins_of_plain (ha : left.Holds a) (hb : right.Holds b) (h : a.plain right.registry = b.plain right.registry) :
    Twins left right a b where
  holds := ha
  holds' := hb
  typeId := by
    rw [← Node.typeId_plain (habreast.everywhere_written ha), h,
      Node.typeId_plain (habreast.valid'.everywhere_written hb)]

/-- Nodes of one type have contents that say the same of nodes of one type. -/
theorem Twins.content (h : Twins left right a b) : a.content.Related (Twins left right) b.content := by
  have hcontent := congrArg Node.content (h.plain_eq habreast)
  rw [Node.content_plain, Node.content_plain] at hcontent
  exact Content.related_of_map hcontent fun c hc d hd =>
    twins_of_plain habreast (habreast.valid.closed a h.holds c hc) (habreast.valid'.closed b h.holds' d hd)

omit habreast in
/-- What a content is interned as says the same of nodes of the same types. -/
theorem Interned.related {space : Space} {content : Content Node} {node : Node} (h : space.Interned content node)
    (hvalid : space.Valid) (hregular : space.Regular) (hexact : content.Exact)
    (hchildren : ∀ c ∈ content.children, space.Holds c) : node.content.Related (Twins space space) content := by
  have hcontent := congrArg Node.content (h.means hregular hexact)
  rw [Node.content_plain, Node.content_form] at hcontent
  exact Content.related_of_map hcontent fun c hc d hd =>
    twins_of_plain (hvalid.abreast hregular) (hvalid.closed node h.holds c hc) (hchildren d hd)

theorem Twins.alike (h : Twins left right a b) : a.Alike b := (h.content habreast).outline_eq

theorem Twins.kind_eq (h : Twins left right a b) : a.kind = b.kind := (h.content habreast).kind_eq

theorem Twins.nesting_eq (h : Twins left right a b) : a.nesting = b.nesting := by
  rw [← Node.nesting_plain right.registry, h.plain_eq habreast, Node.nesting_plain]

theorem Twins.includesMorph_eq (h : Twins left right a b) : a.includesMorph = b.includesMorph := by
  rw [← Node.includesMorph_plain (habreast.everywhere_written h.holds), h.plain_eq habreast,
    Node.includesMorph_plain (habreast.valid'.everywhere_written h.holds')]

theorem Twins.typeJson_eq (h : Twins left right a b) : a.typeJson = b.typeJson := by
  rw [← Node.typeJson_plain (habreast.everywhere_written h.holds), h.plain_eq habreast,
    Node.typeJson_plain (habreast.valid'.everywhere_written h.holds')]

theorem Twins.allows_eq [Behaviour] (h : Twins left right a b) (v : Value) : a.allows v = b.allows v := by
  rw [← Node.allows_plain (habreast.everywhere_written h.holds) right.registry, h.plain_eq habreast,
    Node.allows_plain (habreast.valid'.everywhere_written h.holds')]

-- ---------------------------------------------------------------------------
-- Interning
-- ---------------------------------------------------------------------------

omit habreast in
/-- What a content is interned as is alive at any later time, under the identifier that the content had. -/
theorem intern_holds {space later : Space} (htidy : space.Tidy) {content : Content Node} {caption : Caption}
    (hext : later.Extends (space.intern content caption).2) :
    later.Holds (space.intern content caption).1 ∧ (space.intern content caption).1.id =
      content.identifier (content.json (space.naming content).registry true caption) ∧
        later.registry.Extends (space.naming content).registry := by
  have hnaming : (space.naming content).Tidy := ⟨htidy.nodup, htidy.named⟩
  rcases intern_cases space content caption with ⟨node, hfind, heq⟩ | ⟨hfind, heq⟩
  · rw [heq] at hext ⊢
    obtain ⟨hheld, hid⟩ := holds_of_find? hnaming hfind
    exact ⟨hext.holds node hheld, hid, hext.registry⟩
  · rw [heq] at hext ⊢
    exact ⟨hext.holds _ ((holds_adding hnaming hfind).mpr (.inl rfl)), rfl, hext.registry⟩

omit habreast in
/-- What a content is interned as is of the type that the content has at any later time, whatever its caption. -/
theorem intern_typeId {space later : Space} (htidy : space.Tidy) (hvalid : later.Valid) {content : Content Node}
    {caption : Caption} (hfits : caption.isEmpty = false → content.Fits)
    (hext : later.Extends (space.intern content caption).2) (hchildren : ∀ c ∈ content.children, later.Holds c) :
    later.Holds (space.intern content caption).1 ∧ (∀ thing ∈ content.identities, later.registry.Knows thing) ∧
      (space.intern content caption).1.typeId = content.identifier (content.json later.registry false .none) := by
  have hknown := naming_knows space content
  obtain ⟨hholds, hid, hnames⟩ := intern_holds htidy hext
  have hwritten := hvalid.everywhere_written hholds
  rw [← Content.json_extends hnames hknown, hwritten.self.id] at hid
  have hkind := Node.kind_eq_of_identifier hid
  have hjson : (space.intern content caption).1.json = content.json later.registry true caption :=
    Node.json_eq_of_identifier (Node.isFinite_childJson hwritten true)
      (Content.isFinite_json fun c hc => Node.isFinite_childJson (hvalid.everywhere_written (hchildren c hc)) true) hid
  have htypeJson : (space.intern content caption).1.typeJson = content.json later.registry false .none := by
    rw [← Node.uncaption_json hwritten, hjson, Content.json_uncaptioned _ _ .none caption]
    exact Content.uncaption_json (fun c hc => Node.uncaption_json (hvalid.everywhere_written (hchildren c hc))) hfits
  refine ⟨hholds, fun thing hthing => (hknown thing hthing).mono hnames, ?_⟩
  rw [hwritten.self.typeId, htypeJson, Content.identifier, hkind, ← Content.identifier]

omit habreast in
/-- What a well-formed content is interned as says the same as the content. -/
theorem intern_outline {space later : Space} (htidy : space.Tidy) (hvalid : later.Valid) {content : Content Node}
    {caption : Caption} (hsound : content.Sound) (hext : later.Extends (space.intern content caption).2)
    (hchildren : ∀ c ∈ content.children, later.Holds c) :
    (space.intern content caption).1.content.outline = content.outline := by
  have hknown := naming_knows space content
  obtain ⟨hholds, hid, hnames⟩ := intern_holds htidy hext
  have hwritten := hvalid.everywhere_written hholds
  rw [← Content.json_extends hnames hknown, hwritten.self.id] at hid
  have hjson := Node.json_eq_of_identifier (Node.isFinite_childJson hwritten true)
    (Content.isFinite_json fun c hc => Node.isFinite_childJson (hvalid.everywhere_written (hchildren c hc)) true) hid
  rw [hwritten.self.childJson true] at hjson
  exact Content.outline_eq_of_json hvalid.lawful hwritten.self.sound hsound hwritten.self.known
    (fun thing hthing => (hknown thing hthing).mono hnames) (Node.kind_eq_of_identifier hid) hjson

omit habreast in
/-- The content of a node is of its type, whatever the caption. -/
theorem reintern_typeId {space later : Space} (htidy : space.Tidy) (hvalid : later.Valid) {node : Node}
    (hnode : later.Holds node) {caption : Caption} (hext : later.Extends (space.intern node.content caption).2) :
    later.Holds (space.intern node.content caption).1 ∧ (space.intern node.content caption).1.typeId = node.typeId := by
  have hwritten := hvalid.written node hnode
  obtain ⟨hholds, -, htypeId⟩ :=
    intern_typeId htidy hvalid (fun _ => hwritten.sound.fits) hext (hvalid.closed node hnode)
  refine ⟨hholds, ?_⟩
  rw [htypeId, hwritten.typeId, hwritten.typeJson, Content.json_uncaptioned _ _ .none node.caption]

/-- Contents that say the same of nodes of one type are interned as nodes of one type, under any captions. -/
theorem twins_intern {space other : Space} (htidy : space.Tidy) (htidy' : other.Tidy) {content content' : Content Node}
    {caption caption' : Caption} (h : content.Related (Twins left right) content')
    (hfits : caption.isEmpty = false → content.Fits) (hfits' : caption'.isEmpty = false → content'.Fits)
    (hext : left.Extends (space.intern content caption).2) (hext' : right.Extends (other.intern content' caption').2) :
    Twins left right (space.intern content caption).1 (other.intern content' caption').1 := by
  have hchildren : ∀ c ∈ content.children, left.Holds c :=
    (List.forall₂_and_left (p := left.Holds) _ _).mp (h.children.imp fun c d hcd => ⟨hcd.holds, hcd⟩) |>.1
  have hchildren' : ∀ c ∈ content'.children, right.Holds c :=
    (List.forall₂_and_left (p := right.Holds) _ _).mp (h.children.flip.imp fun c d hcd => ⟨hcd.holds', hcd⟩) |>.1
  obtain ⟨hholds, hknown, htypeId⟩ := intern_typeId htidy habreast.valid hfits hext hchildren
  obtain ⟨hholds', -, htypeId'⟩ := intern_typeId htidy' habreast.valid' hfits' hext' hchildren'
  have hjson : content.json right.registry false .none = content'.json right.registry false .none := by
    rw [← Node.json_plain (fun c hc => Node.typeJson_plain (habreast.everywhere_written (hchildren c hc))) .none,
      ← Node.json_plain (fun c hc => Node.typeJson_plain (habreast.valid'.everywhere_written (hchildren' c hc))) .none,
      h.map_eq fun c d hcd => hcd.plain_eq habreast]
  refine ⟨hholds, hholds', ?_⟩
  rw [htypeId, htypeId', ← Content.json_extends habreast.registry hknown, hjson, Content.identifier, h.kind_eq,
    ← Content.identifier]

end Space

-- ---------------------------------------------------------------------------
-- Outcomes
-- ---------------------------------------------------------------------------

/-- Both gave related results, or related errors. -/
inductive Agree {ε ε' α β : Type} (E : ε → ε' → Prop) (Q : α → β → Prop) :
    Except ε α → Except ε' β → Prop where
  | ok {a : α} {b : β} (h : Q a b) : Agree E Q (.ok a) (.ok b)
  | error {e : ε} {e' : ε'} (h : E e e') : Agree E Q (.error e) (.error e')

/-- Conflicts of one kind in one place, between related nodes. -/
structure Disjoint.Related (R : Node → Node → Prop) (d d' : Disjoint) : Prop where
  kind : d.kind = d'.kind
  l : R d.l d'.l
  r : R d.r d'.r
  path : d.path = d'.path

/-- Outcomes that are the same up to related nodes. -/
inductive Intersected.Related (R : Node → Node → Prop) : Intersected → Intersected → Prop where
  | node {n n' : Node} (h : R n n') : Related R (.node n) (.node n')
  | disjoint {d d' : Disjoint} (h : d.Related R d') : Related R (.disjoint d) (.disjoint d')
  | orthogonal : Related R .orthogonal .orthogonal

/-- Errors of one variant. A conflict that is an error is the same conflict. -/
inductive SchemaError.Related (R : Node → Node → Prop) : SchemaError → SchemaError → Prop where
  | parse (reason reason' : ParseError) : Related R (.parse reason) (.parse reason')
  | internal (reason reason' : InternalError) : Related R (.internal reason) (.internal reason')
  | unsatisfiable {d d' : Disjoint} (h : d.Related R d') : Related R (.unsatisfiable d) (.unsatisfiable d')
  | validation (summary summary' : String) : Related R (.validation summary) (.validation summary')

section

variable {R S : Node → Node → Prop} {ε ε' α β : Type} {E F : ε → ε' → Prop} {P Q : α → β → Prop}

theorem Agree.imp (hE : ∀ e e', E e e' → F e e') (hQ : ∀ a b, P a b → Q a b) {x : Except ε α} {y : Except ε' β}
    (h : Agree E P x y) : Agree F Q x y := by
  cases h with
  | ok h => exact .ok (hQ _ _ h)
  | error h => exact .error (hE _ _ h)

theorem Agree.map {γ δ : Type} {T : γ → δ → Prop} {f : α → γ} {g : β → δ} (hfg : ∀ a b, P a b → T (f a) (g b))
    {x : Except ε α} {y : Except ε' β} (h : Agree E P x y) : Agree E T (x.map f) (y.map g) := by
  cases h with
  | ok h => exact .ok (hfg _ _ h)
  | error h => exact .error h

theorem Disjoint.Related.imp (hR : ∀ a b, R a b → S a b) {d d' : Disjoint} (h : d.Related R d') : d.Related S d' :=
  ⟨h.kind, hR _ _ h.l, hR _ _ h.r, h.path⟩

theorem Disjoint.Related.invert {d d' : Disjoint} (h : d.Related R d') : d.invert.Related R d'.invert :=
  ⟨h.kind, h.r, h.l, h.path⟩

theorem Disjoint.Related.atKey {d d' : Disjoint} (h : d.Related R d') (key : PropKey) :
    (d.atKey key).Related R (d'.atKey key) :=
  ⟨h.kind, h.l, h.r, congrArg (key :: ·) h.path⟩

theorem Disjoint.related_between (kind : DisjointKind) {l l' r r' : Node} (hl : R l l') (hr : R r r') :
    (between kind l r).Related R (between kind l' r') :=
  ⟨rfl, hl, hr, rfl⟩

theorem Intersected.Related.imp (hR : ∀ a b, R a b → S a b) {out out' : Intersected} (h : out.Related R out') :
    out.Related S out' := by
  cases h with
  | node h => exact .node (hR _ _ h)
  | disjoint h => exact .disjoint (h.imp hR)
  | orthogonal => exact .orthogonal

theorem Intersected.Related.invert {out out' : Intersected} (h : out.Related R out') :
    out.invert.Related R out'.invert := by
  cases h with
  | node h => exact .node h
  | disjoint h => exact .disjoint h.invert
  | orthogonal => exact .orthogonal

theorem SchemaError.Related.imp (hR : ∀ a b, R a b → S a b) {error error' : SchemaError} (h : error.Related R error') :
    error.Related S error' := by
  cases h with
  | parse reason reason' => exact .parse reason reason'
  | internal reason reason' => exact .internal reason reason'
  | unsatisfiable h => exact .unsatisfiable (h.imp hR)
  | validation summary summary' => exact .validation summary summary'

end

-- ---------------------------------------------------------------------------
-- Computations
-- ---------------------------------------------------------------------------

namespace SpaceM

open Space (Twins Abreast)

variable {α β γ δ : Type}

/-- Two computations that agree wherever they start, if they end in the given spaces or on the way there. -/
structure Lockstep (left right : Space) (x : SpaceM α) (y : SpaceM β) (Q : α → β → Prop) : Prop where
  grows : x.Grows
  grows' : y.Grows
  agree : ∀ space other : Space, space.Tidy → other.Tidy → left.Extends (x.exec space).2 →
    right.Extends (y.exec other).2 →
      Agree (SchemaError.Related (Twins left right)) Q (x.exec space).1 (y.exec other).1

namespace Lockstep

variable {left right : Space} {P : α → β → Prop} {Q : γ → δ → Prop} {x : SpaceM α} {y : SpaceM β}

theorem pure {a : α} {b : β} (h : P a b) : Lockstep left right (Pure.pure a) (Pure.pure b) P :=
  ⟨.pure a, .pure b, fun _ _ _ _ _ _ => .ok h⟩

theorem throw {error error' : SchemaError} (h : error.Related (Twins left right) error') :
    Lockstep left right (MonadExcept.throw error : SpaceM α) (MonadExcept.throw error' : SpaceM β) P :=
  ⟨.throw error, .throw error', fun _ _ _ _ _ _ => .error h⟩

theorem parseError (reason reason' : ParseError) :
    Lockstep left right (SpaceM.parseError reason : SpaceM α) (SpaceM.parseError reason' : SpaceM β) P :=
  .throw (.parse reason reason')

theorem internalError (reason reason' : InternalError) :
    Lockstep left right (SpaceM.internalError reason : SpaceM α) (SpaceM.internalError reason' : SpaceM β) P :=
  .throw (.internal reason reason')

/-- What follows on both sides only adds to the spaces, so that they are still on the way to the ends after the first
steps. -/
theorem bind {f : α → SpaceM γ} {g : β → SpaceM δ} (h : Lockstep left right x y P) (hf : ∀ a, (f a).Grows)
    (hg : ∀ b, (g b).Grows) (hfg : ∀ a b, P a b → Lockstep left right (f a) (g b) Q) :
    Lockstep left right (x >>= f) (y >>= g) Q where
  grows := h.grows.bind hf
  grows' := h.grows'.bind hg
  agree := by
    intro space other htidy htidy' hext hext'
    obtain ⟨hmid, -⟩ := h.grows space htidy
    obtain ⟨hmid', -⟩ := h.grows' other htidy'
    have hagree := h.agree space other htidy htidy'
    rw [exec_bind] at hext hext' ⊢
    rw [exec_bind]
    generalize x.exec space = first at hmid hagree hext ⊢
    generalize y.exec other = first' at hmid' hagree hext' ⊢
    rcases first with ⟨error | a, mid⟩ <;> rcases first' with ⟨error' | b, mid'⟩
    · exact match hagree hext hext' with | .error h => .error h
    · cases hagree hext (hext'.trans (hg b mid' hmid').2)
    · cases hagree (hext.trans (hf a mid hmid).2) hext'
    · have hab : P a b :=
        match hagree (hext.trans (hf a mid hmid).2) (hext'.trans (hg b mid' hmid').2) with | .ok h => h
      exact (hfg a b hab).agree mid mid' hmid hmid' hext hext'

theorem imp {P' : α → β → Prop} (h : Lockstep left right x y P) (hP : ∀ a b, P a b → P' a b) :
    Lockstep left right x y P' where
  grows := h.grows
  grows' := h.grows'
  agree := fun space other htidy htidy' hext hext' =>
    (h.agree space other htidy htidy' hext hext').imp (fun _ _ => id) hP

theorem map {f : α → γ} {g : β → δ} (h : Lockstep left right x y P) (hfg : ∀ a b, P a b → Q (f a) (g b)) :
    Lockstep left right (do return f (← x)) (do return g (← y)) Q :=
  h.bind (fun _ => .pure _) (fun _ => .pure _) fun a b hab => .pure (hfg a b hab)

theorem ite {p q : Prop} [Decidable p] [Decidable q] (hpq : p ↔ q) {x' : SpaceM α} {y' : SpaceM β}
    (h : Lockstep left right x y P) (h' : Lockstep left right x' y' P) :
    Lockstep left right (if p then x else x') (if q then y else y') P := by
  by_cases hp : p
  · rw [if_pos hp, if_pos (hpq.mp hp)]
    exact h
  · rw [if_neg hp, if_neg (mt hpq.mpr hp)]
    exact h'

/-- Events can be noted before what keeps in step. -/
theorem note (event event' : Event) {f : Unit → SpaceM α} {g : Unit → SpaceM β}
    (h : Lockstep left right (f ()) (g ()) P) :
    Lockstep left right (SpaceM.note event >>= f) (SpaceM.note event' >>= g) P :=
  have hnote : Lockstep left right (SpaceM.note event) (SpaceM.note event') fun _ _ => True :=
    ⟨.note event, .note event', fun _ _ _ _ _ _ => .ok trivial⟩
  hnote.bind (fun _ => h.grows) (fun _ => h.grows') fun _ _ _ => h

theorem reducible (habreast : Abreast left right) : Lockstep left right SpaceM.reducible SpaceM.reducible (· = ·) where
  grows := .reducible
  grows' := .reducible
  agree := fun space other _ _ hext hext' => by
    have hconfig : left.config = space.config := hext.config
    have hconfig' : right.config = other.config := hext'.config
    refine .ok ?_
    rw [← hconfig, ← hconfig']
    exact habreast.reducible

/-- Contents that say the same are interned under any captions. -/
theorem internAs (habreast : Abreast left right) {content content' : Content Node} {caption caption' : Caption}
    (h : content.Related (Twins left right) content') (hfits : caption.isEmpty = false → content.Fits)
    (hfits' : caption'.isEmpty = false → content'.Fits) :
    Lockstep left right (SpaceM.intern content caption) (SpaceM.intern content' caption') (Twins left right) where
  grows := .intern content caption
  grows' := .intern content' caption'
  agree := fun _ _ htidy htidy' hext hext' =>
    .ok (Space.twins_intern habreast htidy htidy' h hfits hfits' hext hext')

theorem intern (habreast : Abreast left right) {content content' : Content Node}
    (h : content.Related (Twins left right) content') :
    Lockstep left right (internPlain content) (internPlain content') (Twins left right) :=
  internAs habreast h nofun nofun

/-- Nodes of one type stay so under new captions. -/
theorem recaption (habreast : Abreast left right) {n n' : Node} (h : Twins left right n n')
    (caption caption' : Caption) :
    Lockstep left right (if caption.isEmpty then return n else SpaceM.intern n.content caption)
      (if caption'.isEmpty then return n' else SpaceM.intern n'.content caption') (Twins left right) where
  grows := by
    split
    · exact .pure _
    · exact .intern _ _
  grows' := by
    split
    · exact .pure _
    · exact .intern _ _
  agree := by
    intro space other htidy htidy' hext hext'
    have hfirst : ∃ a, ((if caption.isEmpty then return n else SpaceM.intern n.content caption).exec space).1 = .ok a ∧
        left.Holds a ∧ a.typeId = n.typeId := by
      split at hext
      · rename_i hempty
        exact ⟨n, by rw [if_pos hempty]; rfl, h.holds, rfl⟩
      · rename_i hempty
        exact ⟨_, by rw [if_neg hempty]; rfl, Space.reintern_typeId htidy habreast.valid h.holds hext⟩
    have hsecond : ∃ b, ((if caption'.isEmpty then return n' else SpaceM.intern n'.content caption').exec other).1 =
        .ok b ∧ right.Holds b ∧ b.typeId = n'.typeId := by
      split at hext'
      · rename_i hempty
        exact ⟨n', by rw [if_pos hempty]; rfl, h.holds', rfl⟩
      · rename_i hempty
        exact ⟨_, by rw [if_neg hempty]; rfl, Space.reintern_typeId htidy' habreast.valid' h.holds' hext'⟩
    obtain ⟨a, ha, hheld, htype⟩ := hfirst
    obtain ⟨b, hb, hheld', htype'⟩ := hsecond
    rw [ha, hb]
    exact .ok ⟨hheld, hheld', htype.trans (h.typeId.trans htype'.symm)⟩

-- ---------------------------------------------------------------------------
-- Case distinctions
-- ---------------------------------------------------------------------------

section

variable {x y : SpaceM Intersected} (h : Lockstep left right x y (Intersected.Related (Twins left right)))

include h

/-- What follows for a node, for a conflict and for orthogonal nodes. -/
theorem onOutcome {f : Node → SpaceM γ} {f' : Node → SpaceM δ} {g : Disjoint → SpaceM γ} {g' : Disjoint → SpaceM δ}
    {k : SpaceM γ} {k' : SpaceM δ} (hf : ∀ n, (f n).Grows) (hf' : ∀ n, (f' n).Grows) (hg : ∀ d, (g d).Grows)
    (hg' : ∀ d, (g' d).Grows) (hnode : ∀ n n', Twins left right n n' → Lockstep left right (f n) (f' n') Q)
    (hdisjoint : ∀ d d', d.Related (Twins left right) d' → Lockstep left right (g d) (g' d') Q)
    (horthogonal : Lockstep left right k k' Q) :
    Lockstep left right (do match ← x with | .node n => f n | .disjoint d => g d | .orthogonal => k)
      (do match ← y with | .node n => f' n | .disjoint d => g' d | .orthogonal => k') Q := by
  refine h.bind ?_ ?_ fun out out' hout => ?_
  · intro out
    cases out with
    | node n => exact hf n
    | disjoint d => exact hg d
    | orthogonal => exact horthogonal.grows
  · intro out
    cases out with
    | node n => exact hf' n
    | disjoint d => exact hg' d
    | orthogonal => exact horthogonal.grows'
  · cases hout with
    | node hn => exact hnode _ _ hn
    | disjoint hd => exact hdisjoint _ _ hd
    | orthogonal => exact horthogonal

/-- What follows for a node, and for any other outcome. -/
theorem onNode {f : Node → SpaceM γ} {f' : Node → SpaceM δ} {g : Intersected → SpaceM γ} {g' : Intersected → SpaceM δ}
    (hf : ∀ n, (f n).Grows) (hf' : ∀ n, (f' n).Grows) (hg : ∀ out, (g out).Grows) (hg' : ∀ out, (g' out).Grows)
    (hnode : ∀ n n', Twins left right n n' → Lockstep left right (f n) (f' n') Q)
    (hother : ∀ out out', out.Related (Twins left right) out' → Lockstep left right (g out) (g' out') Q) :
    Lockstep left right (do match ← x with | .node n => f n | other => g other)
      (do match ← y with | .node n => f' n | other => g' other) Q := by
  refine h.bind ?_ ?_ fun out out' hout => ?_
  · intro out
    cases out with
    | node n => exact hf n
    | disjoint d => exact hg _
    | orthogonal => exact hg _
  · intro out
    cases out with
    | node n => exact hf' n
    | disjoint d => exact hg' _
    | orthogonal => exact hg' _
  · cases hout with
    | node hn => exact hnode _ _ hn
    | disjoint hd => exact hother _ _ (.disjoint hd)
    | orthogonal => exact hother _ _ .orthogonal

end

end Lockstep

end SpaceM

end SchemaAlgebra
