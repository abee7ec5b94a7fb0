-- SUMMARY: A definition is read again at any other time, in any order that it can be written in, as a node of one type.
import SchemaAlgebra.Proofs.LeafReading
import SchemaAlgebra.Proofs.Regrouping

/-!
# Rereading

A definition that could be read can be read at any later time, in any order that it
can be written in, and means the same. It need not be the other way round: a reference
can come to stand for something after a definition with it was refused. Apart from
that, what can be read later could be read before.
-/

namespace SchemaAlgebra

open Space (Twins Abreast)
open SpaceM (Echoes Lockstep Recalled Recalls Shuffled)

-- ---------------------------------------------------------------------------
-- Foreign nodes
-- ---------------------------------------------------------------------------

namespace Node

variable {left right : Space} (habreast : Abreast left right) (hnumber : right.number = left.number)

/-- Nodes of one type that say the same as an original. -/
structure TwinCopies (left right : Space) (original a b : Node) : Prop where
  twins : Twins left right a b
  alike : a.Alike original
  alike' : b.Alike original

/-- Lists of copies of the nodes in a list, taken on two sides. -/
structure TwinLists (left right : Space) (originals nodes nodes' : List Node) : Prop where
  twins : List.Forall₂ (Twins left right) nodes nodes'
  alike : AllAlike nodes originals
  alike' : AllAlike nodes' originals

theorem TwinLists.option {originals : Option Node} {node node' : Option Node}
    (h : TwinLists left right originals.toList node.toList node'.toList) :
    Option.Rel (Twins left right) node node' := by
  have htwins := h.twins
  cases node with
  | none =>
      cases node' with
      | none => exact .none
      | some n' => cases htwins
  | some n =>
      cases node' with
      | none => cases htwins
      | some n' => exact .some (List.forall₂_cons.mp htwins).1

include habreast

theorem internCopies_lockstep {content content' : Content Node} {caption : Caption}
    (h : content.Related (Twins left right) content') (hsound : content.Sound) (hsound' : content'.Sound) :
    Lockstep left right (SpaceM.intern content caption) (SpaceM.intern content' caption) fun a b =>
      Twins left right a b ∧ a.content.outline = content.outline where
  grows := .intern content caption
  grows' := .intern content' caption
  agree := by
    intro space other htidy htidy' hext hext'
    have htwins := Space.twins_intern habreast htidy htidy' h (fun _ => hsound.fits) (fun _ => hsound'.fits) hext hext'
    have hchildren : ∀ c ∈ content.children, left.Holds c :=
      (List.forall₂_and_left (p := left.Holds) _ _).mp (h.children.imp fun c d hcd => ⟨hcd.holds, hcd⟩) |>.1
    exact .ok ⟨htwins, Space.intern_outline htidy habreast.valid hsound hext hchildren⟩

/-- What adopting a node gives on two sides. -/
abbrev CopiedAlike (left right : Space) (node : Node) : Prop :=
  Lockstep left right (adopt node) (adopt node) (TwinCopies left right node)

omit habreast in
theorem adoptCopies_lockstep {nodes : List Node} (h : ∀ n ∈ nodes, CopiedAlike left right n) :
    Lockstep left right (adoptList nodes) (adoptList nodes) (TwinLists left right nodes) := by
  induction nodes with
  | nil => exact .pure ⟨.nil, .nil, .nil⟩
  | cons node rest ih =>
      obtain ⟨hnode, hrest⟩ := List.forall_mem_cons.mp h
      refine hnode.bind (fun _ => .bind (adoptAll_inherits .grows rest (.inl trivial)) fun _ => .pure _)
        (fun _ => .bind (adoptAll_inherits .grows rest (.inl trivial)) fun _ => .pure _) fun a b hab => ?_
      exact (ih hrest).map fun _ _ hlists =>
        ⟨.cons hab.twins hlists.twins, .cons hab.alike hlists.alike, .cons hab.alike' hlists.alike'⟩

omit habreast in
theorem adoptCopy_lockstep {node : Option Node} (h : ∀ n ∈ node.toList, CopiedAlike left right n) :
    Lockstep left right (adoptOption node) (adoptOption node) fun out out' =>
      TwinLists left right node.toList out.toList out'.toList := by
  cases node with
  | none => exact .pure ⟨.nil, .nil, .nil⟩
  | some node =>
      exact (h node List.mem_cons_self).map fun _ _ hab =>
        ⟨.cons hab.twins .nil, .cons hab.alike .nil, .cons hab.alike' .nil⟩

/-- Rebuilding a content whose children are copied on two sides. -/
theorem adoptContent_lockstep {content : Content Node} (h : ∀ c ∈ content.children, CopiedAlike left right c) :
    Lockstep left right (adoptContent content) (adoptContent content) fun out out' =>
      out.Related (Twins left right) out' ∧ Remade content out ∧ Remade content out' := by
  cases content with
  | union branches ordered =>
      refine (adoptCopies_lockstep h).map fun out out' hout => ?_
      refine ⟨.union ordered ?_, .union ordered hout.alike, .union ordered hout.alike'⟩
      split
      · exact hout.twins
      · exact sortBranches_related habreast hout.twins
  | morph input output transforms =>
      obtain ⟨hinput, houtput⟩ := List.forall_mem_cons.mp h
      have hrest (a : Node) : (do return Content.morph a (← adoptOption output) transforms : SpaceM _).Grows :=
        .bind (adoptOption_inherits .grows fun o _ => adopt_inherits .grows o (.inl trivial)) fun _ => .pure _
      refine Lockstep.bind hinput hrest hrest fun a b hab => ?_
      refine (adoptCopy_lockstep houtput).map fun out out' hout => ?_
      exact ⟨.morph transforms hab.twins hout.option, .morph transforms hab.alike hout.alike,
        .morph transforms hab.alike' hout.alike'⟩
  | intersection basis constraints =>
      obtain ⟨hbasis, hconstraints⟩ := List.forall_mem_append.mp h
      refine (adoptCopy_lockstep hbasis).bind
        (fun _ => .bind (adoptAll_inherits .grows constraints (.inl trivial)) fun _ => .pure _)
        (fun _ => .bind (adoptAll_inherits .grows constraints (.inl trivial)) fun _ => .pure _) fun basis basis' hb => ?_
      refine (adoptCopies_lockstep hconstraints).map fun out out' hout => ?_
      exact ⟨.intersection hb.option (sortConstraints_related habreast hout.twins), .intersection hb.alike hout.alike,
        .intersection hb.alike' hout.alike'⟩
  | required key value =>
      exact (h value List.mem_cons_self).map fun a b hab =>
        ⟨.required key hab.twins, .required key value a, .required key value b⟩
  | optional key value =>
      exact (h value List.mem_cons_self).map fun a b hab =>
        ⟨.optional key hab.twins, .optional key value a, .optional key value b⟩
  | unit v => exact .pure ⟨.unit rfl, .leaf rfl, .leaf rfl⟩
  | proto p => exact .pure ⟨.proto p, .leaf rfl, .leaf rfl⟩
  | domain d => exact .pure ⟨.domain d, .leaf rfl, .leaf rfl⟩
  | divisor d => exact .pure ⟨.divisor d, .leaf rfl, .leaf rfl⟩
  | max bound => exact .pure ⟨.max rfl, .leaf rfl, .leaf rfl⟩
  | min bound => exact .pure ⟨.min rfl, .leaf rfl, .leaf rfl⟩
  | pattern p => exact .pure ⟨.pattern p, .leaf rfl, .leaf rfl⟩
  | predicate p => exact .pure ⟨.predicate p, .leaf rfl, .leaf rfl⟩

include hnumber

/-- A foreign node is rebuilt the same on two sides. -/
theorem adoptForeign_lockstep {node : Node} (hforeign : node.Foreign left.number) : CopiedAlike left right node := by
  induction node using induct with
  | step content caption profile ih =>
      obtain ⟨⟨hsound, hcanonical⟩, haway⟩ := hforeign.self
      have hrebuilt := adoptContent_lockstep habreast fun c hc => ih c hc (hforeign.child hc)
      have hinterned : Lockstep left right (do SpaceM.intern (← adoptContent content) caption)
          (do SpaceM.intern (← adoptContent content) caption)
          (TwinCopies left right (.mk content caption profile)) := by
        refine hrebuilt.bind (fun _ => .intern _ _) (fun _ => .intern _ _) ?_
        rintro out out' ⟨hrelated, hout, hout'⟩
        refine (internCopies_lockstep habreast hrelated (hout.preserves hsound hcanonical).1
          (hout'.preserves hsound hcanonical).1).imp ?_
        rintro a b ⟨htwins, houtline⟩
        have halike : a.Alike (.mk content caption profile) := houtline.trans hout.outline_eq
        exact ⟨htwins, halike, (htwins.alike habreast).symm.trans halike⟩
      refine ⟨adopt_inherits .grows _ (.inl trivial), adopt_inherits .grows _ (.inl trivial),
        fun space other htidy htidy' hext hext' => ?_⟩
      have hspace := (hext.trans (adopt_inherits .grows _ (.inl trivial) space htidy).2).number
      have hother := (hext'.trans (adopt_inherits .grows _ (.inl trivial) other htidy').2).number
      rw [exec_adopt_foreign (hspace ▸ haway)] at hext ⊢
      rw [exec_adopt_foreign (hother ▸ hnumber ▸ haway)] at hext' ⊢
      exact hinterned.agree space other htidy htidy' hext hext'

/-- A node that two spaces share, or that is foreign to both. -/
def Shared (left right : Space) (node : Node) : Prop :=
  left.Holds node ∧ right.Holds node ∨ node.Foreign left.number

theorem adoptShared_lockstep {node : Node} (h : Shared left right node) :
    Lockstep left right (adopt node) (adopt node) (Twins left right) := by
  rcases h with ⟨hholds, hholds'⟩ | hforeign
  · exact adopt_lockstep habreast ⟨hholds, hholds', rfl⟩
  · exact (adoptForeign_lockstep habreast hnumber hforeign).imp fun _ _ => TwinCopies.twins

end Node

-- ---------------------------------------------------------------------------
-- Entries
-- ---------------------------------------------------------------------------

namespace Definition

open Node (Grouped Groups Mergeless SameTypes)

variable {left right final : Space} {texts : String → Prop} {α β : Type} {Q : α → β → Prop} {entries entries' : Entries}
  {d d' : Definition} {key : String} {R : Caption → Caption → Prop}

/-- Entries that are refused alike, and that have related captions if they are not. -/
def Checked (R : Caption → Caption → Prop) (entries entries' : Entries) : Prop :=
  ∀ kind allowed,
    (∃ caption caption', checkEntries kind allowed entries = pure caption ∧
      checkEntries kind allowed entries' = pure caption' ∧ R caption caption') ∨
    ∃ reason reason', checkEntries kind allowed entries = SpaceM.parseError reason ∧
      checkEntries kind allowed entries' = SpaceM.parseError reason'

/-- Entries that say the same in another order apart from their captions, which are related. -/
structure Restates (final : Space) (R : Caption → Caption → Prop) (entries entries' : Entries) : Prop where
  matched : ∀ key, key ∉ captionKeys → MatchedAt final key entries entries'
  check : Checked R entries entries'

theorem Matched.restates (h : Matched final entries entries') : Restates final (· = ·) entries entries' where
  matched := fun key _ => h key
  check := by
    intro kind allowed
    have hdecided := checkEntries_decided kind allowed entries
    have hrestated := h.checkEntries_restated kind allowed
    generalize checkEntries kind allowed entries = x at hdecided hrestated ⊢
    generalize checkEntries kind allowed entries' = y at hrestated ⊢
    cases hrestated with
    | refused reason reason' => exact .inr ⟨reason, reason', rfl, rfl⟩
    | same =>
        cases hdecided with
        | result caption => exact .inl ⟨caption, caption, rfl, rfl, rfl⟩
        | refusal reason => exact .inr ⟨reason, reason, rfl, rfl⟩

/-- What follows a check of the entries. -/
theorem Restates.check_echoes (h : Restates final R entries entries') {kind : Kind} {allowed : List String}
    {f : Caption → SpaceM α} {g : Caption → SpaceM β}
    (hfg : ∀ caption caption', R caption caption' → Echoes texts left right (f caption) (g caption') Q) :
    Echoes texts left right (checkEntries kind allowed entries >>= f) (checkEntries kind allowed entries' >>= g) Q := by
  rcases h.check kind allowed with ⟨caption, caption', heq, heq', hR⟩ | ⟨reason, reason', heq, heq'⟩ <;> rw [heq, heq']
  · exact hfg caption caption' hR
  · exact .parseError reason reason'

/-- What follows an entry that must be there. -/
theorem MatchedAt.requiredEntry_echoes (h : MatchedAt final key entries entries') (kind : Kind)
    {f : Definition → SpaceM α} {g : Definition → SpaceM β} (hfg : ∀ d d', entries.lookup key = some d →
      RearrangedAt final key d d' → Echoes texts left right (f d) (g d') Q) :
    Echoes texts left right (requiredEntry kind key entries >>= f) (requiredEntry kind key entries' >>= g) Q := by
  unfold requiredEntry
  exact h.elim (.parseError _ _) fun d d' hlookup hd => hfg d d' hlookup hd

variable (habreast : Abreast left right)

-- ---------------------------------------------------------------------------
-- Properties
-- ---------------------------------------------------------------------------

/-- A refinement of a kind that was read from a definition: a property is of the key that is written there. -/
structure ReadFrom (final : Space) (kind : Kind) (d : Definition) (n : Node) : Prop where
  kind_eq : n.kind = kind
  keyed : ∀ key, n.slot? = some (.required key) ∨ n.slot? = some (.optional key) → Keyed final d key

theorem readFrom_of_kind {kind : Kind} {n : Node} (h : n.kind = kind) (hrequired : kind ≠ .required)
    (hoptional : kind ≠ .optional) : ReadFrom final kind d n := by
  refine ⟨h, fun key hslot => ?_⟩
  subst h
  unfold Node.slot? at hslot
  unfold Node.kind at hrequired hoptional
  cases hcontent : n.content <;> rw [hcontent] at hslot hrequired hoptional <;> simp [Content.slot?] at hslot
  · exact absurd rfl hrequired
  · exact absurd rfl hoptional

include habreast

/-- A property whose value is read again. -/
theorem propOf_echoes (hfinal : final.registry.Descends left.registry) (h : Matched final entries entries')
    (ht : ∀ text ∈ textsAt entries, texts text) {kind : Kind} {make : PropKey → Node → Content Node}
    (hmake : kind = .required ∧ make = .required ∨ kind = .optional ∧ make = .optional)
    {readValue readValue' : SpaceM (Option Node)}
    (hvalue : Echoes texts left right readValue readValue' (Option.Rel (Twins left right))) :
    Echoes texts left right (propOf kind make entries readValue) (propOf kind make entries' readValue') fun a b =>
      Twins left right a b ∧ ReadFrom final kind (.map entries) a := by
  have hmade {use : Option Node → SpaceM Node} {error : ParseError} {made : Node → Content Node} {caption : Caption}
      (hnone : use none = SpaceM.parseError error) (hsome : ∀ held, use (some held) = SpaceM.intern (made held) caption)
      (held : Option Node) : (use held).Proceeds := by
    cases held with
    | none => exact hnone ▸ SpaceM.Compositional.proceeds.throw _ rfl
    | some held => exact hsome held ▸ SpaceM.Proceeds.intern _ _
  refine h.restates.check_echoes fun caption caption' hcaption => ?_
  subst hcaption
  refine (h "key").requiredEntry_echoes kind fun d d' hlookup hd => ?_
  have hreads : Echoes texts left right (readKey d) (readKey d') (· = ·) :=
    (readKey_restated (hd.rearranged (by decide))).echoes
      (readKey_echoes d fun text htext => ht text (texts_of_lookup hlookup htext))
  have hkey := hreads.settles (R := fun key => ((readKey d).exec final).1 = .ok key) fun space key hs hleft hkey =>
    readKey_later hs (hfinal.trans (hleft.registry.trans (readKey_inherits .proceeds d space hs).2.registry)) hkey
  refine hkey.bind (fun key => hvalue.proceeds.bind (hmade rfl fun _ => rfl))
    (fun key => hvalue.proceeds'.bind (hmade rfl fun _ => rfl)) ?_
  rintro key _ ⟨rfl, hread⟩
  refine hvalue.bind (hmade rfl fun _ => rfl) (hmade rfl fun _ => rfl) fun held held' hheld => ?_
  cases hheld with
  | none => exact .parseError _ _
  | @some held held' htwins =>
      have hkeyed : Keyed final (.map entries) key := ⟨entries, d, rfl, hlookup, hread⟩
      have hprop {content content' : Content Node} (hrelated : content.Related (Twins left right) content')
          (hsound : content.Sound) (hsound' : content'.Sound) (hkind : content.kind = kind)
          (hslot : content.slot? = some (.required key) ∨ content.slot? = some (.optional key)) :
          Echoes texts left right (SpaceM.intern content caption) (SpaceM.intern content' caption) fun a b =>
            Twins left right a b ∧ ReadFrom final kind (.map entries) a := by
        refine (Echoes.ofLockstep (Node.internCopies_lockstep habreast hrelated hsound hsound')
          (SpaceM.Proceeds.intern _ _) (SpaceM.Proceeds.intern _ _)).imp fun a b hab => ?_
        refine ⟨hab.1, (Content.kind_eq_of_outline hab.2).trans hkind, fun key' hslot' => ?_⟩
        rw [Node.slot?, Content.slot?_eq_of_outline hab.2] at hslot'
        have hsame : key' = key := by
          rcases hslot with hslot | hslot <;> rw [hslot] at hslot' <;> simp at hslot' <;> exact hslot'.symm
        exact hsame ▸ hkeyed
      rcases hmake with ⟨rfl, rfl⟩ | ⟨rfl, rfl⟩
      · exact hprop (.required key htwins) trivial trivial rfl (.inl rfl)
      · exact hprop (.optional key htwins) trivial trivial rfl (.inr rfl)

-- ---------------------------------------------------------------------------
-- Refinements in any order
-- ---------------------------------------------------------------------------

section

variable {kind : Kind} {items items' : List Definition} {nodes nodes' : List Node}

/-- Refinements of a kind that were read from definitions, each in an order of its own. -/
abbrev ReadsApart (left right final : Space) (kind : Kind) (items items' : List Definition) (nodes nodes' : List Node) :
    Prop :=
  Shuffled (fun d _ a b => Twins left right a b ∧ ReadFrom final kind d a) items items' nodes nodes'

omit habreast in
theorem ReadsApart.sameTypes (h : ReadsApart left right final kind items items' nodes nodes') :
    SameTypes left right nodes nodes' := by
  obtain ⟨all, -, -, hresults, hresults', hall⟩ := h
  have hpairs : List.Forall₂ (Twins left right) (all.map SpaceM.Handled.result) (all.map SpaceM.Handled.result') :=
    List.forall₂_map_left_iff.mpr (List.forall₂_map_right_iff.mpr (List.forall₂_same.mpr fun r hr => (hall r hr).1))
  have hsame := Node.sameTypes_of_twins hpairs
  exact ⟨fun n hn => hsame.holds n (hresults.mem_iff.mp hn), fun n hn => hsame.holds' n (hresults'.mem_iff.mp hn),
    (hresults.map _).trans (hsame.types.trans (hresults'.map _).symm)⟩

omit habreast in
theorem ReadsApart.kinds (h : ReadsApart left right final kind items items' nodes nodes') : ∀ n ∈ nodes, n.kind = kind := by
  obtain ⟨all, -, -, hresults, -, hall⟩ := h
  intro n hn
  obtain ⟨r, hr, rfl⟩ := List.mem_map.mp (hresults.mem_iff.mp hn)
  exact (hall r hr).2.kind_eq

/-- A pattern or a predicate merges with no other one. -/
theorem sameType_of_slot {a b : Node} (ha : left.Holds a) (hb : left.Holds b) (hkind : a.kind = .pattern ∨ a.kind = .predicate)
    (hslot : a.slot? = b.slot?) : a.sameType b = true := by
  refine habreast.valid.sameType_of_content ha hb ?_
  unfold Node.kind at hkind
  unfold Node.slot? at hslot
  generalize a.content = content at hkind hslot ⊢
  generalize b.content = content' at hslot ⊢
  cases content <;> simp [Content.kind] at hkind <;> cases content' <;> simp [Content.slot?] at hslot <;> rw [hslot]

omit habreast in
/-- Properties of one kind in one slot were read from definitions with one key. -/
theorem ReadFrom.keyed_both {a b : Node} (h : ReadFrom final kind d a) (h' : ReadFrom final kind d' b)
    (hkind : kind = .required ∨ kind = .optional) (hslot : a.slot? = b.slot?) :
    ∃ key, Keyed final d key ∧ Keyed final d' key := by
  obtain ⟨key, hkey⟩ : ∃ key, a.slot? = some (.required key) ∨ a.slot? = some (.optional key) := by
    have hkind' := h.kind_eq ▸ hkind
    unfold Node.kind at hkind'
    unfold Node.slot?
    generalize a.content = content at hkind' ⊢
    cases content <;> simp [Content.kind] at hkind' <;> simp [Content.slot?]
  exact ⟨key, h.keyed key hkey, h'.keyed key (hslot ▸ hkey)⟩

theorem ReadsApart.mergeless (h : ReadsApart left right final kind items items' nodes nodes')
    (hpermutable : Permutable final kind.name items) : Mergeless nodes := by
  obtain ⟨all, hitems, -, hresults, -, hall⟩ := h
  have hmergeless : ∀ r ∈ all, ∀ s ∈ all, r.result.slot? = s.result.slot? → r.result.sameType s.result = true := by
    intro r hr s hs
    rcases hpermutable with hname | ⟨hname, hapart⟩
    · have hkind : kind = .pattern ∨ kind = .predicate := by
        revert hname
        cases kind <;> decide
      exact sameType_of_slot habreast (hall r hr).1.holds (hall s hs).1.holds (by rwa [(hall r hr).2.kind_eq])
    · have hkind : kind = .required ∨ kind = .optional := by
        revert hname
        cases kind <;> decide
      have hpairs : all.Pairwise fun r s => ∀ key, Keyed final r.item key → ¬ Keyed final s.item key :=
        List.pairwise_map.mp (hitems.pairwise hapart fun h key hkey hkey' => h key hkey' hkey)
      have hmeet : all.Pairwise fun r s => r.result.slot? = s.result.slot? → r.result.sameType s.result = true :=
        hpairs.imp_of_mem fun hr hs hapart hslot => by
          obtain ⟨key, hkey, hkey'⟩ := (hall _ hr).2.keyed_both (hall _ hs).2 hkind hslot
          exact absurd hkey' (hapart key hkey)
      have hsymm : Std.Symm fun r s : SpaceM.Handled Definition Definition Node Node =>
          r.result.slot? = s.result.slot? → r.result.sameType s.result = true :=
        ⟨fun _ _ h hslot => BEq.comm.trans (h hslot.symm)⟩
      exact hmeet.forall_of_forall (fun r _ _ => beq_self_eq_true r.result.typeId) hr hs
  intro a ha b hb
  obtain ⟨r, hr, rfl⟩ := List.mem_map.mp (hresults.mem_iff.mp ha)
  obtain ⟨s, hs, rfl⟩ := List.mem_map.mp (hresults.mem_iff.mp hb)
  exact hmergeless r hr s hs

theorem ReadsApart.grouped (h : ReadsApart left right final kind items items' nodes nodes')
    (hpermutable : Permutable final kind.name items) : Grouped left right kind nodes nodes' := by
  refine ⟨h.kinds, h.sameTypes, .inr ⟨?_, h.mergeless habreast hpermutable⟩⟩
  rcases hpermutable with hname | ⟨hname, -⟩ <;> revert hname <;> cases kind <;> decide

omit habreast in
/-- Refinements of a kind in one order. -/
theorem grouped_of_twins (h : List.Forall₂ (TwinsOf left right kind) nodes nodes') : Grouped left right kind nodes nodes' := by
  have htwins := h.imp fun _ _ => TwinsOf.twins
  exact ⟨((List.forall₂_and_left (p := fun n => n.kind = kind) _ _).mp (h.imp fun _ _ hab => ⟨hab.kind_eq, hab⟩)).1,
    Node.sameTypes_of_twins htwins, .inl htwins⟩

end

-- ---------------------------------------------------------------------------
-- Maps
-- ---------------------------------------------------------------------------

/-- A morph whose input and output are read again. -/
theorem morphOf_echoes (h : Restates final R entries entries') (ht : ∀ text ∈ textsAt entries, texts text)
    {readInput readInput' readOutput readOutput' : SpaceM (Option Node)}
    (hinput : Echoes texts left right readInput readInput' (Option.Rel (Twins left right)))
    (houtput : Echoes texts left right readOutput readOutput' (Option.Rel (Twins left right))) :
    Echoes texts left right (morphOf entries readInput readOutput) (morphOf entries' readInput' readOutput')
      (Twins left right) := by
  have hmade (entries : Entries) (caption : Caption) (input : Node) (output : Option Node) : (do
      let transforms ← resolveTransforms (← requiredEntry .morph "morph" entries)
      Node.createMorph input output transforms caption).Proceeds :=
    ((requiredEntry_decided _ _ _).inherits .proceeds).bind fun _ =>
      (resolveTransforms_inherits .proceeds _).bind fun _ => Node.createMorph_inherits .proceeds _ _ _ _
  refine h.check_echoes fun caption caption' _ => ?_
  have hrest (input input' : Node) (hi : Twins left right input input') :
      Echoes texts left right
        (do
          let output ← readOutput
          let transforms ← resolveTransforms (← requiredEntry .morph "morph" entries)
          Node.createMorph input output transforms caption)
        (do
          let output ← readOutput'
          let transforms ← resolveTransforms (← requiredEntry .morph "morph" entries')
          Node.createMorph input' output transforms caption') (Twins left right) := by
    refine houtput.bind (hmade entries caption input) (hmade entries' caption' input') fun output output' ho => ?_
    refine (h.matched "morph" (by decide)).requiredEntry_echoes .morph fun d d' hlookup hd => ?_
    refine (resolveTransforms_echoes (hd.rearranged (by decide))
      fun text htext => ht text (texts_of_lookup hlookup htext)).bind
      (fun _ => Node.createMorph_inherits .proceeds _ _ _ _) (fun _ => Node.createMorph_inherits .proceeds _ _ _ _) ?_
    rintro transforms _ rfl
    exact .ofLockstep (Node.createMorph_lockstep habreast hi ho transforms caption caption')
      (Node.createMorph_inherits .proceeds _ _ _ _) (Node.createMorph_inherits .proceeds _ _ _ _)
  have hunknown : Echoes texts left right SpaceM.unknown SpaceM.unknown (TwinsOf left right .intersection) :=
    intern_echoes habreast (.intersection .none .nil) rfl rfl _ _
  refine hinput.bind ?proceeds ?proceeds' fun input input' hi => ?_
  case proceeds =>
    intro input
    cases input with
    | some input => exact houtput.proceeds.bind (hmade _ _ input)
    | none => exact hunknown.proceeds.bind fun input => houtput.proceeds.bind (hmade _ _ input)
  case proceeds' =>
    intro input
    cases input with
    | some input => exact houtput.proceeds'.bind (hmade _ _ input)
    | none => exact hunknown.proceeds.bind fun input => houtput.proceeds'.bind (hmade _ _ input)
  cases hi with
  | some hi => exact hrest _ _ hi
  | none =>
      exact hunknown.bind (fun input => houtput.proceeds.bind (hmade _ _ input))
        (fun input => houtput.proceeds'.bind (hmade _ _ input)) fun input input' hi => hrest input input' hi.twins

omit habreast in
theorem refinementsOf_echoes {read read' : Kind → SpaceM (List Node)} {kinds : List Kind}
    (h : ∀ kind ∈ kinds, Echoes texts left right (read kind) (read' kind) (Grouped left right kind)) :
    Echoes texts left right (refinementsOf read kinds) (refinementsOf read' kinds) (Groups left right kinds) := by
  induction kinds with
  | nil => exact .pure .nil
  | cons kind rest ih =>
      obtain ⟨hkind, hrest⟩ := List.forall_mem_cons.mp h
      refine hkind.bind (fun _ => (ih hrest).proceeds.bind fun _ => SpaceM.Compositional.proceeds.pure _)
        (fun _ => (ih hrest).proceeds'.bind fun _ => SpaceM.Compositional.proceeds.pure _) fun found found' hfound => ?_
      exact (ih hrest).map fun _ _ hothers => .cons hfound hothers

/-- Bases of one type. -/
structure TwinBases (left right : Space) (a b : Node) : Prop where
  twins : Twins left right a b
  isBasis : a.isBasis = true

/-- What is read again under one of the keys of a basis, and what follows. -/
theorem basisAt_echoes (h : Rearranged final d d') (ht : ∀ text ∈ d.texts, texts text)
    {readBasis readBasis' : SpaceM (Option Node)}
    (hbasis : Echoes texts left right readBasis readBasis' (Option.Rel (Twins left right)))
    {next next' : Node → SpaceM α} (hproceeds : ∀ n, (next n).Proceeds) (hproceeds' : ∀ n, (next' n).Proceeds)
    {S : α → α → Prop}
    (hnext : ∀ n n', TwinBases left right n n' → Echoes texts left right (next n) (next' n') S) (key : String) :
    Echoes texts left right
      (do
        let basis ← match key with
          | "domain" => readDomain d
          | "unit" => do SpaceM.internPlain (.unit (← readLiteral d))
          | "proto" => readProto d
          | _ => do
            match ← readBasis with
            | some n => if n.isBasis then pure n else SpaceM.parseError (.notBasis n.kind)
            | none => SpaceM.parseError (.missingKey .intersection key)
        next basis)
      (do
        let basis ← match key with
          | "domain" => readDomain d'
          | "unit" => do SpaceM.internPlain (.unit (← readLiteral d'))
          | "proto" => readProto d'
          | _ => do
            match ← readBasis' with
            | some n => if n.isBasis then pure n else SpaceM.parseError (.notBasis n.kind)
            | none => SpaceM.parseError (.missingKey .intersection key)
        next' basis) S := by
  have hintern (next : Node → SpaceM α) (h : ∀ n, (next n).Proceeds) (v : Value) :
      (SpaceM.internPlain (.unit v) >>= next).Proceeds :=
    SpaceM.Proceeds.bind (SpaceM.Proceeds.intern _ _) h
  have hkind {kind : Kind} (hkind : kind.isBasis = true) {n n' : Node} (hn : TwinsOf left right kind n n') :
      TwinBases left right n n' := ⟨hn.twins, by rw [Node.isBasis, hn.kind_eq, hkind]⟩
  dsimp only
  split
  · exact ((readDomain_restated h).echoes (readDomain_echoes habreast d)).bind hproceeds hproceeds'
      fun n n' hn => hnext n n' (hkind rfl hn)
  · refine ((readLiteral_restated h).echoes (readLiteral_echoes d ht)).bind (hintern next hproceeds)
      (hintern next' hproceeds') ?_
    rintro v _ rfl
    exact (intern_echoes habreast (.unit rfl) trivial trivial _ _).bind hproceeds hproceeds'
      fun n n' hn => hnext n n' (hkind rfl hn)
  · exact ((readProto_restated h).echoes (readProto_echoes habreast d ht)).bind hproceeds hproceeds'
      fun n n' hn => hnext n n' (hkind rfl hn)
  · refine hbasis.bind ?grows ?grows' fun held held' hheld => ?_
    case grows | grows' =>
      intro held
      cases held with
      | none => exact SpaceM.Compositional.proceeds.throw _ rfl
      | some n =>
          dsimp only
          split
          · exact SpaceM.Proceeds.bind (SpaceM.Compositional.proceeds.pure _) ‹_›
          · exact SpaceM.Compositional.proceeds.throw _ rfl
    cases hheld with
    | none => exact .parseError _ _
    | @some n n' hn =>
        have hsame : n'.isBasis = n.isBasis := by rw [Node.isBasis, Node.isBasis, hn.kind_eq habreast]
        dsimp only
        rw [hsame]
        split
        · exact hnext n n' ⟨hn, ‹_›⟩
        · exact .parseError _ _

/-- The basis of an intersection, written under one of the given keys, is read again. -/
theorem basisOf_echoes {readBasis readBasis' : SpaceM (Option Node)}
    (hbasis : Echoes texts left right readBasis readBasis' (Option.Rel (Twins left right))) {keys : List String}
    (hmatched : ∀ key ∈ keys, MatchedAt final key entries entries')
    (hkeys : ∀ key ∈ keys, key ∉ ["pattern", "predicate", "required", "optional"])
    (ht : ∀ text ∈ textsAt entries, texts text) {found found' : Option Node}
    (hfound : Option.Rel (TwinBases left right) found found') :
    Echoes texts left right (basisOf entries readBasis found keys) (basisOf entries' readBasis' found' keys)
      (Option.Rel (TwinBases left right)) := by
  induction keys generalizing found found' with
  | nil => exact .pure hfound
  | cons key keys ih =>
      obtain ⟨hentry, hmatched⟩ := List.forall_mem_cons.mp hmatched
      obtain ⟨hkey, hkeys⟩ := List.forall_mem_cons.mp hkeys
      have hproceeds (n : Node) : (basisOf entries readBasis (some n) keys).Proceeds :=
        basisOf_inherits .proceeds entries hbasis.proceeds _ keys
      have hproceeds' (n : Node) : (basisOf entries' readBasis' (some n) keys).Proceeds :=
        basisOf_inherits .proceeds entries' hbasis.proceeds' _ keys
      unfold basisOf
      refine hentry.elim (ih hmatched hkeys hfound) fun d d' hlookup hd => ?_
      cases hfound with
      | some _ => exact .parseError _ _
      | none =>
          exact basisAt_echoes habreast (hd.rearranged hkey) (fun text htext => ht text (texts_of_lookup hlookup htext))
            hbasis hproceeds hproceeds' (fun n n' hn => ih hmatched hkeys (.some hn)) key

variable [Behaviour] (hblind : BlindToSign)

include hblind

/-- A union whose branches are read again. -/
theorem unionOf_echoes (h : Restates final R entries entries')
    (hcaptions : ∀ caption caption', R caption caption' → caption'.isEmpty = true → caption.isEmpty = true)
    {readBranches readBranches' : SpaceM (List Node)}
    (hbranches : Echoes texts left right readBranches readBranches' (List.Forall₂ (Twins left right))) :
    Echoes texts left right (unionOf entries readBranches) (unionOf entries' readBranches') fun a b =>
      ∃ caption caption', R caption caption' ∧ Node.Joined left right caption caption' a b := by
  refine h.check_echoes fun caption caption' hR => ?_
  refine (h.matched "branches" (by decide)).requiredEntry_echoes .union fun d d' _ hd => ?_
  have hlist : Echoes texts left right
      (do
        let ordered ← optionalFlag "ordered" entries
        Node.assembleUnion (← readBranches) ordered caption)
      (do
        let ordered ← optionalFlag "ordered" entries'
        Node.assembleUnion (← readBranches') ordered caption') fun a b =>
          ∃ caption caption', R caption caption' ∧ Node.Joined left right caption caption' a b := by
    refine (h.matched "ordered" (by decide)).optionalFlag_restated.echoes_bind (optionalFlag_decided _ _) fun ordered => ?_
    refine hbranches.bind (fun _ => Node.assembleUnion_inherits .proceeds _ _ _)
      (fun _ => Node.assembleUnion_inherits .proceeds _ _ _) fun branches branches' hb => ?_
    have hassembled := Node.assembleUnion_joined habreast hblind (hcaptions caption caption' hR) hb ordered
    exact (Echoes.ofLockstep hassembled (Node.assembleUnion_inherits .proceeds _ _ _)
      (Node.assembleUnion_inherits .proceeds _ _ _)).imp fun _ _ hab => ⟨caption, caption', hR, hab⟩
  refine hd.flat (fun d => ?_) (fun _ _ => hlist) fun _ _ => .parseError _ _
  cases d with
  | list items => exact hlist
  | _ => exact .parseError _ _

/-- An intersection whose basis and refinements are read again. -/
theorem intersectionOf_echoes (h : Restates final R entries entries') (ht : ∀ text ∈ textsAt entries, texts text)
    {readBasis readBasis' : SpaceM (Option Node)} {readRefinements readRefinements' : Kind → BoundAxis → SpaceM (List Node)}
    (hbasis : Echoes texts left right readBasis readBasis' (Option.Rel (Twins left right)))
    (hrefinements : ∀ kind axis, Echoes texts left right (readRefinements kind axis) (readRefinements' kind axis)
      (Grouped left right kind)) :
    Echoes texts left right (intersectionOf entries readBasis readRefinements)
      (intersectionOf entries' readBasis' readRefinements') (Twins left right) := by
  have hmade (basis : Option Node) (caption : Caption) (refinements : List Node) :
      (Node.ofDefinition basis refinements caption).Proceeds := Node.ofDefinition_inherits .proceeds _ _ _ (.inl trivial)
  have hrest (axis : BoundAxis) :
      Echoes texts left right (refinementsOf (fun kind => readRefinements kind axis) Kind.refinements)
        (refinementsOf (fun kind => readRefinements' kind axis) Kind.refinements)
        (Groups left right Kind.refinements) :=
    refinementsOf_echoes fun kind _ => hrefinements kind axis
  refine h.check_echoes fun caption caption' _ => ?_
  have hmatched : ∀ key ∈ basisKeys, MatchedAt final key entries entries' :=
    fun key hkey => h.matched key (by revert key; decide)
  refine (basisOf_echoes habreast hbasis hmatched (by decide) ht .none).bind
    (fun basis => (hrest _).proceeds.bind (hmade basis caption))
    (fun basis => (hrest _).proceeds'.bind (hmade basis caption')) fun basis basis' hb => ?_
  have htwins : Option.Rel (Twins left right) basis basis' := by
    cases hb with
    | none => exact .none
    | some hb => exact .some hb.twins
  have hisBasis : ∀ b ∈ basis, b.isBasis = true := by
    cases hb with
    | none => simp
    | some hb => simp [hb.isBasis]
  have haxis : Node.impliedAxis basis = Node.impliedAxis basis' := by
    cases hb with
    | none => rfl
    | some hb =>
        have halike := hb.twins.alike habreast
        simp only [Node.impliedAxis, halike.basisProto?_eq, halike.basisDomain?_eq]
  rw [haxis]
  refine (hrest _).bind (hmade basis caption) (hmade basis' caption') fun refinements refinements' hr => ?_
  exact .ofLockstep (Node.ofDefinition_regrouped habreast hblind htwins hisBasis hr caption caption') (hmade _ _ _)
    (hmade _ _ _)

/-- A map is read again under its captions. Only a union can come to something else. -/
theorem readRoot_map_echoes (h : Restates final R entries entries')
    (hcaptions : ∀ caption caption', R caption caption' → caption'.isEmpty = true → caption.isEmpty = true)
    (ht : ∀ text ∈ textsAt entries, texts text)
    (hbranches : Echoes texts left right (rootsAt "branches" entries) (rootsAt "branches" entries')
      (List.Forall₂ (Twins left right)))
    (hroot : ∀ key ∈ ["in", "out", "basis"], Echoes texts left right (rootAt key entries) (rootAt key entries')
      (Option.Rel (Twins left right)))
    (hrefinements : ∀ kind axis, Echoes texts left right (refinementsAt kind axis entries)
      (refinementsAt kind axis entries') (Grouped left right kind)) :
    Echoes texts left right (readRoot (.map entries)) (readRoot (.map entries')) fun a b => Twins left right a b ∨
      hasKey "branches" entries = true ∧
        ∃ caption caption', R caption caption' ∧ Node.Joined left right caption caption' a b := by
  unfold readRoot
  rw [(h.matched "branches" (by decide)).hasKey_eq, (h.matched "morph" (by decide)).hasKey_eq]
  split
  · rename_i hunion
    exact (unionOf_echoes habreast hblind h hcaptions hbranches).imp fun _ _ hab => .inr ⟨hunion, hab⟩
  · split
    · exact (morphOf_echoes habreast h ht (hroot "in" (by simp)) (hroot "out" (by simp))).imp fun _ _ => .inl
    · exact (intersectionOf_echoes habreast hblind h ht (hroot "basis" (by simp)) hrefinements).imp fun _ _ => .inl

-- ---------------------------------------------------------------------------
-- Names
-- ---------------------------------------------------------------------------

section

variable {name : String} {space : Space} (hword : name ∉ ["boolean", "null", "undefined"])

include hword

omit habreast hblind

theorem readRootName_eq : readRootName name = (do
    let registry ← registry
    if registry.isReference name then
      match registry.resolve? name with
      | some (.proto p) => SpaceM.internPlain (.proto p)
      | some (.value v) => SpaceM.internPlain (.unit v)
      | _ => readProto (.string name)
    else readDomain (.string name)) := by
  unfold readRootName
  split <;> first | rfl | simp at hword

/-- A text that is no keyword and no reference is read as the name of a domain. -/
theorem exec_readRootName (h : space.registry.isReference name = false) :
    (readRootName name).exec space = (readDomain (.string name)).exec space := by
  rw [readRootName_eq hword, SpaceM.exec_bind, exec_registry]
  dsimp only
  rw [h, if_neg Bool.false_ne_true]

theorem exec_readRootName_value (h : space.registry.isReference name = true) {v : Value}
    (hresolve : space.registry.resolve? name = some (.value v)) :
    (readRootName name).exec space = (SpaceM.internPlain (.unit v)).exec space := by
  rw [readRootName_eq hword, SpaceM.exec_bind, exec_registry]
  dsimp only
  rw [if_pos h, hresolve]

/-- A reference to anything but a value is a name of a constructor. -/
theorem exec_readRootName_proto (h : space.registry.isReference name = true)
    (hresolve : ∀ v, space.registry.resolve? name ≠ some (.value v)) :
    (readRootName name).exec space = (readProto (.string name)).exec space := by
  rw [readRootName_eq hword, SpaceM.exec_bind, exec_registry]
  dsimp only
  rw [if_pos h]
  split
  · rename_i p hproto
    refine (@exec_constructor name .none space p ?_).symm
    rw [Registry.constructor?, hproto]
  · rename_i v hvalue
    exact absurd hvalue (hresolve v)
  · rfl

/-- A reference to nothing can mean a constructor that is built in. When it is read, the constructor is registered, so that
the reference cannot come to stand for anything else. -/
theorem readRootName_recalls {P : Node → Node → Prop} (ht : texts name)
    (hunit : ∀ v, Recalls texts left right (SpaceM.internPlain (.unit v)) (SpaceM.internPlain (.unit v)) P)
    (hnamed : Recalls texts left right (readProto (.string name)) (readProto (.string name)) P)
    (hdomain : Recalls texts left right (readDomain (.string name)) (readDomain (.string name)) P) :
    Recalls texts left right (readRootName name) (readRootName name) P := by
  have hproceeds := readRootName_inherits .proceeds name
  intro space other a hs ho hleft hright hruns ha
  have hspace := hleft.registry.trans (hproceeds space hs).2.registry
  have hother := hright.registry.trans (hproceeds other ho).2.registry
  have hcomparable := hruns.comparable hspace hother
  have hsame : other.registry.isReference name = space.registry.isReference name :=
    hcomparable.elim (fun h => h.isReference_eq name) fun h => (h.isReference_eq name).symm
  cases hreference : space.registry.isReference name with
  | false =>
      rw [exec_readRootName hword hreference] at hleft ha
      rw [exec_readRootName hword (hsame.trans hreference)] at hright ⊢
      exact hdomain space other a hs ho hleft hright hruns ha
  | true =>
      have hreference' := hsame.trans hreference
      by_cases hvalue : ∃ v, space.registry.resolve? name = some (.value v)
      · obtain ⟨v, hresolve⟩ := hvalue
        rw [exec_readRootName_value hword hreference hresolve] at hleft ha
        by_cases hresolve' : other.registry.resolve? name = some (.value v)
        · rw [exec_readRootName_value hword hreference' hresolve'] at hright ⊢
          exact hunit v space other a hs ho hleft hright hruns ha
        have hearlier : space.registry.Descends right.registry := hruns.resolve_left fun hlater =>
          hresolve' ((hlater.trans hspace).resolve? hs.lawful hresolve)
        have hnone : other.registry.resolve? name = none :=
          ((hearlier.trans hother).resolve?_before ho.lawful hresolve).resolve_left hresolve'
        rw [exec_readRootName_proto hword hreference' (by simp [hnone])] at hright ⊢
        cases hmeans : other.registry.constructor? name with
        | none =>
            have hexec : (readProto (.string name)).exec other = _ := @exec_no_constructor name .none other hmeans
            rw [hexec]
            exact .refused ⟨name, ht, by rw [hspace.resolve? hs.lawful hresolve]; rfl, hnone⟩
        | some p =>
            have hregistered : right.Onward ((SpaceM.intern (.proto p) .none).exec other).2 := by
              rw [← exec_constructor hmeans]
              exact hright
            have hagain := (constructor_later ho hmeans hregistered hearlier).2
            rw [hresolve, hnone] at hagain
            simp at hagain
      · have hvalue : ∀ v, space.registry.resolve? name ≠ some (.value v) := not_exists.mp hvalue
        rw [exec_readRootName_proto hword hreference hvalue] at hleft ha
        by_cases hvalue' : ∃ v, other.registry.resolve? name = some (.value v)
        · obtain ⟨v, hresolve'⟩ := hvalue'
          have hlater : other.registry.Descends left.registry := hruns.resolve_right fun hearlier =>
            hvalue v ((hearlier.trans hother).resolve? ho.lawful hresolve')
          obtain ⟨p, hmeans⟩ := constructor_of_read ha
          have hregistered : left.Onward ((SpaceM.intern (.proto p) .none).exec space).2 := by
            rw [← exec_constructor hmeans]
            exact hleft
          have hagain := (constructor_later hs hmeans hregistered hlater).2
          rw [hresolve'] at hagain
          exact absurd hagain (by simpa using fun h => hvalue v h.symm)
        · rw [exec_readRootName_proto hword hreference' (not_exists.mp hvalue')] at hright ⊢
          exact hnamed space other a hs ho hleft hright hruns ha

end

theorem readRootName_echoes {name : String} (ht : texts name) :
    Echoes texts left right (readRootName name) (readRootName name) (Twins left right) := by
  have hunit (v : Value) := (@intern_echoes left right texts habreast _ _ (.unit (v := v) rfl) trivial trivial .none .none).imp
    fun _ _ => TwinsOf.twins
  have hproto := (readProto_echoes habreast (.string name) (List.forall_mem_singleton.mpr ht)).imp fun _ _ => TwinsOf.twins
  have hdomain := (@readDomain_echoes left right texts habreast (.string name)).imp fun _ _ => TwinsOf.twins
  by_cases hword : name ∈ ["boolean", "null", "undefined"]
  · simp only [List.mem_cons, List.not_mem_nil, or_false] at hword
    rcases hword with rfl | rfl | rfl
    · have hassemble (yes no : Node) : (Node.assembleUnion [yes, no] false .none).Proceeds :=
        Node.assembleUnion_inherits .proceeds _ _ _
      refine (hunit _).bind (fun yes => (hunit (.boolean false)).proceeds.bind (hassemble yes))
        (fun yes => (hunit (.boolean false)).proceeds.bind (hassemble yes)) fun yes yes' hyes => ?_
      refine (hunit _).bind (hassemble yes) (hassemble yes') fun no no' hno => ?_
      exact .ofLockstep (Node.assembleUnion_lockstep habreast hblind (.cons hyes (.cons hno .nil)) false)
        (hassemble yes no) (hassemble yes' no')
    · exact hunit _
    · exact hunit _
  · exact ⟨readRootName_inherits .proceeds name, readRootName_inherits .proceeds name,
      readRootName_recalls hword ht (fun v => (hunit v).forth) hproto.forth hdomain.forth,
      readRootName_recalls hword ht (fun v => (hunit v).back) hproto.back hdomain.back⟩

-- ---------------------------------------------------------------------------
-- Definitions
-- ---------------------------------------------------------------------------

omit habreast hblind in
theorem readRoots_eq_mapM (items : List Definition) : readRoots items = items.mapM readRoot := by
  induction items with
  | nil => rfl
  | cons d rest ih => rw [List.mapM_cons, readRoots, ih]

omit habreast hblind in
theorem readRefinements_eq_mapM (kind : Kind) (axis : BoundAxis) (items : List Definition) :
    readRefinements kind axis items = items.mapM (readRefinement kind axis) := by
  induction items with
  | nil => rfl
  | cons d rest ih => rw [List.mapM_cons, readRefinements, ih]

/-- A definition that is read again in any order that it can be written in: as a root, as a refinement, and for the
roots and the refinements in it where it is an entry of a map. -/
structure Rereads (texts : String → Prop) (left right final : Space) (d : Definition) : Prop where
  root : ∀ d', Rearranged final d d' → Echoes texts left right (readRoot d) (readRoot d') (Twins left right)
  roots : ∀ d', Rearranged final d d' →
    Echoes texts left right (rootsIn d) (rootsIn d') (List.Forall₂ (Twins left right))
  refinement : ∀ kind axis d', Rearranged final d d' →
    Echoes texts left right (readRefinement kind axis d) (readRefinement kind axis d') fun a b =>
      Twins left right a b ∧ ReadFrom final kind d a
  refinements : ∀ kind axis d', RearrangedAt final kind.name d d' →
    Echoes texts left right (refinementsAt kind axis [(kind.name, d)]) (refinementsAt kind axis [(kind.name, d')])
      (Grouped left right kind)

omit hblind habreast in
/-- In what is no list, there are no roots, and one refinement at most. -/
theorem Rereads.of_single (hlist : ∀ items, d ≠ .list items)
    (hroot : ∀ d', Rearranged final d d' → Echoes texts left right (readRoot d) (readRoot d') (Twins left right))
    (hrefinement : ∀ kind axis d', Rearranged final d d' →
      Echoes texts left right (readRefinement kind axis d) (readRefinement kind axis d') fun a b =>
        Twins left right a b ∧ ReadFrom final kind d a) : Rereads texts left right final d := by
  have hlist' (d' : Definition) (h : Rearranged final d d') : ∀ items, d' ≠ .list items := by
    rintro items rfl
    rcases h.eq_or with rfl | ⟨items, _, rfl, -⟩ | ⟨_, _, -, heq, -⟩
    · exact hlist items rfl
    · exact hlist items rfl
    · cases heq
  have hroots (d : Definition) (hlist : ∀ items, d ≠ .list items) : rootsIn d = pure [] := by
    cases d <;> first | rfl | exact absurd rfl (hlist _)
  have hone (kind : Kind) (axis : BoundAxis) (d : Definition) (hlist : ∀ items, d ≠ .list items) :
      refinementsAt kind axis [(kind.name, d)] = do return [← readRefinement kind axis d] := by
    cases d <;> first | exact absurd rfl (hlist _) | simp [refinementsAt]
  refine ⟨hroot, fun d' h => ?_, hrefinement, fun kind axis d' h => ?_⟩
  · rw [hroots d hlist, hroots d' (hlist' d' h)]
    exact .pure .nil
  · cases h with
    | items _ _ _ => exact absurd rfl (hlist _)
    | value h =>
        rw [hone kind axis d hlist, hone kind axis d' (hlist' d' h)]
        exact (hrefinement kind axis d' h).map fun _ _ hab => grouped_of_twins (.cons ⟨hab.1, hab.2.kind_eq⟩ .nil)

omit hblind [Behaviour] in
/-- A refinement that holds no other node is no property. -/
theorem readFlatRefinement_rereads (kind : Kind) (axis : BoundAxis) (h : Rearranged final d d')
    (ht : ∀ text ∈ d.texts, texts text) :
    Echoes texts left right (readFlatRefinement kind axis d) (readFlatRefinement kind axis d') fun a b =>
      Twins left right a b ∧ ReadFrom final kind d a := by
  have hechoes := (readFlatRefinement_restated kind axis h).echoes (readFlatRefinement_echoes habreast kind axis d ht)
  by_cases hprop : kind = .required ∨ kind = .optional
  · rcases hprop with rfl | rfl <;> exact .parseError _ _
  · obtain ⟨hrequired, hoptional⟩ := not_or.mp hprop
    exact hechoes.imp fun a b hab => ⟨hab.twins, readFrom_of_kind hab.kind_eq hrequired hoptional⟩

omit hblind in
/-- What is neither a list nor a map is written in one way only. -/
theorem Rereads.of_flat (hlist : ∀ items, d ≠ .list items) (hmap : ∀ entries, d ≠ .map entries)
    (ht : ∀ text ∈ d.texts, texts text)
    (hroot : Echoes texts left right (readRoot d) (readRoot d) (Twins left right)) :
    Rereads texts left right final d := by
  have hsame (d' : Definition) (h : Rearranged final d d') : d = d' := by
    rcases h.eq_or with heq | ⟨items, _, rfl, -⟩ | ⟨entries, _, rfl, -⟩
    · exact heq
    · exact absurd rfl (hlist items)
    · exact absurd rfl (hmap entries)
  have hflat (kind : Kind) (axis : BoundAxis) : readRefinement kind axis d = readFlatRefinement kind axis d := by
    cases d <;> first | rfl | exact absurd rfl (hmap _)
  refine .of_single hlist (fun d' h => hsame d' h ▸ hroot) fun kind axis d' h => ?_
  rw [← hsame d' h, hflat]
  exact readFlatRefinement_rereads habreast kind axis (.refl d) ht

/-- The branches of a list stay in order. The refinements of a list can be in another order if they do not merge. -/
theorem Rereads.list {items : List Definition} (h : ∀ item ∈ items, Rereads texts left right final item)
    (ht : ∀ text ∈ textsIn items, texts text) : Rereads texts left right final (.list items) := by
  have hroots (items' : List Definition) (hitems : List.Forall₂ (Rearranged final) items items') :
      Echoes texts left right (readRoots items) (readRoots items') (List.Forall₂ (Twins left right)) := by
    rw [readRoots_eq_mapM, readRoots_eq_mapM]
    exact .mapM (forall₂_imp_of_mem hitems fun item hitem item' _ hrearranged => (h item hitem).root item' hrearranged)
  refine ⟨fun d' hd => ?_, fun d' hd => ?_, fun kind axis d' hd => ?_, fun kind axis d' hd => ?_⟩
  · obtain ⟨items', rfl, hitems⟩ := hd.list_right
    exact (hroots items' hitems).bind (fun _ => Node.assembleUnion_inherits .proceeds _ _ _)
      (fun _ => Node.assembleUnion_inherits .proceeds _ _ _) fun _ _ hb =>
        .ofLockstep (Node.assembleUnion_lockstep habreast hblind hb false)
          (Node.assembleUnion_inherits .proceeds _ _ _) (Node.assembleUnion_inherits .proceeds _ _ _)
  · obtain ⟨items', rfl, hitems⟩ := hd.list_right
    exact hroots items' hitems
  · obtain ⟨items', rfl, hitems⟩ := hd.list_right
    exact readFlatRefinement_rereads habreast kind axis hd ht
  · have hread (items : List Definition) : refinementsAt kind axis [(kind.name, .list items)] =
        if kind.isRepeatable then items.mapM (readRefinement kind axis)
        else do return [← readFlatRefinement kind axis (.list items)] := by
      simp [refinementsAt, readRefinements_eq_mapM]
    have hproceeds := fun d => readRefinement_inherits .proceeds kind axis d
    cases hd with
    | value hd =>
        obtain ⟨items', rfl, hitems⟩ := hd.list_right
        rw [hread, hread]
        split
        · refine (Echoes.mapM (Q := TwinsOf left right kind) (forall₂_imp_of_mem hitems ?_)).imp
            fun _ _ htwins => grouped_of_twins htwins
          exact fun item hitem item' _ hrearranged =>
            ((h item hitem).refinement kind axis item' hrearranged).imp fun _ _ hab => ⟨hab.1, hab.2.kind_eq⟩
        · exact (readFlatRefinement_rereads habreast kind axis hd ht).map fun _ _ hab =>
            grouped_of_twins (.cons ⟨hab.1, hab.2.kind_eq⟩ .nil)
    | @items _ _ middle items' hpermutable hperm hitems =>
        have hrepeatable : kind.isRepeatable = true := by
          rcases hpermutable with hname | ⟨hname, -⟩ <;> revert hname <;> cases kind <;> decide
        rw [hread, hread, if_pos hrepeatable, if_pos hrepeatable]
        refine (Echoes.mapM_perm (R := fun d _ a b => Twins left right a b ∧ ReadFrom final kind d a) hproceeds hproceeds
          hperm (forall₂_imp_of_mem hitems ?_)).imp fun _ _ hread => ReadsApart.grouped habreast hread hpermutable
        exact fun item hitem item' _ hrearranged =>
          (h item (hperm.mem_iff.mpr hitem)).refinement kind axis item' hrearranged

omit habreast hblind in
theorem MatchedAt.rootAt_echoes (h : MatchedAt final key entries entries')
    (hkey : key ∉ ["pattern", "predicate", "required", "optional"])
    (hentry : ∀ d, entries.lookup key = some d → Rereads texts left right final d) :
    Echoes texts left right (rootAt key entries) (rootAt key entries') (Option.Rel (Twins left right)) := by
  rw [rootAt_eq_lookup, rootAt_eq_lookup key entries']
  refine h.elim (.pure .none) fun d d' hlookup hd => ?_
  exact ((hentry d hlookup).root d' (hd.rearranged hkey)).map fun _ _ => .some

omit habreast hblind in
theorem MatchedAt.rootsAt_echoes (h : MatchedAt final key entries entries')
    (hkey : key ∉ ["pattern", "predicate", "required", "optional"])
    (hentry : ∀ d, entries.lookup key = some d → Rereads texts left right final d) :
    Echoes texts left right (rootsAt key entries) (rootsAt key entries') (List.Forall₂ (Twins left right)) := by
  rw [rootsAt_eq_lookup, rootsAt_eq_lookup key entries']
  exact h.elim (.pure .nil) fun d d' hlookup hd => (hentry d hlookup).roots d' (hd.rearranged hkey)

omit habreast hblind in
theorem MatchedAt.refinementsAt_echoes {kind : Kind} {axis : BoundAxis} (h : MatchedAt final kind.name entries entries')
    (hentry : ∀ d, entries.lookup kind.name = some d → Rereads texts left right final d) :
    Echoes texts left right (refinementsAt kind axis entries) (refinementsAt kind axis entries')
      (Grouped left right kind) := by
  rw [refinementsAt_eq_lookup, refinementsAt_eq_lookup kind axis entries']
  exact h.elim (.pure (grouped_of_twins .nil)) fun d d' hlookup hd => (hentry d hlookup).refinements kind axis d' hd

/-- Whatever the order of the entries, what is read at a key is read again. -/
theorem Rereads.map (hfinal : final.registry.Descends left.registry) (ht : ∀ text ∈ textsAt entries, texts text)
    (h : ∀ key d, entries.lookup key = some d → Rereads texts left right final d) :
    Rereads texts left right final (.map entries) := by
  refine .of_single (by simp) (fun d' hd => ?_) fun kind axis d' hd => ?_
  · obtain ⟨entries', rfl, hmatched⟩ := hd.map_right
    refine (readRoot_map_echoes habreast hblind hmatched.restates (fun _ _ heq h => heq ▸ h) ht
      ((hmatched _).rootsAt_echoes (by decide) (h _)) (fun key hkey => (hmatched key).rootAt_echoes ?_ (h key))
      fun kind axis => (hmatched _).refinementsAt_echoes (h _)).imp ?_
    · revert key
      decide
    · rintro a b (hab | ⟨-, caption, _, rfl, hab⟩)
      · exact hab
      · exact hab.twins_of_eq
  · obtain ⟨entries', rfl, hmatched⟩ := hd.map_right
    have hvalue := (hmatched "value").rootAt_echoes (by decide) (h _)
    unfold readRefinement
    split
    · exact propOf_echoes habreast hfinal hmatched ht (.inl ⟨rfl, rfl⟩) hvalue
    · exact propOf_echoes habreast hfinal hmatched ht (.inr ⟨rfl, rfl⟩) hvalue
    · exact readFlatRefinement_rereads habreast _ axis hd ht

omit habreast hblind [Behaviour] in
/-- What is welcome in a space and in a later state of it is shared by the two. -/
theorem shared_of_welcome {space later left right : Space} {n : Node} (hspace : space.Valid) (hleft : left.Extends space)
    (hright : right.Extends later) (hnumber : later.number = space.number) (h : Node.Welcome False space n)
    (h' : Node.Welcome False later n) : Node.Shared left right n := by
  rcases h with h | ⟨-, h⟩
  · rcases h' with h' | ⟨-, h'⟩
    · exact .inl ⟨hleft.holds n h, hright.holds n h'⟩
    · exact absurd ((hspace.home n h).trans hnumber.symm) h'.self.2
  · exact .inr (by rwa [hleft.number])

/-- Every definition is read again, in any order that it can be written in. -/
theorem rereads (hnumber : right.number = left.number) (hfinal : final.registry.Descends left.registry) :
    (d : Definition) → (∀ n ∈ d.nodes, Node.Shared left right n) → (∀ text ∈ d.texts, texts text) →
      Rereads texts left right final d
  | .list items, hn, ht => .list habreast hblind
      (fun item hitem => rereads hnumber hfinal item (fun n h => hn n (nodes_of_mem hitem h))
        fun text h => ht text (texts_of_mem hitem h)) ht
  | .map entries, hn, ht => .map habreast hblind hfinal ht fun _ d hlookup =>
      rereads hnumber hfinal d (fun n h => hn n (nodes_of_lookup hlookup h))
        fun text h => ht text (texts_of_lookup hlookup h)
  | .node n, hn, ht => .of_flat habreast (by simp) (by simp) ht
      (.ofLockstep (Node.adoptShared_lockstep habreast hnumber (hn n List.mem_cons_self))
        (Node.adopt_inherits .proceeds n (.inl trivial)) (Node.adopt_inherits .proceeds n (.inl trivial)))
  | .string name, _, ht => .of_flat habreast (by simp) (by simp) ht
      (readRootName_echoes habreast hblind (ht name List.mem_cons_self))
  | .proto p, _, ht => .of_flat habreast (by simp) (by simp) ht
      ((intern_echoes habreast (.proto p) trivial trivial _ _).imp fun _ _ => TwinsOf.twins)
  | .value _, _, ht | .symbol _, _, ht => .of_flat habreast (by simp) (by simp) ht
      ((intern_echoes habreast (.unit rfl) trivial trivial _ _).imp fun _ _ => TwinsOf.twins)
  | .predicate p, _, ht => .of_flat habreast (by simp) (by simp) ht
      ((intern_echoes habreast (.predicate p) trivial trivial _ _).bind
        (fun _ => Node.ofDefinition_inherits .proceeds _ _ _ (.inl trivial))
        (fun _ => Node.ofDefinition_inherits .proceeds _ _ _ (.inl trivial)) fun _ _ hn =>
          .ofLockstep (Node.ofDefinition_lockstep habreast hblind .none (.cons hn.twins .nil) _ _)
            (Node.ofDefinition_inherits .proceeds _ _ _ (.inl trivial))
            (Node.ofDefinition_inherits .proceeds _ _ _ (.inl trivial)))
  | .null, _, ht | .bool _, _, ht | .number _, _, ht | .transform _, _, ht =>
      .of_flat habreast (by simp) (by simp) ht (.parseError _ _)
termination_by d => sizeOf d
decreasing_by
  · exact sizeOf_item_lt hitem
  · exact sizeOf_entry_lt (mem_of_lookup hlookup)

end Definition

end SchemaAlgebra
