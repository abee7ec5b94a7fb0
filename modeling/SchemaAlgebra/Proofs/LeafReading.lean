-- SUMMARY: References, and definitions that hold no other node, are read again at any other time.
import SchemaAlgebra.Proofs.Rearrangement
import SchemaAlgebra.Proofs.Recall

/-!
# Leaves of definitions

A reference is resolved when it is read. What it stands for by then, it stands for at
any later time; a name of a constructor that is built in may even come to stand for it
by being read. So leaves of definitions can be read again at any later time, and what
can be read later could be read before, unless a reference stood for nothing then.
-/

namespace SchemaAlgebra

open Space (Twins Abreast)
open SpaceM (Along Decided Echoes Recalled Recalls Successive)

-- ---------------------------------------------------------------------------
-- References
-- ---------------------------------------------------------------------------

namespace Registry

variable {earlier later : Registry}

/-- A text stood for the same, or for nothing. -/
theorem Descends.resolve?_before (h : later.Descends earlier) (hlawful : earlier.Lawful) {text : String}
    {thing : Registered} (hresolve : later.resolve? text = some thing) :
    earlier.resolve? text = some thing ∨ earlier.resolve? text = none := by
  cases hbefore : earlier.resolve? text with
  | none => exact .inr rfl
  | some other => exact .inl ((h.resolve? hlawful hbefore).symm.trans hresolve)

theorem resolveValue?_congr {text : String} (h : earlier.resolve? text = later.resolve? text) :
    earlier.resolveValue? text = later.resolveValue? text := by
  rw [resolveValue?, resolveValue?, h]

theorem decode?_congr {text : String} (h : earlier.resolve? text = later.resolve? text)
    (hreference : earlier.isReference text = later.isReference text) :
    Literal.decode? earlier text = Literal.decode? later text := by
  unfold Literal.decode?
  rw [hreference, resolveValue?_congr h]

/-- Text that refers to nothing is either no encoding, or it is one whatever is registered. -/
theorem decode?_unresolved {text : String} (h : earlier.resolve? text = none)
    (hreference : earlier.isReference text = later.isReference text) :
    Literal.decode? earlier text = Literal.decode? later text ∨ Literal.decode? earlier text = none := by
  unfold Literal.decode?
  rw [← hreference, resolveValue?, h]
  split
  · exact .inl rfl
  · split
    case h_5 =>
      split
      · exact .inl rfl
      · split
        · exact .inr rfl
        · exact .inl rfl
    all_goals exact .inl rfl

theorem constructor?_congr {text : String} (h : earlier.resolve? text = later.resolve? text)
    (hname : earlier.nameIn? text = later.nameIn? text) : earlier.constructor? text = later.constructor? text := by
  rw [Registry.constructor?, Registry.constructor?, h, hname]

end Registry

namespace Definition

variable {left right : Space} {α β : Type} {Q : α → β → Prop} {texts : String → Prop}

theorem exec_registry (space : Space) : registry.exec space = (.ok space.registry, space) := rfl

/-- What is made of the thing that a text refers to. Where it refers to nothing, that is refused, unless it does not
matter what the text refers to. -/
structure Resolves (text : String) (f : Registry → SpaceM α) : Prop where
  proceeds : (registry >>= f).Proceeds
  decided : ∀ r, Decided (f r)
  congr : ∀ r r', r.resolve? text = r'.resolve? text → r.isReference text = r'.isReference text → f r = f r'
  unresolved : ∀ r r', r.resolve? text = none → r.isReference text = r'.isReference text →
    f r = f r' ∨ ∃ reason, f r = SpaceM.parseError reason

theorem Resolves.recalls {text : String} {f : Registry → SpaceM α} (h : Resolves text f) (ht : texts text) :
    Recalls texts left right (registry >>= f) (registry >>= f) (· = ·) := by
  intro space other a hs ho hleft hright hruns ha
  have hspace := hleft.registry.trans (h.proceeds space hs).2.registry
  have hcomparable := hruns.comparable hspace (hright.registry.trans (h.proceeds other ho).2.registry)
  have hreference : space.registry.isReference text = other.registry.isReference text :=
    hcomparable.elim (fun h => (h.isReference_eq text).symm) fun h => h.isReference_eq text
  change ((f space.registry).exec space).1 = .ok a at ha
  change Recalled _ (SpaceM.Unresolved texts left ((f other.registry).exec other).2) a ((f other.registry).exec other).1
  have hsame (heq : f space.registry = f other.registry) :
      Recalled (· = ·) (SpaceM.Unresolved texts left ((f other.registry).exec other).2) a
        ((f other.registry).exec other).1 := by
    rw [← heq]
    have hx := h.decided space.registry
    generalize f space.registry = x at ha hx ⊢
    cases hx with
    | result b =>
        cases ha
        exact .ok rfl
    | refusal reason => cases ha
  by_cases hresolves : space.registry.resolve? text = other.registry.resolve? text
  · exact hsame (h.congr _ _ hresolves hreference)
  cases hresolve : space.registry.resolve? text with
  | none =>
      rcases h.unresolved _ _ hresolve hreference with heq | ⟨reason, heq⟩
      · exact hsame heq
      · rw [heq] at ha
        cases ha
  | some thing =>
      have hmissing : other.registry.resolve? text = none := by
        rcases hcomparable with h | h
        · exact absurd (hresolve.trans (h.resolve? hs.lawful hresolve).symm) hresolves
        · exact (h.resolve?_before ho.lawful hresolve).resolve_left fun h => hresolves (hresolve.trans h.symm)
      rcases h.unresolved _ _ hmissing hreference.symm with heq | ⟨reason, heq⟩
      · exact hsame heq.symm
      · rw [heq]
        exact .refused ⟨text, ht, by rw [hspace.resolve? hs.lawful hresolve]; rfl, hmissing⟩

theorem Resolves.echoes {text : String} {f : Registry → SpaceM α} (h : Resolves text f) (ht : texts text) :
    Echoes texts left right (registry >>= f) (registry >>= f) (· = ·) :=
  ⟨h.proceeds, h.proceeds, h.recalls ht, (h.recalls ht).imp fun _ _ => Eq.symm⟩

theorem readLiteral_echoes (d : Definition) (ht : ∀ text ∈ d.texts, texts text) :
    Echoes texts left right (readLiteral d) (readLiteral d) (· = ·) := by
  have hproceeds := readLiteral_inherits .proceeds d
  unfold readLiteral at hproceeds ⊢
  split
  case h_6 text =>
    refine Resolves.echoes ⟨hproceeds, fun r => ?_, fun r r' h hreference => ?_, fun r r' h hreference => ?_⟩
      (ht text List.mem_cons_self)
    · split
      · exact .result _
      · exact .refusal _
    · rw [Registry.decode?_congr h hreference]
    · rcases Registry.decode?_unresolved h hreference with heq | heq <;> rw [heq]
      · exact .inl rfl
      · exact .inr ⟨_, rfl⟩
  case h_7 => exact .parseError _ _
  all_goals exact .pure rfl

theorem resolvePredicate_echoes {reference : String} (ht : texts reference) :
    Echoes texts left right (resolvePredicate reference) (resolvePredicate reference) (· = ·) := by
  refine Resolves.echoes ⟨resolvePredicate_inherits .proceeds reference, fun r => ?_, fun r r' h _ => ?_,
    fun r r' h _ => .inr ?_⟩ ht
  · split
    · exact .result _
    · exact .refusal _
  · rw [h]
  · rw [h]
    exact ⟨_, rfl⟩

theorem resolveTransform_echoes (d : Definition) (ht : ∀ text ∈ d.texts, texts text) :
    Echoes texts left right (resolveTransform d) (resolveTransform d) (· = ·) := by
  have hproceeds := resolveTransform_inherits .proceeds d
  unfold resolveTransform at hproceeds ⊢
  split
  case h_1 => exact .pure rfl
  case h_2 text =>
    refine Resolves.echoes ⟨hproceeds, fun r => ?_, fun r r' h _ => ?_, fun r r' h _ => .inr ?_⟩
      (ht text List.mem_cons_self)
    · split
      · exact .result _
      · exact .refusal _
    · rw [h]
    · rw [h]
      exact ⟨_, rfl⟩
  case h_3 => exact .parseError _ _

theorem resolveTransforms_echoes {final : Space} {d d' : Definition} (h : Rearranged final d d')
    (ht : ∀ text ∈ d.texts, texts text) :
    Echoes texts left right (resolveTransforms d) (resolveTransforms d') (· = ·) := by
  have hone {d d' : Definition} (h : Rearranged final d d') (ht : ∀ text ∈ d.texts, texts text) :
      Echoes texts left right (resolveTransform d) (resolveTransform d') (· = ·) :=
    (resolveTransform_restated h).echoes (resolveTransform_echoes d ht)
  have hsingle {d d' : Definition} (h : Rearranged final d d') (ht : ∀ text ∈ d.texts, texts text) :
      Echoes texts left right (do return [← resolveTransform d]) (do return [← resolveTransform d']) (· = ·) :=
    (hone h ht).map fun _ _ heq => by rw [heq]
  have hlist {items items' : List Definition} (hitems : List.Forall₂ (Rearranged final) items items')
      (ht : ∀ text ∈ textsIn items, texts text) :
      Echoes texts left right (items.mapM resolveTransform) (items'.mapM resolveTransform) (· = ·) := by
    refine (Echoes.mapM (Q := (· = ·)) (forall₂_imp_of_mem hitems fun item hitem item' _ hrearranged => ?_)).imp ?_
    · exact hone hrearranged fun text htext => ht text (texts_of_mem hitem htext)
    · intro _ _ heq
      rwa [List.forall₂_eq_eq_eq] at heq
  rcases h.eq_or with rfl | ⟨items, items', rfl, rfl, hitems⟩ | ⟨entries, entries', rfl, rfl, -⟩
  · cases d with
    | list items => exact hlist (List.forall₂_same.mpr fun d _ => .refl d) ht
    | _ => exact hsingle h ht
  · exact hlist hitems ht
  · exact hsingle h ht

theorem readKey_echoes (d : Definition) (ht : ∀ text ∈ d.texts, texts text) :
    Echoes texts left right (readKey d) (readKey d) (· = ·) := by
  have hproceeds := readKey_inherits .proceeds d
  unfold readKey at hproceeds ⊢
  split
  case h_4 text =>
    refine Resolves.echoes ⟨hproceeds, fun r => ?_, fun r r' h _ => ?_, fun r r' h _ => .inr ?_⟩
      (ht text List.mem_cons_self)
    · split
      · exact .result _
      · exact .refusal _
    · rw [Registry.resolveValue?_congr h]
    · rw [Registry.resolveValue?, h]
      exact ⟨_, rfl⟩
  case h_5 => exact .parseError _ _
  case h_6 => exact .parseError _ _
  all_goals exact .pure rfl

/-- A key that was read is read again at any later time. -/
theorem readKey_later {d : Definition} {key : PropKey} {space later : Space} (hs : space.Orderly)
    (hlater : later.registry.Descends space.registry) (h : ((readKey d).exec space).1 = .ok key) :
    ((readKey d).exec later).1 = .ok key := by
  unfold readKey at h ⊢
  split at h
  case h_4 text =>
    rw [SpaceM.exec_bind, exec_registry] at h ⊢
    dsimp only at h ⊢
    split at h
    · rename_i hresolve
      rw [hlater.resolveValue? hs.lawful hresolve]
      exact h
    · cases h
  case h_5 => cases h
  case h_6 => cases h
  all_goals exact h

-- ---------------------------------------------------------------------------
-- Leaves
-- ---------------------------------------------------------------------------

/-- A constructor of a name is the one that the name means. -/
theorem exec_readProtoName (name : String) (space : Space) : (readProtoName name).exec space =
    ((space.registry.constructor? name).elim (.error (.parse (.notConstructor name))) .ok, space) := by
  unfold readProtoName Registry.constructor?
  rw [SpaceM.exec_bind, exec_registry]
  dsimp only
  cases space.registry.resolve? name with
  | none => cases Proto.builtin? _ <;> rfl
  | some thing =>
      cases thing with
      | proto p => rfl
      | _ => cases Proto.builtin? _ <;> rfl

theorem constructor_of_read {name : String} {caption : Caption} {space : Space} {a : Node}
    (h : ((do SpaceM.intern (.proto (← readProtoName name)) caption : SpaceM Node).exec space).1 = .ok a) :
    ∃ p, space.registry.constructor? name = some p := by
  rw [SpaceM.exec_bind, exec_readProtoName] at h
  cases hmeans : space.registry.constructor? name with
  | none => rw [hmeans] at h; cases h
  | some p => exact ⟨p, rfl⟩

theorem exec_constructor {name : String} {caption : Caption} {space : Space} {p : Proto}
    (h : space.registry.constructor? name = some p) :
    (do SpaceM.intern (.proto (← readProtoName name)) caption : SpaceM Node).exec space =
      (SpaceM.intern (.proto p) caption).exec space := by
  rw [SpaceM.exec_bind, exec_readProtoName, h]
  rfl

theorem exec_no_constructor {name : String} {caption : Caption} {space : Space}
    (h : space.registry.constructor? name = none) :
    (do SpaceM.intern (.proto (← readProtoName name)) caption : SpaceM Node).exec space =
      (.error (.parse (.notConstructor name)), space) := by
  rw [SpaceM.exec_bind, exec_readProtoName, h]
  rfl

/-- A name that meant a constructor goes on meaning it, since the constructor is registered with its node. -/
theorem constructor_later {name : String} {caption : Caption} {space other : Space} {p : Proto} (hs : space.Orderly)
    (hmeans : space.registry.constructor? name = some p)
    (hleft : left.Onward ((SpaceM.intern (.proto p) caption).exec space).2)
    (hlater : other.registry.Descends left.registry) : other.registry.constructor? name = some p ∧
      (other.registry.resolve? name = some (.proto p) ∨
        other.registry.resolve? name = space.registry.resolve? name) := by
  have hregistered : other.registry.Descends (space.registry.register (.proto p)).2 :=
    hlater.trans (hleft.registry.trans ⟨[], space.registry_intern (.proto p) caption⟩)
  exact ⟨hregistered.constructor? hs.lawful hs.fair hmeans, hregistered.resolve?_of_constructor hs.lawful hs.fair hmeans⟩

/-- Nodes of one type and of a given kind. -/
structure TwinsOf (left right : Space) (kind : Kind) (a b : Node) : Prop where
  twins : Twins left right a b
  kind_eq : a.kind = kind

variable (habreast : Abreast left right)

include habreast

theorem intern_echoes {content content' : Content Node} (h : content.Related (Twins left right) content')
    (hfits : content.Fits) (hfits' : content'.Fits) (caption caption' : Caption) :
    Echoes texts left right (SpaceM.intern content caption) (SpaceM.intern content' caption')
      (TwinsOf left right content.kind) := by
  have hkind : Along left (SpaceM.intern content caption) fun n => n.kind = content.kind := by
    refine ⟨.intern content caption, fun space htidy hext n hn => ?_⟩
    cases hn
    obtain ⟨hholds, hid, -⟩ := Space.intern_holds htidy hext
    rw [(habreast.valid.written _ hholds).id] at hid
    exact Node.kind_eq_of_identifier hid
  exact ((Echoes.ofLockstep (.internAs habreast h (fun _ => hfits) fun _ => hfits') (SpaceM.Proceeds.intern _ _)
    (SpaceM.Proceeds.intern _ _)).along hkind).imp fun _ _ h => ⟨h.1, h.2⟩

omit habreast in
/-- What a name means as a constructor in one run, it means in the other. -/
theorem constructor_recalls {P : Node → Node → Prop} {name : String} (ht : texts name) {caption : Caption}
    (hintern : ∀ p, Recalls texts left right (SpaceM.intern (.proto p) caption) (SpaceM.intern (.proto p) caption) P) :
    Recalls texts left right (do SpaceM.intern (.proto (← readProtoName name)) caption)
      (do SpaceM.intern (.proto (← readProtoName name)) caption) P := by
  have hproceeds : (do SpaceM.intern (.proto (← readProtoName name)) caption : SpaceM Node).Proceeds :=
    (readProtoName_inherits .proceeds name).bind fun _ => SpaceM.Proceeds.intern _ _
  intro space other a hs ho hleft hright hruns ha
  have hspace := hleft.registry.trans (hproceeds space hs).2.registry
  obtain ⟨p, hmeans⟩ := constructor_of_read ha
  rw [exec_constructor hmeans] at hleft ha
  have hfound (hmeans' : other.registry.constructor? name = some p) :
      Recalled P (SpaceM.Unresolved texts left ((do
        SpaceM.intern (.proto (← readProtoName name)) caption : SpaceM Node).exec other).2) a
        ((do SpaceM.intern (.proto (← readProtoName name)) caption : SpaceM Node).exec other).1 := by
    rw [exec_constructor hmeans'] at hright ⊢
    exact hintern p space other a hs ho hleft hright hruns ha
  rcases hruns with hlater | hearlier
  · exact hfound (constructor_later hs hmeans hleft hlater).1
  have hbefore := hearlier.trans (hright.registry.trans (hproceeds other ho).2.registry)
  cases hmeans' : other.registry.constructor? name with
  | some p' =>
      have hregistered := hright
      rw [exec_constructor hmeans'] at hregistered
      have hagain := (constructor_later ho hmeans' hregistered hearlier).1
      exact hfound (hmeans'.trans (hagain.symm.trans hmeans))
  | none =>
      have hname := hbefore.nameIn?_eq name
      have hdiffer : other.registry.resolve? name ≠ space.registry.resolve? name := by
        intro heq
        have hcongr := Registry.constructor?_congr heq hname.symm
        rw [hmeans, hmeans'] at hcongr
        cases hcongr
      rw [exec_no_constructor hmeans']
      refine .refused ⟨name, ht, ?_⟩
      cases hresolve : space.registry.resolve? name with
      | some thing =>
          rw [hspace.resolve? hs.lawful hresolve]
          exact ⟨rfl, (hbefore.resolve?_before ho.lawful hresolve).resolve_left fun h => hdiffer (h.trans hresolve.symm)⟩
      | none =>
          cases hresolve' : other.registry.resolve? name with
          | none => exact absurd (hresolve'.trans hresolve.symm) hdiffer
          | some thing =>
              rw [hbefore.resolve? ho.lawful hresolve'] at hresolve
              cases hresolve

theorem constructor_echoes {name : String} (ht : texts name) (caption : Caption) :
    Echoes texts left right (do SpaceM.intern (.proto (← readProtoName name)) caption)
      (do SpaceM.intern (.proto (← readProtoName name)) caption) (TwinsOf left right .proto) := by
  have hproceeds : (do SpaceM.intern (.proto (← readProtoName name)) caption : SpaceM Node).Proceeds :=
    (readProtoName_inherits .proceeds name).bind fun _ => SpaceM.Proceeds.intern _ _
  have hintern (p : Proto) := @intern_echoes _ _ texts habreast _ _ (.proto p) trivial trivial caption caption
  exact ⟨hproceeds, hproceeds, constructor_recalls ht fun p => (hintern p).forth,
    constructor_recalls ht fun p => (hintern p).back⟩

omit habreast in
theorem requiredEntry_echoes (kind : Kind) (key : String) (entries : Entries) {f : Definition → SpaceM α}
    {g : Definition → SpaceM β} (h : ∀ d, entries.lookup key = some d → Echoes texts left right (f d) (g d) Q) :
    Echoes texts left right (requiredEntry kind key entries >>= f) (requiredEntry kind key entries >>= g) Q := by
  unfold requiredEntry
  cases hlookup : entries.lookup key with
  | none => exact .parseError _ _
  | some d => exact h d hlookup

theorem readDomain_echoes (d : Definition) :
    Echoes texts left right (readDomain d) (readDomain d) (TwinsOf left right .domain) := by
  have hnamed (caption : Caption) (name : String) :
      Echoes texts left right (do SpaceM.intern (.domain (← readDomainName name)) caption)
        (do SpaceM.intern (.domain (← readDomainName name)) caption) (TwinsOf left right .domain) :=
    (readDomainName_decided name).echoes_bind fun domain =>
      intern_echoes habreast (.domain domain) trivial trivial caption caption
  unfold readDomain
  split
  · exact hnamed _ _
  · refine (entriesOf_decided _ _).echoes_bind fun entries => (checkEntries_decided _ _ _).echoes_bind fun caption =>
      (requiredEntry_decided _ _ _).echoes_bind fun d => ?_
    split
    · exact hnamed _ _
    · exact .parseError _ _

omit habreast in
/-- What follows a map that must be there. -/
theorem entriesOf_echoes (kind : Kind) (d : Definition) {f : Entries → SpaceM α} {g : Entries → SpaceM β}
    (h : ∀ entries, d = .map entries → Echoes texts left right (f entries) (g entries) Q) :
    Echoes texts left right (entriesOf kind d >>= f) (entriesOf kind d >>= g) Q := by
  cases d with
  | map entries => exact h entries rfl
  | _ => exact .parseError _ _

theorem readProto_echoes (d : Definition) (ht : ∀ text ∈ d.texts, texts text) :
    Echoes texts left right (readProto d) (readProto d) (TwinsOf left right .proto) := by
  unfold readProto
  split
  · exact intern_echoes habreast (.proto _) trivial trivial _ _
  · exact constructor_echoes habreast (ht _ List.mem_cons_self) _
  · refine entriesOf_echoes _ _ fun entries hmap => (checkEntries_decided _ _ _).echoes_bind fun caption =>
      requiredEntry_echoes _ _ _ fun d hlookup => ?_
    subst hmap
    split
    · exact intern_echoes habreast (.proto _) trivial trivial _ _
    · exact constructor_echoes habreast (ht _ (texts_of_lookup hlookup List.mem_cons_self)) _
    · exact .parseError _ _

theorem readDivisor_echoes (d : Definition) :
    Echoes texts left right (readDivisor d) (readDivisor d) (TwinsOf left right .divisor) := by
  have hintern (caption : Caption) (divisor : Nat) :=
    @intern_echoes _ _ texts habreast _ _ (.divisor divisor) trivial trivial caption caption
  unfold readDivisor
  split
  · exact (divisorOf_decided _).echoes_bind (hintern _)
  · exact (entriesOf_decided _ _).echoes_bind fun entries => (checkEntries_decided _ _ _).echoes_bind fun caption =>
      (requiredNumber_decided _ _ _).echoes_bind fun n => (divisorOf_decided n).echoes_bind (hintern caption)

theorem readPattern_echoes (d : Definition) :
    Echoes texts left right (readPattern d) (readPattern d) (TwinsOf left right .pattern) := by
  have hintern (caption : Caption) (p : Pattern) :=
    @intern_echoes _ _ texts habreast _ _ (.pattern p) trivial trivial caption caption
  unfold readPattern
  split
  · exact (compilePattern_decided _ _).echoes_bind (hintern _)
  · refine (entriesOf_decided _ _).echoes_bind fun entries => (checkEntries_decided _ _ _).echoes_bind fun caption =>
      (requiredEntry_decided _ _ _).echoes_bind fun d => ?_
    split
    · exact (optionalText_decided _ _).echoes_bind fun flags =>
        (compilePattern_decided _ _).echoes_bind (hintern caption)
    · exact .parseError _ _

theorem readPredicate_echoes (d : Definition) (ht : ∀ text ∈ d.texts, texts text) :
    Echoes texts left right (readPredicate d) (readPredicate d) (TwinsOf left right .predicate) := by
  have hnamed (caption : Caption) {reference : String} (ht : texts reference) :
      Echoes texts left right (do SpaceM.intern (.predicate (← resolvePredicate reference)) caption)
        (do SpaceM.intern (.predicate (← resolvePredicate reference)) caption) (TwinsOf left right .predicate) := by
    refine (resolvePredicate_echoes ht).bind (fun _ => SpaceM.Proceeds.intern _ _)
      (fun _ => SpaceM.Proceeds.intern _ _) ?_
    rintro p _ rfl
    exact intern_echoes habreast (.predicate p) trivial trivial _ _
  unfold readPredicate
  split
  · exact intern_echoes habreast (.predicate _) trivial trivial _ _
  · exact hnamed _ (ht _ List.mem_cons_self)
  · refine entriesOf_echoes _ _ fun entries hmap => (checkEntries_decided _ _ _).echoes_bind fun caption =>
      requiredEntry_echoes _ _ _ fun d hlookup => ?_
    subst hmap
    split
    · exact intern_echoes habreast (.predicate _) trivial trivial _ _
    · exact hnamed _ (ht _ (texts_of_lookup hlookup List.mem_cons_self))
    · exact .parseError _ _

theorem readFlatRefinement_echoes (kind : Kind) (axis : BoundAxis) (d : Definition) (ht : ∀ text ∈ d.texts, texts text) :
    Echoes texts left right (readFlatRefinement kind axis d) (readFlatRefinement kind axis d) (TwinsOf left right kind) := by
  unfold readFlatRefinement
  split
  · exact readDivisor_echoes habreast d
  · exact (readBound_decided _ _ _).echoes_bind fun _ => intern_echoes habreast (.max rfl) trivial trivial _ _
  · exact (readBound_decided _ _ _).echoes_bind fun _ => intern_echoes habreast (.min rfl) trivial trivial _ _
  · exact readPattern_echoes habreast d
  · exact readPredicate_echoes habreast d ht
  · exact .parseError _ _

end Definition
end SchemaAlgebra
