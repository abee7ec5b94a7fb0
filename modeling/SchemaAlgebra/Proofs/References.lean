-- SUMMARY: References go on meaning what they meant: names are kept, and so is what stands for a built-in constructor.
import SchemaAlgebra.Proofs.Answers
import SchemaAlgebra.Proofs.Growth
import SchemaAlgebra.Proofs.Registration
import SchemaAlgebra.Proofs.Sessions

/-!
# References

The registry of a space only goes on to register things. A reference that resolves
goes on resolving to the same thing. One that does not can still mean a built-in
constructor, which is registered as soon as its node is made. It gets the name that
it was called by, because that name would be taken if anything had ever asked for it.
-/

namespace SchemaAlgebra

namespace Registry

variable {registry earlier later : Registry}

-- ---------------------------------------------------------------------------
-- Later registries
-- ---------------------------------------------------------------------------

/-- A registry after more things were registered. -/
def Descends (later earlier : Registry) : Prop := ∃ things, later = earlier.registerAll things

theorem Descends.refl (registry : Registry) : registry.Descends registry := ⟨[], rfl⟩

theorem Descends.register (registry : Registry) (thing : Registered) :
    (registry.register thing).2.Descends registry :=
  ⟨[thing], rfl⟩

theorem Descends.registerAll (registry : Registry) (things : List Registered) :
    (registry.registerAll things).Descends registry :=
  ⟨things, rfl⟩

theorem Descends.trans {a b c : Registry} (h : c.Descends b) (h' : b.Descends a) : c.Descends a := by
  obtain ⟨things, rfl⟩ := h
  obtain ⟨before, rfl⟩ := h'
  exact ⟨before ++ things, List.foldl_append.symm⟩

theorem Descends.extends (h : later.Descends earlier) : later.Extends earlier := by
  obtain ⟨things, rfl⟩ := h
  exact registerAll_extends earlier things

/-- Whatever registering keeps is kept by later registries. -/
theorem Descends.keeps {P : Registry → Prop} (h : later.Descends earlier)
    (hregister : ∀ registry thing, P registry → P (registry.register thing).2) (hP : P earlier) : P later := by
  obtain ⟨things, rfl⟩ := h
  induction things generalizing earlier with
  | nil => exact hP
  | cons thing rest ih => exact ih (hregister earlier thing hP)

theorem Descends.lawful (h : later.Descends earlier) (hlawful : earlier.Lawful) : later.Lawful :=
  h.keeps (fun _ thing h => register_lawful h thing) hlawful

/-- A name stands for what it stood for. -/
theorem Descends.lookup (h : later.Descends earlier) (hlawful : earlier.Lawful) {name : String} {thing : Registered}
    (hlookup : earlier.entries.lookup name = some thing) : later.entries.lookup name = some thing := by
  refine (h.keeps (P := fun registry => registry.Lawful ∧ registry.entries.lookup name = some thing) ?_
    ⟨hlawful, hlookup⟩).2
  exact fun registry other h => ⟨register_lawful h.1 other, lookup_register h.1 h.2 other⟩

theorem Descends.nameIn?_eq (h : later.Descends earlier) (text : String) : later.nameIn? text = earlier.nameIn? text := by
  unfold nameIn?
  rw [h.extends.qualifier]

theorem Descends.isReference_eq (h : later.Descends earlier) (text : String) :
    later.isReference text = earlier.isReference text := by
  rw [isReference, isReference, h.nameIn?_eq]

theorem Descends.resolve? (h : later.Descends earlier) (hlawful : earlier.Lawful) {text : String} {thing : Registered}
    (hresolve : earlier.resolve? text = some thing) : later.resolve? text = some thing := by
  obtain ⟨name, hname, hlookup⟩ := Option.bind_eq_some_iff.mp hresolve
  exact Option.bind_eq_some_iff.mpr ⟨name, (h.nameIn?_eq text).trans hname, h.lookup hlawful hlookup⟩

theorem Descends.resolveValue? (h : later.Descends earlier) (hlawful : earlier.Lawful) {text : String} {v : Value}
    (hresolve : earlier.resolveValue? text = some v) : later.resolveValue? text = some v := by
  unfold Registry.resolveValue? at hresolve ⊢
  split at hresolve
  · rename_i hthing
    rw [h.resolve? hlawful hthing]
    exact hresolve
  · cases hresolve

-- ---------------------------------------------------------------------------
-- Names that nobody asked for
-- ---------------------------------------------------------------------------

/-- A base name of which even the first name is numbered, for some things. -/
def Numbering (base : String) : Prop := ∃ thing : Registered, thing.baseName = (base, true)

/-- No name was passed over: a base name that something asked for is taken, if it is given as it is. -/
structure Fair (registry : Registry) : Prop where
  named : ∀ entry ∈ registry.entries, ¬ Numbering entry.2.baseName.1 →
    (registry.entries.lookup entry.2.baseName.1).isSome = true
  counted : ∀ base, ¬ Numbering base → 1 ≤ (registry.uses.read base).value.toNat →
    (registry.entries.lookup base).isSome = true

theorem fair_empty (qualifier : String) : (empty qualifier).Fair := ⟨nofun, nofun⟩

/-- The first search for a name that is given as it is ends at once. -/
theorem allocate_first {thing : Registered} (hplain : ¬ Numbering thing.baseName.1)
    (hunused : (registry.uses.read thing.baseName.1).value.toNat = 0)
    (hfree : registry.entries.lookup thing.baseName.1 = none) :
    (registry.allocate thing).1 = thing.baseName.1 := by
  have hnumbered : thing.baseName.2 = false :=
    Bool.eq_false_iff.mpr fun h => hplain ⟨thing, Prod.ext rfl h⟩
  have hcandidate : candidate thing.baseName.1 false 1 = thing.baseName.1 := by simp [candidate]
  change candidate thing.baseName.1 thing.baseName.2 (firstFree registry.entries thing.baseName.1 thing.baseName.2
    (registry.entries.length + 1) ((registry.uses.read thing.baseName.1).value.toNat + 1)) = _
  rw [hnumbered, hunused, firstFree, Nat.zero_add, hcandidate, hfree]
  exact hcandidate

theorem Fair.allocate (h : registry.Fair) (thing : Registered) : (registry.allocate thing).2.Fair := by
  have hkept (name : String) (hname : (registry.entries.lookup name).isSome = true) :
      ((registry.allocate thing).2.entries.lookup name).isSome = true := by
    change (List.lookup name (_ :: registry.entries)).isSome = true
    rw [List.lookup_cons]
    split
    · rfl
    · exact hname
  have hasked (hplain : ¬ Numbering thing.baseName.1) :
      ((registry.allocate thing).2.entries.lookup thing.baseName.1).isSome = true := by
    by_cases hunused : (registry.uses.read thing.baseName.1).value.toNat = 0
    · cases hlookup : registry.entries.lookup thing.baseName.1 with
      | some other => exact hkept _ (by rw [hlookup]; rfl)
      | none =>
          have hentries : (registry.allocate thing).2.entries =
              ((registry.allocate thing).1, thing) :: registry.entries := rfl
          rw [hentries, allocate_first hplain hunused hlookup, List.lookup_cons_self]
          rfl
    · exact hkept _ (h.counted _ hplain (Nat.pos_of_ne_zero hunused))
  refine ⟨fun entry hentry hplain => ?_, fun base hplain hused => ?_⟩
  · rcases List.mem_cons.mp hentry with rfl | hold
    · exact hasked hplain
    · exact hkept _ (h.named entry hold hplain)
  · by_cases hbase : base = thing.baseName.1
    · subst hbase
      exact hasked hplain
    · have huses : (registry.allocate thing).2.uses.read base = registry.uses.read base :=
        (Counters.read_write _ _ _ base).trans (if_neg hbase)
      rw [huses] at hused
      exact hkept _ (h.counted base hplain hused)

theorem Fair.register (h : registry.Fair) (thing : Registered) : (registry.register thing).2.Fair := by
  unfold Registry.register
  split
  · exact h
  · exact h.allocate thing

theorem Descends.fair (h : later.Descends earlier) (hfair : earlier.Fair) : later.Fair :=
  h.keeps (fun _ thing h => h.register thing) hfair

/-- A thing whose name nobody asked for is given that name. -/
theorem Fair.register_free (h : registry.Fair) {thing : Registered} (hid : thing.hasIdentity = true)
    (hplain : ¬ Numbering thing.baseName.1) (hfree : registry.entries.lookup thing.baseName.1 = none) :
    (registry.register thing).2.entries.lookup thing.baseName.1 = some thing := by
  have hunnamed : registry.nameOf? thing = none := by
    refine Option.eq_none_iff_forall_ne_some.mpr fun name hname => ?_
    have htaken := h.named _ (mem_of_nameOf? hname) hplain
    rw [hfree] at htaken
    cases htaken
  have hunused : (registry.uses.read thing.baseName.1).value.toNat = 0 := by
    refine Nat.eq_zero_of_not_pos fun hused => ?_
    have htaken := h.counted _ hplain hused
    rw [hfree] at htaken
    cases htaken
  have hregister : registry.register thing = registry.allocate thing := by
    rw [Registry.register, if_pos hid, hunnamed]
  have hentries : (registry.allocate thing).2.entries =
      ((registry.allocate thing).1, thing) :: registry.entries := rfl
  rw [hregister, hentries, allocate_first hplain hunused hfree, List.lookup_cons_self]

-- ---------------------------------------------------------------------------
-- Constructors
-- ---------------------------------------------------------------------------

/-- The constructor that a text means: the one it refers to, or the built-in one of that name. -/
def constructor? (registry : Registry) (text : String) : Option Proto :=
  match registry.resolve? text with
  | some (.proto p) => some p
  | _ => Proto.builtin? ((registry.nameIn? text).getD text)

theorem name_of_builtin? {name : String} {p : Proto} (h : Proto.builtin? name = some p) :
    p.name = name ∧ ¬ Numbering name := by
  have hname : p.name = name := by simpa using List.find?_some h
  subst hname
  refine ⟨rfl, ?_⟩
  rintro ⟨thing, hthing⟩
  have hbase : thing.baseName.1 ∈ ["predicate", "morph", "symbol", "object", "value"] := by
    have hnumbered := congrArg Prod.snd hthing
    cases thing with
    | proto p => cases hnumbered
    | predicate q =>
        obtain ⟨serial, name, operation⟩ := q
        cases name with
        | some name => cases hnumbered
        | none => simp [Registered.baseName]
    | transform t =>
        obtain ⟨serial, name, operation⟩ := t
        cases name with
        | some name => cases hnumbered
        | none => simp [Registered.baseName]
    | value v => cases v <;> simp [Registered.baseName]
  have hbuiltin : ∀ p ∈ Proto.builtins, p.name ∉ ["predicate", "morph", "symbol", "object", "value"] := by decide
  rw [congrArg Prod.fst hthing] at hbase
  exact hbuiltin p (List.mem_of_find?_eq_some h) hbase

/-- Once a constructor was registered that a text means, the text refers to it, unless it referred to something or was
no reference before. -/
theorem Descends.resolve?_of_constructor {text : String} {p : Proto} (hlawful : earlier.Lawful) (hfair : earlier.Fair)
    (hmeans : earlier.constructor? text = some p) (h : later.Descends (earlier.register (.proto p)).2) :
    later.resolve? text = some (.proto p) ∨ later.resolve? text = earlier.resolve? text := by
  have hdescends := h.trans (.register earlier (.proto p))
  unfold Registry.constructor? at hmeans
  cases hresolve : earlier.resolve? text with
  | some thing => exact .inr (hdescends.resolve? hlawful hresolve)
  | none =>
      rw [hresolve] at hmeans
      cases hname : earlier.nameIn? text with
      | none => exact .inr (by rw [Registry.resolve?, hdescends.nameIn?_eq, hname]; rfl)
      | some name =>
          have hbuiltin : Proto.builtin? name = some p := by rwa [hname] at hmeans
          obtain ⟨rfl, hplain⟩ := name_of_builtin? hbuiltin
          have hfree : earlier.entries.lookup p.name = none := by
            rwa [Registry.resolve?, hname] at hresolve
          have hgiven : (earlier.register (.proto p)).2.entries.lookup p.name = some (.proto p) :=
            @Fair.register_free _ hfair (.proto p) rfl hplain hfree
          refine .inl ?_
          rw [Registry.resolve?, hdescends.nameIn?_eq, hname]
          exact h.lookup (register_lawful hlawful _) hgiven

/-- And so it goes on meaning the constructor. -/
theorem Descends.constructor? {text : String} {p : Proto} (hlawful : earlier.Lawful) (hfair : earlier.Fair)
    (hmeans : earlier.constructor? text = some p) (h : later.Descends (earlier.register (.proto p)).2) :
    later.constructor? text = some p := by
  rcases h.resolve?_of_constructor hlawful hfair hmeans with hresolve | hresolve
  · rw [Registry.constructor?, hresolve]
  · rwa [Registry.constructor?, hresolve, (h.trans (.register earlier (.proto p))).nameIn?_eq, ← Registry.constructor?]

end Registry

-- ---------------------------------------------------------------------------
-- Spaces
-- ---------------------------------------------------------------------------

namespace Space

/-- A space whose tables are in order. -/
structure Orderly (space : Space) : Prop where
  tidy : space.Tidy
  lawful : space.registry.Lawful
  fair : space.registry.Fair

/-- A later moment of a run: what was there is there, and more may be registered. -/
structure Onward (later earlier : Space) : Prop where
  extension : later.Extends earlier
  registry : later.registry.Descends earlier.registry

/-- A later state of a space, whatever became of its nodes. -/
structure Continues (later earlier : Space) : Prop where
  number : later.number = earlier.number
  config : later.config = earlier.config
  registry : later.registry.Descends earlier.registry

variable {space : Space}

theorem Onward.refl (space : Space) : space.Onward space := ⟨.refl space, .refl _⟩

theorem Onward.trans {a b c : Space} (h : c.Onward b) (h' : b.Onward a) : c.Onward a :=
  ⟨h.extension.trans h'.extension, h.registry.trans h'.registry⟩

theorem Onward.continues {later earlier : Space} (h : later.Onward earlier) : later.Continues earlier :=
  ⟨h.extension.number, h.extension.config, h.registry⟩

theorem Continues.refl (space : Space) : space.Continues space := ⟨rfl, rfl, .refl _⟩

theorem Continues.sweep (space : Space) (roots : List Node) : (space.sweep roots).Continues space := ⟨rfl, rfl, .refl _⟩

theorem Continues.prune (space : Space) : space.prune.Continues space := ⟨rfl, rfl, .refl _⟩

theorem Continues.trans {a b c : Space} (h : c.Continues b) (h' : b.Continues a) : c.Continues a :=
  ⟨h.number.trans h'.number, h.config.trans h'.config, h.registry.trans h'.registry⟩

theorem registry_intern (space : Space) (content : Content Node) (caption : Caption) :
    (space.intern content caption).2.registry = space.registry.registerAll content.identities := by
  rcases intern_cases space content caption with ⟨_, -, heq⟩ | ⟨-, heq⟩ <;> rw [heq] <;> rfl

end Space

namespace SpaceM

variable {α β : Type}

/-- A computation that goes on from where a space is, and leaves its tables in order. -/
def Proceeds (x : SpaceM α) : Prop :=
  ∀ space : Space, space.Orderly → (x.exec space).2.Orderly ∧ (x.exec space).2.Onward space

theorem Proceeds.bind {x : SpaceM α} {f : α → SpaceM β} (hx : x.Proceeds) (hf : ∀ a, (f a).Proceeds) :
    (x >>= f).Proceeds := by
  intro space h
  obtain ⟨horderly, honward⟩ := hx space h
  rw [exec_bind]
  rcases hout : x.exec space with ⟨_ | a, later⟩
  · rw [hout] at horderly honward
    exact ⟨horderly, honward⟩
  · rw [hout] at horderly honward
    obtain ⟨horderly', honward'⟩ := hf a later horderly
    exact ⟨horderly', honward'.trans honward⟩

theorem Proceeds.intern (content : Content Node) (caption : Caption) : (SpaceM.intern content caption).Proceeds := by
  intro space h
  obtain ⟨htidy, hext⟩ := Grows.intern content caption space h.tidy
  have hregistry := space.registry_intern content caption
  have hdescends : (space.intern content caption).2.registry.Descends space.registry := ⟨_, hregistry⟩
  exact ⟨⟨htidy, hdescends.lawful h.lawful, hdescends.fair h.fair⟩, hext, hdescends⟩

/-- Everything that is put together from simple steps goes on from where the space is. -/
theorem Compositional.proceeds : Compositional Proceeds where
  pure _ space h := ⟨h, .refl space⟩
  throw _ _ space h := ⟨h, .refl space⟩
  bind := .bind
  look _ hf space h := hf space space h
  note event space h := by
    obtain ⟨htidy, hext⟩ := Grows.note event space h.tidy
    exact ⟨⟨htidy, h.lawful, h.fair⟩, hext, .refl _⟩
  intern content caption _ := .intern content caption

end SpaceM

variable [Behaviour]

theorem Request.reply_proceeds (request : Request) : request.reply.Proceeds := by
  refine request.reply_inherits .proceeds (fun _ space h => ⟨h, .refl space⟩) fun thing space h => ?_
  have hdescends := Registry.Descends.register space.registry thing
  exact ⟨⟨⟨h.tidy.nodup, h.tidy.named⟩, hdescends.lawful h.lawful, hdescends.fair h.fair⟩,
    ⟨rfl, rfl, hdescends.extends, fun _ h => h, fun _ h => h, .of_subset rfl fun _ h => h⟩, hdescends⟩

theorem Request.run_proceeds (request : Request) : request.run.Proceeds := by
  intro space h
  rw [← request.exec_reply]
  exact request.reply_proceeds space h

namespace Space

variable {space : Space}

/-- The tables of a reachable space are in order. -/
theorem Reachable.orderly {adopting : Prop} (h : space.Reachable adopting) : space.Orderly := by
  refine ⟨h.valid.tidy, h.valid.lawful, ?_⟩
  induction h with
  | new number config => exact Registry.fair_empty _
  | request request origin hspace _ _ _ ih _ =>
      exact (request.run_proceeds _ ⟨hspace.valid.tidy, hspace.valid.lawful, ih⟩).1.fair
  | sweep roots _ _ ih => exact ih
  | prune _ ih => exact ih

end Space

/-- A session goes on with the space that it has. -/
theorem Session.Run.continues {checked : Prop} {session later : Session} (h : Run checked session later)
    (hkept : session.Kept checked) :
    later.space.Continues session.space := by
  induction h with
  | refl => exact .refl _
  | @tail middle later hrun hstep ih =>
      have hmiddle := (Run.kept hrun hkept).1
      refine Space.Continues.trans ?_ ih
      cases hstep with
      | request request => exact (request.run_proceeds _ hmiddle.reachable.orderly).2.continues
      | hold node h => exact .refl _
      | drop kept h => exact .refl _
      | sweep => exact .sweep _ _
      | prune => exact .prune _

end SchemaAlgebra
