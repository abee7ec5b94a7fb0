-- SUMMARY: The JSON of contents: what can be read off it, and that it does not change as names are added.
import SchemaAlgebra.Proofs.PlainNode
import SchemaAlgebra.Proofs.WellFormed

/-!
# Texts of contents

From the JSON of a content of a known kind all its attributes can be read, with
captions or without. Which kind it is shows where only roots can stand; among
refinements it does not, so a property that holds one has an ambiguous text.
-/

namespace SchemaAlgebra

/-- Lists with one image under `f` have one image under whatever `f` determines on their members. -/
theorem map_eq_map_of_determined {α β γ : Type} {f : α → β} {g : α → γ} {l l' : List α}
    (h : ∀ x ∈ l, ∀ y ∈ l', f x = f y → g x = g y) (hmap : l.map f = l'.map f) : l.map g = l'.map g := by
  induction l generalizing l' with
  | nil =>
      rw [List.map_nil, eq_comm, List.map_eq_nil_iff] at hmap
      rw [hmap]
  | cons x rest ih =>
      cases l' with
      | nil => cases hmap
      | cons y rest' =>
          simp only [List.map_cons, List.cons.injEq] at hmap ⊢
          refine ⟨h x List.mem_cons_self y List.mem_cons_self hmap.1, ih ?_ hmap.2⟩
          intro x hx y hy
          exact h x (List.mem_cons_of_mem _ hx) y (List.mem_cons_of_mem _ hy)

-- ---------------------------------------------------------------------------
-- Attributes
-- ---------------------------------------------------------------------------

/-- The attribute of an object; a short form is the only attribute itself. -/
def Json.attribute? (key : String) : Json → Option Json
  | .object fields => fields.lookup key
  | short => some short

/-- The kind of a root that has a JSON, as its keys show. -/
def Json.rootKind? : Json → Option Kind
  | .array _ => some .union
  | .string _ => some .domain
  | .object fields =>
    if (fields.lookup "branches").isSome then some .union
    else if (fields.lookup "in").isSome then some .morph
    else if (fields.lookup "unit").isSome then some .unit
    else if (fields.lookup "proto").isSome then some .proto
    else if (fields.lookup "domain").isSome then some .domain
    else some .intersection
  | _ => none

/-- Keys that no attribute has. -/
def Caption.Reserved (key : String) : Prop := key = "description" ∨ key = "alias"

instance (key : String) : Decidable (Caption.Reserved key) :=
  inferInstanceAs (Decidable (key = "description" ∨ key = "alias"))

namespace Caption

variable {captioned : Bool} {caption : Caption}

theorem attach_object {short : Option Json} {fields : List (String × Json)} :
    (∃ json, short = some json ∧ caption.attach captioned short fields = json) ∨
      ∃ notes : List (String × Json), (∀ key, ¬ Reserved key → notes.lookup key = Option.none) ∧
        caption.attach captioned short fields = .object (fields ++ notes) := by
  have hnotes : ∀ written : Bool, ∀ key, ¬ Reserved key → (if written then
      caption.description.toList.map (fun s => ("description", Json.string s)) ++
        caption.label.toList.map (fun s => ("alias", Json.string s))
      else []).lookup key = Option.none := by
    intro written key hkey
    rw [Reserved, not_or] at hkey
    have hdescription : (key == "description") = false := beq_eq_false_iff_ne.mpr hkey.1
    have halias : (key == "alias") = false := beq_eq_false_iff_ne.mpr hkey.2
    cases written <;> cases caption.description <;> cases caption.label <;>
      simp [List.lookup_cons, hdescription, halias]
  unfold attach
  cases short with
  | none => exact .inr ⟨_, hnotes _, rfl⟩
  | some json =>
      cases hwritten : captioned && !caption.isEmpty with
      | false => exact .inl ⟨json, rfl, rfl⟩
      | true => exact .inr ⟨_, hnotes true, rfl⟩

theorem field?_attach {short : Option Json} {fields : List (String × Json)} {key : String}
    (hkey : ¬ Reserved key) (hshort : ∀ json ∈ short, json.field? key = fields.lookup key) :
    (caption.attach captioned short fields).field? key = fields.lookup key := by
  rcases @attach_object captioned caption short fields with
    ⟨json, rfl, h⟩ | ⟨notes, hnotes, h⟩
  · rw [h]
    exact hshort json rfl
  · rw [h, Json.field?, List.lookup_append, hnotes key hkey, Option.or_none]

theorem attribute?_attach {short : Option Json} {fields : List (String × Json)} {key : String}
    (hkey : ¬ Reserved key) (hshort : ∀ json ∈ short, json.attribute? key = fields.lookup key) :
    (caption.attach captioned short fields).attribute? key = fields.lookup key := by
  rcases @attach_object captioned caption short fields with
    ⟨json, rfl, h⟩ | ⟨notes, hnotes, h⟩
  · rw [h]
    exact hshort json rfl
  · rw [h, Json.attribute?, List.lookup_append, hnotes key hkey, Option.or_none]

theorem rootKind?_attach {short : Option Json} {fields : List (String × Json)}
    (hshort : ∀ json ∈ short, json.rootKind? = (Json.object fields).rootKind?) :
    (caption.attach captioned short fields).rootKind? = (Json.object fields).rootKind? := by
  rcases @attach_object captioned caption short fields with
    ⟨json, rfl, h⟩ | ⟨notes, hnotes, h⟩
  · rw [h]
    exact hshort json rfl
  · have hbranches := hnotes "branches" (by decide)
    have hin := hnotes "in" (by decide)
    have hunit := hnotes "unit" (by decide)
    have hproto := hnotes "proto" (by decide)
    have hdomain := hnotes "domain" (by decide)
    rw [h]
    simp only [Json.rootKind?, List.lookup_append, hbranches, hin, hunit, hproto, hdomain, Option.or_none]

/-- Forms that say nothing under the keys of captions. -/
structure Unannotated (short : Option Json) (fields : List (String × Json)) : Prop where
  fields : ∀ entry ∈ fields, ¬ Reserved entry.1
  short : ∀ json ∈ short, ∀ key, json.field? key = Option.none

/-- The caption can be read off what it is attached to. -/
theorem field?_notes {short : Option Json} {fields : List (String × Json)} (h : Unannotated short fields) :
    (caption.attach true short fields).field? "description" = caption.description.map .string ∧
      (caption.attach true short fields).field? "alias" = caption.label.map .string := by
  have hfields (key : String) (hkey : Reserved key) : fields.lookup key = Option.none := by
    rw [List.lookup_eq_none_iff]
    intro entry hentry
    refine bne_iff_ne.mpr ?_
    rintro rfl
    exact h.fields entry hentry hkey
  have hdescription := hfields "description" (.inl rfl)
  have halias := hfields "alias" (.inr rfl)
  obtain ⟨description, label⟩ := caption
  have hobject (d l : Option String) :
      (Json.object (fields ++ (d.toList.map (fun s => ("description", Json.string s)) ++
        l.toList.map (fun s => ("alias", Json.string s))))).field? "description" = d.map .string ∧
      (Json.object (fields ++ (d.toList.map (fun s => ("description", Json.string s)) ++
        l.toList.map (fun s => ("alias", Json.string s))))).field? "alias" = l.map .string := by
    simp only [Json.field?, List.lookup_append, hdescription, halias]
    cases d <;> cases l <;> exact ⟨rfl, rfl⟩
  cases description <;> cases label
  · cases short with
    | none => exact hobject .none .none
    | some json => exact ⟨h.short json rfl _, h.short json rfl _⟩
  all_goals cases short <;> exact hobject _ _

end Caption

-- ---------------------------------------------------------------------------
-- Constraints of an intersection
-- ---------------------------------------------------------------------------

namespace Content

variable {registry : Registry} {captioned : Bool} {caption : Caption}

/-- What an intersection writes for its constraints of one kind. -/
def constraintJson? (captioned : Bool) (implied : BoundAxis) (kind : Kind) : List Node → Option Json
  | [] => none
  | first :: rest =>
    some (if kind.isRepeatable then .array ((first :: rest).map (childJson captioned))
      else match first.content with
        | .max bound => bound.json captioned first.caption implied
        | .min bound => bound.json captioned first.caption implied
        | _ => childJson captioned first)

theorem constraintField_eq (implied : BoundAxis) (constraints : List Node) (kind : Kind) :
    constraintField captioned implied constraints kind =
      (constraintJson? captioned implied kind (constraints.filter fun c => c.kind = kind)).toList.map (kind.name, ·) := by
  unfold constraintField
  split
  · rename_i h; rw [h]; rfl
  · rename_i h; rw [h]; rfl

theorem lookup_constraintField (implied : BoundAxis) (constraints : List Node) (kind : Kind) (key : String) :
    (constraintField captioned implied constraints kind).lookup key =
      if key = kind.name then constraintJson? captioned implied kind (constraints.filter fun c => c.kind = kind)
      else none := by
  rw [constraintField_eq]
  cases constraintJson? captioned implied kind (constraints.filter fun c => c.kind = kind) with
  | none => simp
  | some json =>
      by_cases hkey : key = kind.name
      · simp [hkey]
      · have hne : (key == kind.name) = false := beq_eq_false_iff_ne.mpr hkey
        simp [List.lookup_cons, hkey, hne]

theorem lookup_constraintFields (implied : BoundAxis) (constraints : List Node) {kind : Kind}
    (h : kind.isRefinement = true) :
    (Kind.refinements.flatMap (constraintField captioned implied constraints)).lookup kind.name =
      constraintJson? captioned implied kind (constraints.filter fun c => c.kind = kind) := by
  simp only [Kind.refinements, List.flatMap_cons, List.flatMap_nil, List.lookup_append, lookup_constraintField]
  cases kind <;> first | exact absurd h (by decide) | simp [Kind.name]

theorem lookup_constraintFields_none (implied : BoundAxis) (constraints : List Node) {key : String}
    (h : ∀ kind ∈ Kind.refinements, key ≠ kind.name) :
    (Kind.refinements.flatMap (constraintField captioned implied constraints)).lookup key = none := by
  rw [List.lookup_eq_none_iff]
  intro entry hentry
  obtain ⟨kind, hkind, hentry⟩ := List.mem_flatMap.mp hentry
  rw [constraintField_eq] at hentry
  obtain ⟨json, -, rfl⟩ := List.mem_map.mp hentry
  simpa using h kind hkind

-- ---------------------------------------------------------------------------
-- Roots
-- ---------------------------------------------------------------------------

/-- The kind of a root can be seen from its JSON. -/
theorem rootKind?_json {content : Content Node} (h : content.kind.isRefinement = false) :
    (content.json registry captioned caption).rootKind? = some content.kind := by
  cases content with
  | union branches ordered =>
      cases ordered
      · refine (Caption.rootKind?_attach ?_).trans rfl
        rintro _ ⟨⟩
        rfl
      · exact (@Caption.rootKind?_attach captioned caption none _ nofun).trans rfl
  | morph input output transforms =>
      refine (@Caption.rootKind?_attach captioned caption none _ nofun).trans ?_
      cases output <;> rfl
  | intersection basis constraints =>
      refine (@Caption.rootKind?_attach captioned caption none _ nofun).trans ?_
      have hnone (key : String) (hkey : ∀ kind ∈ Kind.refinements, key ≠ kind.name) :=
        @lookup_constraintFields_none captioned (Node.impliedAxis basis) constraints key hkey
      have hbasis : ∀ key, key ≠ "basis" →
          (basis.toList.map fun basis => ("basis", childJson captioned basis)).lookup key = none := by
        intro key hkey
        have hne : (key == "basis") = false := beq_eq_false_iff_ne.mpr hkey
        cases basis <;> simp [List.lookup_cons, hne]
      simp only [Json.rootKind?, List.lookup_append]
      rw [hbasis _ (by decide), hnone _ (by decide), hbasis _ (by decide), hnone _ (by decide),
        hbasis _ (by decide), hnone _ (by decide), hbasis _ (by decide), hnone _ (by decide),
        hbasis _ (by decide), hnone _ (by decide)]
      rfl
  | unit v => exact (@Caption.rootKind?_attach captioned caption none _ nofun).trans rfl
  | proto p => exact (@Caption.rootKind?_attach captioned caption none _ nofun).trans rfl
  | domain d =>
      refine (Caption.rootKind?_attach ?_).trans rfl
      rintro _ ⟨⟩
      rfl
  | _ => cases h

-- ---------------------------------------------------------------------------
-- Reading attributes
-- ---------------------------------------------------------------------------

variable {other : Caption}

theorem union_of_json {branches branches' : List Node} {ordered ordered' : Bool}
    (h : (union branches ordered).json registry captioned caption =
      (union branches' ordered').json registry captioned other) :
    branches.map (childJson captioned) = branches'.map (childJson captioned) ∧ ordered = ordered' := by
  have hread (caption : Caption) (branches : List Node) (ordered : Bool) :
      ((union branches ordered).json registry captioned caption).attribute? "branches" =
          some (.array (branches.map (childJson captioned))) ∧
        ((union branches ordered).json registry captioned caption).field? "ordered" =
          if ordered then some (.bool true) else none := by
    cases ordered
    · refine ⟨Caption.attribute?_attach (by decide) ?_, Caption.field?_attach (by decide) ?_⟩
      · rintro _ ⟨⟩; rfl
      · rintro _ ⟨⟩; rfl
    · exact ⟨@Caption.attribute?_attach captioned caption none _ _ (by decide) nofun,
        @Caption.field?_attach captioned caption none _ _ (by decide) nofun⟩
  have hbranches := (hread caption branches ordered).1
  have hordered := (hread caption branches ordered).2
  rw [h, (hread other branches' ordered').1] at hbranches
  rw [h, (hread other branches' ordered').2] at hordered
  refine ⟨(Json.array.inj (Option.some.inj hbranches)).symm, ?_⟩
  cases ordered <;> cases ordered' <;> first | rfl | cases hordered

theorem morph_of_json (hlawful : registry.Lawful) {input input' : Node} {output output' : Option Node}
    {transforms transforms' : List Transform}
    (hknown : ∀ thing ∈ (morph input output transforms).identities, registry.Knows thing)
    (hknown' : ∀ thing ∈ (morph input' output' transforms').identities, registry.Knows thing)
    (h : (morph input output transforms).json registry captioned caption =
      (morph input' output' transforms').json registry captioned other) :
    childJson captioned input = childJson captioned input' ∧
      output.map (childJson captioned) = output'.map (childJson captioned) ∧ transforms = transforms' := by
  have hread (caption : Caption) (input : Node) (output : Option Node) (transforms : List Transform) :
      ((morph input output transforms).json registry captioned caption).field? "in" =
          some (childJson captioned input) ∧
        ((morph input output transforms).json registry captioned caption).field? "out" =
          output.map (childJson captioned) ∧
        ((morph input output transforms).json registry captioned caption).field? "morph" =
          some (.array (transforms.map fun t => .string (registry.reference (.transform t)))) := by
    have hfield (key : String) (hkey : ¬ Caption.Reserved key) :=
      @Caption.field?_attach captioned caption none (("in", childJson captioned input) ::
        output.toList.map (fun output => ("out", childJson captioned output)) ++
          [("morph", Json.array (transforms.map fun t => .string (registry.reference (.transform t))))])
        key hkey nofun
    refine ⟨(hfield "in" (by decide)).trans ?_, (hfield "out" (by decide)).trans ?_,
      (hfield "morph" (by decide)).trans ?_⟩ <;> cases output <;> rfl
  obtain ⟨hin, hout, hmorph⟩ := hread caption input output transforms
  obtain ⟨hin', hout', hmorph'⟩ := hread other input' output' transforms'
  rw [h, hin'] at hin
  rw [h, hout'] at hout
  rw [h, hmorph'] at hmorph
  refine ⟨(Option.some.inj hin).symm, hout.symm, ?_⟩
  have hnames := (Json.array.inj (Option.some.inj hmorph)).symm
  have hone : ∀ t ∈ transforms, ∀ t' ∈ transforms',
      Json.string (registry.reference (.transform t)) = .string (registry.reference (.transform t')) → t = t' := by
    intro t ht t' ht' heq
    have hsame := Registry.reference_injective hlawful (hknown _ (List.mem_map_of_mem ht))
      (hknown' _ (List.mem_map_of_mem ht')) (Json.string.inj heq)
    exact Registered.transform.inj hsame
  simpa using map_eq_map_of_determined (g := id) hone hnames

theorem unit_of_json (hlawful : registry.Lawful) {v w : Value}
    (hknown : ∀ thing ∈ (unit v : Content Node).identities, registry.Knows thing)
    (hknown' : ∀ thing ∈ (unit w : Content Node).identities, registry.Knows thing)
    (h : (unit v).json registry captioned caption = (unit w).json registry captioned other) :
    v.unsigned = w.unsigned := by
  have hread (caption : Caption) (v : Value) :
      ((unit v).json registry captioned caption).field? "unit" = some (Literal.encode registry v) :=
    @Caption.field?_attach captioned caption none _ _ (by decide) nofun
  have named {v : Value} (hknown : ∀ thing ∈ (unit v : Content Node).identities, registry.Knows thing) :
      Literal.Named registry v := by
    intro hv
    apply hknown
    simp [identities, hv]
  have hunit := hread caption v
  rw [h, hread other w] at hunit
  exact (Literal.encode_injective hlawful (named hknown') (named hknown) (Option.some.inj hunit)).symm

theorem proto_of_json (hlawful : registry.Lawful) {p q : Proto} (hp : registry.Knows (.proto p))
    (hq : registry.Knows (.proto q))
    (h : (proto p).json registry captioned caption = (proto q).json registry captioned other) : p = q := by
  have hread (caption : Caption) (p : Proto) :
      ((proto p).json registry captioned caption).field? "proto" =
        some (.string (registry.reference (.proto p))) :=
    @Caption.field?_attach captioned caption none _ _ (by decide) nofun
  have hproto := hread caption p
  rw [h, hread other q] at hproto
  have hname := Json.string.inj (Option.some.inj hproto)
  exact Registered.proto.inj (Registry.reference_injective hlawful hp hq hname.symm)

theorem domain_of_json {d d' : Domain}
    (h : (domain d).json registry captioned caption = (domain d').json registry captioned other) : d = d' := by
  have hread (caption : Caption) (d : Domain) :
      ((domain d).json registry captioned caption).attribute? "domain" = some (.string d.name) := by
    refine Caption.attribute?_attach (by decide) ?_
    rintro _ ⟨⟩
    rfl
  have hdomain := hread caption d
  rw [h, hread other d'] at hdomain
  have hname := Json.string.inj (Option.some.inj hdomain)
  cases d <;> cases d' <;> first | rfl | exact absurd hname (by decide)

theorem divisor_of_json {d d' : Nat}
    (h : (divisor d).json registry captioned caption = (divisor d').json registry captioned other) : d = d' := by
  have hread (caption : Caption) (d : Nat) :
      ((divisor d).json registry captioned caption).attribute? "divisor" = some (.integer d) := by
    refine Caption.attribute?_attach (by decide) ?_
    rintro _ ⟨⟩
    rfl
  have hdivisor := hread caption d
  rw [h, hread other d'] at hdivisor
  exact Int.ofNat_inj.mp (Json.integer.inj (Option.some.inj hdivisor)).symm

theorem pattern_of_json {p q : Pattern} (hp : Pattern.ofSource p.source p.flags = .ok p)
    (hq : Pattern.ofSource q.source q.flags = .ok q)
    (h : (pattern p).json registry captioned caption = (pattern q).json registry captioned other) : p = q := by
  have hread (caption : Caption) (p : Pattern) :
      ((pattern p).json registry captioned caption).attribute? "pattern" = some (.string p.source) ∧
        ((pattern p).json registry captioned caption).field? "flags" =
          if p.flags.isEmpty then none else some (.string p.flags) := by
    simp only [json]
    split
    · refine ⟨Caption.attribute?_attach (by decide) ?_, Caption.field?_attach (by decide) ?_⟩
      · rintro _ ⟨⟩; rfl
      · rintro _ ⟨⟩; rfl
    · exact ⟨@Caption.attribute?_attach captioned caption none _ _ (by decide) nofun,
        @Caption.field?_attach captioned caption none _ _ (by decide) nofun⟩
  obtain ⟨hsource, hflags⟩ := hread caption p
  rw [h, (hread other q).1] at hsource
  rw [h, (hread other q).2] at hflags
  have hsource := Json.string.inj (Option.some.inj hsource)
  have hflags : q.flags = p.flags := by
    split at hflags <;> split at hflags
    · simp_all
    · cases hflags
    · cases hflags
    · exact Json.string.inj (Option.some.inj hflags)
  rw [hsource, hflags, hp] at hq
  exact Except.ok.inj hq

theorem predicate_of_json (hlawful : registry.Lawful) {p q : Predicate} (hp : registry.Knows (.predicate p))
    (hq : registry.Knows (.predicate q))
    (h : (predicate p).json registry captioned caption = (predicate q).json registry captioned other) :
    p = q := by
  have hread (caption : Caption) (p : Predicate) :
      ((predicate p).json registry captioned caption).attribute? "predicate" =
        some (.string (registry.reference (.predicate p))) := by
    refine Caption.attribute?_attach (by decide) ?_
    rintro _ ⟨⟩
    rfl
  have hpredicate := hread caption p
  rw [h, hread other q] at hpredicate
  have hname := Json.string.inj (Option.some.inj hpredicate)
  exact Registered.predicate.inj (Registry.reference_injective hlawful hp hq hname.symm)

theorem bound_of_json {a b : Bound} {implied : BoundAxis}
    (h : a.json captioned caption implied = b.json captioned other implied) : a.unsigned = b.unsigned := by
  have hlimit (n : Number) (key : String) :
      (Literal.encodeNumber n).attribute? key = some (Literal.encodeNumber n) ∧
        (Literal.encodeNumber n).field? key = none := by
    rcases Literal.encodeNumber_cases n with ⟨i, hn, -⟩ | ⟨hn, -⟩ | ⟨-, hn⟩ <;> rw [hn] <;> exact ⟨rfl, rfl⟩
  have hread (caption : Caption) (a : Bound) :
      (a.json captioned caption implied).attribute? "limit" = some (Literal.encodeNumber a.limit) ∧
        (a.json captioned caption implied).field? "exclusive" = (if a.exclusive then some (.bool true) else none) ∧
        (a.json captioned caption implied).field? "axis" =
          if a.axis = implied then none else some (.string a.axis.name) := by
    refine ⟨Caption.attribute?_attach (by decide) ?_, (Caption.field?_attach (by decide) ?_).trans ?_,
      (Caption.field?_attach (by decide) ?_).trans ?_⟩
    all_goals cases a.exclusive <;> by_cases haxis : a.axis = implied <;> simp [haxis, hlimit] <;> rfl
  obtain ⟨hl, hx, haxis⟩ := hread caption a
  obtain ⟨hl', hx', haxis'⟩ := hread other b
  rw [h, hl'] at hl
  rw [h, hx'] at hx
  rw [h, haxis'] at haxis
  have hlimits := Literal.encodeNumber_injective (Option.some.inj hl).symm
  have hexclusive : a.exclusive = b.exclusive := by
    cases ha : a.exclusive <;> cases hb : b.exclusive <;> simp_all
  have haxes : a.axis = b.axis := by
    split at haxis <;> split at haxis
    · simp_all
    · cases haxis
    · cases haxis
    · have hname := Json.string.inj (Option.some.inj haxis)
      cases ha : a.axis <;> cases hb : b.axis <;> rw [ha, hb] at hname <;> first | rfl | exact absurd hname (by decide)
  rw [Bound.unsigned, Bound.unsigned, hlimits, hexclusive, haxes]

theorem key_of_json (hlawful : registry.Lawful) {key key' : PropKey}
    (hknown : ∀ s, key = .symbol s → registry.Knows (.value (.symbol s)))
    (hknown' : ∀ s, key' = .symbol s → registry.Knows (.value (.symbol s)))
    (h : key.json registry = key'.json registry) : key = key' := by
  cases key with
  | string name =>
      cases key' with
      | string name' => exact congrArg PropKey.string (Json.string.inj h)
      | symbol s => cases h
  | symbol s =>
      cases key' with
      | string name => cases h
      | symbol s' =>
          simp only [PropKey.json, Json.object.injEq, List.cons.injEq, Prod.mk.injEq, Json.string.injEq,
            and_true, true_and] at h
          have hsame := Registry.reference_injective hlawful (hknown s rfl) (hknown' s' rfl) h
          exact congrArg PropKey.symbol (Value.symbol.inj (Registered.value.inj hsame))

theorem known_required {key : PropKey} {value : Node}
    (h : ∀ thing ∈ (required key value).identities, registry.Knows thing) :
    ∀ s, key = .symbol s → registry.Knows (.value (.symbol s)) := by
  rintro s rfl
  exact h _ List.mem_cons_self

theorem known_optional {key : PropKey} {value : Node}
    (h : ∀ thing ∈ (optional key value).identities, registry.Knows thing) :
    ∀ s, key = .symbol s → registry.Knows (.value (.symbol s)) := by
  rintro s rfl
  exact h _ List.mem_cons_self

/-- The JSON of properties of either kind: the keys and the values can be read. -/
theorem prop_of_json (hlawful : registry.Lawful) {key key' : PropKey} {value value' : Node}
    (hknown : ∀ s, key = .symbol s → registry.Knows (.value (.symbol s)))
    (hknown' : ∀ s, key' = .symbol s → registry.Knows (.value (.symbol s)))
    (h : (required key value).json registry captioned caption =
      (required key' value').json registry captioned other) :
    key = key' ∧ childJson captioned value = childJson captioned value' := by
  have hread (caption : Caption) (key : PropKey) (value : Node) :
      ((required key value).json registry captioned caption).field? "key" = some (key.json registry) ∧
        ((required key value).json registry captioned caption).field? "value" = some (childJson captioned value) :=
    ⟨@Caption.field?_attach captioned caption none _ _ (by decide) nofun,
      @Caption.field?_attach captioned caption none _ _ (by decide) nofun⟩
  obtain ⟨hkey, hvalue⟩ := hread caption key value
  rw [h, (hread other key' value').1] at hkey
  rw [h, (hread other key' value').2] at hvalue
  exact ⟨key_of_json hlawful hknown hknown' (Option.some.inj hkey).symm, (Option.some.inj hvalue).symm⟩

theorem intersection_of_json {basis basis' : Option Node} {constraints constraints' : List Node}
    (h : (intersection basis constraints).json registry captioned caption =
      (intersection basis' constraints').json registry captioned other) :
    basis.map (childJson captioned) = basis'.map (childJson captioned) ∧
      ∀ kind, kind.isRefinement = true →
        constraintJson? captioned (Node.impliedAxis basis) kind (constraints.filter fun c => c.kind = kind) =
          constraintJson? captioned (Node.impliedAxis basis') kind (constraints'.filter fun c => c.kind = kind) := by
  have hread (caption : Caption) (basis : Option Node) (constraints : List Node) :
      ((intersection basis constraints).json registry captioned caption).field? "basis" =
          basis.map (childJson captioned) ∧
        ∀ kind, kind.isRefinement = true →
          ((intersection basis constraints).json registry captioned caption).field? kind.name =
            constraintJson? captioned (Node.impliedAxis basis) kind (constraints.filter fun c => c.kind = kind) := by
    have hnone := @lookup_constraintFields_none captioned (Node.impliedAxis basis) constraints "basis" (by decide)
    constructor
    · refine (@Caption.field?_attach captioned caption none _ _ (by decide) nofun).trans ?_
      rw [List.lookup_append, hnone, Option.or_none]
      cases basis <;> rfl
    · intro kind hkind
      have hkey : ¬ Caption.Reserved kind.name ∧ (kind.name == "basis") = false := by
        cases kind <;> first | cases hkind; decide | cases hkind
      refine (@Caption.field?_attach captioned caption none _ _ hkey.1 nofun).trans ?_
      rw [List.lookup_append, lookup_constraintFields _ _ hkind]
      cases basis <;> simp [List.lookup_cons, hkey.2]
  obtain ⟨hbasis, hrest⟩ := hread caption basis constraints
  obtain ⟨hbasis', hrest'⟩ := hread other basis' constraints'
  rw [h, hbasis'] at hbasis
  refine ⟨hbasis.symm, fun kind hkind => ?_⟩
  rw [← hrest kind hkind, h, hrest' kind hkind]

-- ---------------------------------------------------------------------------
-- Reading captions
-- ---------------------------------------------------------------------------

theorem bound_caption {bound : Bound} {implied : BoundAxis} :
    (bound.json true caption implied).field? "description" = caption.description.map .string ∧
      (bound.json true caption implied).field? "alias" = caption.label.map .string := by
  refine Caption.field?_notes ⟨?_, ?_⟩
  · cases bound.exclusive <;> by_cases haxis : bound.axis = implied <;> simp [haxis, Caption.Reserved]
  · intro json hjson key
    split at hjson
    · cases hjson
      rcases Literal.encodeNumber_cases bound.limit with ⟨i, hn, -⟩ | ⟨hn, -⟩ | ⟨-, hn⟩ <;> rw [hn] <;> rfl
    · cases hjson

/-- The caption can be read off the JSON of any content. -/
theorem field?_caption (content : Content Node) :
    (content.json registry true caption).field? "description" = caption.description.map .string ∧
      (content.json registry true caption).field? "alias" = caption.label.map .string := by
  cases content with
  | max bound => exact bound_caption
  | min bound => exact bound_caption
  | intersection basis constraints =>
      simp only [json]
      refine Caption.field?_notes ⟨?_, nofun⟩
      intro entry hentry
      rcases List.mem_append.mp hentry with hentry | hentry
      · obtain ⟨c, -, rfl⟩ := List.mem_map.mp hentry
        exact (by decide : ¬ Caption.Reserved "basis")
      · obtain ⟨kind, hkind, hentry⟩ := List.mem_flatMap.mp hentry
        rw [constraintField_eq] at hentry
        obtain ⟨json, -, rfl⟩ := List.mem_map.mp hentry
        have hkey : ¬ Caption.Reserved kind.name := by
          revert hkind
          cases kind <;> decide
        exact hkey
  | union branches ordered =>
      cases ordered
      · refine @Caption.field?_notes caption (some (.array (branches.map (childJson true)))) _ ⟨?_, ?_⟩
        · simp [Caption.Reserved]
        · rintro _ ⟨⟩ _; rfl
      · refine @Caption.field?_notes caption none _ ⟨?_, nofun⟩
        simp [Caption.Reserved]
  | morph input output transforms =>
      simp only [json]
      refine Caption.field?_notes ⟨?_, nofun⟩
      cases output <;> simp [Caption.Reserved]
  | pattern p =>
      simp only [json]
      split <;> refine Caption.field?_notes ⟨by simp [Caption.Reserved], ?_⟩
      · rintro _ ⟨⟩ _; rfl
      · nofun
  | unit v => simp only [json]; exact Caption.field?_notes ⟨by simp [Caption.Reserved], nofun⟩
  | proto p => simp only [json]; exact Caption.field?_notes ⟨by simp [Caption.Reserved], nofun⟩
  | required key value => simp only [json]; exact Caption.field?_notes ⟨by simp [Caption.Reserved], nofun⟩
  | optional key value => simp only [json]; exact Caption.field?_notes ⟨by simp [Caption.Reserved], nofun⟩
  | domain d => simp only [json]; exact Caption.field?_notes ⟨by simp [Caption.Reserved], by rintro _ ⟨⟩ _; rfl⟩
  | divisor d => simp only [json]; exact Caption.field?_notes ⟨by simp [Caption.Reserved], by rintro _ ⟨⟩ _; rfl⟩
  | predicate p => simp only [json]; exact Caption.field?_notes ⟨by simp [Caption.Reserved], by rintro _ ⟨⟩ _; rfl⟩

/-- Texts under which two captions are found are texts of one caption. -/
theorem caption_eq_of_fields {json : Json}
    (h : json.field? "description" = caption.description.map .string ∧ json.field? "alias" = caption.label.map .string)
    (h' : json.field? "description" = other.description.map .string ∧ json.field? "alias" = other.label.map .string) :
    caption = other := by
  have hstring {a b : Option String} (hab : a.map Json.string = b.map Json.string) : a = b :=
    Option.map_injective (fun _ _ => Json.string.inj) hab
  obtain ⟨description, label⟩ := caption
  obtain ⟨description', label'⟩ := other
  exact congr (congrArg Caption.mk (hstring (h.1.symm.trans h'.1))) (hstring (h.2.symm.trans h'.2))

/-- Contents with one captioned text have one caption. -/
theorem caption_of_json {content content' : Content Node}
    (h : content.json registry true caption = content'.json registry true other) : caption = other :=
  caption_eq_of_fields (field?_caption content) (h ▸ field?_caption content')

theorem bound_json_unsigned (bound : Bound) (implied : BoundAxis) :
    bound.unsigned.json captioned caption implied = bound.json captioned caption implied := by
  simp only [Bound.json, Bound.unsigned, Literal.encodeNumber_unsigned]
  rfl

theorem attach_uncaptioned (caption other : Caption) (short : Option Json) (fields : List (String × Json)) :
    caption.attach false short fields = other.attach false short fields := by
  cases short <;> rfl

theorem bound_json_uncaptioned (bound : Bound) (implied : BoundAxis) (caption other : Caption) :
    bound.json false caption implied = bound.json false other implied :=
  attach_uncaptioned ..

theorem json_uncaptioned (registry : Registry) (content : Content Node) (caption other : Caption) :
    content.json registry false caption = content.json registry false other := by
  cases content <;> simp only [json, Bound.json, attach_uncaptioned caption other]

/-- The sign of a zero is not written. -/
theorem json_unsigned (content : Content Node) :
    content.unsigned.json registry captioned caption = content.json registry captioned caption := by
  cases content with
  | unit v => simp only [unsigned, json, Literal.encode_unsigned]
  | max bound => exact bound_json_unsigned bound .value
  | min bound => exact bound_json_unsigned bound .value
  | _ => rfl

theorem identities_unsigned (content : Content Node) : content.unsigned.identities = content.identities := by
  cases content with
  | unit v => cases v <;> rfl
  | _ => rfl

/-- Bounds with one text under a basis have one text under any. -/
theorem bound_json_eq {a b : Bound} {implied : BoundAxis}
    (h : a.json captioned caption implied = b.json captioned other implied) (axis : BoundAxis) :
    a.json captioned caption axis = b.json captioned other axis := by
  rw [← bound_json_unsigned a, bound_of_json h, bound_json_unsigned]
  cases captioned with
  | true =>
      have hother := @bound_caption other b implied
      rw [← h] at hother
      have hcaption : caption = other := caption_eq_of_fields bound_caption hother
      rw [hcaption]
  | false =>
      unfold Bound.json Caption.attach
      split <;> rfl

-- ---------------------------------------------------------------------------
-- Documents that can be written
-- ---------------------------------------------------------------------------

theorem isFiniteFields_iff {fields : List (String × Json)} :
    Json.isFiniteFields fields = true ↔ ∀ entry ∈ fields, entry.2.isFinite = true := by
  induction fields with
  | nil => simp [Json.isFiniteFields]
  | cons entry rest ih => simp [Json.isFiniteFields, ih]

theorem isFiniteItems_iff {items : List Json} :
    Json.isFiniteItems items = true ↔ ∀ item ∈ items, item.isFinite = true := by
  induction items with
  | nil => simp [Json.isFiniteItems]
  | cons item rest ih => simp [Json.isFiniteItems, ih]

theorem isFinite_attach {short : Option Json} {fields : List (String × Json)}
    (hshort : ∀ json ∈ short, json.isFinite = true) (hfields : ∀ entry ∈ fields, entry.2.isFinite = true) :
    (caption.attach captioned short fields).isFinite = true := by
  unfold Caption.attach
  dsimp only
  split
  · exact hshort _ rfl
  · rw [Json.isFinite, isFiniteFields_iff]
    intro entry hentry
    rcases List.mem_append.mp hentry with hentry | hentry
    · exact hfields entry hentry
    · split at hentry
      · rcases List.mem_append.mp hentry with hentry | hentry <;>
          obtain ⟨text, -, rfl⟩ := List.mem_map.mp hentry <;> rfl
      · cases hentry

theorem isFinite_bound {implied : BoundAxis} (bound : Bound) :
    (bound.json captioned caption implied).isFinite = true := by
  have hlimit := Literal.isFinite_encodeNumber bound.limit
  refine isFinite_attach ?_ ?_
  · intro json hjson
    split at hjson
    · cases hjson; exact hlimit
    · cases hjson
  · intro entry hentry
    simp only [List.cons_append, List.mem_cons, List.mem_append] at hentry
    rcases hentry with rfl | hentry | hentry
    · exact hlimit
    · split at hentry
      · rw [List.mem_singleton.mp hentry]; rfl
      · cases hentry
    · split at hentry
      · cases hentry
      · rw [List.mem_singleton.mp hentry]; rfl

theorem isFinite_constraintJson? {implied : BoundAxis} {kind : Kind} {constraints : List Node}
    (h : ∀ c ∈ constraints, (childJson captioned c).isFinite = true) :
    ∀ json ∈ constraintJson? captioned implied kind constraints, json.isFinite = true := by
  intro json hjson
  cases constraints with
  | nil => cases hjson
  | cons first rest =>
      simp only [constraintJson?, Option.mem_def, Option.some.injEq] at hjson
      subst hjson
      split
      · rw [Json.isFinite, isFiniteItems_iff]
        intro item hitem
        obtain ⟨c, hc, rfl⟩ := List.mem_map.mp hitem
        exact h c hc
      · split
        · exact isFinite_bound _
        · exact isFinite_bound _
        · exact h first List.mem_cons_self

theorem isFinite_json {content : Content Node} (h : ∀ c ∈ content.children, (childJson captioned c).isFinite = true) :
    (content.json registry captioned caption).isFinite = true := by
  have hnone (fields : List (String × Json)) (hfields : ∀ entry ∈ fields, entry.2.isFinite = true) :
      (caption.attach captioned none fields).isFinite = true :=
    isFinite_attach nofun hfields
  cases content with
  | union branches ordered =>
      have hitems : (Json.array (branches.map (childJson captioned))).isFinite = true := by
        rw [Json.isFinite, isFiniteItems_iff]
        intro item hitem
        obtain ⟨c, hc, rfl⟩ := List.mem_map.mp hitem
        exact h c hc
      cases ordered
      · exact isFinite_attach (by rintro _ ⟨⟩; exact hitems) (by simpa using hitems)
      · exact hnone _ (by simpa [Json.isFinite] using hitems)
  | morph input output transforms =>
      apply hnone
      intro entry hentry
      simp only [List.cons_append, List.mem_cons, List.mem_append, List.mem_map, List.not_mem_nil, or_false]
        at hentry
      rcases hentry with rfl | ⟨c, hc, rfl⟩ | rfl
      · exact h input List.mem_cons_self
      · exact h c (List.mem_cons_of_mem _ hc)
      · rw [Json.isFinite, isFiniteItems_iff]
        intro item hitem
        obtain ⟨t, -, rfl⟩ := List.mem_map.mp hitem
        rfl
  | intersection basis constraints =>
      apply hnone
      intro entry hentry
      rcases List.mem_append.mp hentry with hentry | hentry
      · obtain ⟨c, hc, rfl⟩ := List.mem_map.mp hentry
        exact h c (List.mem_append_left _ hc)
      · obtain ⟨kind, -, hentry⟩ := List.mem_flatMap.mp hentry
        rw [constraintField_eq] at hentry
        obtain ⟨json, hjson, rfl⟩ := List.mem_map.mp hentry
        refine isFinite_constraintJson? ?_ json (Option.mem_toList.mp hjson)
        intro c hc
        exact h c (List.mem_append_right _ (List.mem_of_mem_filter hc))
  | unit v => exact hnone _ (by simpa using Literal.isFinite_encode registry v)
  | proto p => exact hnone _ (by simp [Json.isFinite])
  | domain d => exact isFinite_attach (by rintro _ ⟨⟩; rfl) (by simp [Json.isFinite])
  | divisor d => exact isFinite_attach (by rintro _ ⟨⟩; rfl) (by simp [Json.isFinite])
  | max bound => exact isFinite_bound bound
  | min bound => exact isFinite_bound bound
  | pattern p =>
      simp only [json]
      split
      · exact isFinite_attach (by rintro _ ⟨⟩; rfl) (by simp [Json.isFinite])
      · exact hnone _ (by simp [Json.isFinite])
  | predicate p => exact isFinite_attach (by rintro _ ⟨⟩; rfl) (by simp [Json.isFinite])
  | required key value =>
      have hvalue := h value List.mem_cons_self
      refine hnone _ ?_
      cases key <;> simpa [PropKey.json, Json.isFinite, Json.isFiniteFields] using hvalue
  | optional key value =>
      have hvalue := h value List.mem_cons_self
      refine hnone _ ?_
      cases key <;> simpa [PropKey.json, Json.isFinite, Json.isFiniteFields] using hvalue

-- ---------------------------------------------------------------------------
-- More names
-- ---------------------------------------------------------------------------

/-- More names change no text whose names are known. -/
theorem json_extends {later : Registry} {content : Content Node} (hext : later.Extends registry)
    (hknown : ∀ thing ∈ content.identities, registry.Knows thing) :
    content.json later captioned caption = content.json registry captioned caption := by
  have hreference (thing : Registered) (hmem : thing ∈ content.identities) :
      later.reference thing = registry.reference thing :=
    Registry.reference_extends (hknown thing hmem) hext
  cases content with
  | morph input output transforms =>
      have hnames : transforms.map (fun t => Json.string (later.reference (.transform t))) =
          transforms.map fun t => .string (registry.reference (.transform t)) := by
        refine List.map_congr_left fun t ht => ?_
        rw [hreference _ (List.mem_map_of_mem ht)]
      simp only [json, hnames]
  | unit v =>
      have hencode : Literal.encode later v = Literal.encode registry v := by
        unfold Literal.encode
        cases v with
        | symbol s => exact congrArg Json.string (hreference _ List.mem_cons_self)
        | object o => exact congrArg Json.string (hreference _ List.mem_cons_self)
        | _ => rfl
      simp only [json, hencode]
  | proto p => simp only [json, hreference _ List.mem_cons_self]
  | predicate p => simp only [json, hreference _ List.mem_cons_self]
  | required key value =>
      cases key with
      | string name => rfl
      | symbol s => simp only [json, PropKey.json, hreference _ List.mem_cons_self]
  | optional key value =>
      cases key with
      | string name => rfl
      | symbol s => simp only [json, PropKey.json, hreference _ List.mem_cons_self]
  | _ => rfl

end Content

end SchemaAlgebra
