-- SUMMARY: The text of a node without captions can be read off its text with captions.
import SchemaAlgebra.Proofs.Identity

/-!
# Texts without captions

A live node is found by its text with captions, and compared by its text without.
The second is the first with every caption taken out: an object that had a caption
takes its short form again if it has one. So nodes with one captioned text are of
one type, whatever is known about the contents they were made from.
-/

namespace SchemaAlgebra

-- ---------------------------------------------------------------------------
-- Taking captions out
-- ---------------------------------------------------------------------------

namespace Json

/-- Whether an object has a caption. -/
def annotated (fields : List (String × Json)) : Bool := fields.any fun field => decide (Caption.Reserved field.1)

/-- The short form of an object with a single attribute. A union is a list, a bare rule is not. -/
def shortForm? (key : String) (json : Json) : Option Json :=
  if key = "branches" ∨ key = "domain" ∨ key = "divisor" ∨ key = "limit" then some json
  else if key = "pattern" ∨ key = "predicate" then match json with
    | .string s => some (.string s)
    | _ => none
  else none

/-- An object, or the short form it has. -/
def shorten : List (String × Json) → Json
  | [(key, json)] => (shortForm? key json).getD (.object [(key, json)])
  | fields => .object fields

mutual

/-- A document without captions. -/
def uncaption : Json → Json
  | .array items => .array (uncaptionItems items)
  | .object fields =>
    if annotated fields then shorten (uncaptionFields fields) else .object (uncaptionFields fields)
  | json => json
termination_by structural json => json

def uncaptionItems : List Json → List Json
  | [] => []
  | item :: rest => uncaption item :: uncaptionItems rest
termination_by structural items => items

def uncaptionFields : List (String × Json) → List (String × Json)
  | [] => []
  | (key, json) :: rest =>
    if Caption.Reserved key then uncaptionFields rest else (key, uncaption json) :: uncaptionFields rest
termination_by structural fields => fields

end

@[simp] theorem uncaptionItems_eq (items : List Json) : uncaptionItems items = items.map uncaption := by
  induction items with
  | nil => rfl
  | cons item rest ih => rw [uncaptionItems, List.map_cons, ih]

@[simp] theorem uncaptionFields_append (a b : List (String × Json)) :
    uncaptionFields (a ++ b) = uncaptionFields a ++ uncaptionFields b := by
  induction a with
  | nil => rfl
  | cons field rest ih =>
      obtain ⟨key, json⟩ := field
      rw [List.cons_append, uncaptionFields, uncaptionFields, ih]
      split <;> rfl

theorem uncaptionFields_flatMap {α : Type} (f : α → List (String × Json)) (l : List α) :
    uncaptionFields (l.flatMap f) = l.flatMap fun a => uncaptionFields (f a) := by
  induction l with
  | nil => rfl
  | cons a rest ih => rw [List.flatMap_cons, uncaptionFields_append, ih, List.flatMap_cons]

end Json

namespace Caption

/-- What there is of a caption is written behind the attributes of an object. -/
theorem attach_true {caption : Caption} (h : caption.isEmpty = false) : ∃ key text rest, Reserved key ∧
    Json.uncaptionFields rest = [] ∧ ∀ (short : Option Json) (fields : List (String × Json)),
      caption.attach true short fields = .object (fields ++ (key, text) :: rest) := by
  obtain ⟨description, label⟩ := caption
  cases description with
  | some d =>
      refine ⟨"description", .string d, label.toList.map fun s => ("alias", .string s), .inl rfl, ?_, ?_⟩
      · cases label <;> rfl
      · intro short fields
        cases short <;> rfl
  | none =>
      cases label with
      | none => cases h
      | some l =>
          refine ⟨"alias", .string l, [], .inr rfl, rfl, ?_⟩
          intro short fields
          cases short <;> rfl

/-- Captions are taken out of what they are attached to. -/
theorem uncaption_attach {caption : Caption} {short short' : Option Json} {fields fields' : List (String × Json)}
    (hclean : ∀ entry ∈ fields, ¬ Reserved entry.1) (hfields : Json.uncaptionFields fields = fields')
    (hshort : short.map Json.uncaption = short')
    (hshorten : caption.isEmpty = false → Json.shorten fields' = short'.getD (.object fields')) :
    (caption.attach true short fields).uncaption = caption.attach false short' fields' := by
  subst hfields hshort
  have hfalse : caption.attach false (short.map Json.uncaption) (Json.uncaptionFields fields) =
      (short.map Json.uncaption).getD (.object (Json.uncaptionFields fields)) := by
    cases short with
    | none => exact congrArg Json.object (List.append_nil _)
    | some json => rfl
  rw [hfalse]
  cases hempty : caption.isEmpty with
  | true =>
      have hplain : Json.annotated fields = false := by
        simpa [Json.annotated] using hclean
      cases short with
      | none => simp [attach, hempty, Json.uncaption, hplain]
      | some json => simp [attach, hempty]
  | false =>
      obtain ⟨key, text, rest, hkey, hrest, hattach⟩ := attach_true hempty
      have hannotated : Json.annotated (fields ++ (key, text) :: rest) = true := by
        simp [Json.annotated, hkey]
      rw [hattach, Json.uncaption, if_pos hannotated, Json.uncaptionFields_append, Json.uncaptionFields, if_pos hkey,
        hrest, List.append_nil]
      exact hshorten hempty

end Caption

namespace Content

variable {registry : Registry} {caption : Caption}

theorem uncaption_encodeNumber (n : Number) : (Literal.encodeNumber n).uncaption = Literal.encodeNumber n := by
  rcases Literal.encodeNumber_cases n with ⟨i, hn, -⟩ | ⟨hn, -⟩ | ⟨-, hn⟩ <;> rw [hn] <;> rfl

theorem uncaption_encode (registry : Registry) (v : Value) :
    (Literal.encode registry v).uncaption = Literal.encode registry v := by
  cases v with
  | number n => exact uncaption_encodeNumber n
  | _ => rfl

theorem uncaption_bound (bound : Bound) (implied : BoundAxis) :
    (bound.json true caption implied).uncaption = bound.json false caption implied := by
  have hlimit := uncaption_encodeNumber bound.limit
  unfold Bound.json
  generalize Literal.encodeNumber bound.limit = limit at hlimit
  refine Caption.uncaption_attach ?_ ?_ ?_ fun _ => ?_
  all_goals
    cases bound.exclusive <;> by_cases haxis : bound.axis = implied <;>
      simp [haxis, hlimit, Json.uncaption, Json.uncaptionFields, Json.shorten, Json.shortForm?, Caption.Reserved]

variable {content : Content Node}

/-- What an intersection writes for its constraints of one kind, without captions. -/
theorem uncaption_constraintField {implied : BoundAxis} {constraints : List Node} {kind : Kind}
    (h : ∀ c ∈ constraints, c.json.uncaption = c.typeJson) (hkind : ¬ Caption.Reserved kind.name) :
    Json.uncaptionFields (constraintField true implied constraints kind) =
      constraintField false implied constraints kind := by
  have hmem : ∀ c ∈ constraints.filter fun c => c.kind = kind, c.json.uncaption = c.typeJson :=
    fun c hc => h c (List.mem_of_mem_filter hc)
  rw [constraintField_eq, constraintField_eq]
  cases hrules : constraints.filter fun c => c.kind = kind with
  | nil => rfl
  | cons first rest =>
      rw [hrules] at hmem
      have htexts : ((first :: rest).map (childJson true)).map Json.uncaption =
          (first :: rest).map (childJson false) := by
        rw [List.map_map]
        exact List.map_congr_left hmem
      have hfirst : (childJson true first).uncaption = childJson false first := hmem first List.mem_cons_self
      simp only [constraintJson?, Option.toList_some, List.map_cons, List.map_nil, Json.uncaptionFields, if_neg hkind]
      split
      · rw [Json.uncaption, Json.uncaptionItems_eq, ← List.map_cons, htexts]
        rfl
      · split
        · rw [uncaption_bound]
        · rw [uncaption_bound]
        · rw [hfirst]

theorem not_reserved_of_mem {kind : Kind} (h : kind ∈ Kind.refinements) : ¬ Caption.Reserved kind.name := by
  revert h
  cases kind <;> decide

/-- All rules of an intersection can apply to its basis. -/
def Fits : Content Node → Prop
  | .intersection basis constraints => Node.firstInapplicable? basis constraints = none
  | _ => True

theorem Sound.fits (h : content.Sound) : content.Fits := by
  cases content with
  | intersection basis constraints => exact Node.Settled.applicable h
  | _ => trivial

/-- Rules that apply have no short form: without a basis there is at most one list of predicates. -/
theorem shorten_rules {basis : Option Node} {constraints : List Node}
    (h : Node.firstInapplicable? basis constraints = none) :
    Json.shorten (basis.toList.map (fun b => ("basis", childJson false b)) ++
        Kind.refinements.flatMap (constraintField false (Node.impliedAxis basis) constraints)) =
      .object (basis.toList.map (fun b => ("basis", childJson false b)) ++
        Kind.refinements.flatMap (constraintField false (Node.impliedAxis basis) constraints)) := by
  cases basis with
  | some b =>
      simp only [Option.toList_some, List.map_cons, List.map_nil, List.singleton_append]
      generalize Kind.refinements.flatMap _ = rest
      cases rest <;> rfl
  | none =>
      have hpredicate : ∀ c ∈ constraints, c.kind = .predicate := by
        intro c hc
        obtain ⟨slot, hslot, hsuits⟩ :=
          Node.applicabilityError?_eq_none.mp (Node.firstInapplicable?_eq_none.mp h c hc)
        have haxis (axis : BoundAxis) : Node.axisApplies axis none ≠ true := by
          cases axis <;> nofun
        cases hcontent : c.content with
        | predicate p => rw [Node.kind, hcontent]; rfl
        | _ =>
            rw [Node.slot?, hcontent] at hslot
            cases hslot <;> first | exact absurd hsuits (haxis _) | cases hsuits
      have hnone {kind : Kind} (hkind : kind ≠ .predicate) :
          constraintField false (Node.impliedAxis none) constraints kind = [] := by
        have hfilter : constraints.filter (fun c => c.kind = kind) = [] := by
          refine List.filter_eq_nil_iff.mpr fun c hc => ?_
          simpa [hpredicate c hc] using hkind.symm
        rw [constraintField_eq, hfilter]
        rfl
      have hrules : Kind.refinements.flatMap (constraintField false (Node.impliedAxis none) constraints) =
          constraintField false (Node.impliedAxis none) constraints .predicate := by
        simp [Kind.refinements, hnone]
      rw [hrules, constraintField_eq]
      cases constraints.filter fun c => c.kind = .predicate <;> rfl

/-- The text without captions, of a content whose nodes have the texts they should. -/
theorem uncaption_json (hchildren : ∀ c ∈ content.children, c.json.uncaption = c.typeJson)
    (hfits : caption.isEmpty = false → content.Fits) :
    (content.json registry true caption).uncaption = content.json registry false caption := by
  have hmap {nodes : List Node} (h : ∀ c ∈ nodes, c.json.uncaption = c.typeJson) :
      (nodes.map (childJson true)).map Json.uncaption = nodes.map (childJson false) := by
    rw [List.map_map]
    exact List.map_congr_left h
  have hvalue {value : Node} (h : value ∈ content.children) :
      (childJson true value).uncaption = childJson false value := hchildren value h
  cases content with
  | union branches ordered =>
      have hbranches : (branches.map (childJson true)).map Json.uncaption = branches.map (childJson false) :=
        hmap hchildren
      cases ordered
      all_goals
        simp only [json, Bool.false_eq_true, if_false, if_true]
        refine Caption.uncaption_attach ?_ ?_ ?_ fun _ => ?_
        all_goals simp only [Json.uncaption, Json.uncaptionFields, Json.uncaptionItems_eq, hbranches, Json.shorten,
          Json.shortForm?, Caption.Reserved, Option.map_none, Option.map_some] <;> simp
  | morph input output transforms =>
      have hinput := hvalue (List.mem_cons_self (a := input))
      have hnames : (transforms.map fun t => Json.string (registry.reference (.transform t))).map Json.uncaption =
          transforms.map fun t => Json.string (registry.reference (.transform t)) := by
        rw [List.map_map]
        exact List.map_congr_left fun _ _ => rfl
      simp only [json]
      refine Caption.uncaption_attach ?_ ?_ ?_ fun _ => ?_
      all_goals cases output with
        | none => simp [Json.uncaption, Json.uncaptionFields, hinput, hnames, Json.shorten, Caption.Reserved]
        | some output =>
            have houtput := hvalue (List.mem_cons_of_mem input (List.mem_cons_self (a := output)))
            simp [Json.uncaption, Json.uncaptionFields, hinput, houtput, hnames, Json.shorten, Caption.Reserved]
  | intersection basis constraints =>
      simp only [json]
      have hbasis : Json.uncaptionFields (basis.toList.map fun b => ("basis", childJson true b)) =
          basis.toList.map fun b => ("basis", childJson false b) := by
        cases basis with
        | none => rfl
        | some b => simp [Json.uncaptionFields, hvalue (List.mem_cons_self (a := b)), Caption.Reserved]
      refine Caption.uncaption_attach ?_ ?_ rfl fun hempty => shorten_rules (hfits hempty)
      · intro entry hentry
        rcases List.mem_append.mp hentry with hentry | hentry
        · obtain ⟨b, -, rfl⟩ := List.mem_map.mp hentry
          exact (by decide : ¬ Caption.Reserved "basis")
        · obtain ⟨kind, hkind, hentry⟩ := List.mem_flatMap.mp hentry
          rw [constraintField_eq] at hentry
          obtain ⟨json, -, rfl⟩ := List.mem_map.mp hentry
          exact not_reserved_of_mem hkind
      · rw [Json.uncaptionFields_append, hbasis, Json.uncaptionFields_flatMap]
        refine congrArg _ (List.flatMap_congr fun kind hkind => ?_)
        exact uncaption_constraintField (fun c hc => hchildren c (List.mem_append_right basis.toList hc))
          (not_reserved_of_mem hkind)
  | unit _ | proto _ | domain _ | divisor _ | predicate _ =>
      simp only [json]
      refine Caption.uncaption_attach ?_ ?_ ?_ fun _ => ?_
      all_goals simp [Json.uncaption, Json.uncaptionFields, uncaption_encode, Json.shorten, Json.shortForm?, Caption.Reserved]
  | max bound => exact uncaption_bound bound .value
  | min bound => exact uncaption_bound bound .value
  | pattern p =>
      simp only [json]
      split
      all_goals
        refine Caption.uncaption_attach ?_ ?_ ?_ fun _ => ?_
        all_goals simp [Json.uncaption, Json.uncaptionFields, Json.shorten, Json.shortForm?, Caption.Reserved]
  | required key value | optional key value =>
      have hkey : (key.json registry).uncaption = key.json registry := by
        cases key with
        | string name => rfl
        | symbol s => rfl
      simp only [json]
      refine Caption.uncaption_attach ?_ ?_ ?_ fun _ => ?_
      all_goals simp [Json.uncaptionFields, hkey, hvalue List.mem_cons_self, Json.shorten, Caption.Reserved]

end Content

/-- The text without captions of a written node can be read off its text with captions. -/
theorem Node.uncaption_json {registry : Registry} {node : Node} (h : node.Everywhere (Written registry)) :
    node.json.uncaption = node.typeJson := by
  induction node using induct with
  | step content caption profile ih =>
      rw [h.self.json, h.self.typeJson]
      exact Content.uncaption_json (fun c hc => ih c hc (h.child hc)) fun _ => h.self.sound.fits

end SchemaAlgebra
