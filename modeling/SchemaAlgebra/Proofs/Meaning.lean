-- SUMMARY: What the meaning of a node fixes: the values it accepts, the kinds in it, and how deep it nests.
import SchemaAlgebra.Proofs.ValidSpace

/-!
# Meaning

Nodes of one type have one plain node, and whatever can be said of a node by way
of its plain node can be exchanged between them: what they accept, whether morphs
or optional properties are in them, and how deeply their values nest.
-/

namespace SchemaAlgebra

-- ---------------------------------------------------------------------------
-- Answers
-- ---------------------------------------------------------------------------

/-- An answer that is right wherever it is yes, and is right altogether if it is `exact`. -/
structure Agrees (exact : Prop) (answer truth : Bool) : Prop where
  sound : answer = true → truth = true
  complete : exact → truth = true → answer = true

namespace Agrees

variable {exact : Prop} {a b c d : Bool}

theorem refl (a : Bool) : Agrees exact a a := ⟨fun h => h, fun _ h => h⟩

theorem of_eq (h : a = b) : Agrees exact a b := h ▸ refl a

theorem eq (h : Agrees exact a b) (hexact : exact) : a = b := Bool.eq_iff_iff.mpr ⟨h.sound, h.complete hexact⟩

theorem trans (h : Agrees exact a b) (h' : Agrees exact b c) : Agrees exact a c :=
  ⟨fun ha => h'.sound (h.sound ha), fun hexact hc => h.complete hexact (h'.complete hexact hc)⟩

theorem and (h : Agrees exact a b) (h' : Agrees exact c d) : Agrees exact (a && c) (b && d) where
  sound := by
    rw [Bool.and_eq_true, Bool.and_eq_true]
    exact And.imp h.sound h'.sound
  complete := by
    intro hexact
    rw [Bool.and_eq_true, Bool.and_eq_true]
    exact And.imp (h.complete hexact) (h'.complete hexact)

theorem or (h : Agrees exact a b) (h' : Agrees exact c d) : Agrees exact (a || c) (b || d) where
  sound := by
    rw [Bool.or_eq_true, Bool.or_eq_true]
    exact Or.imp h.sound h'.sound
  complete := by
    intro hexact
    rw [Bool.or_eq_true, Bool.or_eq_true]
    exact Or.imp (h.complete hexact) (h'.complete hexact)

end Agrees

-- ---------------------------------------------------------------------------
-- Safety
-- ---------------------------------------------------------------------------

/-- What is promised of a run whose space stays regular: that it gives a result and, beyond that, that the result
allows all it should. For the latter, each key has a sample, which the optional properties under it are to allow. -/
structure Safety where
  succeeds : Prop
  exact : Prop
  succeeds_of_exact : exact → succeeds
  sample : PropKey → Value

namespace Safety

/-- Both promises where a condition holds. -/
abbrev all (p : Prop) : Safety := ⟨p, p, id, fun _ => .undefined⟩

/-- A result, whatever it leaves out. -/
abbrev success : Safety := ⟨True, False, False.elim, fun _ => .undefined⟩

/-- Both promises, given samples. -/
abbrev sampled (sample : PropKey → Value) : Safety := ⟨True, True, id, sample⟩

instance : Coe Prop Safety := ⟨all⟩

instance : CoeSort Safety Prop := ⟨succeeds⟩

instance : CoeOut Safety Prop := ⟨succeeds⟩

end Safety

/-- An optional property allows the sample of its key. -/
def Content.SampledBy [Behaviour] (sample : PropKey → Value) : Content Node → Prop
  | .optional key value => value.allows (sample key) = true
  | _ => True

theorem Content.sampledBy_of_kind [Behaviour] {sample : PropKey → Value} {content : Content Node}
    (h : content.kind ≠ .optional) : content.SampledBy sample := by
  cases content with
  | optional key value => exact absurd rfl h
  | _ => exact trivial

/-- What can be in what is intersected: morphs get in the way of a result, and optional properties of an exact one, unless
they allow the samples. -/
def Safety.Admits [Behaviour] (safe : Safety) (content : Content Node) : Prop :=
  content.kind ≠ .morph ∧ (safe.exact → content.SampledBy safe.sample)

/-- Whatever is promised, a kind that is neither that of morphs nor that of optional properties is in the way of nothing. -/
theorem Safety.admits_of_kind [Behaviour] {safe : Safety} {content : Content Node} (hmorph : content.kind ≠ .morph)
    (hoptional : content.kind ≠ .optional) : safe.Admits content :=
  ⟨hmorph, fun _ => Content.sampledBy_of_kind hoptional⟩

namespace Node

-- ---------------------------------------------------------------------------
-- Tame nodes
-- ---------------------------------------------------------------------------

/-- Neither a morph nor an optional property is reachable. -/
def Tame (node : Node) : Prop := node.Everywhere fun n => n.kind ≠ .morph ∧ n.kind ≠ .optional

/-- No morph is reachable, and every optional property allows the sample of its key. -/
def SampledBy [Behaviour] (sample : PropKey → Value) (node : Node) : Prop :=
  node.Everywhere fun n => n.kind ≠ .morph ∧ n.content.SampledBy sample

theorem Tame.sampledBy [Behaviour] {node : Node} (h : node.Tame) (sample : PropKey → Value) : node.SampledBy sample :=
  fun n hn => ⟨(h n hn).1, Content.sampledBy_of_kind (h n hn).2⟩

/-- A root of which nothing is in the way of what is promised. -/
structure Admitted [Behaviour] (safe : Safety) (node : Node) : Prop where
  admits : node.Everywhere fun n => safe.Admits n.content
  root : node.isRefinement = false

/-- A tame node is admitted whatever is promised. -/
theorem Tame.admits [Behaviour] {node : Node} (h : node.Tame) (safe : Safety) :
    node.Everywhere fun n => safe.Admits n.content :=
  fun n hn => Safety.admits_of_kind (h n hn).1 (h n hn).2

theorem SampledBy.admits [Behaviour] {sample : PropKey → Value} {node : Node} (h : node.SampledBy sample) :
    node.Everywhere fun n => (Safety.sampled sample).Admits n.content :=
  fun n hn => (h n hn).imp_right fun hsampled _ => hsampled

/-- What shows in plain contents holds everywhere in a node if it does in the plain node. -/
theorem everywhere_plain {registry : Registry} {W : Node → Prop} {P : Content Node → Prop}
    (hW : ∀ n, W n → ∀ c ∈ n.children, W c) (hplain : ∀ n, W n → (P (n.plain registry).content ↔ P n.content))
    {node : Node} (h : W node) :
    ((node.plain registry).Everywhere fun n => P n.content) ↔ node.Everywhere fun n => P n.content := by
  induction node using induct with
  | step content caption profile ih =>
      rw [everywhere_iff, everywhere_iff, hplain _ h, children_plain]
      refine and_congr_right fun _ => ?_
      rw [List.forall_mem_map]
      exact forall₂_congr fun c hc => ih c hc (hW _ h c hc)

/-- Whether a content is admitted shows in its plain form. -/
theorem admits_plain [Behaviour] {registry : Registry} (safe : Safety) {content : Content Node}
    (hwritten : ∀ c ∈ content.children, c.Everywhere (Written registry)) :
    safe.Admits (content.map (plain registry)).unsigned ↔ safe.Admits content := by
  have hkind : (content.map (plain registry)).unsigned.kind = content.kind := by simp
  unfold Safety.Admits
  rw [hkind]
  refine and_congr_right fun _ => forall_congr' fun _ => ?_
  cases content with
  | optional key value =>
      change (value.plain registry).allows (safe.sample key) = true ↔ value.allows (safe.sample key) = true
      rw [allows_plain (hwritten value List.mem_cons_self)]
  | _ => exact Iff.rfl

/-- A node includes a morph if one is reachable. -/
theorem includesMorph_eq_false {registry : Registry} {node : Node} (hwritten : node.Everywhere (Written registry)) :
    node.includesMorph = false ↔ node.Everywhere fun n => n.kind ≠ .morph := by
  induction node using induct with
  | step content caption profile ih =>
      rw [hwritten.self.includesMorph, Bool.or_eq_false_iff, List.any_eq_false, everywhere_iff, decide_eq_false_iff_not]
      refine and_congr_right fun _ => forall₂_congr fun c hc => ?_
      rw [Bool.not_eq_true]
      exact ih c hc (hwritten.child hc)

-- ---------------------------------------------------------------------------
-- Nesting
-- ---------------------------------------------------------------------------

theorem listNesting_lt {nodes : List Node} {depth : Nat} :
    listNesting nodes < depth + 1 ↔ ∀ n ∈ nodes, n.nesting < depth + 1 := by
  induction nodes with
  | nil => simp [listNesting]
  | cons node rest ih =>
      rw [listNesting, List.forall_mem_cons, ← ih]
      exact Nat.max_lt

theorem listNesting_map {f : Node → Node} {nodes : List Node} (h : ∀ n ∈ nodes, (f n).nesting = n.nesting) :
    listNesting (nodes.map f) = listNesting nodes := by
  induction nodes with
  | nil => rfl
  | cons node rest ih =>
      rw [List.map_cons, listNesting, listNesting, h node List.mem_cons_self,
        ih fun n hn => h n (List.mem_cons_of_mem _ hn)]

theorem optionNesting_map {f : Node → Node} {node : Option Node} (h : ∀ n ∈ node, (f n).nesting = n.nesting) :
    optionNesting (node.map f) = optionNesting node := by
  cases node with
  | none => rfl
  | some node => exact h node rfl

theorem contentNesting_map {f : Node → Node} {content : Content Node}
    (h : ∀ c ∈ content.children, (f c).nesting = c.nesting) :
    contentNesting (content.map f).unsigned = contentNesting content := by
  cases content with
  | union branches ordered => exact listNesting_map h
  | morph input output transforms =>
      have hout : optionNesting (output.map f) = optionNesting output :=
        optionNesting_map fun n hn => h n (List.mem_cons_of_mem _ (Option.mem_toList.mpr hn))
      simp only [Content.map, Content.unsigned, contentNesting, hout, h input List.mem_cons_self]
  | intersection basis constraints =>
      have hbasis : optionNesting (basis.map f) = optionNesting basis :=
        optionNesting_map fun n hn => h n (List.mem_append_left _ (Option.mem_toList.mpr hn))
      have hrest : listNesting (constraints.map f) = listNesting constraints :=
        listNesting_map fun n hn => h n (List.mem_append_right _ hn)
      simp only [Content.map, Content.unsigned, contentNesting, hbasis, hrest]
  | required key value => exact congrArg (· + 1) (h value List.mem_cons_self)
  | optional key value => exact congrArg (· + 1) (h value List.mem_cons_self)
  | _ => rfl

theorem nesting_eq (node : Node) : node.nesting = contentNesting node.content := by
  cases node
  rfl

theorem nesting_plain (registry : Registry) (node : Node) : (node.plain registry).nesting = node.nesting := by
  induction node using induct with
  | step content caption profile ih =>
      rw [nesting_eq, content_plain]
      exact contentNesting_map ih

/-- A node nests as deeply as its children. -/
theorem nesting_child {depth : Nat} {node c : Node} (h : node.nesting < depth + 1) (hc : c ∈ node.children) :
    c.nesting < depth + 1 := by
  rw [nesting_eq] at h
  rw [children] at hc
  cases hcontent : node.content with
  | union branches ordered =>
      rw [hcontent] at hc h
      exact listNesting_lt.mp h c hc
  | morph input output transforms =>
      rw [hcontent] at hc h
      obtain ⟨hinput, houtput⟩ := Nat.max_lt.mp h
      rcases List.mem_cons.mp hc with rfl | hc
      · exact hinput
      · cases output with
        | none => cases hc
        | some o => rw [List.mem_singleton.mp hc]; exact Nat.lt_of_succ_lt houtput
  | intersection basis constraints =>
      rw [hcontent] at hc h
      obtain ⟨hbasis, hrest⟩ := Nat.max_lt.mp h
      rcases List.mem_append.mp hc with hc | hc
      · cases basis with
        | none => cases hc
        | some b => rw [List.mem_singleton.mp hc]; exact hbasis
      · exact listNesting_lt.mp hrest c hc
  | required key value =>
      rw [hcontent] at hc h
      rw [List.mem_singleton.mp hc]
      exact Nat.lt_of_succ_lt h
  | optional key value =>
      rw [hcontent] at hc h
      rw [List.mem_singleton.mp hc]
      exact Nat.lt_of_succ_lt h
  | _ => rw [hcontent] at hc; cases hc

/-- A node of a space within reach of the algebra at a depth. In regular spaces it nests less deeply, and nothing in it
is in the way of what is promised. -/
structure Calm [Behaviour] (safe : Safety) (depth : Nat) (space : Space) (node : Node) : Prop where
  holds : space.Holds node
  shallow : space.Regular → node.nesting < depth
  admitted : safe → space.Regular → node.Everywhere fun n => safe.Admits n.content

/-- A node within reach that is no bare refinement where a result is promised. -/
structure Within [Behaviour] (safe : Safety) (depth : Nat) (space : Space) (node : Node) : Prop
    extends Calm safe depth space node where
  root : safe → space.Regular → node.isRefinement = false

variable [Behaviour] {safe : Safety} {depth : Nat} {space later : Space} {node c : Node}

/-- A node without morphs is in the way of no result. -/
theorem Calm.plain (h : node.Calm safe depth space) (hvalid : space.Valid)
    (hroot : space.Regular → node.isRefinement = false) (hmorph : node.includesMorph = false) :
    node.Within .success depth space where
  holds := h.holds
  shallow := h.shallow
  admitted := fun _ _ n hn => ⟨(includesMorph_eq_false (hvalid.everywhere_written h.holds)).mp hmorph n hn, False.elim⟩
  root := fun _ => hroot

theorem Calm.extends (h : node.Calm safe depth space) (hext : later.Extends space) : node.Calm safe depth later where
  holds := hext.holds node h.holds
  shallow := fun hregular => h.shallow (hregular.earlier hext)
  admitted := fun hsafe hregular => h.admitted hsafe (hregular.earlier hext)

theorem Within.extends (h : node.Within safe depth space) (hext : later.Extends space) :
    node.Within safe depth later :=
  ⟨h.toCalm.extends hext, fun hsafe hregular => h.root hsafe (hregular.earlier hext)⟩

theorem Calm.not_morph (h : node.Calm safe depth space) (hsafe : safe) (hregular : space.Regular) :
    node.kind ≠ .morph :=
  (h.admitted hsafe hregular).self.1

theorem Calm.sampledBy (h : node.Calm safe depth space) (hexact : safe.exact) (hregular : space.Regular) :
    node.content.SampledBy safe.sample :=
  (h.admitted (safe.succeeds_of_exact hexact) hregular).self.2 hexact

/-- What is in a node of a space is within reach at the same depth. -/
theorem Calm.child (h : node.Calm safe (depth + 1) space) (hvalid : space.Valid) (hc : c ∈ node.children) :
    c.Calm safe (depth + 1) space where
  holds := hvalid.closed node h.holds c hc
  shallow := fun hregular => nesting_child (h.shallow hregular) hc
  admitted := fun hsafe hregular => (h.admitted hsafe hregular).child hc

/-- What nests one level deeper is within reach at one level less. -/
theorem Calm.deeper (h : node.Calm safe (depth + 1) space) (hvalid : space.Valid) (hc : c ∈ node.children)
    (hnesting : c.nesting + 1 ≤ node.nesting) : c.Calm safe depth space where
  holds := hvalid.closed node h.holds c hc
  shallow := fun hregular => Nat.lt_of_succ_lt_succ (Nat.lt_of_le_of_lt hnesting (h.shallow hregular))
  admitted := fun hsafe hregular => (h.admitted hsafe hregular).child hc

end Node

namespace Space

variable {space : Space}

-- ---------------------------------------------------------------------------
-- Nodes of one type
-- ---------------------------------------------------------------------------

theorem Valid.plain_eq (hvalid : space.Valid) (hregular : space.Regular) {a b : Node} (ha : space.Holds a)
    (hb : space.Holds b) (h : a.sameType b = true) : a.plain space.registry = b.plain space.registry :=
  Node.plain_eq_of_typeId hvalid.lawful (hvalid.everywhere_written ha) (hvalid.everywhere_written hb)
    (hregular.everywhere_exact hvalid ha) (hregular.everywhere_exact hvalid hb) (eq_of_beq h)

theorem Valid.kind_eq (hvalid : space.Valid) {a b : Node} (ha : space.Holds a) (hb : space.Holds b)
    (h : a.sameType b = true) : a.kind = b.kind := by
  have heq := eq_of_beq h
  rw [(hvalid.written a ha).typeId, (hvalid.written b hb).typeId] at heq
  exact Node.kind_eq_of_identifier heq

/-- Nodes of one type have one outline, in any valid space. -/
theorem Valid.outline_eq (hvalid : space.Valid) {a b : Node} (ha : space.Holds a) (hb : space.Holds b)
    (h : a.sameType b = true) : a.content.outline = b.content.outline := by
  have heq := eq_of_beq h
  have hwritten := hvalid.everywhere_written ha
  have hwritten' := hvalid.everywhere_written hb
  rw [hwritten.self.typeId, hwritten'.self.typeId] at heq
  have hjson := Node.json_eq_of_identifier (Node.isFinite_childJson hwritten false)
    (Node.isFinite_childJson hwritten' false) heq
  rw [hwritten.self.childJson, hwritten'.self.childJson] at hjson
  exact Content.outline_eq_of_json hvalid.lawful hwritten.self.sound hwritten'.self.sound hwritten.self.known
    hwritten'.self.known (Node.kind_eq_of_identifier heq) hjson

variable [Behaviour]

theorem Valid.allows_eq (hvalid : space.Valid) (hregular : space.Regular) {a b : Node} (ha : space.Holds a)
    (hb : space.Holds b) (h : a.sameType b = true) (v : Value) : a.allows v = b.allows v := by
  rw [← Node.allows_plain (hvalid.everywhere_written ha) space.registry, hvalid.plain_eq hregular ha hb h,
    Node.allows_plain (hvalid.everywhere_written hb) space.registry]

theorem Valid.allows (hvalid : space.Valid) {node : Node} (h : space.Holds node) (v : Value) :
    node.allows v = Content.allows none node.content v :=
  (hvalid.written node h).allows v

-- ---------------------------------------------------------------------------
-- Nodes of a content
-- ---------------------------------------------------------------------------

/-- A node that has the meaning of a content allows what the content does, as soon as both are written. -/
theorem Means.allows_of_written {node : Node} {content : Content Node} (h : space.Means node content)
    (hnode : node.Everywhere (Node.Written space.registry))
    (hchildren : ∀ c ∈ content.children, c.Everywhere (Node.Written space.registry)) (v : Value) :
    node.allows v = Content.allows none content v := by
  rw [← Node.allows_plain hnode space.registry, h]
  change Content.allows none (content.map (Node.plain space.registry)).unsigned v = _
  rw [Node.allows_content_unsigned, Node.allows_map]
  intro c hc x
  exact Node.allows_plain (hchildren c hc) _ x

theorem Means.allows {node : Node} {content : Content Node} (h : space.Means node content) (hvalid : space.Valid)
    (hnode : space.Holds node) (hchildren : ∀ c ∈ content.children, space.Holds c) (v : Value) :
    node.allows v = Content.allows none content v :=
  h.allows_of_written (hvalid.everywhere_written hnode) (fun c hc => hvalid.everywhere_written (hchildren c hc)) v

omit [Behaviour] in
/-- What shows in plain contents holds everywhere in what interning gives, if it does in the content. -/
theorem Interned.everywhere {node : Node} {content : Content Node} (h : space.Interned content node) {W : Node → Prop}
    {P : Content Node → Prop} (hW : ∀ n, W n → ∀ c ∈ n.children, W c)
    (hplain : ∀ n, W n → (P (n.plain space.registry).content ↔ P n.content)) (hnode : W node)
    (hregular : space.Regular) (hexact : content.Exact) (hcontent : P (content.map (Node.plain space.registry)).unsigned)
    (hchildren : ∀ c ∈ content.children, W c ∧ c.Everywhere fun n => P n.content) :
    node.Everywhere fun n => P n.content := by
  rw [← Node.everywhere_plain hW hplain hnode, h.means hregular hexact, Node.everywhere_iff]
  refine ⟨hcontent, fun c hc => ?_⟩
  rw [Node.children, Node.content_form, Content.children_unsigned, Content.children_map] at hc
  obtain ⟨child, hchild, rfl⟩ := List.mem_map.mp hc
  obtain ⟨hwritten, hall⟩ := hchildren child hchild
  exact (Node.everywhere_plain hW hplain hwritten).mpr hall

omit [Behaviour] in
/-- What interning gives has the kinds of the content in it. -/
theorem Interned.kinds {node : Node} {content : Content Node} (h : space.Interned content node) (P : Kind → Prop)
    (hregular : space.Regular) (hexact : content.Exact) (hkind : P content.kind)
    (hchildren : ∀ c ∈ content.children, c.Everywhere fun n => P n.kind) : node.Everywhere fun n => P n.kind := by
  have hplain (n : Node) (_ : True) : P (n.plain space.registry).kind ↔ P n.kind := by rw [Node.kind_plain]
  exact h.everywhere (P := fun content => P content.kind) (fun _ _ _ _ => trivial) hplain trivial hregular hexact
    (by simpa using hkind) fun c hc => ⟨trivial, hchildren c hc⟩

/-- What interning gives is within reach if the content is. -/
theorem Interned.calm {node : Node} {content : Content Node} (h : space.Interned content node) {safe : Safety}
    {depth : Nat} (hvalid : space.Valid) (hexact : space.Regular → content.Exact)
    (hholds : ∀ c ∈ content.children, space.Holds c) (hadmits : safe → space.Regular → safe.Admits content)
    (hchildren : safe → space.Regular → ∀ c ∈ content.children, c.Everywhere fun n => safe.Admits n.content)
    (hnesting : space.Regular → Node.contentNesting content < depth) : node.Calm safe depth space where
  holds := h.holds
  shallow := by
    intro hregular
    have hmeans := h.means hregular (hexact hregular)
    rw [← Node.nesting_plain space.registry, hmeans, Node.nesting_eq, Node.content_form, Node.contentNesting_map]
    · exact hnesting hregular
    · intro c _
      exact Node.nesting_plain _ c
  admitted := by
    intro hsafe hregular
    have hplain (n : Node) (hn : n.Everywhere (Node.Written space.registry)) :
        safe.Admits (n.plain space.registry).content ↔ safe.Admits n.content := by
      rw [Node.content_plain]
      exact Node.admits_plain safe fun c hc => hn.child hc
    have hwritten (c : Node) (hc : c ∈ content.children) := hvalid.everywhere_written (hholds c hc)
    exact h.everywhere (fun _ hn _ hc => hn.child hc) hplain (hvalid.everywhere_written h.holds) hregular
      (hexact hregular) ((Node.admits_plain safe hwritten).mpr (hadmits hsafe hregular))
      fun c hc => ⟨hwritten c hc, hchildren hsafe hregular c hc⟩

theorem Interned.calm_leaf {node : Node} {content : Content Node} (h : space.Interned content node) {safe : Safety}
    {depth : Nat} (hvalid : space.Valid) (hexact : space.Regular → content.Exact) (hchildren : content.children = [])
    (hnesting : Node.contentNesting content = 0) (hmorph : content.kind ≠ .morph) (hoptional : content.kind ≠ .optional) :
    node.Calm safe (depth + 1) space := by
  refine h.calm hvalid hexact ?_ (fun _ _ => Safety.admits_of_kind hmorph hoptional) (fun _ _ => ?_) fun _ => ?_
  · rw [hchildren]
    exact List.forall_mem_nil _
  · rw [hchildren]
    exact List.forall_mem_nil _
  · rw [hnesting]
    exact Nat.succ_pos depth

end Space

end SchemaAlgebra
