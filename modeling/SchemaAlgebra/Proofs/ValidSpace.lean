-- SUMMARY: Valid spaces: what every operation on the node table keeps, and what interning gives.
import SchemaAlgebra.Proofs.Acceptance
import SchemaAlgebra.Proofs.Canonical
import SchemaAlgebra.Proofs.Labels

/-!
# Valid spaces

In a valid space every live node is written and so are the nodes in it, and no
two live nodes share an identifier. Interning a well-formed content keeps a space
valid. What it gives has the outline of the content in any case, and means the
same as the content where the space is regular and the content exact.
-/

namespace SchemaAlgebra

-- ---------------------------------------------------------------------------
-- Outlines
-- ---------------------------------------------------------------------------

namespace Content

variable {ν : Type}

/-- What a content says apart from the nodes it holds. -/
def outline : Content ν → Content Unit
  | .union _ ordered => .union [] ordered
  | .morph _ _ transforms => .morph () none transforms
  | .intersection _ _ => .intersection none []
  | .unit v => .unit v.unsigned
  | .proto p => .proto p
  | .domain d => .domain d
  | .divisor d => .divisor d
  | .max bound => .max bound.unsigned
  | .min bound => .min bound.unsigned
  | .pattern p => .pattern p
  | .predicate p => .predicate p
  | .required key _ => .required key ()
  | .optional key _ => .optional key ()

theorem eq_domain_of_outline {content : Content ν} {d : Domain} (h : content.outline = .domain d) :
    content = .domain d := by
  cases content <;> cases h
  rfl

theorem eq_proto_of_outline {content : Content ν} {p : Proto} (h : content.outline = .proto p) :
    content = .proto p := by
  cases content <;> cases h
  rfl

theorem eq_divisor_of_outline {content : Content ν} {d : Nat} (h : content.outline = .divisor d) :
    content = .divisor d := by
  cases content <;> cases h
  rfl

theorem kind_outline (content : Content ν) : content.outline.kind = content.kind := by
  cases content <;> rfl

theorem slot?_outline (content : Content ν) : content.outline.slot? = content.slot? := by
  cases content <;> rfl

theorem kind_eq_of_outline {μ : Type} {a : Content ν} {b : Content μ} (h : a.outline = b.outline) :
    a.kind = b.kind := by
  rw [← kind_outline, h, kind_outline]

theorem slot?_eq_of_outline {μ : Type} {a : Content ν} {b : Content μ} (h : a.outline = b.outline) :
    a.slot? = b.slot? := by
  rw [← slot?_outline, h, slot?_outline]

/-- The text of a content of a known kind shows its outline. -/
theorem outline_eq_of_json {registry : Registry} (hlawful : registry.Lawful) {a b : Content Node}
    (ha : a.Sound) (hb : b.Sound) (hknown : ∀ thing ∈ a.identities, registry.Knows thing)
    (hknown' : ∀ thing ∈ b.identities, registry.Knows thing) (hkind : a.kind = b.kind) {captioned : Bool}
    {caption other : Caption} (h : a.json registry captioned caption = b.json registry captioned other) :
    a.outline = b.outline := by
  cases a with
  | union branches ordered =>
      cases b with
      | union branches' ordered' => rw [outline, outline, (union_of_json h).2]
      | _ => cases hkind
  | morph input output transforms =>
      cases b with
      | morph input' output' transforms' => rw [outline, outline, (morph_of_json hlawful hknown hknown' h).2.2]
      | _ => cases hkind
  | intersection basis constraints =>
      cases b with
      | intersection basis' constraints' => rfl
      | _ => cases hkind
  | unit v =>
      cases b with
      | unit v' => exact congrArg Content.unit (unit_of_json hlawful hknown hknown' h)
      | _ => cases hkind
  | proto p =>
      cases b with
      | proto p' =>
          exact congrArg Content.proto
            (proto_of_json hlawful (hknown _ List.mem_cons_self) (hknown' _ List.mem_cons_self) h)
      | _ => cases hkind
  | domain d =>
      cases b with
      | domain d' => exact congrArg Content.domain (domain_of_json h)
      | _ => cases hkind
  | divisor d =>
      cases b with
      | divisor d' => exact congrArg Content.divisor (divisor_of_json h)
      | _ => cases hkind
  | max bound =>
      cases b with
      | max bound' => exact congrArg Content.max (bound_of_json h)
      | _ => cases hkind
  | min bound =>
      cases b with
      | min bound' => exact congrArg Content.min (bound_of_json h)
      | _ => cases hkind
  | pattern p =>
      cases b with
      | pattern p' => exact congrArg Content.pattern (pattern_of_json ha hb h)
      | _ => cases hkind
  | predicate p =>
      cases b with
      | predicate p' =>
          exact congrArg Content.predicate
            (predicate_of_json hlawful (hknown _ List.mem_cons_self) (hknown' _ List.mem_cons_self) h)
      | _ => cases hkind
  | required key value =>
      cases b with
      | required key' value' =>
          rw [outline, outline, (prop_of_json hlawful (known_required hknown) (known_required hknown') h).1]
      | _ => cases hkind
  | optional key value =>
      cases b with
      | optional key' value' =>
          have hkey := @prop_of_json registry captioned caption other hlawful _ _ _ _
            (known_optional hknown) (known_optional hknown') h
          rw [outline, outline, hkey.1]
      | _ => cases hkind

theorem hasIdentity_of_mem {content : Content Node} {thing : Registered} (h : thing ∈ content.identities) :
    thing.hasIdentity = true := by
  cases content with
  | morph input output transforms =>
      obtain ⟨t, -, rfl⟩ := List.mem_map.mp h
      rfl
  | unit v =>
      simp only [identities] at h
      split at h
      · cases h
      · rename_i hv
        rw [List.mem_singleton.mp h]
        simpa [Registered.hasIdentity] using hv
  | proto p => rw [List.mem_singleton.mp h]; rfl
  | predicate p => rw [List.mem_singleton.mp h]; rfl
  | required key value =>
      cases key with
      | string name => cases h
      | symbol s => rw [List.mem_singleton.mp h]; rfl
  | optional key value =>
      cases key with
      | string name => cases h
      | symbol s => rw [List.mem_singleton.mp h]; rfl
  | _ => cases h

end Content

namespace Space

-- ---------------------------------------------------------------------------
-- Validity
-- ---------------------------------------------------------------------------

/-- The node is alive in the space. -/
def Holds (space : Space) (node : Node) : Prop := ∃ entry ∈ space.entries, entry.node = some node

/-- What all operations on a space keep. -/
structure Valid (space : Space) : Prop where
  lawful : space.registry.Lawful
  nodup : (space.entries.map Entry.id).Nodup
  named : ∀ entry ∈ space.entries, ∀ node, entry.node = some node → node.id = entry.id
  written : ∀ node, space.Holds node → node.Written space.registry
  closed : ∀ node, space.Holds node → ∀ c ∈ node.children, space.Holds c
  home : ∀ node, space.Holds node → node.space = space.number
  numbered : ∀ node, space.Holds node → node.profile.serial < space.nextSerial
  serials : ∀ a b, space.Holds a → space.Holds b → a.profile.serial = b.profile.serial → a = b
  labelled : ∀ node, space.Holds node → node.caption.label = none →
    ∃ n, node.label = node.kind.numbered n ∧ (¬ space.Overflowed node.kind → n ≤ space.given node.kind)
  labels : ∀ a b, space.Holds a → space.Holds b → a.caption.label = none → b.caption.label = none →
    ¬ space.Overflowed a.kind → a.label = b.label → a = b
  counted : ∀ kind, space.given kind ≤ space.nextSerial
  full : ∀ kind, space.Overflowed kind → UInt32.size ≤ space.nextSerial
  canonical : ∀ node, space.Holds node → node.content.Canonical node.caption

/-- A node table that is in order: what makes it one, whatever its nodes are. -/
structure Tidy (space : Space) : Prop where
  nodup : (space.entries.map Entry.id).Nodup
  named : ∀ entry ∈ space.entries, ∀ node, entry.node = some node → node.id = entry.id

theorem Valid.tidy {space : Space} (h : space.Valid) : space.Tidy := ⟨h.nodup, h.named⟩

/-- No live union has two branches of one type. -/
def Distinct (space : Space) : Prop := ∀ node, space.Holds node → node.content.Distinct

/-- A later state of a space: unless the counter ran over, no node that came since has a label that had been generated
before. -/
structure Follows (later earlier : Space) : Prop where
  given : ∀ kind, ¬ later.Overflowed kind → ¬ earlier.Overflowed kind ∧ earlier.given kind ≤ later.given kind
  fresh : ∀ node, later.Holds node → node.caption.label = none → earlier.Holds node ∨
    ∃ n, node.label = node.kind.numbered n ∧ (¬ later.Overflowed node.kind → earlier.given node.kind < n)

/-- A space that went through operations other than sweeping: everything is still there. -/
structure Extends (later earlier : Space) : Prop where
  number : later.number = earlier.number
  config : later.config = earlier.config
  registry : later.registry.Extends earlier.registry
  holds : ∀ node, earlier.Holds node → later.Holds node
  trace : ∀ event ∈ earlier.trace, event ∈ later.trace
  follows : later.Follows earlier

/-- A space whose texts tell its nodes apart: no property holds a bare refinement, and divisors are exact, both
those of its nodes and those that were to be formed as multiples. -/
structure Regular (space : Space) : Prop where
  exact : ∀ node, space.Holds node → node.content.Exact
  multiples : ∀ n, Event.multiple n ∈ space.trace → n ≤ Nat.pow 2 53

/-- What has no more nodes and the same counters is a later state. -/
theorem Follows.of_subset {later earlier : Space} (hlabels : later.labels = earlier.labels)
    (h : ∀ node, later.Holds node → earlier.Holds node) : later.Follows earlier where
  given := fun kind hfits => by
    rw [Overflowed, hlabels] at hfits
    exact ⟨hfits, by rw [Space.given, Space.given, hlabels]⟩
  fresh := fun node hnode _ => .inl (h node hnode)

theorem Follows.refl (space : Space) : space.Follows space := .of_subset rfl fun _ h => h

theorem Follows.trans {a b c : Space} (h : c.Follows b) (h' : b.Follows a) : c.Follows a where
  given := by
    intro kind hfits
    obtain ⟨hmiddle, hle⟩ := h.given kind hfits
    obtain ⟨hfirst, hle'⟩ := h'.given kind hmiddle
    exact ⟨hfirst, hle'.trans hle⟩
  fresh := by
    intro node hnode hlabel
    rcases h.fresh node hnode hlabel with hnode | ⟨n, heq, hn⟩
    · refine (h'.fresh node hnode hlabel).imp_right fun ⟨n, heq, hn⟩ => ⟨n, heq, fun hfits => ?_⟩
      exact hn (h.given node.kind hfits).1
    · refine .inr ⟨n, heq, fun hfits => ?_⟩
      exact (h'.given node.kind (h.given node.kind hfits).1).2.trans_lt (hn hfits)

theorem Extends.refl (space : Space) : space.Extends space :=
  ⟨rfl, rfl, .refl _, fun _ h => h, fun _ h => h, .refl space⟩

theorem Extends.trans {a b c : Space} (h : c.Extends b) (h' : b.Extends a) : c.Extends a where
  number := h.number.trans h'.number
  config := h.config.trans h'.config
  registry := h.registry.trans h'.registry
  holds := fun node hnode => h.holds node (h'.holds node hnode)
  trace := fun event hevent => h.trace event (h'.trace event hevent)
  follows := h.follows.trans h'.follows

theorem Regular.earlier {later earlier : Space} (h : later.Regular) (hext : later.Extends earlier) :
    earlier.Regular where
  exact := fun node hnode => h.exact node (hext.holds node hnode)
  multiples := fun n hn => h.multiples n (hext.trace _ hn)

theorem valid_new (number : Nat) (config : SpaceConfig) : (new number config).Valid where
  lawful := Registry.lawful_empty _
  nodup := List.nodup_nil
  named := nofun
  written := nofun
  closed := nofun
  home := nofun
  numbered := nofun
  serials := nofun
  labelled := nofun
  labels := nofun
  counted := fun _ => Nat.le_refl 0
  full := nofun
  canonical := nofun

variable {space : Space}

theorem Valid.reaches (h : space.Valid) {node found : Node} (hfound : node.Reaches found) (hnode : space.Holds node) :
    space.Holds found := by
  induction hfound with
  | refl => exact hnode
  | child hchild _ ih => exact ih (h.closed _ hnode _ hchild)

theorem Valid.everywhere_written (h : space.Valid) {node : Node} (hnode : space.Holds node) :
    node.Everywhere (Node.Written space.registry) :=
  fun found hfound => h.written found (h.reaches hfound hnode)

theorem Regular.everywhere_exact (h : space.Regular) (hvalid : space.Valid) {node : Node} (hnode : space.Holds node) :
    node.Everywhere fun n => n.content.Exact :=
  fun found hfound => h.exact found (hvalid.reaches hfound hnode)

-- ---------------------------------------------------------------------------
-- The node table
-- ---------------------------------------------------------------------------

theorem holds_of_find? {id : String} {node : Node} (htidy : space.Tidy) (h : space.find? id = some node) :
    space.Holds node ∧ node.id = id := by
  obtain ⟨entry, hentry, hnode⟩ := Option.bind_eq_some_iff.mp h
  have hmem := List.mem_of_find?_eq_some hentry
  have hid : entry.id = id := by simpa using List.find?_some hentry
  exact ⟨⟨entry, hmem, hnode⟩, (htidy.named entry hmem node hnode).trans hid⟩

/-- Where no live node has an identifier, an entry with it is dead. -/
theorem dead_of_find? {id : String} (htidy : space.Tidy) (h : space.find? id = none) {entry : Entry}
    (hmem : entry ∈ space.entries) (hid : entry.id = id) : entry.node = none := by
  cases hfind : space.entries.find? fun entry => entry.id == id with
  | none =>
      have hne := List.find?_eq_none.mp hfind entry hmem
      simp [hid] at hne
  | some first =>
      have hfirst := List.mem_of_find?_eq_some hfind
      have hfirstId : first.id = id := by simpa using List.find?_some hfind
      have heq : first = entry := List.inj_on_of_nodup_map htidy.nodup hfirst hmem (hfirstId.trans hid.symm)
      rw [find?, hfind, heq] at h
      exact h

/-- The table holds a node under its identifier. -/
theorem Tidy.find? (htidy : space.Tidy) {node : Node} (hnode : space.Holds node) :
    space.find? node.id = some node := by
  cases hfind : space.find? node.id with
  | none =>
      obtain ⟨entry, hentry, heq⟩ := hnode
      rw [dead_of_find? htidy hfind hentry (htidy.named entry hentry node heq).symm] at heq
      cases heq
  | some found =>
      obtain ⟨⟨entry, hentry, heq⟩, hid⟩ := holds_of_find? htidy hfind
      obtain ⟨entry', hentry', heq'⟩ := hnode
      have hids : entry.id = entry'.id := by
        rw [← htidy.named entry hentry found heq, hid, htidy.named entry' hentry' node heq']
      obtain rfl := List.inj_on_of_nodup_map htidy.nodup hentry hentry' hids
      exact heq.symm.trans heq'

theorem mem_setEntry {id : String} {node : Node} {entries : List Entry} {entry : Entry} :
    entry ∈ setEntry id node entries ↔ entry = ⟨id, some node⟩ ∨ entry ∈ entries ∧ entry.id ≠ id := by
  unfold setEntry
  split
  · rename_i hany
    rw [List.mem_map]
    constructor
    · rintro ⟨old, hold, rfl⟩
      by_cases hid : old.id = id
      · simp [hid]
      · simp [hid, hold]
    · rintro (rfl | ⟨hmem, hid⟩)
      · obtain ⟨old, hold, hid⟩ := List.any_eq_true.mp hany
        exact ⟨old, hold, by simp only [hid, if_true]⟩
      · exact ⟨entry, hmem, by simp [hid]⟩
  · rename_i hany
    rw [List.mem_cons]
    refine or_congr_right ⟨fun hmem => ⟨hmem, fun hid => hany ?_⟩, And.left⟩
    exact List.any_eq_true.mpr ⟨entry, hmem, by simpa using hid⟩

theorem nodup_setEntry {id : String} {node : Node} {entries : List Entry} (h : (entries.map Entry.id).Nodup) :
    ((setEntry id node entries).map Entry.id).Nodup := by
  unfold setEntry
  split
  · have hids : (entries.map fun entry => if entry.id == id then ⟨id, some node⟩ else entry).map Entry.id =
        entries.map Entry.id := by
      rw [List.map_map]
      refine List.map_congr_left fun entry _ => ?_
      by_cases hid : entry.id = id <;> simp [hid]
    rw [hids]
    exact h
  · rename_i hany
    refine List.nodup_cons.mpr ⟨?_, h⟩
    intro hmem
    obtain ⟨entry, hentry, hid⟩ := List.mem_map.mp hmem
    exact hany (List.any_eq_true.mpr ⟨entry, hentry, by simpa using hid⟩)

-- ---------------------------------------------------------------------------
-- Interning
-- ---------------------------------------------------------------------------

/-- The space after the names of a content were given. -/
def naming (space : Space) (content : Content Node) : Space :=
  { space with registry := space.registry.registerAll content.identities }

/-- The space with one more node. -/
def adding (space : Space) (node : Node) : Space :=
  { space with
    entries := setEntry node.id node space.entries, labels := (space.nextLabel node.kind node.caption).2
    nextSerial := space.nextSerial + 1 }

/-- The node that a content makes, with the label that is next. -/
def made (space : Space) (content : Content Node) (caption : Caption) : Node :=
  space.build content caption (content.json space.registry true caption) (space.nextLabel content.kind caption).1

theorem intern_cases (space : Space) (content : Content Node) (caption : Caption) :
    (∃ node, (space.naming content).find?
          (content.identifier (content.json (space.naming content).registry true caption)) = some node ∧
        space.intern content caption = (node, space.naming content)) ∨
      (space.naming content).find? ((space.naming content).made content caption).id = none ∧
        space.intern content caption = ((space.naming content).made content caption,
          (space.naming content).adding ((space.naming content).made content caption)) := by
  cases hfind : (space.naming content).find?
      (content.identifier (content.json (space.naming content).registry true caption)) with
  | some node =>
      refine .inl ⟨node, rfl, ?_⟩
      unfold naming at hfind ⊢
      simp only [intern, hfind]
  | none =>
      refine .inr ⟨hfind, ?_⟩
      unfold naming at hfind ⊢
      simp only [intern, hfind]
      rfl

theorem Valid.naming (h : space.Valid) (content : Content Node) : (space.naming content).Valid where
  lawful := Registry.registerAll_lawful h.lawful _
  nodup := h.nodup
  named := h.named
  written := fun node hnode => (h.written node hnode).extends (Registry.registerAll_extends _ _)
  closed := h.closed
  home := h.home
  numbered := h.numbered
  serials := h.serials
  labelled := h.labelled
  labels := h.labels
  counted := h.counted
  full := h.full
  canonical := h.canonical

theorem naming_extends (space : Space) (content : Content Node) : (space.naming content).Extends space :=
  ⟨rfl, rfl, Registry.registerAll_extends _ _, fun _ h => h, fun _ h => h, .of_subset rfl fun _ h => h⟩

theorem naming_knows (space : Space) (content : Content Node) :
    ∀ thing ∈ content.identities, (space.naming content).registry.Knows thing :=
  fun _ hthing => Registry.registerAll_knows _ hthing (Content.hasIdentity_of_mem hthing)

theorem build_written {content : Content Node} {caption : Caption} {label : String} (hsound : content.Sound)
    (hknown : ∀ thing ∈ content.identities, space.registry.Knows thing) :
    (space.build content caption (content.json space.registry true caption) label).Written space.registry where
  json := rfl
  typeJson := rfl
  id := rfl
  typeId := rfl
  includesMorph := rfl
  discriminant := by
    intro d hd
    cases content with
    | union branches ordered =>
        change (if space.config.discriminateUnions then Discriminant.ofBranches? branches else none) = some d at hd
        split at hd
        · exact ⟨branches, ordered, rfl, hd⟩
        · cases hd
    | _ => cases hd
  sound := hsound
  known := hknown

theorem holds_adding {node : Node} (htidy : space.Tidy) (hfind : space.find? node.id = none) {other : Node} :
    (space.adding node).Holds other ↔ other = node ∨ space.Holds other := by
  unfold Holds
  simp only [adding, mem_setEntry]
  constructor
  · rintro ⟨entry, rfl | ⟨hmem, -⟩, hother⟩
    · exact .inl (Option.some.inj hother).symm
    · exact .inr ⟨entry, hmem, hother⟩
  · rintro (rfl | ⟨entry, hmem, hother⟩)
    · exact ⟨⟨other.id, some other⟩, .inl rfl, rfl⟩
    · refine ⟨entry, .inr ⟨hmem, fun hid => ?_⟩, hother⟩
      rw [dead_of_find? htidy hfind hmem hid] at hother
      cases hother

/-- A new node without a label of the user's moves the counter of its kind. -/
theorem read_adding (node : Node) (kind : Kind) : (space.adding node).labels.read kind =
    if node.caption.label = none ∧ kind = node.kind then (space.labels.read kind).count else space.labels.read kind := by
  unfold adding
  cases hlabel : node.caption.label with
  | some label =>
      rw [nextLabel_some hlabel]
      rfl
  | none =>
      rw [nextLabel_none hlabel]
      refine (Counters.read_write _ _ _ kind).trans ?_
      by_cases h : kind = node.kind <;> simp [h]

/-- Unless the counter runs over, it counts every label that is given out. -/
theorem given_adding {node : Node} {kind : Kind} (hfits : ¬ (space.adding node).Overflowed kind) :
    ¬ space.Overflowed kind ∧ (space.adding node).given kind =
      if node.caption.label = none ∧ kind = node.kind then space.given kind + 1 else space.given kind := by
  unfold Overflowed given at *
  rw [read_adding] at hfits ⊢
  split
  · rename_i hcounts
    rw [if_pos hcounts, Bool.not_eq_true] at hfits
    obtain ⟨hfits', -, hvalue⟩ := Counter.reach_eq hfits
    exact ⟨by rw [hfits']; exact Bool.false_ne_true, hvalue⟩
  · rename_i hsame
    rw [if_neg hsame] at hfits
    exact ⟨hfits, rfl⟩

/-- The label that is next is that of the number that the counter comes to. -/
theorem label_of_next {node : Node} (h : node.label = (space.nextLabel node.kind node.caption).1)
    (hlabel : node.caption.label = none) : node.label = node.kind.numbered ((space.adding node).given node.kind) := by
  rw [h, nextLabel_none hlabel, given, read_adding, if_pos ⟨hlabel, rfl⟩]

/-- Unless the counter runs over, the number of a new label was not given out before. -/
theorem given_lt_adding {node : Node} (hlabel : node.caption.label = none)
    (hfits : ¬ (space.adding node).Overflowed node.kind) :
    space.given node.kind < (space.adding node).given node.kind := by
  rw [(given_adding hfits).2, if_pos ⟨hlabel, rfl⟩]
  exact Nat.lt_succ_self _

theorem Tidy.adding (h : space.Tidy) (node : Node) : (space.adding node).Tidy where
  nodup := nodup_setEntry h.nodup
  named := by
    intro entry hentry other hother
    rcases mem_setEntry.mp hentry with rfl | ⟨hmem, -⟩
    · exact congrArg Node.id (Option.some.inj hother).symm
    · exact h.named entry hmem other hother

/-- A canonical written node with a new number and the next label, whose children are there, can be added. -/
theorem Valid.adding (h : space.Valid) {node : Node} (hfind : space.find? node.id = none)
    (hwritten : node.Written space.registry) (hcanonical : node.content.Canonical node.caption)
    (hchildren : ∀ c ∈ node.children, space.Holds c) (hhome : node.space = space.number)
    (hserial : node.profile.serial = space.nextSerial)
    (hnext : node.label = (space.nextLabel node.kind node.caption).1) : (space.adding node).Valid where
  lawful := h.lawful
  nodup := (h.tidy.adding node).nodup
  named := (h.tidy.adding node).named
  written := by
    intro other hother
    rcases (holds_adding h.tidy hfind).mp hother with rfl | hother
    · exact hwritten
    · exact h.written other hother
  closed := by
    intro other hother c hc
    rw [holds_adding h.tidy hfind]
    rcases (holds_adding h.tidy hfind).mp hother with rfl | hother
    · exact .inr (hchildren c hc)
    · exact .inr (h.closed other hother c hc)
  home := by
    intro other hother
    rcases (holds_adding h.tidy hfind).mp hother with rfl | hother
    · exact hhome
    · exact h.home other hother
  numbered := by
    intro other hother
    change other.profile.serial < space.nextSerial + 1
    rcases (holds_adding h.tidy hfind).mp hother with rfl | hother
    · omega
    · have := h.numbered other hother
      omega
  serials := by
    intro a b ha hb heq
    rcases (holds_adding h.tidy hfind).mp ha with hnew | hold <;> rcases (holds_adding h.tidy hfind).mp hb with hnew' | hold'
    · rw [hnew, hnew']
    · have hlt := h.numbered b hold'
      rw [hnew] at heq
      omega
    · have hlt := h.numbered a hold
      rw [hnew'] at heq
      omega
    · exact h.serials a b hold hold' heq
  labelled := by
    intro other hother hlabel
    rcases (holds_adding h.tidy hfind).mp hother with rfl | hother
    · exact ⟨_, label_of_next hnext hlabel, fun _ => le_rfl⟩
    · obtain ⟨n, heq, hn⟩ := h.labelled other hother hlabel
      refine ⟨n, heq, fun hfits => ?_⟩
      obtain ⟨hfits', hgiven⟩ := given_adding hfits
      have hle := hn hfits'
      rw [hgiven]
      split <;> omega
  labels := by
    -- A label that was given out before comes again only when the counter has run over.
    have hagain {other : Node} (hother : space.Holds other) (hlabel : node.caption.label = none)
        (hlabel' : other.caption.label = none) (hsame : other.label = node.label) :
        other.kind = node.kind ∧ (space.adding node).Overflowed node.kind := by
      obtain ⟨n, heq, hn⟩ := h.labelled other hother hlabel'
      rw [heq, label_of_next hnext hlabel] at hsame
      obtain ⟨hkind, rfl⟩ := Kind.numbered_injective hsame
      refine ⟨hkind, by_contra fun hfits => ?_⟩
      rw [hkind] at hn
      have hle := hn (given_adding hfits).1
      have hlt := given_lt_adding hlabel hfits
      omega
    intro a b ha hb hla hlb hfits heq
    rcases (holds_adding h.tidy hfind).mp ha with rfl | hold <;> rcases (holds_adding h.tidy hfind).mp hb with rfl | hold'
    · rfl
    · exact absurd (hagain hold' hla hlb heq.symm).2 hfits
    · obtain ⟨hkind, hover⟩ := hagain hold hlb hla heq
      exact absurd hover (hkind ▸ hfits)
    · exact h.labels a b hold hold' hla hlb (given_adding hfits).1 heq
  counted := by
    intro kind
    change _ ≤ space.nextSerial + 1
    rw [given, read_adding]
    split
    · exact (Counter.value_reach_le _ _).trans (Nat.succ_le_succ (h.counted kind))
    · exact (h.counted kind).trans (Nat.le_succ _)
  full := by
    intro kind hover
    change _ ≤ space.nextSerial + 1
    rw [Overflowed, read_adding] at hover
    split at hover
    · rcases Counter.reach_overflowed.mp hover with hold | hsize
      · exact (h.full kind hold).trans (Nat.le_succ _)
      · exact hsize.trans (Nat.succ_le_succ (h.counted kind))
    · exact (h.full kind hover).trans (Nat.le_succ _)
  canonical := by
    intro other hother
    rcases (holds_adding h.tidy hfind).mp hother with rfl | hother
    · exact hcanonical
    · exact h.canonical other hother

theorem adding_extends {node : Node} (htidy : space.Tidy) (hfind : space.find? node.id = none)
    (hnext : node.label = (space.nextLabel node.kind node.caption).1) : (space.adding node).Extends space where
  number := rfl
  config := rfl
  registry := .refl _
  holds := fun _ h => (holds_adding htidy hfind).mpr (.inr h)
  trace := fun _ h => h
  follows := by
    refine ⟨fun kind hfits => ?_, fun other hother hlabel => ?_⟩
    · obtain ⟨hfits', hgiven⟩ := given_adding hfits
      refine ⟨hfits', ?_⟩
      rw [hgiven]
      split <;> omega
    · rcases (holds_adding htidy hfind).mp hother with rfl | hold
      · exact .inr ⟨_, label_of_next hnext hlabel, given_lt_adding hlabel⟩
      · exact .inl hold

/-- The node has the meaning that a content has in a space. -/
def Means (space : Space) (node : Node) (content : Content Node) : Prop :=
  node.plain space.registry = space.registry.form (content.map (Node.plain space.registry)).unsigned

/-- What interning gives. -/
structure Interned (space : Space) (content : Content Node) (node : Node) : Prop where
  holds : space.Holds node
  outline : node.content.outline = content.outline
  means : space.Regular → content.Exact → space.Means node content
  same : content.Exact → node.content.Exact → node.content.unsigned = content.unsigned

theorem Valid.eq_of_id (h : space.Valid) {a b : Node} (ha : space.Holds a) (hb : space.Holds b) (hid : a.id = b.id) :
    a = b := by
  have hfind := h.tidy.find? ha
  rw [hid, h.tidy.find? hb] at hfind
  exact (Option.some.inj hfind).symm

theorem made_written {content : Content Node} {caption : Caption} (hsound : content.Sound) :
    ((space.naming content).made content caption).Written (space.naming content).registry :=
  build_written hsound (naming_knows space content)

/-- Interning keeps what there is, and the table in order. -/
theorem Tidy.intern (htidy : space.Tidy) (content : Content Node) (caption : Caption) :
    (space.intern content caption).2.Tidy ∧ (space.intern content caption).2.Extends space := by
  have hnaming : (space.naming content).Tidy := ⟨htidy.nodup, htidy.named⟩
  rcases intern_cases space content caption with ⟨node, -, heq⟩ | ⟨hfind, heq⟩
  · rw [heq]
    exact ⟨hnaming, naming_extends space content⟩
  · rw [heq]
    exact ⟨hnaming.adding _, (adding_extends hnaming hfind rfl).trans (naming_extends space content)⟩

theorem Valid.intern_extends (hvalid : space.Valid) (content : Content Node) (caption : Caption) :
    (space.intern content caption).2.Extends space :=
  (hvalid.tidy.intern content caption).2

/-- Interning a canonical content keeps a space valid. -/
theorem Valid.intern (hvalid : space.Valid) {content : Content Node} {caption : Caption} (hsound : content.Sound)
    (hcanonical : content.Canonical caption) (hchildren : ∀ c ∈ content.children, space.Holds c) :
    (space.intern content caption).2.Valid := by
  have hnaming := hvalid.naming content
  rcases intern_cases space content caption with ⟨node, -, heq⟩ | ⟨hfind, heq⟩
  · rw [heq]
    exact hnaming
  · rw [heq]
    exact hnaming.adding hfind (made_written hsound) hcanonical hchildren rfl rfl rfl

/-- The node that interning gives is written with everything in it. -/
theorem Valid.intern_written (hvalid : space.Valid) {content : Content Node} (caption : Caption)
    (hsound : content.Sound) (hchildren : ∀ c ∈ content.children, space.Holds c) :
    (space.intern content caption).1.Everywhere (Node.Written (space.intern content caption).2.registry) := by
  have hnaming := hvalid.naming content
  rcases intern_cases space content caption with ⟨node, hfind, heq⟩ | ⟨hfind, heq⟩
  · rw [heq]
    exact hnaming.everywhere_written (holds_of_find? hnaming.tidy hfind).1
  · rw [heq]
    exact Node.everywhere_iff.mpr ⟨made_written hsound, fun c hc => hnaming.everywhere_written (hchildren c hc)⟩

/-- Interning gives a node of the space that has the outline of the content, and its meaning where texts are exact. -/
theorem Valid.interned (hvalid : space.Valid) {content : Content Node} (caption : Caption) (hsound : content.Sound)
    (hchildren : ∀ c ∈ content.children, space.Holds c) :
    (space.intern content caption).2.Interned content (space.intern content caption).1 := by
  have hnaming := hvalid.naming content
  have hknown := naming_knows space content
  rcases intern_cases space content caption with ⟨node, hfind, heq⟩ | ⟨hfind, heq⟩
  · rw [heq]
    obtain ⟨hholds, hid⟩ := holds_of_find? hnaming.tidy hfind
    have hwritten := hnaming.everywhere_written hholds
    rw [hwritten.self.id] at hid
    have hfinite : (content.json (space.naming content).registry true caption).isFinite = true := by
      refine Content.isFinite_json ?_
      intro c hc
      exact Node.isFinite_childJson (hnaming.everywhere_written (hchildren c hc)) true
    have hkind := Node.kind_eq_of_identifier hid
    have hjson := Node.json_eq_of_identifier (Node.isFinite_childJson hwritten true) hfinite hid
    rw [hwritten.self.childJson true] at hjson
    have hcontent {μ : Type} {f : Node → μ} (hexact : content.Exact) (hexact' : node.content.Exact)
        (hsame : ∀ x ∈ node.children, ∀ y ∈ content.children, x.kind = y.kind →
          Content.childJson true x = Content.childJson true y → f x = f y)
        (himplied : ∀ x y : Node, f x = f y → Node.impliedAxis (some x) = Node.impliedAxis (some y)) :
        (node.content.map f).unsigned = (content.map f).unsigned :=
      Node.content_eq_of_json hsame himplied hnaming.lawful
        (fun x hx => hnaming.written x (hnaming.closed node hholds x hx))
        (fun y hy => hnaming.written y (hchildren y hy)) hwritten.self.sound hsound hwritten.self.known hknown
        hexact' hexact hkind hjson
    refine ⟨hholds, ?_, fun hregular hexact => ?_, fun hexact hexact' => ?_⟩
    · exact Content.outline_eq_of_json hnaming.lawful hwritten.self.sound hsound hwritten.self.known hknown hkind hjson
    · refine (Node.plain_eq _ _).trans (congrArg _ (hcontent hexact (hregular.exact node hholds) ?_
        fun _ _ => Node.impliedAxis_eq_of_plain))
      intro x hx y hy hxy hjson
      have hxholds := hnaming.closed node hholds x hx
      exact Node.plain_eq_of_childJson hnaming.lawful (hnaming.everywhere_written hxholds)
        (hnaming.everywhere_written (hchildren y hy)) (hregular.everywhere_exact hnaming hxholds)
        (hregular.everywhere_exact hnaming (hchildren y hy)) hxy hjson
    · -- The nodes in the two contents are held, so that those with one text are one node.
      have hmap := @hcontent Node (fun n => n) hexact hexact' ?_ fun x y hxy => by rw [hxy]
      · rwa [Content.map_self, Content.map_self] at hmap
      intro x hx y hy hkind hxy
      have hxholds := hnaming.closed node hholds x hx
      refine hnaming.eq_of_id hxholds (hchildren y hy) ?_
      have hxy : x.json = y.json := hxy
      rw [(hnaming.written x hxholds).id, (hnaming.written y (hchildren y hy)).id, Content.identifier,
        Content.identifier, hxy, ← Node.kind, hkind, Node.kind]
  · rw [heq]
    have hcontent : ((space.naming content).made content caption).content = content := rfl
    refine ⟨(holds_adding hnaming.tidy hfind).mpr (.inl rfl), by rw [hcontent], fun _ _ => ?_, fun _ _ => by rw [hcontent]⟩
    rw [Means, Node.plain_eq, hcontent]

/-- Interning a content of different branches leaves the branches of every union different. -/
theorem Distinct.intern (h : space.Distinct) (hvalid : space.Valid) {content : Content Node} (caption : Caption)
    (hdistinct : content.Distinct) : (space.intern content caption).2.Distinct := by
  rcases intern_cases space content caption with ⟨node, -, heq⟩ | ⟨hfind, heq⟩
  · rw [heq]
    exact h
  · rw [heq]
    intro other hother
    rcases (holds_adding (hvalid.naming content).tidy hfind).mp hother with rfl | hold
    · exact hdistinct
    · exact h other hold

end Space

end SchemaAlgebra
