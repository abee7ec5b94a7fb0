-- SUMMARY: A description or an alias added to a definition changes no type, but keeps a union of one branch a union.
import SchemaAlgebra.Proofs.Rereading

/-!
# Captions of definitions

Captions are for readers of a schema, and nothing is decided by what they say. It is
decided by whether there is one, though: a node with a caption of its own is never
another node. A lone basis is interned anew under the caption, and is of the same
type. A union whose branches come to a single one stays a union of it.
-/

namespace SchemaAlgebra

open Space (Twins Abreast)
open SpaceM (Echoes)

-- ---------------------------------------------------------------------------
-- Entries
-- ---------------------------------------------------------------------------

namespace Definition

variable {entries entries' : Entries}

/-- The entries of a map without captions, and the same with a description, an alias or both anywhere among them. -/
structure Captioned (entries entries' : Entries) : Prop where
  others : (entries'.filter fun entry => !captionKeys.contains entry.1) = entries
  texts : ∀ entry ∈ entries', entry.1 ∈ captionKeys → ∃ text, entry.2 = .string text

theorem lookup_filter_keys {p : String → Bool} {key : String} (hkey : p key = true) (entries : Entries) :
    List.lookup key (entries.filter fun entry => p entry.1) = entries.lookup key := by
  induction entries with
  | nil => rfl
  | cons entry rest ih =>
      obtain ⟨k, d⟩ := entry
      rw [List.filter_cons, List.lookup_cons]
      by_cases hk : key = k
      · subst hk
        rw [if_pos hkey, List.lookup_cons, beq_self_eq_true]
      · rw [beq_false_of_ne hk]
        split
        · rw [List.lookup_cons, beq_false_of_ne hk]
          exact ih
        · exact ih

theorem Captioned.lookup (h : Captioned entries entries') {key : String} (hkey : key ∉ captionKeys) :
    entries'.lookup key = entries.lookup key := by
  rw [← h.others, lookup_filter_keys (p := fun key => !captionKeys.contains key) (by simpa using hkey)]

theorem Captioned.lookup_none (h : Captioned entries entries') {key : String} (hkey : key ∈ captionKeys) :
    entries.lookup key = none := by
  rw [← h.others, List.lookup_eq_none_iff]
  intro entry hentry
  have hother : entry.1 ∉ captionKeys := by simpa using (List.mem_filter.mp hentry).2
  simp only [bne_iff_ne, ne_eq]
  rintro rfl
  exact hother hkey

/-- A caption key that may be missing has a text where it is there. -/
theorem Captioned.optionalText (h : Captioned entries entries') {key : String} (hkey : key ∈ captionKeys) :
    ∃ text, optionalText key entries' = pure text := by
  unfold Definition.optionalText
  cases hlookup : entries'.lookup key with
  | none => exact ⟨none, rfl⟩
  | some d =>
      obtain ⟨before, after, rfl, -⟩ := List.lookup_eq_some_iff.mp hlookup
      obtain ⟨text, rfl⟩ := h.texts (key, d) (by simp) hkey
      exact ⟨some text, rfl⟩

/-- Entries that are the same apart from their captions, which are related. -/
structure Recaptioned (R : Caption → Caption → Prop) (entries entries' : Entries) : Prop where
  lookup : ∀ key, key ∉ captionKeys → entries'.lookup key = entries.lookup key
  check : Checked R entries entries'

/-- Entries without captions say the same as the captioned ones. -/
theorem Captioned.restates (h : Captioned entries entries') :
    Recaptioned (fun caption _ => caption = .none) entries entries' where
  lookup := fun _ hkey => h.lookup hkey
  check := by
    intro kind allowed
    have hunknown : (entries'.find? fun entry => !allowed.contains entry.1 && !captionKeys.contains entry.1) =
        entries.find? fun entry => !allowed.contains entry.1 && !captionKeys.contains entry.1 := by
      rw [← h.others, List.find?_filter]
      congr 1
      funext entry
      cases captionKeys.contains entry.1 <;> simp
    obtain ⟨description, hdescription⟩ := @Captioned.optionalText _ _ h "description" (by decide)
    obtain ⟨label, hlabel⟩ := @Captioned.optionalText _ _ h "alias" (by decide)
    have hnone {key : String} (hkey : key ∈ captionKeys) : Definition.optionalText key entries = pure none := by
      rw [Definition.optionalText, h.lookup_none hkey]
    unfold checkEntries
    rw [hunknown]
    cases entries.find? fun entry => !allowed.contains entry.1 && !captionKeys.contains entry.1 with
    | some entry => exact .inr ⟨_, _, rfl, rfl⟩
    | none =>
        rw [hnone (by decide), hnone (by decide), hdescription, hlabel]
        exact .inl ⟨.none, ⟨description, label⟩, rfl, rfl, rfl⟩

theorem Captioned.mem_nodes (h : Captioned entries entries') {n : Node} (hn : n ∈ nodesAt entries') :
    n ∈ nodesAt entries := by
  obtain ⟨hothers, htexts⟩ := h
  induction entries' generalizing entries with
  | nil => cases hn
  | cons entry rest ih =>
      obtain ⟨k, d⟩ := entry
      obtain ⟨htext, htexts⟩ := List.forall_mem_cons.mp htexts
      rw [List.filter_cons] at hothers
      rcases List.mem_append.mp hn with hd | hrest
      · by_cases hk : k ∈ captionKeys
        · obtain ⟨text, rfl⟩ := htext hk
          cases hd
        · rw [if_pos (by simpa using hk)] at hothers
          rw [← hothers]
          exact List.mem_append_left _ hd
      · have hmem := ih hrest rfl htexts
        split at hothers
        · rw [← hothers]
          exact List.mem_append_right _ hmem
        · rwa [← hothers]

end Definition

-- ---------------------------------------------------------------------------
-- Reading under other captions
-- ---------------------------------------------------------------------------

namespace Definition

open Node (Grouped)

variable [Behaviour] {left right : Space} {entries entries' : Entries} {R : Caption → Caption → Prop}
  (habreast : Abreast left right) (hblind : BlindToSign)

include habreast hblind

theorem rereads_entry (hnumber : right.number = left.number) (h : ∀ n ∈ nodesAt entries, Node.Shared left right n)
    {key : String} {d : Definition} (hlookup : entries.lookup key = some d) :
    Rereads (fun _ => True) left right left d :=
  rereads habreast hblind hnumber (.refl _) d (fun n hn => h n (nodes_of_lookup hlookup hn))
    fun _ _ => trivial

theorem rootAt_echoes (hnumber : right.number = left.number) (key : String) (entries : Entries)
    (h : ∀ n ∈ nodesAt entries, Node.Shared left right n) :
    Echoes (fun _ => True) left right (rootAt key entries) (rootAt key entries) (Option.Rel (Twins left right)) := by
  rw [rootAt_eq_lookup]
  cases hlookup : entries.lookup key with
  | none => exact .pure .none
  | some d => exact ((rereads_entry habreast hblind hnumber h hlookup).root d (.refl d)).map fun _ _ => .some

theorem rootsAt_echoes (hnumber : right.number = left.number) (key : String) (entries : Entries)
    (h : ∀ n ∈ nodesAt entries, Node.Shared left right n) :
    Echoes (fun _ => True) left right (rootsAt key entries) (rootsAt key entries)
      (List.Forall₂ (Twins left right)) := by
  rw [rootsAt_eq_lookup]
  cases hlookup : entries.lookup key with
  | none => exact .pure .nil
  | some d => exact (rereads_entry habreast hblind hnumber h hlookup).roots d (.refl d)

theorem refinementsAt_echoes (hnumber : right.number = left.number) (kind : Kind) (axis : BoundAxis) (entries : Entries)
    (h : ∀ n ∈ nodesAt entries, Node.Shared left right n) :
    Echoes (fun _ => True) left right (refinementsAt kind axis entries) (refinementsAt kind axis entries)
      (Grouped left right kind) :=
  (MatchedAt.of_lookup rfl).refinementsAt_echoes fun _ hlookup => rereads_entry habreast hblind hnumber h hlookup

/-- A map is read again under its captions. Only a union can come to something else. -/
theorem readMap_echoes (h : Recaptioned R entries entries')
    (hcaptions : ∀ caption caption', R caption caption' → caption'.isEmpty = true → caption.isEmpty = true)
    (hbranches : Echoes (fun _ => True) left right (rootsAt "branches" entries) (rootsAt "branches" entries)
      (List.Forall₂ (Twins left right)))
    (hroot : ∀ key, Echoes (fun _ => True) left right (rootAt key entries) (rootAt key entries)
      (Option.Rel (Twins left right)))
    (hrefinements : ∀ kind axis, Echoes (fun _ => True) left right (refinementsAt kind axis entries)
      (refinementsAt kind axis entries) (Grouped left right kind)) :
    Echoes (fun _ => True) left right (readRoot (.map entries)) (readRoot (.map entries')) fun a b =>
      Twins left right a b ∨ hasKey "branches" entries = true ∧
        ∃ caption caption', R caption caption' ∧ Node.Joined left right caption caption' a b := by
  have hrestates : Restates left R entries entries' := ⟨fun key hkey => .of_lookup (h.lookup key hkey), h.check⟩
  refine readRoot_map_echoes habreast hblind hrestates hcaptions (fun _ _ => trivial) ?_ (fun key hkey => ?_)
    fun kind axis => ?_
  · rw [rootsAt_eq_lookup "branches" entries', h.lookup _ (by decide), ← rootsAt_eq_lookup]
    exact hbranches
  · rw [rootAt_eq_lookup key entries', h.lookup key (by revert key; decide), ← rootAt_eq_lookup]
    exact hroot key
  · rw [refinementsAt_eq_lookup kind axis entries', h.lookup _ (by cases kind <;> decide), ← refinementsAt_eq_lookup]
    exact hrefinements kind axis

end Definition

-- ---------------------------------------------------------------------------
-- Lone branches
-- ---------------------------------------------------------------------------

namespace Node

variable {left right : Space} (habreast : Abreast left right)

/-- A union of nothing but one branch, which is of the type of a given node. -/
def Wraps (union node : Node) : Prop :=
  ∃ branch ordered, union.content = .union [branch] ordered ∧ node.OfOneType branch

include habreast

/-- A node of the type that the union of one root has is a union of one branch of the type of the root. -/
theorem wraps_of_typeId {b only : Node} {ordered : Bool} (hb : right.Holds b) (honly : right.Holds only)
    (hroot : only.isRefinement = false) (h : b.typeId = (Content.union [only] ordered).identifier
      ((Content.union [only] ordered).json right.registry false .none)) :
    ∃ branch, b.content = .union [branch] ordered ∧ right.Holds branch ∧ branch.typeId = only.typeId := by
  have hwritten := habreast.valid'.everywhere_written hb
  have hwritten' := habreast.valid'.everywhere_written honly
  rw [hwritten.self.typeId] at h
  have hkind : b.content.kind = .union := kind_eq_of_identifier h
  have hfinite : ((Content.union [only] ordered).json right.registry false .none).isFinite = true :=
    Content.isFinite_json (List.forall_mem_singleton.mpr (isFinite_childJson hwritten' false))
  have hjson := json_eq_of_identifier (isFinite_childJson hwritten false) hfinite h
  rw [hwritten.self.childJson false] at hjson
  have hsound := hwritten.self.sound
  have hchildren : ∀ c ∈ b.content.children, right.Holds c := habreast.valid'.closed b hb
  generalize b.content = content at hkind hjson hsound hchildren
  cases content with
  | union branches ordered' =>
      obtain ⟨hbranches, rfl⟩ := Content.union_of_json hjson
      obtain ⟨branch, rfl⟩ : ∃ branch, branches = [branch] :=
        List.length_eq_one_iff.mp (by simpa using congrArg List.length hbranches)
      have hheld := hchildren branch List.mem_cons_self
      have hbranch := habreast.valid'.everywhere_written hheld
      have htext : Content.childJson false branch = Content.childJson false only := by simpa using hbranches
      have hsame := kind_eq_of_root hbranch.self hwritten'.self
        (branch_not_refinement (hsound branch List.mem_cons_self)) hroot htext
      have hkinds : branch.content.kind = only.content.kind := hsame
      have htypeJson : branch.typeJson = only.typeJson := htext
      refine ⟨branch, rfl, hheld, ?_⟩
      rw [hbranch.self.typeId, hwritten'.self.typeId, htypeJson, Content.identifier, hkinds, ← Content.identifier]
  | _ => cases hkind

end Node

-- ---------------------------------------------------------------------------
-- Transparency
-- ---------------------------------------------------------------------------

namespace Definition

open Node (Welcome)

variable [Behaviour] {space later : Space} {entries entries' : Entries}

/-- A description or an alias changes nothing about what a definition means. In any later state, the captioned definition
is read as a node that allows the same values, and that is of the same type and kind, unless it is a union the branches
of which come to a single one: under a caption, that one stays a union. -/
theorem caption_transparent (hblind : BlindToSign) (hspace : space.Reachable True) (hlater : later.Reachable True)
    (hcaptioned : Captioned entries entries') {n : Node}
    (hguests : ∀ m ∈ (Definition.map entries).nodes, Welcome False space m ∧ Welcome False later m)
    (hn : ((readRoot (.map entries)).exec space).1 = .ok n)
    (hcontinues : later.Continues ((readRoot (.map entries)).exec space).2)
    (hregular : ((readRoot (.map entries)).exec space).2.Regular)
    (hregular' : ((readRoot (.map entries')).exec later).2.Regular) :
    ∃ n', ((readRoot (.map entries')).exec later).1 = .ok n' ∧ (∀ v, n'.allows v = n.allows v) ∧
      (n.OfOneType n' ∧ n.kind = n'.kind ∨
        hasKey "branches" entries = true ∧ n.kind ≠ .union ∧ n'.Wraps n) := by
  have hfirst := readRoot_spec (.map entries) fun m hm => (hguests m hm).1
  have hsecond := readRoot_spec (.map entries') fun m hm => (hguests m (hcaptioned.mem_nodes hm)).2
  have hext := (hfirst space hspace.valid (.refl space)).extension
  have hext' := (hsecond later hlater.valid (.refl later)).extension
  have habreast := Node.abreast_of_runs hspace.valid hlater.valid hfirst hsecond hcontinues.succeeds hregular hregular'
  have hnumber : later.number = space.number := hcontinues.number.trans hext.number
  have hshared (m : Node) (hm : m ∈ nodesAt entries) :=
    shared_of_welcome hspace.valid hext hext' hnumber (hguests m hm).1 (hguests m hm).2
  have hsides := hext'.number.trans (hnumber.trans hext.number.symm)
  have hechoes := readMap_echoes habreast hblind hcaptioned.restates (fun caption caption' h _ => by rw [h]; rfl)
    (rootsAt_echoes habreast hblind hsides "branches" entries hshared)
    (fun key => rootAt_echoes habreast hblind hsides key entries hshared)
    fun kind axis => refinementsAt_echoes habreast hblind hsides kind axis entries hshared
  obtain ⟨n', hn', hab⟩ := hechoes.recalls space later n hspace.orderly hlater.orderly (.refl _) (.refl _)
    hcontinues.registry hn
  refine ⟨n', hn', ?_⟩
  have hsame (htwins : Twins _ _ n n') : (∀ v, n'.allows v = n.allows v) ∧ (n.OfOneType n' ∧ n.kind = n'.kind ∨
      hasKey "branches" entries = true ∧ n.kind ≠ .union ∧ n'.Wraps n) :=
    ⟨fun v => (htwins.allows_eq habreast v).symm, .inl ⟨htwins.typeId, htwins.kind_eq habreast⟩⟩
  rcases hab with htwins | ⟨hunion, caption, caption', -, hjoined⟩
  · exact hsame htwins
  cases hjoined with
  | twins htwins => exact hsame htwins
  | lone only ordered _ _ honly hholds htypeId =>
      have hroot : n.isRefinement = false := by
        have hspec := unionOf_spec entries (rootsAt_spec "branches" entries fun m hm => (hguests m hm).1)
        rw [readRoot, if_pos hunion] at hn
        exact ((hspec space hspace.valid (.refl space)).result n hn).2
      have honlyRoot : only.isRefinement = false := by
        rw [Node.isRefinement, ← honly.kind_eq habreast]
        exact hroot
      obtain ⟨branch, hcontent, hheld, htype⟩ := Node.wraps_of_typeId habreast hholds honly.holds' honlyRoot htypeId
      have hbranch : Twins _ _ n branch := ⟨honly.holds, hheld, honly.typeId.trans htype.symm⟩
      refine ⟨fun v => ?_, .inr ⟨hunion, ?_, branch, ordered, hcontent, hbranch.typeId⟩⟩
      · rw [habreast.valid'.allows hholds, hcontent, Node.allows_of_union_content, Node.anyAllows_cons,
          Node.anyAllows_nil, Bool.or_false, hbranch.allows_eq habreast]
      · have hsound := (habreast.valid'.written n' hholds).sound
        rw [hcontent] at hsound
        rw [hbranch.kind_eq habreast]
        intro hkind
        have hisBranch := hsound branch List.mem_cons_self
        rw [hkind] at hisBranch
        cases hisBranch

omit [Behaviour] in
/-- Multiples of 4, and the same under a description: both are read as nodes of one type and kind, which allow the same
values. -/
theorem described_multiples : ∃ (space : Space) (entries entries' : Entries) (n n' : Node),
    @Space.Reachable Stock.behaviour True space ∧ Captioned entries entries' ∧
      ((@readRoot Stock.behaviour (.map entries)).exec space).1 = .ok n ∧
      ((@readRoot Stock.behaviour (.map entries')).exec ((@readRoot Stock.behaviour (.map entries)).exec space).2).1 =
        .ok n' ∧ n.id ≠ n'.id ∧ (∀ v, @Node.allows Stock.behaviour n' v = @Node.allows Stock.behaviour n v) ∧
      n.OfOneType n' ∧ n.kind = n'.kind := by
  let _ := Stock.behaviour
  let entries : Entries := [("domain", .string "number"), ("divisor", .number (.ofNat 4))]
  let entries' : Entries :=
    [("domain", .string "number"), ("description", .string "multiples of four"), ("divisor", .number (.ofNat 4))]
  have hcaptioned : Captioned entries entries' := ⟨rfl, by simp [entries', captionKeys]⟩
  let program : SpaceM Bool := do
    let n ← readRoot (.map entries)
    let space ← get
    let n' ← readRoot (.map entries')
    let later ← get
    return decide (n.id ≠ n'.id ∧ space.Regular ∧ later.Regular)
  have hyields : program.yields (.new 0 .standard) (fun b => b) = true := by
    decide +kernel
  obtain ⟨n, hn, hyields⟩ := SpaceM.yields_bind.mp hyields
  rw [SpaceM.yields_get] at hyields
  obtain ⟨m, hm, hyields⟩ := SpaceM.yields_bind.mp hyields
  rw [SpaceM.yields_get, SpaceM.yields_pure, decide_eq_true_eq] at hyields
  obtain ⟨hdiffer, hregular, hregular'⟩ := hyields
  have hspace := @Space.Reachable.new _ True 0 .standard
  obtain ⟨hlater, -, -⟩ := hspace.read (d := .map entries) (List.forall_mem_nil _)
  obtain ⟨n', hn', hallows, hsame | ⟨hunion, -⟩⟩ := caption_transparent Stock.blindToSign hspace hlater hcaptioned
    (List.forall_mem_nil _) hn (.refl _) hregular hregular'
  · rw [hm] at hn'
    cases hn'
    exact ⟨_, entries, entries', n, m, hspace, hcaptioned, hn, hm, hdiffer, hallows, hsame⟩
  · cases hunion

omit [Behaviour] in
/-- A union of strings alone is the domain of strings, but under a description it is a union: the types differ, and so
do the kinds. -/
theorem described_branch_differs : ∃ (space : Space) (entries entries' : Entries) (n n' : Node),
    @Space.Reachable Stock.behaviour False space ∧ Captioned entries entries' ∧
      ((@readRoot Stock.behaviour (.map entries)).exec space).1 = .ok n ∧
      ((@readRoot Stock.behaviour (.map entries')).exec ((@readRoot Stock.behaviour (.map entries)).exec space).2).1 =
        .ok n' ∧
      ((@readRoot Stock.behaviour (.map entries')).exec
        ((@readRoot Stock.behaviour (.map entries)).exec space).2).2.Regular ∧
      ¬ n.OfOneType n' ∧ n.kind ≠ n'.kind := by
  let _ := Stock.behaviour
  let entries : Entries := [("branches", .list [.string "string"])]
  let entries' : Entries := [("branches", .list [.string "string"]), ("description", .string "a text")]
  have hcaptioned : Captioned entries entries' := ⟨rfl, by simp [entries', captionKeys]⟩
  let program : SpaceM Bool := do
    let n ← readRoot (.map entries)
    let n' ← readRoot (.map entries')
    let later ← get
    return decide (later.Regular ∧ ¬ n.OfOneType n' ∧ n.kind ≠ n'.kind)
  have hyields : program.yields (.new 0 .standard) (fun b => b) = true := by
    decide +kernel
  obtain ⟨n, hn, hyields⟩ := SpaceM.yields_bind.mp hyields
  obtain ⟨n', hn', hyields⟩ := SpaceM.yields_bind.mp hyields
  rw [SpaceM.yields_get, SpaceM.yields_pure, decide_eq_true_eq] at hyields
  obtain ⟨hregular, htype, hkind⟩ := hyields
  exact ⟨_, entries, entries', n, n', .new 0 .standard, hcaptioned, hn, hn', hregular, htype, hkind⟩

omit [Behaviour] in
/-- A predicate that refuses `-0` lets `0` pass. When that was read and is gone, `-0` takes its place, since both have one
identifier: the same definition under a description then means `-0`, and is refused. -/
theorem described_zero_refused : ∃ (space later : Space) (entries entries' : Entries) (n : Node),
    @Space.Reachable Behaviour.refusingMinusZero True space ∧ @Space.Reachable Behaviour.refusingMinusZero True later ∧
      Captioned entries entries' ∧
      ((@readRoot Behaviour.refusingMinusZero (.map entries)).exec space).1 = .ok n ∧
      later.Continues ((@readRoot Behaviour.refusingMinusZero (.map entries)).exec space).2 ∧
      ((@readRoot Behaviour.refusingMinusZero (.map entries)).exec space).2.Regular ∧
      ((@readRoot Behaviour.refusingMinusZero (.map entries')).exec later).2.Regular ∧
      ∀ n', ((@readRoot Behaviour.refusingMinusZero (.map entries')).exec later).1 ≠ .ok n' := by
  let _ := Behaviour.refusingMinusZero
  let predicate : Definition := .predicate ⟨0, none, "not -0"⟩
  let entries : Entries := [("unit", .number .zero), ("predicate", predicate)]
  let entries' : Entries := [("unit", .number .zero), ("predicate", predicate), ("description", .string "zero")]
  let minusZero : Definition := .map [("unit", .number (.ofQuotient true 0 1))]
  let read := (readRoot (.map entries)).exec (.new 0 .standard)
  let later := (minusZero.readRoot.exec (read.2.sweep [])).2
  have hcaptioned : Captioned entries entries' := ⟨rfl, by simp [entries', captionKeys]⟩
  have hyields : (readRoot (.map entries)).yields (.new 0 .standard) (fun _ => true) = true ∧ read.2.Regular ∧
      ((readRoot (.map entries')).exec later).2.Regular ∧
      (readRoot (.map entries')).yields later (fun _ => true) = false := by
    rw [show later = (minusZero.readRoot.exec (read.2.sweep [])).2 from rfl, Space.sweep_nil]
    decide +kernel
  obtain ⟨hok, hregular, hregular', hrefused⟩ := hyields
  obtain ⟨n, hn, -⟩ := SpaceM.yields_iff.mp hok
  have hspace := @Space.Reachable.new _ True 0 .standard
  have hread := (hspace.read (d := .map entries) (List.forall_mem_nil _)).1
  have hswept := hread.sweep [] (List.forall_mem_nil _)
  have hlater := (hswept.read (d := minusZero) (List.forall_mem_nil _)).1
  have hcontinues : later.Continues (read.2.sweep []) :=
    (readRoot_inherits .proceeds minusZero _ hswept.orderly).2.continues
  refine ⟨_, later, entries, entries', n, hspace, hlater, hcaptioned, hn, hcontinues.trans (.sweep _ _), hregular,
    hregular', fun n' hn' => ?_⟩
  rw [SpaceM.yields_iff.mpr ⟨n', hn', rfl⟩] at hrefused
  cases hrefused

omit [Behaviour] in
/-- Captions can make a difference: to the type and the kind of a union that comes to a single branch, and, where
predicates tell `0` from `-0`, to whether a definition is accepted. -/
theorem caption_matters :
    (∃ (space : Space) (entries entries' : Entries) (n n' : Node),
      @Space.Reachable Stock.behaviour False space ∧ Captioned entries entries' ∧
        ((@readRoot Stock.behaviour (.map entries)).exec space).1 = .ok n ∧
        ((@readRoot Stock.behaviour (.map entries')).exec ((@readRoot Stock.behaviour (.map entries)).exec space).2).1 =
          .ok n' ∧
        ((@readRoot Stock.behaviour (.map entries')).exec
          ((@readRoot Stock.behaviour (.map entries)).exec space).2).2.Regular ∧
        ¬ n.OfOneType n' ∧ n.kind ≠ n'.kind) ∧
      ∃ (space later : Space) (entries entries' : Entries) (n : Node),
        @Space.Reachable Behaviour.refusingMinusZero True space ∧
          @Space.Reachable Behaviour.refusingMinusZero True later ∧ Captioned entries entries' ∧
          ((@readRoot Behaviour.refusingMinusZero (.map entries)).exec space).1 = .ok n ∧
          later.Continues ((@readRoot Behaviour.refusingMinusZero (.map entries)).exec space).2 ∧
          ((@readRoot Behaviour.refusingMinusZero (.map entries)).exec space).2.Regular ∧
          ((@readRoot Behaviour.refusingMinusZero (.map entries')).exec later).2.Regular ∧
          ∀ n', ((@readRoot Behaviour.refusingMinusZero (.map entries')).exec later).1 ≠ .ok n' :=
  ⟨described_branch_differs, described_zero_refused⟩

end Definition

end SchemaAlgebra
