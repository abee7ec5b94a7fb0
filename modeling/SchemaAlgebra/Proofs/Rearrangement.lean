-- SUMMARY: Definitions that are written in another order, and what is read of them without looking any deeper.
import SchemaAlgebra.Proofs.Entries
import SchemaAlgebra.Proofs.Matching
import SchemaAlgebra.Proofs.Reading
import SchemaAlgebra.Proofs.SideBySide

/-!
# Rearrangement

A definition can be written in another order: the entries of a map can be permuted, and
so can the patterns, the predicates and the properties with different keys that are
listed in one. The order of branches and of transforms has a meaning, and so has the
order of properties with one key, which are intersected as they come.

What is read of a map without looking into its entries is the same in any order, or it
is refused in any order: only which of several reasons is given may differ.
-/

namespace SchemaAlgebra

open SpaceM (Decided Restated)

namespace Definition

-- ---------------------------------------------------------------------------
-- Rearrangements
-- ---------------------------------------------------------------------------

/-- The property that a definition says is of a key, which may be a reference. -/
def Keyed (space : Space) (item : Definition) (key : PropKey) : Prop :=
  ∃ entries d, item = .map entries ∧ entries.lookup "key" = some d ∧ ((readKey d).exec space).1 = .ok key

/-- The keys of a map under which refinements are listed that do not merge. -/
def Permutable (space : Space) (key : String) (items : List Definition) : Prop :=
  key ∈ ["pattern", "predicate"] ∨ key ∈ ["required", "optional"] ∧
    items.Pairwise fun item other => ∀ key, Keyed space item key → ¬ Keyed space other key

mutual

/-- A definition and the same in another order. Keys of properties are told apart in a given space. -/
inductive Rearranged (space : Space) : Definition → Definition → Prop where
  | refl (d : Definition) : Rearranged space d d
  | list {items items' : List Definition} (h : List.Forall₂ (Rearranged space) items items') :
      Rearranged space (.list items) (.list items')
  | map {entries middle entries' : Entries} (hkeys : (entries.map Prod.fst).Nodup) (hperm : entries.Perm middle)
      (h : List.Forall₂ (RearrangedEntry space) middle entries') : Rearranged space (.map entries) (.map entries')

/-- An entry of a map and the same in another order. -/
inductive RearrangedEntry (space : Space) : String × Definition → String × Definition → Prop where
  | value {key : String} {d d' : Definition} (h : Rearranged space d d') : RearrangedEntry space (key, d) (key, d')
  | items {key : String} {items middle items' : List Definition} (hpermutable : Permutable space key items)
      (hperm : items.Perm middle) (h : List.Forall₂ (Rearranged space) middle items') :
      RearrangedEntry space (key, .list items) (key, .list items')

end

/-- What is found at a key of a map, and the same in another order. -/
abbrev RearrangedAt (space : Space) (key : String) (d d' : Definition) : Prop :=
  RearrangedEntry space (key, d) (key, d')

/-- Maps with nothing at a key, or with the same in another order. -/
def MatchedAt (space : Space) (key : String) (entries entries' : Entries) : Prop :=
  Option.Rel (RearrangedAt space key) (entries.lookup key) (entries'.lookup key)

/-- Maps with the same at each of their keys, in another order. -/
def Matched (space : Space) (entries entries' : Entries) : Prop := ∀ key, MatchedAt space key entries entries'

variable {space : Space} {d d' : Definition} {entries middle entries' : Entries} {key : String}

theorem RearrangedEntry.key_eq {entry entry' : String × Definition} (h : RearrangedEntry space entry entry') :
    entry.1 = entry'.1 := by
  cases h <;> rfl

theorem MatchedAt.of_lookup (h : entries'.lookup key = entries.lookup key) : MatchedAt space key entries entries' := by
  unfold MatchedAt
  rw [h]
  cases entries.lookup key with
  | none => exact .none
  | some d => exact .some (.value (.refl d))

theorem matched_refl (entries : Entries) : Matched space entries entries := fun _ => .of_lookup rfl

/-- With different keys, an entry is found at its key wherever it stands. -/
theorem lookup_perm (hkeys : (entries.map Prod.fst).Nodup) (h : entries.Perm middle) (key : String) :
    entries.lookup key = middle.lookup key := by
  induction h with
  | nil => rfl
  | cons entry _ ih =>
      obtain ⟨k, d⟩ := entry
      rw [List.lookup_cons, List.lookup_cons, ih (List.nodup_cons.mp hkeys).2]
  | swap entry other rest =>
      obtain ⟨k, d⟩ := entry
      obtain ⟨k', d'⟩ := other
      have hne : k' ≠ k := (List.ne_of_not_mem_cons (List.nodup_cons.mp hkeys).1)
      simp only [List.lookup_cons]
      cases hk : key == k <;> cases hk' : key == k' <;> first | rfl | skip
      exact absurd ((eq_of_beq hk').symm.trans (eq_of_beq hk)) hne
  | trans h _ ih ih' => exact (ih hkeys).trans (ih' ((h.map Prod.fst).nodup_iff.mp hkeys))

theorem matched_of_forall₂ (h : List.Forall₂ (RearrangedEntry space) entries entries') : Matched space entries entries' := by
  intro key
  induction h with
  | nil => exact .none
  | @cons entry entry' rest rest' h _ ih =>
      obtain ⟨k, d⟩ := entry
      obtain ⟨k', d'⟩ := entry'
      obtain rfl : k = k' := h.key_eq
      unfold MatchedAt at ih ⊢
      rw [List.lookup_cons, List.lookup_cons]
      split
      · rename_i hkey
        obtain rfl := eq_of_beq hkey
        exact .some h
      · exact ih

theorem matched_of_perm (hkeys : (entries.map Prod.fst).Nodup) (hperm : entries.Perm middle)
    (h : List.Forall₂ (RearrangedEntry space) middle entries') : Matched space entries entries' := by
  intro key
  unfold MatchedAt
  rw [lookup_perm hkeys hperm]
  exact matched_of_forall₂ h key

/-- What is rearranged stays the same, a list or a map. -/
theorem Rearranged.eq_or (h : Rearranged space d d') : d = d' ∨
    (∃ items items', d = .list items ∧ d' = .list items' ∧ List.Forall₂ (Rearranged space) items items') ∨
      ∃ entries entries', d = .map entries ∧ d' = .map entries' ∧ Matched space entries entries' := by
  cases h with
  | refl => exact .inl rfl
  | list h => exact .inr (.inl ⟨_, _, rfl, rfl, h⟩)
  | map hkeys hperm h => exact .inr (.inr ⟨_, _, rfl, rfl, matched_of_perm hkeys hperm h⟩)

theorem Rearranged.list_right {items : List Definition} (h : Rearranged space (.list items) d') :
    ∃ items', d' = .list items' ∧ List.Forall₂ (Rearranged space) items items' := by
  cases h with
  | refl => exact ⟨items, rfl, List.forall₂_same.mpr fun d _ => .refl d⟩
  | list h => exact ⟨_, rfl, h⟩

theorem Rearranged.map_right (h : Rearranged space (.map entries) d') :
    ∃ entries', d' = .map entries' ∧ Matched space entries entries' := by
  cases h with
  | refl => exact ⟨entries, rfl, matched_refl entries⟩
  | map hkeys hperm h => exact ⟨_, rfl, matched_of_perm hkeys hperm h⟩

/-- At most keys of a map, nothing is listed in another order. -/
theorem RearrangedEntry.rearranged (h : RearrangedAt space key d d')
    (hkey : key ∉ ["pattern", "predicate", "required", "optional"]) : Rearranged space d d' := by
  cases h with
  | value h => exact h
  | items hpermutable _ _ =>
      refine absurd ?_ hkey
      rcases hpermutable with hmem | ⟨hmem, -⟩
      · exact List.mem_append_left ["required", "optional"] hmem
      · exact List.mem_append_right ["pattern", "predicate"] hmem

-- ---------------------------------------------------------------------------
-- Entries
-- ---------------------------------------------------------------------------

variable {α : Type}

/-- Without a look into lists and maps. -/
@[elab_as_elim]
theorem RearrangedEntry.flat {motive : Definition → Definition → Prop} (h : RearrangedAt space key d d')
    (same : ∀ d, motive d d) (list : ∀ items items', motive (.list items) (.list items'))
    (map : ∀ entries entries', motive (.map entries) (.map entries')) : motive d d' := by
  cases h with
  | items _ _ _ => exact list _ _
  | value h =>
      rcases h.eq_or with rfl | ⟨items, items', rfl, rfl, -⟩ | ⟨entries, entries', rfl, rfl, -⟩
      · exact same d
      · exact list items items'
      · exact map entries entries'

namespace MatchedAt

variable (h : MatchedAt space key entries entries')

include h

/-- What is found at a key: nothing in either, or the same in another order. -/
@[elab_as_elim]
theorem elim {motive : Option Definition → Option Definition → Prop} (hnone : motive none none)
    (hsome : ∀ d d', entries.lookup key = some d → RearrangedAt space key d d' → motive (some d) (some d')) :
    motive (entries.lookup key) (entries'.lookup key) := by
  unfold MatchedAt at h
  generalize entries.lookup key = x at h hsome ⊢
  generalize entries'.lookup key = y at h ⊢
  cases h with
  | none => exact hnone
  | some h => exact hsome _ _ rfl h

theorem hasKey_eq : hasKey key entries' = hasKey key entries := by
  unfold hasKey
  exact h.elim rfl fun _ _ _ _ => rfl

theorem optionalText_restated : Restated (optionalText key entries) (optionalText key entries') := by
  unfold optionalText
  exact h.elim (.same _) fun _ _ _ hd => hd.flat (fun _ => .same _) (fun _ _ => .refused _ _) fun _ _ => .refused _ _

theorem optionalFlag_restated : Restated (optionalFlag key entries) (optionalFlag key entries') := by
  unfold optionalFlag
  exact h.elim (.same _) fun _ _ _ hd => hd.flat (fun _ => .same _) (fun _ _ => .refused _ _) fun _ _ => .refused _ _

/-- What is done about an entry that must be there. -/
theorem requiredEntry_restated (kind : Kind) {f g : Definition → SpaceM α}
    (hfg : ∀ d d', RearrangedAt space key d d' → Restated (f d) (g d')) :
    Restated (requiredEntry kind key entries >>= f) (requiredEntry kind key entries' >>= g) := by
  unfold requiredEntry
  exact h.elim (.refused _ _) fun d d' _ hd => hfg d d' hd

theorem requiredNumber_restated (kind : Kind) :
    Restated (requiredNumber kind key entries) (requiredNumber kind key entries') := by
  unfold requiredNumber
  exact h.requiredEntry_restated kind fun _ _ hd =>
    hd.flat (fun _ => .same _) (fun _ _ => .refused _ _) fun _ _ => .refused _ _

end MatchedAt

namespace Matched

variable (h : Matched space entries entries')

include h

theorem readAxis_restated (implied : BoundAxis) : Restated (readAxis implied entries) (readAxis implied entries') := by
  unfold readAxis
  exact (h "axis").optionalText_restated.bind (optionalText_decided _ _) fun _ => .same _

theorem mem_keys {key : String} : key ∈ entries'.map Prod.fst ↔ key ∈ entries.map Prod.fst := by
  have hfound (entries : Entries) : key ∈ entries.map Prod.fst ↔ hasKey key entries = true := by
    unfold hasKey
    rw [← Option.ne_none_iff_isSome, ne_eq, List.lookup_eq_none_iff]
    simp only [List.mem_map, not_forall, bne_iff_ne, ne_eq, not_not, exists_prop]
    exact exists_congr fun entry => and_congr_right fun _ => eq_comm
  rw [hfound, hfound, (h key).hasKey_eq]

theorem checkEntries_restated (kind : Kind) (allowed : List String) :
    Restated (checkEntries kind allowed entries) (checkEntries kind allowed entries') := by
  have hnone (entries : Entries) :
      (entries.find? fun entry => !allowed.contains entry.1 && !captionKeys.contains entry.1) = none ↔
        ∀ key ∈ entries.map Prod.fst, (!allowed.contains key && !captionKeys.contains key) = false := by
    rw [List.find?_eq_none, List.forall_mem_map]
    exact forall₂_congr fun entry _ => .of_eq (Bool.not_eq_true _)
  have hiff : (entries.find? fun entry => !allowed.contains entry.1 && !captionKeys.contains entry.1) = none ↔
      (entries'.find? fun entry => !allowed.contains entry.1 && !captionKeys.contains entry.1) = none := by
    rw [hnone, hnone]
    exact forall_congr' fun key => imp_congr_left h.mem_keys.symm
  unfold checkEntries
  generalize (entries.find? fun entry => !allowed.contains entry.1 && !captionKeys.contains entry.1) = x at hiff ⊢
  generalize (entries'.find? fun entry => !allowed.contains entry.1 && !captionKeys.contains entry.1) = y at hiff ⊢
  cases x with
  | none =>
      rw [hiff.mp rfl]
      exact (h "description").optionalText_restated.bind (optionalText_decided _ _) fun _ =>
        (h "alias").optionalText_restated.bind (optionalText_decided _ _) fun _ => .same _
  | some entry =>
      cases y with
      | none => cases hiff.mpr rfl
      | some entry' => exact .refused _ _

end Matched

-- ---------------------------------------------------------------------------
-- Leaves
-- ---------------------------------------------------------------------------

/-- A reading that refuses lists, and reads maps by what is at their keys. -/
theorem Rearranged.restated {f : Definition → SpaceM α} (h : Rearranged space d d')
    (hlist : ∀ items, ∃ reason, f (.list items) = SpaceM.parseError reason)
    (hmap : ∀ entries entries', Matched space entries entries' → Restated (f (.map entries)) (f (.map entries'))) :
    Restated (f d) (f d') := by
  rcases h.eq_or with rfl | ⟨items, items', rfl, rfl, -⟩ | ⟨entries, entries', rfl, rfl, hmatched⟩
  · exact .same _
  · obtain ⟨reason, heq⟩ := hlist items
    obtain ⟨reason', heq'⟩ := hlist items'
    rw [heq, heq']
    exact .refused reason reason'
  · exact hmap entries entries' hmatched

theorem readDomain_restated (h : Rearranged space d d') : Restated (readDomain d) (readDomain d') := by
  refine h.restated (fun _ => ⟨_, rfl⟩) fun entries entries' h => ?_
  refine (h.checkEntries_restated _ _).bind (checkEntries_decided _ _ _) fun caption => ?_
  exact (h _).requiredEntry_restated _ fun _ _ hd =>
    hd.flat (fun _ => .same _) (fun _ _ => .refused _ _) fun _ _ => .refused _ _

theorem readLiteral_restated (h : Rearranged space d d') : Restated (readLiteral d) (readLiteral d') :=
  h.restated (fun _ => ⟨_, rfl⟩) fun _ _ _ => .refused _ _

theorem readProto_restated (h : Rearranged space d d') : Restated (readProto d) (readProto d') := by
  refine h.restated (fun _ => ⟨_, rfl⟩) fun entries entries' h => ?_
  refine (h.checkEntries_restated _ _).bind (checkEntries_decided _ _ _) fun caption => ?_
  exact (h _).requiredEntry_restated _ fun _ _ hd =>
    hd.flat (fun _ => .same _) (fun _ _ => .refused _ _) fun _ _ => .refused _ _

theorem readDivisor_restated (h : Rearranged space d d') : Restated (readDivisor d) (readDivisor d') := by
  refine h.restated (fun _ => ⟨_, rfl⟩) fun entries entries' h => ?_
  refine (h.checkEntries_restated _ _).bind (checkEntries_decided _ _ _) fun caption => ?_
  exact ((h _).requiredNumber_restated _).bind (requiredNumber_decided _ _ _) fun _ => .same _

theorem readBound_restated (kind : Kind) (implied : BoundAxis) (h : Rearranged space d d') :
    Restated (readBound kind implied d) (readBound kind implied d') := by
  refine h.restated (fun _ => ⟨_, rfl⟩) fun entries entries' h => ?_
  refine (h.checkEntries_restated _ _).bind (checkEntries_decided _ _ _) fun caption => ?_
  refine ((h _).requiredNumber_restated _).bind (requiredNumber_decided _ _ _) fun limit => ?_
  refine (h _).optionalFlag_restated.bind (optionalFlag_decided _ _) fun exclusive => ?_
  exact (h.readAxis_restated implied).bind (readAxis_decided _ _) fun _ => .same _

theorem readPattern_restated (h : Rearranged space d d') : Restated (readPattern d) (readPattern d') := by
  refine h.restated (fun _ => ⟨_, rfl⟩) fun entries entries' h => ?_
  refine (h.checkEntries_restated _ _).bind (checkEntries_decided _ _ _) fun caption => ?_
  refine (h _).requiredEntry_restated _ fun _ _ hd => hd.flat (fun d => ?_) (fun _ _ => .refused _ _) fun _ _ => .refused _ _
  cases d with
  | string source => exact (h "flags").optionalText_restated.bind (optionalText_decided _ _) fun _ => .same _
  | _ => exact .refused _ _

theorem readPredicate_restated (h : Rearranged space d d') : Restated (readPredicate d) (readPredicate d') := by
  refine h.restated (fun _ => ⟨_, rfl⟩) fun entries entries' h => ?_
  refine (h.checkEntries_restated _ _).bind (checkEntries_decided _ _ _) fun caption => ?_
  exact (h _).requiredEntry_restated _ fun _ _ hd =>
    hd.flat (fun _ => .same _) (fun _ _ => .refused _ _) fun _ _ => .refused _ _

theorem readFlatRefinement_restated (kind : Kind) (axis : BoundAxis) (h : Rearranged space d d') :
    Restated (readFlatRefinement kind axis d) (readFlatRefinement kind axis d') := by
  unfold readFlatRefinement
  split
  · exact readDivisor_restated h
  · exact (readBound_restated _ _ h).bind (readBound_decided _ _ _) fun _ => .same _
  · exact (readBound_restated _ _ h).bind (readBound_decided _ _ _) fun _ => .same _
  · exact readPattern_restated h
  · exact readPredicate_restated h
  · exact .refused _ _

theorem resolveTransform_restated (h : Rearranged space d d') : Restated (resolveTransform d) (resolveTransform d') :=
  h.restated (fun _ => ⟨_, rfl⟩) fun _ _ _ => .refused _ _

theorem readKey_map (h : ∀ reference, entries ≠ [("symbol", .string reference)]) :
    readKey (.map entries) = SpaceM.parseError .keyMap := by
  unfold readKey
  split
  case h_4 reference hentries => exact absurd (Definition.map.inj hentries) (h reference)
  case h_5 => rfl
  case h_6 hmap => exact absurd rfl (hmap entries)
  all_goals rename_i heq; cases heq

/-- A reference to a symbol is a map with one entry, which is the same in any order. -/
theorem readKey_restated (h : Rearranged space d d') : Restated (readKey d) (readKey d') := by
  cases h with
  | refl => exact .same _
  | list h => exact .refused _ _
  | @map entries middle entries' hkeys hperm h =>
      by_cases hreference : ∃ reference, entries' = [("symbol", .string reference)]
      · obtain ⟨reference, rfl⟩ := hreference
        obtain ⟨entry, rest, hentry, hrest, rfl⟩ := List.forall₂_cons_right_iff.mp h
        obtain rfl := List.forall₂_nil_right_iff.mp hrest
        obtain rfl : entry = ("symbol", .string reference) := by
          cases hentry with
          | value hvalue => cases hvalue; rfl
        rw [List.perm_singleton.mp hperm]
        exact .same _
      · have hreference' (reference : String) : entries ≠ [("symbol", .string reference)] := by
          rintro rfl
          obtain rfl := List.singleton_perm.mp hperm
          obtain ⟨entry', rest', hentry, hrest, rfl⟩ := List.forall₂_cons_left_iff.mp h
          obtain rfl := List.forall₂_nil_left_iff.mp hrest
          refine hreference ⟨reference, ?_⟩
          cases hentry with
          | value hvalue => cases hvalue; rfl
        rw [readKey_map hreference', readKey_map fun reference h => hreference ⟨reference, h⟩]
        exact .refused _ _

-- ---------------------------------------------------------------------------
-- Texts
-- ---------------------------------------------------------------------------

mutual

/-- The texts that are written in a definition, some of which may be references. -/
def texts : Definition → List String
  | .list items => textsIn items
  | .map entries => textsAt entries
  | .string text => [text]
  | _ => []
termination_by structural d => d

def textsIn : List Definition → List String
  | [] => []
  | d :: rest => texts d ++ textsIn rest
termination_by structural items => items

def textsAt : List (String × Definition) → List String
  | [] => []
  | (_, d) :: rest => texts d ++ textsAt rest
termination_by structural entries => entries

end

theorem textsIn_eq_flatMap (items : List Definition) : textsIn items = items.flatMap texts := by
  induction items with
  | nil => rfl
  | cons d rest ih => rw [List.flatMap_cons, textsIn, ih]

theorem textsAt_eq_flatMap (entries : Entries) : textsAt entries = entries.flatMap (texts ·.2) := by
  induction entries with
  | nil => rfl
  | cons entry rest ih => rw [List.flatMap_cons, textsAt, ih]

theorem nodesIn_eq_flatMap (items : List Definition) : nodesIn items = items.flatMap nodes := by
  induction items with
  | nil => rfl
  | cons d rest ih => rw [List.flatMap_cons, nodesIn, ih]

theorem nodesAt_eq_flatMap (entries : Entries) : nodesAt entries = entries.flatMap (nodes ·.2) := by
  induction entries with
  | nil => rfl
  | cons entry rest ih => rw [List.flatMap_cons, nodesAt, ih]

theorem mem_nodesIn {items : List Definition} {n : Node} : n ∈ nodesIn items ↔ ∃ d ∈ items, n ∈ d.nodes := by
  rw [nodesIn_eq_flatMap, List.mem_flatMap]

theorem mem_nodesAt {n : Node} : n ∈ nodesAt entries ↔ ∃ entry ∈ entries, n ∈ entry.2.nodes := by
  rw [nodesAt_eq_flatMap, List.mem_flatMap]

theorem mem_of_lookup (h : entries.lookup key = some d) : (key, d) ∈ entries := by
  obtain ⟨before, after, rfl, -⟩ := List.lookup_eq_some_iff.mp h
  exact List.mem_append_right before List.mem_cons_self

theorem texts_of_mem {items : List Definition} (h : d ∈ items) : d.texts ⊆ textsIn items :=
  fun _ htext => textsIn_eq_flatMap items ▸ List.mem_flatMap.mpr ⟨d, h, htext⟩

theorem texts_of_lookup (h : entries.lookup key = some d) : d.texts ⊆ textsAt entries :=
  fun _ htext => textsAt_eq_flatMap entries ▸ List.mem_flatMap.mpr ⟨(key, d), mem_of_lookup h, htext⟩

theorem nodes_of_mem {items : List Definition} (h : d ∈ items) : d.nodes ⊆ nodesIn items :=
  fun _ hn => mem_nodesIn.mpr ⟨d, h, hn⟩

theorem nodes_of_lookup (h : entries.lookup key = some d) : d.nodes ⊆ nodesAt entries :=
  fun _ hn => mem_nodesAt.mpr ⟨(key, d), mem_of_lookup h, hn⟩

-- ---------------------------------------------------------------------------
-- The other way round
-- ---------------------------------------------------------------------------

theorem Keyed.of_rearranged {propKey : PropKey} (h : Rearranged space d d') (hkeyed : Keyed space d' propKey) :
    Keyed space d propKey := by
  obtain ⟨entries', k', rfl, hlookup', hread⟩ := hkeyed
  rcases h.eq_or with rfl | ⟨_, _, -, heq, -⟩ | ⟨entries, _, rfl, heq, hmatched⟩
  · exact ⟨entries', k', rfl, hlookup', hread⟩
  · cases heq
  · cases heq
    have hkey := hmatched "key"
    unfold MatchedAt at hkey
    rw [hlookup'] at hkey
    cases hlookup : entries.lookup "key" with
    | none =>
        rw [hlookup] at hkey
        cases hkey
    | some k =>
        rw [hlookup] at hkey
        cases hkey with
        | some hk =>
            refine ⟨entries, k, rfl, hlookup, ?_⟩
            have hrestated := readKey_restated (hk.rearranged (by decide))
            generalize readKey k = x at hrestated ⊢
            generalize readKey k' = y at hrestated hread
            cases hrestated with
            | same => exact hread
            | refused _ _ => cases hread

/-- Definitions in another order can be permuted themselves. -/
theorem Permutable.of_rearranged {items middle items' : List Definition} (h : Permutable space key items)
    (hperm : items.Perm middle) (hitems : List.Forall₂ (Rearranged space) middle items') :
    Permutable space key items' := by
  refine h.imp_right fun ⟨hkey, hapart⟩ => ⟨hkey, ?_⟩
  have hmiddle := hperm.pairwise hapart fun h key hkey hkey' => h key hkey' hkey
  clear hperm hapart h
  induction hitems with
  | nil => exact .nil
  | cons hitem hrest ih =>
      obtain ⟨hfirst, hothers⟩ := List.pairwise_cons.mp hmiddle
      refine List.pairwise_cons.mpr ⟨fun other' hother' propKey hkeyed hkeyed' => ?_, ih hothers⟩
      obtain ⟨other, hother, hrearranged⟩ := exists_mem_of_forall₂ hrest hother'
      exact hfirst other hother propKey (hkeyed.of_rearranged hitem) (hkeyed'.of_rearranged hrearranged)

theorem sizeOf_item_lt {items : List Definition} (h : d ∈ items) : sizeOf d < sizeOf (Definition.list items) := by
  have hlt := List.sizeOf_lt_of_mem h
  rw [list.sizeOf_spec]
  omega

theorem sizeOf_entry_lt (h : (key, d) ∈ entries) : sizeOf d < sizeOf (Definition.map entries) := by
  have hlt := List.sizeOf_lt_of_mem h
  rw [Prod.mk.sizeOf_spec] at hlt
  rw [map.sizeOf_spec]
  omega

/-- What is a definition in another order can be put in the order of the definition. -/
theorem Rearranged.symm (h : Rearranged space d d') : Rearranged space d' d := by
  -- by induction on the size, since the definitions inside are in lists, and in pairs in lists
  induction hsize : sizeOf d using Nat.strong_induction_on generalizing d d' with
  | _ size ih =>
  subst hsize
  have hitems {items items' : List Definition} (h : List.Forall₂ (Rearranged space) items items')
      (hsmaller : ∀ item ∈ items, sizeOf item < sizeOf d) : List.Forall₂ (Rearranged space) items' items :=
    List.Forall₂.flip (forall₂_imp_of_mem h fun item hitem _ _ hrearranged =>
      ih _ (hsmaller item hitem) hrearranged rfl)
  cases h with
  | refl => exact .refl d
  | list h => exact .list (hitems h fun item hitem => sizeOf_item_lt hitem)
  | @map entries middle entries' hkeys hperm h =>
      have hentry (entry : String × Definition) (hmem : entry ∈ entries) (entry' : String × Definition)
          (h : RearrangedEntry space entry entry') : RearrangedEntry space entry' entry := by
        cases h with
        | value h => exact .value (ih _ (sizeOf_entry_lt hmem) h rfl)
        | @items key items middle items' hpermutable hperm h =>
            have hback := hitems h fun item hitem =>
              (sizeOf_item_lt (hperm.mem_iff.mpr hitem)).trans (sizeOf_entry_lt hmem)
            obtain ⟨middle', hperm', hback'⟩ := (congrFun₂ List.forall₂_comp_perm_eq_perm_comp_forall₂ items' items).mp
              ⟨middle, hback, hperm.symm⟩
            exact .items (hpermutable.of_rearranged hperm h) hperm' hback'
      have hkeys' : middle.map Prod.fst = entries'.map Prod.fst :=
        forall₂_map_eq.mp (h.imp fun _ _ => RearrangedEntry.key_eq)
      have hback : List.Forall₂ (RearrangedEntry space) entries' middle :=
        List.Forall₂.flip (forall₂_imp_of_mem h fun entry hmem entry' _ hrearranged =>
          hentry entry (hperm.mem_iff.mpr hmem) entry' hrearranged)
      obtain ⟨middle', hperm', hback'⟩ := (congrFun₂ List.forall₂_comp_perm_eq_perm_comp_forall₂ entries' entries).mp
        ⟨middle, hback, hperm.symm⟩
      exact .map (hkeys' ▸ (hperm.map Prod.fst).nodup hkeys) hperm' hback'

/-- There are no other nodes in a definition in another order. -/
theorem Rearranged.mem_nodes (h : Rearranged space d d') {n : Node} (hn : n ∈ d'.nodes) : n ∈ d.nodes := by
  induction hsize : sizeOf d using Nat.strong_induction_on generalizing d d' with
  | _ size ih =>
  subst hsize
  have hitems {items items' : List Definition} (h : List.Forall₂ (Rearranged space) items items')
      (hsmaller : ∀ item ∈ items, sizeOf item < sizeOf d) (hn : n ∈ nodesIn items') : n ∈ nodesIn items := by
    obtain ⟨item', hitem', hn⟩ := mem_nodesIn.mp hn
    obtain ⟨item, hitem, hrearranged⟩ := exists_mem_of_forall₂ h hitem'
    exact mem_nodesIn.mpr ⟨item, hitem, ih _ (hsmaller item hitem) hrearranged hn rfl⟩
  cases h with
  | refl => exact hn
  | list h => exact hitems h (fun item hitem => sizeOf_item_lt hitem) hn
  | @map entries middle entries' hkeys hperm h =>
      obtain ⟨entry', hentry', hn⟩ := mem_nodesAt.mp hn
      obtain ⟨entry, hentry, hrearranged⟩ := exists_mem_of_forall₂ h hentry'
      have hmem := hperm.mem_iff.mpr hentry
      refine mem_nodesAt.mpr ⟨entry, hmem, ?_⟩
      cases hrearranged with
      | value h => exact ih _ (sizeOf_entry_lt hmem) h hn rfl
      | @items key items middle items' hpermutable hperm h =>
          have hsmaller (item : Definition) (hitem : item ∈ middle) :=
            (sizeOf_item_lt (hperm.mem_iff.mpr hitem)).trans (sizeOf_entry_lt hmem)
          obtain ⟨item, hitem, hn⟩ := mem_nodesIn.mp (hitems h hsmaller hn)
          exact mem_nodesIn.mpr ⟨item, hperm.mem_iff.mpr hitem, hn⟩

end Definition

end SchemaAlgebra
