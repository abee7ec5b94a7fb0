-- SUMMARY: Refinements of one kind that are written in another order are defined as an intersection of the same type.
import SchemaAlgebra.Proofs.Commutation
import SchemaAlgebra.Proofs.Exclusion
import SchemaAlgebra.Proofs.Reduction

/-!
# Refinements in any order

The rules of a definition are folded kind by kind. Rules of different kinds leave each
other alone, apart from a maximum and a minimum with nothing between them, so that each
kind is folded as if it stood alone. Of the refinements of one kind, those that do not
merge are kept in the order they were written in, those of one type once. So what is kept
in one order is of the same types as what is kept in another, and sorting does the rest.
-/

namespace SchemaAlgebra

namespace Node

open Space (Twins Abreast)
open SpaceM (Along Lockstep)

variable {left right space : Space} {nodes nodes' more more' : List Node} {a b rule : Node}

-- ---------------------------------------------------------------------------
-- Nodes of the same types
-- ---------------------------------------------------------------------------

/-- Nodes of the same types in any order, each alive in its space. -/
structure SameTypes (left right : Space) (nodes nodes' : List Node) : Prop where
  holds : ∀ n ∈ nodes, left.Holds n
  holds' : ∀ n ∈ nodes', right.Holds n
  types : (nodes.map typeId).Perm (nodes'.map typeId)

theorem sameTypes_nil : SameTypes left right [] [] := ⟨List.forall_mem_nil _, List.forall_mem_nil _, .nil⟩

theorem sameTypes_of_twins (h : List.Forall₂ (Twins left right) nodes nodes') : SameTypes left right nodes nodes' where
  holds := ((List.forall₂_and_left (p := left.Holds) _ _).mp (h.imp fun _ _ hab => ⟨hab.holds, hab⟩)).1
  holds' := ((List.forall₂_and_left (p := right.Holds) _ _).mp (h.flip.imp fun _ _ hab => ⟨hab.holds', hab⟩)).1
  types := .of_eq (forall₂_map_eq.mp (h.imp fun _ _ => Twins.typeId))

theorem SameTypes.append (h : SameTypes left right nodes nodes') (hmore : SameTypes left right more more') :
    SameTypes left right (nodes ++ more) (nodes' ++ more') where
  holds := List.forall_mem_append.mpr ⟨h.holds, hmore.holds⟩
  holds' := List.forall_mem_append.mpr ⟨h.holds', hmore.holds'⟩
  types := by
    rw [List.map_append, List.map_append]
    exact h.types.append hmore.types

/-- Nodes of the same types can be put in the same order. -/
theorem SameTypes.exists_order (h : SameTypes left right nodes nodes') :
    ∃ order, nodes.Perm order ∧ List.Forall₂ (Twins left right) order nodes' := by
  have htypes : List.Forall₂ (fun n type => n.typeId = type) nodes (nodes.map typeId) :=
    List.forall₂_map_right_iff.mpr (List.forall₂_same.mpr fun _ _ => rfl)
  have hcomp := congrFun₂ (@List.forall₂_comp_perm_eq_perm_comp_forall₂ _ _ fun (n : Node) type => n.typeId = type)
    nodes (nodes'.map typeId)
  obtain ⟨order, hperm, horder⟩ := hcomp.mp ⟨_, htypes, h.types⟩
  refine ⟨order, hperm, forall₂_imp_of_mem (List.forall₂_map_right_iff.mp horder) fun n hn n' hn' htype => ?_⟩
  exact ⟨h.holds n (hperm.mem_iff.mpr hn), h.holds' n' hn', htype⟩

theorem SameTypes.exists_left (h : SameTypes left right nodes nodes') {n : Node} (hn : n ∈ nodes) :
    ∃ n' ∈ nodes', Twins left right n n' := by
  obtain ⟨n', hn', htype⟩ := List.mem_map.mp (h.types.mem_iff.mp (List.mem_map_of_mem hn))
  exact ⟨n', hn', h.holds n hn, h.holds' n' hn', htype.symm⟩

theorem SameTypes.exists_right (h : SameTypes left right nodes nodes') {n' : Node} (hn' : n' ∈ nodes') :
    ∃ n ∈ nodes, Twins left right n n' := by
  obtain ⟨n, hn, htype⟩ := List.mem_map.mp (h.types.mem_iff.mpr (List.mem_map_of_mem hn'))
  exact ⟨n, hn, h.holds n hn, h.holds' n' hn', htype⟩

/-- Sorting undoes a permutation, up to nodes of one type. -/
theorem sortConstraints_types_perm (h : nodes.Perm nodes') :
    (sortConstraints nodes).map typeId = (sortConstraints nodes').map typeId := by
  let key (n : Node) := (n.kind.order, n.typeId)
  have hsorted (nodes : List Node) : ((sortConstraints nodes).map key).Pairwise fun x y =>
      x.1 < y.1 ∨ x.1 = y.1 ∧ x.2 ≤ y.2 :=
    List.pairwise_map.mpr ((sortConstraints_sorted nodes).imp constraintLE_iff.mp)
  have hperm : ((sortConstraints nodes).map key).Perm ((sortConstraints nodes').map key) :=
    ((sortConstraints_perm nodes).trans (h.trans (sortConstraints_perm nodes').symm)).map key
  have hkeys := hperm.eq_of_pairwise (fun x y _ _ hxy hyx => ?_) (hsorted nodes) (hsorted nodes')
  · have htypes := congrArg (List.map Prod.snd) hkeys
    rwa [List.map_map, List.map_map] at htypes
  · rcases hxy with hxy | ⟨hxy, hle⟩
    · exact absurd hxy (by omega)
    · rcases hyx with hyx | ⟨-, hle'⟩
      · exact absurd hyx (by omega)
      · exact Prod.ext hxy (String.le_antisymm hle hle')

theorem SameTypes.sorted (habreast : Abreast left right) (h : SameTypes left right nodes nodes') :
    List.Forall₂ (Twins left right) (sortConstraints nodes) (sortConstraints nodes') := by
  obtain ⟨order, hperm, horder⟩ := h.exists_order
  have htypes := forall₂_map_eq.mp ((sortConstraints_related habreast horder).imp fun _ _ => Twins.typeId)
  rw [← sortConstraints_types_perm hperm] at htypes
  refine forall₂_imp_of_mem (forall₂_map_eq.mpr htypes) fun n hn n' hn' htype => ?_
  exact ⟨h.holds n ((sortConstraints_perm nodes).mem_iff.mp hn), h.holds' n' ((sortConstraints_perm nodes').mem_iff.mp hn'),
    htype⟩

-- ---------------------------------------------------------------------------
-- Rules that leave each other alone
-- ---------------------------------------------------------------------------

/-- Refinements of one slot are of one kind. -/
theorem kind_of_slot? (h : a.slot? = b.slot?) (hb : b.isRefinement = true) : a.kind = b.kind := by
  unfold slot? at h
  unfold isRefinement kind at hb
  unfold kind
  cases hcontent : b.content <;> rw [hcontent] at h hb <;> first | cases hb; done | skip
  all_goals cases ha : a.content <;> rw [ha] at h <;> first | rfl | cases h

variable [Behaviour] {meet : Meet}

/-- Rules of different kinds are orthogonal, apart from bounds with nothing between them. -/
theorem meetRules_of_kinds (hvalid : space.Valid) (ha : space.Holds a) (hb : space.Holds b)
    (hconstraint : a.kind.isConstraint = true) (hunit : a.kind ≠ .unit) (hrefinement : b.isRefinement = true)
    (hslot : a.slot? ≠ b.slot?) (hclash : ¬ a.Clash b) : meetRules meet a b = pure .orthogonal := by
  obtain ⟨hunit', -, hconstraint'⟩ := kind_of_isRefinement hrefinement
  have hbeside : a.Beside false b :=
    beside_of_slots hunit hunit' (fun slot hs hs' => hslot (hs.trans hs'.symm)) hclash
  refine meetRules_eq_orthogonal hbeside ?_ (hbeside.sameType_eq_false hvalid ha hb hconstraint) hconstraint hconstraint'
  rintro ⟨hd, hd'⟩
  obtain ⟨d, hd⟩ := exists_divisor hd
  obtain ⟨d', hd'⟩ := exists_divisor hd'
  exact hslot (by rw [slot?, slot?, hd, hd']; rfl)

-- ---------------------------------------------------------------------------
-- Folding beside other rules
-- ---------------------------------------------------------------------------

variable {rules aside : List Node}

theorem foldInto_aside (h : ∀ e ∈ aside, meetRules meet e rule = pure .orthogonal) :
    foldInto meet rule none (aside ++ rules) = do return (← foldInto meet rule none rules).map (aside ++ ·) := by
  induction aside with
  | nil =>
      refine Eq.trans (bind_pure _).symm (bind_congr fun out => ?_)
      cases out <;> rfl
  | cons e rest ih =>
      obtain ⟨he, hrest⟩ := List.forall_mem_cons.mp h
      rw [List.cons_append, foldInto, he, pure_bind, ih hrest]
      dsimp only
      rw [bind_assoc]
      refine bind_congr fun out => ?_
      rw [pure_bind]
      cases out <;> rfl

/-- Rules that leave what is added alone are kept as they are, and what is added is folded as if it stood alone. -/
theorem addRules_aside (h : ∀ e ∈ aside, ∀ r ∈ more, meetRules meet e r = pure .orthogonal) :
    addRules meet (aside ++ rules) more = do return (← addRules meet rules more).map (aside ++ ·) := by
  induction more generalizing rules with
  | nil => rfl
  | cons rule rest ih =>
      have hrule := fun e he => h e he rule List.mem_cons_self
      have hrest := fun e he r hr => h e he r (List.mem_cons_of_mem rule hr)
      rw [addRules, addRules, addRule, addRule]
      split
      · rw [foldInto_aside hrule, bind_assoc, bind_assoc]
        refine bind_congr fun out => ?_
        rw [pure_bind]
        cases out with
        | error d => rfl
        | ok rules => exact ih hrest
      · rfl

-- ---------------------------------------------------------------------------
-- Rules that do not merge
-- ---------------------------------------------------------------------------

theorem meetRules_of_sameType (h : a.sameType b = true) : meetRules meet a b = pure (.node a) := by
  rw [meetRules, meetBy, if_pos h]

/-- A rule that has merged already passes by the rules that it leaves alone. -/
theorem foldInto_merged {merged : Node} (h : ∀ e ∈ rules, meetRules meet e rule = pure .orthogonal) :
    foldInto meet rule (some merged) rules = pure (.ok rules) := by
  induction rules with
  | nil => rfl
  | cons e rest ih =>
      obtain ⟨he, hrest⟩ := List.forall_mem_cons.mp h
      rw [foldInto, he, pure_bind]
      dsimp only
      rw [ih hrest, pure_bind]
      rfl

/-- A rule of the type of one of the rules is not added again. -/
theorem foldInto_known (hdiffer : (rules.map typeId).Nodup) (hknown : rule.typeId ∈ rules.map typeId)
    (h : ∀ e ∈ rules, e.sameType rule = true ∨ meetRules meet e rule = pure .orthogonal) :
    foldInto meet rule none rules = pure (.ok rules) := by
  induction rules with
  | nil => cases hknown
  | cons e rest ih =>
      obtain ⟨he, hrest⟩ := List.forall_mem_cons.mp h
      obtain ⟨hnew, hdiffer⟩ := List.nodup_cons.mp hdiffer
      rw [foldInto]
      by_cases hsame : e.sameType rule = true
      · have htype : e.typeId = rule.typeId := beq_iff_eq.mp hsame
        have hothers : ∀ x ∈ rest, meetRules meet x rule = pure .orthogonal := fun x hx =>
          (hrest x hx).resolve_left fun hx' =>
            hnew (List.mem_map.mpr ⟨x, hx, (beq_iff_eq.mp hx').trans htype.symm⟩)
        rw [meetRules_of_sameType hsame, pure_bind]
        dsimp only
        rw [foldInto_merged hothers, pure_bind]
        rfl
      · have hknown : rule.typeId ∈ rest.map typeId :=
          (List.mem_cons.mp hknown).resolve_left fun htype => hsame (beq_iff_eq.mpr htype.symm)
        rw [he.resolve_left hsame, pure_bind]
        dsimp only
        rw [ih hdiffer hknown hrest, pure_bind]
        rfl

/-- Rules of which any two are of one type or leave each other alone: each type is kept once. -/
theorem addRules_distinct (hdiffer : (rules.map typeId).Nodup) (hmore : ∀ r ∈ more, r.kind.isConstraint = true)
    (h : ∀ e ∈ rules ++ more, ∀ r ∈ more, e.sameType r = true ∨ meetRules meet e r = pure .orthogonal) :
    ∃ kept, addRules meet rules more = pure (.ok kept) ∧ (kept.map typeId).Nodup ∧ kept ⊆ rules ++ more ∧
      (rules ++ more).map typeId ⊆ kept.map typeId := by
  induction more generalizing rules with
  | nil =>
      rw [List.append_nil]
      exact ⟨rules, rfl, hdiffer, List.Subset.refl _, List.Subset.refl _⟩
  | cons rule rest ih =>
      obtain ⟨hrule, hrest⟩ := List.forall_mem_cons.mp hmore
      have hmeets (e : Node) (he : e ∈ rules) := h e (List.mem_append_left _ he) rule List.mem_cons_self
      have hlater {e r : Node} (he : e ∈ rules ++ rule :: rest) (hr : r ∈ rest) := h e he r (List.mem_cons_of_mem rule hr)
      rw [addRules, addRule, if_pos hrule]
      by_cases hknown : rule.typeId ∈ rules.map typeId
      · have hfewer : rules ++ rest ⊆ rules ++ rule :: rest :=
          ((List.sublist_cons_self rule rest).append_left rules).subset
        obtain ⟨kept, hadds, hnodup, hsubset, htypes⟩ := ih hdiffer hrest fun e he r hr => hlater (hfewer he) hr
        rw [foldInto_known hdiffer hknown hmeets, pure_bind]
        refine ⟨kept, hadds, hnodup, List.Subset.trans hsubset hfewer, ?_⟩
        rw [List.map_append] at htypes ⊢
        obtain ⟨hrules, hothers⟩ := List.append_subset.mp htypes
        exact List.append_subset.mpr ⟨hrules, List.cons_subset.mpr ⟨hrules hknown, hothers⟩⟩
      · have hadded : ((rules ++ [rule]).map typeId).Nodup := by
          rw [List.map_append]
          exact List.nodup_append'.mpr ⟨hdiffer, List.nodup_singleton _, List.disjoint_singleton.mpr hknown⟩
        have horthogonal : ∀ e ∈ rules, meetRules meet e rule = pure .orthogonal := fun e he =>
          (hmeets e he).resolve_left fun hsame => hknown (List.mem_map.mpr ⟨e, he, beq_iff_eq.mp hsame⟩)
        rw [List.append_cons] at hlater ⊢
        rw [foldInto_orthogonal horthogonal, pure_bind]
        exact ih hadded hrest fun e he r hr => hlater he hr

-- ---------------------------------------------------------------------------
-- Kinds
-- ---------------------------------------------------------------------------

/-- If two nodes merge, then to one of their kinds. -/
def KeepsKind (a b : Node) (out : Intersected) : Prop := ∀ n, out = .node n → n.kind = a.kind ∨ n.kind = b.kind

omit [Behaviour] in
theorem keepsKind_left (a b : Node) : KeepsKind a b (.node a) := fun _ hn => .inl (by rw [← Intersected.node.inj hn])

omit [Behaviour] in
theorem keepsKind_right (a b : Node) : KeepsKind a b (.node b) := fun _ hn => .inr (by rw [← Intersected.node.inj hn])

omit [Behaviour] in
theorem keepsKind_disjoint (a b : Node) (d : Disjoint) : KeepsKind a b (.disjoint d) :=
  fun _ hn => Intersected.noConfusion hn

omit [Behaviour] in
theorem keepsKind_orthogonal (a b : Node) : KeepsKind a b .orthogonal := fun _ hn => Intersected.noConfusion hn

omit [Behaviour] in
theorem meetBounds_kind (side : BoundSide) (bound bound' : Bound) : KeepsKind a b (meetBounds side a b bound bound') := by
  unfold meetBounds
  split
  · exact keepsKind_orthogonal a b
  · split
    · exact keepsKind_left a b
    · exact keepsKind_right a b

section

variable {final : Space} (hvalid : final.Valid) (hgrows : ∀ l r, (meet l r).Grows)

include hvalid

omit [Behaviour] in
theorem internMerged_kind {content : Content Node} (h : content.kind = a.kind) :
    Along final (do return Intersected.node (← SpaceM.internPlain content)) (KeepsKind a b) := by
  refine (Along.intern hvalid).bind (fun _ => .pure _) ?_
  rintro made ⟨-, hkind⟩
  refine .pure fun n hn => .inl ?_
  rw [← Intersected.node.inj hn, hkind, h]

include hgrows

omit [Behaviour] in
theorem meetProps_kind {make : Node → Content Node} {key : PropKey} {v w : Node} (h : ∀ value, (make value).kind = a.kind) :
    Along final (meetProps meet make a b key v w) (KeepsKind a b) := by
  refine .after (hgrows v w) fun out => ?_
  cases out with
  | disjoint d => exact .pure (keepsKind_disjoint a b _)
  | orthogonal => exact .pure (keepsKind_orthogonal a b)
  | node value =>
      dsimp only
      split
      · exact .pure (keepsKind_left a b)
      · split
        · exact .pure (keepsKind_right a b)
        · exact internMerged_kind hvalid (h value)

/-- Constraints merge to one of the kinds that they are of. -/
theorem meetConstraints_kind : Along final (meetConstraints meet a b) (KeepsKind a b) := by
  have hkind {c : Content Node} (h : a.content = c) : c.kind = a.kind := by rw [kind, h]
  unfold meetConstraints
  split
  case h_1 v hv =>
    refine .pure ?_
    unfold meetUnit
    split
    · exact keepsKind_left a b
    · split <;> exact keepsKind_disjoint a b _
  case h_2 p q hp hq =>
    refine .pure ?_
    unfold meetProtos
    split
    · exact keepsKind_left a b
    · split
      · exact keepsKind_right a b
      · exact keepsKind_disjoint a b _
  case h_3 p d hp hd =>
    refine .pure ?_
    split
    · exact keepsKind_left a b
    · exact keepsKind_disjoint a b _
  case h_4 d d' hd hd' => exact .pure (keepsKind_disjoint a b _)
  case h_5 d d' hd hd' =>
    refine .after (.note _) fun _ => ?_
    split
    · exact .throw _
    · exact .pure (keepsKind_orthogonal a b)
    · split
      · exact .pure (keepsKind_left a b)
      · split
        · exact .pure (keepsKind_right a b)
        · exact internMerged_kind hvalid (hkind hd ▸ rfl)
  case h_6 x y hx hy =>
    exact .pure (meetBounds_kind _ _ _)
  case h_7 x y hx hy =>
    exact .pure (meetBounds_kind _ _ _)
  case h_8 x y hx hy =>
    refine .pure ?_
    unfold meetRange
    split
    · exact keepsKind_disjoint a b _
    · exact keepsKind_orthogonal a b
  case h_9 key v key' w hv hw =>
    split
    · exact meetProps_kind hvalid hgrows fun _ => hkind hv ▸ rfl
    · exact .pure (keepsKind_orthogonal a b)
  case h_10 key v key' w hv hw =>
    split
    · exact meetProps_kind hvalid hgrows fun _ => hkind hv ▸ rfl
    · exact .pure (keepsKind_orthogonal a b)
  case h_11 =>
    split
    · exact .pure (keepsKind_orthogonal a b)
    · exact .throw _

theorem meetRules_kind : Along final (meetRules meet a b) (KeepsKind a b) := by
  unfold meetRules meetBy
  split
  · exact .pure (keepsKind_left a b)
  · split
    · refine (meetConstraints_kind hvalid hgrows).bind (fun _ => .pure _) fun out hout => .pure ?_
      cases out with
      | node n => exact fun n' hn' => (hout n' hn').symm
      | disjoint d => exact keepsKind_disjoint a b _
      | orthogonal => exact keepsKind_orthogonal a b
    · exact meetConstraints_kind hvalid hgrows

theorem foldInto_kind {P : Kind → Prop} {merged : Option Node} (hrule : P rule.kind) (hrules : ∀ e ∈ rules, P e.kind) :
    Along final (foldInto meet rule merged rules) fun out => ∀ kept, out = .ok kept → ∀ e ∈ kept, P e.kind := by
  induction rules generalizing merged with
  | nil =>
      refine .pure ?_
      rintro kept ⟨⟩
      split
      · exact List.forall_mem_nil _
      · exact List.forall_mem_singleton.mpr hrule
  | cons e rest ih =>
      obtain ⟨he, hrest⟩ := List.forall_mem_cons.mp hrules
      have hcons {n : Node} (hn : P n.kind) (merged : Option Node) :
          Along final (do return (← foldInto meet rule merged rest).map (n :: ·)) fun out =>
            ∀ kept, out = .ok kept → ∀ e ∈ kept, P e.kind := by
        refine (ih hrest).bind (fun _ => .pure _) fun out hout => .pure ?_
        cases out with
        | error d => rintro _ ⟨⟩
        | ok kept =>
            rintro _ ⟨⟩
            exact List.forall_mem_cons.mpr ⟨hn, hout kept rfl⟩
      unfold foldInto
      refine (meetRules_kind hvalid hgrows).bind (fun out => ?_) fun out hout => ?_
      · cases out with
        | disjoint d => exact .pure _
        | orthogonal => exact (hcons he merged).grows
        | node n =>
            dsimp only
            split
            · exact .bind (foldInto_inherits .grows hgrows _ _ _) fun _ => .pure _
            · split
              · exact foldInto_inherits .grows hgrows _ _ _
              · exact .throw _
      cases out with
      | disjoint d => exact .pure (by rintro _ ⟨⟩)
      | orthogonal => exact hcons he merged
      | node n =>
          have hn : P n.kind := by
            rcases hout n rfl with hkind | hkind <;> rw [hkind]
            · exact he
            · exact hrule
          dsimp only
          split
          · exact hcons hn _
          · split
            · exact ih hrest
            · exact .throw _

theorem addRules_kind {P : Kind → Prop} (hrules : ∀ e ∈ rules, P e.kind) (hmore : ∀ e ∈ more, P e.kind) :
    Along final (addRules meet rules more) fun out => ∀ kept, out = .ok kept → ∀ e ∈ kept, P e.kind := by
  induction more generalizing rules with
  | nil =>
      refine .pure ?_
      rintro _ ⟨⟩
      exact hrules
  | cons rule rest ih =>
      obtain ⟨hrule, hrest⟩ := List.forall_mem_cons.mp hmore
      unfold addRules addRule
      split
      · refine (foldInto_kind hvalid hgrows hrule hrules).bind (fun out => ?_) fun out hout => ?_
        · cases out with
          | error d => exact .pure _
          | ok kept => exact addRules_inherits .grows hgrows kept rest
        · cases out with
          | error d => exact .pure (by rintro _ ⟨⟩)
          | ok kept => exact ih (hout kept rfl) hrest
      · exact .throw _

end

-- ---------------------------------------------------------------------------
-- Groups of refinements
-- ---------------------------------------------------------------------------

/-- Nodes that do not merge, unless they are of one type. -/
def Mergeless (nodes : List Node) : Prop := ∀ a ∈ nodes, ∀ b ∈ nodes, a.slot? = b.slot? → a.sameType b = true

/-- Refinements of one kind on two sides: in the same order, or in any order if they do not merge. -/
structure Grouped (left right : Space) (kind : Kind) (nodes nodes' : List Node) : Prop where
  kinds : ∀ n ∈ nodes, n.kind = kind
  sameTypes : SameTypes left right nodes nodes'
  order : List.Forall₂ (Twins left right) nodes nodes' ∨ kind.isRepeatable = true ∧ Mergeless nodes

/-- Refinements on two sides, kind by kind. -/
inductive Groups (left right : Space) : List Kind → List Node → List Node → Prop where
  | nil : Groups left right [] [] []
  | cons {kind : Kind} {kinds : List Kind} {nodes nodes' rest rest' : List Node}
      (h : Grouped left right kind nodes nodes') (hrest : Groups left right kinds rest rest') :
      Groups left right (kind :: kinds) (nodes ++ rest) (nodes' ++ rest')

/-- A rule that is no unit, and of none of the kinds of what is to be added. -/
structure Outside (space : Space) (kinds : List Kind) (rule : Node) : Prop where
  holds : space.Holds rule
  isConstraint : rule.kind.isConstraint = true
  not_unit : rule.kind ≠ .unit
  not_mem : rule.kind ∉ kinds

section

variable {kind : Kind} {kinds : List Kind}

omit [Behaviour]

theorem isRefinement_of_isRepeatable (h : a.kind.isRepeatable = true) : a.isRefinement = true := by
  unfold isRefinement
  generalize a.kind = kind at h
  cases kind <;> first | rfl | cases h

theorem not_clash_of_isRepeatable (h : b.kind.isRepeatable = true) : ¬ a.Clash b :=
  not_clash_of_kind (fun hkind => by rw [hkind] at h; cases h) fun hkind => by rw [hkind] at h; cases h

theorem Groups.sameTypes (h : Groups left right kinds nodes nodes') : SameTypes left right nodes nodes' := by
  induction h with
  | nil => exact sameTypes_nil
  | cons h _ ih => exact h.sameTypes.append ih

theorem Groups.kind_mem (h : Groups left right kinds nodes nodes') : ∀ n ∈ nodes, n.kind ∈ kinds := by
  induction h with
  | nil => exact List.forall_mem_nil _
  | cons h _ ih =>
      refine List.forall_mem_append.mpr ⟨fun n hn => ?_, fun n hn => List.mem_cons_of_mem _ (ih n hn)⟩
      rw [h.kinds n hn]
      exact List.mem_cons_self

/-- The first of the groups, and the others. -/
theorem Groups.split {first others : List Kind} (h : Groups left right (first ++ others) nodes nodes') :
    ∃ n n' m m', nodes = n ++ m ∧ nodes' = n' ++ m' ∧ Groups left right first n n' ∧ Groups left right others m m' := by
  induction first generalizing nodes nodes' with
  | nil => exact ⟨[], [], nodes, nodes', rfl, rfl, .nil, h⟩
  | cons kind first ih =>
      cases h with
      | @cons _ _ group group' _ _ hgroup hrest =>
          obtain ⟨n, n', m, m', rfl, rfl, hfirst, hothers⟩ := ih hrest
          exact ⟨group ++ n, group' ++ n', m, m', (List.append_assoc _ _ _).symm, (List.append_assoc _ _ _).symm,
            .cons hgroup hfirst, hothers⟩

/-- Refinements that are not repeatable are in the same order. -/
theorem Groups.inOrder (h : Groups left right kinds nodes nodes') (hkinds : ∀ kind ∈ kinds, kind.isRepeatable = false) :
    List.Forall₂ (Twins left right) nodes nodes' := by
  induction h with
  | nil => exact .nil
  | cons h _ ih =>
      obtain ⟨hkind, hkinds⟩ := List.forall_mem_cons.mp hkinds
      refine List.rel_append (h.order.resolve_right fun hmergeless => ?_) (ih hkinds)
      rw [hkind] at hmergeless
      cases hmergeless.1

variable (habreast : Abreast left right)

include habreast

theorem SameTypes.kind_forall (h : SameTypes left right nodes nodes') {P : Kind → Prop} (hnodes : ∀ n ∈ nodes, P n.kind) :
    ∀ n ∈ nodes', P n.kind := by
  intro n' hn'
  obtain ⟨n, hn, htwins⟩ := h.exists_right hn'
  exact htwins.kind_eq habreast ▸ hnodes n hn

theorem SameTypes.outside (h : SameTypes left right nodes nodes') (hnodes : ∀ n ∈ nodes, Outside left kinds n) :
    ∀ n ∈ nodes', Outside right kinds n := by
  have hconstraint := h.kind_forall habreast (P := fun kind => kind.isConstraint = true) fun n hn => (hnodes n hn).isConstraint
  have hunit := h.kind_forall habreast (P := (· ≠ .unit)) fun n hn => (hnodes n hn).not_unit
  have hfresh := h.kind_forall habreast (P := (· ∉ kinds)) fun n hn => (hnodes n hn).not_mem
  exact fun n' hn' => ⟨h.holds' n' hn', hconstraint n' hn', hunit n' hn', hfresh n' hn'⟩

theorem SameTypes.mergeless (h : SameTypes left right nodes nodes') (hnodes : Mergeless nodes) : Mergeless nodes' := by
  intro a' ha' b' hb' hslot
  obtain ⟨a, ha, htwins⟩ := h.exists_right ha'
  obtain ⟨b, hb, htwins'⟩ := h.exists_right hb'
  rw [← sameType_eq htwins htwins']
  refine hnodes a ha b hb ?_
  rw [(htwins.alike habreast).slot?_eq, (htwins'.alike habreast).slot?_eq, hslot]

end

/-- A rule of another kind leaves refinements alone. -/
theorem Outside.meetRules_eq {kinds : List Kind} (h : Outside space kinds a) (hvalid : space.Valid) (hb : space.Holds b)
    (hkind : b.kind ∈ kinds) (hrepeatable : b.kind.isRepeatable = true) : meetRules meet a b = pure .orthogonal := by
  have hrefinement := isRefinement_of_isRepeatable hrepeatable
  refine meetRules_of_kinds hvalid h.holds hb h.isConstraint h.not_unit hrefinement (fun hslot => ?_)
    (not_clash_of_isRepeatable hrepeatable)
  exact h.not_mem (kind_of_slot? hslot hrefinement ▸ hkind)

variable (meet) in
/-- Refinements of one kind that do not merge: each type is kept once. -/
theorem Mergeless.addRules_eq {kind : Kind} (h : Mergeless nodes) (hvalid : space.Valid) (hholds : ∀ n ∈ nodes, space.Holds n)
    (hkinds : ∀ n ∈ nodes, n.kind = kind) (hrepeatable : kind.isRepeatable = true) :
    ∃ kept, addRules meet [] nodes = pure (.ok kept) ∧ (kept.map typeId).Nodup ∧ kept ⊆ nodes ∧
      nodes.map typeId ⊆ kept.map typeId := by
  have hrefinement (n : Node) (hn : n ∈ nodes) : n.isRefinement = true :=
    isRefinement_of_isRepeatable (hkinds n hn ▸ hrepeatable)
  refine addRules_distinct List.nodup_nil (fun n hn => (kind_of_isRefinement (hrefinement n hn)).2.2) fun a ha b hb => ?_
  obtain ⟨hunit, -, hconstraint⟩ := kind_of_isRefinement (hrefinement a ha)
  by_cases hslot : a.slot? = b.slot?
  · exact .inl (h a ha b hb hslot)
  · exact .inr (meetRules_of_kinds hvalid (hholds a ha) (hholds b hb) hconstraint hunit (hrefinement b hb) hslot
      (not_clash_of_isRepeatable (hkinds b hb ▸ hrepeatable)))

end Node

namespace SpaceM

variable {α β : Type} {left right : Space} {x : SpaceM α} {y : SpaceM β} {P : α → Prop} {Q : α → β → Prop}

/-- What keeps in step, and what the first of the two comes to by itself. -/
theorem Lockstep.along (h : Lockstep left right x y Q) (hx : Along left x P) :
    Lockstep left right x y fun a b => Q a b ∧ P a where
  grows := h.grows
  grows' := h.grows'
  agree := by
    intro space other htidy htidy' hext hext'
    have hagree := h.agree space other htidy htidy' hext hext'
    have hresult := hx.result space htidy hext
    generalize (x.exec space).1 = out at hagree hresult ⊢
    generalize (y.exec other).1 = out' at hagree ⊢
    cases hagree with
    | ok hab => exact .ok ⟨hab, hresult _ rfl⟩
    | error herror => exact .error herror

end SpaceM

namespace Node

open Space (Twins Abreast)
open SpaceM (Along Lockstep)

variable [Behaviour] {left right : Space} {nodes nodes' rules rules' : List Node} {meet : Meet} {kind : Kind}
  {kinds : List Kind} (habreast : Abreast left right) (hblind : BlindToSign) (hmeet : Steady left right meet)

include habreast hblind hmeet

/-- Refinements of one kind are folded to the same types. -/
theorem addRules_grouped (h : Grouped left right kind nodes nodes') (hrepeatable : kind.isRepeatable = true) :
    Lockstep left right (addRules meet [] nodes) (addRules meet [] nodes')
      (Agree (fun _ _ => True) fun kept kept' => SameTypes left right kept kept' ∧ ∀ n ∈ kept, n.kind = kind) := by
  rcases h.order with horder | ⟨-, hmergeless⟩
  · have hkinds := addRules_kind (P := (· = kind)) habreast.valid hmeet.grows (List.forall_mem_nil _) h.kinds
    refine ((addRules_lockstep habreast hblind hmeet .nil horder).along hkinds).imp ?_
    rintro out out' ⟨hout, hkinds⟩
    cases hout with
    | error _ => exact .error trivial
    | ok htwins => exact .ok ⟨sameTypes_of_twins htwins, hkinds _ rfl⟩
  · obtain ⟨kept, hadds, hnodup, hsubset, htypes⟩ :=
      hmergeless.addRules_eq meet habreast.valid h.sameTypes.holds h.kinds hrepeatable
    obtain ⟨kept', hadds', hnodup', hsubset', htypes'⟩ :=
      (h.sameTypes.mergeless habreast hmergeless).addRules_eq meet habreast.valid' h.sameTypes.holds'
        (h.sameTypes.kind_forall habreast (P := (· = kind)) h.kinds) hrepeatable
    rw [hadds, hadds']
    refine .pure (.ok ⟨⟨fun n hn => h.sameTypes.holds n (hsubset hn), fun n hn => h.sameTypes.holds' n (hsubset' hn), ?_⟩,
      fun n hn => h.kinds n (hsubset hn)⟩)
    refine (List.perm_ext_iff_of_nodup hnodup hnodup').mpr fun type => ?_
    exact ⟨fun hmem => htypes' (h.sameTypes.types.subset (List.map_subset typeId hsubset hmem)),
      fun hmem => htypes (h.sameTypes.types.symm.subset (List.map_subset typeId hsubset' hmem))⟩

/-- What rules and more rules came to on two sides: more of the given kinds was added. -/
def Added (left right : Space) (rules rules' : List Node) (P : Kind → Prop) (kept kept' : List Node) : Prop :=
  ∃ more more', kept = rules ++ more ∧ kept' = rules' ++ more' ∧ SameTypes left right more more' ∧ ∀ n ∈ more, P n.kind

/-- A group is folded as if it stood alone. -/
theorem addRules_group (h : Grouped left right kind nodes nodes') (hrepeatable : kind.isRepeatable = true)
    (hkind : kind ∈ kinds) (hrules : SameTypes left right rules rules') (houtside : ∀ e ∈ rules, Outside left kinds e) :
    Lockstep left right (addRules meet rules nodes) (addRules meet rules' nodes')
      (Agree (fun _ _ => True) (Added left right rules rules' (· = kind))) := by
  have haside {space : Space} {rules nodes : List Node} (hvalid : space.Valid)
      (houtside : ∀ e ∈ rules, Outside space kinds e) (hnodes : ∀ n ∈ nodes, space.Holds n)
      (hkinds : ∀ n ∈ nodes, n.kind = kind) : addRules meet rules nodes =
        do return (← addRules meet [] nodes).map (rules ++ ·) := by
    rw [← addRules_aside fun e he n hn => (houtside e he).meetRules_eq hvalid (hnodes n hn)
      (hkinds n hn ▸ hkind) (hkinds n hn ▸ hrepeatable), List.append_nil]
  rw [haside habreast.valid houtside h.sameTypes.holds h.kinds,
    haside habreast.valid' (hrules.outside habreast houtside) h.sameTypes.holds'
      (h.sameTypes.kind_forall habreast (P := (· = kind)) h.kinds)]
  refine (addRules_grouped habreast hblind hmeet h hrepeatable).map fun out out' hout => ?_
  exact hout.map fun kept kept' hkept => ⟨kept, kept', rfl, rfl, hkept⟩

theorem addRules_groups (h : Groups left right kinds nodes nodes') (hrepeatable : ∀ kind ∈ kinds, kind.isRepeatable = true)
    (hdistinct : kinds.Nodup) (hrules : SameTypes left right rules rules') (houtside : ∀ e ∈ rules, Outside left kinds e) :
    Lockstep left right (addRules meet rules nodes) (addRules meet rules' nodes')
      (Agree (fun _ _ => True) (Added left right rules rules' (· ∈ kinds))) := by
  induction h generalizing rules rules' with
  | nil =>
      exact .pure (.ok ⟨[], [], (List.append_nil _).symm, (List.append_nil _).symm, sameTypes_nil, List.forall_mem_nil _⟩)
  | @cons kind kinds nodes nodes' rest rest' h _ ih =>
      obtain ⟨hkind, hkinds⟩ := List.forall_mem_cons.mp hrepeatable
      obtain ⟨hfresh, hdistinct⟩ := List.nodup_cons.mp hdistinct
      rw [addRules_append, addRules_append]
      refine (addRules_group habreast hblind hmeet h hkind List.mem_cons_self hrules houtside).bind ?grows ?grows'
        fun out out' hout => ?_
      case grows | grows' =>
        intro out
        cases out with
        | error d => exact .pure _
        | ok kept => exact addRules_inherits .grows hmeet.grows kept _
      cases hout with
      | error _ => exact .pure (.error trivial)
      | ok hadded =>
          obtain ⟨more, more', rfl, rfl, hmore, hmoreKinds⟩ := hadded
          have hnew (n : Node) (hn : n ∈ more) : Outside left kinds n := by
            obtain ⟨hunit, -, hconstraint⟩ :=
              kind_of_isRefinement (isRefinement_of_isRepeatable (hmoreKinds n hn ▸ hkind))
            exact ⟨hmore.holds n hn, hconstraint, hunit, hmoreKinds n hn ▸ hfresh⟩
          have hold (e : Node) (he : e ∈ rules) : Outside left kinds e :=
            ⟨(houtside e he).holds, (houtside e he).isConstraint, (houtside e he).not_unit,
              fun hmem => (houtside e he).not_mem (List.mem_cons_of_mem kind hmem)⟩
          refine (ih hkinds hdistinct (hrules.append hmore) (List.forall_mem_append.mpr ⟨hold, hnew⟩)).imp ?_
          intro out out' hout
          refine hout.imp (fun _ _ _ => trivial) ?_
          rintro _ _ ⟨others, others', rfl, rfl, hothers, hothersKinds⟩
          refine ⟨more ++ others, more' ++ others', List.append_assoc _ _ _, List.append_assoc _ _ _, hmore.append hothers,
            List.forall_mem_append.mpr ⟨fun n hn => ?_, fun n hn => List.mem_cons_of_mem kind (hothersKinds n hn)⟩⟩
          rw [hmoreKinds n hn]
          exact List.mem_cons_self

-- ---------------------------------------------------------------------------
-- Finishing
-- ---------------------------------------------------------------------------

omit hblind hmeet [Behaviour] in
/-- What is finished under any captions, if the refinements are in any order. -/
theorem finishWith_regrouped (caption caption' : Caption) {basis basis' : Option Node}
    (hbasis : Option.Rel (Twins left right) basis basis') (h : SameTypes left right nodes nodes') :
    Lockstep left right (finishWith .definition caption basis nodes) (finishWith .definition caption' basis' nodes')
      (Agree (fun _ _ => True) (Twins left right)) := by
  have hnone : firstInapplicable? basis nodes = none ↔ firstInapplicable? basis' nodes' = none := by
    rw [firstInapplicable?_eq_none, firstInapplicable?_eq_none]
    have hiff {n n' : Node} (htwins : Twins left right n n') :
        n.applicabilityError? basis = none ↔ n'.applicabilityError? basis' = none := by
      have hrel := applicabilityError?_related habreast hbasis htwins
      generalize n.applicabilityError? basis = x at hrel ⊢
      generalize n'.applicabilityError? basis' = y at hrel ⊢
      cases hrel <;> simp
    constructor
    · intro hnodes n' hn'
      obtain ⟨n, hn, htwins⟩ := h.exists_right hn'
      exact (hiff htwins).mp (hnodes n hn)
    · intro hnodes n hn
      obtain ⟨n', hn', htwins⟩ := h.exists_left hn
      exact (hiff htwins).mpr (hnodes n' hn')
  have hfits := @fits_sortConstraints basis nodes
  have hfits' := @fits_sortConstraints basis' nodes'
  have hintern (hfirst : firstInapplicable? basis nodes = none) :=
    (@Lockstep.internAs _ _ habreast _ _ caption caption' (.intersection hbasis (h.sorted habreast))
      (fun _ => hfits hfirst) fun _ => hfits' (hnone.mp hfirst)).map
        fun _ _ => Agree.ok (E := fun (_ _ : Disjoint) => True)
  have hlength : nodes.length = nodes'.length := by simpa using h.types.length_eq
  unfold finishWith
  generalize firstInapplicable? basis nodes = x at hnone hintern ⊢
  generalize firstInapplicable? basis' nodes' = y at hnone ⊢
  cases x with
  | some found =>
      cases y with
      | none => simp at hnone
      | some found' => cases hbasis <;> exact .parseError _ _
  | none =>
      rw [hnone.mp rfl]
      cases hbasis with
      | none => exact hintern rfl
      | @some b b' hb =>
          cases nodes with
          | nil =>
              obtain rfl := List.eq_nil_of_length_eq_zero hlength.symm
              have hok (caption : Caption) (n : Node) :
                  (if caption.isEmpty then return .ok n else return .ok (← SpaceM.intern n.content caption) :
                    SpaceM (Except Disjoint Node)) =
                  (if caption.isEmpty then pure n else SpaceM.intern n.content caption) >>= fun n => pure (.ok n) := by
                split <;> rfl
              dsimp only
              rw [hok caption b, hok caption' b']
              exact (Lockstep.recaption habreast hb caption caption').map fun _ _ => Agree.ok
          | cons n rest =>
              cases nodes' with
              | nil => cases hlength
              | cons n' rest' => exact hintern rfl

omit hblind hmeet habreast [Behaviour] in
theorem splitBasis_append {basis : Option Node} {more : List Node} (h : ∀ n ∈ more, n.isRefinement = true) :
    splitBasis basis (rules ++ more) = do
      let (basis, constraints) ← splitBasis basis rules
      return (basis, constraints ++ more) := by
  induction rules generalizing basis with
  | nil => rw [List.nil_append, splitBasis_refinements h]; rfl
  | cons rule rest ih =>
      rw [List.cons_append]
      unfold splitBasis
      split
      · cases basis with
        | none => exact ih
        | some existing => rfl
      · rw [ih, bind_assoc, bind_assoc]
        rfl

omit hblind hmeet in
/-- Rules in step, and refinements in any order after them. -/
theorem finish_regrouped (caption caption' : Caption) {more more' : List Node}
    (hrules : List.Forall₂ (Twins left right) rules rules') (hmore : SameTypes left right more more')
    (hrefinements : ∀ n ∈ more, n.isRefinement = true) :
    Lockstep left right (finish meet .definition caption (rules ++ more))
      (finish meet .definition caption' (rules' ++ more')) (Agree (fun _ _ => True) (Twins left right)) := by
  have hrefinements' : ∀ n ∈ more', n.isRefinement = true :=
    hmore.kind_forall habreast (P := fun kind => kind.isRefinement = true) hrefinements
  unfold finish
  rw [splitBasis_append hrefinements, splitBasis_append hrefinements']
  have hsplit : Lockstep left right
      (do
        let (basis, constraints) ← splitBasis none rules
        return (basis, constraints ++ more))
      (do
        let (basis, constraints) ← splitBasis none rules'
        return (basis, constraints ++ more')) fun parts parts' =>
      Option.Rel (Twins left right) parts.1 parts'.1 ∧ SameTypes left right parts.2 parts'.2 :=
    (splitBasis_lockstep habreast .none hrules).map fun parts parts' hparts =>
      ⟨hparts.1, (sameTypes_of_twins hparts.2).append hmore⟩
  exact hsplit.bind (fun _ => finishWith_inherits .grows _ _ _ _ (.inl trivial))
    (fun _ => finishWith_inherits .grows _ _ _ _ (.inl trivial)) fun parts parts' hparts =>
      finishWith_regrouped habreast caption caption' hparts.1 hparts.2

-- ---------------------------------------------------------------------------
-- Units
-- ---------------------------------------------------------------------------

section

variable {space : Space} {unit n : Node} {v : Value} (hvalid : space.Valid) (hunit : space.Holds unit)
  (hv : unit.content = .unit v)

omit habreast hblind hmeet

include hvalid hunit hv

theorem meetRules_of_unit (hn : space.Holds n) (hrefinement : n.isRefinement = true) :
    meetRules meet unit n = pure (if n.allows v then .node unit else .disjoint (.between .assignability unit n)) := by
  have hkind : unit.kind = .unit := by rw [Node.kind, hv]; rfl
  have hother : n.kind ≠ .unit := (kind_of_isRefinement hrefinement).1
  have horder : unit.kind.order ≤ n.kind.order := by
    rw [hkind]
    unfold isRefinement at hrefinement
    generalize n.kind = kind at hrefinement
    cases kind <;> first | cases hrefinement; done | decide
  have hne : unit.sameType n = false := Bool.eq_false_iff.mpr fun hsame =>
    hother ((hvalid.kind_eq hunit hn hsame).symm.trans hkind)
  rw [meetRules, meetBy_forth hne horder, meetConstraints, hv]
  dsimp only
  rw [meetUnit, if_neg hother]

/-- A unit absorbs the refinements that allow it. -/
theorem addRules_absorbed (hnodes : ∀ n ∈ nodes, space.Holds n ∧ n.isRefinement = true)
    (hallows : ∀ n ∈ nodes, n.allows v = true) : addRules meet [unit] nodes = pure (.ok [unit]) := by
  induction nodes with
  | nil => rfl
  | cons n rest ih =>
      obtain ⟨⟨hn, hrefinement⟩, hrest⟩ := List.forall_mem_cons.mp hnodes
      obtain ⟨hallowed, hallows⟩ := List.forall_mem_cons.mp hallows
      rw [addRules, addRule, if_pos (kind_of_isRefinement hrefinement).2.2, foldInto,
        meetRules_of_unit hvalid hunit hv hn hrefinement, if_pos hallowed]
      exact ih hrest hallows

variable (meet) in
/-- Any other refinement is in conflict with it. -/
theorem addRules_refused (hnodes : ∀ n ∈ nodes, space.Holds n ∧ n.isRefinement = true)
    (hrefused : ∃ n ∈ nodes, n.allows v = false) : ∃ d, addRules meet [unit] nodes = pure (.error d) := by
  induction nodes with
  | nil => exact absurd hrefused (by simp)
  | cons n rest ih =>
      obtain ⟨⟨hn, hrefinement⟩, hrest⟩ := List.forall_mem_cons.mp hnodes
      rw [addRules, addRule, if_pos (kind_of_isRefinement hrefinement).2.2, foldInto,
        meetRules_of_unit hvalid hunit hv hn hrefinement]
      by_cases hallowed : n.allows v = true
      · rw [List.exists_mem_cons_iff, hallowed] at hrefused
        rw [if_pos hallowed]
        exact ih hrest (hrefused.resolve_left (by simp))
      · rw [if_neg hallowed]
        exact ⟨_, rfl⟩

end

omit hmeet in
theorem addRules_unit {unit unit' : Node} (hunit : Twins left right unit unit') (hkind : unit.kind = .unit)
    (h : SameTypes left right nodes nodes') (hrefinements : ∀ n ∈ nodes, n.isRefinement = true) :
    Lockstep left right (addRules meet [unit] nodes) (addRules meet [unit'] nodes')
      (Agree (fun _ _ => True) fun kept kept' => kept = [unit] ∧ kept' = [unit']) := by
  obtain ⟨v, hv⟩ := unit_of_kind hkind
  obtain ⟨v', hv'⟩ := unit_of_kind ((hunit.kind_eq habreast).symm.trans hkind)
  have hvalues : v.unsigned = v'.unsigned := by
    have hcontent := hunit.content habreast
    rw [hv, hv'] at hcontent
    cases hcontent with
    | unit h => exact h
  have hallows {n n' : Node} (htwins : Twins left right n n') : n.allows v = n'.allows v' := by
    rw [htwins.allows_eq habreast, ← allows_unsigned hblind, hvalues, allows_unsigned hblind]
  have hnodes (n : Node) (hn : n ∈ nodes) := And.intro (h.holds n hn) (hrefinements n hn)
  have hnodes' (n : Node) (hn : n ∈ nodes') := And.intro (h.holds' n hn)
    (h.kind_forall habreast (P := fun kind => kind.isRefinement = true) hrefinements n hn)
  by_cases hall : ∀ n ∈ nodes, n.allows v = true
  · have hall' : ∀ n ∈ nodes', n.allows v' = true := by
      intro n' hn'
      obtain ⟨n, hn, htwins⟩ := h.exists_right hn'
      exact hallows htwins ▸ hall n hn
    rw [addRules_absorbed habreast.valid hunit.holds hv hnodes hall,
      addRules_absorbed habreast.valid' hunit.holds' hv' hnodes' hall']
    exact .pure (.ok ⟨rfl, rfl⟩)
  · have hrefused : ∃ n ∈ nodes, n.allows v = false := by simpa using hall
    have hrefused' : ∃ n ∈ nodes', n.allows v' = false := by
      obtain ⟨n, hn, hrefuses⟩ := hrefused
      obtain ⟨n', hn', htwins⟩ := h.exists_left hn
      exact ⟨n', hn', hallows htwins ▸ hrefuses⟩
    obtain ⟨d, hd⟩ := addRules_refused meet habreast.valid hunit.holds hv hnodes hrefused
    obtain ⟨d', hd'⟩ := addRules_refused meet habreast.valid' hunit.holds' hv' hnodes' hrefused'
    rw [hd, hd']
    exact .pure (.error trivial)

-- ---------------------------------------------------------------------------
-- Definitions
-- ---------------------------------------------------------------------------

/-- Rules in step, and refinements in any order after them. -/
def Reordered (left right : Space) (rules rules' : List Node) : Prop :=
  ∃ heads heads' more more', rules = heads ++ more ∧ rules' = heads' ++ more' ∧
    List.Forall₂ (Twins left right) heads heads' ∧ SameTypes left right more more' ∧
      ∀ n ∈ more, n.isRefinement = true

omit habreast hblind hmeet [Behaviour] in
theorem toList_twins {basis basis' : Option Node} (h : Option.Rel (Twins left right) basis basis') :
    List.Forall₂ (Twins left right) basis.toList basis'.toList := by
  cases h with
  | none => exact .nil
  | some h => exact .cons h .nil

/-- A kind of constraints that neither absorb refinements which may be repeated nor are such refinements. -/
abbrev LeavesAlone (kind : Kind) : Prop := kind.isConstraint = true ∧ kind ≠ .unit ∧ kind.isRepeatable = false

/-- Beside anything but a unit, each kind of refinements is folded as if it stood alone. -/
theorem addRules_beside_groups {heads heads' : List Node} (hheads : List.Forall₂ (Twins left right) heads heads')
    (hconstraints : ∀ e ∈ heads, LeavesAlone e.kind)
    (h : Groups left right [.pattern, .predicate, .required, .optional] nodes nodes') :
    Lockstep left right (addRules meet [] (heads ++ nodes)) (addRules meet [] (heads' ++ nodes'))
      (Agree (fun _ _ => True) (Reordered left right)) := by
  have hkinds : Along left (addRules meet [] heads) fun out => ∀ kept, out = .ok kept → ∀ e ∈ kept, LeavesAlone e.kind :=
    addRules_kind habreast.valid hmeet.grows (List.forall_mem_nil _) hconstraints
  rw [addRules_append, addRules_append]
  refine ((addRules_lockstep habreast hblind hmeet .nil hheads).along hkinds).bind ?grows ?grows' ?_
  case grows | grows' =>
    intro out
    cases out with
    | error d => exact .pure _
    | ok kept => exact addRules_inherits .grows hmeet.grows kept _
  rintro out out' ⟨hout, hkinds⟩
  cases hout with
  | error _ => exact .pure (.error trivial)
  | @ok kept kept' hkept =>
      have hsame := sameTypes_of_twins hkept
      have hrepeatable : ∀ kind ∈ [Kind.pattern, .predicate, .required, .optional], kind.isRepeatable = true := by decide
      have houtside (e : Node) (he : e ∈ kept) : Outside left [.pattern, .predicate, .required, .optional] e := by
        obtain ⟨hconstraint, hunit, hlone⟩ := hkinds kept rfl e he
        exact ⟨hsame.holds e he, hconstraint, hunit, fun hmem => absurd (hrepeatable e.kind hmem) (by simp [hlone])⟩
      refine (addRules_groups habreast hblind hmeet h hrepeatable (by decide) hsame houtside).imp fun out out' hout => ?_
      refine hout.imp (fun _ _ _ => trivial) ?_
      rintro _ _ ⟨more, more', rfl, rfl, hmore, hmoreKinds⟩
      exact ⟨kept, kept', more, more', rfl, rfl, hkept, hmore, fun n hn =>
        isRefinement_of_isRepeatable (hrepeatable n.kind (hmoreKinds n hn))⟩

theorem addRules_regrouped {basis basis' : Option Node} (hbasis : Option.Rel (Twins left right) basis basis')
    (hisBasis : ∀ b ∈ basis, b.isBasis = true) (h : Groups left right Kind.refinements nodes nodes') :
    Lockstep left right (addRules meet [] (basis.toList ++ nodes)) (addRules meet [] (basis'.toList ++ nodes'))
      (Agree (fun _ _ => True) (Reordered left right)) := by
  have hrefinements (n : Node) (hn : n ∈ nodes) : n.isRefinement = true := by
    have hmem := h.kind_mem n hn
    unfold isRefinement
    generalize n.kind = kind at hmem ⊢
    revert kind
    decide
  by_cases hunit : ∃ b ∈ basis, b.kind = .unit
  · obtain ⟨b, hb, hkind⟩ := hunit
    cases hbasis with
    | none => cases hb
    | @some unit unit' htwins =>
        obtain rfl : unit = b := Option.some.inj hb
        have hfirst {unit : Node} (hkind : unit.kind = .unit) (nodes : List Node) :
            addRules meet [] ((some unit).toList ++ nodes) = addRules meet [unit] nodes := by
          rw [Option.toList_some, List.singleton_append, addRules, addRule, if_pos (by rw [hkind]; rfl)]
          rfl
        rw [hfirst hkind, hfirst ((htwins.kind_eq habreast).symm.trans hkind)]
        refine (addRules_unit habreast hblind htwins hkind h.sameTypes hrefinements).imp fun out out' hout => ?_
        refine hout.imp (fun _ _ _ => trivial) ?_
        rintro _ _ ⟨rfl, rfl⟩
        exact ⟨[unit], [unit'], [], [], rfl, rfl, .cons htwins .nil, sameTypes_nil, List.forall_mem_nil _⟩
  · obtain ⟨low, low', high, high', rfl, rfl, hlow, hhigh⟩ :=
      @Groups.split left right nodes nodes' [.divisor, .max, .min] [.pattern, .predicate, .required, .optional] h
    rw [← List.append_assoc, ← List.append_assoc]
    refine addRules_beside_groups habreast hblind hmeet
      (List.rel_append (toList_twins hbasis) (hlow.inOrder (by decide))) (List.forall_mem_append.mpr ⟨?_, ?_⟩) hhigh
    · intro b hb
      have hb : b ∈ basis := Option.mem_toList.mp hb
      have hkind := hisBasis b hb
      refine ⟨isConstraint_of_isBasis hkind, fun hunit' => hunit ⟨b, hb, hunit'⟩, ?_⟩
      unfold isBasis at hkind
      generalize b.kind = kind at hkind
      cases kind <;> first | rfl | cases hkind
    · intro n hn
      have hmem := hlow.kind_mem n hn
      generalize n.kind = kind at hmem
      revert kind
      decide

omit hmeet in
/-- Refinements of one kind can be written in any order, if they do not merge: what is defined is of the same type. -/
theorem ofDefinition_regrouped {basis basis' : Option Node} (hbasis : Option.Rel (Twins left right) basis basis')
    (hisBasis : ∀ b ∈ basis, b.isBasis = true) (h : Groups left right Kind.refinements nodes nodes')
    (caption caption' : Caption) :
    Lockstep left right (ofDefinition basis nodes caption) (ofDefinition basis' nodes' caption') (Twins left right) := by
  have hsame := (sameTypes_of_twins (toList_twins hbasis)).append h.sameTypes
  have hnesting : listNesting (basis.toList ++ nodes) = listNesting (basis'.toList ++ nodes') := by
    obtain ⟨order, hperm, horder⟩ := hsame.exists_order
    exact (listNesting_perm hperm).trans (listNesting_eq habreast horder)
  have hconstraints (n : Node) (hn : n ∈ basis.toList ++ nodes) : n.kind.isConstraint = true := by
    rcases List.mem_append.mp hn with hb | hn
    · exact isConstraint_of_isBasis (hisBasis n (Option.mem_toList.mp hb))
    · have hmem := h.kind_mem n hn
      generalize n.kind = kind at hmem ⊢
      revert kind
      decide
  have hmeet := conjoinWithin_steady habreast hblind (listNesting (basis.toList ++ nodes))
  rw [ofDefinition, ofDefinition, ← hnesting, ofDefinitionBy, ofDefinitionBy, flatMap_rules hconstraints,
    flatMap_rules (hsame.kind_forall habreast (P := fun kind => kind.isConstraint = true) hconstraints)]
  refine (addRules_regrouped habreast hblind hmeet hbasis hisBasis h).bind ?grows ?grows' fun out out' hout => ?_
  case grows | grows' =>
    intro out
    cases out with
    | error d => exact .throw _
    | ok rules =>
        refine .bind (finish_inherits .grows hmeet.grows .definition _ rules (.inl trivial)) fun out => ?_
        cases out with
        | error d => exact .throw _
        | ok n => exact .pure _
  cases hout with
  | error _ => exact .parseError _ _
  | ok hkept =>
      obtain ⟨heads, heads', more, more', rfl, rfl, hheads, hmore, hrefinements⟩ := hkept
      refine (finish_regrouped habreast caption caption' hheads hmore hrefinements).bind ?grows ?grows'
        fun out out' hout => ?_
      case grows | grows' =>
        intro out
        cases out with
        | error d => exact .throw _
        | ok n => exact .pure _
      cases hout with
      | error _ => exact .parseError _ _
      | ok hn => exact .pure hn

end Node

end SchemaAlgebra
