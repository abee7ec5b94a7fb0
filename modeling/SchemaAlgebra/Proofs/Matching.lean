-- SUMMARY: Nodes of different spaces that match: one structure, whatever the names and the order of branches and rules.
import SchemaAlgebra.Proofs.Unions
import Mathlib.Data.List.Perm.Basic

/-!
# Matching nodes

Texts of different spaces cannot be compared: they refer to things by other names,
and branches and rules are sorted by them. What remains of a node is its structure,
with branches and rules in any order. Nodes that match in this way accept the same
values, and in one space they are of one type.
-/

namespace SchemaAlgebra

theorem forall₂_map_eq {α β γ : Type} {f : α → γ} {g : β → γ} {l : List α} {l' : List β} :
    List.Forall₂ (fun a b => f a = g b) l l' ↔ l.map f = l'.map g := by
  rw [← List.forall₂_eq_eq_eq, List.forall₂_map_left_iff, List.forall₂_map_right_iff]

theorem forall₂_imp_of_mem {α β : Type} {r s : α → β → Prop} {l : List α} {l' : List β} (h : List.Forall₂ r l l')
    (himp : ∀ a ∈ l, ∀ b ∈ l', r a b → s a b) : List.Forall₂ s l l' := by
  obtain ⟨hlength, hpairs⟩ := List.forall₂_iff_zip.mp h
  refine List.forall₂_iff_zip.mpr ⟨hlength, fun {a b} hp => ?_⟩
  exact himp a (List.of_mem_zip hp).1 b (List.of_mem_zip hp).2 (hpairs hp)

/-- Relations compose element by element. -/
theorem forall₂_trans_of {α : Type} {r : α → α → Prop} {l m n : List α}
    (htrans : ∀ a ∈ l, ∀ {b c}, r a b → r b c → r a c) (h : List.Forall₂ r l m) (h' : List.Forall₂ r m n) :
    List.Forall₂ r l n := by
  induction h generalizing n with
  | nil => cases h'; exact .nil
  | cons hab _ ih =>
      cases h' with
      | cons hbc hrest =>
          exact .cons (htrans _ List.mem_cons_self hab hbc)
            (ih (fun a ha => htrans a (List.mem_cons_of_mem _ ha)) hrest)

theorem forall₂_isEmpty {α β : Type} {r : α → β → Prop} {l : List α} {l' : List β} (h : List.Forall₂ r l l') :
    l.isEmpty = l'.isEmpty := by
  cases h <;> rfl

/-- What is found first in related lists. -/
theorem forall₂_findSome? {α β γ δ : Type} {r : α → β → Prop} {s : γ → δ → Prop} {f : α → Option γ}
    {g : β → Option δ} {l : List α} {l' : List β} (h : List.Forall₂ r l l') (hfg : ∀ {a b}, r a b → Option.Rel s (f a) (g b)) :
    Option.Rel s (l.findSome? f) (l'.findSome? g) := by
  induction h with
  | nil => exact .none
  | @cons a b rest rest' hab _ ih =>
      have hfirst := hfg hab
      rw [List.findSome?_cons, List.findSome?_cons]
      generalize f a = x at hfirst ⊢
      generalize g b = y at hfirst ⊢
      cases hfirst with
      | some h => exact .some h
      | none => exact ih

namespace Content

variable {ν μ : Type}

/-- The nodes of the content stand in an order that means something, and are not sorted by their texts. -/
def arranged : Content ν → Bool
  | .union _ ordered => ordered
  | .intersection _ _ => false
  | _ => true

theorem not_intersection_of_arranged {content : Content ν} (h : content.arranged = true) :
    content.kind ≠ .intersection := by
  intro hkind
  cases content with
  | intersection basis constraints => cases h
  | _ => cases hkind

theorem arranged_outline (content : Content ν) : content.outline.arranged = content.arranged := by
  cases content <;> rfl

theorem arranged_eq_of_outline {a : Content ν} {b : Content μ} (h : a.outline = b.outline) :
    a.arranged = b.arranged := by
  rw [← arranged_outline, h, arranged_outline]

@[simp] theorem outline_map (f : ν → μ) (content : Content ν) : (content.map f).outline = content.outline := by
  cases content <;> rfl

theorem outline_unsigned (content : Content ν) : content.unsigned.outline = content.outline := by
  cases content <;> simp [unsigned, outline, Value.unsigned_unsigned, Bound.unsigned]

/-- A content other than an intersection is what it says apart from its nodes, with these. -/
theorem map_eq_of_children {f : ν → μ} {a b : Content ν} (houtline : a.outline = b.outline)
    (hkind : a.kind ≠ .intersection) (h : a.children.map f = b.children.map f) :
    (a.map f).unsigned = (b.map f).unsigned := by
  cases a with
  | union branches ordered =>
      cases b with
      | union branches' ordered' =>
          obtain rfl : ordered = ordered' := (Content.union.inj houtline).2
          rw [map, map, show branches.map f = branches'.map f from h]
      | _ => cases houtline
  | morph input output transforms =>
      cases b with
      | morph input' output' transforms' =>
          obtain rfl : transforms = transforms' := (Content.morph.inj houtline).2.2
          obtain ⟨hinput, houtput⟩ := List.cons.inj h
          cases output <;> cases output' <;> simp_all [map]
      | _ => cases houtline
  | required key value =>
      cases b with
      | required key' value' =>
          obtain rfl : key = key' := (Content.required.inj houtline).1
          rw [map, map, (List.cons.inj h).1]
      | _ => cases houtline
  | optional key value =>
      cases b with
      | optional key' value' =>
          obtain rfl : key = key' := (Content.optional.inj houtline).1
          rw [map, map, (List.cons.inj h).1]
      | _ => cases houtline
  | intersection basis constraints => exact absurd rfl hkind
  | _ => cases b <;> simp_all [outline, map, unsigned]

theorem unsigned_eq_of_children {a b : Content ν} (houtline : a.outline = b.outline) (hkind : a.kind ≠ .intersection)
    (h : a.children = b.children) : a.unsigned = b.unsigned := by
  have hmap := map_eq_of_children houtline hkind (congrArg (List.map fun n => n) h)
  rwa [map_self, map_self] at hmap

end Content

namespace Node

variable {a b c : Node}

/-- Nodes of one structure. The nodes in the first match those in the second, in some order unless there is one that
means something. -/
inductive Matches : Node → Node → Prop where
  | mk {a b : Node} {order : List Node} (houtline : a.content.outline = b.content.outline)
      (hchildren : List.Forall₂ Matches a.children order) (hperm : order.Perm b.children)
      (harranged : a.content.arranged = true → order = b.children) : Matches a b

theorem Matches.outline (h : a.Matches b) : a.content.outline = b.content.outline := by
  cases h
  assumption

theorem Matches.kind_eq (h : a.Matches b) : a.kind = b.kind := Content.kind_eq_of_outline h.outline

-- ---------------------------------------------------------------------------
-- Equivalence
-- ---------------------------------------------------------------------------

theorem Matches.refl (node : Node) : node.Matches node := by
  induction node using induct with
  | step content caption profile ih => exact .mk rfl (List.forall₂_same.mpr ih) (.refl _) fun _ => rfl

theorem Matches.symm (h : a.Matches b) : b.Matches a := by
  induction a using induct generalizing b with
  | step content caption profile ih =>
      obtain ⟨houtline, hchildren, hperm, harranged⟩ := h
      rename_i order
      have hback : List.Forall₂ Matches order content.children :=
        List.Forall₂.flip (forall₂_imp_of_mem hchildren fun c hc d _ hcd => ih c hc hcd)
      by_cases hb : b.content.arranged = true
      · rw [harranged ((Content.arranged_eq_of_outline houtline).trans hb)] at hback
        exact .mk houtline.symm hback (.refl _) fun _ => rfl
      · obtain ⟨order', hchildren', hperm'⟩ := List.perm_comp_forall₂ hperm.symm hback
        exact .mk houtline.symm hchildren' hperm' fun h => absurd h hb

theorem Matches.trans (h : a.Matches b) (h' : b.Matches c) : a.Matches c := by
  induction a using induct generalizing b c with
  | step content caption profile ih =>
      obtain ⟨houtline, hchildren, hperm, harranged⟩ := h
      obtain ⟨houtline', hchildren', hperm', harranged'⟩ := h'
      rename_i order order'
      by_cases ha : content.arranged = true
      · have hb : b.content.arranged = true := (Content.arranged_eq_of_outline houtline).symm.trans ha
        rw [← harranged ha, harranged' hb] at hchildren'
        exact .mk (houtline.trans houtline') (forall₂_trans_of ih hchildren hchildren') (.refl _) fun _ => rfl
      · obtain ⟨order'', hchildren'', hperm''⟩ := List.perm_comp_forall₂ hperm hchildren'
        exact .mk (houtline.trans houtline') (forall₂_trans_of ih hchildren hchildren'') (hperm''.trans hperm')
          fun h => absurd h ha

/-- Nodes whose plain nodes are equal match. -/
theorem matches_of_plain {registry : Registry} (h : a.plain registry = b.plain registry) : a.Matches b := by
  induction a using induct generalizing b with
  | step content caption profile ih =>
      have hcontent := congrArg Node.content h
      rw [content_plain, content_plain] at hcontent
      have houtline := congrArg Content.outline hcontent
      rw [Content.outline_unsigned, Content.outline_unsigned, Content.outline_map, Content.outline_map] at houtline
      have hplain := congrArg Node.children h
      rw [children_plain, children_plain] at hplain
      exact .mk houtline (forall₂_imp_of_mem (forall₂_map_eq.mpr hplain) fun c hc d _ hcd => ih c hc hcd) (.refl _)
        fun _ => rfl

-- ---------------------------------------------------------------------------
-- Matching nodes of one space
-- ---------------------------------------------------------------------------

variable {space : Space}

/-- Branches that are not told apart when they are sorted are the same. -/
theorem plain_eq_of_tied_branches (hvalid : space.Valid) (hregular : space.Regular) (ha : space.Holds a)
    (hb : space.Holds b) (hbranch : a.kind.isBranch = true) (hbranch' : b.kind.isBranch = true)
    (h : tied branchLE a b = true) : a.plain space.registry = b.plain space.registry := by
  have hwritten := hvalid.everywhere_written ha
  have hwritten' := hvalid.everywhere_written hb
  obtain ⟨hab, hba⟩ := Bool.and_eq_true_iff.mp h
  have hcompact := String.le_antisymm (of_decide_eq_true hab) (of_decide_eq_true hba)
  have hjson : Content.childJson false a = Content.childJson false b :=
    Json.compact_injective (isFinite_childJson hwritten false) (isFinite_childJson hwritten' false) hcompact
  exact plain_eq_of_childJson hvalid.lawful hwritten hwritten' (hregular.everywhere_exact hvalid ha)
    (hregular.everywhere_exact hvalid hb) (kind_eq_of_root hwritten.self hwritten'.self
      (branch_not_refinement hbranch) (branch_not_refinement hbranch') hjson) hjson

/-- Rules that are not told apart when they are sorted are the same. -/
theorem plain_eq_of_tied_rules (hvalid : space.Valid) (hregular : space.Regular) (ha : space.Holds a)
    (hb : space.Holds b) (h : tied constraintLE a b = true) : a.plain space.registry = b.plain space.registry := by
  obtain ⟨hab, hba⟩ := Bool.and_eq_true_iff.mp h
  rw [constraintLE_iff] at hab hba
  have hid : a.typeId = b.typeId := by
    rcases hab with hlt | ⟨horder, hle⟩ <;> rcases hba with hlt' | ⟨horder', hle'⟩
    · omega
    · omega
    · omega
    · exact String.le_antisymm hle hle'
  exact plain_eq_of_typeId hvalid.lawful (hvalid.everywhere_written ha) (hvalid.everywhere_written hb)
    (hregular.everywhere_exact hvalid ha) (hregular.everywhere_exact hvalid hb) hid

theorem branchLE_plain (hvalid : space.Valid) (ha : space.Holds a) (hb : space.Holds b) :
    branchLE (a.plain space.registry) (b.plain space.registry) = branchLE a b := by
  rw [branchLE, typeJson_plain (hvalid.everywhere_written ha), typeJson_plain (hvalid.everywhere_written hb), branchLE]

theorem constraintLE_plain (hvalid : space.Valid) (ha : space.Holds a) (hb : space.Holds b) :
    constraintLE (a.plain space.registry) (b.plain space.registry) = constraintLE a b := by
  rw [constraintLE, kind_plain, kind_plain, typeId_plain (hvalid.everywhere_written ha),
    typeId_plain (hvalid.everywhere_written hb), constraintLE]

/-- The rules of an intersection are in order with its basis in front. -/
theorem Settled.sorted_rules {basis : Option Node} {constraints : List Node} (h : Settled basis constraints) :
    (basis.toList ++ constraints).Pairwise (constraintLE · ·) := by
  refine List.pairwise_append.mpr ⟨?_, h.sorted, fun b hb c hc => ?_⟩
  · cases basis <;> simp
  · have hbasis := h.isBasis b (Option.mem_toList.mp hb)
    have hrefinement := h.areRefinements c hc
    rw [Node.isBasis] at hbasis
    rw [isRefinement] at hrefinement
    refine constraintLE_iff.mpr (.inl ?_)
    revert hbasis hrefinement
    generalize b.kind = kind
    generalize c.kind = kind'
    cases kind <;> cases kind' <;> decide

/-- Rules with the same images are the same basis and the same constraints, if images keep the kind. -/
theorem rules_eq_of_map {f : Node → Node} (hkind : ∀ n, (f n).kind = n.kind) {basis basis' : Option Node}
    {constraints constraints' : List Node} (h : Settled basis constraints) (h' : Settled basis' constraints')
    (hmap : (basis.toList ++ constraints).map f = (basis'.toList ++ constraints').map f) :
    basis.map f = basis'.map f ∧ constraints.map f = constraints'.map f := by
  have hdiffer {b c : Node} (hb : b.isBasis = true) (hc : c.isRefinement = true) : f b ≠ f c := by
    intro heq
    have hsame := (hkind b).symm.trans ((congrArg Node.kind heq).trans (hkind c))
    have hnot := basis_not_refinement hb
    rw [hsame, ← isRefinement, hc] at hnot
    cases hnot
  cases basis with
  | none =>
      cases basis' with
      | none => exact ⟨rfl, hmap⟩
      | some b' =>
          cases constraints with
          | nil => cases hmap
          | cons c rest =>
              have hhead := (List.cons.inj hmap).1
              exact absurd hhead.symm (hdiffer (h'.isBasis b' rfl) (h.areRefinements c List.mem_cons_self))
  | some b =>
      cases basis' with
      | none =>
          cases constraints' with
          | nil => cases hmap
          | cons c rest =>
              have hhead := (List.cons.inj hmap).1
              exact absurd hhead (hdiffer (h.isBasis b rfl) (h'.areRefinements c List.mem_cons_self))
      | some b' =>
          obtain ⟨hhead, htail⟩ := List.cons.inj hmap
          exact ⟨congrArg some hhead, htail⟩

/-- Nodes of one space that match have one plain node. -/
theorem Matches.plain_eq (hvalid : space.Valid) (hregular : space.Regular) (ha : space.Holds a) (hb : space.Holds b)
    (h : a.Matches b) : a.plain space.registry = b.plain space.registry := by
  induction a using induct generalizing b with
  | step content caption profile ih =>
      obtain ⟨houtline, hchildren, hperm, harranged⟩ := h
      rename_i order
      have hheld := hvalid.closed _ ha
      have hheld' := hvalid.closed _ hb
      have hplain : content.children.map (plain space.registry) = order.map (plain space.registry) := by
        refine forall₂_map_eq.mp (forall₂_imp_of_mem hchildren fun c hc d hd hcd => ?_)
        exact ih c hc (hheld c hc) (hheld' d (hperm.mem_iff.mp hd)) hcd
      have hpermuted : (content.children.map (plain space.registry)).Perm (b.children.map (plain space.registry)) := by
        rw [hplain]
        exact hperm.map _
      refine plain_eq_of_content ?_
      by_cases hfixed : content.arranged = true
      · exact Content.map_eq_of_children houtline (Content.not_intersection_of_arranged hfixed)
          (hplain.trans (congrArg _ (harranged hfixed)))
      -- Branches of unordered unions and rules of intersections are sorted, so that their order can be left out.
      have hsound := (hvalid.written _ ha).sound
      have hsound' := (hvalid.written b hb).sound
      have hcanonical := hvalid.canonical _ ha
      have hcanonical' := hvalid.canonical b hb
      rw [children] at hheld' hpermuted
      cases content with
      | union branches ordered =>
          refine Content.map_eq_of_children houtline (fun h => by cases h) ?_
          cases hcontent : b.content with
          | union branches' ordered' =>
              rw [hcontent] at houtline hheld' hpermuted hsound' hcanonical'
              obtain rfl : ordered = ordered' := (Content.union.inj houtline).2
              have hnot : ordered = false := by simpa [Content.arranged] using hfixed
              refine map_eq_of_sorted (P := fun n => space.Holds n ∧ n.kind.isBranch = true)
                (fun x y hx hy => branchLE_plain hvalid hx.1 hy.1)
                (fun x y hx hy => plain_eq_of_tied_branches hvalid hregular hx.1 hy.1 hx.2 hy.2)
                (fun x hx => ⟨hheld x hx, hsound x hx⟩) (fun y hy => ⟨hheld' y hy, hsound' y hy⟩) ?_ ?_ hpermuted
              · exact (hcanonical.1 hnot).imp decide_eq_true
              · exact (hcanonical'.1 hnot).imp decide_eq_true
          | _ => rw [hcontent] at houtline; cases houtline
      | intersection basis constraints =>
          cases hcontent : b.content with
          | intersection basis' constraints' =>
              rw [hcontent] at hheld' hpermuted hsound'
              have hrules := map_eq_of_sorted (P := space.Holds) (fun _ _ => constraintLE_plain hvalid)
                (fun _ _ => plain_eq_of_tied_rules hvalid hregular) hheld hheld' (Settled.sorted_rules hsound)
                (Settled.sorted_rules hsound') hpermuted
              obtain ⟨hbasis, hconstraints⟩ := rules_eq_of_map (kind_plain space.registry) hsound hsound' hrules
              exact congrArg Content.unsigned (congrArg₂ Content.intersection hbasis hconstraints)
          | _ => rw [hcontent] at houtline; cases houtline
      | _ => exact absurd rfl hfixed

/-- In one space, the nodes that match are those of one type. -/
theorem matches_iff_typeId (hvalid : space.Valid) (hregular : space.Regular) (ha : space.Holds a)
    (hb : space.Holds b) : a.Matches b ↔ a.typeId = b.typeId := by
  have hwritten := hvalid.everywhere_written ha
  have hwritten' := hvalid.everywhere_written hb
  constructor
  · intro h
    rw [← typeId_plain hwritten, h.plain_eq hvalid hregular ha hb, typeId_plain hwritten']
  · intro h
    exact matches_of_plain (plain_eq_of_typeId hvalid.lawful hwritten hwritten' (hregular.everywhere_exact hvalid ha)
      (hregular.everywhere_exact hvalid hb) h)

-- ---------------------------------------------------------------------------
-- Acceptance
-- ---------------------------------------------------------------------------

variable [Behaviour]

theorem anyAllows_of_forall₂ {l l' : List Node} {v : Value}
    (h : List.Forall₂ (fun c d => ∀ v, c.allows v = d.allows v) l l') : anyAllows l v = anyAllows l' v := by
  induction h with
  | nil => rfl
  | cons hcd _ ih => rw [anyAllows_cons, anyAllows_cons, hcd, ih]

theorem everyAllows_of_forall₂ {l l' : List Node} {v : Value}
    (h : List.Forall₂ (fun c d => ∀ v, c.allows v = d.allows v) l l') : everyAllows l v = everyAllows l' v := by
  induction h with
  | nil => rfl
  | cons hcd _ ih => rw [everyAllows, everyAllows, hcd, ih]

/-- Nodes that match accept the same values, wherever they were written. -/
theorem Matches.allows_eq {registry registry' : Registry} (h : a.Matches b) (ha : a.Everywhere (Written registry))
    (hb : b.Everywhere (Written registry')) (v : Value) : a.allows v = b.allows v := by
  induction a using induct generalizing b v with
  | step content caption profile ih =>
      obtain ⟨houtline, hchildren, hperm, harranged⟩ := h
      rename_i order
      have hsame : List.Forall₂ (fun c d => ∀ v, c.allows v = d.allows v) content.children order :=
        forall₂_imp_of_mem hchildren fun c hc d hd hcd =>
          ih c hc hcd (ha.child hc) (hb.child (hperm.mem_iff.mp hd))
      rw [ha.self.allows, hb.self.allows]
      change Content.allows none content v = _
      replace houtline : content.outline = b.content.outline := houtline
      rw [children] at hperm harranged
      cases content with
      | union branches ordered =>
          cases hcontent : b.content with
          | union branches' ordered' =>
              rw [hcontent] at hperm
              rw [allows_of_union_content, allows_of_union_content]
              exact (anyAllows_of_forall₂ hsame).trans (anyAllows_perm hperm v)
          | _ => rw [hcontent] at houtline; cases houtline
      | morph input output transforms =>
          rw [harranged rfl] at hsame
          cases hcontent : b.content with
          | morph input' output' transforms' =>
              rw [hcontent] at hsame
              exact (List.forall₂_cons.mp hsame).1 v
          | _ => rw [hcontent] at houtline; cases houtline
      | intersection basis constraints =>
          cases hcontent : b.content with
          | intersection basis' constraints' =>
              rw [hcontent] at hperm
              rw [Content.allows, Content.allows, ← everyAllows_toList, ← everyAllows_toList, ← everyAllows_append,
                ← everyAllows_append]
              exact (everyAllows_of_forall₂ hsame).trans (everyAllows_perm hperm v)
          | _ => rw [hcontent] at houtline; cases houtline
      | required key value =>
          rw [harranged rfl] at hsame
          cases hcontent : b.content with
          | required key' value' =>
              rw [hcontent] at hsame houtline
              obtain rfl : key = key' := (Content.required.inj houtline).1
              simp only [Content.allows]
              cases v.get? key with
              | none => rfl
              | some x => exact (List.forall₂_cons.mp hsame).1 x
          | _ => rw [hcontent] at houtline; cases houtline
      | optional key value =>
          rw [harranged rfl] at hsame
          cases hcontent : b.content with
          | optional key' value' =>
              rw [hcontent] at hsame houtline
              obtain rfl : key = key' := (Content.optional.inj houtline).1
              simp only [Content.allows]
              cases v.get? key with
              | none => rfl
              | some x => exact (List.forall₂_cons.mp hsame).1 x
          | _ => rw [hcontent] at houtline; cases houtline
      | _ =>
          rw [harranged rfl] at hsame
          have hnone := List.forall₂_nil_left_iff.mp hsame
          rw [← allows_content_unsigned,
            Content.unsigned_eq_of_children houtline (Content.not_intersection_of_arranged rfl) hnone.symm,
            allows_content_unsigned]

end Node

end SchemaAlgebra
