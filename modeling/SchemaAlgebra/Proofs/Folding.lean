-- SUMMARY: Folding constraints into a list of rules: what is left of the rules, and what they mean together.
import SchemaAlgebra.Proofs.Constraints

/-!
# Folding

The rules of an intersection are kept apart from each other. A constraint that
is folded in either joins them or takes the place of those that it merges with,
and in both cases the rules mean what they meant together with the constraint.
-/

namespace SchemaAlgebra

namespace Node

open SpaceM (Ensures)

variable [Behaviour] {ground : Prop} {safe : Safety} {depth : Nat} {space : Space} {l r : Node}

-- ---------------------------------------------------------------------------
-- The order of operands
-- ---------------------------------------------------------------------------

omit [Behaviour] in
theorem sameType_comm (a b : Node) : a.sameType b = b.sameType a := Bool.beq_comm

omit [Behaviour] in
/-- Nodes of one type give the first, and others are given to the rule in order of kind. -/
theorem meetBy_spec {safe : Prop} {Q : Space → Intersected → Prop} {rule : Meet} (hvalid : space.Valid)
    (hsame : l.sameType r = true → Q space (.node l))
    (hrule : l.kind.order ≤ r.kind.order → l.sameType r = false → Ensures ground safe space (rule l r) Q)
    (hswap : r.kind.order ≤ l.kind.order → r.sameType l = false →
      Ensures ground safe space (rule r l) fun later out => Q later out.invert) :
    Ensures ground safe space (meetBy rule l r) Q := by
  unfold meetBy
  split
  · rename_i h
    exact Ensures.pure hvalid (hsame h)
  · rename_i hne
    rw [Bool.not_eq_true] at hne
    split
    · rename_i hlt
      refine (hswap (Nat.le_of_lt hlt) ((sameType_comm r l).trans hne)).bind ?_
      intro later out hvalid _ hout
      exact Ensures.pure hvalid hout
    · rename_i hle
      exact hrule (Nat.le_of_not_lt hle) hne

theorem meetRules_spec {meet : Meet} (hmeet : Conjoins ground safe depth meet) (hblind : safe.exact → BlindToSign)
    (hvalid : space.Valid) (hl : l.Calm safe (depth + 1) space) (hr : r.Calm safe (depth + 1) space)
    (hcl : l.kind.isConstraint = true) (hcr : r.kind.isConstraint = true) :
    Ensures ground safe space (meetRules meet l r) fun later out => Merged safe depth l r later out := by
  unfold meetRules
  refine meetBy_spec hvalid ?_ ?_ ?_
  · intro hsame
    have houtline := hvalid.outline_eq hl.holds hr.holds hsame
    refine merge_left hl hcl (fun h => ⟨(hvalid.kind_eq hl.holds hr.holds hsame).trans h, hsame⟩)
      (fun _ _ => Content.slot?_eq_of_outline houtline) (fun h => narrows_of_outline h houtline) ?_
    · intro _ hregular v hv
      rw [← hvalid.allows_eq hregular hl.holds hr.holds hsame]
      exact hv
  · intro horder hne
    exact meetConstraints_spec hmeet hblind hvalid hl hr hcl hcr horder hne
  · intro horder hne
    exact (meetConstraints_spec hmeet hblind hvalid hr hl hcr hcl horder hne).imp fun _ _ _ _ => Merged.invert

-- ---------------------------------------------------------------------------
-- Lists of rules
-- ---------------------------------------------------------------------------

omit [Behaviour] in
/-- Rules side by side are of different types. -/
theorem Beside.sameType_eq_false {a b : Node} (h : a.Beside false b) (hvalid : space.Valid) (ha : space.Holds a)
    (hb : space.Holds b) (hconstraint : a.kind.isConstraint = true) : a.sameType b = false := by
  by_contra hsame
  have houtline := hvalid.outline_eq ha hb (Bool.not_eq_false _ ▸ hsame)
  obtain ⟨slot, hslot⟩ := slot?_isSome hconstraint
  obtain ⟨rfl, -⟩ := h.slots slot hslot ((Content.slot?_eq_of_outline houtline).symm.trans hslot)
  have hcanonical := hvalid.canonical a ha
  unfold slot? at hslot
  cases hc : a.content with
  | divisor d =>
      rw [hc] at houtline hcanonical
      cases hc' : b.content with
      | divisor d' =>
          rw [hc'] at houtline
          cases houtline
          have hoverflow := leastCommonMultiple?_eq_none.mp (h.overflow d d hc hc')
          rw [Nat.lcm_self] at hoverflow
          exact absurd hcanonical (Nat.not_lt.mpr hoverflow)
      | _ => rw [hc'] at houtline; cases houtline
  | _ => rw [hc] at hslot; cases hslot

/-- Constraints that stand side by side in a space. -/
structure Rules (safe : Safety) (depth : Nat) (space : Space) (rules : List Node) : Prop where
  calm : ∀ e ∈ rules, e.Calm safe (depth + 1) space
  areConstraints : ∀ e ∈ rules, e.kind.isConstraint = true
  beside : rules.Pairwise (Beside false)
  exact : space.Regular → rules.Pairwise (Beside true)

/-- Whatever is said of the rules alone, a space left aside, still holds of what they became: bases are narrowed,
and no other aspects are restricted. -/
structure Descends (rules out : List Node) : Prop where
  bases : ∀ b ∈ rules, b.isBasis = true → ∃ b' ∈ out, b'.Narrows b
  slots : ∀ c ∈ out, c.isBasis = true ∨ ∃ c' ∈ rules, c.slot? = c'.slot?

omit [Behaviour] in
theorem Descends.refl (rules : List Node) : Descends rules rules :=
  ⟨fun b hb hbasis => ⟨b, hb, narrows_of_outline hbasis rfl⟩, fun c hc => .inr ⟨c, hc, rfl⟩⟩

omit [Behaviour] in
theorem Descends.trans {a b c : List Node} (h : Descends a b) (h' : Descends b c) : Descends a c where
  bases := by
    intro x hx hbasis
    obtain ⟨y, hy, hnarrows⟩ := h.bases x hx hbasis
    obtain ⟨z, hz, hnarrows'⟩ := h'.bases y hy hnarrows.isBasis
    exact ⟨z, hz, hnarrows'.trans hnarrows⟩
  slots := by
    intro z hz
    rcases h'.slots z hz with hbasis | ⟨y, hy, hslot⟩
    · exact .inl hbasis
    · rcases h.slots y hy with hbasis | ⟨x, hx, hslot'⟩
      · exact .inl (isBasis_of_slot? hslot hbasis)
      · exact .inr ⟨x, hx, hslot.trans hslot'⟩

omit [Behaviour] in
theorem Descends.of_perm {rules rules' out out' : List Node} (h : Descends rules out) (hperm : rules.Perm rules')
    (hperm' : out.Perm out') : Descends rules' out' where
  bases := by
    intro b hb hbasis
    obtain ⟨b', hb', hnarrows⟩ := h.bases b (hperm.mem_iff.mpr hb) hbasis
    exact ⟨b', hperm'.mem_iff.mp hb', hnarrows⟩
  slots := by
    intro c hc
    refine (h.slots c (hperm'.mem_iff.mpr hc)).imp_right ?_
    rintro ⟨c', hc', hslot⟩
    exact ⟨c', hperm.mem_iff.mp hc', hslot⟩

omit [Behaviour] in
theorem Descends.append {rules out : List Node} (h : Descends rules out) (rest : List Node) :
    Descends (rest ++ rules) (rest ++ out) where
  bases := by
    intro b hb hbasis
    rcases List.mem_append.mp hb with hb | hb
    · exact ⟨b, List.mem_append_left _ hb, narrows_of_outline hbasis rfl⟩
    · obtain ⟨b', hb', hnarrows⟩ := h.bases b hb hbasis
      exact ⟨b', List.mem_append_right _ hb', hnarrows⟩
  slots := by
    intro c hc
    rcases List.mem_append.mp hc with hc | hc
    · exact .inr ⟨c, List.mem_append_left _ hc, rfl⟩
    · exact (h.slots c hc).imp_right fun ⟨c', hc', hslot⟩ => ⟨c', List.mem_append_right _ hc', hslot⟩

theorem Rules.nil : Rules safe depth space [] :=
  ⟨List.forall_mem_nil _, List.forall_mem_nil _, .nil, fun _ => .nil⟩

theorem Rules.extends {later : Space} {rules : List Node} (h : Rules safe depth space rules)
    (hext : later.Extends space) : Rules safe depth later rules where
  calm := fun e he => (h.calm e he).extends hext
  areConstraints := h.areConstraints
  beside := h.beside
  exact := fun hregular => h.exact (hregular.earlier hext)

theorem rules_cons {e : Node} {rules : List Node} : Rules safe depth space (e :: rules) ↔
    (e.Calm safe (depth + 1) space ∧ e.kind.isConstraint = true) ∧
      ((∀ x ∈ rules, e.Beside false x) ∧ (space.Regular → ∀ x ∈ rules, e.Beside true x)) ∧
        Rules safe depth space rules := by
  constructor
  · rintro ⟨hcalm, hconstraints, hbeside, hexact⟩
    rw [List.forall_mem_cons] at hcalm hconstraints
    rw [List.pairwise_cons] at hbeside
    exact ⟨⟨hcalm.1, hconstraints.1⟩,
      ⟨hbeside.1, fun hregular => (List.pairwise_cons.mp (hexact hregular)).1⟩,
      hcalm.2, hconstraints.2, hbeside.2, fun hregular => (List.pairwise_cons.mp (hexact hregular)).2⟩
  · rintro ⟨⟨hcalm, hconstraint⟩, ⟨hbeside, hexact⟩, h⟩
    exact ⟨List.forall_mem_cons.mpr ⟨hcalm, h.calm⟩, List.forall_mem_cons.mpr ⟨hconstraint, h.areConstraints⟩,
      List.pairwise_cons.mpr ⟨hbeside, h.beside⟩,
      fun hregular => List.pairwise_cons.mpr ⟨hexact hregular, h.exact hregular⟩⟩

theorem Rules.sublist {rules kept : List Node} (h : Rules safe depth space rules) (hkept : kept.Sublist rules) :
    Rules safe depth space kept where
  calm := fun e he => h.calm e (hkept.subset he)
  areConstraints := fun e he => h.areConstraints e (hkept.subset he)
  beside := h.beside.sublist hkept
  exact := fun hregular => (h.exact hregular).sublist hkept

-- ---------------------------------------------------------------------------
-- Folding one constraint
-- ---------------------------------------------------------------------------

/-- A result of one property, or a conflict that says another. -/
def Settles {α : Type} (P : α → Prop) (conflict : Prop) : Except Disjoint α → Prop
  | .ok a => P a
  | .error _ => conflict

/-- What is left of rules after a constraint was folded in that had become `merged` before. -/
structure FoldedOn (rules : List Node) (rule merged : Node) (space : Space) (out : List Node) : Prop where
  sublist : out.Sublist rules
  beside : ∀ e ∈ out, e.Beside false rule
  exact : space.Regular → ∀ e ∈ out, e.Beside true rule
  bases : ∀ b ∈ rules, b.isBasis = true → ∃ b' ∈ merged :: out, b'.Narrows b
  allows : BlindToSign → space.Regular → ∀ v,
    (merged.allows v && everyAllows out v) = (merged.allows v && everyAllows rules v)

/-- What rules become by a constraint that is folded in. -/
structure Folded (safe : Safety) (depth : Nat) (rules : List Node) (rule : Node) (space : Space) (out : List Node) :
    Prop where
  areRules : Rules safe depth space out
  beside : ∀ (exact : Bool) (x : Node), (∀ e ∈ rules, x.Beside exact e) → x.Beside exact rule →
    ∀ e ∈ out, x.Beside exact e
  descends : Descends (rule :: rules) out
  allows : BlindToSign → space.Regular → ∀ v, Agrees safe.exact (everyAllows out v) (everyAllows rules v && rule.allows v)

theorem Merge.extends {later : Space} {n : Node} (h : Merge safe depth space l r n) (hext : later.Extends space) :
    Merge safe depth later l r n :=
  { h with
    calm := h.calm.extends hext
    allows := fun hblind hregular => h.allows hblind (hregular.earlier hext) }

/-- A merged rule restricts what its origin does, unless it is a basis. -/
theorem Merge.slot?_eq {n : Node} (h : Merge safe depth space l r n) : n.isBasis = true ∨ n.slot? = l.slot? := by
  by_cases hl : l.kind = .unit
  · exact .inl (by rw [isBasis, (h.left hl).1]; rfl)
  · by_cases hr : r.kind = .unit
    · exact .inl (by rw [isBasis, (h.right hr).1]; rfl)
    · exact .inr (h.slots hl hr).2.1

/-- Rules that stand apart merge with one constraint only if it is a unit. -/
theorem Merge.isUnit {rule n n' : Node} (h : Merge safe depth space l rule n) (h' : Merge safe depth space r rule n')
    (hl : l.kind.isConstraint = true) (hapart : l.Apart true r) : rule.kind = .unit := by
  by_contra hunit
  obtain ⟨slot, hslot⟩ := slot?_isSome hl
  obtain ⟨-, hs, hs'⟩ := h.slots hapart.left hunit
  obtain ⟨-, ht, ht'⟩ := h'.slots hapart.right hunit
  have heq : l.slot? = r.slot? := (hs.symm.trans hs').trans (ht'.symm.trans ht)
  exact absurd (hapart.slots slot hslot (heq ▸ hslot)).2 (by decide)

/-- What they merge to is that unit. -/
theorem Merge.sameType {rule n n' : Node} (h : Merge safe depth space l rule n) (h' : Merge safe depth space r rule n')
    (hl : l.kind.isConstraint = true) (hapart : l.Apart true r) : n.sameType n' = true := by
  have hunit := h.isUnit h' hl hapart
  have hn := eq_of_beq (h.right hunit).2
  have hn' := eq_of_beq (h'.right hunit).2
  unfold Node.sameType
  rw [hn, hn']
  exact beq_self_eq_true _

/-- A node of the type of a merged one allows no more than what was merged. -/
theorem Merge.allows_of_sameType {n merged : Node} (h : Merge safe depth space l r n) (hvalid : space.Valid)
    (hmerged : space.Holds merged) (hsame : merged.sameType n = true) (hblind : BlindToSign) (hregular : space.Regular)
    {v : Value} (hv : merged.allows v = true) : l.allows v = true := by
  rw [hvalid.allows_eq hregular hmerged h.calm.holds hsame] at hv
  exact (Bool.and_eq_true_iff.mp ((h.allows hblind hregular v).sound hv)).1

variable {e rule merged n : Node} {rest out : List Node}

/-- A rule that stands beside the constraint is kept. -/
theorem FoldedOn.keep (h : FoldedOn rest rule merged space out) (hbeside : e.Beside false rule)
    (hexact : space.Regular → e.Beside true rule) : FoldedOn (e :: rest) rule merged space (e :: out) where
  sublist := h.sublist.cons_cons e
  beside := List.forall_mem_cons.mpr ⟨hbeside, h.beside⟩
  exact := fun hregular => List.forall_mem_cons.mpr ⟨hexact hregular, h.exact hregular⟩
  bases := by
    refine List.forall_mem_cons.mpr ⟨fun hb => ?_, fun b hb hbasis => ?_⟩
    · exact ⟨e, List.mem_cons_of_mem _ List.mem_cons_self, narrows_of_outline hb rfl⟩
    · obtain ⟨b', hb', hnarrows⟩ := h.bases b hb hbasis
      rcases List.mem_cons.mp hb' with rfl | hb'
      · exact ⟨b', List.mem_cons_self, hnarrows⟩
      · exact ⟨b', List.mem_cons_of_mem _ (List.mem_cons_of_mem _ hb'), hnarrows⟩
  allows := by
    intro hblind hregular v
    rw [everyAllows, everyAllows, Bool.and_left_comm, h.allows hblind hregular v, Bool.and_left_comm]

/-- A rule that merges to what the constraint has become is dropped. -/
theorem FoldedOn.drop (h : FoldedOn rest rule merged space out) (hvalid : space.Valid)
    (hmerge : Merge safe depth space e rule n) (hmerged : space.Holds merged) (hsame : merged.sameType n = true) :
    FoldedOn (e :: rest) rule merged space out where
  sublist := h.sublist.cons e
  beside := h.beside
  exact := h.exact
  bases := by
    refine List.forall_mem_cons.mpr ⟨fun hb => ?_, h.bases⟩
    have hnarrows := hmerge.narrows e (.inl rfl) hb
    have houtline := hvalid.outline_eq hmerged hmerge.calm.holds hsame
    exact ⟨merged, List.mem_cons_self, (narrows_of_outline hnarrows.isBasis houtline).trans hnarrows⟩
  allows := by
    intro hblind hregular v
    rw [h.allows hblind hregular v, everyAllows]
    cases hv : merged.allows v with
    | false => rfl
    | true =>
        rw [hmerge.allows_of_sameType hvalid hmerged hsame hblind hregular hv, Bool.true_and, Bool.true_and]

/-- Folding the rest of a constraint into rules, after it has become `merged` by one that stands beside all of them:
whatever else merges with it comes to the same. -/
theorem foldOn_spec {meet : Meet} (hmeet : Conjoins ground safe depth meet) (hblind : safe.exact → BlindToSign)
    {origin : Node} (hconstraint : rule.kind.isConstraint = true) (horigin : origin.kind.isConstraint = true)
    {rules : List Node} (hvalid : space.Valid) (hrules : Rules safe depth space rules)
    (hrule : rule.Calm safe (depth + 1) space) (hmerge : Merge safe depth space origin rule merged)
    (hbeside : space.Regular → ∀ e ∈ rules, origin.Beside true e) :
    Ensures ground safe space (foldInto meet rule (some merged) rules) fun later out =>
      Settles (FoldedOn rules rule merged later)
        (safe.exact → later.Regular → ∀ v, (merged.allows v && everyAllows rules v) = false) out := by
  induction rules generalizing space with
  | nil =>
      refine Ensures.pure hvalid ?_
      exact ⟨.slnil, List.forall_mem_nil _, fun _ => List.forall_mem_nil _, nofun, fun _ _ _ => rfl⟩
  | cons e rest ih =>
      obtain ⟨⟨hcalm, hc⟩, -, hrest⟩ := rules_cons.mp hrules
      unfold foldInto
      refine (meetRules_spec hmeet hblind hvalid hcalm hrule hc hconstraint).bind ?_
      intro later out hvalid' hext hout
      have hbeside' (hregular : later.Regular) := List.forall_mem_cons.mp (hbeside (hregular.earlier hext))
      have hmerge' := hmerge.extends hext
      have hnext := ih hvalid' (hrest.extends hext) (hrule.extends hext) hmerge' fun hregular => (hbeside' hregular).2
      -- A conflict with later rules is one with all of them.
      have hconflict {final : Space} (hnone : safe.exact → final.Regular → ∀ v,
          (merged.allows v && everyAllows rest v) = false) (hexact : safe.exact) (hregular : final.Regular) (v : Value) :
          (merged.allows v && everyAllows (e :: rest) v) = false := by
        rw [everyAllows, Bool.and_left_comm, hnone hexact hregular v, Bool.and_false]
      cases out with
      | orthogonal =>
          dsimp only
          refine hnext.bind fun final out hfinal hext' hout' => Ensures.pure hfinal ?_
          cases out with
          | error d => exact hconflict hout'
          | ok out => exact FoldedOn.keep hout' hout.1 fun hregular => hout.2 (hregular.earlier hext')
      | disjoint d =>
          refine Ensures.pure hvalid' fun hexact hregular v => ?_
          have hnone := hout hexact hregular v
          rw [((hmerge'.allows (hblind hexact) hregular v).eq hexact), everyAllows]
          cases he : e.allows v with
          | false => rw [Bool.false_and, Bool.and_false]
          | true =>
              rw [he, Bool.true_and] at hnone
              rw [hnone, Bool.and_false, Bool.false_and]
      | node n =>
          have hout : Merge safe depth later e rule n := hout
          dsimp only
          split
          · rename_i hsame
            refine hnext.imp fun final out hfinal hext' hout' => ?_
            cases out with
            | error d => exact hconflict hout'
            | ok out =>
                exact FoldedOn.drop hout' hfinal (hout.extends hext') (hext'.holds merged hmerge'.calm.holds) hsame
          · rename_i hne
            refine Ensures.absurd hvalid' (fun hregular => hne ?_) (by rintro ⟨⟩)
            exact hmerge'.sameType hout horigin (hbeside' hregular).1.toApart

/-- A rule that stands beside the constraint and the other rules is kept. -/
theorem Folded.keep (h : Folded safe depth rest rule space out) (hrules : Rules safe depth space (e :: rest))
    (hbeside : e.Beside false rule) (hexact : space.Regular → e.Beside true rule) :
    Folded safe depth (e :: rest) rule space (e :: out) := by
  obtain ⟨he, ⟨hrest, hrestExact⟩, -⟩ := rules_cons.mp hrules
  refine ⟨rules_cons.mpr ⟨he, ⟨h.beside false e hrest hbeside, fun hregular => ?_⟩, h.areRules⟩, ?_, ?_, ?_⟩
  · exact h.beside true e (hrestExact hregular) (hexact hregular)
  · intro exact x hx hxr
    obtain ⟨hxe, hx⟩ := List.forall_mem_cons.mp hx
    exact List.forall_mem_cons.mpr ⟨hxe, h.beside exact x hx hxr⟩
  · exact (h.descends.append [e]).of_perm (.swap rule e rest) (.refl _)
  · intro hblind hregular v
    rw [everyAllows, everyAllows, Bool.and_assoc]
    exact (Agrees.refl _).and (h.allows hblind hregular v)

/-- What a rule and the constraint merge to takes the place of the rule. -/
theorem Merge.folded (h : Merge safe depth space e rule n) (hrules : Rules safe depth space (e :: rest))
    (hout : FoldedOn rest rule n space out) : Folded safe depth (e :: rest) rule space (n :: out) := by
  obtain ⟨-, ⟨hbeside, hexact⟩, hrest⟩ := rules_cons.mp hrules
  have hsubset := hout.sublist.subset
  refine ⟨rules_cons.mpr ⟨⟨h.calm, h.isConstraint⟩, ⟨fun x hx => ?_, fun hregular x hx => ?_⟩,
    hrest.sublist hout.sublist⟩, ?_, ⟨?_, ?_⟩, ?_⟩
  · exact (h.beside false x (hbeside x (hsubset hx)).symm (hout.beside x hx)).symm
  · exact (h.beside true x (hexact hregular x (hsubset hx)).symm (hout.exact hregular x hx)).symm
  · intro exact x hx hxr
    obtain ⟨hxe, hx⟩ := List.forall_mem_cons.mp hx
    exact List.forall_mem_cons.mpr ⟨h.beside exact x hxe hxr, fun y hy => hx y (hsubset hy)⟩
  · intro b hb hbasis
    rcases List.mem_cons.mp hb with rfl | hb
    · exact ⟨n, List.mem_cons_self, h.narrows b (.inr rfl) hbasis⟩
    · rcases List.mem_cons.mp hb with rfl | hb
      · exact ⟨n, List.mem_cons_self, h.narrows b (.inl rfl) hbasis⟩
      · exact hout.bases b hb hbasis
  · intro c hc
    rcases List.mem_cons.mp hc with rfl | hc
    · exact h.slot?_eq.imp_right fun h => ⟨e, List.mem_cons_of_mem _ List.mem_cons_self, h⟩
    · exact .inr ⟨c, List.mem_cons_of_mem rule (List.mem_cons_of_mem e (hsubset hc)), rfl⟩
  · intro hblind hregular v
    rw [everyAllows, everyAllows, hout.allows hblind hregular v, Bool.and_right_comm]
    exact (h.allows hblind hregular v).and (.refl _)

theorem foldInto_spec {meet : Meet} (hmeet : Conjoins ground safe depth meet) (hblind : safe.exact → BlindToSign)
    (hconstraint : rule.kind.isConstraint = true) {rules : List Node} (hvalid : space.Valid)
    (hrules : Rules safe depth space rules) (hrule : rule.Calm safe (depth + 1) space) :
    Ensures ground safe space (foldInto meet rule none rules) fun later out =>
      Settles (Folded safe depth rules rule later)
        (safe.exact → later.Regular → ∀ v, (everyAllows rules v && rule.allows v) = false) out := by
  induction rules generalizing space with
  | nil =>
      refine Ensures.pure hvalid ⟨?_, fun _ _ _ hx => List.forall_mem_singleton.mpr hx, .refl [rule], fun _ _ v => ?_⟩
      · exact rules_cons.mpr ⟨⟨hrule, hconstraint⟩, ⟨List.forall_mem_nil _, fun _ => List.forall_mem_nil _⟩, .nil⟩
      · exact .of_eq ((Bool.and_true _).trans (Bool.true_and _).symm)
  | cons e rest ih =>
      obtain ⟨⟨hcalm, hc⟩, ⟨-, hexact⟩, hrest⟩ := rules_cons.mp hrules
      unfold foldInto
      refine (meetRules_spec hmeet hblind hvalid hcalm hrule hc hconstraint).bind ?_
      intro later out hvalid' hext hout
      have hrule' := hrule.extends hext
      cases out with
      | orthogonal =>
          dsimp only
          refine (ih hvalid' (hrest.extends hext) hrule').bind fun final out hfinal hext' hout' =>
            Ensures.pure hfinal ?_
          cases out with
          | error d =>
              intro hexact hregular v
              rw [everyAllows, Bool.and_assoc, hout' hexact hregular v, Bool.and_false]
          | ok out =>
              exact Folded.keep hout' (hrules.extends (hext'.trans hext)) hout.1 fun hregular =>
                hout.2 (hregular.earlier hext')
      | disjoint d =>
          refine Ensures.pure hvalid' fun hexact hregular v => ?_
          rw [everyAllows, Bool.and_right_comm, hout hexact hregular v, Bool.false_and]
      | node n =>
          have hout : Merge safe depth later e rule n := hout
          dsimp only
          refine (foldOn_spec hmeet hblind hconstraint hc hvalid' (hrest.extends hext) hrule' hout
            fun hregular => hexact (hregular.earlier hext)).bind fun final out hfinal hext' hout' => ?_
          refine Ensures.pure hfinal ?_
          cases out with
          | error d =>
              intro hexact hregular v
              have hmerged := hout.allows (hblind hexact) (hregular.earlier hext') v
              rw [everyAllows, Bool.and_right_comm, ← hmerged.eq hexact]
              exact hout' hexact hregular v
          | ok out => exact (hout.extends hext').folded (hrules.extends (hext'.trans hext)) hout'

-- ---------------------------------------------------------------------------
-- Folding many constraints
-- ---------------------------------------------------------------------------

/-- What rules become by constraints that are added to them. -/
structure Gathered (safe : Safety) (depth : Nat) (rules more : List Node) (space : Space) (out : List Node) : Prop where
  areRules : Rules safe depth space out
  descends : Descends (rules ++ more) out
  allows : BlindToSign → space.Regular → ∀ v,
    Agrees safe.exact (everyAllows out v) (everyAllows rules v && everyAllows more v)

theorem addRule_spec {meet : Meet} (hmeet : Conjoins ground safe depth meet) (hblind : safe.exact → BlindToSign) {rule : Node}
    {rules : List Node} (hvalid : space.Valid) (hrules : Rules safe depth space rules)
    (hrule : rule.Calm safe (depth + 1) space) (hconstraint : rule.kind.isConstraint = true) :
    Ensures ground safe space (addRule meet rules rule) fun later out =>
      Settles (Folded safe depth rules rule later)
        (safe.exact → later.Regular → ∀ v, (everyAllows rules v && rule.allows v) = false) out := by
  unfold addRule
  rw [if_pos hconstraint]
  exact foldInto_spec hmeet hblind hconstraint hvalid hrules hrule

theorem addRules_spec {meet : Meet} (hmeet : Conjoins ground safe depth meet) (hblind : safe.exact → BlindToSign)
    {more rules : List Node} (hvalid : space.Valid) (hrules : Rules safe depth space rules)
    (hmore : ∀ e ∈ more, e.Calm safe (depth + 1) space ∧ e.kind.isConstraint = true) :
    Ensures ground safe space (addRules meet rules more) fun later out =>
      Settles (Gathered safe depth rules more later)
        (safe.exact → later.Regular → ∀ v, (everyAllows rules v && everyAllows more v) = false) out := by
  induction more generalizing space rules with
  | nil =>
      refine Ensures.pure hvalid ⟨hrules, ?_, fun _ _ v => .of_eq (Bool.and_true _).symm⟩
      rw [List.append_nil]
      exact .refl rules
  | cons rule rest ih =>
      obtain ⟨⟨hrule, hconstraint⟩, hrest⟩ := List.forall_mem_cons.mp hmore
      unfold addRules
      refine (addRule_spec hmeet hblind hvalid hrules hrule hconstraint).bind ?_
      intro later out hvalid' hext hout
      cases out with
      | error d =>
          refine Ensures.pure hvalid' ?_
          intro hexact hregular v
          rw [everyAllows, ← Bool.and_assoc, hout hexact hregular v, Bool.false_and]
      | ok out =>
          obtain ⟨hareRules, -, hdescends, hallows⟩ := hout
          dsimp only
          refine (ih hvalid' hareRules fun e he => (hrest e he).imp_left fun h => h.extends hext).imp ?_
          intro final out' hfinal hext' hout'
          cases out' with
          | error d =>
              intro hexact hregular v
              have hfirst := hallows (hblind hexact) (hregular.earlier hext') v
              rw [everyAllows, ← Bool.and_assoc, ← hfirst.eq hexact]
              exact hout' hexact hregular v
          | ok out' =>
              obtain ⟨hareRules', hdescends', hallows'⟩ := hout'
              refine ⟨hareRules', ?_, ?_⟩
              · refine Descends.trans ?_ hdescends'
                refine (hdescends.append rest).of_perm ?_ List.perm_append_comm
                exact List.perm_append_comm.trans List.perm_middle.symm
              · intro hblind hregular v
                rw [everyAllows, ← Bool.and_assoc]
                exact (hallows' hblind hregular v).trans ((hallows hblind (hregular.earlier hext') v).and (.refl _))

end Node

end SchemaAlgebra
