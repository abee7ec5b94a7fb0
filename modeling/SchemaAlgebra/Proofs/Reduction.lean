-- SUMMARY: A union does not depend on the order its branches are given in, if none that lacks morphs has unions in it.
import SchemaAlgebra.Proofs.Absorption
import SchemaAlgebra.Proofs.Congruence
import SchemaAlgebra.Proofs.Explanation

/-!
# Reduction

A branch without morphs covers another one if the other says all that it says. Reduction
compares each branch with the later ones that still count, and so stops looking at a
branch that was dropped. As covering is transitive, nothing is missed by this: what was
dropped is covered by what is left, and nothing that is left covers anything else of it.
So the types of what is left are told by the set of the branches.
-/

namespace SchemaAlgebra

open SpaceM (Ensures Lockstep)

namespace SpaceM

variable {α β : Type} {ground : Prop} {space : Space} {x : SpaceM α} {f : α → SpaceM β} {P : Space → α → Prop}

/-- A run that ends in a regular space, where the first step fails in no regular space. -/
theorem Ensures.run (h : Ensures ground True space x P) (hf : ∀ a, (f a).Grows)
    (hregular : ((x >>= f).exec space).2.Regular) :
    ∃ a middle, (x >>= f).exec space = (f a).exec middle ∧ middle.Valid ∧ middle.Extends space ∧
      ((f a).exec middle).2.Extends middle ∧ P middle a := by
  obtain ⟨hvalid, hext, hresult, hsucceeds, -, -⟩ := h
  rw [exec_bind] at hregular ⊢
  generalize x.exec space = first at hvalid hext hresult hsucceeds hregular ⊢
  rcases first with ⟨error | a, middle⟩
  · obtain ⟨a, ha⟩ := hsucceeds trivial hregular
    cases ha
  · exact ⟨a, middle, rfl, hvalid, hext, (hf a middle hvalid.tidy).2, hresult a rfl⟩

end SpaceM

namespace Node

open Space (Twins Abreast)

variable [Behaviour] {ground : Prop} {depth limit : Nat} {space later : Space} {a b c branch node : Node}
  {nodes nodes' branches live live' out : List Node} {kept : List Bool} {keep : Bool} {type : String}

-- ---------------------------------------------------------------------------
-- Covering
-- ---------------------------------------------------------------------------

/-- A branch of a space that has no unions in it, unless it includes a morph. -/
structure Coverable (depth : Nat) (space : Space) (n : Node) : Prop where
  holds : space.Holds n
  isBranch : n.kind.isBranch = true
  simple : n.includesMorph = false → n.SimpleRoot (depth + 1) space

/-- A branch is covered by another one: neither includes a morph, and the first says all that the other says. -/
structure CoveredBy (depth : Nat) (a b : Node) : Prop where
  plain : a.includesMorph = false
  plain' : b.includesMorph = false
  entails : Entails (depth + 1) a b

theorem Coverable.extends (h : a.Coverable depth space) (hext : later.Extends space) : a.Coverable depth later :=
  ⟨hext.holds a h.holds, h.isBranch, fun hmorph => (h.simple hmorph).extends hext⟩

section

variable (hblind : BlindToSign) (hvalid : space.Valid) (hregular : space.Regular) (ha : a.Coverable depth space)
  (hb : b.Coverable depth space)

include hblind hvalid hregular ha hb

theorem CoveredBy.trans (hc : c.Coverable depth space) (h : a.CoveredBy depth b) (h' : b.CoveredBy depth c) :
    a.CoveredBy depth c :=
  ⟨h.plain, h'.plain', (entails_orders hblind hvalid hregular (depth + 1)).trans a b c (ha.simple h.plain)
    (hb.simple h.plain') (hc.simple h'.plain') h.entails h'.entails⟩

/-- Branches that cover each other are of one type. -/
theorem CoveredBy.antisymm (h : a.CoveredBy depth b) (h' : b.CoveredBy depth a) : a.typeId = b.typeId :=
  eq_of_beq ((entails_orders hblind hvalid hregular (depth + 1)).antisymm a b (ha.simple h.plain) (hb.simple h.plain')
    h.entails h'.entails)

theorem coveredBy_of_type (hplain : a.includesMorph = false) (h : a.typeId = b.typeId) : a.CoveredBy depth b := by
  have htwins : Twins space space a b := ⟨ha.holds, hb.holds, h⟩
  have hplain' : b.includesMorph = false := (htwins.includesMorph_eq (hvalid.abreast hregular)).symm.trans hplain
  exact ⟨hplain, hplain', (entails_orders hblind hvalid hregular (depth + 1)).alike a b (ha.simple hplain)
    (hb.simple hplain') (beq_iff_eq.mpr h)⟩

/-- Whether one branch covers another is told by their types. -/
theorem CoveredBy.of_types {a' b' : Node} (ha' : a'.Coverable depth space) (hb' : b'.Coverable depth space)
    (htype : a'.typeId = a.typeId) (htype' : b.typeId = b'.typeId) (h : a.CoveredBy depth b) : a'.CoveredBy depth b' := by
  have hself : Twins space space a a' := ⟨ha.holds, ha'.holds, htype.symm⟩
  have hplain : a'.includesMorph = false := (hself.includesMorph_eq (hvalid.abreast hregular)).symm.trans h.plain
  have hfirst := coveredBy_of_type hblind hvalid hregular ha' ha hplain htype
  have hlast := coveredBy_of_type hblind hvalid hregular hb hb' h.plain' htype'
  exact (hfirst.trans hblind hvalid hregular ha' ha hb h).trans hblind hvalid hregular ha' hb hb' hlast

end

-- ---------------------------------------------------------------------------
-- Comparing with later branches
-- ---------------------------------------------------------------------------

/-- What comparing a branch with later ones does: those that it covers are dropped, up to one that covers it. -/
structure Compared (depth : Nat) (branch : Node) (live : List Node) (keep : Bool) (live' : List Node) : Prop where
  sublist : live'.Sublist live
  dropped : ∀ c ∈ live, c ∈ live' ∨ c.CoveredBy depth branch
  kept : keep = true → (∀ c ∈ live, ¬ branch.CoveredBy depth c) ∧ ∀ c ∈ live', ¬ c.CoveredBy depth branch
  covered : keep = false → ∃ c ∈ live', branch.CoveredBy depth c

omit [Behaviour] in
theorem keptOf_nil (kept : List Bool) : keptOf [] kept = [] := by
  unfold keptOf
  rfl

theorem compared_nil : Compared depth branch [] true [] :=
  ⟨.slnil, List.forall_mem_nil _, fun _ => ⟨List.forall_mem_nil _, List.forall_mem_nil _⟩, nofun⟩

/-- A later branch that covers the branch ends the search. -/
theorem compared_covered (h : branch.CoveredBy depth node) : Compared depth branch (node :: live) false (node :: live) :=
  ⟨.refl _, fun _ hc => .inl hc, nofun, fun _ => ⟨node, List.mem_cons_self, h⟩⟩

theorem Compared.pass (h : Compared depth branch live keep live') (hnot : ¬ branch.CoveredBy depth node)
    (hnot' : ¬ node.CoveredBy depth branch) : Compared depth branch (node :: live) keep (node :: live') where
  sublist := h.sublist.cons_cons node
  dropped := List.forall_mem_cons.mpr ⟨.inl List.mem_cons_self, fun c hc =>
    (h.dropped c hc).imp_left (List.mem_cons_of_mem node)⟩
  kept := fun hkeep => ⟨List.forall_mem_cons.mpr ⟨hnot, (h.kept hkeep).1⟩,
    List.forall_mem_cons.mpr ⟨hnot', (h.kept hkeep).2⟩⟩
  covered := by
    intro hkeep
    obtain ⟨c, hc, hcovered⟩ := h.covered hkeep
    exact ⟨c, List.mem_cons_of_mem node hc, hcovered⟩

theorem Compared.drop (h : Compared depth branch live keep live') (hnot : ¬ branch.CoveredBy depth node)
    (hcovered : node.CoveredBy depth branch) : Compared depth branch (node :: live) keep live' where
  sublist := h.sublist.cons node
  dropped := List.forall_mem_cons.mpr ⟨.inr hcovered, h.dropped⟩
  kept := fun hkeep => ⟨List.forall_mem_cons.mpr ⟨hnot, (h.kept hkeep).1⟩, (h.kept hkeep).2⟩
  covered := h.covered

/-- Comparing a branch with later ones does to them what covering says. -/
theorem compareWithLater_compared (hblind : BlindToSign) (hvalid : space.Valid)
    (hnodes : ∀ n ∈ branch :: nodes, n.Coverable depth space) :
    Ensures ground True space (compareWithLater (conjoinBranches (conjoinWithin depth)) branch nodes kept)
      fun later out => later.Regular → Compared depth branch (keptOf nodes kept) out.1 (keptOf nodes out.2) := by
  induction nodes generalizing space kept with
  | nil =>
      unfold compareWithLater
      refine .pure hvalid fun _ => ?_
      rw [keptOf_nil]
      exact compared_nil
  | cons node rest ih =>
      obtain ⟨hbranch, hnode, hrest⟩ := List.forall_mem_cons.mp hnodes |>.imp_right List.forall_mem_cons.mp
      have hrest : ∀ n ∈ branch :: rest, n.Coverable depth space := List.forall_mem_cons.mpr ⟨hbranch, hrest⟩
      rcases kept with _ | ⟨_ | _, kept⟩
      case nil =>
          unfold compareWithLater
          exact .pure hvalid fun _ => compared_nil
      case cons.false =>
          unfold compareWithLater
          exact (@ih space kept hvalid hrest).bind fun final out hfinal _ hout => .pure hfinal hout
      case cons.true =>
          have hpass (space' : Space) (hvalid' : space'.Valid) (hext : space'.Extends space)
              (hnot : space'.Regular → ¬ branch.CoveredBy depth node ∧ ¬ node.CoveredBy depth branch) :
              Ensures ground True space' (do
                let out ← compareWithLater (conjoinBranches (conjoinWithin depth)) branch rest kept
                return (out.1, true :: out.2)) fun later out => later.Regular →
                  Compared depth branch (keptOf (node :: rest) (true :: kept)) out.1 (keptOf (node :: rest) out.2) := by
            refine (@ih space' kept hvalid' fun n hn => (hrest n hn).extends hext).bind fun final out hfinal hext' hout =>
              .pure hfinal fun hregular => ?_
            obtain ⟨hnot, hnot'⟩ := hnot (hregular.earlier hext')
            exact (hout hregular).pass hnot hnot'
          unfold compareWithLater
          split
          · rename_i hmorph
            refine hpass space hvalid (.refl space) fun _ => ⟨fun h => ?_, fun h => ?_⟩
            · simp [h.plain, h.plain'] at hmorph
            · simp [h.plain, h.plain'] at hmorph
          rename_i hplain
          simp only [Bool.or_eq_true, not_or, Bool.not_eq_true] at hplain
          have hl := hbranch.simple hplain.1
          have hr := hnode.simple hplain.2
          refine (conjoinBranches_balanced hblind hvalid hl hr (branch_not_union hbranch.isBranch)
            (branch_not_union hnode.isBranch)).bind fun space' out hvalid' hext hout => ?_
          have hleft (hregular : space'.Regular) :
              branch.CoveredBy depth node ↔ ∃ n, out = .node n ∧ n.sameType branch = true := by
            rw [← hout.left_iff hblind hvalid' hregular (hl.extends hext) (hr.extends hext)]
            exact ⟨CoveredBy.entails, .mk hplain.1 hplain.2⟩
          have hright (hregular : space'.Regular) :
              node.CoveredBy depth branch ↔ ∃ n, out = .node n ∧ n.sameType node = true := by
            rw [← hout.right_iff hblind hvalid' hregular (hl.extends hext) (hr.extends hext)]
            exact ⟨CoveredBy.entails, .mk hplain.2 hplain.1⟩
          cases out with
          | node result =>
              simp only [Intersected.node.injEq, exists_eq_left'] at hleft hright
              dsimp only
              split
              · rename_i hsame
                exact .pure hvalid' fun hregular => compared_covered ((hleft hregular).mpr hsame)
              · rename_i hother
                have hnot (hregular : space'.Regular) : ¬ branch.CoveredBy depth node := fun h =>
                  hother ((hleft hregular).mp h)
                cases hsame : result.sameType node with
                | false =>
                    refine hpass space' hvalid' hext fun hregular => ⟨hnot hregular, fun h => ?_⟩
                    exact Bool.false_ne_true (hsame.symm.trans ((hright hregular).mp h))
                | true =>
                    refine (@ih space' kept hvalid' fun n hn => (hrest n hn).extends hext).bind
                      fun final out hfinal hext' hcompared => .pure hfinal fun hregular => ?_
                    have hearlier := hregular.earlier hext'
                    exact (hcompared hregular).drop (hnot hearlier) ((hright hearlier).mpr hsame)
          | disjoint _ | orthogonal =>
              refine hpass space' hvalid' hext fun hregular => ⟨fun h => ?_, fun h => ?_⟩
              · obtain ⟨n, hn, -⟩ := (hleft hregular).mp h
                cases hn
              · obtain ⟨n, hn, -⟩ := (hright hregular).mp h
                cases hn

-- ---------------------------------------------------------------------------
-- Reducing
-- ---------------------------------------------------------------------------

/-- What is left of branches: none of it covers another, and it covers all that was dropped. -/
structure Reduced (depth : Nat) (live out : List Node) : Prop where
  sublist : out.Sublist live
  covered : ∀ b ∈ live, b ∈ out ∨ ∃ c ∈ out, b.CoveredBy depth c
  apart : out.Pairwise fun a b => ¬ a.CoveredBy depth b ∧ ¬ b.CoveredBy depth a

theorem reduced_nil : Reduced depth [] [] := ⟨.slnil, List.forall_mem_nil _, .nil⟩

/-- One step of reduction: a branch was compared with those that count, and what is left of these was reduced. -/
theorem Reduced.step (hblind : BlindToSign) (hvalid : space.Valid) (hregular : space.Regular)
    (hnodes : ∀ n ∈ branch :: live, n.Coverable depth space) (hcompared : Compared depth branch live keep live')
    (h : Reduced depth live' out) : Reduced depth (branch :: live) (if keep then branch :: out else out) := by
  obtain ⟨hbranch, hlive⟩ := List.forall_mem_cons.mp hnodes
  have hlive' : ∀ n ∈ live', n.Coverable depth space := fun n hn => hlive n (hcompared.sublist.subset hn)
  cases keep with
  | true =>
      obtain ⟨hnot, hnot'⟩ := hcompared.kept rfl
      refine ⟨(h.sublist.trans hcompared.sublist).cons_cons branch, ?_, List.pairwise_cons.mpr ⟨fun c hc => ?_, h.apart⟩⟩
      · refine List.forall_mem_cons.mpr ⟨.inl List.mem_cons_self, fun b hb => ?_⟩
        rcases hcompared.dropped b hb with hb | hb
        · refine (h.covered b hb).imp (List.mem_cons_of_mem branch) ?_
          rintro ⟨c, hc, hcovered⟩
          exact ⟨c, List.mem_cons_of_mem branch hc, hcovered⟩
        · exact .inr ⟨branch, List.mem_cons_self, hb⟩
      · have hc := h.sublist.subset hc
        exact ⟨hnot c (hcompared.sublist.subset hc), hnot' c hc⟩
  | false =>
      obtain ⟨c, hc, hcovered⟩ := hcompared.covered rfl
      -- What the branch covers is covered by what covers the branch.
      have hleft {b : Node} (hb : b.Coverable depth space) (h' : b.CoveredBy depth c) :
          ∃ d ∈ out, b.CoveredBy depth d := by
        rcases h.covered c hc with hout | ⟨d, hd, hcd⟩
        · exact ⟨c, hout, h'⟩
        · exact ⟨d, hd, h'.trans hblind hvalid hregular hb (hlive' c hc) (hlive' d (h.sublist.subset hd)) hcd⟩
      refine ⟨(h.sublist.trans hcompared.sublist).cons branch, ?_, h.apart⟩
      refine List.forall_mem_cons.mpr ⟨.inr (hleft hbranch hcovered), fun b hb => ?_⟩
      rcases hcompared.dropped b hb with hb' | hb'
      · exact h.covered b hb'
      · exact .inr (hleft (hlive b hb) (hb'.trans hblind hvalid hregular (hlive b hb) hbranch (hlive' c hc) hcovered))

omit [Behaviour] in
theorem keptOf_sublist (nodes : List Node) (kept : List Bool) : (keptOf nodes kept).Sublist nodes := by
  induction nodes generalizing kept with
  | nil => rw [keptOf_nil]
  | cons node rest ih =>
      match kept with
      | [] => exact List.nil_sublist _
      | false :: kept => exact (ih kept).cons node
      | true :: kept => exact (ih kept).cons_cons node

theorem reduceFrom_reduced (hblind : BlindToSign) (hvalid : space.Valid)
    (hnodes : ∀ n ∈ nodes, n.Coverable depth space) :
    Ensures ground True space (reduceFrom (conjoinBranches (conjoinWithin depth)) nodes kept) fun later out =>
      later.Regular → Reduced depth (keptOf nodes kept) out := by
  induction nodes generalizing space kept with
  | nil =>
      unfold reduceFrom
      refine .pure hvalid fun _ => ?_
      rw [keptOf_nil]
      exact reduced_nil
  | cons branch rest ih =>
      have hrest : ∀ n ∈ rest, n.Coverable depth space := (List.forall_mem_cons.mp hnodes).2
      rcases kept with _ | ⟨_ | _, kept⟩
      case nil =>
          unfold reduceFrom
          exact .pure hvalid fun _ => reduced_nil
      case cons.false =>
          unfold reduceFrom
          exact @ih space kept hvalid hrest
      case cons.true =>
          unfold reduceFrom
          refine (compareWithLater_compared hblind hvalid hnodes).bind fun later compared hlater hext hcompared => ?_
          refine (@ih later compared.2 hlater fun n hn => (hrest n hn).extends hext).bind
            fun final out hfinal hext' hout => .pure hfinal fun hregular => ?_
          refine (hout hregular).step hblind hfinal hregular (fun n hn => ?_) (hcompared (hregular.earlier hext'))
          exact (hnodes n (((keptOf_sublist rest kept).cons_cons branch).subset hn)).extends (hext'.trans hext)

/-- What is left of branches, if they are reduced up to a number of them. -/
def ReducedUpTo (limit depth : Nat) (live out : List Node) : Prop :=
  if live.length ≤ limit then Reduced depth live out else out = live

theorem ReducedUpTo.sublist (h : ReducedUpTo limit depth live out) : out.Sublist live := by
  unfold ReducedUpTo at h
  split at h
  · exact h.sublist
  · rw [h]

theorem reduceUpTo_reduced (hblind : BlindToSign) (hvalid : space.Valid)
    (hnodes : ∀ n ∈ nodes, n.Coverable depth space) :
    Ensures ground True space (reduceUpTo limit (conjoinBranches (conjoinWithin depth)) nodes) fun later out =>
      later.Regular → ReducedUpTo limit depth nodes out := by
  unfold reduceUpTo ReducedUpTo reduceBranches
  split
  · refine (reduceFrom_reduced hblind hvalid hnodes).imp fun later out _ _ hout hregular => ?_
    have hreduced := hout hregular
    rwa [keptOf_all] at hreduced
  · exact .pure hvalid fun _ => rfl

-- ---------------------------------------------------------------------------
-- What is left
-- ---------------------------------------------------------------------------

/-- The types of the branches that no branch of another type covers. -/
def Uncovered (depth : Nat) (nodes : List Node) (type : String) : Prop :=
  ∃ b ∈ nodes, b.typeId = type ∧ ∀ c ∈ nodes, b.CoveredBy depth c → c.CoveredBy depth b

section

variable (hblind : BlindToSign) (hvalid : space.Valid) (hregular : space.Regular)
  (hlive : ∀ n ∈ live, n.Coverable depth space)

include hblind hvalid hregular hlive

/-- What is left are the types that no other covers. -/
theorem Reduced.types (h : Reduced depth live out) : type ∈ out.map typeId ↔ Uncovered depth live type := by
  have hout := h.sublist.subset
  constructor
  · intro htype
    obtain ⟨b, hb, rfl⟩ := List.mem_map.mp htype
    refine ⟨b, hout hb, rfl, fun c hc hcovered => ?_⟩
    have hsymm : Std.Symm fun a b : Node => ¬ a.CoveredBy depth b ∧ ¬ b.CoveredBy depth a := ⟨fun _ _ => And.symm⟩
    have hself {d : Node} (hd : d ∈ out) (h' : b.CoveredBy depth d) : b = d := by
      by_contra hne
      exact (h.apart.forall hb hd hne).1 h'
    rcases h.covered c hc with hc' | ⟨d, hd, hcd⟩
    · exact hself hc' hcovered ▸ hcovered
    · have hbd := hcovered.trans hblind hvalid hregular (hlive b (hout hb)) (hlive c hc) (hlive d (hout hd)) hcd
      rwa [← hself hd hbd] at hcd
  · rintro ⟨b, hb, rfl, hmost⟩
    rcases h.covered b hb with hb' | ⟨c, hc, hcovered⟩
    · exact List.mem_map_of_mem hb'
    · refine List.mem_map.mpr ⟨c, hc, ?_⟩
      exact (hmost c (hout hc) hcovered).antisymm hblind hvalid hregular (hlive c (hout hc)) (hlive b hb) hcovered

theorem uncovered_of_types (hlive' : ∀ n ∈ live', n.Coverable depth space)
    (htypes : ∀ type, type ∈ live.map typeId ↔ type ∈ live'.map typeId) (h : Uncovered depth live type) :
    Uncovered depth live' type := by
  obtain ⟨b, hb, rfl, hmost⟩ := h
  obtain ⟨b', hb', htype⟩ := List.mem_map.mp ((htypes b.typeId).mp (List.mem_map_of_mem hb))
  refine ⟨b', hb', htype, fun c' hc' hcovered => ?_⟩
  obtain ⟨c, hc, htype'⟩ := List.mem_map.mp ((htypes c'.typeId).mpr (List.mem_map_of_mem hc'))
  have hbc := hcovered.of_types hblind hvalid hregular (hlive' b' hb') (hlive' c' hc') (hlive b hb) (hlive c hc)
    htype.symm htype'.symm
  exact (hmost c hc hbc).of_types hblind hvalid hregular (hlive c hc) (hlive b hb) (hlive' c' hc') (hlive' b' hb')
    htype'.symm htype.symm

/-- Of branches of the same types the same types are left. -/
theorem ReducedUpTo.types_perm {out' : List Node} (hlive' : ∀ n ∈ live', n.Coverable depth space)
    (hnodup : (live.map typeId).Nodup) (hperm : (live.map typeId).Perm (live'.map typeId))
    (h : ReducedUpTo limit depth live out) (h' : ReducedUpTo limit depth live' out') :
    (out.map typeId).Perm (out'.map typeId) := by
  have hlength : live.length = live'.length := by simpa using hperm.length_eq
  have hsublist := (h.sublist.map typeId)
  have hsublist' := (h'.sublist.map typeId)
  unfold ReducedUpTo at h h'
  rw [← hlength] at h'
  split at h
  · rename_i hlimit
    rw [if_pos hlimit] at h'
    have hmem (type : String) : type ∈ live.map typeId ↔ type ∈ live'.map typeId := hperm.mem_iff
    refine (List.perm_ext_iff_of_nodup (hnodup.sublist hsublist) ((hperm.nodup_iff.mp hnodup).sublist hsublist')).mpr
      fun type => ?_
    rw [h.types hblind hvalid hregular hlive, h'.types hblind hvalid hregular hlive']
    exact ⟨uncovered_of_types hblind hvalid hregular hlive hlive' hmem,
      uncovered_of_types hblind hvalid hregular hlive' hlive fun type => (hmem type).symm⟩
  · rename_i hlimit
    rw [if_neg hlimit] at h'
    rw [h, h']
    exact hperm

end

-- ---------------------------------------------------------------------------
-- Assembling
-- ---------------------------------------------------------------------------

theorem reduceDistinct_reduced (hblind : BlindToSign) (hvalid : space.Valid)
    (hnodes : ∀ n ∈ nodes, n.Coverable depth space) :
    Ensures ground True space (reduceDistinct (conjoinBranches (conjoinWithin depth)) nodes) fun later out =>
      later.Regular → ReducedUpTo later.config.maxReducibleBranches depth (distinctByType nodes) out := by
  unfold reduceDistinct
  refine (Ensures.note hvalid).bind ?_
  rintro noted ⟨⟩ hvalidNoted hextNoted -
  refine (reducible_spec hvalidNoted).bind ?_
  rintro limited _ hvalidLimited hextLimited rfl
  have hdistinct : ∀ n ∈ distinctByType nodes, n.Coverable depth limited := fun n hn =>
    (hnodes n ((distinctByType_sublist nodes).subset hn)).extends (hextLimited.trans hextNoted)
  refine (reduceUpTo_reduced hblind hvalidLimited hdistinct).imp fun later out _ hext hout hregular => ?_
  rw [hext.config]
  exact hout hregular

/-- Branches of the same types, which are assembled in two runs, make unions of one type. -/
theorem assembled_related (hblind : BlindToSign) {conjoin : Meet}
    (hconjoin : conjoin = conjoinBranches (conjoinWithin depth)) (hspace : space.Valid) (hlater : later.Valid)
    (hnodes : ∀ n ∈ nodes, n.Coverable depth space) (hnodes' : ∀ n ∈ nodes, n.Coverable depth later)
    (hperm : nodes.Perm nodes')
    (habreast : Abreast ((reduceDistinct conjoin nodes >>= unite).exec space).2
      ((reduceDistinct conjoin nodes' >>= unite).exec later).2) :
    ∃ n n', ((reduceDistinct conjoin nodes >>= unite).exec space).1 = .ok n ∧
      ((reduceDistinct conjoin nodes' >>= unite).exec later).1 = .ok n' ∧ n.OfOneType n' := by
  subst hconjoin
  have hnodes'' : ∀ n ∈ nodes', n.Coverable depth later := fun n hn => hnodes' n (hperm.mem_iff.mpr hn)
  obtain ⟨out, middle, hexec, hmiddle, hext, hend, hout⟩ :=
    (@reduceDistinct_reduced _ False depth space nodes hblind hspace hnodes).run unite_grows habreast.regular
  obtain ⟨out', middle', hexec', hmiddle', hext', hend', hout'⟩ :=
    (@reduceDistinct_reduced _ False depth later nodes' hblind hlater hnodes'').run unite_grows habreast.regular'
  rw [hexec, hexec'] at habreast ⊢
  generalize hleft : ((unite out).exec middle).2 = left at *
  generalize hright : ((unite out').exec middle').2 = right at *
  have hreduced := hout (habreast.regular.earlier hend)
  have hreduced' := hout' (habreast.regular'.earlier hend')
  rw [← hend.config] at hreduced
  rw [← hend'.config, ← habreast.reducible] at hreduced'
  have hcoverable : ∀ n ∈ nodes, n.Coverable depth left := fun n hn => (hnodes n hn).extends (hend.trans hext)
  have hcoverable' : ∀ n ∈ nodes', n.Coverable depth right := fun n hn => (hnodes'' n hn).extends (hend'.trans hext')
  have hdistinct {n : Node} (hn : n ∈ out) : n ∈ nodes := (hreduced.sublist.trans (distinctByType_sublist _)).subset hn
  have hdistinct' {n : Node} (hn : n ∈ out') : n ∈ nodes' :=
    (hreduced'.sublist.trans (distinctByType_sublist _)).subset hn
  have htypes : (out.map typeId).Perm (out'.map typeId) :=
    hreduced.types_perm hblind habreast.valid habreast.regular
      (fun n hn => hcoverable n ((distinctByType_sublist _).subset hn))
      (fun n hn => hcoverable n (hperm.mem_iff.mpr ((distinctByType_sublist _).subset hn)))
      (distinctByType_nodup nodes) (distinctByType_perm fun type => (hperm.map typeId).mem_iff) hreduced'
  have hlockstep := unite_lockstep habreast
    (fun n hn => ⟨(hcoverable n (hdistinct hn)).holds, (hcoverable n (hdistinct hn)).isBranch⟩)
    (fun n hn => ⟨(hcoverable' n (hdistinct' hn)).holds, (hcoverable' n (hdistinct' hn)).isBranch⟩) htypes
  have hagree := hlockstep.agree middle middle' hmiddle.tidy hmiddle'.tidy (hleft ▸ .refl _) (hright ▸ .refl _)
  obtain ⟨n, hn⟩ := unite_ok out middle
  obtain ⟨n', hn'⟩ := unite_ok out' middle'
  rw [hn, hn'] at hagree
  cases hagree with
  | ok htwins => exact ⟨n, n', hn, hn', htwins.typeId⟩

-- ---------------------------------------------------------------------------
-- Unions
-- ---------------------------------------------------------------------------

/-- A branch of the node has unions in it only if it includes a morph. -/
def Unnested (node : Node) : Prop :=
  ∀ b ∈ node.branches.1, b.includesMorph = false → b.Everywhere fun n => n.kind ≠ .union

instance (node : Node) : Decidable node.Unnested :=
  inferInstanceAs (Decidable (∀ b ∈ node.branches.1, b.includesMorph = false → b.Everywhere fun n => n.kind ≠ .union))

theorem coverable_branches (hvalid : space.Valid) (hheld : ∀ n ∈ nodes, space.Holds n)
    (hroots : ∀ n ∈ nodes, n.isRefinement = false) (hunnested : ∀ n ∈ nodes, n.Unnested) :
    ∀ b ∈ nodes.flatMap fun n => n.branches.1, b.Coverable (listNesting nodes) space := by
  intro b hb
  obtain ⟨n, hn, hb⟩ := List.mem_flatMap.mp hb
  obtain ⟨hbranches, hkinds⟩ := branches_within hvalid (within_listNesting hheld n hn) (hroots n hn)
  have hwithin := hbranches.within b hb
  refine ⟨hwithin.holds, hkinds b hb, fun hmorph => ⟨⟨hwithin.toCalm, fun _ found hfound => ?_⟩, fun _ => ?_⟩⟩
  · have hmorphs := (includesMorph_eq_false (hvalid.everywhere_written hwithin.holds)).mp hmorph
    exact ⟨hunnested n hn b hb hmorph found hfound, hmorphs found hfound⟩
  · exact branch_not_refinement (hkinds b hb)

omit [Behaviour] in
theorem listNesting_perm (h : nodes.Perm nodes') : listNesting nodes = listNesting nodes' := by
  induction h with
  | nil => rfl
  | cons node _ ih => rw [listNesting, listNesting, ih]
  | swap a b rest => simp only [listNesting, Nat.max_left_comm]
  | trans _ _ ih ih' => exact ih.trans ih'

theorem union_exec (hvalid : space.Valid) (hheld : ∀ n ∈ nodes, space.Holds n)
    (hroots : ∀ n ∈ nodes, n.isRefinement = false) : (union nodes).exec space =
      (reduceDistinct (conjoinBranches (conjoinWithin (listNesting nodes))) (nodes.flatMap fun n => n.branches.1) >>=
        unite).exec space := by
  rw [union, SpaceM.exec_bind, exec_adoptList_home fun n hn => hvalid.home n (hheld n hn)]
  dsimp only
  rw [assembleUnion, assembleUnionBy_eq hroots]

/-- A union does not depend on the order its branches are given in, if those without morphs have no unions in them:
both orders give nodes of one type, also where the one is asked for in a later state than the other. -/
theorem union_perm (hblind : BlindToSign) (hspace : space.Reachable True) (hheld : ∀ n ∈ nodes, space.Holds n)
    (hroots : ∀ n ∈ nodes, n.isRefinement = false) (hunnested : ∀ n ∈ nodes, n.Unnested) (hperm : nodes.Perm nodes')
    (hlater : later.Reachable True) (hsucceeds : later.Succeeds ((union nodes).exec space).2)
    (hheld' : ∀ n ∈ nodes, later.Holds n) (hregular : ((union nodes).exec space).2.Regular)
    (hregular' : ((union nodes').exec later).2.Regular) :
    ∃ n n', ((union nodes).exec space).1 = .ok n ∧ ((union nodes').exec later).1 = .ok n' ∧ n.OfOneType n' := by
  have hmem {n : Node} (hn : n ∈ nodes') : n ∈ nodes := hperm.mem_iff.mpr hn
  have habreast := abreast_of_runs hspace.valid hlater.valid
    (@union_reads _ False space nodes fun n hn => .inl (hheld n hn))
    (@union_reads _ False later nodes' fun n hn => .inl (hheld' n (hmem hn))) hsucceeds hregular hregular'
  have hexec := union_exec hspace.valid hheld hroots
  have hexec' := union_exec hlater.valid (fun n hn => hheld' n (hmem hn)) fun n hn => hroots n (hmem hn)
  rw [← listNesting_perm hperm] at hexec'
  rw [hexec, hexec'] at habreast ⊢
  exact assembled_related hblind rfl hspace.valid hlater.valid (coverable_branches hspace.valid hheld hroots hunnested)
    (coverable_branches hlater.valid hheld' hroots hunnested) (hperm.flatMap_right _) habreast

omit [Behaviour] in
/-- Multiples of 4 and numbers come down to numbers, in either order. -/
theorem multiples_in_any_order : ∃ (space : Space) (nodes nodes' : List Node) (n n' : Node),
    @Space.Reachable Stock.behaviour True space ∧ (∀ b ∈ nodes, space.Holds b) ∧ nodes.length = 2 ∧
      nodes.Perm nodes' ∧ nodes.map Node.id ≠ nodes'.map Node.id ∧
      ((@union Stock.behaviour nodes).exec space).1 = .ok n ∧
      ((@union Stock.behaviour nodes').exec ((@union Stock.behaviour nodes).exec space).2).1 = .ok n' ∧
      n.OfOneType n' := by
  let _ := Stock.behaviour
  let multiplesOf (d : Nat) : Definition := .map [("domain", .string "number"), ("divisor", .number (.ofNat d))]
  let program : SpaceM Bool := do
    let l ← (multiplesOf 4).readRoot
    let r ← (Definition.string "number").readRoot
    let _ ← union [l, r]
    let middle ← get
    let _ ← union [r, l]
    let later ← get
    return decide ((∀ n ∈ [l, r], n.isRefinement = false) ∧ (∀ n ∈ [l, r], n.Unnested) ∧ l.id ≠ r.id ∧
      middle.Regular ∧ later.Regular)
  have hyields : program.yields (.new 0 .standard) (fun b => b) = true := by
    decide +kernel
  obtain ⟨l, hl, hyields⟩ := SpaceM.yields_bind.mp hyields
  obtain ⟨r, hr, hyields⟩ := SpaceM.yields_bind.mp hyields
  obtain ⟨-, -, hyields⟩ := SpaceM.yields_bind.mp hyields
  rw [SpaceM.yields_get] at hyields
  obtain ⟨-, -, hyields⟩ := SpaceM.yields_bind.mp hyields
  rw [SpaceM.yields_get, SpaceM.yields_pure, decide_eq_true_eq] at hyields
  obtain ⟨hroots, hunnested, hne, hregular, hregular'⟩ := hyields
  obtain ⟨hspace, hlHeld, hrHeld⟩ := (@Space.Reachable.new _ True 0 .standard).read_both rfl rfl hl hr
  have hheld := List.forall_mem_cons.mpr ⟨hlHeld, List.forall_mem_singleton.mpr hrHeld⟩
  have hrun : (Request.union [l, r]).run = (do let _ ← union [l, r]) := rfl
  obtain ⟨hlater, hext⟩ := hspace.after hrun (List.forall_mem_nil _) hheld
  obtain ⟨n, n', hn, hn', htype⟩ := union_perm Stock.blindToSign hspace hheld hroots hunnested (.swap r l []) hlater
    (.refl _) (fun b hb => hext.holds b (hheld b hb)) hregular hregular'
  exact ⟨_, [l, r], [r, l], n, n', hspace, hheld, rfl, .swap r l [], fun h => hne (List.cons.inj h).1, hn, hn', htype⟩

end Node

end SchemaAlgebra
