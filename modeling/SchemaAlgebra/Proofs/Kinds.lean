-- SUMMARY: What is read as one of a kind is one of this kind, but for the word that stands for a union.
import SchemaAlgebra.Proofs.Conflicts
import SchemaAlgebra.Proofs.NumericRules

/-!
# Kinds

A definition can be read as a node of one kind. An intersection may come down to its
basis and a union to its only branch; nothing else turns into another kind. One word is
an exception: where an intersection is asked for, single words are read as roots are, and
among the words for bases there is one that stands for a union.
-/

namespace SchemaAlgebra

open SpaceM (Ensures)

namespace Node

variable {space : Space} {a b : Node} {v w : Value}

/-- Whatever a content is interned as is of its kind. -/
theorem intern_kind (hvalid : space.Valid) (content : Content Node) (caption : Caption) :
    (space.intern content caption).1.kind = content.kind := by
  have hnaming := hvalid.naming content
  rcases Space.intern_cases space content caption with ⟨node, hfind, heq⟩ | ⟨-, heq⟩
  · rw [heq]
    obtain ⟨hholds, hid⟩ := Space.holds_of_find? hnaming.tidy hfind
    rw [(hnaming.written node hholds).id] at hid
    exact kind_eq_of_identifier hid
  · rw [heq]
    rfl

/-- A unit is interned as one of a value that differs from it by the sign of zero at most. -/
theorem intern_unit (hvalid : space.Valid) (v : Value) :
    (space.intern (.unit v) .none).2.Valid ∧ (space.intern (.unit v) .none).2.Extends space ∧
      (space.intern (.unit v) .none).2.Holds (space.intern (.unit v) .none).1 ∧
        ∃ w, (space.intern (.unit v) .none).1.content = .unit w ∧ w.unsigned = v.unsigned := by
  have hsound : (Content.unit v : Content Node).Sound := trivial
  have hchildren : ∀ c ∈ (Content.unit v : Content Node).children, space.Holds c := List.forall_mem_nil _
  have hinterned := hvalid.interned .none hsound hchildren
  refine ⟨hvalid.intern hsound trivial hchildren, hvalid.intern_extends _ _, hinterned.holds, ?_⟩
  have houtline := hinterned.outline
  cases hc : (space.intern (.unit v) .none).1.content with
  | unit w =>
      rw [hc] at houtline
      exact ⟨w, rfl, Content.unit.inj houtline⟩
  | _ => rw [hc] at houtline; cases houtline

-- ---------------------------------------------------------------------------
-- Two units
-- ---------------------------------------------------------------------------

theorem distinctByType_pair (hne : a.sameType b = false) : distinctByType [a, b] = [a, b] := by
  have hne' := (sameType_comm b a).trans hne
  simp [distinctByType, hne']

theorem flatten_units (ha : a.content = .unit v) (hb : b.content = .unit w) : flatten [a, b] = pure [a, b] := by
  have hbranch : a.kind.isBranch = true := by rw [kind, ha]; rfl
  have hbranch' : b.kind.isBranch = true := by rw [kind, hb]; rfl
  rw [flatten, ha]
  dsimp only
  rw [if_pos hbranch, flatten, hb]
  dsimp only
  rw [if_pos hbranch', flatten]
  rfl

variable [Behaviour]

/-- Units of different values have nothing in common. -/
theorem conjoinBranches_units (hvalid : space.Valid) (hheld : space.Holds b) (ha : a.content = .unit v)
    (hb : b.content = .unit w) (hne : a.sameType b = false) (hvalues : w.unsigned ≠ v.unsigned) (meet : Meet) :
    conjoinBranches meet a b = pure (.disjoint (.between .unit a b)) := by
  have hkind : a.kind = .unit := by rw [kind, ha]; rfl
  have hkind' : b.kind = .unit := by rw [kind, hb]; rfl
  have horder : a.kind.order ≤ b.kind.order := by rw [hkind, hkind']
  have hrefuses : ¬ b.allows v = true := fun hallows => hvalues ((allows_unit hvalid hheld hb).mp hallows)
  have hmeets : meetMorphs meet a b = pure (.disjoint (.between .unit a b)) := by
    rw [meetMorphs, ha, hb]
    dsimp only
    rw [meetIntersections, ha]
    dsimp only
    rw [meetConstraints, ha, hb]
    dsimp only
    rw [meetUnit, if_neg hrefuses, if_pos hkind']
  rw [conjoinBranches, conjoinBy, meetBy_forth hne horder, hmeets, pure_bind]

/-- Neither of two units is dropped for the other. -/
theorem reduceUpTo_units (hvalid : space.Valid) (hheld : space.Holds b) (ha : a.content = .unit v)
    (hb : b.content = .unit w) (hne : a.sameType b = false) (hvalues : w.unsigned ≠ v.unsigned) (limit : Nat)
    (meet : Meet) : reduceUpTo limit (conjoinBranches meet) [a, b] = pure [a, b] := by
  have hlater (kept : List Bool) : compareWithLater (conjoinBranches meet) b [] kept = pure (true, kept) := by
    cases kept <;> rfl
  have hcompare : compareWithLater (conjoinBranches meet) a [b] [true] = pure (true, [true]) := by
    rw [compareWithLater]
    split
    · rfl
    · rw [conjoinBranches_units hvalid hheld ha hb hne hvalues]
      rfl
  have hreduce : reduceBranches (conjoinBranches meet) [a, b] = pure [a, b] := by
    rw [reduceBranches, List.map_cons, List.map_cons, List.map_nil, reduceFrom, hcompare, pure_bind]
    rfl
  rw [reduceUpTo, hreduce, ite_self]

/-- The union of two units is one. -/
theorem assembleUnion_units (hvalid : space.Valid) (hheld : space.Holds b) (ha : a.content = .unit v)
    (hb : b.content = .unit w) (hne : a.sameType b = false) (hvalues : w.unsigned ≠ v.unsigned) :
    (assembleUnion [a, b] false .none).yields space (fun n => n.kind = .union) = true := by
  have hexhaustive : isExhaustive [a, b] = false := by
    simp [isExhaustive, hasDomain, Domain.nonEnumerable, ha, hb]
  have hnoted := @Ensures.note True False space (.branches [a, b]) hvalid
  unfold assembleUnion assembleUnionBy
  rw [flatten_units ha hb, pure_bind, distinctByType_pair hne]
  refine SpaceM.yields_bind.mpr ⟨(), rfl, SpaceM.yields_bind.mpr ⟨_, rfl, ?_⟩⟩
  rw [reduceUpTo_units hnoted.valid (hnoted.extension.holds b hheld) ha hb hne hvalues, pure_bind, coverAll,
    if_neg (Bool.eq_false_iff.mp hexhaustive), pure_bind]
  dsimp only
  split
  · rename_i only hone _
    have hlength := (sortBranches_perm [a, b]).length_eq
    rw [if_neg Bool.false_ne_true] at hone
    rw [hone] at hlength
    cases hlength
  · exact decide_eq_true (intern_kind hnoted.valid _ _)

end Node

namespace Definition

open Node (Welcome)

variable [Behaviour] {space : Space}

-- ---------------------------------------------------------------------------
-- Reading as one of a kind
-- ---------------------------------------------------------------------------

/-- One word stands for a union. -/
theorem readRootName_boolean (hvalid : space.Valid) :
    (readRootName "boolean").yields space (fun n => n.kind = .union) = true := by
  obtain ⟨hvalid', -, hyes, v, hv, hvtrue⟩ := Node.intern_unit hvalid (.boolean true)
  obtain ⟨hvalid'', hext, hno, w, hw, hwfalse⟩ := Node.intern_unit hvalid' (.boolean false)
  have hvalues : w.unsigned ≠ v.unsigned := by
    rw [hvtrue, hwfalse]
    decide
  unfold readRootName
  refine SpaceM.yields_bind.mpr ⟨_, rfl, SpaceM.yields_bind.mpr ⟨_, rfl, ?_⟩⟩
  refine Node.assembleUnion_units hvalid'' hno hv hw ?_ hvalues
  rw [Bool.eq_false_iff]
  intro hsame
  have houtline := hvalid''.outline_eq (hext.holds _ hyes) hno hsame
  rw [hv, hw] at houtline
  exact hvalues (Content.unit.inj houtline).symm

/-- What is read as one of a kind is one of this kind, an intersection that comes down to its basis, or a union that comes
down to one branch. Only the word for booleans, of which there are two, is a union where an intersection is asked for. -/
theorem readKind_comesTo {adopting : Prop} (hreachable : space.Reachable adopting) {kind : Kind} {d : Definition}
    {n : Node} (hguests : ∀ m ∈ d.nodes, Welcome False space m)
    (hread : ((readKind kind d).exec space).1 = .ok n) :
    ((kind = .intersection → d ≠ .string "boolean") → kind.ComesTo n.kind) ∧
      (kind = .intersection → d = .string "boolean" → n.kind = .union) := by
  have hvalid := hreachable.valid
  refine ⟨((readKind_spec kind d hguests space hvalid (.refl space)).result n hread).2, ?_⟩
  rintro rfl rfl
  obtain ⟨m, hm, hkind⟩ := SpaceM.yields_iff.mp (readRootName_boolean hvalid)
  rw [← Except.ok.inj (hm.symm.trans hread)]
  exact of_decide_eq_true hkind

omit [Behaviour] in
/-- Multiples of 4 or of 2, read as a union, come down to the multiples of 2. -/
theorem multiples_come_to_intersection : ∃ (space : Space) (n : Node), @Space.Reachable Stock.behaviour True space ∧
    ((@readKind Stock.behaviour .union (.list [.map [("domain", .string "number"), ("divisor", .number (.ofNat 4))],
      .map [("domain", .string "number"), ("divisor", .number (.ofNat 2))]])).exec space).1 = .ok n ∧
    n.kind = .intersection ∧ Kind.union.ComesTo n.kind := by
  let _ := Stock.behaviour
  let d : Definition := .list [.map [("domain", .string "number"), ("divisor", .number (.ofNat 4))],
    .map [("domain", .string "number"), ("divisor", .number (.ofNat 2))]]
  let program : SpaceM Bool := do
    let n ← readKind .union d
    return decide (n.kind = .intersection)
  have hyields : program.yields (.new 0 .standard) (fun b => b) = true := by decide +kernel
  obtain ⟨n, hread, hrest⟩ := SpaceM.yields_bind.mp hyields
  rw [SpaceM.yields_pure, decide_eq_true_eq] at hrest
  have hnew : Space.Reachable True (.new 0 .standard) := .new 0 .standard
  have hguests : ∀ m ∈ d.nodes, Welcome False (.new 0 .standard) m := List.forall_mem_nil _
  exact ⟨_, n, hnew, hread, hrest, (readKind_comesTo hnew hguests hread).1 nofun⟩

omit [Behaviour] in
/-- In a new space, what is read as an intersection can be a union. -/
theorem boolean_is_union : ∃ (space : Space) (n : Node), @Space.Reachable Stock.behaviour True space ∧
    ((@readKind Stock.behaviour .intersection (.string "boolean")).exec space).1 = .ok n ∧ n.kind = .union ∧
      ¬ Kind.intersection.ComesTo n.kind := by
  let _ := Stock.behaviour
  have hnew : Space.Reachable True (.new 0 .standard) := .new 0 .standard
  obtain ⟨n, hread, hunion⟩ := SpaceM.yields_iff.mp (readRootName_boolean hnew.valid)
  have hkind : n.kind = .union := of_decide_eq_true hunion
  refine ⟨_, n, hnew, hread, hkind, ?_⟩
  rw [hkind]
  rintro (h | ⟨-, h⟩ | ⟨h, -⟩) <;> cases h

end Definition

end SchemaAlgebra
