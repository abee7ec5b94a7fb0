-- SUMMARY: Equality of nodes across spaces: an equivalence, whichever space is asked, between nodes that accept the same values.
import SchemaAlgebra.Proofs.RoundTrip

/-!
# Equality across spaces

Two nodes are compared in the space of the first, where the second is adopted. The
other way round, other names are given and other texts compared. In regular spaces
the answer is the same, since either way nodes are equal if they match.
-/

namespace SchemaAlgebra

namespace Node

variable [Behaviour] {space : Space} {l r : Node}

/-- Two nodes can be compared in a regular space: the first is alive there, the second there or in another regular
space. -/
structure Comparable (space : Space) (l r : Node) : Prop where
  reachable : space.Reachable True
  regular : space.Regular
  left : space.Holds l
  right : space.Holds r ∨
    ∃ origin : Space, origin.Reachable True ∧ origin.Regular ∧ origin.number ≠ space.number ∧ origin.Holds r

/-- Comparing nodes tells whether they match. -/
theorem equals_iff_matches (h : Comparable space l r) :
    ∃ same, ((equals l r).exec space).1 = .ok same ∧ (same = true ↔ l.Matches r) := by
  have hvalid := h.reachable.valid
  rcases h.right with hr | ⟨origin, horigin, hregular, hne, hr⟩
  · refine ⟨l.sameType r, ?_, ?_⟩
    · rw [equals, SpaceM.exec_bind, exec_adopt_home (hvalid.home r hr)]
      rfl
    · rw [matches_iff_typeId hvalid h.regular h.left hr, sameType, beq_iff_eq]
  · obtain ⟨copy, later, hexec, hvalid', hregular', hext, hcopy⟩ :=
      copyable horigin.valid hregular hr space hvalid h.regular hne.symm
    refine ⟨l.sameType copy, ?_, ?_⟩
    · rw [equals, SpaceM.exec_bind, hexec]
      rfl
    · rw [sameType, beq_iff_eq, ← matches_iff_typeId hvalid' hregular' (hext.holds l h.left) hcopy.holds]
      exact ⟨fun hl => hl.trans hcopy.matching.symm, fun hl => hl.trans hcopy.matching⟩

theorem equals_of_matches (h : Comparable space l r) (hmatches : l.Matches r) :
    ((equals l r).exec space).1 = .ok true := by
  obtain ⟨same, hequals, hiff⟩ := equals_iff_matches h
  rw [hequals, hiff.mpr hmatches]

theorem matches_of_equals (h : Comparable space l r) (hequals : ((equals l r).exec space).1 = .ok true) :
    l.Matches r := by
  obtain ⟨same, hequals', hiff⟩ := equals_iff_matches h
  exact hiff.mp (Except.ok.inj (hequals'.symm.trans hequals))

/-- A node of a space accepts the same values as one of any space that matches it. -/
theorem Comparable.allows_eq (h : Comparable space l r) (hmatches : l.Matches r) (v : Value) :
    l.allows v = r.allows v := by
  have hwritten := h.reachable.valid.everywhere_written h.left
  rcases h.right with hr | ⟨origin, horigin, -, -, hr⟩
  · exact hmatches.allows_eq hwritten (h.reachable.valid.everywhere_written hr) v
  · exact hmatches.allows_eq hwritten (horigin.valid.everywhere_written hr) v

/-- Equality of nodes of any regular spaces, asked in whatever state these are in: a node equals itself, both spaces
give the same answer, equality is passed on, and equal nodes accept the same values. -/
theorem equals_equivalence :
    (∀ (space : Space) (l : Node), Comparable space l l → ((equals l l).exec space).1 = .ok true) ∧
      (∀ (space other : Space) (l r : Node), Comparable space l r → Comparable other r l →
        ∃ same, ((equals l r).exec space).1 = .ok same ∧ ((equals r l).exec other).1 = .ok same) ∧
      (∀ (first second third : Space) (a b c : Node), Comparable first a b → Comparable second b c →
        Comparable third a c → ((equals a b).exec first).1 = .ok true → ((equals b c).exec second).1 = .ok true →
          ((equals a c).exec third).1 = .ok true) ∧
      ∀ (space : Space) (l r : Node), Comparable space l r → ((equals l r).exec space).1 = .ok true →
        ∀ v, l.allows v = r.allows v := by
  refine ⟨fun space l h => equals_of_matches h (.refl l), fun space other l r h h' => ?_,
    fun first second third a b c hab hbc hac heq heq' => ?_, fun space l r h heq v => ?_⟩
  · obtain ⟨same, hequals, hiff⟩ := equals_iff_matches h
    obtain ⟨same', hequals', hiff'⟩ := equals_iff_matches h'
    have hsame : same = same' := by
      rw [Bool.eq_iff_iff, hiff, hiff']
      exact ⟨Matches.symm, Matches.symm⟩
    exact ⟨same, hequals, hsame ▸ hequals'⟩
  · exact equals_of_matches hac ((matches_of_equals hab heq).trans (matches_of_equals hbc heq'))
  · exact h.allows_eq (matches_of_equals h heq) v

omit [Behaviour] in
/-- A test without a name, written in three spaces that each know it by another name: the nodes are equal whichever
space is asked, and accept the same values. -/
theorem unnamed_tests_equal : ∃ (first second third : Space) (a b c : Node),
    @Comparable Stock.behaviour first a b ∧ @Comparable Stock.behaviour second b c ∧
      @Comparable Stock.behaviour third c a ∧ a.typeId ≠ b.typeId ∧ b.typeId ≠ c.typeId ∧ a.typeId ≠ c.typeId ∧
      ((equals a b).exec first).1 = .ok true ∧ ((equals b c).exec second).1 = .ok true ∧
      ((equals a c).exec first).1 = .ok true ∧ ((equals c a).exec third).1 = .ok true ∧
      ((equals a a).exec first).1 = .ok true ∧ ∀ v, @allows Stock.behaviour a v = @allows Stock.behaviour c v := by
  let _ := Stock.behaviour
  let tested (serial : Nat) (operation : String) : Definition :=
    .map [("basis", .string "number"), ("predicate", .list [.predicate ⟨serial, none, operation⟩])]
  let even := tested 1 "even"
  let config : SpaceConfig := ⟨"$other", false, 8⟩
  let before := ((tested 0 "positive").readRoot.exec (.new 2 .standard)).2
  let first := (even.readRoot.exec (.new 0 .standard)).2
  let second := (even.readRoot.exec (.new 1 config)).2
  let third := (even.readRoot.exec before).2
  have hregular : first.Regular ∧ second.Regular ∧ third.Regular := by
    decide +kernel
  have hyields : even.readRoot.yields (.new 0 .standard) (fun a =>
      even.readRoot.yields (.new 1 config) fun b => even.readRoot.yields before fun c =>
        decide (a.typeId ≠ b.typeId ∧ b.typeId ≠ c.typeId ∧ a.typeId ≠ c.typeId) &&
          (equals a b).yields first (fun same => same) && (equals b c).yields second fun same => same) = true := by
    decide +kernel
  simp only [SpaceM.yields_iff, Bool.and_eq_true, decide_eq_true_eq] at hyields
  obtain ⟨a, ha, b, hb, c, hc, ⟨⟨hab, hbc, hac⟩, _, hequal, rfl⟩, _, hequal', rfl⟩ := hyields
  obtain ⟨hfirst, -, hheld⟩ := (@Space.Reachable.new _ True 0 .standard).read (d := even) (List.forall_mem_nil _)
  obtain ⟨hsecond, -, hheld'⟩ := (@Space.Reachable.new _ True 1 config).read (d := even) (List.forall_mem_nil _)
  obtain ⟨hbefore, -, -⟩ :=
    (@Space.Reachable.new _ True 2 .standard).read (d := tested 0 "positive") (List.forall_mem_nil _)
  obtain ⟨hthird, -, hheld''⟩ := hbefore.read (d := even) (List.forall_mem_nil _)
  have hnumbers : first.number = 0 ∧ second.number = 1 ∧ third.number = 2 := by
    decide +kernel
  have hleft {r : Node} (hr : first.Holds r ∨
      ∃ origin : Space, origin.Reachable True ∧ origin.Regular ∧ origin.number ≠ first.number ∧ origin.Holds r) :
      Comparable first a r := ⟨hfirst, hregular.1, hheld a ha, hr⟩
  have haa := hleft (.inl (hheld a ha))
  have hab' := hleft (.inr ⟨second, hsecond, hregular.2.1, by rw [hnumbers.1, hnumbers.2.1]; decide, hheld' b hb⟩)
  have hac' := hleft (.inr ⟨third, hthird, hregular.2.2, by rw [hnumbers.1, hnumbers.2.2]; decide, hheld'' c hc⟩)
  have hbc' : Comparable second b c := ⟨hsecond, hregular.2.1, hheld' b hb,
    .inr ⟨third, hthird, hregular.2.2, by rw [hnumbers.2.1, hnumbers.2.2]; decide, hheld'' c hc⟩⟩
  have hca' : Comparable third c a := ⟨hthird, hregular.2.2, hheld'' c hc,
    .inr ⟨first, hfirst, hregular.1, by rw [hnumbers.1, hnumbers.2.2]; decide, hheld a ha⟩⟩
  obtain ⟨hself, hsymm, htrans, hallows⟩ := equals_equivalence
  have hequal'' := htrans first second first a b c hab' hbc' hac' hequal hequal'
  obtain ⟨same, hsame, hback⟩ := hsymm first third a c hac' hca'
  rw [← hsame, hequal''] at hback
  exact ⟨first, second, third, a, b, c, hab', hbc', hca', hab, hbc, hac, hequal, hequal', hequal'', hback,
    hself first a haa, hallows first a c hac' hequal''⟩

end Node

end SchemaAlgebra
