-- SUMMARY: What interning gives accepts what it was given, in regular spaces; a bare refinement as a value is confused.
import SchemaAlgebra.Proofs.Decision
import SchemaAlgebra.Proofs.Reachable
import SchemaAlgebra.Stock

/-!
# Soundness of identity

Identifiers are texts. In a regular space they tell nodes apart by what they accept,
so interning gives a node that accepts what the content says, and nodes of one type
accept the same values. A property that holds a bare refinement is written like one
that holds a refinement of another kind, and interning gives whichever came first.
-/

namespace SchemaAlgebra

namespace Space

variable {space : Space}

/-- Interning an exact content keeps a space regular. -/
theorem Regular.intern (hregular : space.Regular) (hvalid : space.Valid) {content : Content Node} (caption : Caption)
    (hexact : content.Exact) : (space.intern content caption).2.Regular := by
  have hnaming : (space.naming content).Regular := ⟨hregular.exact, hregular.multiples⟩
  rcases intern_cases space content caption with ⟨node, -, heq⟩ | ⟨hfind, heq⟩
  · rw [heq]
    exact hnaming
  · rw [heq]
    refine ⟨fun node hnode => ?_, hregular.multiples⟩
    rcases (holds_adding (hvalid.naming content).tidy hfind).mp hnode with rfl | hold
    · exact hexact
    · exact hregular.exact node hold

variable [Behaviour]

/-- Identity is sound in a regular space: a well-formed exact content is interned as a node that accepts what it
says, and nodes of one type accept the same values. -/
theorem identity_sound {adopting : Prop} (hreachable : space.Reachable adopting) (hregular : space.Regular) :
    (∀ (content : Content Node) (caption : Caption), content.Sound → content.Exact →
      (∀ c ∈ content.children, space.Holds c) →
        ∀ v, (space.intern content caption).1.allows v = content.allows none v) ∧
      ∀ a b, space.Holds a → space.Holds b → a.typeId = b.typeId → ∀ v, a.allows v = b.allows v := by
  have hvalid := hreachable.valid
  refine ⟨fun content caption hsound hexact hchildren v => ?_, fun a b ha hb heq v => ?_⟩
  · have hwritten := hvalid.intern_written caption hsound hchildren
    have hmeans := (hvalid.interned caption hsound hchildren).means (hregular.intern hvalid caption hexact) hexact
    refine hmeans.allows_of_written hwritten (fun c hc found hfound => ?_) v
    exact (hvalid.everywhere_written (hchildren c hc) found hfound).extends
      (hvalid.intern_extends content caption).registry
  · exact hvalid.allows_eq hregular ha hb (beq_iff_eq.mpr heq) v

omit [Behaviour] in
/-- In the space of an object with a required property, the text under its key is interned as a property of texts. -/
theorem property_identity_sound : ∃ (space : Space) (value : Node), @Space.Reachable Stock.behaviour False space ∧
    space.Regular ∧ space.Holds value ∧ ∀ v,
      @Node.allows Stock.behaviour (space.intern (.required (.string "a") value) .none).1 v =
        @Content.allows Stock.behaviour none (.required (.string "a") value) v := by
  let _ := Stock.behaviour
  let program : SpaceM Bool := do
    let value ← (Definition.string "string").readRoot
    let space ← get
    return !value.isRefinement && decide space.Regular
  have hyields : program.yields (.new 0 .standard) (fun b => b) = true := by
    decide +kernel
  obtain ⟨value, hvalue, hyields⟩ := SpaceM.yields_bind.mp hyields
  obtain ⟨hreachable, -, hholds⟩ :=
    (@Space.Reachable.new _ False 0 .standard).read (d := .string "string") (List.forall_mem_nil _)
  rw [SpaceM.yields_get, SpaceM.yields_pure, Bool.and_eq_true, Bool.not_eq_true', decide_eq_true_eq] at hyields
  refine ⟨_, value, hreachable, hyields.2, hholds value hvalue, ?_⟩
  exact (identity_sound hreachable hyields.2).1 (.required (.string "a") value) .none trivial hyields.1
    (List.forall_mem_singleton.mpr (hholds value hvalue))

omit [Behaviour] in
/-- A required property of a bare divisor is taken for one of a bare minimum that is written with the same number:
interning the second gives the first. -/
theorem divisor_taken_for_minimum : ∃ (space : Space) (value : Node) (v : Value),
    @Space.Reachable Stock.behaviour False space ∧ space.Holds value ∧
      @Content.allows Stock.behaviour none (.required (.string "a") value) v = true ∧
      @Node.allows Stock.behaviour (space.intern (.required (.string "a") value) .none).1 v = false := by
  let _ := Stock.behaviour
  let number (n : Nat) : Definition := .number (.ofNat n)
  let holding (value : Node) : Definition := .map [("basis", .string "object"),
    ("required", .list [.map [("key", .string "a"), ("value", .node value)]])]
  let four : Value := .object ⟨0, some .object, .plain, [(.string "a", .number (.ofNat 4))]⟩
  let program : SpaceM Bool := do
    let minimum ← Definition.readKind .min (number 3)
    let divisor ← Definition.readKind .divisor (number 3)
    let _ ← (holding divisor).readRoot
    let space ← get
    let content : Content Node := .required (.string "a") minimum
    return Content.allows none content four && !(space.intern content .none).1.allows four
  have hyields : program.yields (.new 0 .standard) (fun b => b) = true := by
    decide +kernel
  obtain ⟨minimum, hminimum, hyields⟩ := SpaceM.yields_bind.mp hyields
  obtain ⟨divisor, hdivisor, hyields⟩ := SpaceM.yields_bind.mp hyields
  obtain ⟨root, hroot, hyields⟩ := SpaceM.yields_bind.mp hyields
  rw [SpaceM.yields_get, SpaceM.yields_pure, Bool.and_eq_true, Bool.not_eq_true'] at hyields
  obtain ⟨hfirst, -, hheld⟩ := @Reachable.readKind _ _ False (.new 0 .standard) .min (number 3)
    (List.forall_mem_nil _)
  obtain ⟨hsecond, hext, hheld'⟩ := @Reachable.readKind _ _ False hfirst .divisor (number 3) (List.forall_mem_nil _)
  obtain ⟨hthird, hext', -⟩ := hsecond.read (d := holding divisor)
    (List.forall_mem_singleton.mpr (hheld' divisor hdivisor))
  exact ⟨_, minimum, four, hthird, hext'.holds _ (hext.holds _ (hheld minimum hminimum)), hyields.1, hyields.2⟩

end Space

end SchemaAlgebra
