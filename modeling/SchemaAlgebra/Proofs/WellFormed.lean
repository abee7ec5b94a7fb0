-- SUMMARY: Well-formed contents: which nodes stand where, and that the rules of an intersection are settled.
import SchemaAlgebra.Algebra.Conjunction
import SchemaAlgebra.Proofs.StableSort
import Mathlib.Data.List.Basic

/-!
# Well-formed contents

However a node was made, its content is well-formed: branches, rules and the ends
of morphs are of kinds that may stand there, and no two rules of an intersection
restrict one aspect of a value. A space can still hold contents that its texts do
not tell apart; the exact ones among the well-formed contents are told apart.
-/

namespace SchemaAlgebra

-- ---------------------------------------------------------------------------
-- Aspects
-- ---------------------------------------------------------------------------

/-- What a constraint restricts, as far as an intersection holds one such constraint only. -/
inductive Slot where
  | basis
  | divisor
  | max (axis : BoundAxis)
  | min (axis : BoundAxis)
  | pattern (pattern : Pattern)
  | predicate (predicate : Predicate)
  | required (key : PropKey)
  | optional (key : PropKey)

def Content.slot? {ν : Type} : Content ν → Option Slot
  | .unit _ | .proto _ | .domain _ => some .basis
  | .divisor _ => some .divisor
  | .max bound => some (.max bound.axis)
  | .min bound => some (.min bound.axis)
  | .pattern p => some (.pattern p)
  | .predicate p => some (.predicate p)
  | .required key _ => some (.required key)
  | .optional key _ => some (.optional key)
  | _ => none

namespace Node

def slot? (node : Node) : Option Slot := node.content.slot?

theorem slot?_isSome {node : Node} (h : node.kind.isConstraint = true) : ∃ slot, node.slot? = some slot := by
  unfold slot?
  unfold kind at h
  cases hc : node.content with
  | union => rw [hc] at h; cases h
  | morph => rw [hc] at h; cases h
  | intersection => rw [hc] at h; cases h
  | _ => exact ⟨_, rfl⟩

/-- Two rules that can stand side by side. A unit stands alone. Two divisors stay apart only where their
least common multiple did not fit, which `exact` excludes. -/
structure Apart (exact : Bool) (a b : Node) : Prop where
  left : a.kind ≠ .unit
  right : b.kind ≠ .unit
  slots : ∀ slot, a.slot? = some slot → b.slot? = some slot → slot = .divisor ∧ exact = false

theorem Apart.symm {exact : Bool} {a b : Node} (h : a.Apart exact b) : b.Apart exact a :=
  ⟨h.right, h.left, fun slot hb ha => h.slots slot ha hb⟩

-- ---------------------------------------------------------------------------
-- Applicability
-- ---------------------------------------------------------------------------

theorem firstInapplicable?_eq_none {basis : Option Node} {constraints : List Node} :
    firstInapplicable? basis constraints = none ↔ ∀ c ∈ constraints, c.applicabilityError? basis = none := by
  simp [firstInapplicable?]

theorem not_array_and_date (p : Proto) : ¬ (p.isSubclassOf .array = true ∧ p.isSubclassOf .date = true) := by
  induction p with
  | object => decide
  | extending serial name parent ih =>
      rintro ⟨harray, hdate⟩
      simp only [Proto.isSubclassOf, Proto.chain, List.contains_cons, Bool.or_eq_true, beq_iff_eq] at harray hdate ih
      rcases harray with harray | harray <;> rcases hdate with hdate | hdate
      · exact absurd (harray.trans hdate.symm) (by decide)
      · obtain ⟨-, -, rfl⟩ := Proto.extending.inj harray
        exact absurd hdate (by decide)
      · obtain ⟨-, -, rfl⟩ := Proto.extending.inj hdate
        exact absurd harray (by decide)
      · exact ih ⟨harray, hdate⟩

theorem basisDomain?_of_basisProto? {node : Node} {p : Proto} (h : node.basisProto? = some p) :
    node.basisDomain? = some .object := by
  unfold basisProto? at h
  unfold basisDomain?
  split at h
  · rename_i hc; rw [hc]
  · cases h

/-- At most one axis applies to a basis. -/
theorem axisApplies_unique {axis axis' : BoundAxis} {basis : Option Node} (h : axisApplies axis basis = true)
    (h' : axisApplies axis' basis = true) : axis = axis' := by
  cases basis with
  | none => cases axis <;> cases h
  | some basis =>
      simp only [axisApplies, Option.bind_some] at h h'
      cases hp : basis.basisProto? with
      | none => simp only [hp] at h h'; cases axis <;> cases axis' <;> simp_all
      | some p =>
          have hboth := not_array_and_date p
          simp only [hp, basisDomain?_of_basisProto? hp] at h h'
          cases axis <;> cases axis' <;> simp_all

theorem axisApplies_some {axis : BoundAxis} {basis : Node} : axisApplies axis (some basis) = true ↔ match axis with
    | .value => basis.basisDomain? = some .number
    | .length => basis.basisDomain? = some .string ∨ ∃ p, basis.basisProto? = some p ∧ p.isSubclassOf .array = true
    | .time => ∃ p, basis.basisProto? = some p ∧ p.isSubclassOf .date = true := by
  cases axis <;> simp [axisApplies, Option.any_eq_true]

/-- The axis of a bound that can apply. -/
theorem axisApplies_of_max {node : Node} {bound : Bound} {basis : Option Node} (hc : node.content = .max bound)
    (h : node.applicabilityError? basis = none) : axisApplies bound.axis basis = true := by
  simp only [applicabilityError?, hc] at h
  split at h
  · assumption
  · cases h

theorem axisApplies_of_min {node : Node} {bound : Bound} {basis : Option Node} (hc : node.content = .min bound)
    (h : node.applicabilityError? basis = none) : axisApplies bound.axis basis = true := by
  simp only [applicabilityError?, hc] at h
  split at h
  · assumption
  · cases h

end Node

/-- Whether a constraint with the slot can apply to a basis. -/
def Slot.Suits (slot : Slot) (basis : Option Node) : Prop :=
  match slot with
  | .basis => False
  | .divisor => basis.bind Node.basisDomain? = some .number
  | .max axis | .min axis => Node.axisApplies axis basis = true
  | .pattern _ => basis.bind Node.basisDomain? = some .string
  | .predicate _ => True
  | .required _ | .optional _ => basis.bind Node.basisDomain? = some .object

namespace Node

theorem applicabilityError?_eq_none {node : Node} {basis : Option Node} :
    node.applicabilityError? basis = none ↔ ∃ slot, node.slot? = some slot ∧ slot.Suits basis := by
  unfold applicabilityError? slot?
  cases node.content <;> simp [Content.slot?, Slot.Suits]

-- ---------------------------------------------------------------------------
-- The order of constraints
-- ---------------------------------------------------------------------------

theorem constraintLE_iff {a b : Node} : constraintLE a b = true ↔
    a.kind.order < b.kind.order ∨ a.kind.order = b.kind.order ∧ a.typeId ≤ b.typeId := by
  simp [constraintLE]

theorem constraintLE_trans (a b c : Node) (h : constraintLE a b = true) (h' : constraintLE b c = true) :
    constraintLE a c = true := by
  rw [constraintLE_iff] at h h' ⊢
  rcases h with h | ⟨h, hle⟩ <;> rcases h' with h' | ⟨h', hle'⟩
  · exact .inl (by omega)
  · exact .inl (by omega)
  · exact .inl (by omega)
  · exact .inr ⟨by omega, String.le_trans hle hle'⟩

theorem constraintLE_total (a b : Node) : (constraintLE a b || constraintLE b a) = true := by
  rw [Bool.or_eq_true, constraintLE_iff, constraintLE_iff]
  rcases Nat.lt_trichotomy a.kind.order b.kind.order with h | h | h
  · exact .inl (.inl h)
  · rcases String.le_total a.typeId b.typeId with hle | hle
    · exact .inl (.inr ⟨h, hle⟩)
    · exact .inr (.inr ⟨h.symm, hle⟩)
  · exact .inr (.inl h)

theorem sortConstraints_eq (constraints : List Node) :
    sortConstraints constraints = constraints.mergeSort constraintLE :=
  stableSort_eq constraintLE_trans constraintLE_total constraints

theorem sortConstraints_perm (constraints : List Node) : (sortConstraints constraints).Perm constraints := by
  rw [sortConstraints_eq]
  exact List.mergeSort_perm constraints constraintLE

theorem sortConstraints_sorted (constraints : List Node) :
    (sortConstraints constraints).Pairwise (constraintLE · ·) := by
  rw [sortConstraints_eq]
  exact List.pairwise_mergeSort constraintLE_trans constraintLE_total constraints

-- ---------------------------------------------------------------------------
-- Contents
-- ---------------------------------------------------------------------------

/-- The rules of an intersection fit together, and none of them is left to do. -/
structure Settled (basis : Option Node) (constraints : List Node) : Prop where
  isBasis : ∀ b ∈ basis, b.isBasis = true
  areRefinements : ∀ c ∈ constraints, c.isRefinement = true
  sorted : constraints.Pairwise (constraintLE · ·)
  apart : (basis.toList ++ constraints).Pairwise (Apart false)
  applicable : firstInapplicable? basis constraints = none
  notAlone : constraints = [] → basis = none

end Node

namespace Content

/-- A content as spaces hold it, whatever happened to them. -/
def Sound : Content Node → Prop
  | .union branches _ => ∀ b ∈ branches, b.kind.isBranch = true
  | .morph input output transforms =>
    (input.kind = .intersection ∨ input.isBasis = true) ∧ (∀ o ∈ output, o.isRefinement = false) ∧ transforms ≠ []
  | .intersection basis constraints => Node.Settled basis constraints
  | .divisor d => 0 < d
  | .max bound => bound.limit.isNaN = false
  | .min bound => bound.limit.isNaN = false
  | .pattern p => Pattern.ofSource p.source p.flags = .ok p
  | _ => True

/-- A content that its text tells from all others: divisors are numbers exactly, no two of them stand side by
side, and no property holds a bare refinement. -/
def Exact : Content Node → Prop
  | .intersection _ constraints => constraints.Pairwise fun a b => ¬ (a.kind = .divisor ∧ b.kind = .divisor)
  | .divisor d => d ≤ Nat.pow 2 53
  | .required _ value => value.isRefinement = false
  | .optional _ value => value.isRefinement = false
  | _ => True

end Content

namespace Node

theorem isConstraint_of_isBasis {node : Node} (h : node.isBasis = true) : node.kind.isConstraint = true := by
  rw [isBasis] at h
  rw [Kind.isConstraint, h, Bool.true_or]

theorem Settled.areConstraints {basis : Option Node} {constraints : List Node} (h : Settled basis constraints) :
    ∀ rule ∈ basis.toList ++ constraints, rule.kind.isConstraint = true := by
  refine List.forall_mem_append.mpr ⟨fun b hb => ?_, fun c hc => ?_⟩
  · exact isConstraint_of_isBasis (h.isBasis b (Option.mem_toList.mp hb))
  · have hrefinement := h.areRefinements c hc
    rw [isRefinement] at hrefinement
    rw [Kind.isConstraint, hrefinement, Bool.or_true]

end Node

end SchemaAlgebra
