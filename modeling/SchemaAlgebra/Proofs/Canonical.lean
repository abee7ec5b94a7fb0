-- SUMMARY: Canonical contents: rules that neither merge nor conflict, and sorted branches that do not cover everything.
import SchemaAlgebra.Proofs.Leaves
import SchemaAlgebra.Proofs.WellFormed

/-!
# Canonical contents

What an operation leaves of rules and branches cannot be simplified by the same
operation: two rules of an intersection stay side by side when they are intersected,
and the branches of a union are sorted, do not cover every value, and are not one
branch that could stand for itself.
-/

namespace SchemaAlgebra

namespace Node

-- ---------------------------------------------------------------------------
-- Rules side by side
-- ---------------------------------------------------------------------------

/-- One of two nodes is a maximum and the other a minimum, and nothing fits between them. -/
def Clash (a b : Node) : Prop :=
  ∃ max min, (a.content = .max max ∧ b.content = .min min ∨ a.content = .min min ∧ b.content = .max max) ∧
    max.axis = min.axis ∧ max.leavesNothing min = true

theorem Clash.symm {a b : Node} (h : a.Clash b) : b.Clash a := by
  obtain ⟨max, min, hcontents, h⟩ := h
  exact ⟨max, min, hcontents.symm.imp And.symm And.symm, h⟩

theorem Clash.kinds {a b : Node} (h : a.Clash b) :
    a.kind = .max ∧ b.kind = .min ∨ a.kind = .min ∧ b.kind = .max := by
  obtain ⟨max, min, ⟨ha, hb⟩ | ⟨ha, hb⟩, -⟩ := h
  · exact .inl ⟨by rw [kind, ha]; rfl, by rw [kind, hb]; rfl⟩
  · exact .inr ⟨by rw [kind, ha]; rfl, by rw [kind, hb]; rfl⟩

/-- Only bounds on two sides clash. -/
theorem not_clash_of_kind {a b : Node} (h : b.kind ≠ .max) (h' : b.kind ≠ .min) : ¬ a.Clash b := by
  intro hclash
  rcases hclash.kinds with ⟨-, hb⟩ | ⟨-, hb⟩
  · exact h' hb
  · exact h hb

/-- Two rules that stay side by side when they are intersected. They restrict different aspects of a value, but for
two divisors whose least common multiple does not fit, and bounds leave something between them. -/
structure Beside (exact : Bool) (a b : Node) : Prop extends Apart exact a b where
  overflow : ∀ d d', a.content = .divisor d → b.content = .divisor d' → leastCommonMultiple? d d' = none
  range : ¬ a.Clash b

variable {exact : Bool} {a b : Node}

theorem Beside.symm (h : a.Beside exact b) : b.Beside exact a where
  toApart := h.toApart.symm
  overflow := by
    intro d d' hd hd'
    have hnone := h.overflow d' d hd' hd
    rwa [leastCommonMultiple?_eq_none, Nat.lcm_comm, ← leastCommonMultiple?_eq_none] at hnone
  range := fun hclash => h.range hclash.symm

theorem exists_divisor {node : Node} (h : node.kind = .divisor) : ∃ d, node.content = .divisor d := by
  cases hc : node.content with
  | divisor d => exact ⟨d, rfl⟩
  | _ => rw [kind, hc] at h; cases h

theorem Beside.not_divisors (h : a.Beside true b) : ¬ (a.kind = .divisor ∧ b.kind = .divisor) := by
  have hslot {n : Node} (hn : n.kind = .divisor) : n.slot? = some .divisor := by
    obtain ⟨d, hc⟩ := exists_divisor hn
    rw [slot?, hc]
    rfl
  rintro ⟨ha, hb⟩
  exact absurd (h.slots .divisor (hslot ha) (hslot hb)).2 (by decide)

/-- Rules that restrict different aspects stand side by side if they leave something. -/
theorem beside_of_slots (ha : a.kind ≠ .unit) (hb : b.kind ≠ .unit)
    (h : ∀ slot, a.slot? = some slot → b.slot? ≠ some slot) (hrange : ¬ a.Clash b) : a.Beside exact b where
  left := ha
  right := hb
  slots := fun slot hs hs' => absurd hs' (h slot hs)
  overflow := by
    intro d d' hd hd'
    refine absurd ?_ (h .divisor ?_)
    · rw [slot?, hd']; rfl
    · rw [slot?, hd]; rfl
  range := hrange

end Node

-- ---------------------------------------------------------------------------
-- Contents
-- ---------------------------------------------------------------------------

/-- A content with nothing left to simplify, next to its caption. -/
def Content.Canonical (caption : Caption) : Content Node → Prop
  | .intersection basis constraints => (basis.toList ++ constraints).Pairwise (Node.Beside false)
  | .union branches ordered =>
    (ordered = false → branches.Pairwise fun a b => a.typeJson.compact ≤ b.typeJson.compact) ∧
      Node.isExhaustive branches = false ∧ (branches.length = 1 → caption.isEmpty = false)
  | .divisor d => d < Nat.pow 2 64
  | _ => True

/-- No two branches are of one type. -/
def Content.Distinct : Content Node → Prop
  | .union branches _ => branches.Pairwise fun a b => a.sameType b = false
  | _ => True

namespace Node

end Node

end SchemaAlgebra
