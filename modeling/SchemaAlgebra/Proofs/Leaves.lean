-- SUMMARY: What merging bounds, divisors and constructors does to the values they allow.
import SchemaAlgebra.Proofs.Acceptance
import SchemaAlgebra.Proofs.CommonMultiples

/-!
# Leaves

The stricter of two bounds on one side allows what both allow, a maximum and a
minimum that leave nothing share no value, and so on for each kind of constraint
without nodes in it.
-/

namespace SchemaAlgebra

-- ---------------------------------------------------------------------------
-- Bounds
-- ---------------------------------------------------------------------------

/-- Whether a limit at `x` cuts off more than one at `y`. -/
def BoundSide.CutsMore (side : BoundSide) (x y : Int) : Prop :=
  match side with
  | .min => y < x
  | .max => x < y

namespace Bound

theorem allows_max_iff {bound : Bound} {v : Value} : bound.allows .max v = true ↔
    ∃ n x z, bound.axis.measure? v = some n ∧ n.scaled? = some x ∧ bound.limit.scaled? = some z ∧
      (x < z ∨ bound.exclusive = false ∧ x = z) := by
  unfold allows
  cases bound.axis.measure? v with
  | none => simp
  | some n =>
      cases bound.exclusive with
      | true => simp [Number.less_iff]
      | false =>
          simp only [Number.lessEq_iff, Option.some.injEq, true_and]
          constructor
          · rintro ⟨x, z, hx, hz, hle⟩
            exact ⟨n, x, z, rfl, hx, hz, by omega⟩
          · rintro ⟨_, x, z, rfl, hx, hz, hle⟩
            exact ⟨x, z, hx, hz, by omega⟩

theorem allows_min_iff {bound : Bound} {v : Value} : bound.allows .min v = true ↔
    ∃ n x z, bound.axis.measure? v = some n ∧ n.scaled? = some x ∧ bound.limit.scaled? = some z ∧
      (z < x ∨ bound.exclusive = false ∧ z = x) := by
  unfold allows
  cases bound.axis.measure? v with
  | none => simp
  | some n =>
      cases bound.exclusive with
      | true =>
          simp only [Number.less_iff, Option.some.injEq, Bool.true_eq_false, false_and, or_false]
          constructor
          · rintro ⟨z, x, hz, hx, hlt⟩
            exact ⟨n, x, z, rfl, hx, hz, hlt⟩
          · rintro ⟨_, x, z, rfl, hx, hz, hlt⟩
            exact ⟨z, x, hz, hx, hlt⟩
      | false =>
          simp only [Number.lessEq_iff, Option.some.injEq, true_and]
          constructor
          · rintro ⟨z, x, hz, hx, hle⟩
            exact ⟨n, x, z, rfl, hx, hz, by omega⟩
          · rintro ⟨_, x, z, rfl, hx, hz, hle⟩
            exact ⟨z, x, hz, hx, by omega⟩

/-- Which of two bounds is stricter, by their exact limits. -/
theorem isStricter_iff {side : BoundSide} {a b : Bound} {x y : Int} (hx : a.limit.scaled? = some x)
    (hy : b.limit.scaled? = some y) : a.isStricter side b = true ↔
      (x = y ∧ (a.exclusive = true ∨ b.exclusive = false)) ∨ x ≠ y ∧ side.CutsMore x y := by
  have hequals : a.limit.equals b.limit = true ↔ x = y := by
    rw [Number.equals_iff, hx, hy]
    constructor
    · rintro ⟨z, hz, hz'⟩
      exact (Option.some.inj hz).trans (Option.some.inj hz').symm
    · rintro rfl
      exact ⟨x, rfl, rfl⟩
  have hless (a b : Number) (x y : Int) (hx : a.scaled? = some x) (hy : b.scaled? = some y) :
      a.less b = true ↔ x < y := by
    simp [Number.less_iff, hx, hy]
  unfold isStricter
  by_cases heq : x = y
  · rw [if_pos (hequals.mpr heq)]
    simp [heq]
  · rw [if_neg fun h => heq (hequals.mp h)]
    cases side with
    | min => simp [heq, hless _ _ _ _ hy hx, BoundSide.CutsMore]
    | max => simp [heq, hless _ _ _ _ hx hy, BoundSide.CutsMore]

/-- The stricter bound allows what both allow. -/
theorem allows_isStricter {side : BoundSide} {a b : Bound} (ha : a.limit.isNaN = false) (hb : b.limit.isNaN = false)
    (haxis : a.axis = b.axis) (v : Value) : (if a.isStricter side b then a else b).allows side v =
      (a.allows side v && b.allows side v) := by
  obtain ⟨x, hx⟩ := Number.scaled?_isSome ha
  obtain ⟨y, hy⟩ := Number.scaled?_isSome hb
  have himp (a b : Bound) (x y : Int) (hx : a.limit.scaled? = some x) (hy : b.limit.scaled? = some y)
      (haxis : a.axis = b.axis)
      (h : (x = y ∧ (a.exclusive = true ∨ b.exclusive = false)) ∨ x ≠ y ∧ side.CutsMore x y)
      (hv : a.allows side v = true) : b.allows side v = true := by
    cases side with
    | max =>
        rw [allows_max_iff] at hv ⊢
        obtain ⟨n, m, z, hn, hm, hz, hle⟩ := hv
        obtain rfl := Option.some.inj (hx.symm.trans hz)
        refine ⟨n, m, y, by rwa [← haxis], hm, hy, ?_⟩
        rcases h with ⟨rfl, hex⟩ | ⟨-, hlt⟩ <;> rcases hle with hlt' | ⟨hexcl, heq⟩
        · exact .inl hlt'
        · exact .inr ⟨by simpa [hexcl] using hex, heq⟩
        · exact .inl (by simp only [BoundSide.CutsMore] at hlt; omega)
        · exact .inl (by simp only [BoundSide.CutsMore] at hlt; omega)
    | min =>
        rw [allows_min_iff] at hv ⊢
        obtain ⟨n, m, z, hn, hm, hz, hle⟩ := hv
        obtain rfl := Option.some.inj (hx.symm.trans hz)
        refine ⟨n, m, y, by rwa [← haxis], hm, hy, ?_⟩
        rcases h with ⟨rfl, hex⟩ | ⟨-, hlt⟩ <;> rcases hle with hlt' | ⟨hexcl, heq⟩
        · exact .inl hlt'
        · exact .inr ⟨by simpa [hexcl] using hex, heq⟩
        · exact .inl (by simp only [BoundSide.CutsMore] at hlt; omega)
        · exact .inl (by simp only [BoundSide.CutsMore] at hlt; omega)
  rw [Bool.eq_iff_iff, Bool.and_eq_true]
  by_cases hstrict : a.isStricter side b = true
  · rw [if_pos hstrict]
    have h := (isStricter_iff hx hy).mp hstrict
    exact ⟨fun hv => ⟨hv, himp a b x y hx hy haxis h hv⟩, And.left⟩
  · rw [if_neg hstrict]
    have h : (y = x ∧ (b.exclusive = true ∨ a.exclusive = false)) ∨ y ≠ x ∧ side.CutsMore y x := by
      rw [isStricter_iff hx hy] at hstrict
      by_cases heq : x = y
      · refine .inl ⟨heq.symm, ?_⟩
        cases ha : a.exclusive
        · exact .inr rfl
        · exact absurd (.inl ⟨heq, .inl ha⟩) hstrict
      · refine .inr ⟨Ne.symm heq, ?_⟩
        cases side with
        | max =>
            have hnot : ¬ x < y := fun hlt => hstrict (.inr ⟨heq, hlt⟩)
            simp only [BoundSide.CutsMore]
            omega
        | min =>
            have hnot : ¬ y < x := fun hlt => hstrict (.inr ⟨heq, hlt⟩)
            simp only [BoundSide.CutsMore]
            omega
    exact ⟨fun hv => ⟨himp b a y x hy hx haxis.symm h hv, hv⟩, And.right⟩

theorem axis_eq {a b : Bound} (h : a.unsigned = b.unsigned) : a.axis = b.axis := by
  have haxis := congrArg Bound.axis h
  exact haxis

/-- Whether bounds leave something does not depend on the sign of zero. -/
theorem leavesNothing_unsigned (max min : Bound) : max.unsigned.leavesNothing min.unsigned = max.leavesNothing min := by
  rw [Bool.eq_iff_iff]
  simp only [leavesNothing, unsigned, Bool.or_eq_true, Bool.and_eq_true, Number.less_iff, Number.equals_iff,
    Number.scaled?_unsigned]

/-- Which bound is stricter does not depend on the sign of zero. -/
theorem isStricter_unsigned (side : BoundSide) (a b : Bound) :
    a.unsigned.isStricter side b.unsigned = a.isStricter side b := by
  have hequals : a.limit.unsigned.equals b.limit.unsigned = a.limit.equals b.limit := by
    rw [Bool.eq_iff_iff, Number.equals_iff, Number.equals_iff, Number.scaled?_unsigned, Number.scaled?_unsigned]
  have hless (m n : Number) : m.unsigned.less n.unsigned = m.less n := by
    rw [Bool.eq_iff_iff, Number.less_iff, Number.less_iff, Number.scaled?_unsigned, Number.scaled?_unsigned]
  simp only [isStricter, unsigned, hequals, hless]

/-- Bounds that leave nothing share no value. -/
theorem not_allows_both {max min : Bound} (haxis : max.axis = min.axis) (h : max.leavesNothing min = true) (v : Value) :
    (max.allows .max v && min.allows .min v) = false := by
  rw [Bool.eq_false_iff]
  intro hv
  rw [Bool.and_eq_true, allows_max_iff, allows_min_iff, haxis] at hv
  obtain ⟨⟨n, x, z, hn, hx, hz, hle⟩, ⟨n', x', z', hn', hx', hz', hle'⟩⟩ := hv
  obtain rfl := Option.some.inj (hn.symm.trans hn')
  obtain rfl := Option.some.inj (hx.symm.trans hx')
  unfold leavesNothing at h
  rw [Bool.or_eq_true, Number.less_iff, Bool.and_eq_true, Number.equals_iff, Bool.or_eq_true] at h
  rcases h with ⟨a, b, ha, hb, hlt⟩ | ⟨⟨a, ha, hb⟩, hexclusive⟩
  · obtain rfl := Option.some.inj (hz.symm.trans ha)
    obtain rfl := Option.some.inj (hz'.symm.trans hb)
    omega
  · obtain rfl := Option.some.inj (hz'.symm.trans ha)
    obtain rfl := Option.some.inj (hz.symm.trans hb)
    rcases hexclusive with hexclusive | hexclusive
    · rw [hexclusive] at hle'
      simp only [Bool.true_eq_false, false_and, or_false] at hle'
      omega
    · rw [hexclusive] at hle
      simp only [Bool.true_eq_false, false_and, or_false] at hle
      omega

end Bound

-- ---------------------------------------------------------------------------
-- Divisors
-- ---------------------------------------------------------------------------

theorem Number.isDivisibleBy_lcm {a b : Nat} (ha : a ≤ 2 ^ 53) (hb : b ≤ 2 ^ 53)
    (h : leastCommonMultiple a b ≤ 2 ^ 53) (v : Value) : Number.isDivisibleBy (leastCommonMultiple a b) v =
      (Number.isDivisibleBy a v && Number.isDivisibleBy b v) := by
  cases v with
  | number n =>
      rw [Bool.eq_iff_iff, Bool.and_eq_true]
      simp only [isDivisibleBy]
      rw [isMultipleOf_iff ha, isMultipleOf_iff hb, isMultipleOf_iff h, leastCommonMultiple_eq]
      constructor
      · rintro ⟨negative, magnitude, rfl, hdvd⟩
        rw [← Nat.lcm_mul_right, Nat.lcm_dvd_iff] at hdvd
        exact ⟨⟨negative, magnitude, rfl, hdvd.1⟩, ⟨negative, magnitude, rfl, hdvd.2⟩⟩
      · rintro ⟨⟨negative, magnitude, rfl, hdvd⟩, ⟨negative', magnitude', heq, hdvd'⟩⟩
        cases heq
        refine ⟨negative, magnitude, rfl, ?_⟩
        rw [← Nat.lcm_mul_right, Nat.lcm_dvd_iff]
        exact ⟨hdvd, hdvd'⟩
  | _ => rfl

-- ---------------------------------------------------------------------------
-- Constructors
-- ---------------------------------------------------------------------------

namespace Proto

theorem isSubclassOf_extending {serial : Nat} {name : String} {parent a : Proto} :
    (Proto.extending serial name parent).isSubclassOf a = true ↔
      a = .extending serial name parent ∨ parent.isSubclassOf a = true := by
  simp [isSubclassOf, chain]

theorem isSubclassOf_self (p : Proto) : p.isSubclassOf p = true := by
  cases p <;> simp [Proto.isSubclassOf, Proto.chain]

/-- The ancestors of a constructor form a chain. -/
theorem isSubclassOf_or {p a b : Proto} (ha : p.isSubclassOf a = true) (hb : p.isSubclassOf b = true) :
    a.isSubclassOf b = true ∨ b.isSubclassOf a = true := by
  induction p with
  | object =>
      simp only [isSubclassOf, chain, List.contains_cons, List.contains_nil, Bool.or_false, beq_iff_eq] at ha hb
      subst ha hb
      exact .inl (by decide)
  | extending serial name parent ih =>
      rcases isSubclassOf_extending.mp ha with rfl | ha'
      · exact .inl hb
      · rcases isSubclassOf_extending.mp hb with rfl | hb'
        · exact .inr ha
        · exact ih ha' hb'

theorem isSubclassOf_trans {p a b : Proto} (ha : p.isSubclassOf a = true) (hb : a.isSubclassOf b = true) :
    p.isSubclassOf b = true := by
  induction p with
  | object =>
      simp only [isSubclassOf, chain, List.contains_cons, List.contains_nil, Bool.or_false, beq_iff_eq] at ha
      subst ha
      exact hb
  | extending serial name parent ih =>
      rcases isSubclassOf_extending.mp ha with rfl | ha'
      · exact hb
      · exact isSubclassOf_extending.mpr (.inr (ih ha'))

end Proto

theorem Object.isInstanceOf_of_isSubclassOf {o : Object Value} {a b : Proto} (ho : o.isInstanceOf a = true)
    (h : a.isSubclassOf b = true) : o.isInstanceOf b = true := by
  unfold isInstanceOf at ho ⊢
  cases hp : o.proto with
  | none => rw [hp] at ho; cases ho
  | some p =>
      rw [hp] at ho
      exact Proto.isSubclassOf_trans ho h

theorem Object.isSubclassOf_of_isInstanceOf {o : Object Value} {a b : Proto} (ha : o.isInstanceOf a = true)
    (hb : o.isInstanceOf b = true) : a.isSubclassOf b = true ∨ b.isSubclassOf a = true := by
  unfold isInstanceOf at ha hb
  cases hp : o.proto with
  | none => rw [hp] at ha; cases ha
  | some p =>
      rw [hp] at ha hb
      exact Proto.isSubclassOf_or ha hb

end SchemaAlgebra
