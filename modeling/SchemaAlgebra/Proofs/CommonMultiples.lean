-- SUMMARY: The arithmetic of divisors is exact: what it finds are greatest common divisors and least common multiples.
import SchemaAlgebra.Algebra.Constraint
import Mathlib.Data.Nat.GCD.Basic

/-!
# Common multiples

Each round of the loop for the greatest common divisor keeps the common divisors of its two
numbers, so that it ends with the greatest one. This is not zero unless both numbers are, and
one number divided by it times the other is their least common multiple. So the product is
too large only where the least common multiple is.
-/

namespace SchemaAlgebra

namespace Word

variable {a b : Word}

-- ---------------------------------------------------------------------------
-- The greatest common divisor
-- ---------------------------------------------------------------------------

theorem ne_zero (h : 1 ≤ a) : a ≠ 0 := by
  rintro rfl
  exact absurd h (by decide)

/-- One round of the loop keeps what the numbers have in common. -/
theorem gcd_remainder (a b : Word) : Nat.gcd b.toNat (a % b).toNat = Nat.gcd a.toNat b.toNat := by
  rw [UInt64.toNat_mod, Nat.gcd_comm, ← Nat.gcd_rec, Nat.gcd_comm]

/-- The loop ends with the greatest common divisor. -/
theorem toNat_gcd (a b : Word) : (a.gcd b).toNat = Nat.gcd a.toNat b.toNat := by
  induction a, b using gcd.induct with
  | case1 a =>
      rw [gcd, if_pos rfl]
      exact (Nat.gcd_zero_right a.toNat).symm
  | case2 a b hb ih => rw [gcd, if_neg hb, ih, gcd_remainder]

theorem gcd_eq_zero_iff : a.gcd b = 0 ↔ a = 0 ∧ b = 0 := by
  simp only [← UInt64.toNat_inj, toNat_gcd, UInt64.toNat_zero, Nat.gcd_eq_zero_iff]

-- ---------------------------------------------------------------------------
-- The least common multiple
-- ---------------------------------------------------------------------------

/-- The product that has to fit is the least common multiple itself. -/
theorem toNat_div_gcd_mul (a b : Word) : (a / a.gcd b).toNat * b.toNat = Nat.lcm a.toNat b.toNat := by
  rw [UInt64.toNat_div, toNat_gcd, Nat.lcm_eq_mul_div, Nat.div_mul_right_comm (Nat.gcd_dvd_left _ _)]

theorem product?_eq (a b : Word) : (a.product? b).map UInt64.toNat =
    if a.toNat * b.toNat < UInt64.size then some (a.toNat * b.toNat) else none := by
  unfold product?
  split
  · rename_i hfits
    rw [Option.map_some, UInt64.toNat_mul, Nat.mod_eq_of_lt hfits]
  · rfl

/-- Where it can be divided by the greatest common divisor, the least common multiple is found if it fits. -/
theorem lcm_eq (h : a.gcd b ≠ 0) : ∃ multiple, a.lcm b = .ok multiple ∧ multiple.map UInt64.toNat =
    if Nat.lcm a.toNat b.toNat < UInt64.size then some (Nat.lcm a.toNat b.toNat) else none := by
  refine ⟨(a / a.gcd b).product? b, ?_, ?_⟩
  · rw [lcm, divide, if_neg h]
    rfl
  · rw [product?_eq, toNat_div_gcd_mul]

end Word

-- ---------------------------------------------------------------------------
-- Multiples of any size
-- ---------------------------------------------------------------------------

theorem leastCommonMultiple_eq (a b : Nat) : leastCommonMultiple a b = Nat.lcm a b := by
  rw [leastCommonMultiple, Nat.lcm_eq_mul_div, Nat.div_mul_right_comm (Nat.gcd_dvd_left a b)]

/-- The least common multiple of two positive numbers, if it fits 64 bits. -/
def leastCommonMultiple? (a b : Nat) : Option Nat :=
  let multiple := leastCommonMultiple a b
  if multiple < Nat.pow 2 64 then some multiple else none

theorem leastCommonMultiple?_eq_none {a b : Nat} : leastCommonMultiple? a b = none ↔ Nat.pow 2 64 ≤ Nat.lcm a b := by
  rw [leastCommonMultiple?, leastCommonMultiple_eq]
  simp only [ite_eq_right_iff, reduceCtorEq, imp_false, Nat.not_lt]

theorem leastCommonMultiple?_eq_some {a b multiple : Nat} (h : leastCommonMultiple? a b = some multiple) :
    multiple = leastCommonMultiple a b ∧ multiple < Nat.pow 2 64 := by
  rw [leastCommonMultiple?] at h
  split at h
  · rename_i hlt
    obtain rfl := Option.some.inj h
    exact ⟨rfl, hlt⟩
  · cases h

/-- Of positive numbers of 64 bits, the multiple that is found is the one of any size, if that fits. -/
theorem Word.lcm_ofNat {a b : Nat} (ha : 0 < a ∧ a < Nat.pow 2 64) (hb : 0 < b ∧ b < Nat.pow 2 64) :
    ∃ multiple, Word.lcm (.ofNat a) (.ofNat b) = .ok multiple ∧
      multiple.map UInt64.toNat = leastCommonMultiple? a b := by
  have ha' : (UInt64.ofNat a).toNat = a := UInt64.toNat_ofNat_of_lt ha.2
  have hb' : (UInt64.ofNat b).toNat = b := UInt64.toNat_ofNat_of_lt hb.2
  have hgcd : Word.gcd (.ofNat a) (.ofNat b) ≠ 0 := by
    intro hzero
    have hzero := congrArg UInt64.toNat (gcd_eq_zero_iff.mp hzero).1
    rw [ha'] at hzero
    exact Nat.pos_iff_ne_zero.mp ha.1 hzero
  obtain ⟨multiple, hok, hmultiple⟩ := lcm_eq hgcd
  refine ⟨multiple, hok, ?_⟩
  rw [hmultiple, ha', hb', leastCommonMultiple?, leastCommonMultiple_eq]

end SchemaAlgebra
