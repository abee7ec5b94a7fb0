-- SUMMARY: Arithmetic of divisors: greatest common divisors and least common multiples of numbers of 64 bits.
import SchemaAlgebra.Error

/-!
# Divisors

A divisor is a number of 64 bits. The least common multiple of two of them can be too
large for that. One number is divided by their greatest common divisor before it is
multiplied by the other, so that nothing on the way is larger than the multiple itself.
-/

namespace SchemaAlgebra

/-- A number of 64 bits. -/
abbrev Word := UInt64

namespace Word

theorem toNat_mod_lt (a : Word) {b : Word} (h : ¬ b = 0) : (a % b).toNat < b.toNat := by
  rw [UInt64.toNat_mod]
  exact Nat.mod_lt _ (Nat.pos_of_ne_zero fun hzero => h (UInt64.toNat_inj.mp hzero))

/-- The greatest common divisor. While the second number is not zero, it takes the place of the first one, and
the remainder takes its own. -/
def gcd (a b : Word) : Word :=
  if b = 0 then a else gcd b (a % b)
termination_by b.toNat
decreasing_by exact toNat_mod_lt a ‹_›

/-- The quotient of two numbers. There is none by zero. -/
def divide (a b : Word) : Except InternalError Word :=
  if b = 0 then .error .divisionByZero else .ok (a / b)

/-- The product of two numbers, if it fits. -/
def product? (a b : Word) : Option Word :=
  if a.toNat * b.toNat < UInt64.size then some (a * b) else none

/-- The least common multiple of two numbers, if it fits. -/
def lcm (a b : Word) : Except InternalError (Option Word) := do
  let quotient ← a.divide (a.gcd b)
  return quotient.product? b

end Word

end SchemaAlgebra
