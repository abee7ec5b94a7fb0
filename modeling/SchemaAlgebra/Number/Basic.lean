-- SUMMARY: Binary64 numbers as exact data: order, integrality, divisibility, doubling, and rounding of quotients.

/-!
# Numbers

A `Number` is a binary64 value: NaN, an infinity, or a sign with a finite
magnitude. A magnitude is stored as its place in the ascending list of all
finite magnitudes, so every inhabitant of the type is a different number and
equality of data is decidable; `0` and `-0` are two inhabitants.

Arithmetic happens on integers: a finite number is `scaled / 2 ^ 1074` for an
integer `scaled`, and the infinities sit where the next magnitude would be.
-/

namespace SchemaAlgebra

/-- How many magnitudes share one distance to the next, from the first doubling of the distance on. -/
def binade : Nat := Nat.pow 2 52

/-- How many finite magnitudes there are; also the place of infinity. -/
def magnitudeCount : Nat := 2047 * binade

/-- A finite magnitude, as its place in the ascending list of all of them. -/
abbrev Magnitude := Fin magnitudeCount

/-- A binary64 number. -/
inductive Number where
  | nan
  | infinity (negative : Bool)
  | finite (negative : Bool) (magnitude : Magnitude)
  deriving DecidableEq, Repr

namespace Number

-- ---------------------------------------------------------------------------
-- Exact values
-- ---------------------------------------------------------------------------

/-- How many units of `2 ^ -1074` make one. -/
def unitsPerOne : Nat := Nat.pow 2 1074

/-- The magnitude at a place, in units of `2 ^ -1074`.

The first `2 ^ 53` places are one unit apart; from there on each run of
`2 ^ 52` places doubles the distance. -/
def unitsAt (place : Nat) : Nat :=
  if place < binade then place
  else (binade + place % binade) * Nat.pow 2 (place / binade - 1)

def signed (negative : Bool) (units : Nat) : Int :=
  if negative then -(units : Int) else units

/-- The exact value in units of `2 ^ -1074`, unless it is NaN. An infinity lies one
step beyond the largest finite magnitude, which is all that comparing needs. -/
def scaled? : Number → Option Int
  | .nan => none
  | .infinity negative => some (signed negative (unitsAt magnitudeCount))
  | .finite negative magnitude => some (signed negative (unitsAt magnitude))

def isNaN : Number → Bool
  | .nan => true
  | _ => false

def isFinite : Number → Bool
  | .finite _ _ => true
  | _ => false

def isZero : Number → Bool
  | .finite _ magnitude => magnitude.val == 0
  | _ => false

-- ---------------------------------------------------------------------------
-- Comparison: NaN compares false with everything, and 0 equals -0
-- ---------------------------------------------------------------------------

def compareWith (relation : Int → Int → Bool) (a b : Number) : Bool :=
  match a.scaled?, b.scaled? with
  | some x, some y => relation x y
  | _, _ => false

def equals (a b : Number) : Bool := compareWith (fun x y => x == y) a b

def less (a b : Number) : Bool := compareWith (fun x y => decide (x < y)) a b

def lessEq (a b : Number) : Bool := compareWith (fun x y => decide (x ≤ y)) a b

-- ---------------------------------------------------------------------------
-- Integers
-- ---------------------------------------------------------------------------

/-- The integer a finite number is, if it is one. -/
def toInt? : Number → Option Int
  | .finite negative magnitude =>
    let units := unitsAt magnitude
    if units % unitsPerOne = 0 then some (signed negative (units / unitsPerOne)) else none
  | _ => none

/-- The quotient `a / d` rounded to the nearest natural number, a half to the even one. -/
def roundQuotient (a d : Nat) : Nat :=
  let quotient := a / d
  let remainder := a % d
  if 2 * remainder < d then quotient
  else if d < 2 * remainder then quotient + 1
  else quotient + quotient % 2

def ofPlace (negative : Bool) (place : Nat) : Number :=
  if bound : place < magnitudeCount then .finite negative ⟨place, bound⟩ else .infinity negative

/-- The number nearest to `± a / d`, a tie going to the even place. -/
def ofQuotient (negative : Bool) (a d : Nat) : Number :=
  let units := a * unitsPerOne
  let shift := Nat.log2 (units / d) - 52
  ofPlace negative (shift * binade + roundQuotient units (d * Nat.pow 2 shift))

def ofNat (n : Nat) : Number := ofQuotient false n 1

def ofInt (i : Int) : Number := ofQuotient (decide (i < 0)) i.natAbs 1

def zero : Number := ofNat 0

-- ---------------------------------------------------------------------------
-- Arithmetic
-- ---------------------------------------------------------------------------

/-- Whether a number is finite and a whole multiple of `divisor`, the divisor
itself being rounded to a number first. -/
def isMultipleOf (n : Number) (divisor : Nat) : Bool :=
  match n, (ofNat divisor).scaled? with
  | .finite _ magnitude, some step => (unitsAt magnitude : Int) % step == 0
  | _, _ => false

/-- Twice a number. Up to the first doubling of the distance this doubles the place; from
there on it moves one run of places further. -/
def double : Number → Number
  | .nan => .nan
  | .infinity negative => .infinity negative
  | .finite negative magnitude =>
    if magnitude.val < binade then ofPlace negative (2 * magnitude.val)
    else ofPlace negative (magnitude.val + binade)

end Number

end SchemaAlgebra
