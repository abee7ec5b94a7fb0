-- SUMMARY: Decimal notation of numbers: reading a decimal exactly, and the shortest digits that read back.
import SchemaAlgebra.Number.Basic

/-!
# Decimals

`Number.ofDecimal` reads `digits · 10 ^ exponent` to the nearest number.
`Number.shortest` goes the other way: among the decimals that read back to a
magnitude it takes one with the fewest digits, of those the nearest, and on an
exact tie what the format asks for.
-/

namespace SchemaAlgebra

/-- The decimal `digits · 10 ^ exponent`. -/
structure Decimal where
  digits : Nat
  exponent : Int
  deriving DecidableEq, Repr

/-- Which of two equally near decimals is taken. -/
inductive TieRule where
  | up
  | even
  deriving DecidableEq, Repr

/-- How many decimal digits a natural number is written with; none for zero. -/
def digitCount (n : Nat) : Nat :=
  if n = 0 then 0 else (Nat.toDigits 10 n).length

namespace Number

-- ---------------------------------------------------------------------------
-- Reading
-- ---------------------------------------------------------------------------

/-- The number nearest to `± digits · 10 ^ exponent`. Decimals far outside the range are
settled by their order of magnitude, without building the power. -/
def ofDecimal (negative : Bool) (decimal : Decimal) : Number :=
  let order : Int := digitCount decimal.digits + decimal.exponent
  if decimal.digits = 0 ∨ order < -330 then ofPlace negative 0
  else if 310 < order then .infinity negative
  else if 0 ≤ decimal.exponent then
    ofQuotient negative (decimal.digits * Nat.pow 10 decimal.exponent.toNat) 1
  else ofQuotient negative decimal.digits (Nat.pow 10 (-decimal.exponent).toNat)

/-- Splits off the leading ASCII digits. -/
def spanDigits (cs : List Char) : List Char × List Char :=
  cs.span Char.isDigit

def digitsValue (cs : List Char) : Nat :=
  cs.foldl (fun n c => 10 * n + (c.toNat - 48)) 0

/-- The exponent part of a decimal: nothing, or `e`, an optional sign and digits. -/
def readExponent : List Char → Option Int
  | [] => some 0
  | e :: rest =>
    if e = 'e' ∨ e = 'E' then
      let (negative, digits) := match rest with
        | '-' :: ds => (true, ds)
        | '+' :: ds => (false, ds)
        | ds => (false, ds)
      if digits.isEmpty ∨ ¬ digits.all Char.isDigit then none
      else some (if negative then -(digitsValue digits : Int) else digitsValue digits)
    else none

/-- Reads an unsigned decimal: digits, optionally a point and more digits, optionally an
exponent. At least one digit is needed. -/
def readDecimal? (cs : List Char) : Option Decimal :=
  let (whole, rest) := spanDigits cs
  let (fraction, rest) := match rest with
    | '.' :: more => spanDigits more
    | _ => ([], rest)
  if whole.isEmpty ∧ fraction.isEmpty then none
  else (readExponent rest).map fun exponent =>
    ⟨digitsValue (whole ++ fraction), exponent - fraction.length⟩

/-- Reads a number from its text: a decimal with an optional sign, `NaN` or a signed `Infinity`. -/
def ofText? (text : String) : Option Number :=
  match text with
  | "NaN" => some .nan
  | "Infinity" => some (.infinity false)
  | "-Infinity" => some (.infinity true)
  | _ => match text.toList with
    | '-' :: cs => (readDecimal? cs).map (ofDecimal true)
    | '+' :: cs => (readDecimal? cs).map (ofDecimal false)
    | cs => (readDecimal? cs).map (ofDecimal false)

-- ---------------------------------------------------------------------------
-- Shortest digits
-- ---------------------------------------------------------------------------

/-- Compares `d · 10 ^ exponent` with `halves / (2 · unitsPerOne)`. -/
def compareDecimal (d : Nat) (exponent : Int) (halves : Nat) : Ordering :=
  if 0 ≤ exponent then compare (d * Nat.pow 10 exponent.toNat * (2 * unitsPerOne)) halves
  else compare (d * (2 * unitsPerOne)) (halves * Nat.pow 10 (-exponent).toNat)

/-- Whether `d · 10 ^ exponent` reads back to the magnitude at a place: it lies between the
midpoints to both neighbours, the midpoints included if the place is even. -/
def readsBack (place d : Nat) (exponent : Int) : Bool :=
  let below := unitsAt (place - 1) + unitsAt place
  let above := unitsAt place + unitsAt (place + 1)
  match compareDecimal d exponent below, compareDecimal d exponent above with
  | .gt, .lt => true
  | .eq, _ => place % 2 == 0
  | _, .eq => place % 2 == 0
  | _, _ => false

/-- The exponent of the leading decimal digit of the positive quotient `a / d`. -/
def leadingExponent (a d : Nat) : Int :=
  if d ≤ a then digitCount (a / d) - 1
  else -(digitCount ((d + a - 1) / a - 1) : Int)

/-- The largest multiple of `10 ^ exponent` that is not above `units / unitsPerOne`, as a count. -/
def floorAt (units : Nat) (exponent : Int) : Nat :=
  if 0 ≤ exponent then units / (unitsPerOne * Nat.pow 10 exponent.toNat)
  else units * Nat.pow 10 (-exponent).toNat / unitsPerOne

/-- Of the two neighbours of a magnitude on one decimal grid, the one to write, if any reads back. -/
def nearestOnGrid? (tie : TieRule) (place : Nat) (exponent : Int) : Option Nat :=
  let low := floorAt (unitsAt place) exponent
  let high := low + 1
  match readsBack place low exponent, readsBack place high exponent with
  | false, false => none
  | true, false => some low
  | false, true => some high
  | true, true =>
    -- the middle of the two against the value, in half steps of the grid
    match compareDecimal (low + high) exponent (4 * unitsAt place) with
    | .gt => some low
    | .lt => some high
    | .eq => match tie with
      | .up => some high
      | .even => some (if low % 2 = 0 then low else high)

/-- Moves trailing zeros of the digits into the exponent, at most `fuel` of them. -/
def stripZeros : (fuel : Nat) → Decimal → Decimal
  | 0, decimal => decimal
  | fuel + 1, decimal =>
    if decimal.digits % 10 = 0 then stripZeros fuel ⟨decimal.digits / 10, decimal.exponent + 1⟩
    else decimal

/-- The shortest decimal that reads back to a magnitude; seventeen digits always suffice. -/
def shortest (tie : TieRule) (magnitude : Magnitude) : Decimal :=
  if magnitude.val = 0 then ⟨0, 0⟩
  else
    let place := magnitude.val
    let leading := leadingExponent (unitsAt place) unitsPerOne
    let found := (List.range 17).findSome? fun (extra : Nat) =>
      let exponent : Int := leading - extra
      (nearestOnGrid? tie place exponent).map (Decimal.mk · exponent)
    stripZeros 18 (found.getD ⟨0, 0⟩)

end Number

end SchemaAlgebra
