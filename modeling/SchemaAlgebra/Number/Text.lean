-- SUMMARY: The two written forms of a number: positional, and the form used inside JSON.
import SchemaAlgebra.Number.Decimal

/-!
# Written forms of numbers

`positional` never uses an exponent; descriptions, conditions and messages are
written with it. `jsonText` is the form inside JSON, which switches to an
exponent outside a middle range.
-/

namespace SchemaAlgebra.Number

def signText (negative : Bool) : String := if negative then "-" else ""

def zeros (n : Nat) : String := String.ofList (List.replicate n '0')

/-- Positional digits of a decimal; a whole number gets `whole` appended. -/
def positionalDigits (whole : String) (decimal : Decimal) : String :=
  let digits := toString decimal.digits
  if 0 ≤ decimal.exponent then digits ++ zeros decimal.exponent.toNat ++ whole
  else
    let places := (-decimal.exponent).toNat
    let padded := if digits.length ≤ places then zeros (places + 1 - digits.length) ++ digits else digits
    let cs := padded.toList
    String.ofList (cs.take (cs.length - places)) ++ "." ++ String.ofList (cs.drop (cs.length - places))

/-- Scientific digits of a decimal: one digit before the point, and a signed exponent. -/
def scientificDigits (decimal : Decimal) : String :=
  match (toString decimal.digits).toList with
  | [] => ""
  | first :: rest =>
    let exponent : Int := decimal.exponent + rest.length
    let fraction := if rest.isEmpty then "" else "." ++ String.ofList rest
    let sign := if exponent < 0 then "-" else "+"
    first.toString ++ fraction ++ "e" ++ sign ++ toString exponent.natAbs

/-- A number without an exponent, the sign of zero kept; of two equally near shortest decimals
the larger magnitude is written. -/
def positional : Number → String
  | .nan => "NaN"
  | .infinity negative => signText negative ++ "Infinity"
  | .finite negative magnitude => signText negative ++ positionalDigits "" (shortest .up magnitude)

/-- A number as descriptions and conditions show it: `0` and `-0` look the same. -/
def display (n : Number) : String :=
  if n.isZero then "0" else n.positional

/-- A finite number as it stands in JSON: positional with a fraction while the exponent of the leading digit is
from -5 to 15, and scientific outside. -/
def jsonText : Number → String
  | .finite negative magnitude =>
    let decimal := shortest .even magnitude
    let leading : Int := decimal.exponent + digitCount decimal.digits - 1
    signText negative ++
      if magnitude.val = 0 ∨ (-5 ≤ leading ∧ leading ≤ 15) then positionalDigits ".0" decimal
      else scientificDigits decimal
  | _ => "null"

end SchemaAlgebra.Number
