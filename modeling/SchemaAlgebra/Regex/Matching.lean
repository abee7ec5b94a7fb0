-- SUMMARY: Whether a text contains a match: images of sets of positions under an expression.
import SchemaAlgebra.Regex.Syntax
import SchemaAlgebra.Regex.Unicode.Identifier

/-!
# Matching

An expression is read as a relation between the positions of a text, from where
a match starts to where it can end. On one text every expression is a `Motion`,
in which the tests of characters and conditions have become sets of positions;
`Motion.image` gives the image of a set of positions. So no match is ever
searched for step by step, and the time is polynomial in the text. A set of
positions is a natural number whose bit `i` says whether position `i` is in it.
-/

namespace SchemaAlgebra

/-- The positions up to `count` (exclusive) that have a property. -/
def positionsWhere (holds : Nat → Bool) (count : Nat) : Nat :=
  (List.range count).foldr (fun i set => 2 * set + if holds i then 1 else 0) 0

namespace Look

def asciiWord : CharSet := .ofTable ["30-39 41-5A 5F 61-7A"]

def isWordChar (asciiOnly : Bool) (n : Nat) : Bool :=
  (if asciiOnly then asciiWord else Unicode.word).contains n

/-- Whether a condition holds between two characters; at the ends of the text one is missing. -/
def holdsBetween (before after : Option Nat) : Look → Bool
  | .textStart => before.isNone
  | .textEnd => after.isNone
  | .lineStart => before.all (· == 10)
  | .lineEnd => after.all (· == 10)
  | .anyLineStart => before.all fun b => b == 10 || (b == 13 && after != some 10)
  | .anyLineEnd => after.all fun a => a == 13 || (a == 10 && before != some 13)
  | .wordBoundary ascii => before.any (isWordChar ascii) != after.any (isWordChar ascii)
  | .notWordBoundary ascii => before.any (isWordChar ascii) == after.any (isWordChar ascii)
  | .wordStart ascii => !before.any (isWordChar ascii) && after.any (isWordChar ascii)
  | .wordEnd ascii => before.any (isWordChar ascii) && !after.any (isWordChar ascii)
  | .wordStartHalf ascii => !before.any (isWordChar ascii)
  | .wordEndHalf ascii => !after.any (isWordChar ascii)

end Look

-- ---------------------------------------------------------------------------
-- Motions
-- ---------------------------------------------------------------------------

/-- What an expression does to the positions of one text. -/
inductive Motion where
  /-- Stays at a position of the set. -/
  | stay (positions : Nat)
  /-- Goes one further from a position of the set. -/
  | advance (positions : Nat)
  | append (a b : Motion)
  | either (a b : Motion)
  /-- At least `least` times, and at most `most` times if given. -/
  | repetition (m : Motion) (least : Nat) (most : Option Nat)

namespace Motion

/-- Applies `step` up to `fuel` times, adding what each step reaches, until nothing new comes. -/
def closure (step : Nat → Nat) : (fuel : Nat) → Nat → Nat
  | 0, set => set
  | fuel + 1, set =>
    let more := set ||| step set
    if more = set then set else closure step fuel more

/-- Applies `step` exactly `count` times, stopping early where it changes nothing any more. -/
def power (step : Nat → Nat) : (count : Nat) → Nat → Nat
  | 0, set => set
  | count + 1, set =>
    let next := step set
    if next = set then set else power step count next

/-- The positions that a motion reaches from a set, in a text of `size` characters. Without a largest
number of repetitions, as many as there are positions reach everything. -/
def image (size : Nat) : Motion → (set : Nat) → Nat
  | .stay positions, set => set &&& positions
  | .advance positions, set => (set &&& positions) <<< 1
  | .append a b, set => image size b (image size a set)
  | .either a b, set => image size a set ||| image size b set
  | .repetition m least most, set =>
    let start := power (image size m) least set
    match most with
    | none => closure (image size m) (size + 1) start
    | some most => closure (image size m) (most - least) start

end Motion

-- ---------------------------------------------------------------------------
-- Expressions
-- ---------------------------------------------------------------------------

namespace Regex

/-- All positions of a text of a size, its end included. -/
def everywhere (size : Nat) : Nat := positionsWhere (fun _ => true) (size + 1)

/-- What an expression does to the positions of a text. -/
def motion (text : Array Nat) : Regex → Motion
  | .empty => .stay (everywhere text.size)
  | .literal cs => cs.foldr
      (fun c rest => .append (.advance (positionsWhere (fun i => text[i]? == some c) text.size)) rest)
      (.stay (everywhere text.size))
  | .chars s => .advance (positionsWhere (fun i => text[i]?.any s.contains) text.size)
  | .look l => .stay (positionsWhere
      (fun i => l.holdsBetween (if i = 0 then none else text[i - 1]?) text[i]?) (text.size + 1))
  | .group _ r => r.motion text
  | .append a b => .append (a.motion text) (b.motion text)
  | .either a b => .either (a.motion text) (b.motion text)
  | .repetition r least most _ => .repetition (r.motion text) least most

/-- Whether a text contains a match. -/
def isMatch (r : Regex) (text : String) : Bool :=
  let units := (text.toList.map Char.toNat).toArray
  (r.motion units).image units.size (everywhere units.size) != 0

end Regex

end SchemaAlgebra
