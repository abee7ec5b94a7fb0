-- SUMMARY: Sets of characters, kept as the code points at which membership changes.

/-!
# Sets of characters

A set is the increasing list of the code points at which membership changes,
so every set has one form only, and all operations on two sets are one merge of
their lists. Surrogates are no characters and belong to no set.
-/

namespace SchemaAlgebra

/-- A set of characters, by the code points that differ from the one before in being a member. -/
structure CharSet where
  changes : List Nat
  deriving DecidableEq, Repr

namespace CharSet

def empty : CharSet := ⟨[]⟩

/-- All characters. -/
def all : CharSet := ⟨[0, 0xD800, 0xE000, 0x110000]⟩

/-- Membership behind a list of changes, given membership before them. -/
def flips (inside : Bool) : List Nat → Nat → Bool
  | [], _ => inside
  | change :: rest, n => if n < change then inside else flips (!inside) rest n

def contains (s : CharSet) (n : Nat) : Bool := flips false s.changes n

-- ---------------------------------------------------------------------------
-- Operations
-- ---------------------------------------------------------------------------

/-- The changes of a combination, given membership in both sets before the remaining changes. -/
def merge (op : Bool → Bool → Bool) (inA inB : Bool) : List Nat → List Nat → List Nat
  | [], [] => []
  | a :: as, [] => emit op inA inB a (!inA) inB (merge op (!inA) inB as [])
  | [], b :: bs => emit op inA inB b inA (!inB) (merge op inA (!inB) [] bs)
  | a :: as, b :: bs =>
    if a < b then emit op inA inB a (!inA) inB (merge op (!inA) inB as (b :: bs))
    else if b < a then emit op inA inB b inA (!inB) (merge op inA (!inB) (a :: as) bs)
    else emit op inA inB a (!inA) (!inB) (merge op (!inA) (!inB) as bs)
termination_by as bs => as.length + bs.length
where
  /-- Keeps a change of the sets if the combination changes with them. -/
  emit (op : Bool → Bool → Bool) (inA inB : Bool) (change : Nat) (nowA nowB : Bool) (rest : List Nat) : List Nat :=
    if op inA inB == op nowA nowB then rest else change :: rest

def union (s t : CharSet) : CharSet := ⟨merge (· || ·) false false s.changes t.changes⟩

def intersection (s t : CharSet) : CharSet := ⟨merge (· && ·) false false s.changes t.changes⟩

def difference (s t : CharSet) : CharSet := ⟨merge (fun a b => a && !b) false false s.changes t.changes⟩

def symmetricDifference (s t : CharSet) : CharSet := ⟨merge (· != ·) false false s.changes t.changes⟩

def complement (s : CharSet) : CharSet := all.difference s

def unions (sets : List CharSet) : CharSet := sets.foldl union empty

/-- The characters of a range, ends included. -/
def range (first last : Nat) : CharSet :=
  if first ≤ last then all.intersection ⟨[first, last + 1]⟩ else empty

def single (n : Nat) : CharSet := range n n

def ofRanges (ranges : List (Nat × Nat)) : CharSet :=
  unions (ranges.map fun r => range r.1 r.2)

/-- Moves every member by a distance; none may become negative. -/
def shift (distance : Int) (s : CharSet) : CharSet :=
  ⟨s.changes.map fun (change : Nat) => ((change : Int) + distance).toNat⟩

-- ---------------------------------------------------------------------------
-- Views
-- ---------------------------------------------------------------------------

/-- Pairs of changes as ranges, ends included. -/
def pairs : List Nat → List (Nat × Nat)
  | first :: stop :: rest => (first, stop - 1) :: pairs rest
  | _ => []

/-- The longest ranges of a set, in order. -/
def ranges (s : CharSet) : List (Nat × Nat) := pairs s.changes

def isEmpty (s : CharSet) : Bool := s.changes.isEmpty

/-- The only member of a set, if there is only one. -/
def only? (s : CharSet) : Option Nat :=
  match s.ranges with
  | [(first, last)] => if first = last then some first else none
  | _ => none

def isAscii (s : CharSet) : Bool := s.changes.all (· ≤ 128)

-- ---------------------------------------------------------------------------
-- Tables
-- ---------------------------------------------------------------------------

def isHexDigit (c : Char) : Bool := c.isDigit || ('A' ≤ c && c ≤ 'F')

/-- The number that hexadecimal digits spell. -/
def hexValue (digits : List Char) : Nat :=
  digits.foldl (fun n c => 16 * n + (if c.isDigit then c.toNat - 48 else c.toNat - 55)) 0

/-- The changes of one item of a table: `41`, `41-5A`, or `100-12E/2` for every second one. -/
def itemChanges (item : List Char) : List Nat :=
  let (first, rest) := item.span isHexDigit
  let (last, stride) := (rest.drop 1).span isHexDigit
  let first := hexValue first
  if rest.isEmpty then [first, first + 1]
  else if stride.isEmpty then [first, hexValue last + 1]
  else (List.range ((hexValue last - first) / 2 + 1)).flatMap fun i => [first + 2 * i, first + 2 * i + 1]

/-- A set from lines of items, in order and not touching each other. -/
def ofTable (lines : List String) : CharSet :=
  ⟨lines.flatMap fun line => (line.splitOn " ").flatMap fun item => itemChanges item.toList⟩

/-- Sets with the names that each goes by. -/
abbrev Catalogue := List (List String × CharSet)

/-- The set that goes by a name. -/
def Catalogue.named? (catalogue : Catalogue) (name : String) : Option CharSet :=
  (catalogue.find? fun row => row.1.contains name).map Prod.snd

end CharSet

end SchemaAlgebra
