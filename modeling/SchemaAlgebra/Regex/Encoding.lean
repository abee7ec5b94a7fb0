-- SUMMARY: Sets of characters as sequences of byte ranges in UTF-8.
import SchemaAlgebra.Regex.CharSet

/-!
# Byte sequences

In UTF-8 a character is a first byte and up to three bytes that continue it. The
characters of a range are told apart by a few sequences of byte ranges, in
increasing order. An automaton over bytes follows these sequences; read as a
tree, they say how large it is.
-/

namespace SchemaAlgebra

/-- A range of bytes, ends included. -/
abbrev ByteRange := Nat × Nat

namespace CharSet

/-- The sequences for a range, given what marks the first byte and how many bytes continue it. Where
the ends differ in the first byte, an incomplete block at either end gets sequences of its own. -/
def encodeRange (mark : Nat) : (continued : Nat) → (first last : Nat) → List (List ByteRange)
  | 0, first, last => [[(mark + first, mark + last)]]
  | n + 1, first, last =>
    let block := Nat.pow 64 (n + 1)
    let low := first / block
    let high := last / block
    let inside (byte first last : Nat) : List (List ByteRange) :=
      (encodeRange 0x80 n first last).map fun rest => (mark + byte, mark + byte) :: rest
    if low = high then inside low (first % block) (last % block)
    else
      let start := if first % block = 0 then low else low + 1
      let stop := if last % block = block - 1 then high + 1 else high
      (if start = low then [] else inside low (first % block) (block - 1)) ++
      (if start < stop then
        [(mark + start, mark + stop - 1) :: List.replicate (n + 1) (0x80, 0xBF)] else []) ++
      (if stop = high then inside high 0 (last % block) else [])

/-- For each length of the encoding: the characters that have it, the mark of the first byte, and how
many bytes follow. -/
def encodings : List (ByteRange × Nat × Nat) :=
  [((0, 0x7F), 0, 0), ((0x80, 0x7FF), 0xC0, 1), ((0x800, 0xFFFF), 0xE0, 2), ((0x10000, 0x10FFFF), 0xF0, 3)]

/-- The byte sequences of a set. -/
def byteSequences (s : CharSet) : List (List ByteRange) :=
  s.ranges.flatMap fun (first, last) =>
    encodings.flatMap fun ((low, high), mark, continued) =>
      let first := Nat.max first low
      let last := Nat.min last high
      if first ≤ last then encodeRange mark continued first last else []

/-- The bytes of a character. -/
def encode (c : Nat) : List Nat :=
  (byteSequences (single c)).flatten.map Prod.fst

end CharSet

-- ---------------------------------------------------------------------------
-- Trees
-- ---------------------------------------------------------------------------

namespace ByteTree

/-- How many elements two lists have in common at the start. -/
def commonLength : List ByteRange → List ByteRange → Nat
  | a :: as, b :: bs => if a = b then commonLength as bs + 1 else 0
  | _, _ => 0

/-- How many edges the tree of sequences has if each start is kept once, given the sequence before. -/
def edges : (before : List ByteRange) → List (List ByteRange) → Nat
  | _, [] => 0
  | before, s :: rest => s.length - commonLength before s + edges s rest

/-- Neighbouring sequences by their first range, each with what follows. -/
def split : List (List ByteRange) → List (ByteRange × List (List ByteRange))
  | [] => []
  | [] :: rest => split rest
  | (first :: tail) :: rest =>
    match split rest with
    | (next, tails) :: more =>
      if next = first then (first, tail :: tails) :: more else (first, [tail]) :: (next, tails) :: more
    | [] => [(first, [tail])]

/-- The inner nodes of the tree, each as the sequences that go on from it. -/
def inner : (depth : Nat) → List (List ByteRange) → List (List (List ByteRange))
  | 0, _ => []
  | depth + 1, sequences =>
    sequences :: (split sequences).flatMap fun (_, tails) =>
      if tails.all List.isEmpty then [] else inner depth tails

end ByteTree

end SchemaAlgebra
