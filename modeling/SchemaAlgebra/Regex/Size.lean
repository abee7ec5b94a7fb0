-- SUMMARY: How large an expression is as an automaton over bytes, and when it is too large.
import SchemaAlgebra.Regex.Encoding
import SchemaAlgebra.Regex.Syntax

/-!
# Size

An expression is accepted only if both automata for it, one that reads the bytes
of a text forwards and one that reads them backwards, fit in ten megabytes. A
state takes 32 bytes, an edge of a branching state 8, and a link of a choice 4.
Every copy of a repeated part counts.
-/

namespace SchemaAlgebra

/-- Which way an automaton reads. -/
inductive Direction where
  | forwards
  | backwards
  deriving DecidableEq, Repr

def stateSize : Nat := 32

def edgeSize : Nat := 8

def linkSize : Nat := 4

-- ---------------------------------------------------------------------------
-- Sets and literals
-- ---------------------------------------------------------------------------

/-- The size of a set. ASCII takes one branching state and its end. Otherwise the automaton is a tree
of byte sequences: forwards equal parts of it are shared, backwards only equal starts are. -/
def CharSet.size (direction : Direction) (s : CharSet) : Nat :=
  let sequences := s.byteSequences
  if s.isAscii then 2 * stateSize + edgeSize * s.ranges.length
  else match direction with
    | .forwards =>
      let nodes := (ByteTree.inner 4 sequences).eraseDups
      nodes.foldl (fun size node => size + stateSize + edgeSize * (ByteTree.split node).length) stateSize
    | .backwards =>
      2 * stateSize + linkSize * sequences.length + stateSize * ByteTree.edges [] sequences

/-- The texts that pass a node of the tree of a choice, cut where one ends: only texts that are not
divided by an end share a branch. An end before all else counts once. -/
def sections : List (List Nat) → List (List (List Nat))
  | [] => [[]]
  | [] :: rest => [] :: sections rest
  | text :: rest =>
    match sections rest with
    | [] => [[text]]
    | current :: more => (text :: current) :: more

/-- Adds a text to the branch of its first byte. -/
def insertBranch (byte : Nat) (tail : List Nat) : List (Nat × List (List Nat)) → List (Nat × List (List Nat))
  | [] => [(byte, [tail])]
  | (b, tails) :: rest =>
    if b = byte then (b, tails ++ [tail]) :: rest else (b, tails) :: insertBranch byte tail rest

/-- Texts by their first byte, each with what follows. -/
def byFirst (texts : List (List Nat)) : List (Nat × List (List Nat)) :=
  texts.foldl (fun branches text => match text with
    | [] => branches
    | byte :: tail => insertBranch byte tail branches) []

/-- The size of a choice of literals as a tree, given their bytes: each section of a node with more
than one edge is a branching state, and the node links its sections and its ends. -/
def treeSize : (depth : Nat) → List (List Nat) → Nat
  | 0, _ => 0
  | depth + 1, texts =>
    let (ends, texts) := (texts.takeWhile List.isEmpty, texts.dropWhile List.isEmpty)
    let sections := (if ends.isEmpty then [] else [[]]) ++ sections texts
    let nodes := sections.map byFirst
    let states := nodes.map fun branches =>
      if branches.isEmpty then 0
      else if branches.length = 1 then stateSize + linkSize
      else stateSize + edgeSize * branches.length + linkSize
    let below := nodes.flatten.map fun (_, tails) =>
      if tails.all List.isEmpty then 0 else treeSize depth tails
    (states ++ below).foldl Nat.add (stateSize + linkSize * (sections.length - 1))

namespace Regex

/-- The texts of a choice of literals. -/
def literals? (r : Regex) : Option (List (List Nat)) :=
  r.branches.mapM fun
    | .literal text => some text
    | _ => none

-- ---------------------------------------------------------------------------
-- Expressions
-- ---------------------------------------------------------------------------

/-- The length of the shortest match in characters, if there can be one. -/
def shortest : Regex → Option Nat
  | .empty | .look _ => some 0
  | .literal text => some text.length
  | .chars s => if s.isEmpty then none else some 1
  | .group _ r => r.shortest
  | .append a b => do some ((← a.shortest) + (← b.shortest))
  | .either a b => do some (Nat.min (← a.shortest) (← b.shortest))
  | .repetition r least _ _ => r.shortest.map (· * least)

/-- The size of an expression; `inChoice` says that it is the rest of a choice. -/
def sizeWithin (direction : Direction) : (inChoice : Bool) → Regex → Nat
  | _, .empty | _, .look _ => stateSize
  | _, .literal text => stateSize * (text.flatMap CharSet.encode).length
  | _, .chars s => s.size direction
  | _, .group _ r =>
    sizeWithin direction false r + (if direction = .forwards then 2 * stateSize else 0)
  | _, .append a b => sizeWithin direction false a + sizeWithin direction false b
  | true, .either a b => sizeWithin direction false a + sizeWithin direction true b
  | false, .either a b =>
    match (Regex.either a b).literals? with
    | some texts =>
      let bytes := texts.map fun text => text.flatMap CharSet.encode
      let bytes := if direction = .forwards then bytes else bytes.map List.reverse
      stateSize + treeSize ((bytes.map List.length).foldl Nat.max 0 + 1) bytes
    | none =>
      2 * stateSize + linkSize * (Regex.either a b).branches.length +
        sizeWithin direction false a + sizeWithin direction true b
  | _, .repetition r least most _ =>
    let each := sizeWithin direction false r
    let fork := stateSize + 2 * linkSize
    match least, most with
    | 0, none =>
      if r.shortest.any (0 < ·) then fork + each else 3 * stateSize + 4 * linkSize + each
    | least, none => least * each + fork
    | 0, some most => if most = 1 then fork + each + stateSize else 2 * stateSize + most * (fork + each)
    | least, some most =>
      if least = most then least * each else least * each + stateSize + (most - least) * (fork + each)

/-- Whether every match starts where the text does, as far as can be seen. -/
def startsText : Regex → Bool
  | .look l => l = .textStart
  | .group _ r => r.startsText
  | .append a b => a.startsText || (a.isWidthless && b.startsText)
  | .either a b => a.startsText && b.startsText
  | .repetition r least _ _ => 0 < least && r.startsText
  | _ => false

/-- Whether every match ends where the text does, as far as can be seen. -/
def endsText : Regex → Bool
  | .look l => l = .textEnd
  | .group _ r => r.endsText
  | .append a b => b.endsText || (b.isWidthless && a.endsText)
  | .either a b => a.endsText && b.endsText
  | .repetition r least _ _ => 0 < least && r.endsText
  | _ => false

/-- The size of the automaton of an expression. It has a state for a match, and begins with a loop
over all bytes unless it can only begin at an end of the text; forwards, it marks where a match starts
and ends. -/
def size (direction : Direction) (r : Regex) : Nat :=
  let fixed := match direction with
    | .forwards => r.startsText
    | .backwards => r.endsText
  let entry := if fixed then stateSize else 3 * stateSize + edgeSize + 2 * linkSize
  let marks := if direction = .forwards then 2 * stateSize else 0
  entry + marks + stateSize + sizeWithin direction false r

/-- The largest size that is accepted. -/
def sizeLimit : Nat := 10 * Nat.pow 2 20

def isTooLarge (r : Regex) : Bool :=
  sizeLimit < r.size .backwards || sizeLimit < r.size .forwards

end Regex

end SchemaAlgebra
