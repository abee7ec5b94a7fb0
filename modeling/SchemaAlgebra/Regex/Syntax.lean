-- SUMMARY: Regular expressions, and building them in simplified form.
import SchemaAlgebra.Regex.CharSet

/-!
# Regular expressions

Expressions describe which positions of a text can be reached from which. Only
whether a text contains a match is ever asked, so groups and greed have no
influence on it; they matter for how large an expression is.

Sequences and choices lean to the right, and are built by `sequence` and
`choice`, which flatten them and merge what can be merged. What they build means
the same as what they are given.
-/

namespace SchemaAlgebra

/-- A condition on a position that takes up no text. The flag on word boundaries says whether words
are made of ASCII characters only. -/
inductive Look where
  | textStart
  | textEnd
  | lineStart
  | lineEnd
  /-- As above, with a carriage return ending a line as well. -/
  | anyLineStart
  | anyLineEnd
  | wordBoundary (asciiOnly : Bool)
  | notWordBoundary (asciiOnly : Bool)
  | wordStart (asciiOnly : Bool)
  | wordEnd (asciiOnly : Bool)
  | wordStartHalf (asciiOnly : Bool)
  | wordEndHalf (asciiOnly : Bool)
  deriving DecidableEq, Repr

/-- A regular expression. -/
inductive Regex where
  | empty
  /-- Characters one after the other, at least one. -/
  | literal (text : List Nat)
  | chars (s : CharSet)
  | look (l : Look)
  /-- A group with its number. -/
  | group (number : Nat) (r : Regex)
  | append (a b : Regex)
  | either (a b : Regex)
  /-- At least `least` times, and at most `most` times if given. -/
  | repetition (r : Regex) (least : Nat) (most : Option Nat) (greedy : Bool)
  deriving DecidableEq, Repr

namespace Regex

/-- The expression without a match. -/
def never : Regex := .chars .empty

/-- One character of a set. -/
def ofSet (s : CharSet) : Regex :=
  match s.only? with
  | some c => .literal [c]
  | none => .chars s

-- ---------------------------------------------------------------------------
-- Sequences
-- ---------------------------------------------------------------------------

/-- The parts of a sequence; any other expression is its only part. -/
def factors : Regex → List Regex
  | .empty => []
  | .append a b => a :: b.factors
  | r => [r]

def ofFactors : List Regex → Regex
  | [] => .empty
  | [r] => r
  | r :: rest => .append r (ofFactors rest)

/-- Joins literals that follow each other. -/
def joinLiterals : List Regex → List Regex
  | [] => []
  | .literal text :: rest =>
    match joinLiterals rest with
    | .literal more :: rest => .literal (text ++ more) :: rest
    | rest => .literal text :: rest
  | r :: rest => r :: joinLiterals rest

/-- Expressions one after the other. -/
def sequence (parts : List Regex) : Regex :=
  ofFactors (joinLiterals (parts.flatMap factors))

-- ---------------------------------------------------------------------------
-- Choices
-- ---------------------------------------------------------------------------

/-- The branches of a choice; any other expression is its only branch. -/
def branches : Regex → List Regex
  | .either a b => a :: b.branches
  | r => [r]

def ofBranches : List Regex → Regex
  | [] => never
  | [r] => r
  | r :: rest => .either r (ofBranches rest)

/-- The set that branches make up if all are single characters, or all are sets. -/
def branchSet? (branches : List Regex) : Option CharSet :=
  let single? : Regex → Option CharSet
    | .literal [c] => some (.single c)
    | _ => none
  let set? : Regex → Option CharSet
    | .chars s => some s
    | _ => none
  (branches.mapM single? <|> branches.mapM set?).map CharSet.unions

/-- The parts that two sequences start with. -/
def commonFactors : List Regex → List Regex → List Regex
  | a :: as, b :: bs => if a = b then a :: commonFactors as bs else []
  | _, _ => []

/-- The parts that all branches start with, if all are sequences. -/
def sharedStart (branches : List Regex) : List Regex :=
  let parts : Regex → List Regex
    | .append a b => a :: b.factors
    | _ => []
  match branches with
  | [] => []
  | r :: rest => rest.foldl (fun shared r => commonFactors shared (parts r)) (parts r)

/-- How many expressions an expression is made of. -/
def nodes : Regex → Nat
  | .group _ r | .repetition r _ _ _ => r.nodes + 1
  | .append a b | .either a b => a.nodes + b.nodes + 1
  | _ => 1

/-- One of several expressions. A common start is written once, and the rest is a choice again, of
expressions with fewer nodes. -/
def choiceWithin : (fuel : Nat) → List Regex → Regex
  | 0, options => ofBranches (options.flatMap branches)
  | fuel + 1, options =>
    let branches := options.flatMap branches
    match branches with
    | [r] => r
    | branches =>
      match branchSet? branches with
      | some s => ofSet s
      | none =>
        let shared := sharedStart branches
        if shared.isEmpty then ofBranches branches
        else
          let rests := branches.map fun r => ofFactors (r.factors.drop shared.length)
          sequence (shared ++ [choiceWithin fuel rests])

def choice (options : List Regex) : Regex :=
  choiceWithin (options.foldl (fun total r => total + r.nodes) 1) options

-- ---------------------------------------------------------------------------
-- Repetitions
-- ---------------------------------------------------------------------------

/-- Whether all matches are empty, for there are some. -/
def isWidthless : Regex → Bool
  | .empty | .look _ => true
  | .literal _ | .chars _ => false
  | .group _ r => r.isWidthless
  | .append a b | .either a b => a.isWidthless && b.isWidthless
  | .repetition r _ most _ => most.isSome && r.isWidthless

/-- An expression several times. Once is enough where all matches are empty. -/
def repeated (r : Regex) (least : Nat) (most : Option Nat) (greedy : Bool) : Regex :=
  let (least, most) :=
    if r.isWidthless then (Nat.min least 1, some (Nat.min (most.getD 1) 1)) else (least, most)
  if most = some 0 then .empty
  else if least = 1 ∧ most = some 1 then r
  else .repetition r least most greedy

end Regex

end SchemaAlgebra
