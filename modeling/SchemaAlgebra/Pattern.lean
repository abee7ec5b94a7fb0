-- SUMMARY: Patterns: a regular expression with its source and normalized flags.
import SchemaAlgebra.Regex.Matching
import SchemaAlgebra.Regex.Parser

/-!
# Patterns

A pattern keeps its source and flags as they are shown, flags sorted and without
repetition, next to the expression that decides. Only three of the flags change
what matches.
-/

namespace SchemaAlgebra

/-- A pattern that strings can be matched against. -/
structure Pattern where
  source : String
  flags : String
  regex : Regex

/-- Why a pattern is refused. -/
inductive PatternError where
  | flag (c : Char)
  | source (text : String)
  deriving DecidableEq

namespace Pattern

/-- Every flag, in the order in which flags are shown. -/
def validFlags : List Char := ['d', 'g', 'i', 'm', 's', 'u', 'y']

/-- The source with its flags in front, as far as they have a meaning. -/
def inlineFlags (flags : List Char) (source : String) : String :=
  match flags.filter ['i', 'm', 's'].contains with
  | [] => source
  | flags => "(?" ++ String.ofList flags ++ ")" ++ source

/-- A pattern from its source and flags; the first invalid flag is reported before the source is read. -/
def ofSource (source flags : String) : Except PatternError Pattern :=
  match flags.toList.find? fun c => !validFlags.contains c with
  | some c => .error (.flag c)
  | none =>
    let normalized := validFlags.filter flags.toList.contains
    match Regex.parse? (inlineFlags normalized source) with
    | some regex => .ok ⟨source, String.ofList normalized, regex⟩
    | none => .error (.source source)

/-- The pattern between slashes, followed by its flags. -/
def literal (p : Pattern) : String := "/" ++ p.source ++ "/" ++ p.flags

def isMatch (p : Pattern) (text : String) : Bool := p.regex.isMatch text

end Pattern

namespace PatternError

def message : PatternError → String
  | .flag c =>
    "'" ++ c.toString ++ "' is not a valid pattern flag (expected one of " ++ String.ofList Pattern.validFlags ++ ")"
  | .source text => "/" ++ text ++ "/ is not a valid pattern"

end PatternError

end SchemaAlgebra
