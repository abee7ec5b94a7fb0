-- SUMMARY: The formats in which a log can be written, by name.

/-!
# Log formats

A format is named regardless of case; a name that is none stands for plain text.
-/

namespace SchemaAlgebra

/-- How a log is written. -/
inductive LogFormat where
  | text
  | tree
  | json
  deriving DecidableEq, Repr

namespace LogFormat

def name : LogFormat → String
  | .text => "Text"
  | .tree => "Tree"
  | .json => "Json"

/-- The format of a name. Only ASCII letters have the letters of a name as their lower case. -/
def ofName (name : String) : LogFormat :=
  let name := String.ofList (name.toList.map Char.toLower)
  if name = "tree" then .tree
  else if name = "json" then .json
  else .text

end LogFormat

end SchemaAlgebra
