-- SUMMARY: How values and property keys are shown in descriptions and messages.
import SchemaAlgebra.Json.Basic
import SchemaAlgebra.Value.Basic

/-!
# Texts of values

Strings are quoted as in JSON, bigints end in `n`, arrays show their items and
plain objects their properties; other objects show only what they are.
-/

namespace SchemaAlgebra

def Symbol.text (s : Symbol) : String :=
  "Symbol(" ++ s.description.getD "" ++ ")"

def PropKey.text : PropKey → String
  | .string name => name
  | .symbol s => "[" ++ s.text ++ "]"

namespace Value

def bigintText (n : Int) : String := toString n ++ "n"

mutual

def text : Value → String
  | .undefined => "undefined"
  | .null => "null"
  | .boolean b => if b then "true" else "false"
  | .number n => n.display
  | .bigint n => bigintText n
  | .string s => Json.quote s
  | .symbol s => s.text
  | .object ⟨_, _, body, props⟩ =>
    textOfBody (if props.isEmpty then "\x7b\x7d"
      else "\x7b" ++ ",".intercalate (textOfProps props) ++ " \x7d") body
termination_by structural value => value

/-- The text of an object, given the text of its properties. -/
def textOfBody (props : String) : Body Value → String
  | .plain => props
  | .array items => "[" ++ ", ".intercalate (textOfItems items) ++ "]"
  | .date time => "Date(" ++ time.display ++ ")"
  | .function => "Function"
termination_by structural body => body

def textOfItems : List Value → List String
  | [] => []
  | item :: rest => text item :: textOfItems rest
termination_by structural items => items

def textOfProps : List (PropKey × Value) → List String
  | [] => []
  | (key, value) :: rest => (" " ++ key.text ++ ": " ++ text value) :: textOfProps rest
termination_by structural props => props

end

end Value

end SchemaAlgebra
