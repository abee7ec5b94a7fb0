-- SUMMARY: Reading JSON text, strictly by the grammar.
import SchemaAlgebra.Json.Basic

/-!
# Reading JSON

`Json.parse?` accepts exactly the JSON grammar: no trailing commas, no leading
zeros, no raw control characters and no unpaired surrogates in strings. Below
keys that nobody asks for, surrogates need not be paired. Every reader takes the
characters that remain and gives back what it left over. The fuel is twice the
length of the text: a step down takes a character and reads at most two readers
deep.

A whole number without fraction or exponent is an integer if it fits 64 bits;
`-0` and everything else become a `Number`. Repeated keys are all kept.
-/

namespace SchemaAlgebra.Json

def isBlank (c : Char) : Bool :=
  c == ' ' || c == '\t' || c == '\n' || c == '\r'

def skipBlanks (cs : List Char) : List Char :=
  cs.dropWhile isBlank

-- ---------------------------------------------------------------------------
-- Strings
-- ---------------------------------------------------------------------------

def hexValue? (c : Char) : Option Nat :=
  if '0' ≤ c ∧ c ≤ '9' then some (c.toNat - 48)
  else if 'a' ≤ c ∧ c ≤ 'f' then some (c.toNat - 87)
  else if 'A' ≤ c ∧ c ≤ 'F' then some (c.toNat - 55)
  else none

/-- Four hexadecimal digits. -/
def readUnit? : List Char → Option (Nat × List Char)
  | a :: b :: c :: d :: rest => do
    let a ← hexValue? a
    let b ← hexValue? b
    let c ← hexValue? c
    let d ← hexValue? d
    some (((a * 16 + b) * 16 + c) * 16 + d, rest)
  | _ => none

/-- How strictly strings are read. -/
inductive Strictness where
  /-- Surrogates come in pairs. -/
  | paired
  /-- Every surrogate stands for the replacement character. -/
  | unpaired
  deriving DecidableEq, Repr

/-- What follows `\u`: one unit, or a pair of surrogates. -/
def readUnicodeEscape? (strictness : Strictness) (cs : List Char) : Option (Char × List Char) := do
  let (unit, rest) ← readUnit? cs
  if unit < 0xD800 ∨ 0xE000 ≤ unit then some (Char.ofNat unit, rest)
  else if strictness = .unpaired then some (Char.ofNat 0xFFFD, rest)
  else if unit < 0xDC00 then
    match rest with
    | '\\' :: 'u' :: more =>
      let (low, rest) ← readUnit? more
      if 0xDC00 ≤ low ∧ low < 0xE000 then
        some (Char.ofNat (0x10000 + (unit - 0xD800) * 0x400 + (low - 0xDC00)), rest)
      else none
    | _ => none
  else none

/-- The character an escape stands for, given what follows the backslash. -/
def readEscape? (strictness : Strictness) : List Char → Option (Char × List Char)
  | '"' :: rest => some ('"', rest)
  | '\\' :: rest => some ('\\', rest)
  | '/' :: rest => some ('/', rest)
  | 'b' :: rest => some (Char.ofNat 8, rest)
  | 'f' :: rest => some (Char.ofNat 12, rest)
  | 'n' :: rest => some ('\n', rest)
  | 'r' :: rest => some ('\r', rest)
  | 't' :: rest => some ('\t', rest)
  | 'u' :: rest => readUnicodeEscape? strictness rest
  | _ => none

/-- The rest of a string after its opening quote, up to and with the closing one. -/
def readQuoted? (strictness : Strictness) : (fuel : Nat) → List Char → Option (List Char × List Char)
  | 0, _ => none
  | _ + 1, [] => none
  | fuel + 1, c :: rest =>
    if c = '"' then some ([], rest)
    else if c = '\\' then do
      let (c, rest) ← readEscape? strictness rest
      let (cs, rest) ← readQuoted? strictness fuel rest
      some (c :: cs, rest)
    else if c.toNat < 32 then none
    else do
      let (cs, rest) ← readQuoted? strictness fuel rest
      some (c :: cs, rest)

/-- A string literal with its opening quote. -/
def readString? (strictness : Strictness) : List Char → Option (String × List Char)
  | '"' :: rest => (readQuoted? strictness (rest.length + 1) rest).map fun (cs, rest) => (String.ofList cs, rest)
  | _ => none

-- ---------------------------------------------------------------------------
-- Numbers
-- ---------------------------------------------------------------------------

/-- The digits of a whole part: a lone zero, or digits that do not start with one. -/
def readWhole? (cs : List Char) : Option (List Char × List Char) :=
  match Number.spanDigits cs with
  | ([], _) => none
  | (d :: ds, rest) => if d = '0' ∧ ¬ ds.isEmpty then none else some (d :: ds, rest)

def readFraction? : List Char → Option (List Char × List Char)
  | '.' :: rest => match Number.spanDigits rest with
    | ([], _) => none
    | (ds, rest) => some (ds, rest)
  | cs => some ([], cs)

/-- An exponent, none if the number has none. -/
def readExponent? : List Char → Option (Option Int × List Char)
  | [] => some (none, [])
  | e :: rest =>
    if e = 'e' ∨ e = 'E' then
      let (negative, rest) := match rest with
        | '-' :: more => (true, more)
        | '+' :: more => (false, more)
        | more => (false, more)
      match Number.spanDigits rest with
      | ([], _) => none
      | (ds, rest) =>
        let size : Int := Number.digitsValue ds
        some (some (if negative then -size else size), rest)
    else some (none, e :: rest)

def readUnsigned? (negative : Bool) (cs : List Char) : Option (Json × List Char) := do
  let (whole, rest) ← readWhole? cs
  let (fraction, rest) ← readFraction? rest
  let (exponent, rest) ← readExponent? rest
  let digits := Number.digitsValue (whole ++ fraction)
  let inRange := if negative then digits ≤ Nat.pow 2 63 ∧ digits ≠ 0 else digits < Nat.pow 2 64
  if fraction.isEmpty ∧ exponent.isNone ∧ inRange then
    some (.integer (if negative then -(digits : Int) else digits), rest)
  else
    some (.real (Number.ofDecimal negative ⟨digits, exponent.getD 0 - fraction.length⟩), rest)

def readNumber? : List Char → Option (Json × List Char)
  | '-' :: rest => readUnsigned? true rest
  | cs => readUnsigned? false cs

-- ---------------------------------------------------------------------------
-- Documents
-- ---------------------------------------------------------------------------

mutual

/-- A document, blanks before it allowed. -/
def readDocument? (strictness : Strictness) (fuel : Nat) (cs : List Char) : Option (Json × List Char) :=
  match fuel with
  | 0 => none
  | fuel + 1 =>
    match skipBlanks cs with
    | 'n' :: 'u' :: 'l' :: 'l' :: rest => some (.null, rest)
    | 't' :: 'r' :: 'u' :: 'e' :: rest => some (.bool true, rest)
    | 'f' :: 'a' :: 'l' :: 's' :: 'e' :: rest => some (.bool false, rest)
    | '"' :: rest => (readString? strictness ('"' :: rest)).map fun (s, rest) => (.string s, rest)
    | '[' :: rest => match skipBlanks rest with
      | ']' :: rest => some (.array [], rest)
      | rest => (readItems? strictness fuel rest).map fun (items, rest) => (.array items, rest)
    | '\x7b' :: rest => match skipBlanks rest with
      | '\x7d' :: rest => some (.object [], rest)
      | rest => (readFields? strictness (fun _ => strictness) fuel rest).map fun (fields, rest) =>
        (.object fields, rest)
    | rest => readNumber? rest

/-- The items of an array after its bracket, up to and with the closing one. -/
def readItems? (strictness : Strictness) (fuel : Nat) (cs : List Char) : Option (List Json × List Char) :=
  match fuel with
  | 0 => none
  | fuel + 1 => do
    let (item, rest) ← readDocument? strictness fuel cs
    match skipBlanks rest with
    | ']' :: rest => some ([item], rest)
    | ',' :: rest =>
      let (items, rest) ← readItems? strictness fuel rest
      some (item :: items, rest)
    | _ => none

/-- The entries of an object after its brace, up to and with the closing one, given how strictly the
keys and the value of each key are read. -/
def readFields? (keys : Strictness) (value : String → Strictness) (fuel : Nat) (cs : List Char) : Option (List (String × Json) × List Char) :=
  match fuel with
  | 0 => none
  | fuel + 1 => do
    let (key, rest) ← readString? keys (skipBlanks cs)
    match skipBlanks rest with
    | ':' :: rest =>
      let (item, rest) ← readDocument? (value key) fuel rest
      match skipBlanks rest with
      | '\x7d' :: rest => some ([(key, item)], rest)
      | ',' :: rest =>
        let (fields, rest) ← readFields? keys value fuel rest
        some ((key, item) :: fields, rest)
      | _ => none
    | _ => none

end

/-- The document of a reader, if only blanks are left over. -/
def whole? {α : Type} (result : Option (α × List Char)) : Option α := do
  let (value, rest) ← result
  if (skipBlanks rest).isEmpty then some value else none

/-- Reads a whole text as one document. -/
def parse? (text : String) : Option Json :=
  let cs := text.toList
  whole? (readDocument? .paired (2 * cs.length + 2) cs)

/-- Reads a whole text as one document; if it is an object, only the values of some keys are asked for. -/
def parseFor? (keys : List String) (text : String) : Option Json :=
  let value (key : String) : Strictness := if keys.contains key then .paired else .unpaired
  match skipBlanks text.toList with
  | '\x7b' :: rest =>
    match skipBlanks rest with
    | '\x7d' :: rest => whole? (some (.object [], rest))
    | rest => (whole? (readFields? .paired value (2 * rest.length + 2) rest)).map .object
  | _ => parse? text

/-- Reads a whole text as one string literal, blanks around it allowed. -/
def parseString? (text : String) : Option String :=
  whole? (readString? .paired (skipBlanks text.toList))

end SchemaAlgebra.Json
