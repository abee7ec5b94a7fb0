-- SUMMARY: Reading the source of a regular expression.
import SchemaAlgebra.Regex.Matching
import SchemaAlgebra.Regex.Size
import SchemaAlgebra.Regex.Unicode.CaseFolding
import SchemaAlgebra.Regex.Unicode.Property

/-!
# Reading regular expressions

The dialect has Unicode classes, nested bracketed classes with set operations,
inline flags, named groups and special word boundaries, and neither look-around nor
back-references. A reader takes the characters that remain and gives back what
it left over, or nothing if the source is not valid; only whether it is valid is
of interest, never why not.
-/

namespace SchemaAlgebra.Regex

/-- The flags in force at a place of the source. -/
structure Flags where
  ignoreCase : Bool
  multiLine : Bool
  dotAll : Bool
  swapGreed : Bool
  unicode : Bool
  crlf : Bool
  /-- Blanks and comments in the source are skipped. -/
  verbose : Bool

def Flags.initial : Flags := ⟨false, false, false, false, true, false, false⟩

def isBlank (c : Char) : Bool := Unicode.whiteSpace.contains c.toNat

/-- In verbose sources, what follows the blanks and comments. -/
def skipVerbose (flags : Flags) : (fuel : Nat) → List Char → List Char
  | 0, cs => cs
  | fuel + 1, cs =>
    if !flags.verbose then cs
    else match cs with
      | [] => []
      | c :: rest =>
        if isBlank c then skipVerbose flags fuel rest
        else if c = '#' then skipVerbose flags fuel ((rest.dropWhile (· != '\n')).drop 1)
        else c :: rest

def skip (flags : Flags) (cs : List Char) : List Char :=
  skipVerbose flags cs.length cs

/-- In verbose sources, what seems to come next: behind blanks and the mark of one comment, whose text
is not skipped. -/
def glance (flags : Flags) (cs : List Char) : List Char :=
  if !flags.verbose then cs
  else match cs.dropWhile isBlank with
    | '#' :: rest => rest.dropWhile isBlank
    | rest => rest

-- ---------------------------------------------------------------------------
-- Escapes
-- ---------------------------------------------------------------------------

/-- What one item of the source stands for. -/
inductive Primitive where
  /-- A character, and whether it was written as a byte. -/
  | literal (c : Nat) (isByte : Bool)
  | class (s : CharSet)
  | dot
  | look (l : Look)

def hexValue? (c : Char) : Option Nat :=
  if '0' ≤ c ∧ c ≤ '9' then some (c.toNat - 48)
  else if 'a' ≤ c ∧ c ≤ 'f' then some (c.toNat - 87)
  else if 'A' ≤ c ∧ c ≤ 'F' then some (c.toNat - 55)
  else none

def scalar? (n : Nat) : Option Nat :=
  if n < 0xD800 ∨ (0xE000 ≤ n ∧ n < 0x110000) then some n else none

/-- A given count of hexadecimal digits. -/
def readHexFixed? (flags : Flags) : (count : Nat) → (value : Nat) → List Char → Option (Nat × List Char)
  | 0, value, cs => some (value, cs)
  | count + 1, value, cs =>
    match cs with
    | [] => none
    | c :: rest => (hexValue? c).bind fun digit =>
      readHexFixed? flags count (value * 16 + digit) (skip flags rest)

/-- Hexadecimal digits up to a closing brace, at least one. -/
def readHexBraced? (flags : Flags) : (fuel : Nat) → (digits value : Nat) → List Char → Option (Nat × List Char)
  | 0, _, _, _ => none
  | fuel + 1, digits, value, cs =>
    match skip flags cs with
    | [] => none
    | '\x7d' :: rest => if digits = 0 then none else some (value, rest)
    | c :: rest => (hexValue? c).bind fun digit =>
      readHexBraced? flags fuel (digits + 1) (value * 16 + digit) rest

/-- A character by its code, after the letter that says how many digits there are. -/
def readHex? (flags : Flags) (count : Nat) (cs : List Char) : Option (Primitive × List Char) :=
  match skip flags cs with
  | '\x7b' :: rest => do
    let (value, rest) ← readHexBraced? flags (rest.length + 1) 0 0 rest
    some (.literal (← scalar? value) false, rest)
  | rest => do
    let (value, rest) ← readHexFixed? flags count 0 rest
    some (.literal (← scalar? value) (count == 2), rest)

/-- The part of a property name before the first occurrence of a separator, and the part after it. -/
def splitName? (separator : List Char) : List Char → Option (List Char × List Char)
  | [] => none
  | c :: rest =>
    match separator.isPrefixOf? (c :: rest) with
    | some value => some ([], value)
    | none => (splitName? separator rest).map fun (name, value) => (c :: name, value)

/-- The set a property stands for, by its name in braces, and whether the name negates it. -/
def namedClass? (name : List Char) : Option (CharSet × Bool) :=
  let lookup (name value : List Char) : Option CharSet :=
    Unicode.Property.ofNameAndValue? (String.ofList name) (String.ofList value)
  match splitName? ['!', '='] name with
  | some (name, value) => (lookup name value).map (·, true)
  | none => match splitName? [':'] name with
    | some (name, value) => (lookup name value).map (·, false)
    | none => match splitName? ['='] name with
      | some (name, value) => (lookup name value).map (·, false)
      | none => (Unicode.Property.ofName? (String.ofList name)).map (·, false)

/-- Characters up to a closing brace. -/
def readBraced? (flags : Flags) : (fuel : Nat) → List Char → Option (List Char × List Char)
  | 0, _ => none
  | fuel + 1, cs =>
    match skip flags cs with
    | [] => none
    | '\x7d' :: rest => some ([], rest)
    | c :: rest => (readBraced? flags fuel rest).map fun (name, rest) => (c :: name, rest)

/-- A set with everything that differs from it by case, if case is ignored. -/
def foldFor (flags : Flags) (s : CharSet) : CharSet :=
  if flags.ignoreCase then s.foldCase (!flags.unicode) else s

/-- A property class after its letter. Folding comes before negation, and two negations cancel. -/
def readProperty? (flags : Flags) (negated : Bool) (cs : List Char) : Option (Primitive × List Char) := do
  let ((s, negatedByName), rest) ← match skip flags cs with
    | [] => none
    | '\x7b' :: rest => do
      let (name, rest) ← readBraced? flags (rest.length + 1) rest
      some (← namedClass? name, rest)
    | '\\' :: _ => none
    | c :: rest => do some (← namedClass? [c], rest)
  if !flags.unicode then none
  let s := foldFor flags s
  some (.class (if negated != negatedByName then s.complement else s), rest)

/-- The classes of digits, blanks and word characters. -/
def shorthand? (flags : Flags) (c : Char) : Option CharSet :=
  let positive (c : Char) : Option CharSet :=
    if c = 'd' then some (if flags.unicode then Unicode.decimalNumber else .range 48 57)
    else if c = 's' then some (if flags.unicode then Unicode.whiteSpace else .ofTable ["9-D 20"])
    else if c = 'w' then some (if flags.unicode then Unicode.word else Look.asciiWord)
    else none
  match positive c with
  | some s => some s
  -- outside Unicode a complement would match parts of characters
  | none => if flags.unicode then (positive c.toLower).map CharSet.complement else none

/-- Characters that an escape makes literal: all of ASCII but letters, digits and angle brackets. -/
def isEscapable (c : Char) : Bool :=
  c.toNat < 128 && !c.isAlphanum && c != '<' && c != '>'

/-- The kind of a word boundary named in braces, if there is one: letters and hyphens are a name,
anything else is left to be a repetition. -/
def readBoundaryName? (flags : Flags) (cs : List Char) : Option (Option Look × List Char) :=
  let isNameChar (c : Char) : Bool := c.isAlpha || c == '-'
  let ascii := !flags.unicode
  match cs with
  | '\x7b' :: rest =>
    match skip flags rest with
    | [] => none
    | c :: more =>
      if !isNameChar c then some (none, cs)
      else do
        let (name, rest) ← readBraced? flags (more.length + 2) (c :: more)
        if !name.all isNameChar then none
        let boundary ← match String.ofList name with
          | "start" => some (Look.wordStart ascii)
          | "end" => some (Look.wordEnd ascii)
          | "start-half" => some (Look.wordStartHalf ascii)
          | "end-half" => some (Look.wordEndHalf ascii)
          | _ => none
        some (some boundary, rest)
  | _ => some (none, cs)

/-- What follows a backslash. -/
def readEscape? (flags : Flags) (cs : List Char) : Option (Primitive × List Char) :=
  let ascii := !flags.unicode
  match cs with
  | [] => none
  | 'x' :: rest => readHex? flags 2 rest
  | 'u' :: rest => readHex? flags 4 rest
  | 'U' :: rest => readHex? flags 8 rest
  | 'p' :: rest => readProperty? flags false rest
  | 'P' :: rest => readProperty? flags true rest
  | 'a' :: rest => some (.literal 7 false, rest)
  | 'f' :: rest => some (.literal 12 false, rest)
  | 't' :: rest => some (.literal 9 false, rest)
  | 'n' :: rest => some (.literal 10 false, rest)
  | 'r' :: rest => some (.literal 13 false, rest)
  | 'v' :: rest => some (.literal 11 false, rest)
  | 'A' :: rest => some (.look .textStart, rest)
  | 'z' :: rest => some (.look .textEnd, rest)
  | 'B' :: rest => some (.look (.notWordBoundary ascii), rest)
  | '<' :: rest => some (.look (.wordStart ascii), rest)
  | '>' :: rest => some (.look (.wordEnd ascii), rest)
  | 'b' :: rest => do
    let (boundary, rest) ← readBoundaryName? flags rest
    some (.look (boundary.getD (.wordBoundary ascii)), rest)
  | c :: rest =>
    if isEscapable c then some (.literal c.toNat false, rest)
    else (shorthand? flags c).map fun s => (.class s, rest)

-- ---------------------------------------------------------------------------
-- Bracketed classes
-- ---------------------------------------------------------------------------

def asciiClass? : String → Option (List (Nat × Nat))
  | "alnum" => some [(48, 57), (65, 90), (97, 122)]
  | "alpha" => some [(65, 90), (97, 122)]
  | "ascii" => some [(0, 127)]
  | "blank" => some [(9, 9), (32, 32)]
  | "cntrl" => some [(0, 31), (127, 127)]
  | "digit" => some [(48, 57)]
  | "graph" => some [(33, 126)]
  | "lower" => some [(97, 122)]
  | "print" => some [(32, 126)]
  | "punct" => some [(33, 47), (58, 64), (91, 96), (123, 126)]
  | "space" => some [(9, 13), (32, 32)]
  | "upper" => some [(65, 90)]
  | "word" => some [(48, 57), (65, 90), (95, 95), (97, 122)]
  | "xdigit" => some [(48, 57), (65, 70), (97, 102)]
  | _ => none

/-- Folds case if it is ignored, then negates; outside Unicode the result must be ASCII. -/
def foldAndNegate? (flags : Flags) (negated : Bool) (s : CharSet) : Option CharSet :=
  let s := foldFor flags s
  let s := if negated then s.complement else s
  if flags.unicode || s.isAscii then some s else none

/-- A named class such as `[:alpha:]` at an opening bracket; anything else that starts like one is an
ordinary nested class. -/
def readAsciiClass? (cs : List Char) : Option (Bool × CharSet × List Char) :=
  match cs with
  | '[' :: ':' :: rest => do
    let (negated, rest) := match rest with
      | '^' :: more => (true, more)
      | more => (false, more)
    let (name, rest) := rest.span (· != ':')
    match rest with
    | ':' :: ']' :: rest =>
      let ranges ← asciiClass? (String.ofList name)
      some (negated, .ofRanges ranges, rest)
    | _ => none
  | _ => none

/-- An operation between two classes. -/
inductive SetOp where
  | intersection
  | difference
  | symmetricDifference

def SetOp.apply (flags : Flags) (op : SetOp) (a b : CharSet) : CharSet :=
  match op with
  | .intersection => (foldFor flags a).intersection (foldFor flags b)
  | .difference => (foldFor flags a).difference (foldFor flags b)
  | .symmetricDifference => (foldFor flags a).symmetricDifference (foldFor flags b)

/-- A set with the nesting of its syntax. -/
structure ClassPiece where
  set : CharSet
  depth : Nat

/-- A bracketed class that is not closed yet. -/
structure OpenClass where
  negated : Bool
  /-- The operand and operation before the items. -/
  pending : Option (ClassPiece × SetOp)
  /-- The items so far, how many they are, and how deeply they nest. -/
  items : CharSet
  count : Nat
  depth : Nat

def OpenClass.start (negated : Bool) (pending : Option (ClassPiece × SetOp)) : OpenClass :=
  ⟨negated, pending, .empty, 0, 0⟩

def OpenClass.add (c : OpenClass) (item : ClassPiece) : OpenClass :=
  { c with items := c.items.union item.set, count := c.count + 1, depth := Nat.max c.depth item.depth }

/-- The class without its negation: the items, combined with the pending operand. Several items nest,
and so does an operation. -/
def OpenClass.settle (flags : Flags) (c : OpenClass) : ClassPiece :=
  let items : ClassPiece := ⟨c.items, if c.count ≤ 1 then c.depth else c.depth + 1⟩
  match c.pending with
  | none => items
  | some (left, op) => ⟨op.apply flags left.set items.set, Nat.max left.depth items.depth + 1⟩

/-- Hyphens directly after the opening of a class stand for themselves. -/
def readHyphens (flags : Flags) : (fuel : Nat) → OpenClass → List Char → OpenClass × List Char
  | 0, c, cs => (c, cs)
  | fuel + 1, c, cs =>
    match cs with
    | '-' :: rest => readHyphens flags fuel (c.add ⟨.single 45, 0⟩) (skip flags rest)
    | _ => (c, cs)

/-- What follows an opening bracket: a negation, hyphens, and a bracket that stands for itself. -/
def openClass (flags : Flags) (cs : List Char) : OpenClass × List Char :=
  let cs := skip flags cs
  let (negated, cs) := match cs with
    | '^' :: rest => (true, skip flags rest)
    | _ => (false, cs)
  match readHyphens flags cs.length (.start negated none) cs with
  | (c, ']' :: rest) => if c.count = 0 then (c.add ⟨.single 93, 0⟩, skip flags rest) else (c, ']' :: rest)
  | (c, rest) => (c, rest)

/-- One item of a class. -/
def readClassItem? (flags : Flags) : List Char → Option (Primitive × List Char)
  | [] => none
  | '\\' :: rest => readEscape? flags rest
  | c :: rest => some (.literal c.toNat false, rest)

/-- A bound of a range; outside Unicode it must be ASCII. -/
def Primitive.bound? (flags : Flags) : Primitive → Option Nat
  | .literal c _ => if flags.unicode || c < 128 then some c else none
  | _ => none

/-- An item or a range of items. -/
def readClassRange? (flags : Flags) (cs : List Char) : Option (CharSet × List Char) := do
  let (first, rest) ← readClassItem? flags cs
  let rest := skip flags rest
  let alone : Option CharSet := match first with
    | .literal _ _ => (first.bound? flags).map CharSet.single
    | .class s => some s
    | _ => none
  match rest with
  | [] => none
  | '-' :: more =>
    match glance flags more with
    | ']' :: _ | '-' :: _ => some (← alone, rest)
    | _ =>
      let (last, rest) ← readClassItem? flags (skip flags more)
      let low ← first.bound? flags
      let high ← last.bound? flags
      if low ≤ high then some (.range low high, rest) else none
  | _ => some (← alone, rest)

/-- The rest of a class, with the classes around it innermost first. A bracketed class nests. -/
def readClassBody? (flags : Flags) : (fuel : Nat) → OpenClass → List OpenClass → List Char →
    Option (ClassPiece × List Char)
  | 0, _, _, _ => none
  | fuel + 1, current, outer, cs =>
    let withOp (op : SetOp) (rest : List Char) : Option (ClassPiece × List Char) :=
      readClassBody? flags fuel (.start current.negated (some (current.settle flags, op))) outer rest
    match skip flags cs with
    | [] => none
    | '[' :: rest =>
      match readAsciiClass? ('[' :: rest) with
      | some (negated, s, rest) => do
        let s ← foldAndNegate? flags negated s
        readClassBody? flags fuel (current.add ⟨s, 0⟩) outer rest
      | none =>
        let (inner, rest) := openClass flags rest
        readClassBody? flags fuel inner (current :: outer) rest
    | ']' :: rest => do
      let settled := current.settle flags
      let closed : ClassPiece := ⟨← foldAndNegate? flags current.negated settled.set, settled.depth + 1⟩
      match outer with
      | [] => some (closed, rest)
      | next :: outer => readClassBody? flags fuel (next.add closed) outer rest
    | '&' :: '&' :: rest => withOp .intersection rest
    | '-' :: '-' :: rest => withOp .difference rest
    | '~' :: '~' :: rest => withOp .symmetricDifference rest
    | rest => do
      let (s, rest) ← readClassRange? flags rest
      readClassBody? flags fuel (current.add ⟨s, 0⟩) outer rest

/-- A class after its opening bracket. -/
def readClass? (flags : Flags) (cs : List Char) : Option (ClassPiece × List Char) :=
  let (inner, rest) := openClass flags cs
  readClassBody? flags (rest.length + 1) inner [] rest

-- ---------------------------------------------------------------------------
-- Repetitions
-- ---------------------------------------------------------------------------

/-- A decimal below `2 ^ 32`, blanks around it allowed. -/
def readCount? (flags : Flags) (cs : List Char) : Option (Nat × List Char) :=
  let rec digits : (fuel : Nat) → (value : Option Nat) → List Char → Option (Nat × List Char)
    | 0, _, _ => none
    | fuel + 1, value, cs =>
      match cs with
      | c :: rest =>
        if '0' ≤ c ∧ c ≤ '9' then
          digits fuel (some (10 * value.getD 0 + (c.toNat - 48))) (skip flags rest)
        else value.map fun n => (n, cs)
      | [] => value.map fun n => (n, [])
  do
    let (n, rest) ← digits (cs.length + 1) none (cs.dropWhile isBlank)
    if n < Nat.pow 2 32 then some (n, skip flags (rest.dropWhile isBlank)) else none

/-- The bounds of a counted repetition after its opening brace, and up to the closing one. -/
def readBounds? (flags : Flags) (cs : List Char) : Option (Nat × Option Nat × List Char) := do
  let (least, rest) ← readCount? flags (skip flags cs)
  match rest with
  | '\x7d' :: rest => some (least, some least, rest)
  | ',' :: rest =>
    match skip flags rest with
    | '\x7d' :: rest => some (least, none, rest)
    | rest =>
      let (most, rest) ← readCount? flags rest
      match rest with
      | '\x7d' :: rest => if least ≤ most then some (least, some most, rest) else none
      | _ => none
  | _ => none

-- ---------------------------------------------------------------------------
-- Groups and the whole expression
-- ---------------------------------------------------------------------------

/-- An expression with the nesting of its syntax. -/
structure Piece where
  regex : Regex
  depth : Nat

/-- An item of a sequence: an expression, or flags, which cannot be repeated. -/
abbrev Item := Option Piece

/-- A group that is not closed yet: its finished alternatives and the items of the current one, the
latest first, and the flags to return to. -/
structure OpenGroup where
  outerFlags : Flags
  /-- The number of the group, if it is counted. -/
  number : Option Nat
  alternatives : List Piece
  items : List Item

/-- The items of a sequence as one expression. -/
def OpenGroup.sequence (items : List Item) : Piece :=
  let pieces := (items.filterMap id).reverse
  let depth := pieces.foldl (fun d piece => Nat.max d piece.depth) 0
  ⟨Regex.sequence (pieces.map Piece.regex), if items.length ≤ 1 then depth else depth + 1⟩

/-- The content of a group as one expression. -/
def OpenGroup.content (group : OpenGroup) : Piece :=
  let last := OpenGroup.sequence group.items
  let depth := group.alternatives.foldl (fun d piece => Nat.max d piece.depth) last.depth
  ⟨Regex.choice ((last :: group.alternatives).reverse.map Piece.regex),
    if group.alternatives.isEmpty then depth else depth + 1⟩

/-- A group as one expression. -/
def OpenGroup.close (group : OpenGroup) : Piece :=
  let content := group.content
  ⟨match group.number with
    | some n => .group n content.regex
    | none => content.regex, content.depth + 1⟩

/-- The letters of a flag group up to its end; `seen` are those before, and `negated` says whether a
minus was seen and is followed by a flag. -/
def readFlags? : (fuel : Nat) → Flags → (seen : List Char) → (negated : Option Bool) → List Char →
    Option (Flags × List Char × List Char)
  | 0, _, _, _, _ => none
  | fuel + 1, flags, seen, negated, cs =>
    let turn (seenNow : Char) (flags : Flags) (rest : List Char) :
        Option (Flags × List Char × List Char) :=
      if seen.contains seenNow then none
      else readFlags? fuel flags (seenNow :: seen) (negated.map fun _ => true) rest
    let on := negated.isNone
    match cs with
    | [] => none
    | ':' :: rest => if negated = some false then none else some (flags, seen, ':' :: rest)
    | ')' :: rest => if negated = some false then none else some (flags, seen, ')' :: rest)
    | '-' :: rest => if on then readFlags? fuel flags ('-' :: seen) (some false) rest else none
    | 'i' :: rest => turn 'i' { flags with ignoreCase := on } rest
    | 'm' :: rest => turn 'm' { flags with multiLine := on } rest
    | 's' :: rest => turn 's' { flags with dotAll := on } rest
    | 'U' :: rest => turn 'U' { flags with swapGreed := on } rest
    | 'u' :: rest => turn 'u' { flags with unicode := on } rest
    | 'R' :: rest => turn 'R' { flags with crlf := on } rest
    | 'x' :: rest => turn 'x' { flags with verbose := on } rest
    | _ => none

/-- The name of a group up to its closing angle bracket. -/
def readGroupName? (cs : List Char) : Option (String × List Char) :=
  let (name, rest) := cs.span (· != '>')
  let isLetter (c : Char) : Bool := c == '_' || Unicode.alphabetic.contains c.toNat
  let isLater (c : Char) : Bool :=
    isLetter c || c == '.' || c == '[' || c == ']' || Unicode.number.contains c.toNat
  match name, rest with
  | first :: more, '>' :: rest =>
    if isLetter first ∧ more.all isLater then some (String.ofList name, rest) else none
  | _, _ => none

/-- What is known while the source is read. -/
structure ParseState where
  flags : Flags
  current : OpenGroup
  outer : List OpenGroup
  /-- How many groups were counted. -/
  groups : Nat
  names : List String

namespace ParseState

def push (state : ParseState) (item : Item) : ParseState :=
  { state with current := { state.current with items := item :: state.current.items } }

def pushRegex (state : ParseState) (regex : Regex) (depth : Nat) : ParseState :=
  state.push (some ⟨regex, depth⟩)

/-- Replaces the last item by its repetition; there has to be one, and flags are none. A question mark
behind the bounds makes it lazy. -/
def repeatLast? (state : ParseState) (least : Nat) (most : Option Nat) (rest : List Char) :
    Option (ParseState × List Char) :=
  match state.current.items with
  | some piece :: items =>
    let (lazy, rest) := match rest with
      | '?' :: rest => (true, rest)
      | rest => (false, rest)
    let repeated := piece.regex.repeated least most (lazy == state.flags.swapGreed)
    some ({ state with current := { state.current with items := some ⟨repeated, piece.depth + 1⟩ :: items } },
      rest)
  | _ => none

/-- Opens a group; until it closes, `flags` are in force. -/
def openGroup (state : ParseState) (flags : Flags) : ParseState :=
  { state with flags, current := ⟨state.flags, none, [], []⟩, outer := state.current :: state.outer }

/-- Opens a group that is counted. -/
def openCounted (state : ParseState) : ParseState :=
  let groups := state.groups + 1
  { state with groups, current := ⟨state.flags, some groups, [], []⟩, outer := state.current :: state.outer }

/-- Closes the innermost group, if there is one. -/
def closeGroup? (state : ParseState) : Option ParseState :=
  match state.outer with
  | [] => none
  | next :: outer =>
    some ({ state with flags := state.current.outerFlags, current := next, outer }.push
      (some state.current.close))

/-- A literal character; with case ignored, what differs by case matches too. -/
def literal? (state : ParseState) (c : Nat) (isByte : Bool) : Option ParseState :=
  if !state.flags.unicode && isByte && 128 ≤ c then none
  else
    some (state.pushRegex (.ofSet (foldFor state.flags (.single c))) 0)

/-- Any character, or any but the ends of lines. -/
def dot? (state : ParseState) : Option ParseState :=
  if !state.flags.unicode then none
  else
    let ends : CharSet := if state.flags.dotAll then .empty
      else if state.flags.crlf then .ofTable ["A D"] else .single 10
    some (state.pushRegex (.ofSet ends.complement) 0)

def primitive? (state : ParseState) : Primitive → Option ParseState
  | .literal c isByte => state.literal? c isByte
  | .class s => some (state.pushRegex (.ofSet s) 0)
  | .dot => state.dot?
  | .look l => some (state.pushRegex (.look l) 0)

/-- After an opening parenthesis: flags, or the start of a group. -/
def group? (state : ParseState) (cs : List Char) : Option (ParseState × List Char) :=
  let named (rest : List Char) : Option (ParseState × List Char) := do
    let (name, rest) ← readGroupName? rest
    if state.names.contains name then none
    else some ({ state with names := name :: state.names }.openCounted, rest)
  match skip state.flags cs with
  | '?' :: '=' :: _ | '?' :: '!' :: _ | '?' :: '<' :: '=' :: _ | '?' :: '<' :: '!' :: _ => none
  | '?' :: 'P' :: '<' :: rest => named rest
  | '?' :: '<' :: rest => named rest
  | '?' :: rest => do
    let (flags, seen, rest) ← readFlags? (rest.length + 1) state.flags [] none rest
    match rest with
    | ')' :: rest => if seen.isEmpty then none else some ({ state with flags }.push none, rest)
    | _ :: rest => some (state.openGroup flags, rest)
    | [] => none
  | rest => some (state.openCounted, rest)

/-- Reads one item. -/
def step? (state : ParseState) (c : Char) (rest : List Char) : Option (ParseState × List Char) :=
  let flags := state.flags
  match c with
  | '(' => state.group? rest
  | ')' => state.closeGroup?.map (·, rest)
  | '|' =>
    let current := state.current
    some ({ state with current :=
      { current with
        alternatives := OpenGroup.sequence current.items :: current.alternatives, items := [] } }, rest)
  | '[' => do
    let (piece, rest) ← readClass? flags rest
    some (state.pushRegex (.ofSet piece.set) piece.depth, rest)
  | '?' => state.repeatLast? 0 (some 1) rest
  | '*' => state.repeatLast? 0 none rest
  | '+' => state.repeatLast? 1 none rest
  | '\x7b' => do
    let (least, most, rest) ← readBounds? flags rest
    state.repeatLast? least most (skip flags rest)
  | '\\' => do
    let (item, rest) ← readEscape? flags rest
    some (← state.primitive? item, rest)
  | '.' => state.dot?.map (·, rest)
  | '^' =>
    let anchor : Look := if !flags.multiLine then .textStart else if flags.crlf then .anyLineStart else .lineStart
    some (state.pushRegex (.look anchor) 0, rest)
  | '$' =>
    let anchor : Look := if !flags.multiLine then .textEnd else if flags.crlf then .anyLineEnd else .lineEnd
    some (state.pushRegex (.look anchor) 0, rest)
  | c => (state.literal? c.toNat false).map (·, rest)

/-- Reads items to the end of the source. Every item takes a character. -/
def run? : (fuel : Nat) → ParseState → List Char → Option ParseState
  | 0, _, _ => none
  | fuel + 1, state, cs =>
    match skip state.flags cs with
    | [] => some state
    | c :: rest => do
      let (state, rest) ← state.step? c rest
      state.run? fuel rest

end ParseState

/-- How deeply the syntax of an expression may nest. -/
def nestingLimit : Nat := 250

/-- Reads a whole source. Sources that nest too deeply or describe too large an expression are
refused. -/
def parse? (source : String) : Option Regex := do
  let cs := source.toList
  let state ← ParseState.run? (cs.length + 1) ⟨.initial, ⟨.initial, none, [], []⟩, [], 0, []⟩ cs
  if !state.outer.isEmpty then none
  else
    let piece := state.current.content
    if nestingLimit < piece.depth ∨ piece.regex.isTooLarge then none else some piece.regex

end SchemaAlgebra.Regex
