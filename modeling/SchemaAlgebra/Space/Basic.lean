-- SUMMARY: Spaces: the table of interned nodes, interning, adoption of foreign nodes, and their lifetime.
import SchemaAlgebra.Node.Condition
import SchemaAlgebra.Node.Description
import SchemaAlgebra.Node.Discrimination
import SchemaAlgebra.Regex.Unicode.Grapheme
import SchemaAlgebra.Space.Config
import Std.Data.HashSet

/-!
# Spaces

A space holds every node made in it, by identifier, and the registry of names
that identifiers are written with. Interning a content that is already there
gives the node that is there. Nodes that nobody can reach any more are marked
as dead: their entry stays until it is pruned, but a node with that identifier
is made anew.
-/

namespace SchemaAlgebra

/-- An entry of the node table; a dead one has no node. -/
structure Entry where
  id : String
  node : Option Node

/-- What is noted about how nodes came about. Nothing is ever decided by it. -/
inductive Event where
  /-- Two divisors were merged to their least common multiple, whether or not that fits. -/
  | multiple (n : Nat)
  /-- Different branches were put together to a union. -/
  | branches (nodes : List Node)
  /-- Branches turned out to cover every value. -/
  | covering (nodes : List Node)

/-- The context in which nodes are made. -/
structure Space where
  /-- The number of the space, by which nodes know where they belong. -/
  number : Nat
  config : SpaceConfig
  registry : Registry
  entries : List Entry
  /-- The numbers of the labels that were given out last for each kind. -/
  labels : Counters Kind
  nextSerial : Nat
  /-- What was noted, the latest first. -/
  trace : List Event

/-- Computations in a space that may fail; what happened to the space before a failure stays. -/
abbrev SpaceM := ExceptT SchemaError (StateM Space)

namespace Space

def new (number : Nat) (config : SpaceConfig) : Space :=
  ⟨number, config, .empty config.registryPrefix, [], [], 0, []⟩

-- ---------------------------------------------------------------------------
-- The node table
-- ---------------------------------------------------------------------------

/-- The live node with an identifier. -/
def find? (space : Space) (id : String) : Option Node :=
  (space.entries.find? fun entry => entry.id == id).bind Entry.node

/-- Sets the node of an identifier, in its old entry if there is one. -/
def setEntry (id : String) (node : Node) (entries : List Entry) : List Entry :=
  if entries.any fun entry => entry.id == id then
    entries.map fun entry => if entry.id == id then ⟨id, some node⟩ else entry
  else ⟨id, some node⟩ :: entries

/-- The label of a new node: the user's, or the next of its kind. -/
def nextLabel (space : Space) (kind : Kind) (caption : Caption) : String × Counters Kind :=
  match caption.label with
  | some label => (label, space.labels)
  | none =>
    let counter := (space.labels.read kind).count
    (kind.name ++ toString counter.value.toNat, space.labels.write kind counter)

/-- The node that a content and a caption make in a space, apart from its label and number. -/
def build (space : Space) (content : Content Node) (caption : Caption) (json : Json) (label : String) :
    Node :=
  let typeJson := content.json space.registry false caption
  let discriminant := match content with
    | .union branches _ => if space.config.discriminateUnions then Discriminant.ofBranches? branches else none
    | _ => none
  .mk content caption {
    id := content.identifier json
    typeId := content.identifier typeJson
    json, typeJson, label, discriminant
    description := caption.description.getD content.description
    condition := content.conditionAt space.registry discriminant "data"
    includesMorph := content.kind = .morph || content.children.any Node.includesMorph
    space := space.number
    serial := space.nextSerial }

/-- The node of a content and a caption: the live one with the same identifier, or a new one.
Whatever the content refers to is registered first. -/
def intern (space : Space) (content : Content Node) (caption : Caption) : Node × Space :=
  let space := { space with registry := space.registry.registerAll content.identities }
  let json := content.json space.registry true caption
  match space.find? (content.identifier json) with
  | some node => (node, space)
  | none =>
    let (label, labels) := space.nextLabel content.kind caption
    let node := space.build content caption json label
    (node, { space with
      entries := setEntry node.id node space.entries, labels, nextSerial := space.nextSerial + 1 })

-- ---------------------------------------------------------------------------
-- Lifetime
-- ---------------------------------------------------------------------------

mutual

/-- The numbers of a node and all nodes below it. -/
def collect : Node → Std.HashSet Nat → Std.HashSet Nat
  | .mk content _ profile, seen => collectContent content (seen.insert profile.serial)
termination_by structural node => node

def collectContent : Content Node → Std.HashSet Nat → Std.HashSet Nat
  | .union branches _, seen => collectList branches seen
  | .morph input output _, seen => collectOption output (collect input seen)
  | .intersection basis constraints, seen => collectList constraints (collectOption basis seen)
  | .required _ value, seen => collect value seen
  | .optional _ value, seen => collect value seen
  | _, seen => seen
termination_by structural content => content

def collectList : List Node → Std.HashSet Nat → Std.HashSet Nat
  | [], seen => seen
  | node :: rest, seen => collectList rest (collect node seen)
termination_by structural nodes => nodes

def collectOption : Option Node → Std.HashSet Nat → Std.HashSet Nat
  | none, seen => seen
  | some node, seen => collect node seen
termination_by structural node => node

end

/-- Marks every node as dead that none of the roots reaches. -/
def sweep (space : Space) (roots : List Node) : Space :=
  let reached := (roots.filter fun root => root.space = space.number).foldl (fun seen root => collect root seen) ∅
  { space with entries := space.entries.map fun entry => match entry.node with
      | some node => if reached.contains node.profile.serial then entry else ⟨entry.id, none⟩
      | none => entry }

/-- Drops the entries of dead nodes. -/
def prune (space : Space) : Space :=
  { space with entries := space.entries.filter fun entry => entry.node.isSome }

/-- How many nodes are alive. -/
def liveCount (space : Space) : Nat :=
  (space.entries.filter fun entry => entry.node.isSome).length

-- ---------------------------------------------------------------------------
-- Summary text
-- ---------------------------------------------------------------------------

/-- The characters that are shown by their codes: blanks other than the space, what extends the
character before it, and everything without a glyph. -/
def hidden : CharSet :=
  (CharSet.unions [
    Unicode.separator, Unicode.other, Unicode.graphemeExtend, Unicode.defaultIgnorable]).difference (.single 32)

/-- A character inside the quotes of a summary. -/
def escapeSummaryChar (c : Char) : List Char :=
  if c = '"' then ['\\', '"']
  else if c = '\\' then ['\\', '\\']
  else if c = '\n' then ['\\', 'n']
  else if c = '\r' then ['\\', 'r']
  else if c = '\t' then ['\\', 't']
  else if c.toNat = 0 then ['\\', '0']
  else if hidden.contains c.toNat then
    ['\\', 'u', '\x7b'] ++ Nat.toDigits 16 c.toNat ++ ['\x7d']
  else [c]

def quoteForSummary (s : String) : String :=
  String.ofList ('"' :: (s.toList.flatMap escapeSummaryChar ++ ['"']))

/-- The settings and the sizes of the tables, dead entries included. -/
def summary (space : Space) : String :=
  let config := space.config
  "Space \x7b config: SpaceConfig \x7b registry_prefix: " ++ quoteForSummary config.registryPrefix ++
    ", discriminate_unions: " ++ (if config.discriminateUnions then "true" else "false") ++
    ", max_reducible_branches: " ++ toString config.maxReducibleBranches ++
    " \x7d, nodes: " ++ toString space.entries.length ++
    ", registry: Registry \x7b prefix: " ++ quoteForSummary space.registry.qualifier ++
    ", entries: " ++ toString space.registry.size ++ " \x7d \x7d"

end Space

-- ---------------------------------------------------------------------------
-- Computations
-- ---------------------------------------------------------------------------

namespace SpaceM

def parseError {α : Type} (reason : ParseError) : SpaceM α := throw (.parse reason)

def internalError {α : Type} (reason : InternalError) : SpaceM α := throw (.internal reason)

/-- The node of a content in the current space. -/
def intern (content : Content Node) (caption : Caption) : SpaceM Node :=
  modifyGet fun space => space.intern content caption

/-- The node of a content without caption. -/
def internPlain (content : Content Node) : SpaceM Node := intern content .none

def unknown : SpaceM Node := internPlain .unknown

def never : SpaceM Node := internPlain .never

/-- The largest number of branches that are compared pair by pair. -/
def reducible : SpaceM Nat := return (← get).config.maxReducibleBranches

def note (event : Event) : SpaceM Unit :=
  modify fun space => { space with trace := event :: space.trace }

end SpaceM

end SchemaAlgebra
