-- SUMMARY: Reading definitions as nodes, of a given kind or of the kind their shape suggests.
import SchemaAlgebra.Algebra.Conjunction
import SchemaAlgebra.Definition.Basic

/-!
# Reading definitions

A root definition is read as a union, a morph or an intersection by the keys it
has; other shapes are shorthands. A refinement is read as the kind its key
names. Whatever a node's JSON looks like can be read back.

The functions named after kinds take the entries of a map and, as computations,
what is to be read under some of the keys. That way each decides what is read
when, and the recursion stays on the definition.
-/

namespace SchemaAlgebra

namespace Definition

open SpaceM (parseError)

-- ---------------------------------------------------------------------------
-- Entries
-- ---------------------------------------------------------------------------

def captionKeys : List String := ["description", "alias"]

/-- The text under a key that may be missing. -/
def optionalText (key : String) (entries : Entries) : SpaceM (Option String) :=
  match entries.lookup key with
  | none => return none
  | some (.string s) => return some s
  | some other => parseError (.mistyped key "a string" other.shape)

/-- The flag under a key, false if the key is missing. -/
def optionalFlag (key : String) (entries : Entries) : SpaceM Bool :=
  match entries.lookup key with
  | none => return false
  | some (.bool b) => return b
  | some other => parseError (.mistyped key "a boolean" other.shape)

/-- Checks that there are no keys but the allowed ones, and reads the caption. -/
def checkEntries (kind : Kind) (allowed : List String) (entries : Entries) : SpaceM Caption := do
  match entries.find? fun entry => !allowed.contains entry.1 && !captionKeys.contains entry.1 with
  | some (key, _) => parseError (.unknownKey kind key)
  | none =>
    let description ← optionalText "description" entries
    let label ← optionalText "alias" entries
    return ⟨description, label⟩

/-- The entries of a map; nothing else is a definition of the kind in full. -/
def entriesOf (kind : Kind) : Definition → SpaceM Entries
  | .map entries => return entries
  | other => parseError (.notKind kind other.shape)

/-- The definition under a key that must be there. -/
def requiredEntry (kind : Kind) (key : String) (entries : Entries) : SpaceM Definition :=
  match entries.lookup key with
  | some d => return d
  | none => parseError (.missingKey kind key)

/-- The number under a key that must be there; NaN does not count as one. -/
def requiredNumber (kind : Kind) (key : String) (entries : Entries) : SpaceM Number := do
  let d ← requiredEntry kind key entries
  let refuse : SpaceM Number := parseError (.mistyped (kind.name ++ " " ++ key) "a number" d.shape)
  match d with
  | .number n => if n.isNaN then refuse else return n
  | .value (.number n) => if n.isNaN then refuse else return n
  | _ => refuse

/-- The registry of the space. -/
def registry : SpaceM Registry := return (← get).registry

-- ---------------------------------------------------------------------------
-- Bases
-- ---------------------------------------------------------------------------

def readDomainName (name : String) : SpaceM Domain :=
  match Domain.ofName? name with
  | some domain => return domain
  | none => parseError (.notDomain name)

def readDomain : Definition → SpaceM Node
  | .string name => do SpaceM.internPlain (.domain (← readDomainName name))
  | other => do
    let entries ← entriesOf .domain other
    let caption ← checkEntries .domain ["domain"] entries
    match ← requiredEntry .domain "domain" entries with
    | .string name => SpaceM.intern (.domain (← readDomainName name)) caption
    | other => parseError (.mistyped "domain" "a string" other.shape)

/-- The value that a definition stands for as a unit; strings are in their encoding. -/
def readLiteral : Definition → SpaceM Value
  | .null => return .null
  | .bool b => return .boolean b
  | .number n => return .number n
  | .value v => return v
  | .symbol s => return .symbol s
  | .string s => do
    match Literal.decode? (← registry) s with
    | some v => return v
    | none => parseError (.notRegistered s "value")
  | other => parseError (.notUnit other.shape)

def readUnit : Definition → SpaceM Node
  | .value v => SpaceM.internPlain (.unit v)
  | other => do
    let entries ← entriesOf .unit other
    let caption ← checkEntries .unit ["unit"] entries
    let v ← readLiteral (← requiredEntry .unit "unit" entries)
    SpaceM.intern (.unit v) caption

/-- The constructor of a name: a registered one by its reference, or a built-in one, also by what
would be its reference. -/
def readProtoName (name : String) : SpaceM Proto := do
  let registry ← registry
  match registry.resolve? name with
  | some (.proto p) => return p
  | _ => match Proto.builtin? ((registry.nameIn? name).getD name) with
    | some p => return p
    | none => parseError (.notConstructor name)

def readProto : Definition → SpaceM Node
  | .proto p => SpaceM.internPlain (.proto p)
  | .string name => do SpaceM.internPlain (.proto (← readProtoName name))
  | other => do
    let entries ← entriesOf .proto other
    let caption ← checkEntries .proto ["proto"] entries
    match ← requiredEntry .proto "proto" entries with
    | .proto p => SpaceM.intern (.proto p) caption
    | .string name => SpaceM.intern (.proto (← readProtoName name)) caption
    | other => parseError (.mistyped "proto" "a constructor" other.shape)

-- ---------------------------------------------------------------------------
-- Refinements
-- ---------------------------------------------------------------------------

/-- The divisor that a number stands for: a positive integer of 64 bits, the largest double included. -/
def divisorOf (n : Number) : SpaceM Nat :=
  match n.toInt? with
  | some i =>
    if 1 ≤ i ∧ i.toNat ≤ Nat.pow 2 64 then return Nat.min i.toNat (Nat.pow 2 64 - 1)
    else parseError (.badDivisor n)
  | none => parseError (.badDivisor n)

def readDivisor : Definition → SpaceM Node
  | .number n => do SpaceM.internPlain (.divisor (← divisorOf n))
  | other => do
    let entries ← entriesOf .divisor other
    let caption ← checkEntries .divisor ["divisor"] entries
    SpaceM.intern (.divisor (← divisorOf (← requiredNumber .divisor "divisor" entries))) caption

/-- The axis under its key; without one a bound is on the implied axis. -/
def readAxis (implied : BoundAxis) (entries : Entries) : SpaceM BoundAxis := do
  match ← optionalText "axis" entries with
  | none => return implied
  | some name => match BoundAxis.ofName? name with
    | some axis => return axis
    | none => parseError (.notAxis name)

def readBound (kind : Kind) (implied : BoundAxis) : Definition → SpaceM (Bound × Caption)
  | .number limit =>
    if limit.isNaN then parseError (.limitNaN kind) else return (⟨limit, false, implied⟩, .none)
  | other => do
    let entries ← entriesOf kind other
    let caption ← checkEntries kind ["limit", "exclusive", "axis"] entries
    let limit ← requiredNumber kind "limit" entries
    let exclusive ← optionalFlag "exclusive" entries
    let axis ← readAxis implied entries
    return (⟨limit, exclusive, axis⟩, caption)

def compilePattern (source flags : String) : SpaceM Pattern :=
  match Pattern.ofSource source flags with
  | .ok pattern => return pattern
  | .error error => parseError (.pattern error)

def readPattern : Definition → SpaceM Node
  | .string source => do SpaceM.internPlain (.pattern (← compilePattern source ""))
  | other => do
    let entries ← entriesOf .pattern other
    let caption ← checkEntries .pattern ["pattern", "flags"] entries
    match ← requiredEntry .pattern "pattern" entries with
    | .string source =>
      let flags ← optionalText "flags" entries
      SpaceM.intern (.pattern (← compilePattern source (flags.getD ""))) caption
    | other => parseError (.mistyped "pattern" "a string" other.shape)

def resolvePredicate (reference : String) : SpaceM Predicate := do
  match (← registry).resolve? reference with
  | some (.predicate p) => return p
  | _ => parseError (.notRegistered reference "predicate")

def readPredicate : Definition → SpaceM Node
  | .predicate p => SpaceM.internPlain (.predicate p)
  | .string reference => do SpaceM.internPlain (.predicate (← resolvePredicate reference))
  | other => do
    let entries ← entriesOf .predicate other
    let caption ← checkEntries .predicate ["predicate"] entries
    match ← requiredEntry .predicate "predicate" entries with
    | .predicate p => SpaceM.intern (.predicate p) caption
    | .string reference => SpaceM.intern (.predicate (← resolvePredicate reference)) caption
    | other => parseError (.mistyped "predicate" "a function" other.shape)

/-- A property key; a map can only refer to a registered symbol. -/
def readKey : Definition → SpaceM PropKey
  | .symbol s => return .symbol s
  | .value (.symbol s) => return .symbol s
  | .string name => return .string name
  | .map [("symbol", .string reference)] => do
    match (← registry).resolveValue? reference with
    | some (.symbol s) => return .symbol s
    | _ => parseError (.notRegistered reference "symbol")
  | .map _ => parseError .keyMap
  | other => parseError (.mistyped "Property key" "a string or symbol" other.shape)

/-- A property from its entries and what its value reads as. -/
def propOf (kind : Kind) (make : PropKey → Node → Content Node) (entries : Entries)
    (readValue : SpaceM (Option Node)) : SpaceM Node := do
  let caption ← checkEntries kind ["key", "value"] entries
  let key ← readKey (← requiredEntry kind "key" entries)
  match ← readValue with
  | none => parseError (.missingKey kind "value")
  | some held => SpaceM.intern (make key held) caption

-- ---------------------------------------------------------------------------
-- Sets
-- ---------------------------------------------------------------------------

def resolveTransform : Definition → SpaceM Transform
  | .transform t => return t
  | .string reference => do
    match (← registry).resolve? reference with
    | some (.transform t) => return t
    | _ => parseError (.notRegistered reference "morph")
  | other => parseError (.mistyped "morph" "a function" other.shape)

/-- The transforms of a morph: one, or several in a list. -/
def resolveTransforms : Definition → SpaceM (List Transform)
  | .list items => items.mapM resolveTransform
  | d => return [← resolveTransform d]

/-- A morph from its entries and what its input and output read as. -/
def morphOf (entries : Entries) (readInput readOutput : SpaceM (Option Node)) : SpaceM Node := do
  let caption ← checkEntries .morph ["in", "out", "morph"] entries
  let input ← match ← readInput with
    | some input => pure input
    | none => SpaceM.unknown
  let output ← readOutput
  let transforms ← resolveTransforms (← requiredEntry .morph "morph" entries)
  Node.createMorph input output transforms caption

variable [Behaviour]

/-- A union from its entries and what its branches read as. -/
def unionOf (entries : Entries) (readBranches : SpaceM (List Node)) : SpaceM Node := do
  let caption ← checkEntries .union ["branches", "ordered"] entries
  match ← requiredEntry .union "branches" entries with
  | .list _ =>
    let ordered ← optionalFlag "ordered" entries
    Node.assembleUnion (← readBranches) ordered caption
  | other => parseError (.mistyped "branches" "a list" other.shape)

def basisKeys : List String := ["basis", "domain", "unit", "proto"]

/-- The one basis of an intersection, under whichever key it is written. -/
def basisOf (entries : Entries) (readBasis : SpaceM (Option Node)) :
    (found : Option Node) → (keys : List String) → SpaceM (Option Node)
  | found, [] => return found
  | found, key :: keys =>
    match entries.lookup key with
    | none => basisOf entries readBasis found keys
    | some d => do
      if found.isSome then parseError .severalBases
      let basis ← match key with
        | "domain" => readDomain d
        | "unit" => do SpaceM.internPlain (.unit (← readLiteral d))
        | "proto" => readProto d
        | _ => do
          match ← readBasis with
          | some n => if n.isBasis then pure n else parseError (.notBasis n.kind)
          | none => parseError (.missingKey .intersection key)
      basisOf entries readBasis (some basis) keys

/-- The refinements of an intersection, kind by kind. -/
def refinementsOf (readRefinements : Kind → SpaceM (List Node)) : List Kind → SpaceM (List Node)
  | [] => return []
  | kind :: rest => do
    let found ← readRefinements kind
    return found ++ (← refinementsOf readRefinements rest)

/-- An intersection from its entries, what its basis reads as, and what the refinements of a kind read
as when plain bounds are on a given axis. -/
def intersectionOf (entries : Entries) (readBasis : SpaceM (Option Node))
    (readRefinements : Kind → BoundAxis → SpaceM (List Node)) : SpaceM Node := do
  let caption ← checkEntries .intersection (basisKeys ++ Kind.refinements.map Kind.name) entries
  let basis ← basisOf entries readBasis none basisKeys
  let axis := Node.impliedAxis basis
  let refinements ← refinementsOf (fun kind => readRefinements kind axis) Kind.refinements
  Node.ofDefinition basis refinements caption

/-- The root definitions that are single words, references, and names of domains. -/
def readRootName (name : String) : SpaceM Node :=
  match name with
  | "boolean" => do
    let yes ← SpaceM.internPlain (.unit (.boolean true))
    let no ← SpaceM.internPlain (.unit (.boolean false))
    Node.assembleUnion [yes, no] false .none
  | "null" => SpaceM.internPlain (.unit .null)
  | "undefined" => SpaceM.internPlain (.unit .undefined)
  | _ => do
    let registry ← registry
    if registry.isReference name then
      match registry.resolve? name with
      | some (.proto p) => SpaceM.internPlain (.proto p)
      | some (.value v) => SpaceM.internPlain (.unit v)
      | _ => readProto (.string name)
    else readDomain (.string name)

-- ---------------------------------------------------------------------------
-- Recursion
-- ---------------------------------------------------------------------------

/-- Reads a refinement that holds no other node. Properties are always maps. -/
def readFlatRefinement (kind : Kind) (axis : BoundAxis) (d : Definition) : SpaceM Node :=
  match kind with
  | .divisor => readDivisor d
  | .max => do
    let (bound, caption) ← readBound .max axis d
    SpaceM.intern (.max bound) caption
  | .min => do
    let (bound, caption) ← readBound .min axis d
    SpaceM.intern (.min bound) caption
  | .pattern => readPattern d
  | .predicate => readPredicate d
  | kind => parseError (.notKind kind d.shape)

def hasKey (key : String) (entries : Entries) : Bool := (entries.lookup key).isSome

mutual

/-- Reads a root definition, whose shape suggests its kind. -/
def readRoot : Definition → SpaceM Node
  | .list items => do Node.assembleUnion (← readRoots items) false .none
  | .map entries =>
    if hasKey "branches" entries then unionOf entries (rootsAt "branches" entries)
    else if hasKey "morph" entries then morphOf entries (rootAt "in" entries) (rootAt "out" entries)
    else intersectionOf entries (rootAt "basis" entries) fun kind axis => refinementsAt kind axis entries
  | .node n => n.adopt
  | .string name => readRootName name
  | .proto p => SpaceM.internPlain (.proto p)
  | .value v => SpaceM.internPlain (.unit v)
  | .symbol s => SpaceM.internPlain (.unit (.symbol s))
  | .predicate p => do
    let refinement ← SpaceM.internPlain (.predicate p)
    Node.ofDefinition none [refinement] .none
  | .null => parseError (.notRoot Definition.null.shape)
  | .bool b => parseError (.notRoot (Definition.bool b).shape)
  | .number n => parseError (.notRoot (Definition.number n).shape)
  | .transform t => parseError (.notRoot (Definition.transform t).shape)
termination_by structural d => d

/-- Reads a refinement of a kind; plain bounds are on the given axis. -/
def readRefinement (kind : Kind) (axis : BoundAxis) : Definition → SpaceM Node
  | .map entries => match kind with
    | .required => propOf .required .required entries (rootAt "value" entries)
    | .optional => propOf .optional .optional entries (rootAt "value" entries)
    | kind => readFlatRefinement kind axis (.map entries)
  | d => readFlatRefinement kind axis d
termination_by structural d => d

def readRoots : List Definition → SpaceM (List Node)
  | [] => return []
  | d :: rest => do
    let node ← readRoot d
    return node :: (← readRoots rest)
termination_by structural ds => ds

def readRefinements (kind : Kind) (axis : BoundAxis) : List Definition → SpaceM (List Node)
  | [] => return []
  | d :: rest => do
    let node ← readRefinement kind axis d
    return node :: (← readRefinements kind axis rest)
termination_by structural ds => ds

/-- Reads the root definition under a key, if the key is there. -/
def rootAt (key : String) : List (String × Definition) → SpaceM (Option Node)
  | [] => return none
  | (k, d) :: rest => if key = k then return some (← readRoot d) else rootAt key rest
termination_by structural entries => entries

/-- Reads the list of root definitions under a key. -/
def rootsAt (key : String) : List (String × Definition) → SpaceM (List Node)
  | [] => return []
  | (k, d) :: rest => if key = k then rootsIn d else rootsAt key rest
termination_by structural entries => entries

/-- Reads the items of a list as root definitions. -/
def rootsIn : Definition → SpaceM (List Node)
  | .list items => readRoots items
  | _ => return []
termination_by structural d => d

/-- Reads the refinements of a kind under its key: one, or all in a list if the kind may be repeated. -/
def refinementsAt (kind : Kind) (axis : BoundAxis) : List (String × Definition) → SpaceM (List Node)
  | [] => return []
  | (k, .list items) :: rest =>
    if kind.name ≠ k then refinementsAt kind axis rest
    else if kind.isRepeatable then readRefinements kind axis items
    else return [← readFlatRefinement kind axis (.list items)]
  | (k, d) :: rest =>
    if kind.name ≠ k then refinementsAt kind axis rest else return [← readRefinement kind axis d]
termination_by structural entries => entries

end

/-- Reads the entries of a definition of a kind that is always a map. -/
def readEntries (kind : Kind) (read : Entries → SpaceM Node) (d : Definition) : SpaceM Node := do
  read (← entriesOf kind d)

/-- Reads a definition as a node of exactly one kind. Only an intersection may turn out as its basis,
and a union as its only branch. -/
def readKind (kind : Kind) (d : Definition) : SpaceM Node :=
  match d with
  | .node n => if n.kind = kind then n.adopt else parseError (.wrongKind kind n.kind)
  | d => match kind with
    | .union => match d with
      | .list items => readRoot (.list items)
      | d => readEntries .union (fun entries => unionOf entries (rootsAt "branches" entries)) d
    | .morph =>
      readEntries .morph (fun entries => morphOf entries (rootAt "in" entries) (rootAt "out" entries)) d
    | .intersection => match d with
      | .string name => readRootName name
      | .proto p => SpaceM.internPlain (.proto p)
      | d => readEntries .intersection (fun entries =>
          intersectionOf entries (rootAt "basis" entries) fun kind axis => refinementsAt kind axis entries) d
    | .unit => readUnit d
    | .proto => readProto d
    | .domain => readDomain d
    | kind => readRefinement kind .value d

end Definition

namespace Node

variable [Behaviour]

/-- The basis of a node: itself, that of an intersection, or that of the input of a morph. -/
def basis? : Node → Option Node
  | .mk (.intersection basis _) _ _ => basis
  | .mk (.morph input _ _) _ _ => basis? input
  | node => if node.isBasis then some node else none

/-- The node with one more refinement, which must apply to its basis. -/
def constrain (node : Node) (kind : Kind) (d : Definition) : SpaceM Node := do
  if !kind.isRefinement then SpaceM.parseError (.notRefinement kind)
  let refinement ← d.readRefinement kind (impliedAxis node.basis?)
  match refinement.applicabilityError? node.basis? with
  | some reason => SpaceM.parseError reason
  | none => node.and refinement

end Node

end SchemaAlgebra
