-- SUMMARY: Schema nodes: bounds, captions, the content of each kind, discriminants and derived data.
import SchemaAlgebra.Behaviour
import SchemaAlgebra.Json.Basic
import SchemaAlgebra.Kind
import SchemaAlgebra.Pattern
import SchemaAlgebra.Value.Property

/-!
# Nodes

A node is its content, which depends on the kind and holds other nodes; the
user's caption; and a profile with everything derived from the two when the
node was made. Nodes never change, so the profile is computed once.
-/

namespace SchemaAlgebra

-- ---------------------------------------------------------------------------
-- Bounds
-- ---------------------------------------------------------------------------

/-- What a bound compares. -/
inductive BoundAxis where
  /-- The number itself. -/
  | value
  /-- The length of a string or an array. -/
  | length
  /-- The time of a date. -/
  | time
  deriving DecidableEq, Repr

namespace BoundAxis

def name : BoundAxis → String
  | .value => "value"
  | .length => "length"
  | .time => "time"

def ofName? (name : String) : Option BoundAxis :=
  [value, length, time].find? fun axis => axis.name == name

/-- What there is to compare in a value. -/
def measure? (axis : BoundAxis) (v : Value) : Option Number :=
  match axis, v with
  | .value, .number n => some n
  | .length, v => v.length?.map Number.ofNat
  | .time, .object o => o.time?
  | _, _ => none

end BoundAxis

/-- A minimum or a maximum. -/
structure Bound where
  limit : Number
  exclusive : Bool
  axis : BoundAxis
  deriving DecidableEq, Repr

/-- The side on which a bound cuts off. -/
inductive BoundSide where
  | max
  | min
  deriving DecidableEq, Repr

namespace Bound

def allows (bound : Bound) (side : BoundSide) (v : Value) : Bool :=
  match bound.axis.measure? v with
  | none => false
  | some n => match side, bound.exclusive with
    | .min, true => bound.limit.less n
    | .min, false => bound.limit.lessEq n
    | .max, true => n.less bound.limit
    | .max, false => n.lessEq bound.limit

end Bound

-- ---------------------------------------------------------------------------
-- Captions
-- ---------------------------------------------------------------------------

/-- What the user says about a node; it does not change what the node means. -/
structure Caption where
  description : Option String
  label : Option String
  deriving DecidableEq, Repr

namespace Caption

def none : Caption := ⟨.none, .none⟩

def isEmpty (caption : Caption) : Bool :=
  caption.description.isNone && caption.label.isNone

end Caption

-- ---------------------------------------------------------------------------
-- Content
-- ---------------------------------------------------------------------------

/-- The content of a node of each kind, over children of type `ν`. -/
inductive Content (ν : Type) where
  /-- Any of the branches; an ordered union keeps them as they were written. -/
  | union (branches : List ν) (ordered : Bool)
  /-- Values of `input` run through the transforms; the result is checked against `output`. -/
  | morph (input : ν) (output : Option ν) (transforms : List Transform)
  /-- All rules at once: an optional basis and constraints. Without any rule every value is allowed. -/
  | intersection (basis : Option ν) (constraints : List ν)
  | unit (value : Value)
  | proto (proto : Proto)
  | domain (domain : Domain)
  | divisor (divisor : Nat)
  | max (bound : Bound)
  | min (bound : Bound)
  | pattern (pattern : Pattern)
  | predicate (predicate : Predicate)
  | required (key : PropKey) (value : ν)
  | optional (key : PropKey) (value : ν)

namespace Content

variable {ν : Type}

def kind : Content ν → Kind
  | .union _ _ => .union
  | .morph _ _ _ => .morph
  | .intersection _ _ => .intersection
  | .unit _ => .unit
  | .proto _ => .proto
  | .domain _ => .domain
  | .divisor _ => .divisor
  | .max _ => .max
  | .min _ => .min
  | .pattern _ => .pattern
  | .predicate _ => .predicate
  | .required _ _ => .required
  | .optional _ _ => .optional

/-- The nodes in a content, in the order in which they are checked. -/
def children : Content ν → List ν
  | .union branches _ => branches
  | .morph input output _ => input :: output.toList
  | .intersection basis constraints => basis.toList ++ constraints
  | .required _ value => [value]
  | .optional _ value => [value]
  | _ => []

/-- The intersection without rules. -/
def unknown : Content ν := .intersection .none []

/-- The union without branches. -/
def never : Content ν := .union [] false

end Content

-- ---------------------------------------------------------------------------
-- Discriminants
-- ---------------------------------------------------------------------------

/-- What is asked about the value at the path of a discriminant. -/
inductive Probe where
  | domain
  | value
  deriving DecidableEq, Repr

/-- The answer that a case of a discriminant stands for. -/
inductive CaseKey where
  | domain (domain : Domain)
  | value (value : Value)

/-- The branches that remain for one answer, by their places in the union. -/
structure DiscriminantCase where
  key : CaseKey
  branches : List Nat

/-- A question about values that the branches of a union answer differently. -/
structure Discriminant where
  probe : Probe
  /-- The keys that lead to what is asked about; none for the value itself. -/
  path : List PropKey
  cases : List DiscriminantCase

-- ---------------------------------------------------------------------------
-- Nodes
-- ---------------------------------------------------------------------------

/-- What is derived from a node's content and caption when it is made. -/
structure Profile where
  /-- The kind and the JSON with captions; one space never holds two live nodes with one `id`. -/
  id : String
  /-- The kind and the JSON without captions: what equality of nodes compares. -/
  typeId : String
  json : Json
  typeJson : Json
  description : String
  label : String
  condition : String
  includesMorph : Bool
  discriminant : Option Discriminant
  /-- The space the node lives in, and its number there. -/
  space : Nat
  serial : Nat

/-- A schema node. -/
inductive Node where
  | mk (content : Content Node) (caption : Caption) (profile : Profile)

namespace Node

def content : Node → Content Node
  | .mk content _ _ => content

def caption : Node → Caption
  | .mk _ caption _ => caption

def profile : Node → Profile
  | .mk _ _ profile => profile

def kind (node : Node) : Kind := node.content.kind
def children (node : Node) : List Node := node.content.children
def id (node : Node) : String := node.profile.id
def typeId (node : Node) : String := node.profile.typeId
def json (node : Node) : Json := node.profile.json
def typeJson (node : Node) : Json := node.profile.typeJson
def description (node : Node) : String := node.profile.description
def label (node : Node) : String := node.profile.label
def condition (node : Node) : String := node.profile.condition
def includesMorph (node : Node) : Bool := node.profile.includesMorph
def discriminant (node : Node) : Option Discriminant := node.profile.discriminant
def space (node : Node) : Nat := node.profile.space

/-- Whether two nodes of one space mean the same by their type identifiers. -/
def sameType (a b : Node) : Bool := a.typeId == b.typeId

/-- Whether two nodes are one and the same entry of one space. -/
def sameNode (a b : Node) : Bool :=
  a.profile.space == b.profile.space && a.profile.serial == b.profile.serial

def isBasis (node : Node) : Bool := node.kind.isBasis
def isRefinement (node : Node) : Bool := node.kind.isRefinement

/-- The intersection without rules, satisfied by every value. -/
def isUnknown (node : Node) : Bool :=
  match node.content with
  | .intersection basis constraints => basis.isNone && constraints.isEmpty
  | _ => false

/-- The union without branches, satisfied by no value. -/
def isNever (node : Node) : Bool :=
  match node.content with
  | .union branches _ => branches.isEmpty
  | _ => false

/-- The rules of an intersection, its basis first; any other node is a rule itself. -/
def rules (node : Node) : List Node :=
  match node.content with
  | .intersection basis constraints => basis.toList ++ constraints
  | _ => [node]

/-- The domain that a basis restricts values to. -/
def basisDomain? (node : Node) : Option Domain :=
  match node.content with
  | .domain domain => some domain
  | .unit value => some value.domain
  | .proto _ => some .object
  | _ => none

/-- The constructor that a basis restricts values to. -/
def basisProto? (node : Node) : Option Proto :=
  match node.content with
  | .proto proto => some proto
  | _ => none

/-- The axis that a plain number refers to as a bound under a basis. -/
def impliedAxis (basis : Option Node) : BoundAxis :=
  match basis with
  | none => .value
  | some basis =>
    if basis.basisProto?.any fun proto => proto.isSubclassOf .array then .length
    else if basis.basisProto?.any fun proto => proto.isSubclassOf .date then .time
    else if basis.basisDomain? = some .string then .length
    else .value

-- ---------------------------------------------------------------------------
-- Reachable nodes
-- ---------------------------------------------------------------------------

/-- The nodes of a list without those whose `id` occurred before. -/
def distinctById (nodes : List Node) : List Node :=
  (nodes.foldl (fun (seen : List String × List Node) node =>
    if seen.1.contains node.id then seen else (node.id :: seen.1, node :: seen.2)) ([], [])).2.reverse

mutual

/-- Every node reachable from a node, itself first, in the order of the first visit. -/
def references : Node → List Node
  | .mk content caption profile =>
    .mk content caption profile :: distinctById (contentReferences content)
termination_by structural node => node

def contentReferences : Content Node → List Node
  | .union branches _ => listReferences branches
  | .morph input output _ => references input ++ optionReferences output
  | .intersection basis constraints => optionReferences basis ++ listReferences constraints
  | .required _ value => references value
  | .optional _ value => references value
  | _ => []
termination_by structural content => content

def listReferences : List Node → List Node
  | [] => []
  | node :: rest => references node ++ listReferences rest
termination_by structural nodes => nodes

def optionReferences : Option Node → List Node
  | none => []
  | some node => references node
termination_by structural node => node

end

mutual

/-- How deeply property values and outputs of morphs nest in a node. Intersecting two nodes asks for
intersections of nodes that nest less deeply, and of no others. -/
def nesting : Node → Nat
  | .mk content _ _ => contentNesting content
termination_by structural node => node

def contentNesting : Content Node → Nat
  | .union branches _ => listNesting branches
  | .morph input output _ => Nat.max (nesting input) (optionNesting output + 1)
  | .intersection basis constraints => Nat.max (optionNesting basis) (listNesting constraints)
  | .required _ value => nesting value + 1
  | .optional _ value => nesting value + 1
  | _ => 0
termination_by structural content => content

def listNesting : List Node → Nat
  | [] => 0
  | node :: rest => Nat.max (nesting node) (listNesting rest)
termination_by structural nodes => nodes

def optionNesting : Option Node → Nat
  | none => 0
  | some node => nesting node
termination_by structural node => node

end

end Node

end SchemaAlgebra
