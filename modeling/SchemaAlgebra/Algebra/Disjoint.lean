-- SUMMARY: Evidence that two nodes admit no common value, and the outcome of intersecting nodes.
import SchemaAlgebra.Node.Basic
import SchemaAlgebra.Value.Text

/-!
# Disjointness

That two nodes have no value in common is an ordinary result of intersecting
them. The evidence names the rule that found the conflict, the two nodes that
conflict, and the keys that lead from the intersected nodes to them.
-/

namespace SchemaAlgebra

/-- The rule that found a conflict. -/
inductive DisjointKind where
  /-- Two different domains. -/
  | domain
  /-- Two different units. -/
  | unit
  /-- Two unrelated constructors. -/
  | proto
  /-- Exactly one of the nodes is `never`. -/
  | presence
  /-- A minimum above a maximum. -/
  | range
  /-- A unit that the other node rejects, or a constraint that cannot apply to the basis. -/
  | assignability
  /-- No pair of branches intersects. -/
  | union
  deriving DecidableEq, Repr

def DisjointKind.name : DisjointKind → String
  | .domain => "domain"
  | .unit => "unit"
  | .proto => "proto"
  | .presence => "presence"
  | .range => "range"
  | .assignability => "assignability"
  | .union => "union"

/-- Evidence that two nodes have no value in common. -/
structure Disjoint where
  kind : DisjointKind
  l : Node
  r : Node
  path : List PropKey

namespace Disjoint

/-- A conflict between two nodes themselves. -/
def between (kind : DisjointKind) (l r : Node) : Disjoint := ⟨kind, l, r, []⟩

/-- The same conflict seen from the other side. -/
def invert (d : Disjoint) : Disjoint := { d with l := d.r, r := d.l }

/-- The same conflict, found under a key. -/
def atKey (d : Disjoint) (key : PropKey) : Disjoint := { d with path := key :: d.path }

def message (d : Disjoint) : String :=
  let location := if d.path.isEmpty then "" else " at " ++ ".".intercalate (d.path.map PropKey.text)
  "Intersection" ++ location ++ " of " ++ d.l.description ++ " and " ++ d.r.description ++
    " results in an unsatisfiable type"

end Disjoint

/-- The outcome of intersecting two nodes. -/
inductive Intersected where
  | node (node : Node)
  | disjoint (evidence : Disjoint)
  /-- The nodes constrain different aspects of a value and stand side by side. -/
  | orthogonal

namespace Intersected

/-- The outcome with the operands swapped back. -/
def invert : Intersected → Intersected
  | .disjoint d => .disjoint d.invert
  | other => other

end Intersected

end SchemaAlgebra
