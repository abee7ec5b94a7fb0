-- SUMMARY: Building and intersecting unions.
import SchemaAlgebra.Algebra.Morph

/-!
# Unions

A union is flattened, and branches that another branch covers are dropped. A
union of everything is the intersection without rules, and one branch alone
stands for itself. Intersecting unions intersects every branch of one with
every branch of the other; the branches of the second are columns, in which
intersections are parked until a later branch covers the column as a whole.
-/

namespace SchemaAlgebra

namespace Node

-- ---------------------------------------------------------------------------
-- Flattening
-- ---------------------------------------------------------------------------

/-- The branches with those of nested unions in place. -/
def flatten : List Node → SpaceM (List Node)
  | [] => return []
  | branch :: rest => match branch.content with
    | .union branches _ => return branches ++ (← flatten rest)
    | _ =>
      if branch.kind.isBranch then return branch :: (← flatten rest)
      else SpaceM.parseError (.notBranch branch.kind)

/-- The nodes without those whose type occurred before. -/
def distinctByType (nodes : List Node) : List Node :=
  (nodes.foldl (fun kept node => if kept.any node.sameType then kept else node :: kept) []).reverse

-- ---------------------------------------------------------------------------
-- Reduction
-- ---------------------------------------------------------------------------

/-- Compares a branch with later ones, of which `kept` says which still count. Gives whether the
branch itself is kept, and which of the later ones are. -/
def compareWithLater (conjoin : Meet) (branch : Node) : (later : List Node) → (kept : List Bool) →
    SpaceM (Bool × List Bool)
  | node :: rest, true :: kept =>
    if branch.includesMorph || node.includesMorph then do
      let (keep, kept) ← compareWithLater conjoin branch rest kept
      return (keep, true :: kept)
    else do
      match ← conjoin branch node with
      | .node result =>
        if result.sameType branch then return (false, true :: kept)
        else
          let (keep, kept) ← compareWithLater conjoin branch rest kept
          return (keep, (!result.sameType node) :: kept)
      | _ =>
        let (keep, kept) ← compareWithLater conjoin branch rest kept
        return (keep, true :: kept)
  | _ :: rest, false :: kept => do
    let (keep, kept) ← compareWithLater conjoin branch rest kept
    return (keep, false :: kept)
  | _, kept => return (true, kept)

/-- Drops every branch that another one covers. Branches with morphs are never dropped: what goes in
says nothing about what comes out. -/
def reduceFrom (conjoin : Meet) : (branches : List Node) → (kept : List Bool) → SpaceM (List Node)
  | branch :: rest, true :: kept => do
    let (keep, kept) ← compareWithLater conjoin branch rest kept
    let rest ← reduceFrom conjoin rest kept
    return if keep then branch :: rest else rest
  | _ :: rest, false :: kept => reduceFrom conjoin rest kept
  | _, _ => return []

def reduceBranches (conjoin : Meet) (branches : List Node) : SpaceM (List Node) :=
  reduceFrom conjoin branches (branches.map fun _ => true)

-- ---------------------------------------------------------------------------
-- Assembly
-- ---------------------------------------------------------------------------

/-- Whether some branch is exactly a unit. -/
def hasUnit (unit : Value) (branches : List Node) : Bool :=
  branches.any fun branch => match branch.content with
    | .unit v => decide (v = unit)
    | _ => false

/-- Whether some branch is exactly a domain. -/
def hasDomain (domain : Domain) (branches : List Node) : Bool :=
  branches.any fun branch => match branch.content with
    | .domain d => decide (d = domain)
    | _ => false

/-- Whether the branches cover every value: all domains that are not enumerable, and all values of
the others. -/
def isExhaustive (branches : List Node) : Bool :=
  [Value.boolean true, .boolean false, .null, .undefined].all (fun v => hasUnit v branches) &&
    Domain.nonEnumerable.all fun domain => hasDomain domain branches

/-- The order of branches whose order was not given: by their JSON text. -/
def sortBranches (branches : List Node) : List Node :=
  let keyed := branches.map fun branch => (branch.typeJson.compact, branch)
  (stableSort (fun a b => decide (a.1 ≤ b.1)) keyed).map Prod.snd

/-- The branches that remain if at most `limit` of them are compared. -/
def reduceUpTo (limit : Nat) (conjoin : Meet) (branches : List Node) : SpaceM (List Node) :=
  if branches.length ≤ limit then reduceBranches conjoin branches else return branches

/-- Branches that cover every value give way to the intersection without rules. -/
def coverAll (branches : List Node) : SpaceM (List Node) :=
  if isExhaustive branches then do
    SpaceM.note (.covering branches)
    return [← SpaceM.unknown]
  else return branches

/-- The union of branches; `conjoin` intersects two of them. -/
def assembleUnionBy (conjoin : Meet) (branches : List Node) (ordered : Bool) (caption : Caption) :
    SpaceM Node := do
  let flat := distinctByType (← flatten branches)
  SpaceM.note (.branches flat)
  let reduced ← reduceUpTo (← SpaceM.reducible) conjoin flat
  let simplified ← coverAll reduced
  let sorted := if ordered then simplified else sortBranches simplified
  match sorted, caption.isEmpty with
  | [only], true => return only
  | _, _ => SpaceM.intern (.union sorted ordered) caption

-- ---------------------------------------------------------------------------
-- Intersection
-- ---------------------------------------------------------------------------

/-- A branch of the second union with the intersections parked for it; none once it is settled. -/
structure Column where
  branch : Node
  parked : Option (List Node)

/-- What one branch of the first union does to the columns. -/
structure Row where
  /-- Branches that belong to the result as they are. -/
  settled : List Node
  /-- The columns, each with an intersection to park. -/
  columns : List (Column × Option Node)
  /-- Whether a column covers the whole branch, so that nothing else of it is parked. -/
  absorbed : Bool

/-- Intersects a branch of the first union with the columns from left to right. -/
def meetRow (conjoin : Meet) (branch : Node) : List Column → SpaceM Row
  | [] => return ⟨[], [], false⟩
  | column :: rest =>
    let idle : List (Column × Option Node) := rest.map (·, none)
    let pass (column : Column) (settled : List Node) (candidate : Option Node) : SpaceM Row := do
      let row ← meetRow conjoin branch rest
      let candidate := if row.absorbed then none else candidate
      return ⟨settled ++ row.settled, (column, candidate) :: row.columns, row.absorbed⟩
    if column.parked.isNone then pass column [] none
    else if branch.sameType column.branch then
      return ⟨[branch], (⟨column.branch, none⟩, none) :: idle, true⟩
    else do
      match ← conjoin branch column.branch with
      | .node node =>
        if node.sameType branch then return ⟨[], (column, some branch) :: idle, true⟩
        else if node.sameType column.branch then pass ⟨column.branch, none⟩ [column.branch] none
        else pass column [] (some node)
      | _ => pass column [] none

/-- The column with one more intersection parked, unless it is settled. -/
def Column.park (column : Column) (candidate : Option Node) : Column :=
  { column with parked := column.parked.map (· ++ candidate.toList) }

/-- Intersects the branches of the first union one after the other with the columns. -/
def meetRows (conjoin : Meet) : List Node → List Column → SpaceM (List Node)
  | [], columns => return columns.flatMap fun column => column.parked.getD []
  | branch :: rest, columns => do
    let row ← meetRow conjoin branch columns
    let columns := row.columns.map fun (column, candidate) => column.park candidate
    return row.settled ++ (← meetRows conjoin rest columns)

/-- The intersections of two lists of branches, without those that others cover. -/
def intersectBranches (conjoin : Meet) (l r : List Node) : SpaceM (List Node) :=
  meetRows conjoin l (r.map fun branch => ⟨branch, some []⟩)

/-- The branches of a union with whether their order was given; any other node is its only branch. -/
def branches (node : Node) : List Node × Bool :=
  match node.content with
  | .union branches ordered => (branches, ordered)
  | _ => ([node], false)

variable [Behaviour]

/-- Intersects any two nodes in order of kind. -/
def meetUnions (meet : Meet) (l r : Node) : SpaceM Intersected :=
  match l.content with
  | .union lBranches lOrdered => do
    let (rBranches, rOrdered) := r.branches
    match lBranches.isEmpty, rBranches.isEmpty with
    | true, true => return .node l
    | false, false =>
      let found ← intersectBranches (conjoinBranches meet) lBranches rBranches
      if found.isEmpty then return .disjoint (.between .union l r)
      else return .node (← assembleUnionBy (conjoinBranches meet) found (lOrdered || rOrdered) .none)
    | _, _ => return .disjoint (.between .presence l r)
  | _ => meetMorphs meet l r

end Node

end SchemaAlgebra
