-- SUMMARY: The JSON of a node, and the things that have to be registered for it.
import SchemaAlgebra.Literal
import SchemaAlgebra.Node.Basic

/-!
# JSON of nodes

Every kind has an object form with its attributes as keys. Where a shorter form
says the same, it is used unless a caption has to be written. Children
contribute their own JSON, so the rendering of a content is not recursive.
-/

namespace SchemaAlgebra

/-- An object with the caption appended, or the short form if there is one and the
caption need not be written. -/
def Caption.attach (captioned : Bool) (caption : Caption) (short : Option Json)
    (fields : List (String × Json)) : Json :=
  let written := captioned && !caption.isEmpty
  match short, written with
  | some short, false => short
  | _, _ =>
    let notes : List (String × Json) := if written then
        caption.description.toList.map (fun s => ("description", .string s)) ++
          caption.label.toList.map (fun s => ("alias", .string s))
      else []
    .object (fields ++ notes)

/-- A bound where a plain number refers to `implied`: an inclusive bound on that axis is its limit. -/
def Bound.json (captioned : Bool) (caption : Caption) (implied : BoundAxis) (bound : Bound) : Json :=
  let limit := Literal.encodeNumber bound.limit
  let exclusive : List (String × Json) := if bound.exclusive then [("exclusive", .bool true)] else []
  let axis : List (String × Json) := if bound.axis = implied then [] else [("axis", .string bound.axis.name)]
  caption.attach captioned
    (if !bound.exclusive && bound.axis = implied then some limit else none)
    (("limit", limit) :: exclusive ++ axis)

/-- String keys stand for themselves, symbols for their reference. -/
def PropKey.json (registry : Registry) : PropKey → Json
  | .string name => .string name
  | .symbol s => .object [("symbol", .string (registry.reference (.value (.symbol s))))]

namespace Content

/-- What has to have a name before the content can be written, in the order in which names are given. -/
def identities (content : Content Node) : List Registered :=
  match content with
  | .morph _ _ transforms => transforms.map .transform
  | .unit v => if v.isSerializable then [] else [.value v]
  | .proto p => [.proto p]
  | .predicate p => [.predicate p]
  | .required (.symbol s) _ => [.value (.symbol s)]
  | .optional (.symbol s) _ => [.value (.symbol s)]
  | _ => []

/-- The JSON of a child, captioned or not. -/
def childJson (captioned : Bool) (node : Node) : Json :=
  if captioned then node.json else node.typeJson

/-- The attribute of an intersection that holds its constraints of one kind. -/
def constraintField (captioned : Bool) (implied : BoundAxis) (constraints : List Node) (kind : Kind) :
    List (String × Json) :=
  match constraints.filter fun c => c.kind = kind with
  | [] => []
  | first :: rest =>
    let json : Json := if kind.isRepeatable then .array ((first :: rest).map (childJson captioned))
      else match first.content with
        | .max bound => bound.json captioned first.caption implied
        | .min bound => bound.json captioned first.caption implied
        | _ => childJson captioned first
    [(kind.name, json)]

/-- The JSON of a content, with captions or without. -/
def json (registry : Registry) (captioned : Bool) (caption : Caption) (content : Content Node) : Json :=
  let attach := caption.attach captioned
  match content with
  | .union branches ordered =>
    let items : Json := .array (branches.map (childJson captioned))
    if ordered then attach none [("branches", items), ("ordered", .bool true)]
    else attach (some items) [("branches", items)]
  | .morph input output transforms =>
    let result := output.toList.map fun output => ("out", childJson captioned output)
    let names := transforms.map fun t => Json.string (registry.reference (.transform t))
    attach none (("in", childJson captioned input) :: result ++ [("morph", .array names)])
  | .intersection basis constraints =>
    let implied := Node.impliedAxis basis
    attach none (basis.toList.map (fun basis => ("basis", childJson captioned basis)) ++
      Kind.refinements.flatMap (constraintField captioned implied constraints))
  | .unit v => attach none [("unit", Literal.encode registry v)]
  | .proto p => attach none [("proto", .string (registry.reference (.proto p)))]
  | .domain d => attach (some (.string d.name)) [("domain", .string d.name)]
  | .divisor d => attach (some (.integer d)) [("divisor", .integer d)]
  | .max bound => bound.json captioned caption .value
  | .min bound => bound.json captioned caption .value
  | .pattern p =>
    if p.flags.isEmpty then attach (some (.string p.source)) [("pattern", .string p.source)]
    else attach none [("pattern", .string p.source), ("flags", .string p.flags)]
  | .predicate p =>
    let reference : Json := .string (registry.reference (.predicate p))
    attach (some reference) [("predicate", reference)]
  | .required key value => attach none [("key", key.json registry), ("value", childJson captioned value)]
  | .optional key value => attach none [("key", key.json registry), ("value", childJson captioned value)]

/-- The identifier that a kind and a JSON make: the short forms of different kinds can coincide. -/
def identifier (content : Content Node) (json : Json) : String :=
  content.kind.name ++ ":" ++ json.compact

end Content

end SchemaAlgebra
