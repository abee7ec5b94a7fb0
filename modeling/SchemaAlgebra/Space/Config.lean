-- SUMMARY: The configuration of a space, and reading it from JSON.
import SchemaAlgebra.Error
import SchemaAlgebra.Json.Parser

/-!
# Configuration

A configuration is written as a JSON object. Missing keys take their defaults
and unknown ones are ignored, but a known key must have the right type and may
be written once. The three settings may also stand in an array, in order.
-/

namespace SchemaAlgebra

/-- The settings of a space. -/
structure SpaceConfig where
  /-- What references to registered things start with. -/
  registryPrefix : String
  /-- Whether unions get a discriminant where there is one. -/
  discriminateUnions : Bool
  /-- The largest number of branches that are compared pair by pair. -/
  maxReducibleBranches : Nat
  deriving DecidableEq, Repr

namespace SpaceConfig

def standard : SpaceConfig := ⟨"$ark", true, 512⟩

/-- The settings in the order in which an array lists them. -/
def keys : List String := ["registryPrefix", "discriminateUnions", "maxReducibleBranches"]

/-- The configuration with one setting replaced. -/
def set? (config : SpaceConfig) (key : String) (json : Json) : Option SpaceConfig :=
  match key, json with
  | "registryPrefix", .string s => some { config with registryPrefix := s }
  | "discriminateUnions", .bool b => some { config with discriminateUnions := b }
  | "maxReducibleBranches", .integer n =>
    if 0 ≤ n then some { config with maxReducibleBranches := n.toNat } else none
  | _, _ => none

/-- Reads settings one after the other, each at most once. -/
def ofFields? (config : SpaceConfig) : (seen : List String) → List (String × Json) → Option SpaceConfig
  | _, [] => some config
  | seen, (key, json) :: rest =>
    if !keys.contains key then ofFields? config seen rest
    else if seen.contains key then none
    else (config.set? key json).bind fun config => ofFields? config (key :: seen) rest

def ofJson (text : String) : Except ParseError SpaceConfig :=
  let config := match Json.parseFor? keys text with
    | some (.object fields) => ofFields? standard [] fields
    | some (.array items) => if keys.length < items.length then none else ofFields? standard [] (keys.zip items)
    | _ => none
  match config with
  | some config => .ok config
  | none => .error .config

end SpaceConfig

end SchemaAlgebra
