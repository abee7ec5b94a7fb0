-- SUMMARY: The registry of names for things that are compared by identity.
import SchemaAlgebra.Behaviour

/-!
# Registry

Constructors, predicates, transforms, symbols and objects have no literal
spelling, so texts refer to them by a registered name such as `$ark.Date`. A
thing gets its name on first use and keeps it; names are never given twice.
-/

namespace SchemaAlgebra

-- ---------------------------------------------------------------------------
-- Counters
-- ---------------------------------------------------------------------------

/-- A counter of 32 bits. Counting past the last number is a fault, which is noted: where arithmetic is checked, whatever
let the counter run over ends there and gives nothing. -/
structure Counter where
  value : UInt32
  overflowed : Bool

namespace Counter

def zero : Counter := ⟨0, false⟩

/-- Counts on to a number. -/
def reach (counter : Counter) (n : Nat) : Counter :=
  ⟨.ofNat n, counter.overflowed || decide (UInt32.size ≤ n)⟩

/-- Counts on by one. -/
def count (counter : Counter) : Counter := counter.reach (counter.value.toNat + 1)

end Counter

/-- The counters of all keys that were counted. -/
abbrev Counters (κ : Type) := List (κ × Counter)

namespace Counters

variable {κ : Type}

/-- Whether some counter ran over. -/
def overflowed (counters : Counters κ) : Bool := counters.any fun entry => entry.2.overflowed

variable [DecidableEq κ]

/-- The counter of a key, at zero if the key was never counted. -/
def read (counters : Counters κ) (key : κ) : Counter := (counters.lookup key).getD .zero

def write (key : κ) (counter : Counter) : Counters κ → Counters κ
  | [] => [(key, counter)]
  | (k, c) :: rest => if k = key then (key, counter) :: rest else (k, c) :: write key counter rest

end Counters

-- ---------------------------------------------------------------------------
-- Registries
-- ---------------------------------------------------------------------------

/-- Something that can be registered. -/
inductive Registered where
  | value (v : Value)
  | proto (p : Proto)
  | predicate (p : Predicate)
  | transform (t : Transform)
  deriving DecidableEq

/-- The names given in one space. -/
structure Registry where
  /-- What every reference starts with, before the point. -/
  qualifier : String
  /-- Names with what they stand for, the latest first. -/
  entries : List (String × Registered)
  /-- The numbers that were tried last for each base name. -/
  uses : Counters String

namespace Registered

/-- Whether the thing is compared by identity; everything else is a literal. -/
def hasIdentity : Registered → Bool
  | .value v => !v.isSerializable
  | _ => true

/-- What names are built from, and whether even the first gets a number. -/
def baseName : Registered → String × Bool
  | .proto p => (p.name, false)
  | .predicate p => match p.name with
    | some name => (name, false)
    | none => ("predicate", true)
  | .transform t => match t.name with
    | some name => (name, false)
    | none => ("morph", true)
  | .value (.symbol _) => ("symbol", true)
  | .value (.object _) => ("object", true)
  | .value _ => ("value", true)

end Registered

namespace Registry

def empty (qualifier : String) : Registry := ⟨qualifier, [], []⟩

def size (registry : Registry) : Nat := registry.entries.length

/-- The `n`-th name tried for a base name. -/
def candidate (base : String) (numbered : Bool) (n : Nat) : String :=
  if numbered ∨ 1 < n then base ++ toString n else base

/-- The first number from `n` on whose name is not taken. Distinct numbers give distinct names, so
one more try than there are names always finds one. -/
def firstFree (entries : List (String × Registered)) (base : String) (numbered : Bool) :
    (fuel : Nat) → (n : Nat) → Nat
  | 0, n => n
  | fuel + 1, n =>
    if (entries.lookup (candidate base numbered n)).isSome then
      firstFree entries base numbered fuel (n + 1)
    else n

/-- Gives a thing a new name. The search for it counts on from the number that was tried last for the base name. -/
def allocate (registry : Registry) (thing : Registered) : String × Registry :=
  let (base, numbered) := thing.baseName
  let counter := registry.uses.read base
  let n := firstFree registry.entries base numbered (registry.entries.length + 1) (counter.value.toNat + 1)
  let name := candidate base numbered n
  (name, { registry with
    entries := (name, thing) :: registry.entries, uses := registry.uses.write base (counter.reach n) })

/-- The name a thing has. -/
def nameOf? (registry : Registry) (thing : Registered) : Option String :=
  (registry.entries.find? fun entry => entry.2 = thing).map Prod.fst

/-- The name of a thing, given on first use. A literal has no identity to be remembered by and gets
a new name every time. -/
def register (registry : Registry) (thing : Registered) : String × Registry :=
  match if thing.hasIdentity then registry.nameOf? thing else none with
  | some name => (name, registry)
  | none => registry.allocate thing

/-- Registers several things in order. -/
def registerAll (registry : Registry) (things : List Registered) : Registry :=
  things.foldl (fun registry thing => (registry.register thing).2) registry

/-- The reference to a name, such as `$ark.Date`. -/
def qualify (registry : Registry) (name : String) : String :=
  registry.qualifier ++ "." ++ name

/-- The reference to a thing, by the name it has or would get. -/
def reference (registry : Registry) (thing : Registered) : String :=
  registry.qualify (registry.register thing).1

/-- The name in a reference: what follows the qualifier and a point. -/
def nameIn? (registry : Registry) (text : String) : Option String :=
  match registry.qualifier.toList.isPrefixOf? text.toList with
  | some ('.' :: name) => some (String.ofList name)
  | _ => none

def isReference (registry : Registry) (text : String) : Bool :=
  (registry.nameIn? text).isSome

/-- What a reference stands for. -/
def resolve? (registry : Registry) (text : String) : Option Registered :=
  (registry.nameIn? text).bind fun name => registry.entries.lookup name

/-- The value a reference stands for. -/
def resolveValue? (registry : Registry) (text : String) : Option Value :=
  match registry.resolve? text with
  | some (.value v) => some v
  | _ => none

end Registry

end SchemaAlgebra
