-- SUMMARY: Reading and replacing properties of objects, and the length of values.
import SchemaAlgebra.Value.Basic

/-!
# Properties

Own properties come first; an array then answers `length` and the decimal
spellings of its indices. Replacing a property gives a new object with an
identity of its own, and writes an index that is in range into the items.
-/

namespace SchemaAlgebra

namespace PropKey

/-- The array index a key spells: decimal digits after an optional plus sign. -/
def index? : PropKey → Option Nat
  | .symbol _ => none
  | .string name =>
    let digits := match name.toList with
      | '+' :: rest => rest
      | cs => cs
    if digits.isEmpty ∨ ¬ digits.all Char.isDigit then none
    else some (digits.foldl (fun n c => 10 * n + (c.toNat - 48)) 0)

end PropKey

namespace Object

/-- The properties with one more: a known key keeps its place and takes the new value. -/
def insertProp {ν : Type} (key : PropKey) (value : ν) : List (PropKey × ν) → List (PropKey × ν)
  | [] => [(key, value)]
  | (k, v) :: rest => if k = key then (key, value) :: rest else (k, v) :: insertProp key value rest

/-- Properties collected from a list in which keys may be repeated. -/
def collectProps {ν : Type} (props : List (PropKey × ν)) : List (PropKey × ν) :=
  props.foldl (fun known (key, value) => insertProp key value known) []

def isInstanceOf {ν : Type} (o : Object ν) (proto : Proto) : Bool :=
  o.proto.any fun own => own.isSubclassOf proto

/-- The number of items of an array. -/
def length? {ν : Type} (o : Object ν) : Option Nat :=
  match o.body with
  | .array items => some items.length
  | _ => none

/-- The time of a date. -/
def time? {ν : Type} (o : Object ν) : Option Number :=
  match o.body with
  | .date time => some time
  | _ => none

/-- A plain object with the built-in constructor. -/
def plain (serial : Nat) (props : List (PropKey × Value)) : Object Value :=
  ⟨serial, some .object, .plain, props⟩

def array (serial : Nat) (items : List Value) : Object Value :=
  ⟨serial, some Proto.array, .array items, []⟩

/-- The value under a key: an own property, or the length or an item of an array. -/
def get? (o : Object Value) (key : PropKey) : Option Value :=
  match o.props.lookup key with
  | some value => some value
  | none => match o.body with
    | .array items =>
      if key = .string "length" then some (.number (.ofNat items.length))
      else key.index?.bind fun i => items[i]?
    | _ => none

/-- A copy under a new identity with `key` set to `value`. -/
def withProp (o : Object Value) (serial : Nat) (key : PropKey) (value : Value) : Object Value :=
  match o.body, key.index? with
  | .array items, some i =>
    if i < items.length then { o with serial, body := .array (items.set i value) }
    else { o with serial, props := insertProp key value o.props }
  | _, _ => { o with serial, props := insertProp key value o.props }

end Object

namespace Value

/-- How many UTF-16 code units a string takes. -/
def utf16Length (s : String) : Nat :=
  s.toList.foldl (fun n c => n + if c.toNat < 0x10000 then 1 else 2) 0

/-- The length of a string, in UTF-16 units, or of an array. -/
def length? : Value → Option Nat
  | .string s => some (utf16Length s)
  | .object o => o.length?
  | _ => none

/-- The value under a key of an object. -/
def get? (value : Value) (key : PropKey) : Option Value :=
  match value with
  | .object o => o.get? key
  | _ => none

end Value

end SchemaAlgebra
