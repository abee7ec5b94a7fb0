-- SUMMARY: Dynamically typed values: domains, constructors, symbols, property keys, objects and strict equality.
import SchemaAlgebra.Number.Basic

/-!
# Values

Schemas describe dynamically typed data. Primitives are compared by value;
symbols, constructors and objects have an identity, which is a serial number
handed out once. Nothing is ever changed in place, so two things with one
serial number also agree in everything else, and equality of the data is
equality of the identities.
-/

namespace SchemaAlgebra

-- ---------------------------------------------------------------------------
-- Domains
-- ---------------------------------------------------------------------------

/-- The domain a value belongs to. -/
inductive Domain where
  | bigint
  | boolean
  | null
  | number
  | object
  | string
  | symbol
  | undefined
  deriving DecidableEq, Repr

namespace Domain

def all : List Domain :=
  [.bigint, .boolean, .null, .number, .object, .string, .symbol, .undefined]

def name : Domain → String
  | .bigint => "bigint"
  | .boolean => "boolean"
  | .null => "null"
  | .number => "number"
  | .object => "object"
  | .string => "string"
  | .symbol => "symbol"
  | .undefined => "undefined"

def ofName? (name : String) : Option Domain :=
  all.find? fun domain => domain.name == name

/-- Domains with finitely many values, which are written as units instead. -/
def isEnumerable : Domain → Bool
  | .boolean | .null | .undefined => true
  | _ => false

/-- The domains that are not enumerable. -/
def nonEnumerable : List Domain := [.bigint, .number, .object, .string, .symbol]

def description : Domain → String
  | .bigint => "a bigint"
  | .boolean => "boolean"
  | .null => "null"
  | .number => "a number"
  | .object => "an object"
  | .string => "a string"
  | .symbol => "a symbol"
  | .undefined => "undefined"

end Domain

-- ---------------------------------------------------------------------------
-- Constructors, symbols and keys
-- ---------------------------------------------------------------------------

/-- A constructor that objects can be instances of. Every chain of parents ends at `object`. -/
inductive Proto where
  | object
  | extending (serial : Nat) (name : String) (parent : Proto)
  deriving DecidableEq, Repr

namespace Proto

def array : Proto := .extending 1 "Array" .object
def date : Proto := .extending 2 "Date" .object
def function : Proto := .extending 3 "Function" .object
def regExp : Proto := .extending 4 "RegExp" .object
def error : Proto := .extending 5 "Error" .object

/-- The first serial number that no built-in constructor has. -/
def firstFreeSerial : Nat := 6

def builtins : List Proto := [.object, array, date, function, regExp, error]

def name : Proto → String
  | .object => "Object"
  | .extending _ name _ => name

def parent? : Proto → Option Proto
  | .object => none
  | .extending _ _ parent => some parent

/-- The built-in constructor of a name. -/
def builtin? (name : String) : Option Proto :=
  builtins.find? fun proto => proto.name == name

/-- A constructor and all its ancestors, itself first. -/
def chain : Proto → List Proto
  | .object => [.object]
  | .extending serial name parent => .extending serial name parent :: parent.chain

/-- Whether a constructor is `ancestor` or derives from it. -/
def isSubclassOf (proto ancestor : Proto) : Bool :=
  proto.chain.contains ancestor

end Proto

/-- A unique symbol. -/
structure Symbol where
  serial : Nat
  description : Option String
  deriving DecidableEq, Repr

/-- The key of an own property. -/
inductive PropKey where
  | string (name : String)
  | symbol (symbol : Symbol)
  deriving DecidableEq, Repr

-- ---------------------------------------------------------------------------
-- Objects and values
-- ---------------------------------------------------------------------------

/-- What sets an object apart from a plain one. -/
inductive Body (ν : Type) where
  | plain
  | array (items : List ν)
  /-- Milliseconds since the epoch. -/
  | date (time : Number)
  | function

/-- An object with values of type `ν`; its own properties are in the order they were added. -/
structure Object (ν : Type) where
  serial : Nat
  proto : Option Proto
  body : Body ν
  props : List (PropKey × ν)

/-- A value. -/
inductive Value where
  | undefined
  | null
  | boolean (b : Bool)
  | number (n : Number)
  | bigint (n : Int)
  | string (s : String)
  | symbol (s : Symbol)
  | object (o : Object Value)

namespace Value

def domain : Value → Domain
  | .undefined => .undefined
  | .null => .null
  | .boolean _ => .boolean
  | .number _ => .number
  | .bigint _ => .bigint
  | .string _ => .string
  | .symbol _ => .symbol
  | .object _ => .object

/-- The answer of `typeof`: functions are told apart from other objects, and null is an object. -/
def typeOf : Value → String
  | .null => "object"
  | .object ⟨_, _, .function, _⟩ => "function"
  | value => value.domain.name

/-- Values that have a literal spelling of their own, without a registered name. -/
def isSerializable : Value → Bool
  | .symbol _ | .object _ => false
  | _ => true

-- ---------------------------------------------------------------------------
-- Equality of data
-- ---------------------------------------------------------------------------

mutual

def beq : Value → Value → Bool
  | .undefined, .undefined => true
  | .null, .null => true
  | .boolean a, .boolean b => decide (a = b)
  | .number a, .number b => decide (a = b)
  | .bigint a, .bigint b => decide (a = b)
  | .string a, .string b => decide (a = b)
  | .symbol a, .symbol b => decide (a = b)
  | .object ⟨s, p, body, props⟩, .object ⟨s', p', body', props'⟩ =>
    decide (s = s') && decide (p = p') && beqBody body body' && beqProps props props'
  | _, _ => false
termination_by structural a => a

def beqBody : Body Value → Body Value → Bool
  | .plain, .plain => true
  | .array items, .array items' => beqItems items items'
  | .date t, .date t' => decide (t = t')
  | .function, .function => true
  | _, _ => false
termination_by structural a => a

def beqItems : List Value → List Value → Bool
  | [], [] => true
  | a :: as, b :: bs => beq a b && beqItems as bs
  | _, _ => false
termination_by structural a => a

def beqProps : List (PropKey × Value) → List (PropKey × Value) → Bool
  | [], [] => true
  | (k, a) :: as, (k', b) :: bs => decide (k = k') && beq a b && beqProps as bs
  | _, _ => false
termination_by structural a => a

end

mutual

theorem beq_iff : (a b : Value) → beq a b = true ↔ a = b
  | .object ⟨s, p, body, props⟩, .object ⟨s', p', body', props'⟩ => by
    simp [beq, beqBody_iff body body', beqProps_iff props props', and_assoc]
  | .undefined, b => by cases b <;> simp [beq]
  | .null, b => by cases b <;> simp [beq]
  | .boolean _, b => by cases b <;> simp [beq]
  | .number _, b => by cases b <;> simp [beq]
  | .bigint _, b => by cases b <;> simp [beq]
  | .string _, b => by cases b <;> simp [beq]
  | .symbol _, b => by cases b <;> simp [beq]
  | .object _, .undefined | .object _, .null | .object _, .boolean _ | .object _, .number _
  | .object _, .bigint _ | .object _, .string _ | .object _, .symbol _ => by simp [beq]

theorem beqBody_iff : (a b : Body Value) → beqBody a b = true ↔ a = b
  | .array items, .array items' => by simp [beqBody, beqItems_iff items items']
  | .plain, b => by cases b <;> simp [beqBody]
  | .date _, b => by cases b <;> simp [beqBody]
  | .function, b => by cases b <;> simp [beqBody]
  | .array _, .plain | .array _, .date _ | .array _, .function => by simp [beqBody]

theorem beqItems_iff : (a b : List Value) → beqItems a b = true ↔ a = b
  | [], [] => by simp [beqItems]
  | [], _ :: _ => by simp [beqItems]
  | _ :: _, [] => by simp [beqItems]
  | a :: as, b :: bs => by simp [beqItems, beq_iff a b, beqItems_iff as bs]

theorem beqProps_iff : (a b : List (PropKey × Value)) → beqProps a b = true ↔ a = b
  | [], [] => by simp [beqProps]
  | [], _ :: _ => by simp [beqProps]
  | _ :: _, [] => by simp [beqProps]
  | (k, a) :: as, (k', b) :: bs => by
    simp [beqProps, beq_iff a b, beqProps_iff as bs]

end

instance : DecidableEq Value := fun a b => decidable_of_iff _ (beq_iff a b)

instance : Inhabited Value := ⟨.undefined⟩

/-- Strict equality: numbers by their IEEE comparison, other primitives by value, symbols and
objects by identity. -/
def strictlyEquals : Value → Value → Bool
  | .number a, .number b => a.equals b
  | a, b => decide (a = b)

end Value

end SchemaAlgebra
