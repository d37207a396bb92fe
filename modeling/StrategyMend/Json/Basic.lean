import StrategyMend.Number.Shortest

/-!
# JSON values

Numbers keep whether they were written as whole numbers: a whole number that fits into 64 bits stays
one, all others are doubles. The members of an object stand in the order of their keys' first use.
-/

set_option autoImplicit false

namespace StrategyMend

open Number

/-- A JSON number. -/
inductive Json.Number where
  | natural (n : Nat)
  /-- The negative of a positive whole number. -/
  | negative (n : Nat)
  | real (x : Binary64)
  deriving DecidableEq

/-- A JSON value. -/
inductive Json where
  | null
  | bool (b : Bool)
  | number (n : Json.Number)
  | string (s : String)
  | array (items : List Json)
  | object (members : List (String × Json))

namespace Json

/-- The largest natural number that is kept as one. -/
def Number.maxNatural : Nat := Nat.pow 2 64 - 1

/-- A natural number as a JSON value. -/
def nat (n : Nat) : Json := .number (.natural n)

/-- A whole number as a JSON value. -/
def int : Int → Json
  | .ofNat n => .number (.natural n)
  | .negSucc n => .number (.negative (n + 1))

/-- A double as a JSON value. -/
def real (x : Binary64) : Json := .number (.real x)

/-- A value or null. -/
def optional {α : Type} (value : Option α) (write : α → Json) : Json :=
  match value with
  | some x => write x
  | none => .null

/-- A list as a JSON array. -/
def list {α : Type} (items : List α) (write : α → Json) : Json := .array (items.map write)

/-- A list of texts as a JSON array. -/
def strings (items : List String) : Json := list items .string

/-- Gives a key a value in the members of an object. A key that is there already keeps its place. -/
def assign (key : String) (value : Json) : List (String × Json) → List (String × Json)
  | [] => [(key, value)]
  | (name, old) :: rest =>
    if name = key then (key, value) :: rest else (name, old) :: assign key value rest

/-- The member of an object with the given key. -/
def member? (key : String) : Json → Option Json
  | .object members => (members.find? (·.1 = key)).map (·.2)
  | _ => none

/-- Whether the value is an object. -/
def isObject : Json → Bool
  | .object _ => true
  | _ => false

/-! ## Reading values of a given type -/

/-- A value that must be a text. -/
def asString? : Json → Option String
  | .string s => some s
  | _ => none

/-- A value that must be a truth value. -/
def asBool? : Json → Option Bool
  | .bool b => some b
  | _ => none

/-- A value that must be a natural number. -/
def asNat? : Json → Option Nat
  | .number (.natural n) => some n
  | _ => none

/-- A value that must be a number; whole numbers become the nearest doubles. -/
def asReal? : Json → Option Binary64
  | .number (.natural n) => some (.nearest false n 1)
  | .number (.negative n) => some (.nearest true n 1)
  | .number (.real x) => some x
  | _ => none

/-- A value that must be an array of values that `read` accepts. -/
def asList? {α : Type} (read : Json → Option α) : Json → Option (List α)
  | .array items => items.mapM read
  | _ => none

/-- A value that must be an array of texts. -/
def asStrings? : Json → Option (List String) := asList? asString?

/-- A member that must be there. -/
def required {α : Type} (key : String) (read : Json → Option α) (object : Json) : Option α :=
  (object.member? key).bind read

/-- A member with a value for when it is missing; null is no value. -/
def withDefault {α : Type} (key : String) (default : α) (read : Json → Option α) (object : Json) :
    Option α :=
  match object.member? key with
  | some value => read value
  | none => some default

/-- A member that may be missing or null. -/
def nullable {α : Type} (key : String) (read : Json → Option α) (object : Json) :
    Option (Option α) :=
  match object.member? key with
  | none => some none
  | some .null => some none
  | some value => (read value).map some

end Json

end StrategyMend
