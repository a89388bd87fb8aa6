/-!
# Values

A value is a primitive, which is its own identity, or a reference into a store: functions, scopes
and objects are told apart by their place there.

## Main definitions

* `ScopeRef`, `ObjectRef`, `FunctionRef` — places in a store.
* `Value` — the values of the language.
* `Kind` — the categories of values, with their codes and names.
* `Value.truthy`, `Value.ofBool` — truth of values.
* `Value.same` — whether two values are equal.
* `Value.order?` — the order of two integers or two texts.
-/

namespace TreeScript

/-- The place of a scope in a store. -/
structure ScopeRef where
  /-- The position among the scopes. -/
  id : Nat
  deriving DecidableEq, Repr, Inhabited

/-- The place of an object in a store. -/
structure ObjectRef where
  /-- The position among the objects. -/
  id : Nat
  deriving DecidableEq, Repr, Inhabited

/-- The place of a function in a store. -/
structure FunctionRef where
  /-- The position among the functions. -/
  id : Nat
  deriving DecidableEq, Repr, Inhabited

/-- A value of the language. -/
inductive Value where
  /-- No value; also what an unbound name stands for. -/
  | undefined
  /-- A signed 64-bit integer. -/
  | int (n : Int64)
  /-- A text. -/
  | str (s : String)
  /-- A function. -/
  | function (f : FunctionRef)
  /-- A scope, seen as a value. -/
  | scope (e : ScopeRef)
  /-- An object. -/
  | object (o : ObjectRef)
  deriving DecidableEq, Repr, Inhabited

/-- The category of a value. -/
inductive Kind where
  | undefined | int | string | function | env | object
  deriving DecidableEq, Repr, Inhabited

/-- The name of a category. -/
def Kind.text : Kind → String
  | .undefined => "undefined"
  | .int => "int"
  | .string => "string"
  | .function => "function"
  | .env => "env"
  | .object => "object"

/-- The category with a given code, counted from zero. -/
def Kind.ofCode? : Int → Option Kind
  | 0 => some .undefined
  | 1 => some .int
  | 2 => some .string
  | 3 => some .function
  | 4 => some .env
  | 5 => some .object
  | _ => none

/-- The name of the category with a given code; a code without one is named by its number. -/
def Kind.textOfCode (code : Int) : String :=
  match Kind.ofCode? code with
  | some kind => kind.text
  | none => "unknown_kind_" ++ toString code

namespace Value

/-- The category of a value. -/
def kind : Value → Kind
  | .undefined => .undefined
  | .int _ => .int
  | .str _ => .string
  | .function _ => .function
  | .scope _ => .env
  | .object _ => .object

/-- Whether a value selects the first branch of a conditional: only integers other than zero do. -/
def truthy : Value → Bool
  | .int n => n ≠ 0
  | _ => false

/-- The integer that stands for a truth value. -/
def ofBool (b : Bool) : Value :=
  .int (if b then 1 else 0)

/-- Whether two values are equal: primitives by content, all others by identity. -/
def same (a b : Value) : Bool :=
  match a with
  | .int x => match b with
    | .int y => x = y
    | _ => false
  | .str x => match b with
    | .str y => x = y
    | _ => false
  | .undefined => match b with
    | .undefined => true
    | _ => false
  | .function _ | .scope _ | .object _ => a = b

/-- The order of two integers, or of two texts by the bytes of their UTF-8 forms; no other pair of
values has an order. -/
def order? : Value → Value → Option Ordering
  | .int a, .int b => some (compare a.toInt b.toInt)
  | .str a, .str b => some (compare a.toUTF8.toList b.toUTF8.toList)
  | _, _ => none

end Value

end TreeScript
