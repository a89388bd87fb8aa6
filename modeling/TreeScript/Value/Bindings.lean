import TreeScript.Text.Symbol
import TreeScript.Value.Basic

/-!
# Bindings and fields

Bindings map names to values; they are the variables of a scope.  The fields of an object are bindings
too, and beside them the object keeps the names in the order in which they were first set.  Nothing in
the type says that the two agree: that is the work of `Fields.set`.

## Main definitions

* `Bindings` — names with their values.
* `Bindings.get?`, `Bindings.set` — reading and writing a name.
* `Fields` — what the fields of an object hold, and their names in order.
* `Fields.get?`, `Fields.set` — reading and writing a field.
-/

namespace TreeScript

/-- Names with their values.  Only the value of each name counts, and how many names there are. -/
structure Bindings where
  /-- The names and values. -/
  toList : List (Text × Value) := []
  deriving DecidableEq, Repr, Inhabited

namespace Bindings

/-- Writes a name in a list of pairs: in place if it occurs, at the end otherwise. -/
def write (name : Text) (value : Value) : List (Text × Value) → List (Text × Value)
  | [] => [(name, value)]
  | (n, v) :: rest => if n = name then (n, value) :: rest else (n, v) :: write name value rest

/-- The value of a name, if it has been set. -/
def get? (b : Bindings) (name : Text) : Option Value :=
  b.toList.lookup name

/-- Sets a name. -/
def set (b : Bindings) (name : Text) (value : Value) : Bindings :=
  ⟨write name value b.toList⟩

/-- The number of names. -/
def size (b : Bindings) : Nat :=
  b.toList.length

end Bindings

/-- The fields of an object. -/
structure Fields where
  /-- What the fields hold. -/
  values : Bindings := {}
  /-- The names of the fields, in the order in which they were first set. -/
  names : List Text := []
  deriving DecidableEq, Repr, Inhabited

namespace Fields

/-- The value of a field, if it has been set. -/
def get? (f : Fields) (name : Text) : Option Value :=
  f.values.get? name

/-- Sets a field.  One that holds nothing yet comes last in the order. -/
def set (f : Fields) (name : Text) (value : Value) : Fields where
  values := f.values.set name value
  names := if (f.values.get? name).isSome then f.names else f.names ++ [name]

end Fields

end TreeScript
