import TreeScript.Value.Bindings
import TreeScript.Value.Function

/-!
# The store

Scopes, objects and functions live in a store and are shared by reference: a write through one
reference is seen through every other.  Nothing is ever removed.

A scope keeps the list of the scopes around it, nearest first, which is fixed when the scope is made.

## Main definitions

* `Scope`, `Store` — the memory of a run.
* `Store.chain`, `Store.lookup` — a scope with those around it, and reading a name through them.
* `Store.declare?`, `Store.assign` — binding a new name, and writing a name in one scope.
* `Store.field?`, `Store.setField` — reading and writing fields of objects and of scopes.
* `Store.showValue?` — the text of a value, if it has one.
-/

namespace TreeScript

/-- A scope: its variables and the scopes around it, nearest first. -/
structure Scope where
  /-- The scopes around this one, nearest first; empty for a global scope. -/
  enclosing : List ScopeRef := []
  /-- The variables bound here. -/
  bindings : Bindings := {}
  deriving Inhabited

/-- The memory of a run. -/
structure Store where
  /-- The scopes, in the order in which they were made. -/
  scopes : Array Scope := #[]
  /-- The fields of the objects, in the order in which the objects were made. -/
  objects : Array Fields := #[]
  /-- The functions, in the order in which they were made. -/
  functions : Array Function := #[]
  deriving Inhabited

namespace Store

/-! ### Reading -/

/-- The scope at a place. -/
def scope (s : Store) (e : ScopeRef) : Scope :=
  s.scopes[e.id]?.getD {}

/-- The fields of the object at a place. -/
def fields (s : Store) (o : ObjectRef) : Fields :=
  s.objects[o.id]?.getD {}

/-- The function at a place. -/
def function (s : Store) (f : FunctionRef) : Function :=
  s.functions[f.id]?.getD default

/-- A scope and the scopes around it, nearest first. -/
def chain (s : Store) (e : ScopeRef) : List ScopeRef :=
  e :: (s.scope e).enclosing

/-- The value of a name in the nearest scope of the chain that binds it. -/
def lookup (s : Store) (e : ScopeRef) (name : Text) : Value :=
  ((s.chain e).findSome? fun r => (s.scope r).bindings.get? name).getD .undefined

/-- The scope around a scope. -/
def parent? (s : Store) (e : ScopeRef) : Option ScopeRef :=
  (s.scope e).enclosing.head?

/-- The value of a field, if `holder` has fields: those of an object that were never set are
undefined, and those of a scope are the names it can see. -/
def field? (s : Store) (holder : Value) (name : Text) : Option Value :=
  match holder with
  | .object o => some (((s.fields o).get? name).getD .undefined)
  | .scope e => some (s.lookup e name)
  | _ => none

/-! ### Making and writing -/

/-- Makes a scope inside another, or a global one. -/
def newScope (s : Store) (parent : Option ScopeRef) : ScopeRef × Store :=
  let enclosing := match parent with
    | some e => s.chain e
    | none => []
  (⟨s.scopes.size⟩, { s with scopes := s.scopes.push { enclosing } })

/-- Makes an object, which has no fields yet. -/
def newObject (s : Store) : ObjectRef × Store :=
  (⟨s.objects.size⟩, { s with objects := s.objects.push {} })

/-- Makes a function. -/
def newFunction (s : Store) (f : Function) : FunctionRef × Store :=
  (⟨s.functions.size⟩, { s with functions := s.functions.push f })

/-- Writes a name in one scope, whatever the scopes around it hold. -/
def assign (s : Store) (e : ScopeRef) (name : Text) (value : Value) : Store :=
  { s with scopes := s.scopes.modify e.id fun scope =>
      { scope with bindings := scope.bindings.set name value } }

/-- Binds a new name in a scope, unless some scope of its chain holds a value for the name. -/
def declare? (s : Store) (e : ScopeRef) (name : Text) (value : Value) : Except Failure Store :=
  if s.lookup e name = .undefined then .ok (s.assign e name value)
  else .error ⟨.alreadyDefined, 0, name⟩

/-- Writes a field of an object or a name of a scope; any other value is left alone. -/
def setField (s : Store) (holder : Value) (name : Text) (value : Value) : Store :=
  match holder with
  | .object o => { s with objects := s.objects.modify o.id (·.set name value) }
  | .scope e => s.assign e name value
  | _ => s

/-! ### Showing -/

/-- The text of a value that is no object. -/
def showShallow (s : Store) : Value → Text
  | .undefined => "undefined"
  | .int n => toString n.toInt
  | .str text => text
  | .function f => "<fn " ++ (s.function f).name ++ ">"
  | .scope e =>
    let scope := s.scope e
    if scope.enclosing.isEmpty then "<env global>"
    else "<env " ++ toString scope.bindings.size ++ ">"
  | .object _ => "<cycle>"

/-- The text of a value, where `inner?` gives that of an object. -/
def showWith? (s : Store) (inner? : ObjectRef → Option Text) : Value → Option Text
  | .object o => inner? o
  | other => some (s.showShallow other)

/-- The text of a field of an object, after its name.  There is none if the field holds nothing. -/
def showField? (s : Store) (inner? : ObjectRef → Option Text) (o : ObjectRef) (name : Text) :
    Option Text := do
  let value ← (s.fields o).get? name
  let shown ← s.showWith? inner? value
  return name ++ ": " ++ shown

/-- The text of an object met inside the objects of `path`.  An object of the path shows as a cycle;
so each level adds an object to the path, and `depth` levels are enough when no more than `depth`
objects are off it. -/
def showObject? (s : Store) : (depth : Nat) → (path : List ObjectRef) → ObjectRef → Option Text
  | 0, _, _ => some ("<cycle>" : Text)
  | depth + 1, path, o =>
    if o ∈ path then some ("<cycle>" : Text)
    else do
      let texts ← (s.fields o).names.mapM (s.showField? (s.showObject? depth (o :: path)) o)
      return "\x7b" ++ Text.join ", " texts ++ "\x7d"

/-- The text of a value, if it has one. -/
def showValue? (s : Store) : Value → Option Text :=
  s.showWith? (s.showObject? (s.objects.size + 1) [])

/-- The text of values in a row. -/
def showValues? (s : Store) (values : List Value) : Option Text := do
  return Text.join " " (← values.mapM s.showValue?)

end Store

end TreeScript
