import TreeScript.Eval.Exec

/-!
# The global scope

Every run starts with a global scope that binds itself as `global`, the print function and the
operators, which are ordinary functions under the names of their signs.

## Main definitions

* `builtins` — the native functions of the language, with their names.
* `globalScope` — the place of the global scope in the store of a run.
* `Store.globals` — the store with a global scope and given native functions.
* `Store.initial` — the store with which a run starts.
-/

namespace TreeScript

/-- The native functions of the language: name, number of arguments and meaning.  The operators of each
of the two kinds come in the given order. -/
def builtinsIn (ops : List Arithmetic) (tests : List Comparison) : List (String × Arity × Primitive) :=
  [("print", .variadic, .print)] ++
    ops.map (fun op => (op.symbol, .exactly 2, .arithmetic op)) ++
    [("==", .exactly 2, .equal), ("!=", .exactly 2, .notEqual)] ++
    tests.map fun op => (op.symbol, .exactly 2, .compare op)

/-- The native functions of the language. -/
def builtins : List (String × Arity × Primitive) :=
  builtinsIn Arithmetic.all Comparison.all

/-- The place of the global scope in the store of a run. -/
def globalScope : ScopeRef := ⟨0⟩

/-- Makes a native function and binds it to its name in the global scope. -/
def Store.define (s : Store) (name : Text) (arity : Arity) (p : Primitive) : Store :=
  let (f, s) := s.newFunction ⟨name, .native arity p⟩
  s.assign globalScope name (.function f)

/-- Defines native functions one after another. -/
def Store.defineAll (s : Store) (natives : List (String × Arity × Primitive)) : Store :=
  natives.foldl (fun s (name, arity, p) => s.define name arity p) s

/-- The store with a global scope that binds itself and the given native functions. -/
def Store.globals (natives : List (String × Arity × Primitive)) : Store :=
  let (scope, s) := Store.newScope {} none
  (s.assign scope "global" (.scope scope)).defineAll natives

/-- The store with which a run starts. -/
def Store.initial : Store :=
  Store.globals builtins

end TreeScript
