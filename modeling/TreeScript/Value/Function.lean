import TreeScript.Syntax.Expr
import TreeScript.Value.Basic
import TreeScript.Value.Failure

/-!
# Functions

A function is a closure over the scope it was created in, or a native function of the host.  Native
functions know how many arguments they take; the rest of what they do is a `Primitive`.

## Main definitions

* `Arithmetic`, `Comparison` — the operators, with their spelling.
* `Primitive` — what a native function does.
* `Arity` — how many arguments a native function takes.
* `Function` — a named function.
-/

namespace TreeScript

/-- An operator on two integers. -/
inductive Arithmetic where
  | add | sub | mul | div | rem
  deriving DecidableEq, Repr, Inhabited

/-- The spelling of an arithmetic operator. -/
def Arithmetic.symbol : Arithmetic → String
  | .add => "+"
  | .sub => "-"
  | .mul => "*"
  | .div => "/"
  | .rem => "%"

/-- All arithmetic operators. -/
def Arithmetic.all : List Arithmetic := [.add, .sub, .mul, .div, .rem]

/-- A test of the order of two primitives. -/
inductive Comparison where
  | lt | le | gt | ge
  deriving DecidableEq, Repr, Inhabited

/-- The spelling of an order operator. -/
def Comparison.symbol : Comparison → String
  | .lt => "<"
  | .le => "<="
  | .gt => ">"
  | .ge => ">="

/-- All order operators. -/
def Comparison.all : List Comparison := [.lt, .le, .gt, .ge]

/-- Whether an operator accepts the order of its operands. -/
def Comparison.holds : Comparison → Ordering → Bool
  | .lt, o => o.isLT
  | .le, o => o.isLE
  | .gt, o => o.isGT
  | .ge, o => o.isGE

/-- What a native function does with its receiver and arguments. -/
inductive Primitive where
  /-- Prints its arguments on one line. -/
  | print
  /-- Computes with two integers. -/
  | arithmetic (op : Arithmetic)
  /-- Tests whether two values are equal. -/
  | equal
  /-- Tests whether two values differ. -/
  | notEqual
  /-- Tests the order of two integers or two texts. -/
  | compare (op : Comparison)
  /-- Runs a function of the host that neither prints nor touches the store. -/
  | host (body : Value → List Value → Except Fault Value)

/-- How many arguments a native function takes. -/
inductive Arity where
  /-- Any number. -/
  | variadic
  /-- Exactly this number; a negative one is never met. -/
  | exactly (n : Int)
  deriving DecidableEq, Repr, Inhabited

/-- How a function is carried out. -/
inductive Code where
  /-- A function of the program, with the scope it was created in. -/
  | closure (params : List Text) (body : Option Block) (scope : ScopeRef)
  /-- A function of the host. -/
  | native (arity : Arity) (primitive : Primitive)

/-- A function with the name it is shown by. -/
structure Function where
  /-- The name it is shown by. -/
  name : Text
  /-- How it is carried out. -/
  code : Code

instance : Inhabited Function := ⟨⟨"", .native .variadic .print⟩⟩

end TreeScript
