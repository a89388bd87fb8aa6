import TreeScript.Text.Symbol

/-!
# Syntax trees

A program is a block of expressions.  Every node carries the line it was written on; nothing
forces the lines to be positive or to grow, so they are plain integers.

Trees can be built by hand, so they may have gaps: an expression can be missing, and so can the
body of a function or a branch of a conditional.  A gap has a meaning of its own: a missing
expression cannot be evaluated, a missing block does nothing.

## Main definitions

* `Literal` — the constants of the language.
* `Expr`, `Block`, `Init` — expressions, blocks and the field initialisers of an object.
* `Program` — a block with the path it came from.
-/

namespace TreeScript

/-- A constant written in a program. -/
inductive Literal where
  /-- The value that means no value. -/
  | undefined
  /-- A signed 64-bit integer. -/
  | int (n : Int64)
  /-- A text. -/
  | str (s : String)
  /-- A literal node that holds no constant; it stands for `undefined`. -/
  | absent
  deriving DecidableEq, Repr, Inhabited

mutual

/-- An expression of the language. -/
inductive Expr where
  /-- A nested block. -/
  | block (b : Block)
  /-- A constant. -/
  | literal (line : Int) (value : Literal)
  /-- A function call. -/
  | call (line : Int) (callee : Expr) (args : List Expr)
  /-- The value of a variable. -/
  | var (line : Int) (name : Text)
  /-- A write to a variable, which `declares` says to be new. -/
  | assign (line : Int) (declares : Bool) (name : Text) (value : Expr)
  /-- A function, bound to its name in the current scope if it has one. -/
  | fn (line : Int) (name : Option Text) (params : List Text) (body : Option Block)
  /-- A return from the nearest enclosing call. -/
  | ret (line : Int) (value : Expr)
  /-- A conditional. -/
  | branch (line : Int) (condition : Expr) (onTrue onFalse : Option Block)
  /-- A new object. -/
  | object (line : Int) (fields : List Init)
  /-- The value of a field. -/
  | field (line : Int) (receiver : Expr) (name : Text)
  /-- A write to a field. -/
  | setField (line : Int) (receiver : Expr) (name : Text) (value : Expr)
  /-- A call of a function held in a field, with the receiver bound as `this`. -/
  | send (line : Int) (receiver : Expr) (name : Text) (args : List Expr)
  /-- A gap where an expression should stand. -/
  | missing

/-- A list of instructions that run in the scope around it. -/
inductive Block where
  /-- The instructions, in order. -/
  | mk (line : Int) (instrs : List Expr)

/-- One field of a new object. -/
inductive Init where
  /-- The field's name and the expression that gives its value. -/
  | mk (name : Text) (value : Expr)

end

instance : Inhabited Expr := ⟨.missing⟩

instance : Inhabited Block := ⟨.mk 0 []⟩

/-- The line of a block. -/
def Block.line : Block → Int
  | .mk line _ => line

/-- The instructions of a block. -/
def Block.instrs : Block → List Expr
  | .mk _ instrs => instrs

/-- The name of an initialiser. -/
def Init.name : Init → Text
  | .mk name _ => name

/-- The expression of an initialiser. -/
def Init.value : Init → Expr
  | .mk _ value => value

/-- The call of the operator function `op` on two operands, all on one line. -/
def Expr.binary (line : Int) (op : Text) (left right : Expr) : Expr :=
  .call line (.var line op) [left, right]

/-- The name a function is bound to: the empty text names nothing. -/
def Expr.functionName (name : Text) : Option Text :=
  if name.isEmpty then none else some name

/-- A program: its root block, absent for an empty program, and the file it came from. -/
structure Program where
  /-- The file the program was read from; empty if there is none. -/
  path : String := ""
  /-- The root block. -/
  body : Option Block
  deriving Inhabited

end TreeScript
