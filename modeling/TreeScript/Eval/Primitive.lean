import TreeScript.Eval.Exec

/-!
# Native functions

## Main definitions

* `Arithmetic.compute?` — an arithmetic operator on two integers, with 64-bit wraparound.
* `Primitive.call` — what a native function does with its arguments.
* `Arity.accepts` — whether a number of arguments fits.
* `callNative` — the call of a native function.
-/

namespace TreeScript

/-- The result of an operator on two integers, modulo 2^64 where it does not fit.  Division truncates
toward zero and fails if the divisor is zero. -/
def Arithmetic.compute? (op : Arithmetic) (a b : Int64) : Except Failure Int64 :=
  match op with
  | .add => .ok (a + b)
  | .sub => .ok (a - b)
  | .mul => .ok (a * b)
  | .div => if b = 0 then .error ⟨.divisionByZero, 0, toString a.toInt ++ " / 0"⟩ else .ok (a / b)
  | .rem => if b = 0 then .error ⟨.divisionByZero, 0, toString a.toInt ++ " % 0"⟩ else .ok (a % b)

/-- The failure of an arithmetic operator on a value that is no integer. -/
def Arithmetic.refuse (op : Arithmetic) (v : Value) : Failure :=
  ⟨.type, 0, op.symbol ++ " expects int operands, got " ++ v.kind.text⟩

/-- The order of two values, or the failure of values that have none. -/
def Value.compare? (a b : Value) : Except Failure Ordering :=
  match a.order? b with
  | some o => .ok o
  | none => .error ⟨.type, 0, "cannot compare " ++ a.kind.text ++ " with " ++ b.kind.text⟩

/-- An order operator on two values. -/
def Comparison.eval (op : Comparison) (a b : Value) : Except Failure Value :=
  (a.compare? b).map fun o => .ofBool (op.holds o)

/-- Whether a number of arguments fits an arity. -/
def Arity.accepts : Arity → Nat → Bool
  | .variadic, _ => true
  | .exactly n, count => n = count

namespace Exec

/-- The result of a computation that can fail. -/
def ofExcept {α : Type} : Except Failure α → Exec α
  | .ok a => result a
  | .error f => fail (.failure f)

/-- The argument at a place, which must be there. -/
def argument (args : List Value) (place : Nat) : Exec Value :=
  match args[place]? with
  | some v => result v
  | none => crash

end Exec

/-- The integer among the arguments of an arithmetic operator, at a place; any other value there is at
fault. -/
def Arithmetic.operand (op : Arithmetic) (args : List Value) (place : Nat) : Exec Int64 := do
  match ← Exec.argument args place with
  | .int n => return n
  | v => Exec.fail (.failure (op.refuse v))

/-- What a native function does.  The operators read their arguments by place, whatever their number. -/
def Primitive.call (p : Primitive) (receiver : Value) (args : List Value) : Exec Value :=
  match p with
  | .print => do
    let text ← Exec.demand fun store => store.showValues? args
    Exec.log (.print text)
    Exec.printLine text
    return .undefined
  | .arithmetic op => do
    let a ← op.operand args 0
    let b ← op.operand args 1
    let n ← Exec.ofExcept (op.compute? a b)
    return .int n
  | .equal => do
    let a ← Exec.argument args 0
    let b ← Exec.argument args 1
    return .ofBool (a.same b)
  | .notEqual => do
    let a ← Exec.argument args 0
    let b ← Exec.argument args 1
    return .ofBool !(a.same b)
  | .compare op => do
    let a ← Exec.argument args 0
    let b ← Exec.argument args 1
    Exec.ofExcept (op.eval a b)
  | .host body =>
    match body receiver args with
    | .ok v => return v
    | .error e => Exec.fail e

/-- The call of a native function: the number of arguments is checked first. -/
def callNative (arity : Arity) (p : Primitive) (receiver : Value) (args : List Value) :
    Exec Value :=
  if arity.accepts args.length then p.call receiver args
  else
    let expected := match arity with
      | .variadic => -1
      | .exactly n => n
    Exec.failWith .arity 0 ("expected " ++ toString expected ++ ", got " ++ toString args.length)

end TreeScript
