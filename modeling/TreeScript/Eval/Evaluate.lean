import TreeScript.Eval.Primitive

/-!
# Evaluation

Expressions are evaluated by recursion on the tree.  What an invocation does is a parameter of that
recursion: `Expr.eval` only hands a function and its arguments over.  `invoke` closes the knot by
recursion on the number of further nested calls allowed for, so that a body is always evaluated with
a smaller number than its call.

Two bounds limit nested calls.  The depth limit belongs to the language: a call beyond it is a
failure.  The fuel does not: a call beyond it has no answer.  With a depth limit of `d`, the fuel `d`
is never met.

## Main definitions

* `Invoke` — what an invocation does.
* `Expr.eval`, `Block.run` — evaluation of an expression and of a block, in a scope.
* `DepthLimit` — the limit on nested calls.
* `Exec.enterScope` — makes the scope of a call.
* `callClosure` — the call of a function of the program.
* `invoke` — an invocation at a depth.
-/

namespace TreeScript

/-- What the invocation of a function, with a receiver and arguments, from a line, does. -/
abbrev Invoke : Type := FunctionRef → Value → List Value → Int → Exec Value

/-- The name a function is shown by. -/
def shownName (name : Option Text) : Text :=
  name.getD "lambda"

namespace Exec

/-- The value of a field of a receiver, which must have fields. -/
def fieldOf (receiver : Value) (name : Text) (line : Int) : Exec Value := do
  match ← read fun store => store.field? receiver name with
  | some value => return value
  | none =>
    let text ← demand fun store => store.showValue? receiver
    failWith .notAnObject line (text ++ " has no field " ++ name)

/-- Binds a new name in a scope. -/
def declare (scope : ScopeRef) (name : Text) (value : Value) : Exec Unit := fun s =>
  match s.store.declare? scope name value with
  | .ok store => (.done (), { s with store := store })
  | .error f => (.failed (.failure f), s)

end Exec

mutual

/-- Evaluates an expression in a scope. -/
def Expr.eval (invoke : Invoke) (scope : ScopeRef) : Expr → Exec Value
  | .block b => do
    b.run invoke scope
    return .undefined
  | .literal _ value => return match value with
    | .undefined | .absent => .undefined
    | .int n => .int n
    | .str s => .str s
  | .call line callee args => do
    let callee ← callee.eval invoke scope
    match callee with
    | .function f =>
      let args ← evalAll invoke scope args
      invoke f .undefined args line
    | _ =>
      let text ← Exec.demand fun store => store.showValue? callee
      Exec.failWith .notAFunction line text
  | .var _ name => Exec.read fun store => store.lookup scope name
  | .assign line declares name value => do
    let value ← value.eval invoke scope
    if declares then
      Exec.atLine line (Exec.declare scope name value)
    else
      Exec.change fun store => store.assign scope name value
    return value
  | .fn _ name params body => do
    let f ← Exec.make fun store =>
      store.newFunction ⟨shownName name, .closure params body scope⟩
    if let some name := name then
      Exec.change fun store => store.assign scope name (.function f)
    return .function f
  | .ret line value => do
    let value ← value.eval invoke scope
    Exec.unwind value line
  | .branch _ condition onTrue onFalse => do
    let condition ← condition.eval invoke scope
    if condition.truthy then
      runOptional invoke scope onTrue
    else
      runOptional invoke scope onFalse
    return .undefined
  | .object _ inits => do
    let o ← Exec.make fun store => store.newObject
    evalInits invoke scope o inits
    return .object o
  | .field line receiver name => do
    let receiver ← receiver.eval invoke scope
    Exec.fieldOf receiver name line
  | .setField line receiver name value => do
    let receiver ← receiver.eval invoke scope
    -- a receiver without fields is at fault before the value is looked at
    let _ ← Exec.fieldOf receiver name line
    let value ← value.eval invoke scope
    Exec.change fun store => store.setField receiver name value
    return value
  | .send line receiver name args => do
    let receiver ← receiver.eval invoke scope
    match ← Exec.fieldOf receiver name line with
    | .function f =>
      let args ← evalAll invoke scope args
      invoke f receiver args line
    | _ =>
      let text ← Exec.demand fun store => store.showValue? receiver
      Exec.failWith .notAFunction line (text ++ "." ++ name)
  | .missing => Exec.failWith .unknownNode 0 "nil expression"

/-- Runs the instructions of a block in the scope itself. -/
def Block.run (invoke : Invoke) (scope : ScopeRef) : Block → Exec Unit
  | .mk _ instrs => runAll invoke scope instrs

/-- Runs a block, if there is one. -/
def runOptional (invoke : Invoke) (scope : ScopeRef) : Option Block → Exec Unit
  | none => return ()
  | some b => b.run invoke scope

/-- Evaluates instructions in order, for their effects. -/
def runAll (invoke : Invoke) (scope : ScopeRef) : List Expr → Exec Unit
  | [] => return ()
  | e :: rest => do
    let _ ← e.eval invoke scope
    runAll invoke scope rest

/-- Evaluates arguments from left to right. -/
def evalAll (invoke : Invoke) (scope : ScopeRef) : List Expr → Exec (List Value)
  | [] => return []
  | e :: rest => do
    let value ← e.eval invoke scope
    let values ← evalAll invoke scope rest
    return value :: values

/-- Evaluates initialisers in order, and sets a field of the object after each. -/
def evalInits (invoke : Invoke) (scope : ScopeRef) (o : ObjectRef) : List Init → Exec Unit
  | [] => return ()
  | .mk name value :: rest => do
    let value ← value.eval invoke scope
    Exec.change fun store => store.setField (.object o) name value
    evalInits invoke scope o rest

end

/-- The limit on nested calls: a positive number, or none. -/
structure DepthLimit where
  /-- The limit; zero and negative numbers mean none. -/
  bound : Int
  deriving DecidableEq, Repr, Inhabited

/-- Whether no call may be made inside so many others. -/
def DepthLimit.reached (limit : DepthLimit) (depth : Nat) : Bool :=
  0 < limit.bound && limit.bound ≤ depth

/-- Binds parameters to the arguments at the same places in a scope, from left to right. -/
def Exec.bindParams (scope : ScopeRef) : List Text → List Value → Exec Unit
  | [], _ => return ()
  | param :: params, arg :: args => do
    Exec.change fun store => store.assign scope param arg
    Exec.bindParams scope params args
  | _ :: _, [] => Exec.crash

/-- Makes the scope of a call: the receiver as `this`, then the parameters, so that a later binding of
a name wins. -/
def Exec.enterScope (closure : ScopeRef) (receiver : Value) (params : List Text)
    (args : List Value) : Exec ScopeRef := do
  let scope ← Exec.make fun store => store.newScope (some closure)
  Exec.change fun store => store.assign scope "this" receiver
  Exec.bindParams scope params args
  return scope

/-- The call of a function of the program.  Its value is that of the `return` that ends the body. -/
def callClosure (invoke : Invoke) (name : Text) (params : List Text) (body : Option Block)
    (closure : ScopeRef) (receiver : Value) (args : List Value) : Exec Value :=
  if args.length ≠ params.length then
    Exec.failWith .arity 0
      (name ++ " expects " ++ toString params.length ++ ", got " ++ toString args.length)
  else do
    let scope ← Exec.enterScope closure receiver params args
    Exec.catchReturn (runOptional invoke scope body)

/-- The call of a function. -/
def callFunction (invoke : Invoke) (f : Function) (receiver : Value) (args : List Value) :
    Exec Value :=
  match f.code with
  | .closure params body scope => callClosure invoke f.name params body scope receiver args
  | .native arity primitive => callNative arity primitive receiver args

/-- The invocation of a function from inside `depth` others.  It is logged, and a failure of the
function that has no line gets that of the invocation. -/
def invoke (limit : DepthLimit) : (fuel depth : Nat) → Invoke
  | fuel, depth, f, receiver, args, line => do
    let f ← Exec.read fun store => store.function f
    if limit.reached depth then
      Exec.failWith .stackExhausted line (f.name ++ ", depth " ++ toString depth)
    else
      match fuel with
      | 0 => Exec.outOfFuel
      | fuel + 1 =>
        Exec.log (.invoke f.name line args.length (depth + 1))
        Exec.atLine line (callFunction (invoke limit fuel (depth + 1)) f receiver args)

end TreeScript
