import TreeScript.Eval.Evaluate

/-!
# Evaluation as a congruence

Evaluation hands every invocation over to its parameter `invoke` and does the rest by a few
elementary steps, put one after another.  So a relation between steps that sequencing respects, and
that relates every elementary step to itself, relates evaluation under one `invoke` to evaluation
under another as soon as it relates the two.

This is the one induction over syntax trees that statements about whole runs need when the values
that pass between the parts do not matter to them.

## Main definitions

* `openScope` — the scope of a call, made at once.
* `FailureKind.isPlain` — the kinds of failure that evaluation has by itself.
* `Exec.Elementary` — the steps that evaluation takes by itself.
* `Congruence` — a relation between steps that evaluation respects.

## Main results

* `Congruence.eval`, `Congruence.runAll` — **evaluation respects a congruence.**
* `Congruence.callClosure` — so does the call of a function of the program.
-/

namespace TreeScript

/-! ### The scope of a call -/

/-- Binds parameters to arguments in a scope, from left to right, as far as there are both. -/
def bindParams (s : Store) (scope : ScopeRef) : List Text → List Value → Store
  | param :: params, arg :: args => bindParams (s.assign scope param arg) scope params args
  | _, _ => s

/-- Makes the scope of a call, with the receiver as `this` and the parameters. -/
def openScope (closure : ScopeRef) (receiver : Value) (params : List Text) (args : List Value)
    (s : Store) : ScopeRef × Store :=
  let (scope, s) := s.newScope (some closure)
  (scope, bindParams (s.assign scope "this" receiver) scope params args)

/-- Parameters are bound without a crash if there are no fewer arguments. -/
theorem Exec.bindParams_apply (scope : ScopeRef) {params : List Text} {args : List Value}
    (h : params.length ≤ args.length) (s : State) :
    Exec.bindParams scope params args s =
      (.done (), { s with store := TreeScript.bindParams s.store scope params args }) := by
  induction params generalizing args s with
  | nil => simp only [Exec.bindParams, TreeScript.bindParams]; rfl
  | cons param params ih =>
    cases args with
    | nil => simp at h
    | cons arg args => exact ih (Nat.le_of_succ_le_succ h) _

/-- With an argument for each parameter, the scope of a call is made at once. -/
theorem Exec.enterScope_eq {params : List Text} {args : List Value}
    (h : params.length ≤ args.length) (closure : ScopeRef) (receiver : Value) :
    Exec.enterScope closure receiver params args =
      Exec.make (openScope closure receiver params args) := by
  funext s
  simp only [Exec.enterScope, bind, pure, Exec.andThen, Exec.make, Exec.change,
    Exec.bindParams_apply _ h]
  rfl

/-- A call with the right number of arguments runs the body in the new scope. -/
theorem callClosure_eq {inv : Invoke} {params : List Text} {args : List Value} (name : Text)
    (body : Option Block) (closure : ScopeRef) (receiver : Value) :
    callClosure inv name params body closure receiver args =
      if args.length ≠ params.length then
        Exec.failWith .arity 0
          (name ++ " expects " ++ toString params.length ++ ", got " ++ toString args.length)
      else
        (Exec.make (openScope closure receiver params args)).andThen fun scope =>
          Exec.catchReturn (runOptional inv scope body) := by
  unfold callClosure
  split
  · rfl
  · next h =>
    rw [Exec.enterScope_eq (by omega)]
    rfl

/-! ### Elementary steps -/

/-- Whether a failure of this kind is neither one of the call stack, which belongs to invocations, nor
one of the host. -/
def FailureKind.isPlain : FailureKind → Bool
  | .stackExhausted => false
  | .foreign _ => false
  | _ => true

/-- The steps that evaluation takes by itself, between the evaluation of its parts. -/
inductive Exec.Elementary : {α : Type} → Exec α → Prop
  /-- Giving a result. -/
  | result {α : Type} (a : α) : Exec.Elementary (Exec.result a)
  /-- Reading from the store. -/
  | read {α : Type} (f : Store → α) : Exec.Elementary (Exec.read f)
  /-- Reading from the store what must be there. -/
  | demand {α : Type} (f : Store → Option α) : Exec.Elementary (Exec.demand f)
  /-- Failing. -/
  | refuse {α : Type} {kind : FailureKind} (line : Int) (detail : Text)
      (hkind : kind.isPlain = true) :
      Exec.Elementary (Exec.failWith kind line detail : Exec α)
  /-- Returning. -/
  | unwind {α : Type} (value : Value) (line : Int) :
      Exec.Elementary (Exec.unwind value line : Exec α)
  /-- Writing a variable. -/
  | assign (scope : ScopeRef) (name : Text) (value : Value) :
      Exec.Elementary (Exec.change fun store => store.assign scope name value)
  /-- Declaring a variable. -/
  | declare (line : Int) (scope : ScopeRef) (name : Text) (value : Value) :
      Exec.Elementary (Exec.atLine line (Exec.declare scope name value))
  /-- Writing a field. -/
  | setField (holder : Value) (name : Text) (value : Value) :
      Exec.Elementary (Exec.change fun store => store.setField holder name value)
  /-- Making a function of the program. -/
  | makeFunction (name : Text) (params : List Text) (body : Option Block) (scope : ScopeRef) :
      Exec.Elementary (Exec.make fun store => store.newFunction ⟨name, .closure params body scope⟩)
  /-- Making an object. -/
  | makeObject : Exec.Elementary (Exec.make fun store => store.newObject)
  /-- Making the scope of a call. -/
  | openScope (closure : ScopeRef) (receiver : Value) (params : List Text) (args : List Value) :
      Exec.Elementary (Exec.make (openScope closure receiver params args))

/-- A relation between steps that evaluation respects. -/
structure Congruence where
  /-- The relation. -/
  Rel : {α : Type} → Exec α → Exec α → Prop
  /-- Elementary steps are related to themselves. -/
  elementary {α : Type} {x : Exec α} : x.Elementary → Rel x x
  /-- Sequencing respects the relation. -/
  andThen {α β : Type} {x y : Exec α} {f g : α → Exec β} :
    Rel x y → (∀ a, Rel (f a) (g a)) → Rel (x.andThen f) (y.andThen g)
  /-- Catching a `return` respects the relation. -/
  catchReturn {α : Type} {x y : Exec α} : Rel x y → Rel x.catchReturn y.catchReturn

namespace Congruence

variable (R : Congruence)

/-- Reading a field is composed of elementary steps. -/
theorem fieldOf (receiver : Value) (name : Text) (line : Int) :
    R.Rel (Exec.fieldOf receiver name line) (Exec.fieldOf receiver name line) := by
  unfold Exec.fieldOf
  refine R.andThen (R.elementary (.read _)) fun held => ?_
  cases held with
  | some value => exact R.elementary (.result value)
  | none => exact R.andThen (R.elementary (.demand _)) fun _ => R.elementary (.refuse _ _ rfl)

/-- Two ways of invoking whose steps are related. -/
def RelInvoke (inv inv' : Invoke) : Prop :=
  ∀ f receiver args line, R.Rel (inv f receiver args line) (inv' f receiver args line)

variable {R} {inv inv' : Invoke}

mutual

/-- **Evaluation of an expression respects a congruence.** -/
theorem eval (hinv : R.RelInvoke inv inv') (scope : ScopeRef) : ∀ e : Expr,
    R.Rel (e.eval inv scope) (e.eval inv' scope)
  | .block (.mk _ instrs) => by
    rw [Expr.eval, Expr.eval, Block.run, Block.run]
    exact R.andThen (runAll hinv scope instrs) fun _ => R.elementary (.result _)
  | .literal _ value => by
    cases value <;> rw [Expr.eval, Expr.eval] <;> exact R.elementary (.result _)
  | .call line callee args => by
    rw [Expr.eval, Expr.eval]
    refine R.andThen (eval hinv scope callee) fun v => ?_
    cases v with
    | function f => exact R.andThen (evalAll hinv scope args) fun vs => hinv f .undefined vs line
    | _ =>
      exact R.andThen (R.elementary (.demand _)) fun _ => R.elementary (.refuse _ _ rfl)
  | .var _ name => by
    rw [Expr.eval, Expr.eval]
    exact R.elementary (.read _)
  | .assign line declares name value => by
    rw [Expr.eval, Expr.eval]
    refine R.andThen (eval hinv scope value) fun v => ?_
    cases declares with
    | true => exact R.andThen (R.elementary (.declare ..)) fun _ => R.elementary (.result _)
    | false => exact R.andThen (R.elementary (.assign ..)) fun _ => R.elementary (.result _)
  | .fn _ name params body => by
    rw [Expr.eval, Expr.eval]
    refine R.andThen (R.elementary (.makeFunction ..)) fun f => ?_
    cases name with
    | some name => exact R.andThen (R.elementary (.assign ..)) fun _ => R.elementary (.result _)
    | none => exact R.elementary (.result _)
  | .ret line value => by
    rw [Expr.eval, Expr.eval]
    exact R.andThen (eval hinv scope value) fun v => R.elementary (.unwind v line)
  | .branch _ condition onTrue onFalse => by
    rw [Expr.eval, Expr.eval]
    refine R.andThen (eval hinv scope condition) fun v => ?_
    cases v.truthy with
    | true => exact R.andThen (runOptional hinv scope onTrue) fun _ => R.elementary (.result _)
    | false => exact R.andThen (runOptional hinv scope onFalse) fun _ => R.elementary (.result _)
  | .object _ inits => by
    rw [Expr.eval, Expr.eval]
    refine R.andThen (R.elementary .makeObject) fun o => ?_
    exact R.andThen (evalInits hinv scope o inits) fun _ => R.elementary (.result _)
  | .field line receiver name => by
    rw [Expr.eval, Expr.eval]
    exact R.andThen (eval hinv scope receiver) fun r => R.fieldOf r name line
  | .setField line receiver name value => by
    rw [Expr.eval, Expr.eval]
    refine R.andThen (eval hinv scope receiver) fun r => ?_
    refine R.andThen (R.fieldOf r name line) fun _ => ?_
    refine R.andThen (eval hinv scope value) fun v => ?_
    exact R.andThen (R.elementary (.setField r name v)) fun _ => R.elementary (.result _)
  | .send line receiver name args => by
    rw [Expr.eval, Expr.eval]
    refine R.andThen (eval hinv scope receiver) fun r => ?_
    refine R.andThen (R.fieldOf r name line) fun m => ?_
    cases m with
    | function f => exact R.andThen (evalAll hinv scope args) fun vs => hinv f r vs line
    | _ =>
      exact R.andThen (R.elementary (.demand _)) fun _ => R.elementary (.refuse _ _ rfl)
  | .missing => by
    rw [Expr.eval, Expr.eval]
    exact R.elementary (.refuse _ _ rfl)

/-- Running a block, if there is one, respects a congruence. -/
theorem runOptional (hinv : R.RelInvoke inv inv') (scope : ScopeRef) : ∀ b : Option Block,
    R.Rel (TreeScript.runOptional inv scope b) (TreeScript.runOptional inv' scope b)
  | none => by
    rw [TreeScript.runOptional, TreeScript.runOptional]
    exact R.elementary (.result _)
  | some (.mk _ instrs) => by
    rw [TreeScript.runOptional, TreeScript.runOptional, Block.run, Block.run]
    exact runAll hinv scope instrs

/-- **Running instructions respects a congruence.** -/
theorem runAll (hinv : R.RelInvoke inv inv') (scope : ScopeRef) : ∀ es : List Expr,
    R.Rel (TreeScript.runAll inv scope es) (TreeScript.runAll inv' scope es)
  | [] => by
    rw [TreeScript.runAll, TreeScript.runAll]
    exact R.elementary (.result _)
  | e :: rest => by
    rw [TreeScript.runAll, TreeScript.runAll]
    exact R.andThen (eval hinv scope e) fun _ => runAll hinv scope rest

/-- Evaluating arguments respects a congruence. -/
theorem evalAll (hinv : R.RelInvoke inv inv') (scope : ScopeRef) : ∀ es : List Expr,
    R.Rel (TreeScript.evalAll inv scope es) (TreeScript.evalAll inv' scope es)
  | [] => by
    rw [TreeScript.evalAll, TreeScript.evalAll]
    exact R.elementary (.result _)
  | e :: rest => by
    rw [TreeScript.evalAll, TreeScript.evalAll]
    refine R.andThen (eval hinv scope e) fun _ => ?_
    exact R.andThen (evalAll hinv scope rest) fun _ => R.elementary (.result _)

/-- Evaluating initialisers respects a congruence. -/
theorem evalInits (hinv : R.RelInvoke inv inv') (scope : ScopeRef) (o : ObjectRef) :
    ∀ inits : List Init,
      R.Rel (TreeScript.evalInits inv scope o inits) (TreeScript.evalInits inv' scope o inits)
  | [] => by
    rw [TreeScript.evalInits, TreeScript.evalInits]
    exact R.elementary (.result _)
  | .mk name value :: rest => by
    rw [TreeScript.evalInits, TreeScript.evalInits]
    refine R.andThen (eval hinv scope value) fun v => ?_
    exact R.andThen (R.elementary (.setField (.object o) name v)) fun _ =>
      evalInits hinv scope o rest

end

/-- **The call of a function of the program respects a congruence.** -/
theorem callClosure (hinv : R.RelInvoke inv inv') (name : Text) (params : List Text)
    (body : Option Block) (closure : ScopeRef) (receiver : Value) (args : List Value) :
    R.Rel (TreeScript.callClosure inv name params body closure receiver args)
      (TreeScript.callClosure inv' name params body closure receiver args) := by
  rw [callClosure_eq, callClosure_eq]
  split
  · exact R.elementary (.refuse _ _ rfl)
  · exact R.andThen (R.elementary (.openScope ..)) fun scope =>
      R.catchReturn (runOptional hinv scope body)

end Congruence

end TreeScript
