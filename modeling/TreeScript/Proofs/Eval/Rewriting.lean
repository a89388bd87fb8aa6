import TreeScript.Proofs.Eval.Nodes
import TreeScript.Proofs.Store.Show

/-!
# Rewriting the instructions of a program

A list of instructions can be replaced by another one that runs alike.  If this is done to every list
of a program, at every depth, then the bodies of its functions change as well, and so do the functions
that a run puts into its store.  Nothing else in the course of a run does: the rewritten program, in
the store with rewritten functions, does what the program does, and leads to the store with rewritten
functions again.

So a way of rewriting has only to be justified for one list of instructions, run in one state; what
it does to whole runs is settled here once.

## Main definitions

* `Rewriting` — a way of rewriting lists of instructions, with its justification.
* `Expr.rewrite`, `Program.rewrite` — every list of instructions of a tree, rewritten.
* `Rewriting.Establishes` — a property of nodes that rewriting brings about.
* `Store.rewrite`, `State.rewrite` — the same done to the functions in a store.
* `Exec.RewritesTo` — a step that does what another does, in the rewritten state.

## Main results

* `Rewriting.Establishes.program` — **all nodes of a rewritten program have such a property.**
* `rewritesTo_eval`, `rewritesTo_invoke` — **evaluation follows a rewriting**, and so do invocations.
* `Program.runWith_rewrite` — **a rewritten program runs as the program does.**
-/

namespace TreeScript

/-- A way of rewriting lists of instructions that makes no difference to running them. -/
structure Rewriting where
  /-- The list that replaces a list. -/
  instrs : List Expr → List Expr
  /-- Running it is the same. -/
  run_instrs : ∀ (inv : Invoke) (scope : ScopeRef) (es : List Expr),
    runAll inv scope (instrs es) = runAll inv scope es

/-! ### Trees -/

mutual

/-- An expression with every list of instructions in it rewritten, inner ones first. -/
def Expr.rewrite (g : Rewriting) : Expr → Expr
  | .block b => .block (b.rewrite g)
  | .literal line value => .literal line value
  | .call line callee args => .call line (callee.rewrite g) (rewriteAll g args)
  | .var line name => .var line name
  | .assign line declares name value => .assign line declares name (value.rewrite g)
  | .fn line name params body => .fn line name params (rewriteOptional g body)
  | .ret line value => .ret line (value.rewrite g)
  | .branch line condition onTrue onFalse =>
    .branch line (condition.rewrite g) (rewriteOptional g onTrue) (rewriteOptional g onFalse)
  | .object line fields => .object line (rewriteInits g fields)
  | .field line receiver name => .field line (receiver.rewrite g) name
  | .setField line receiver name value =>
    .setField line (receiver.rewrite g) name (value.rewrite g)
  | .send line receiver name args => .send line (receiver.rewrite g) name (rewriteAll g args)
  | .missing => .missing

/-- A block with its instructions rewritten. -/
def Block.rewrite (g : Rewriting) : Block → Block
  | .mk line instrs => .mk line (g.instrs (rewriteAll g instrs))

/-- A block, if there is one, with its instructions rewritten. -/
def rewriteOptional (g : Rewriting) : Option Block → Option Block
  | none => none
  | some b => some (b.rewrite g)

/-- Expressions, each with the lists of instructions in it rewritten. -/
def rewriteAll (g : Rewriting) : List Expr → List Expr
  | [] => []
  | e :: rest => e.rewrite g :: rewriteAll g rest

/-- Initialisers, each with the lists of instructions in it rewritten. -/
def rewriteInits (g : Rewriting) : List Init → List Init
  | [] => []
  | .mk name value :: rest => .mk name (value.rewrite g) :: rewriteInits g rest

end

/-- A program with every list of instructions in it rewritten. -/
def Program.rewrite (g : Rewriting) (p : Program) : Program :=
  { p with body := rewriteOptional g p.body }

/-! ### The nodes of a rewritten tree -/

/-- A property of nodes that a way of rewriting brings about: only a block can lack it, a rewritten
block has it if the nodes below it do, and rewriting brings in no nodes. -/
structure Rewriting.Establishes (g : Rewriting) (N : Expr → Prop) : Prop where
  /-- Every node has it that is no block. -/
  other : ∀ node, (∀ b, node ≠ .block b) → N node
  /-- A rewritten block has it. -/
  block : ∀ line es, (∀ node ∈ collectAll true es, N node) → N (.block (.mk line (g.instrs es)))
  /-- A rewritten list has no other nodes. -/
  subset : ∀ es, collectAll true (g.instrs es) ⊆ collectAll true es

namespace Rewriting.Establishes

variable {g : Rewriting} {N : Expr → Prop}

mutual

/-- The nodes of a rewritten expression have the property. -/
theorem expr (h : g.Establishes N) : ∀ e : Expr, ∀ node ∈ (e.rewrite g).collect true, N node
  | .block b => by
    rw [Expr.rewrite, Expr.collect]
    exact wholeBlock h b
  | .literal _ _ | .var _ _ | .missing => by
    intro node hnode
    rw [Expr.rewrite, Expr.collect, List.mem_singleton] at hnode
    rw [hnode]
    exact h.other _ (by simp)
  | .call _ callee args => by
    rw [Expr.rewrite, Expr.collect, List.forall_mem_cons, List.forall_mem_append]
    exact ⟨h.other _ (by simp), expr h callee, all h args⟩
  | .assign _ _ _ value | .ret _ value => by
    rw [Expr.rewrite, Expr.collect, List.forall_mem_cons]
    exact ⟨h.other _ (by simp), expr h value⟩
  | .fn _ _ _ body => by
    rw [Expr.rewrite, Expr.collect, List.forall_mem_cons, if_pos rfl]
    exact ⟨h.other _ (by simp), optional h body⟩
  | .branch _ condition onTrue onFalse => by
    rw [Expr.rewrite, Expr.collect, List.forall_mem_cons, List.forall_mem_append,
      List.forall_mem_append]
    exact ⟨h.other _ (by simp), ⟨expr h condition, optional h onTrue⟩, optional h onFalse⟩
  | .object _ fields => by
    rw [Expr.rewrite, Expr.collect, List.forall_mem_cons]
    exact ⟨h.other _ (by simp), inits h fields⟩
  | .field _ receiver _ => by
    rw [Expr.rewrite, Expr.collect, List.forall_mem_cons]
    exact ⟨h.other _ (by simp), expr h receiver⟩
  | .setField _ receiver _ value => by
    rw [Expr.rewrite, Expr.collect, List.forall_mem_cons, List.forall_mem_append]
    exact ⟨h.other _ (by simp), expr h receiver, expr h value⟩
  | .send _ receiver _ args => by
    rw [Expr.rewrite, Expr.collect, List.forall_mem_cons, List.forall_mem_append]
    exact ⟨h.other _ (by simp), expr h receiver, all h args⟩

/-- The nodes of a rewritten block have the property, itself among them. -/
theorem wholeBlock (h : g.Establishes N) : ∀ b : Block, ∀ node ∈ (b.rewrite g).collect true, N node
  | .mk line instrs => by
    have hinner := all h instrs
    rw [Block.rewrite, Block.collect, List.forall_mem_cons]
    exact ⟨h.block line _ hinner, fun node hnode => hinner node (h.subset _ hnode)⟩

/-- The nodes of a rewritten block have the property, if there is one. -/
theorem optional (h : g.Establishes N) :
    ∀ b : Option Block, ∀ node ∈ collectOptional true (rewriteOptional g b), N node
  | none => by
    intro node hnode
    cases hnode
  | some b => by
    rw [rewriteOptional, collectOptional]
    exact wholeBlock h b

/-- The nodes of rewritten expressions have the property. -/
theorem all (h : g.Establishes N) :
    ∀ es : List Expr, ∀ node ∈ collectAll true (rewriteAll g es), N node
  | [] => by
    intro node hnode
    cases hnode
  | e :: rest => by
    rw [rewriteAll, collectAll, List.forall_mem_append]
    exact ⟨expr h e, all h rest⟩

/-- The nodes of rewritten initialisers have the property. -/
theorem inits (h : g.Establishes N) :
    ∀ is : List Init, ∀ node ∈ collectInits true (rewriteInits g is), N node
  | [] => by
    intro node hnode
    cases hnode
  | .mk _ value :: rest => by
    rw [rewriteInits, collectInits, List.forall_mem_append]
    exact ⟨expr h value, inits h rest⟩

end

/-- **All nodes of a rewritten program have the property.** -/
theorem program (h : g.Establishes N) (p : Program) : ∀ node ∈ (p.rewrite g).nodes, N node :=
  optional h p.body

end Rewriting.Establishes

/-! ### Stores -/

/-- A function with its body rewritten, if it has one. -/
def Function.rewrite (g : Rewriting) (f : Function) : Function where
  name := f.name
  code := match f.code with
    | .closure params body scope => .closure params (rewriteOptional g body) scope
    | .native arity p => .native arity p

/-- A store with its functions rewritten. -/
def Store.rewrite (g : Rewriting) (s : Store) : Store :=
  { s with functions := s.functions.map (Function.rewrite g) }

/-- A state with the functions in its store rewritten. -/
def State.rewrite (g : Rewriting) (s : State) : State := s.withStore (s.store.rewrite g)

namespace Store

variable (g : Rewriting) (s : Store)

@[simp] theorem lookup_rewrite (e : ScopeRef) (name : Text) :
    (s.rewrite g).lookup e name = s.lookup e name := rfl

theorem function_rewrite (f : FunctionRef) :
    (s.rewrite g).function f = (s.function f).rewrite g := by
  simp only [function, rewrite, Array.getElem?_map]
  cases s.functions[f.id]? with
  | none => rfl
  | some f => rfl

@[simp] theorem assign_rewrite (e : ScopeRef) (name : Text) (v : Value) :
    (s.rewrite g).assign e name v = (s.assign e name v).rewrite g := rfl

theorem setField_rewrite (holder : Value) (name : Text) (v : Value) :
    (s.rewrite g).setField holder name v = (s.setField holder name v).rewrite g := by
  cases holder <;> rfl

theorem newObject_rewrite :
    (s.rewrite g).newObject = (s.newObject.1, s.newObject.2.rewrite g) := rfl

theorem newFunction_rewrite (f : Function) :
    (s.rewrite g).newFunction (f.rewrite g) =
      ((s.newFunction f).1, (s.newFunction f).2.rewrite g) := by
  simp [newFunction, rewrite]

theorem bindParams_rewrite (e : ScopeRef) (params : List Text) (args : List Value) :
    bindParams (s.rewrite g) e params args = (bindParams s e params args).rewrite g := by
  induction params generalizing s args with
  | nil => rfl
  | cons param params ih =>
    cases args with
    | nil => rfl
    | cons arg args => exact ih (s.assign e param arg) args

theorem openScope_rewrite (closure : ScopeRef) (receiver : Value) (params : List Text)
    (args : List Value) :
    openScope closure receiver params args (s.rewrite g) =
      ((openScope closure receiver params args s).1,
        (openScope closure receiver params args s).2.rewrite g) := by
  refine Prod.ext rfl ?_
  exact bindParams_rewrite g ((s.newScope (some closure)).2.assign _ "this" receiver) _ params args

/-- The text of a value shows a function by its name, which stays. -/
theorem showShallow_rewrite (v : Value) : (s.rewrite g).showShallow v = s.showShallow v := by
  cases v with
  | function f =>
    simp only [showShallow, function_rewrite]
    rfl
  | _ => rfl

@[simp] theorem showValue?_rewrite (v : Value) : (s.rewrite g).showValue? v = s.showValue? v := by
  have hobjects : (s.rewrite g).objects = s.objects := rfl
  exact showValue?_eq_of_shallow hobjects (s.showShallow_rewrite g) v

theorem showValues?_rewrite (vs : List Value) :
    (s.rewrite g).showValues? vs = s.showValues? vs := by
  rw [showValues?, showValues?, mapM_congr fun v _ => s.showValue?_rewrite g v]

/-- The store with which a run starts has no function with a body. -/
theorem rewrite_initial : Store.initial.rewrite g = Store.initial := by
  refine initial_induction (P := fun s => s.rewrite g = s) ?_ fun s name arity p _ hs => ?_
  · simp [rewrite, newScope, assign]
  · have hfunction : Function.rewrite g ⟨name, .native arity p⟩ = ⟨name, .native arity p⟩ := rfl
    have hnew := s.newFunction_rewrite g ⟨name, .native arity p⟩
    rw [hfunction, hs] at hnew
    have hstore : (s.newFunction ⟨name, .native arity p⟩).2.rewrite g =
        (s.newFunction ⟨name, .native arity p⟩).2 := (congrArg Prod.snd hnew).symm
    simp only [define, ← assign_rewrite, hstore]

end Store

/-! ### Steps -/

/-- The step `x'` does in the rewritten state what `x` does, and leads to the rewritten state. -/
def Exec.RewritesTo {α : Type} (g : Rewriting) (x x' : Exec α) : Prop :=
  ∀ s, x' (s.rewrite g) = ((x s).1, (x s).2.rewrite g)

namespace Exec.RewritesTo

variable {α β : Type} {g : Rewriting} {x x' : Exec α}

theorem result (a : α) : RewritesTo g (Exec.result a) (Exec.result a) := fun _ => rfl

theorem failWith (kind : FailureKind) (line : Int) (detail : Text) :
    RewritesTo g (Exec.failWith kind line detail : Exec α) (Exec.failWith kind line detail) :=
  fun _ => rfl

/-- Reading what is the same in the rewritten store. -/
theorem read {f : Store → α} (hf : ∀ s, f (s.rewrite g) = f s) :
    RewritesTo g (Exec.read f) (Exec.read f) :=
  fun s => Prod.ext (congrArg Outcome.done (hf s.store)) rfl

/-- Reading what must be there, and is the same in the rewritten store. -/
theorem demand {f : Store → Option α} (hf : ∀ s, f (s.rewrite g) = f s) :
    RewritesTo g (Exec.demand f) (Exec.demand f) := by
  intro s
  have hread : f (s.rewrite g).store = f s.store := hf s.store
  simp only [Exec.demand, hread]
  cases f s.store <;> rfl

/-- A change of the store that does not look at the bodies of functions. -/
theorem change {f : Store → Store} (hf : ∀ s, f (s.rewrite g) = (f s).rewrite g) :
    RewritesTo g (Exec.change f) (Exec.change f) :=
  fun s => Prod.ext rfl (congrArg s.withStore (hf s.store))

/-- Making something in the store. -/
theorem make {f f' : Store → α × Store}
    (hf : ∀ s, f' (s.rewrite g) = ((f s).1, (f s).2.rewrite g)) :
    RewritesTo g (Exec.make f) (Exec.make f') := by
  intro s
  have hmade : f' (s.rewrite g).store = ((f s.store).1, (f s.store).2.rewrite g) := hf s.store
  simp only [Exec.make, hmade]
  rfl

/-- Sequencing steps that follow a rewriting. -/
theorem andThen {f f' : α → Exec β} (hx : RewritesTo g x x')
    (hf : ∀ a, RewritesTo g (f a) (f' a)) : RewritesTo g (x.andThen f) (x'.andThen f') := by
  intro s
  have hs := hx s
  rcases h : x s with ⟨o, t⟩
  rw [h] at hs
  rcases o.done_or_exit with ⟨a, rfl⟩ | ⟨i, rfl⟩
  · rw [andThen_done h, andThen_done hs]
    exact hf a t
  · rw [andThen_exit h, andThen_exit hs]

theorem catchReturn (hx : RewritesTo g x x') : RewritesTo g x.catchReturn x'.catchReturn := by
  intro s
  rw [catchReturn_apply, catchReturn_apply, hx s]

theorem atLine (hx : RewritesTo g x x') (line : Int) :
    RewritesTo g (x.atLine line) (x'.atLine line) := by
  intro s
  rw [atLine_apply, atLine_apply, hx s]

/-- Reading the text of a value. -/
theorem showValue? (v : Value) :
    RewritesTo g (Exec.demand fun store => store.showValue? v)
      (Exec.demand fun store => store.showValue? v) :=
  demand fun s => s.showValue?_rewrite g v

/-- Writing a variable. -/
theorem assign (scope : ScopeRef) (name : Text) (v : Value) :
    RewritesTo g (Exec.change fun store => store.assign scope name v)
      (Exec.change fun store => store.assign scope name v) :=
  change fun s => s.assign_rewrite g scope name v

/-- Reading a field. -/
theorem fieldOf (receiver : Value) (name : Text) (line : Int) :
    RewritesTo g (Exec.fieldOf receiver name line) (Exec.fieldOf receiver name line) := by
  unfold Exec.fieldOf
  refine andThen (read fun _ => rfl) fun held => ?_
  cases held with
  | some v => exact result v
  | none => exact andThen (showValue? receiver) fun _ => failWith _ _ _

/-- Declaring a variable. -/
theorem declare (line : Int) (scope : ScopeRef) (name : Text) (v : Value) :
    RewritesTo g (Exec.atLine line (Exec.declare scope name v))
      (Exec.atLine line (Exec.declare scope name v)) := by
  intro s
  have hlookup : (s.rewrite g).store.lookup scope name = s.store.lookup scope name := rfl
  rw [declareAt_apply, declareAt_apply, hlookup]
  split <;> rfl

end Exec.RewritesTo

/-! ### Evaluation -/

/-- Two ways of invoking of which one follows the other. -/
def Invoke.RewritesTo (g : Rewriting) (inv inv' : Invoke) : Prop :=
  ∀ f receiver args line, (inv f receiver args line).RewritesTo g (inv' f receiver args line)

section Evaluation

open Exec.RewritesTo

variable {g : Rewriting} {inv inv' : Invoke}

mutual

/-- **Evaluation of an expression follows a rewriting.** -/
theorem rewritesTo_eval (hinv : Invoke.RewritesTo g inv inv') (scope : ScopeRef) : ∀ e : Expr,
    (e.eval inv scope).RewritesTo g ((e.rewrite g).eval inv' scope)
  | .block (.mk _ instrs) => by
    rw [Expr.rewrite, Block.rewrite, Expr.eval, Expr.eval, Block.run, Block.run, g.run_instrs]
    exact andThen (rewritesTo_runAll hinv scope instrs) fun _ => result _
  | .literal _ value => by
    cases value <;> rw [Expr.rewrite, Expr.eval, Expr.eval] <;> exact result _
  | .call line callee args => by
    rw [Expr.rewrite, Expr.eval, Expr.eval]
    refine andThen (rewritesTo_eval hinv scope callee) fun v => ?_
    cases v with
    | function f =>
      exact andThen (rewritesTo_evalAll hinv scope args) fun vs => hinv f .undefined vs line
    | _ => exact andThen (showValue? _) fun _ => failWith _ _ _
  | .var _ name => by
    rw [Expr.rewrite, Expr.eval, Expr.eval]
    exact read fun s => s.lookup_rewrite g scope name
  | .assign line declares name value => by
    rw [Expr.rewrite, Expr.eval, Expr.eval]
    refine andThen (rewritesTo_eval hinv scope value) fun v => ?_
    cases declares with
    | true => exact andThen (declare line scope name v) fun _ => result _
    | false => exact andThen (assign scope name v) fun _ => result _
  | .fn _ name params body => by
    rw [Expr.rewrite, Expr.eval, Expr.eval]
    refine andThen (make fun s => ?_) fun f => ?_
    · exact s.newFunction_rewrite g ⟨shownName name, .closure params body scope⟩
    · cases name with
      | some name => exact andThen (assign scope name _) fun _ => result _
      | none => exact result _
  | .ret line value => by
    rw [Expr.rewrite, Expr.eval, Expr.eval]
    exact andThen (rewritesTo_eval hinv scope value) fun _ _ => rfl
  | .branch _ condition onTrue onFalse => by
    rw [Expr.rewrite, Expr.eval, Expr.eval]
    refine andThen (rewritesTo_eval hinv scope condition) fun v => ?_
    cases v.truthy with
    | true => exact andThen (rewritesTo_runOptional hinv scope onTrue) fun _ => result _
    | false => exact andThen (rewritesTo_runOptional hinv scope onFalse) fun _ => result _
  | .object _ fields => by
    rw [Expr.rewrite, Expr.eval, Expr.eval]
    refine andThen (make fun s => s.newObject_rewrite g) fun o => ?_
    exact andThen (rewritesTo_evalInits hinv scope o fields) fun _ => result _
  | .field line receiver name => by
    rw [Expr.rewrite, Expr.eval, Expr.eval]
    exact andThen (rewritesTo_eval hinv scope receiver) fun r => fieldOf r name line
  | .setField line receiver name value => by
    rw [Expr.rewrite, Expr.eval, Expr.eval]
    refine andThen (rewritesTo_eval hinv scope receiver) fun r => ?_
    refine andThen (fieldOf r name line) fun _ => ?_
    refine andThen (rewritesTo_eval hinv scope value) fun v => ?_
    exact andThen (change fun s => s.setField_rewrite g r name v) fun _ => result _
  | .send line receiver name args => by
    rw [Expr.rewrite, Expr.eval, Expr.eval]
    refine andThen (rewritesTo_eval hinv scope receiver) fun r => ?_
    refine andThen (fieldOf r name line) fun m => ?_
    cases m with
    | function f => exact andThen (rewritesTo_evalAll hinv scope args) fun vs => hinv f r vs line
    | _ => exact andThen (showValue? r) fun _ => failWith _ _ _
  | .missing => by
    rw [Expr.rewrite, Expr.eval, Expr.eval]
    exact failWith _ _ _

/-- Running a block, if there is one, follows a rewriting. -/
theorem rewritesTo_runOptional (hinv : Invoke.RewritesTo g inv inv') (scope : ScopeRef) :
    ∀ b : Option Block,
      (runOptional inv scope b).RewritesTo g (runOptional inv' scope (rewriteOptional g b))
  | none => by
    rw [rewriteOptional, runOptional, runOptional]
    exact result _
  | some (.mk _ instrs) => by
    rw [rewriteOptional, Block.rewrite, runOptional, runOptional, Block.run, Block.run,
      g.run_instrs]
    exact rewritesTo_runAll hinv scope instrs

/-- Running instructions that have been rewritten one by one, but not yet as a list. -/
theorem rewritesTo_runAll (hinv : Invoke.RewritesTo g inv inv') (scope : ScopeRef) :
    ∀ es : List Expr, (runAll inv scope es).RewritesTo g (runAll inv' scope (rewriteAll g es))
  | [] => by
    rw [rewriteAll, runAll, runAll]
    exact result _
  | e :: rest => by
    rw [rewriteAll, runAll, runAll]
    exact andThen (rewritesTo_eval hinv scope e) fun _ => rewritesTo_runAll hinv scope rest

/-- Evaluating arguments follows a rewriting. -/
theorem rewritesTo_evalAll (hinv : Invoke.RewritesTo g inv inv') (scope : ScopeRef) :
    ∀ es : List Expr, (evalAll inv scope es).RewritesTo g (evalAll inv' scope (rewriteAll g es))
  | [] => by
    rw [rewriteAll, evalAll, evalAll]
    exact result _
  | e :: rest => by
    rw [rewriteAll, evalAll, evalAll]
    refine andThen (rewritesTo_eval hinv scope e) fun _ => ?_
    exact andThen (rewritesTo_evalAll hinv scope rest) fun _ => result _

/-- Evaluating initialisers follows a rewriting. -/
theorem rewritesTo_evalInits (hinv : Invoke.RewritesTo g inv inv') (scope : ScopeRef)
    (o : ObjectRef) : ∀ inits : List Init,
      (evalInits inv scope o inits).RewritesTo g (evalInits inv' scope o (rewriteInits g inits))
  | [] => by
    rw [rewriteInits, evalInits, evalInits]
    exact result _
  | .mk name value :: rest => by
    rw [rewriteInits, evalInits, evalInits]
    refine andThen (rewritesTo_eval hinv scope value) fun v => ?_
    exact andThen (change fun s => s.setField_rewrite g (.object o) name v) fun _ =>
      rewritesTo_evalInits hinv scope o rest

end

/-! ### Invocations -/

/-- The call of a native function does not look at the bodies of functions. -/
theorem rewritesTo_callNative (g : Rewriting) (arity : Arity) (p : Primitive) (receiver : Value)
    (args : List Value) :
    (callNative arity p receiver args).RewritesTo g (callNative arity p receiver args) := by
  by_cases h : arity.accepts args.length = true
  · rw [callNative_of_accepts h]
    by_cases hprint : p = .print
    · subst hprint
      intro s
      have hshown : (s.rewrite g).store.showValues? args = s.store.showValues? args :=
        s.store.showValues?_rewrite g args
      have hsink : (s.rewrite g).sink = s.sink := rfl
      rw [print_apply, print_apply, hshown, hsink]
      cases s.store.showValues? args with
      | none => rfl
      | some text =>
        simp only
        cases s.sink.refusal? [] text <;> rfl
    · intro s
      obtain ⟨o, -, ho⟩ := primitiveCall_apply hprint receiver args
      rw [ho, ho]
  · unfold callNative
    rw [if_neg h]
    exact failWith _ _ _

/-- The call of a function follows a rewriting. -/
theorem rewritesTo_callFunction (hinv : Invoke.RewritesTo g inv inv') (f : Function)
    (receiver : Value) (args : List Value) :
    (callFunction inv f receiver args).RewritesTo g
      (callFunction inv' (f.rewrite g) receiver args) := by
  obtain ⟨name, code⟩ := f
  cases code with
  | native arity p => exact rewritesTo_callNative g arity p receiver args
  | closure params body closure =>
    simp only [callFunction, Function.rewrite, callClosure_eq]
    split
    · exact failWith _ _ _
    · refine andThen (make fun s => s.openScope_rewrite g closure receiver params args) ?_
      intro scope
      exact catchReturn (rewritesTo_runOptional hinv scope body)

/-- **Invocations follow a rewriting**, whatever the limit and the fuel. -/
theorem rewritesTo_invoke (g : Rewriting) (limit : DepthLimit) (fuel depth : Nat) :
    Invoke.RewritesTo g (invoke limit fuel depth) (invoke limit fuel depth) := by
  have hfunction : ∀ (s : State) f,
      (s.rewrite g).store.function f = (s.store.function f).rewrite g :=
    fun s f => s.store.function_rewrite g f
  induction fuel generalizing depth with
  | zero =>
    intro f receiver args line s
    have hname : ((s.rewrite g).store.function f).name = (s.store.function f).name := by
      rw [hfunction]
      rfl
    cases h : limit.reached depth with
    | true => rw [invoke_of_reached 0 h, invoke_of_reached 0 h, hname]
    | false => rw [invoke_zero h, invoke_zero h]
  | succ fuel ih =>
    intro f receiver args line s
    have hname : ((s.rewrite g).store.function f).name = (s.store.function f).name := by
      rw [hfunction]
      rfl
    cases h : limit.reached depth with
    | true => rw [invoke_of_reached _ h, invoke_of_reached _ h, hname]
    | false =>
      have hentry : callEntry (s.rewrite g).store f args line depth =
          callEntry s.store f args line depth := by
        simp only [callEntry, hname]
      have hcall := rewritesTo_callFunction (ih (depth + 1)) (s.store.function f) receiver args
      rw [invoke_succ fuel h, invoke_succ fuel h, hentry, hfunction]
      exact hcall.atLine line (s.logged (callEntry s.store f args line depth))

end Evaluation

/-! ### Runs -/

/-- **A rewritten program runs as the program does**: it ends alike, with the same lines printed and
the same entries logged. -/
theorem Program.runWith_rewrite (g : Rewriting) (fuel : Nat) (limit : DepthLimit) (sink : Sink)
    (p : Program) : (p.rewrite g).runWith fuel limit sink = p.runWith fuel limit sink := by
  have hroot := rewritesTo_runOptional (rewritesTo_invoke g limit fuel 0) globalScope p.body
    (State.start sink)
  have hstart : (State.start sink).rewrite g = State.start sink := by
    have hinitial := Store.rewrite_initial g
    simp only [State.rewrite, State.start, State.withStore, hinitial]
  rw [hstart] at hroot
  have hbody : (p.rewrite g).body = rewriteOptional g p.body := rfl
  rw [runWith_eq, runWith_eq, hbody, hroot]
  generalize runOptional (invoke limit fuel 0) globalScope p.body (State.start sink) = r
  -- the value of a `return` that no call has caught has the same text
  have hshown : (r.2.rewrite g).store.showValue? = r.2.store.showValue? :=
    funext fun v => r.2.store.showValue?_rewrite g v
  simp only [Run.ofOutcome, hshown]
  rfl

end TreeScript
