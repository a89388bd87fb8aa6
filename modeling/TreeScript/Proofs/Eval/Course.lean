import Mathlib.Logic.Relation
import TreeScript.Proofs.Eval.Ordinary

/-!
# The course of an evaluation

A run sets out to do one thing after another: to evaluate an expression, the instructions of a
block, the arguments of a call, the initialisers of an object, or to invoke a function.  Each of
these tasks asks for others, its parts, and does something itself in between.  The evaluator gives
the result of a task; this module says how it comes about: which tasks are entered in the course of
another and in which state, and which changes of state a task makes itself.

A task is entered only if everything before it in the same task gave a result, and every check made
before it was passed.  The states are those the evaluator itself leads to.

## Main definitions

* `Task`, `Task.exec` — what a run sets out to do, and what the evaluator does about it.
* `Task.Enters` — the parts of a task, with the states they start in.
* `Point` — a task about to be done: inside how many calls, with how much fuel, in which state.
* `Point.Enters`, `Point.Reaches` — a point that another leads to, directly or in the end.
* `Point.Acts` — a change of state that a task makes itself.
* `Point.Passes` — a state that occurs in the course of a point.

## Main results

* `Point.enters_wellFounded` — **no point leads on for ever**: fuel, then the size of the tree,
  shrinks.
* `Point.steps_run` — **the course of a point is a sequence of changes made by the points it
  reaches.**
* `Point.invariant_of_reaches` — **an invariant holds throughout**, if every change keeps it.
-/

namespace TreeScript

/-! ### Tasks -/

/-- Something that a run sets out to do. -/
inductive Task
  /-- To evaluate an expression in a scope. -/
  | expr (scope : ScopeRef) (e : Expr)
  /-- To run instructions in a scope. -/
  | instrs (scope : ScopeRef) (es : List Expr)
  /-- To evaluate arguments in a scope. -/
  | args (scope : ScopeRef) (es : List Expr)
  /-- To evaluate initialisers in a scope, and to set fields of an object to what they give. -/
  | inits (scope : ScopeRef) (o : ObjectRef) (inits : List Init)
  /-- To invoke a function. -/
  | call (f : FunctionRef) (receiver : Value) (args : List Value) (line : Int)

namespace Task

/-- The kind of result of a task. -/
def Result : Task → Type
  | .expr _ _ => Value
  | .instrs _ _ => Unit
  | .args _ _ => List Value
  | .inits _ _ _ => Unit
  | .call _ _ _ _ => Value

/-- What the evaluator does about a task. -/
def exec (inv : Invoke) : (t : Task) → Exec t.Result
  | .expr scope e => e.eval inv scope
  | .instrs scope es => runAll inv scope es
  | .args scope es => evalAll inv scope es
  | .inits scope o fs => evalInits inv scope o fs
  | .call f receiver vs line => inv f receiver vs line

/-- The size of the tree that a task works on. -/
noncomputable def weight : Task → Nat
  | .expr _ e => sizeOf e
  | .instrs _ es => sizeOf es
  | .args _ es => sizeOf es
  | .inits _ _ fs => sizeOf fs
  | .call _ _ _ _ => 0

/-- `Enters inv t s t' s'`: the task `t`, begun in the state `s`, sets out to do `t'` in the state
`s'` as one of its parts. -/
inductive Enters (inv : Invoke) : Task → State → Task → State → Prop
  /-- The instructions of a nested block. -/
  | block {scope line es s} :
      Enters inv (.expr scope (.block (.mk line es))) s (.instrs scope es) s
  /-- The callee of a call. -/
  | callee {scope line callee args s} :
      Enters inv (.expr scope (.call line callee args)) s (.expr scope callee) s
  /-- The arguments of a call, once the callee is known to be a function. -/
  | callArgs {scope line callee args s f t}
      (hcallee : callee.eval inv scope s = (.done (.function f), t)) :
      Enters inv (.expr scope (.call line callee args)) s (.args scope args) t
  /-- The invocation of a call. -/
  | callInvoke {scope line callee args s f t vs u}
      (hcallee : callee.eval inv scope s = (.done (.function f), t))
      (hargs : evalAll inv scope args t = (.done vs, u)) :
      Enters inv (.expr scope (.call line callee args)) s (.call f .undefined vs line) u
  /-- The value that is assigned. -/
  | assigned {scope line declares name value s} :
      Enters inv (.expr scope (.assign line declares name value)) s (.expr scope value) s
  /-- The value that is returned. -/
  | returned {scope line value s} :
      Enters inv (.expr scope (.ret line value)) s (.expr scope value) s
  /-- The condition of a conditional. -/
  | condition {scope line condition onTrue onFalse s} :
      Enters inv (.expr scope (.branch line condition onTrue onFalse)) s (.expr scope condition) s
  /-- The first branch of a conditional, if it is selected. -/
  | onTrue {scope line condition line' es onFalse s v t}
      (hcondition : condition.eval inv scope s = (.done v, t)) (hv : v.truthy = true) :
      Enters inv (.expr scope (.branch line condition (some (.mk line' es)) onFalse)) s
        (.instrs scope es) t
  /-- The second branch of a conditional, if it is selected. -/
  | onFalse {scope line condition onTrue line' es s v t}
      (hcondition : condition.eval inv scope s = (.done v, t)) (hv : v.truthy = false) :
      Enters inv (.expr scope (.branch line condition onTrue (some (.mk line' es)))) s
        (.instrs scope es) t
  /-- The initialisers of an object, once it is made. -/
  | initialisers {scope line inits} {s : State} :
      Enters inv (.expr scope (.object line inits)) s (.inits scope s.store.newObject.1 inits)
        (s.withStore s.store.newObject.2)
  /-- The receiver of a field that is read. -/
  | fieldReceiver {scope line receiver name s} :
      Enters inv (.expr scope (.field line receiver name)) s (.expr scope receiver) s
  /-- The receiver of a field that is written. -/
  | setFieldReceiver {scope line receiver name value s} :
      Enters inv (.expr scope (.setField line receiver name value)) s (.expr scope receiver) s
  /-- The value of a field that is written, once the receiver is known to have fields. -/
  | setFieldValue {scope line receiver name value s r t held}
      (hreceiver : receiver.eval inv scope s = (.done r, t))
      (hfield : t.store.field? r name = some held) :
      Enters inv (.expr scope (.setField line receiver name value)) s (.expr scope value) t
  /-- The receiver of a method. -/
  | sendReceiver {scope line receiver name args s} :
      Enters inv (.expr scope (.send line receiver name args)) s (.expr scope receiver) s
  /-- The arguments of a method, once the field is known to hold a function. -/
  | sendArgs {scope line receiver name args s r t f}
      (hreceiver : receiver.eval inv scope s = (.done r, t))
      (hfield : t.store.field? r name = some (.function f)) :
      Enters inv (.expr scope (.send line receiver name args)) s (.args scope args) t
  /-- The invocation of a method. -/
  | sendInvoke {scope line receiver name args s r t f vs u}
      (hreceiver : receiver.eval inv scope s = (.done r, t))
      (hfield : t.store.field? r name = some (.function f))
      (hargs : evalAll inv scope args t = (.done vs, u)) :
      Enters inv (.expr scope (.send line receiver name args)) s (.call f r vs line) u
  /-- The first instruction. -/
  | firstInstr {scope e rest s} :
      Enters inv (.instrs scope (e :: rest)) s (.expr scope e) s
  /-- The instructions after the first. -/
  | restInstrs {scope e rest s v t} (hfirst : e.eval inv scope s = (.done v, t)) :
      Enters inv (.instrs scope (e :: rest)) s (.instrs scope rest) t
  /-- The first argument. -/
  | firstArg {scope e rest s} :
      Enters inv (.args scope (e :: rest)) s (.expr scope e) s
  /-- The arguments after the first. -/
  | restArgs {scope e rest s v t} (hfirst : e.eval inv scope s = (.done v, t)) :
      Enters inv (.args scope (e :: rest)) s (.args scope rest) t
  /-- The first initialiser. -/
  | firstInit {scope o name e rest s} :
      Enters inv (.inits scope o (.mk name e :: rest)) s (.expr scope e) s
  /-- The initialisers after the first, once the field is set. -/
  | restInits {scope o name e rest s v} {t : State} (hfirst : e.eval inv scope s = (.done v, t)) :
      Enters inv (.inits scope o (.mk name e :: rest)) s (.inits scope o rest)
        (t.withStore (t.store.setField (.object o) name v))

/-- A part works on a smaller tree. -/
theorem Enters.weight_lt {inv : Invoke} {t t' : Task} {s s' : State} (h : Enters inv t s t' s') :
    t'.weight < t.weight := by
  cases h <;> simp only [weight, Expr.call.sizeOf_spec, Expr.block.sizeOf_spec,
    Expr.assign.sizeOf_spec, Expr.ret.sizeOf_spec, Expr.branch.sizeOf_spec,
    Expr.object.sizeOf_spec, Expr.field.sizeOf_spec, Expr.setField.sizeOf_spec,
    Expr.send.sizeOf_spec, Block.mk.sizeOf_spec, Init.mk.sizeOf_spec, List.cons.sizeOf_spec,
    Option.some.sizeOf_spec] <;> omega

end Task

/-! ### Points -/

/-- A task about to be done. -/
structure Point where
  /-- How many further nested calls are allowed for. -/
  fuel : Nat
  /-- Inside how many calls it is done. -/
  depth : Nat
  /-- What is to be done. -/
  task : Task
  /-- The state it starts in. -/
  state : State

namespace Point

variable (limit : DepthLimit)

/-- What the evaluator does at a point. -/
def run (p : Point) : Outcome p.task.Result × State :=
  p.task.exec (invoke limit p.fuel p.depth) p.state

/-- A point that another leads to directly: one for a part of the task, or, from an invocation, the
one for the body of the function, inside one more call. -/
inductive Enters : Point → Point → Prop
  /-- A part of the task. -/
  | part {fuel depth t s t' s'} (h : t.Enters (invoke limit fuel depth) s t' s') :
      Enters ⟨fuel, depth, t, s⟩ ⟨fuel, depth, t', s'⟩
  /-- The body of the function that is invoked, in a new scope. -/
  | body {fuel depth f receiver args line params line' es closure} {s : State}
      (hreached : limit.reached depth = false)
      (hcode : (s.store.function f).code = .closure params (some (.mk line' es)) closure)
      (hargs : args.length = params.length) :
      Enters ⟨fuel + 1, depth, .call f receiver args line, s⟩
        ⟨fuel, depth + 1, .instrs (openScope closure receiver params args s.store).1 es,
          (s.logged (callEntry s.store f args line depth)).withStore
            (openScope closure receiver params args s.store).2⟩

/-- The points that a point leads to in the end, itself among them. -/
def Reaches : Point → Point → Prop := Relation.ReflTransGen (Enters limit)

/-- **No point leads on for ever**: the body of a function is entered with less fuel, and any other
part has a smaller tree. -/
theorem enters_wellFounded : WellFounded fun q p => Enters limit p q := by
  refine Subrelation.wf ?_ (InvImage.wf (fun p : Point => (p.fuel, p.task.weight))
    (Prod.lex Nat.lt_wfRel Nat.lt_wfRel).wf)
  intro q p h
  cases h with
  | part h => exact Prod.Lex.right _ h.weight_lt
  | body _ _ _ => exact Prod.Lex.left _ _ (Nat.lt_succ_self _)

/-! ### Changes of state -/

/-- `Acts p s t`: in its course, between the tasks that it enters, the task at the point `p` takes
the state `s` to the state `t` by a change of its own. -/
inductive Acts : Point → State → State → Prop
  /-- A variable is written. -/
  | assign {fuel depth scope line name value s v} {t : State}
      (hvalue : value.eval (invoke limit fuel depth) scope s = (.done v, t)) :
      Acts ⟨fuel, depth, .expr scope (.assign line false name value), s⟩ t
        (t.withStore (t.store.assign scope name v))
  /-- A variable is declared. -/
  | declare {fuel depth scope line name value s v} {t : State}
      (hvalue : value.eval (invoke limit fuel depth) scope s = (.done v, t))
      (hfree : t.store.lookup scope name = .undefined) :
      Acts ⟨fuel, depth, .expr scope (.assign line true name value), s⟩ t
        (t.withStore (t.store.assign scope name v))
  /-- A function is made. -/
  | makeFunction {fuel depth scope line name params body} {s : State} :
      Acts ⟨fuel, depth, .expr scope (.fn line name params body), s⟩ s
        (s.withStore (s.store.newFunction ⟨shownName name, .closure params body scope⟩).2)
  /-- A function that was made is bound to its name. -/
  | nameFunction {fuel depth scope line name params body} {s : State} {f : FunctionRef}
      {store : Store}
      (hmade : s.store.newFunction ⟨shownName (some name), .closure params body scope⟩ =
        (f, store)) :
      Acts ⟨fuel, depth, .expr scope (.fn line (some name) params body), s⟩ (s.withStore store)
        (s.withStore (store.assign scope name (.function f)))
  /-- An object is made, before its initialisers are evaluated. -/
  | makeObject {fuel depth scope line inits} {s : State} :
      Acts ⟨fuel, depth, .expr scope (.object line inits), s⟩ s (s.withStore s.store.newObject.2)
  /-- A field is set to what its initialiser gave. -/
  | initField {fuel depth scope o name e rest s v} {t : State}
      (hfirst : e.eval (invoke limit fuel depth) scope s = (.done v, t)) :
      Acts ⟨fuel, depth, .inits scope o (.mk name e :: rest), s⟩ t
        (t.withStore (t.store.setField (.object o) name v))
  /-- A field is written. -/
  | setField {fuel depth scope line receiver name value s r held v} {t u : State}
      (hreceiver : receiver.eval (invoke limit fuel depth) scope s = (.done r, t))
      (hfield : t.store.field? r name = some held)
      (hvalue : value.eval (invoke limit fuel depth) scope t = (.done v, u)) :
      Acts ⟨fuel, depth, .expr scope (.setField line receiver name value), s⟩ u
        (u.withStore (u.store.setField r name v))
  /-- An invocation is logged. -/
  | logCall {fuel depth f receiver args line} {s : State} (hreached : limit.reached depth = false) :
      Acts ⟨fuel + 1, depth, .call f receiver args line, s⟩ s
        (s.logged (callEntry s.store f args line depth))
  /-- The scope of a call is made. -/
  | openScope {fuel depth f receiver args line params body closure} {s : State}
      (hreached : limit.reached depth = false)
      (hcode : (s.store.function f).code = .closure params body closure)
      (hargs : args.length = params.length) :
      Acts ⟨fuel + 1, depth, .call f receiver args line, s⟩
        (s.logged (callEntry s.store f args line depth))
        ((s.logged (callEntry s.store f args line depth)).withStore
          (openScope closure receiver params args s.store).2)
  /-- A text is logged and given to the sink. -/
  | logPrint {fuel depth f receiver args line arity text} {s : State}
      (hreached : limit.reached depth = false)
      (hcode : (s.store.function f).code = .native arity .print)
      (hargs : arity.accepts args.length = true)
      (htext : s.store.showValues? args = some text) :
      Acts ⟨fuel + 1, depth, .call f receiver args line, s⟩
        (s.logged (callEntry s.store f args line depth))
        ((s.logged (callEntry s.store f args line depth)).offered text)
  /-- A text that the sink accepts is printed. -/
  | print {fuel depth f receiver args line arity text} {s : State}
      (hreached : limit.reached depth = false)
      (hcode : (s.store.function f).code = .native arity .print)
      (hargs : arity.accepts args.length = true)
      (htext : s.store.showValues? args = some text) (hsink : s.sink.refusal? [] text = none) :
      Acts ⟨fuel + 1, depth, .call f receiver args line, s⟩
        ((s.logged (callEntry s.store f args line depth)).offered text)
        { (s.logged (callEntry s.store f args line depth)).offered text with
          printed := s.printed.push text }

/-- A change of state made in the course of a point, by itself or by a point that it reaches. -/
def Steps (p : Point) (s t : State) : Prop := ∃ q, Reaches limit p q ∧ Acts limit q s t

variable {limit}

theorem Acts.steps {p : Point} {s t : State} (h : Acts limit p s t) : Steps limit p s t :=
  ⟨p, .refl, h⟩

/-- The state in which a part is entered comes about by the parts before it and by the changes of the
task itself: whatever these keep still holds there. -/
theorem state_of_enters {S : State → Prop} {fuel depth : Nat} {t t' : Task} {s s' : State}
    (h : t.Enters (invoke limit fuel depth) s t' s') (hs : S s)
    (hrun : ∀ t'' s'', t.Enters (invoke limit fuel depth) s t'' s'' → S s'' →
      S (t''.exec (invoke limit fuel depth) s'').2)
    (hact : ∀ {u u'}, Acts limit ⟨fuel, depth, t, s⟩ u u' → S u → S u') : S s' := by
  have hdone : ∀ {t'' s'' a u}, t.Enters (invoke limit fuel depth) s t'' s'' → S s'' →
      t''.exec (invoke limit fuel depth) s'' = (.done a, u) → S u := by
    intro t'' s'' a u henter hs'' hu
    have := hrun t'' s'' henter hs''
    rwa [hu] at this
  cases h with
  | callArgs hcallee => exact hdone .callee hs hcallee
  | callInvoke hcallee hargs =>
    exact hdone (.callArgs hcallee) (hdone .callee hs hcallee) hargs
  | onTrue hcondition _ | onFalse hcondition _ => exact hdone .condition hs hcondition
  | initialisers => exact hact .makeObject hs
  | setFieldValue hreceiver _ => exact hdone .setFieldReceiver hs hreceiver
  | sendArgs hreceiver _ => exact hdone .sendReceiver hs hreceiver
  | sendInvoke hreceiver hfield hargs =>
    exact hdone (.sendArgs hreceiver hfield) (hdone .sendReceiver hs hreceiver) hargs
  | restInstrs hfirst => exact hdone .firstInstr hs hfirst
  | restArgs hfirst => exact hdone .firstArg hs hfirst
  | restInits hfirst => exact hact (.initField hfirst) (hdone .firstInit hs hfirst)
  | _ => exact hs

/-- What happens in the course of a part happens in the course of the whole. -/
theorem Enters.steps {p q : Point} (h : Enters limit p q) {s t : State}
    (hst : Relation.ReflTransGen (Steps limit q) s t) :
    Relation.ReflTransGen (Steps limit p) s t := by
  refine Relation.ReflTransGen.mono ?_ _ _ hst
  rintro a b ⟨r, hr, hact⟩
  exact ⟨r, .head h hr, hact⟩

end Point

/-- Sequencing steps whose changes of state are known. -/
theorem Exec.andThen_path {R : State → State → Prop} {α β : Type} {x : Exec α} {f : α → Exec β}
    {s : State} (hx : Relation.ReflTransGen R s (x s).2)
    (hf : ∀ a t, x s = (.done a, t) → Relation.ReflTransGen R t (f a t).2) :
    Relation.ReflTransGen R s (x.andThen f s).2 := by
  rcases h : x s with ⟨o, t⟩
  rw [h] at hx
  rcases o.done_or_exit with ⟨a, rfl⟩ | ⟨i, rfl⟩
  · rw [andThen_done h]
    exact hx.trans (hf a t h)
  · rw [andThen_exit h]
    exact hx

/-- Reading what must be there changes nothing. -/
theorem Exec.demand_path {R : State → State → Prop} {α : Type} (f : Store → Option α) (s : State) :
    Relation.ReflTransGen R s (Exec.demand f s).2 := by
  unfold demand
  cases f s.store <;> exact .refl

/-- A block that may be absent changes what its instructions change. -/
theorem runOptional_path {R : State → State → Prop} {inv : Invoke} {scope : ScopeRef}
    {b : Option Block} {s : State}
    (hb : ∀ line es, b = some (.mk line es) →
      Relation.ReflTransGen R s (runAll inv scope es s).2) :
    Relation.ReflTransGen R s (runOptional inv scope b s).2 := by
  cases b with
  | none => rw [runOptional]; exact .refl
  | some b =>
    obtain ⟨line, es⟩ := b
    rw [runOptional, Block.run]
    exact hb line es rfl

/-- Reading a field gives a result only if there is one to read. -/
theorem Exec.field?_of_fieldOf {receiver : Value} {name : Text} {line : Int} {s t : State}
    {v : Value} (h : Exec.fieldOf receiver name line s = (.done v, t)) :
    s.store.field? receiver name = some v ∧ t = s := by
  rw [fieldOf_apply] at h
  cases hf : s.store.field? receiver name with
  | none => simp [hf] at h
  | some held =>
    simp only [hf, Prod.mk.injEq, Outcome.done.injEq] at h
    exact ⟨by rw [h.1], h.2.symm⟩

/-- Reading a field does not change the state. -/
theorem Exec.fieldOf_snd (receiver : Value) (name : Text) (line : Int) (s : State) :
    (Exec.fieldOf receiver name line s).2 = s := by
  rw [fieldOf_apply]
  cases s.store.field? receiver name <;> rfl

namespace Point

variable {limit : DepthLimit}

open Relation in
/-- The course of an evaluation, given that of its parts. -/
theorem steps_expr {fuel depth : Nat} {scope : ScopeRef} {s : State} (e : Expr)
    (hsub : ∀ q, Enters limit ⟨fuel, depth, .expr scope e, s⟩ q →
      ReflTransGen (Steps limit ⟨fuel, depth, .expr scope e, s⟩) q.state (q.run limit).2) :
    ReflTransGen (Steps limit ⟨fuel, depth, .expr scope e, s⟩) s
      (e.eval (invoke limit fuel depth) scope s).2 := by
  cases e with
  | block b =>
    obtain ⟨line, es⟩ := b
    rw [Expr.eval, Block.run]
    exact Exec.andThen_path (hsub _ (.part .block)) fun _ _ _ => .refl
  | literal line value =>
    cases value <;> rw [Expr.eval] <;> exact .refl
  | call line callee args =>
    rw [Expr.eval]
    refine Exec.andThen_path (hsub _ (.part .callee)) fun v t hv => ?_
    cases v with
    | function f =>
      refine Exec.andThen_path (hsub _ (.part (.callArgs hv))) fun vs u hvs => ?_
      exact hsub _ (.part (.callInvoke hv hvs))
    | _ => exact Exec.andThen_path (Exec.demand_path _ t) fun _ _ _ => .refl
  | var line name => rw [Expr.eval]; exact .refl
  | assign line declares name value =>
    rw [Expr.eval]
    refine Exec.andThen_path (hsub _ (.part .assigned)) fun v t hv => ?_
    cases declares with
    | true =>
      refine Exec.andThen_path ?_ fun _ _ _ => .refl
      rw [Exec.declareAt_apply]
      split
      · next hfree => exact .single (Acts.declare hv hfree).steps
      · exact .refl
    | false =>
      simp only [Bool.false_eq_true, if_false]
      exact Exec.andThen_path (.single (Acts.assign hv).steps) fun _ _ _ => .refl
  | fn line name params body =>
    rw [Expr.eval]
    refine Exec.andThen_path (.single Acts.makeFunction.steps) fun f t hf => ?_
    cases name with
    | none => exact .refl
    | some name =>
      refine Exec.andThen_path ?_ fun _ _ _ => .refl
      rw [Exec.make] at hf
      cases hf
      exact .single (Acts.nameFunction rfl).steps
  | ret line value =>
    rw [Expr.eval]
    exact Exec.andThen_path (hsub _ (.part .returned)) fun _ _ _ => .refl
  | branch line condition onTrue onFalse =>
    rw [Expr.eval]
    refine Exec.andThen_path (hsub _ (.part .condition)) fun v t hv => ?_
    cases hb : v.truthy with
    | true =>
      refine Exec.andThen_path (runOptional_path ?_) fun _ _ _ => .refl
      rintro line' es rfl
      exact hsub _ (.part (.onTrue hv hb))
    | false =>
      refine Exec.andThen_path (runOptional_path ?_) fun _ _ _ => .refl
      rintro line' es rfl
      exact hsub _ (.part (.onFalse hv hb))
  | object line inits =>
    rw [Expr.eval]
    refine Exec.andThen_path (.single Acts.makeObject.steps) fun o t ho => ?_
    rw [Exec.make] at ho
    cases ho
    exact Exec.andThen_path (hsub _ (.part .initialisers)) fun _ _ _ => .refl
  | field line receiver name =>
    rw [Expr.eval]
    refine Exec.andThen_path (hsub _ (.part .fieldReceiver)) fun r t hr => ?_
    rw [Exec.fieldOf_snd]
  | setField line receiver name value =>
    rw [Expr.eval]
    refine Exec.andThen_path (hsub _ (.part .setFieldReceiver)) fun r t hr => ?_
    refine Exec.andThen_path (by rw [Exec.fieldOf_snd]) fun held t' hheld => ?_
    obtain ⟨hfield, rfl⟩ := Exec.field?_of_fieldOf hheld
    refine Exec.andThen_path (hsub _ (.part (.setFieldValue hr hfield))) fun v u hv => ?_
    exact Exec.andThen_path (.single (Acts.setField hr hfield hv).steps) fun _ _ _ => .refl
  | send line receiver name args =>
    rw [Expr.eval]
    refine Exec.andThen_path (hsub _ (.part .sendReceiver)) fun r t hr => ?_
    refine Exec.andThen_path (by rw [Exec.fieldOf_snd]) fun held t' hheld => ?_
    obtain ⟨hfield, rfl⟩ := Exec.field?_of_fieldOf hheld
    cases held with
    | function f =>
      refine Exec.andThen_path (hsub _ (.part (.sendArgs hr hfield))) fun vs u hvs => ?_
      exact hsub _ (.part (.sendInvoke hr hfield hvs))
    | _ => exact Exec.andThen_path (Exec.demand_path _ _) fun _ _ _ => .refl
  | missing => rw [Expr.eval]; exact .refl

open Relation in
/-- The course of an invocation, given that of the body of the function. -/
theorem steps_call {fuel depth : Nat} {f : FunctionRef} {receiver : Value} {args : List Value}
    {line : Int} {s : State}
    (hsub : ∀ q, Enters limit ⟨fuel, depth, .call f receiver args line, s⟩ q →
      ReflTransGen (Steps limit ⟨fuel, depth, .call f receiver args line, s⟩) q.state
        (q.run limit).2) :
    ReflTransGen (Steps limit ⟨fuel, depth, .call f receiver args line, s⟩) s
      (invoke limit fuel depth f receiver args line s).2 := by
  cases hreached : limit.reached depth with
  | true => rw [invoke_of_reached fuel hreached]
  | false =>
    cases fuel with
    | zero => rw [invoke_zero hreached]
    | succ fuel =>
      rw [invoke_succ fuel hreached, Exec.atLine_apply]
      refine .head (Acts.logCall hreached).steps ?_
      cases hcode : (s.store.function f).code with
      | closure params body closure =>
        rw [callFunction_closure hcode]
        by_cases hargs : args.length = params.length
        · rw [callClosure_of_length_eq hargs, Exec.catchReturn_apply]
          refine .head (Acts.openScope hreached hcode hargs).steps (runOptional_path ?_)
          rintro line' es rfl
          exact hsub _ (.body hreached hcode hargs)
        · rw [callClosure_of_length_ne hargs]
      | native arity p =>
        rw [callFunction_native hcode]
        cases hargs : arity.accepts args.length with
        | false => rw [callNative_snd_of_not_accepts hargs]
        | true =>
          rw [callNative_of_accepts hargs]
          by_cases hp : p = .print
          · subst hp
            rw [print_apply]
            cases htext : (s.logged (callEntry s.store f args line depth)).store.showValues? args with
            | none => exact .refl
            | some text =>
              refine .head (Acts.logPrint hreached hcode hargs htext).steps ?_
              dsimp only
              cases hsink : (s.logged (callEntry s.store f args line depth)).sink.refusal? [] text with
              | none => exact .single (Acts.print hreached hcode hargs htext hsink).steps
              | some e => exact .refl
          · rw [primitiveCall_snd hp]

open Relation in
/-- **The course of a point is a sequence of changes made by the points it reaches.** -/
theorem steps_run (p : Point) : ReflTransGen (Steps limit p) p.state (p.run limit).2 := by
  induction p using (enters_wellFounded limit).induction with
  | _ p ih =>
    have hsub : ∀ q, Enters limit p q → ReflTransGen (Steps limit p) q.state (q.run limit).2 :=
      fun q hq => hq.steps (ih q hq)
    obtain ⟨fuel, depth, task, s⟩ := p
    cases task with
    | expr scope e => exact steps_expr e hsub
    | instrs scope es =>
      rw [run, Task.exec]
      cases es with
      | nil => rw [runAll]; exact .refl
      | cons e rest =>
        rw [runAll]
        refine Exec.andThen_path (hsub _ (.part .firstInstr)) fun v t hv => ?_
        exact hsub _ (.part (.restInstrs hv))
    | args scope es =>
      rw [run, Task.exec]
      cases es with
      | nil => rw [evalAll]; exact .refl
      | cons e rest =>
        rw [evalAll]
        refine Exec.andThen_path (hsub _ (.part .firstArg)) fun v t hv => ?_
        exact Exec.andThen_path (hsub _ (.part (.restArgs hv))) fun _ _ _ => .refl
    | inits scope o inits =>
      rw [run, Task.exec]
      cases inits with
      | nil => rw [evalInits]; exact .refl
      | cons first rest =>
        obtain ⟨name, e⟩ := first
        rw [evalInits]
        refine Exec.andThen_path (hsub _ (.part .firstInit)) fun v t hv => ?_
        refine Exec.andThen_path (.single (Acts.initField hv).steps) fun _ t' ht' => ?_
        cases ht'
        exact hsub _ (.part (.restInits hv))
    | call f receiver args line => exact steps_call hsub

/-- A relation between states that holds from a state to itself, can be chained and holds of every
change made in the course of a point holds of the course as a whole. -/
theorem run_of_steps {R : State → State → Prop} (hrefl : ∀ s, R s s)
    (htrans : ∀ s t u, R s t → R t u → R s u) (p : Point)
    (hstep : ∀ q s t, Reaches limit p q → Acts limit q s t → R s t) :
    R p.state (p.run limit).2 := by
  have hchain : ∀ t, Relation.ReflTransGen (Steps limit p) p.state t → R p.state t := by
    intro t ht
    induction ht with
    | refl => exact hrefl _
    | tail _ hlast ih =>
      obtain ⟨q, hq, hact⟩ := hlast
      exact htrans _ _ _ ih (hstep q _ _ hq hact)
  exact hchain _ (steps_run p)

/-- **What holds of a point holds of every point that it reaches**, if it has to do with the task and
the state apart from each other.  `T` is handed on from a task to its parts, and from a store to the
bodies of its functions; `S` is kept by every change that a task with `T` makes. -/
theorem invariant_of_reaches {T : Task → Prop} {S : State → Prop}
    (hpart : ∀ {inv t s t' s'}, Task.Enters inv t s t' s' → T t → T t')
    (hbody : ∀ {s : State} {f params line es closure} (scope : ScopeRef), S s →
      (s.store.function f).code = .closure params (some (.mk line es)) closure →
      T (.instrs scope es))
    (hact : ∀ {q s t}, Acts limit q s t → T q.task → S s → S t) {p : Point} (hT : T p.task)
    (hS : S p.state) {q : Point} (hq : Reaches limit p q) : T q.task ∧ S q.state := by
  induction p using (enters_wellFounded limit).induction generalizing q with
  | _ p ih =>
    -- the points reached from an entered one satisfy `T`, so what is done there keeps `S`
    have hrun : ∀ r, Enters limit p r → T r.task → S r.state → S (r.run limit).2 := by
      intro r hr hTr hSr
      refine run_of_steps (R := fun s t => S s → S t) (fun _ h => h) (fun _ _ _ h h' => h' ∘ h) r
        ?_ hSr
      intro r' s t hr' hstep
      exact hact hstep (ih r hr hTr hSr hr').1
    have henter : ∀ r, Enters limit p r → T r.task ∧ S r.state := by
      intro r hr
      cases hr with
      | part h =>
        exact ⟨hpart h hT, state_of_enters h hS
          (fun t s h' hs => hrun _ (.part h') (hpart h' hT) hs) fun h' => hact h' hT⟩
      | body hreached hcode hargs =>
        have hlogged := hact (.logCall hreached) hT hS
        exact ⟨hbody _ hS hcode, hact (.openScope hreached hcode hargs) hT hlogged⟩
    rcases Relation.ReflTransGen.cases_head hq with rfl | ⟨r, hr, hrq⟩
    · exact ⟨hT, hS⟩
    · exact ih r hr (henter r hr).1 (henter r hr).2 hrq

variable (limit)

/-- A state that occurs in the course of a point. -/
inductive Passes (p : Point) : State → Prop
  /-- The state in which a point that is reached starts. -/
  | start {q : Point} (h : Reaches limit p q) : Passes p q.state
  /-- A state after a change made at a point that is reached. -/
  | change {q : Point} {s t : State} (h : Reaches limit p q) (hact : Acts limit q s t) : Passes p t
  /-- The state in which a point that is reached ends. -/
  | finish {q : Point} (h : Reaches limit p q) : Passes p (q.run limit).2

end Point

/-! ### Runs -/

/-- The instructions of the root block. -/
def Program.instrs (p : Program) : List Expr :=
  match p.body with
  | some b => b.instrs
  | none => []

/-- The point at which a run starts. -/
def Program.start (p : Program) (fuel : Nat) (sink : Sink) : Point where
  fuel := fuel
  depth := 0
  task := .instrs globalScope p.instrs
  state := State.start sink

/-- A run is what the evaluator does at the point at which it starts. -/
theorem Program.runWith_eq_run (p : Program) (fuel : Nat) (limit : DepthLimit) (sink : Sink) :
    p.runWith fuel limit sink =
      Run.ofOutcome ((p.start fuel sink).run limit).1 ((p.start fuel sink).run limit).2 := by
  obtain ⟨path, body⟩ := p
  rw [runWith_eq]
  cases body with
  | none => simp only [runOptional, Point.run, start, instrs, Task.exec, runAll]
  | some b =>
    obtain ⟨line, es⟩ := b
    simp only [runOptional, Block.run, Point.run, start, instrs, Task.exec, Block.instrs]

end TreeScript
