import TreeScript.Proofs.Eval.Course
import TreeScript.Proofs.Store.Withheld

/-!
# Evaluation keeps the store sound

A point is sound if the store is and everything the task refers to is in it: the scope it works in,
the object whose fields are set, the function, the receiver and the arguments.  From a sound point an
evaluation leads to a sound store that has whatever was there before, and the values it ends with, by
a result or by a `return`, are admitted by that store.  It does not crash: native functions are called
with the arguments that they read, and every value has a text.  The points it enters on the way are
sound again.

All this is said of points at which some objects are withheld: nothing holds them, and the task does
not refer to them.  Then the values that the evaluation ends with are none of these objects, nothing
holds them afterwards, and their fields are as they were.

The two halves depend on each other.  That a part is entered at a sound point follows from what the
parts before it have done, and what the whole does follows from what its parts do; so both are
proved along the recursion of the evaluator, from a point to the points that it enters.

## Main definitions

* `Task.Valid`, `Point.Sound` — everything referred to is there.
* `Point.Withholds` — besides, some objects are withheld.
* `Safe` — an evaluation led to a sound store and an admitted outcome.

## Main results

* `safe_callNative` — **the call of a native function does not crash.**
* `Point.Withholds.safe` — **from a sound point an evaluation is safe**, and withholds what was
  withheld.
* `Point.Withholds.of_reaches` — every point reached from such a one is such a one.
* `Program.ending_ne_crashed` — **no run crashes.**
* `Program.store_sound_throughout` — **the store is sound in every state of every run.**
-/

namespace TreeScript

variable {W : ObjectRef → Prop}

/-! ### Safe results -/

/-- An outcome that is no crash and whose values are admitted, where `P` says so of results. -/
def Outcome.Admitted {α : Type} (A : Value → Prop) (P : α → Prop) : Outcome α → Prop
  | .done a => P a
  | .returning v _ => A v
  | .failed _ => True
  | .crashed => False
  | .outOfFuel => True

/-- From a store, an evaluation led to a sound one with whatever was there before and the withheld
objects as they were, and to an outcome that it yields. -/
structure Safe {α : Type} (W : ObjectRef → Prop) (before : Store) (P : Store → α → Prop)
    (r : Outcome α × State) : Prop where
  /-- Nothing was removed. -/
  leaves : before.Leaves W r.2.store
  /-- The store is sound, and nothing holds the withheld objects. -/
  store : r.2.store.Withholds W
  /-- The values of the outcome can be come by. -/
  outcome : r.1.Admitted (r.2.store.Yields W) (P r.2.store)

namespace Safe

variable {α β : Type} {before : Store} {P : Store → α → Prop} {Q : Store → β → Prop}

/-- An evaluation that changed nothing and ended with no value. -/
theorem failed {s : State} (hs : s.store.Withholds W) (e : Fault) :
    Safe W s.store P (.failed e, s) := ⟨.refl _, hs, trivial⟩

/-- An evaluation that changed nothing and ended with a result. -/
theorem done {s : State} (hs : s.store.Withholds W) {a : α} (ha : P s.store a) :
    Safe W s.store P (.done a, s) := ⟨.refl _, hs, ha⟩

/-- What is safe from a store is safe from any that it comes from. -/
theorem of_leaves {middle : Store} (hleaves : before.Leaves W middle) {x : Outcome α × State}
    (h : Safe W middle P x) : Safe W before P x :=
  ⟨hleaves.trans h.leaves, h.store, h.outcome⟩

/-- What is known after an evaluation that gave a result. -/
theorem of_done {x : Outcome α × State} (h : Safe W before P x) {a : α} {t : State}
    (hx : x = (.done a, t)) :
    before.Leaves W t.store ∧ t.store.Withholds W ∧ P t.store a := by
  subst hx
  exact ⟨h.leaves, h.store, h.outcome⟩

/-- Sequencing safe evaluations. -/
theorem andThen {x : Exec α} {f : α → Exec β} {s : State} (hx : Safe W s.store P (x s))
    (hf : ∀ a t, x s = (.done a, t) → s.store.Leaves W t.store → t.store.Withholds W →
      P t.store a → Safe W t.store Q (f a t)) : Safe W s.store Q (x.andThen f s) := by
  rcases h : x s with ⟨o, t⟩
  rw [h] at hx
  cases o with
  | done a =>
    rw [Exec.andThen_done h]
    exact of_leaves hx.leaves (hf a t h hx.leaves hx.store hx.outcome)
  | returning v line => rw [Exec.andThen_returning h]; exact ⟨hx.leaves, hx.store, hx.outcome⟩
  | failed e => rw [Exec.andThen_failed h]; exact ⟨hx.leaves, hx.store, trivial⟩
  | crashed => exact hx.outcome.elim
  | outOfFuel => rw [Exec.andThen_outOfFuel h]; exact ⟨hx.leaves, hx.store, trivial⟩

/-- Catching a `return` makes its value the result. -/
theorem catchReturn {x : Exec α} {s : State} (h : Safe W before P (x s)) :
    Safe W before (Store.Yields W) (x.catchReturn s) := by
  rw [Exec.catchReturn_apply]
  refine ⟨h.leaves, h.store, ?_⟩
  have hout := h.outcome
  cases ho : (x s).1 with
  | done a => exact ⟨trivial, Value.outside_of_ne (by simp)⟩
  | returning v line => rw [ho] at hout; exact hout
  | crashed => rw [ho] at hout; exact hout
  | _ => trivial

/-- Giving a failure its line changes no value. -/
theorem atLine {x : Exec α} {s : State} (h : Safe W before P (x s)) (line : Int) :
    Safe W before P (x.atLine line s) := by
  rw [Exec.atLine_apply]
  refine ⟨h.leaves, h.store, ?_⟩
  have hout := h.outcome
  cases ho : (x s).1 <;> rw [ho] at hout <;> exact hout

end Safe

/-- A value that refers to nothing can always be come by. -/
theorem Store.yields_undefined (s : Store) : s.Yields W .undefined :=
  ⟨trivial, Value.outside_of_ne (by simp)⟩

theorem Store.yields_int (s : Store) (n : Int64) : s.Yields W (.int n) :=
  ⟨trivial, Value.outside_of_ne (by simp)⟩

theorem Store.yields_str (s : Store) (text : String) : s.Yields W (.str text) :=
  ⟨trivial, Value.outside_of_ne (by simp)⟩

theorem Store.yields_function {s : Store} {f : FunctionRef} (hf : s.HasFunction f) :
    s.Yields W (.function f) :=
  ⟨hf, Value.outside_of_ne (by simp)⟩

/-! ### Native functions -/

/-- How many of its arguments a native function reads by their places. -/
def Primitive.operands : Primitive → Nat
  | .print => 0
  | .host _ => 0
  | .arithmetic _ => 2
  | .equal => 2
  | .notEqual => 2
  | .compare _ => 2

/-- A native function of the language accepts no fewer arguments than it reads. -/
theorem operands_le_of_accepts {name : String} {arity : Arity} {p : Primitive} {n : Nat}
    (hmem : (name, arity, p) ∈ builtins) (hn : arity.accepts n = true) : p.operands ≤ n := by
  have htwo : (Arity.exactly 2).accepts n = true → n = 2 := by
    intro h
    simp only [Arity.accepts, decide_eq_true_eq] at h
    omega
  simp only [builtins, builtinsIn, List.mem_append, List.mem_map, List.mem_cons, Prod.mk.injEq,
    List.not_mem_nil, or_false] at hmem
  rcases hmem with ((⟨-, -, rfl⟩ | ⟨op, -, -, rfl, rfl⟩) | ⟨-, rfl, rfl⟩ | ⟨-, rfl, rfl⟩) |
    ⟨op, -, -, rfl, rfl⟩
  · exact Nat.zero_le n
  all_goals exact Nat.le_of_eq (htwo hn).symm

section Native

variable {α : Type} {s : State} (hs : s.store.Withholds W)
include hs

/-- The text of something that has one. -/
theorem safe_demand {f : Store → Option α} (h : ∃ a, f s.store = some a) :
    Safe W s.store (fun _ _ => True) (Exec.demand f s) := by
  obtain ⟨a, ha⟩ := h
  simp only [Exec.demand, ha]
  exact .done hs trivial

/-- A computation that changes nothing. -/
theorem safe_ofExcept {P : Store → α → Prop} {r : Except Failure α}
    (hr : ∀ a, r = .ok a → P s.store a) : Safe W s.store P (Exec.ofExcept r s) := by
  cases r with
  | ok a => exact .done hs (hr a rfl)
  | error f => exact .failed hs _

/-- An argument that is there. -/
theorem safe_argument {args : List Value} {place : Nat} (h : place < args.length) :
    Safe W s.store (fun _ _ => True) (Exec.argument args place s) := by
  simp only [Exec.argument, List.getElem?_eq_getElem h]
  exact .done hs trivial

theorem safe_operand (op : Arithmetic) {args : List Value} {place : Nat}
    (h : place < args.length) : Safe W s.store (fun _ _ => True) (op.operand args place s) := by
  refine Safe.andThen (safe_argument hs h) fun v t _ _ ht _ => ?_
  cases v with
  | int n => exact .done ht trivial
  | _ => exact .failed ht _

/-- What an operator does with two arguments, once it has them. -/
theorem safe_arguments {args : List Value} (h : 2 ≤ args.length) {g : Value → Value → Exec Value}
    (hg : ∀ a b (t : State), t.store.Withholds W → Safe W t.store (Store.Yields W) (g a b t)) :
    Safe W s.store (Store.Yields W)
      (((Exec.argument args 0).andThen fun a => (Exec.argument args 1).andThen (g a)) s) := by
  refine Safe.andThen (safe_argument hs (by omega)) fun a t _ _ ht _ => ?_
  exact Safe.andThen (safe_argument ht (by omega)) fun b u _ _ hu _ => hg a b u hu

/-- **What a native function of the language does is safe**, if it has the arguments that it reads. -/
theorem safe_primitiveCall {p : Primitive} (hp : ∀ body, p ≠ .host body) (receiver : Value)
    {args : List Value} (hargs : p.operands ≤ args.length) :
    Safe W s.store (Store.Yields W) (p.call receiver args s) := by
  cases p with
  | print =>
    obtain ⟨text, htext⟩ := Store.exists_showValues? hs.sound.inStep args
    rw [print_apply, htext]
    cases hsink : s.sink.refusal? [] text with
    | none => simp only [hsink]; exact ⟨.refl _, hs, s.store.yields_undefined⟩
    | some e => simp only [hsink]; exact ⟨.refl _, hs, trivial⟩
  | arithmetic op =>
    have hargs : 2 ≤ args.length := hargs
    refine Safe.andThen (safe_operand hs op (by omega)) fun a t _ _ ht _ => ?_
    refine Safe.andThen (safe_operand ht op (by omega)) fun b u _ _ hu _ => ?_
    refine Safe.andThen (P := fun _ _ => True) (safe_ofExcept hu fun _ _ => trivial)
      fun n w _ _ hw _ => ?_
    exact .done hw (w.store.yields_int n)
  | equal => exact safe_arguments hs hargs fun a b t ht => .done ht (t.store.yields_int _)
  | notEqual => exact safe_arguments hs hargs fun a b t ht => .done ht (t.store.yields_int _)
  | compare op =>
    refine safe_arguments hs hargs fun a b t ht => safe_ofExcept ht fun v hv => ?_
    -- what an order operator finds is a truth value
    unfold Comparison.eval at hv
    cases hc : a.compare? b with
    | error f => rw [hc] at hv; cases hv
    | ok o => rw [hc] at hv; cases hv; exact t.store.yields_int _
  | host body => exact absurd rfl (hp body)

/-- **The call of a native function of the language is safe**, whatever the arguments. -/
theorem safe_callNative {name : String} {arity : Arity} {p : Primitive}
    (hp : (name, arity, p) ∈ builtins) (receiver : Value) (args : List Value) :
    Safe W s.store (Store.Yields W) (callNative arity p receiver args s) := by
  unfold callNative
  split
  · next haccepts =>
    exact safe_primitiveCall hs (Store.not_host_of_mem_builtins hp) receiver
      (operands_le_of_accepts hp haccepts)
  · exact .failed hs _

end Native

/-! ### Sound points -/

namespace Task

/-- Everything that a task refers to is in the store, and its values are such as `A` says. -/
def ValidFor (store : Store) (A : Value → Prop) : Task → Prop
  | .expr scope _ => store.HasScope scope
  | .instrs scope _ => store.HasScope scope
  | .args scope _ => store.HasScope scope
  | .inits scope o _ => store.HasScope scope ∧ A (.object o)
  | .call f receiver vs _ => store.HasFunction f ∧ A receiver ∧ ∀ v ∈ vs, A v

/-- Everything that a task refers to is in the store. -/
def Valid (store : Store) (t : Task) : Prop := t.ValidFor store store.Admits

theorem ValidFor.mono {store : Store} {A B : Value → Prop} (hAB : ∀ v, A v → B v) {t : Task}
    (h : t.ValidFor store A) : t.ValidFor store B := by
  cases t with
  | inits scope o inits => exact ⟨h.1, hAB _ h.2⟩
  | call f receiver vs line => exact ⟨h.1, hAB _ h.2.1, fun v hv => hAB v (h.2.2 v hv)⟩
  | _ => exact h

/-- The values of a result are such as `A` says. -/
def Answers (A : Value → Prop) : (t : Task) → t.Result → Prop
  | .expr _ _, (v : Value) => A v
  | .instrs _ _, _ => True
  | .args _ _, (vs : List Value) => ∀ v ∈ vs, A v
  | .inits _ _ _, _ => True
  | .call _ _ _ _, (v : Value) => A v

theorem Answers.mono {A B : Value → Prop} (hAB : ∀ v, A v → B v) {t : Task} {a : t.Result}
    (h : t.Answers A a) : t.Answers B a := by
  cases t with
  | expr scope e => exact hAB _ h
  | args scope es => exact fun v hv => hAB v (h v hv)
  | call f receiver vs line => exact hAB _ h
  | _ => trivial

/-- An outcome with values of one sort has values of any wider sort. -/
theorem admitted_mono {A B : Value → Prop} (hAB : ∀ v, A v → B v) {t : Task}
    {o : Outcome t.Result} (h : o.Admitted A (t.Answers A)) : o.Admitted B (t.Answers B) := by
  cases o with
  | done a => exact Answers.mono hAB h
  | returning v line => exact hAB v h
  | _ => exact h

end Task

namespace Point

/-- The store is sound, and everything that the task refers to is in it. -/
structure Sound (p : Point) : Prop where
  /-- The store is sound. -/
  store : p.state.store.Sound
  /-- What the task refers to is there. -/
  task : p.task.Valid p.state.store

/-- A sound point at which some objects are withheld. -/
structure Withholds (W : ObjectRef → Prop) (p : Point) : Prop where
  /-- The store is sound, and nothing holds the objects. -/
  store : p.state.store.Withholds W
  /-- What the task refers to is there, and can be come by. -/
  task : p.task.ValidFor p.state.store (p.state.store.Yields W)

theorem Withholds.sound {p : Point} (h : p.Withholds W) : p.Sound :=
  ⟨h.store.sound, h.task.mono fun _ hv => hv.1⟩

theorem Sound.withholds_none {p : Point} (h : p.Sound) : p.Withholds fun _ => False :=
  ⟨h.store.withholds_none, h.task.mono fun _ hv => ⟨hv, fun _ _ => id⟩⟩

/-- The evaluation at a point is safe. -/
def IsSafe (limit : DepthLimit) (W : ObjectRef → Prop) (p : Point) : Prop :=
  Safe W p.state.store (fun store => p.task.Answers (store.Yields W)) (p.run limit)

end Point

/-- Reading a field is safe. -/
theorem safe_fieldOf {s : State} (hs : s.store.Withholds W) (receiver : Value) (name : Text)
    (line : Int) : Safe W s.store (Store.Yields W) (Exec.fieldOf receiver name line s) := by
  rw [Exec.fieldOf_apply]
  cases hv : s.store.field? receiver name with
  | none => exact .failed hs _
  | some v => exact .done hs (hs.field? hv)

/-- Failing over a value, which is shown, is safe. -/
theorem safe_refuse {α : Type} {P : Store → α → Prop} {s : State} (hs : s.store.Withholds W)
    (v : Value) (kind : FailureKind) (line : Int) (detail : Text → Text) :
    Safe W s.store P (((Exec.demand fun store => store.showValue? v).andThen fun text =>
      Exec.failWith kind line (detail text)) s) :=
  Safe.andThen (safe_demand hs (Store.exists_showValue? hs.sound.inStep v))
    fun _ _ _ _ ht _ => .failed ht _

/-- A block that may be absent is safe if its instructions are. -/
theorem safe_runOptional {inv : Invoke} {scope : ScopeRef} {b : Option Block} {s : State}
    (hs : s.store.Withholds W)
    (hb : ∀ line es, b = some (.mk line es) →
      Safe W s.store (fun _ _ => True) (runAll inv scope es s)) :
    Safe W s.store (fun _ _ => True) (runOptional inv scope b s) := by
  cases b with
  | none => rw [runOptional]; exact .done hs trivial
  | some b =>
    obtain ⟨line, es⟩ := b
    rw [runOptional, Block.run]
    exact hb line es rfl

/-! ### The points that are entered -/

namespace Point

variable {limit : DepthLimit}

/-- A part is entered at a sound point, with whatever was in the store before, given that the
evaluations before it were safe. -/
theorem leaves_withholds_of_part {fuel depth : Nat} {t t' : Task} {s s' : State}
    (h : t.Enters (invoke limit fuel depth) s t' s') (hp : Withholds W ⟨fuel, depth, t, s⟩)
    (hsafe : ∀ q, Enters limit ⟨fuel, depth, t, s⟩ q → q.Withholds W → q.IsSafe limit W) :
    s.store.Leaves W s'.store ∧ Withholds W ⟨fuel, depth, t', s'⟩ := by
  obtain ⟨hs, ht⟩ := hp
  have hrefl := Store.Leaves.refl (W := W) s.store
  cases h with
  | block => exact ⟨hrefl, hs, ht⟩
  | callee => exact ⟨hrefl, hs, ht⟩
  | callArgs hcallee =>
    obtain ⟨hext, hstore, -⟩ := (hsafe _ (.part .callee) ⟨hs, ht⟩).of_done hcallee
    exact ⟨hext, hstore, hext.grows.hasScope ht⟩
  | callInvoke hcallee hvs =>
    obtain ⟨hext, hstore, hf⟩ := (hsafe _ (.part .callee) ⟨hs, ht⟩).of_done hcallee
    have hargs := hsafe _ (.part (.callArgs hcallee)) ⟨hstore, hext.grows.hasScope ht⟩
    obtain ⟨hext', hstore', hadm⟩ := hargs.of_done hvs
    exact ⟨hext.trans hext', hstore', hext'.grows.hasFunction hf.1, Store.yields_undefined _, hadm⟩
  | assigned => exact ⟨hrefl, hs, ht⟩
  | returned => exact ⟨hrefl, hs, ht⟩
  | condition => exact ⟨hrefl, hs, ht⟩
  | onTrue hcondition _ | onFalse hcondition _ =>
    obtain ⟨hext, hstore, -⟩ := (hsafe _ (.part .condition) ⟨hs, ht⟩).of_done hcondition
    exact ⟨hext, hstore, hext.grows.hasScope ht⟩
  | initialisers =>
    exact ⟨hs.leaves_newObject, hs.newObject, s.store.extends_newObject.hasScope ht,
      hs.yields_newObject⟩
  | fieldReceiver => exact ⟨hrefl, hs, ht⟩
  | setFieldReceiver => exact ⟨hrefl, hs, ht⟩
  | setFieldValue hreceiver _ =>
    obtain ⟨hext, hstore, -⟩ := (hsafe _ (.part .setFieldReceiver) ⟨hs, ht⟩).of_done hreceiver
    exact ⟨hext, hstore, hext.grows.hasScope ht⟩
  | sendReceiver => exact ⟨hrefl, hs, ht⟩
  | sendArgs hreceiver _ =>
    obtain ⟨hext, hstore, -⟩ := (hsafe _ (.part .sendReceiver) ⟨hs, ht⟩).of_done hreceiver
    exact ⟨hext, hstore, hext.grows.hasScope ht⟩
  | sendInvoke hreceiver hfield hvs =>
    obtain ⟨hext, hstore, hr⟩ := (hsafe _ (.part .sendReceiver) ⟨hs, ht⟩).of_done hreceiver
    have hargs := hsafe _ (.part (.sendArgs hreceiver hfield)) ⟨hstore, hext.grows.hasScope ht⟩
    obtain ⟨hext', hstore', hadm⟩ := hargs.of_done hvs
    have hf := hstore.field? hfield
    exact ⟨hext.trans hext', hstore', hext'.grows.hasFunction hf.1, hext'.yields hr, hadm⟩
  | firstInstr => exact ⟨hrefl, hs, ht⟩
  | restInstrs hfirst =>
    obtain ⟨hext, hstore, -⟩ := (hsafe _ (.part .firstInstr) ⟨hs, ht⟩).of_done hfirst
    exact ⟨hext, hstore, hext.grows.hasScope ht⟩
  | firstArg => exact ⟨hrefl, hs, ht⟩
  | restArgs hfirst =>
    obtain ⟨hext, hstore, -⟩ := (hsafe _ (.part .firstArg) ⟨hs, ht⟩).of_done hfirst
    exact ⟨hext, hstore, hext.grows.hasScope ht⟩
  | firstInit => exact ⟨hrefl, hs, ht.1⟩
  | @restInits _ o name _ _ _ v t hfirst =>
    -- the task refers to the object whose field is set, so that object is not withheld
    obtain ⟨hext, hstore, hv⟩ := (hsafe _ (.part .firstInit) ⟨hs, ht.1⟩).of_done hfirst
    have hset := hext.trans (Store.leaves_setField (s := t.store) ht.2.2 name v)
    exact ⟨hset, hstore.setField (.object o) name hv, hset.grows.hasScope ht.1, hset.yields ht.2⟩

/-- The same of every point that is entered. -/
theorem leaves_withholds_of_enters {p q : Point} (h : Enters limit p q) (hp : p.Withholds W)
    (hsafe : ∀ q, Enters limit p q → q.Withholds W → q.IsSafe limit W) :
    p.state.store.Leaves W q.state.store ∧ q.Withholds W := by
  cases h with
  | part h => exact leaves_withholds_of_part h hp hsafe
  | body hreached hcode hargs =>
    obtain ⟨hs, -, hreceiver, hvs⟩ := hp
    have hclosure := hs.sound.closures _ _ _ _ hcode
    exact ⟨⟨Store.extends_openScope .., fun _ _ => Store.fields_openScope ..⟩,
      hs.openScope hclosure hreceiver _ hvs, Store.hasScope_openScope ..⟩

/-! ### Evaluation is safe -/

/-- The evaluation of an expression is safe, given that of its parts. -/
theorem safe_expr {fuel depth : Nat} {scope : ScopeRef} {s : State} (e : Expr)
    (hs : s.store.Withholds W) (hscope : s.store.HasScope scope)
    (hsub : ∀ q, Enters limit ⟨fuel, depth, .expr scope e, s⟩ q → q.IsSafe limit W) :
    Safe W s.store (Store.Yields W) (e.eval (invoke limit fuel depth) scope s) := by
  cases e with
  | block b =>
    obtain ⟨line, es⟩ := b
    rw [Expr.eval, Block.run]
    exact Safe.andThen (hsub _ (.part .block)) fun _ t _ _ ht _ => .done ht t.store.yields_undefined
  | literal line value =>
    cases value with
    | int n => rw [Expr.eval]; exact .done hs (s.store.yields_int n)
    | str text => rw [Expr.eval]; exact .done hs (s.store.yields_str text)
    | _ => rw [Expr.eval]; exact .done hs s.store.yields_undefined
  | call line callee args =>
    rw [Expr.eval]
    refine Safe.andThen (hsub _ (.part .callee)) fun v t hv _ ht _ => ?_
    cases v with
    | function f =>
      refine Safe.andThen (hsub _ (.part (.callArgs hv))) fun vs u hvs _ _ _ => ?_
      exact hsub _ (.part (.callInvoke hv hvs))
    | _ => exact safe_refuse ht _ .notAFunction line id
  | var line name => rw [Expr.eval]; exact .done hs (hs.lookup scope name)
  | assign line declares name value =>
    rw [Expr.eval]
    refine Safe.andThen (hsub _ (.part .assigned)) fun v t _ _ ht hv => ?_
    have hv : t.store.Yields W v := hv
    -- a declaration that succeeds and an assignment write the same
    have hleaves : t.store.Leaves W (t.store.assign scope name v) :=
      ⟨t.store.extends_assign .., fun _ _ => rfl⟩
    have hassign : Safe W t.store (fun store (_ : Unit) => store.Yields W v)
        (.done (), t.withStore (t.store.assign scope name v)) :=
      ⟨hleaves, ht.assign scope name hv, hleaves.yields hv⟩
    cases declares with
    | true =>
      refine Safe.andThen (P := fun store (_ : Unit) => store.Yields W v) ?_
        fun _ u _ _ hu hadm => .done hu hadm
      rw [Exec.declareAt_apply]
      split
      · exact hassign
      · exact .failed ht _
    | false =>
      simp only [Bool.false_eq_true, if_false]
      exact Safe.andThen hassign fun _ u _ _ hu hadm => .done hu hadm
  | fn line name params body =>
    rw [Expr.eval]
    have hmade : Safe W s.store (fun store f => store.HasFunction f)
        (Exec.make
          (fun store => store.newFunction ⟨shownName name, .closure params body scope⟩) s) :=
      ⟨⟨s.store.extends_newFunction _, fun _ _ => rfl⟩, hs.newClosure hscope _ params body,
        s.store.hasFunction_newFunction _⟩
    refine Safe.andThen hmade fun f t _ _ ht hf => ?_
    cases name with
    | none => exact .done ht (Store.yields_function hf)
    | some name =>
      refine Safe.andThen (P := fun store (_ : Unit) => store.HasFunction f)
        ⟨⟨t.store.extends_assign .., fun _ _ => rfl⟩,
          ht.assign scope name (Store.yields_function hf), hf⟩
        fun _ u _ _ hu hadm => .done hu (Store.yields_function hadm)
  | ret line value =>
    rw [Expr.eval]
    exact Safe.andThen (hsub _ (.part .returned)) fun v t _ _ ht hv => ⟨.refl _, ht, hv⟩
  | branch line condition onTrue onFalse =>
    rw [Expr.eval]
    refine Safe.andThen (hsub _ (.part .condition)) fun v t hv _ ht _ => ?_
    cases hb : v.truthy with
    | true =>
      refine Safe.andThen (safe_runOptional ht ?_)
        fun _ u _ _ hu _ => .done hu u.store.yields_undefined
      rintro line' es rfl
      exact hsub _ (.part (.onTrue hv hb))
    | false =>
      refine Safe.andThen (safe_runOptional ht ?_)
        fun _ u _ _ hu _ => .done hu u.store.yields_undefined
      rintro line' es rfl
      exact hsub _ (.part (.onFalse hv hb))
  | object line inits =>
    rw [Expr.eval_object]
    refine Safe.of_leaves hs.leaves_newObject (Safe.andThen (hsub _ (.part .initialisers)) ?_)
    exact fun _ u _ hext hu _ => .done hu (hext.yields hs.yields_newObject)
  | field line receiver name =>
    rw [Expr.eval]
    refine Safe.andThen (hsub _ (.part .fieldReceiver)) fun r t _ _ ht _ => ?_
    exact safe_fieldOf ht r name line
  | setField line receiver name value =>
    rw [Expr.eval]
    refine Safe.andThen (hsub _ (.part .setFieldReceiver)) fun r t hr _ ht hadm => ?_
    have hr' : t.store.Yields W r := hadm
    refine Safe.andThen (safe_fieldOf ht r name line) fun held t' hheld _ _ _ => ?_
    obtain ⟨hfield, rfl⟩ := Exec.field?_of_fieldOf hheld
    refine Safe.andThen (hsub _ (.part (.setFieldValue hr hfield))) fun v u _ _ hu hv => ?_
    -- the receiver was come by, so it is no withheld object whose fields would change
    have hv : u.store.Yields W v := hv
    have hleaves := Store.leaves_setField (s := u.store) hr'.2 name v
    exact Safe.andThen (P := fun store (_ : Unit) => store.Yields W v)
      ⟨hleaves, hu.setField r name hv, hleaves.yields hv⟩ fun _ w _ _ hw hadm => .done hw hadm
  | send line receiver name args =>
    rw [Expr.eval]
    refine Safe.andThen (hsub _ (.part .sendReceiver)) fun r t hr _ ht _ => ?_
    refine Safe.andThen (safe_fieldOf ht r name line) fun held t' hheld _ _ _ => ?_
    obtain ⟨hfield, rfl⟩ := Exec.field?_of_fieldOf hheld
    cases held with
    | function f =>
      refine Safe.andThen (hsub _ (.part (.sendArgs hr hfield))) fun vs u hvs _ _ _ => ?_
      exact hsub _ (.part (.sendInvoke hr hfield hvs))
    | _ => exact safe_refuse ht r .notAFunction line fun text => text ++ "." ++ name
  | missing => rw [Expr.eval]; exact .failed hs _

/-- The evaluation of an invocation is safe, given that of the body of the function. -/
theorem safe_call {fuel depth : Nat} {f : FunctionRef} {receiver : Value} {args : List Value}
    {line : Int} {s : State} (hs : s.store.Withholds W) (hreceiver : s.store.Yields W receiver)
    (hargs : ∀ v ∈ args, s.store.Yields W v)
    (hsub : ∀ q, Enters limit ⟨fuel, depth, .call f receiver args line, s⟩ q → q.IsSafe limit W) :
    Safe W s.store (Store.Yields W) (invoke limit fuel depth f receiver args line s) := by
  cases hreached : limit.reached depth with
  | true => rw [invoke_of_reached fuel hreached]; exact .failed hs _
  | false =>
    cases fuel with
    | zero => rw [invoke_zero hreached]; exact ⟨.refl _, hs, trivial⟩
    | succ fuel =>
      rw [invoke_succ fuel hreached]
      refine Safe.atLine ?_ line
      have hs' : (s.logged (callEntry s.store f args line depth)).store.Withholds W := hs
      cases hcode : (s.store.function f).code with
      | native arity p =>
        -- its arity is the one that the language gives it, so it has the arguments that it reads
        rw [callFunction_native hcode]
        obtain ⟨name, hmem⟩ := hs.sound.natives f arity p hcode
        exact safe_callNative hs' hmem receiver args
      | closure params body closure =>
        rw [callFunction_closure hcode]
        by_cases hlen : args.length = params.length
        · rw [callClosure_of_length_eq hlen]
          have hopen : s.store.Leaves W (openScope closure receiver params args s.store).2 :=
            ⟨s.store.extends_openScope .., fun _ _ => Store.fields_openScope ..⟩
          have hstore := hs.openScope (hs.sound.closures _ _ _ _ hcode) hreceiver params hargs
          refine Safe.catchReturn (P := fun _ _ => True) (Safe.of_leaves hopen ?_)
          refine safe_runOptional (s := (s.logged (callEntry s.store f args line depth)).withStore _)
            hstore ?_
          rintro line' es rfl
          exact hsub _ (.body hreached hcode hlen)
        · rw [callClosure_of_length_ne hlen]
          exact .failed hs' _

/-- **From a sound point an evaluation is safe**, and withholds what was withheld. -/
theorem Withholds.safe {p : Point} (hp : p.Withholds W) : p.IsSafe limit W := by
  induction p using (enters_wellFounded limit).induction with
  | _ p ih =>
    have hsub : ∀ q, Enters limit p q → q.IsSafe limit W :=
      fun q hq => ih q hq (leaves_withholds_of_enters hq hp ih).2
    obtain ⟨fuel, depth, task, s⟩ := p
    obtain ⟨hs, ht⟩ := hp
    cases task with
    | expr scope e => exact safe_expr e hs ht hsub
    | instrs scope es =>
      rw [IsSafe, run, Task.exec]
      cases es with
      | nil => rw [runAll]; exact .done hs trivial
      | cons e rest =>
        rw [runAll]
        refine Safe.andThen (hsub _ (.part .firstInstr)) fun v t hv _ _ _ => ?_
        exact hsub _ (.part (.restInstrs hv))
    | args scope es =>
      rw [IsSafe, run, Task.exec]
      cases es with
      | nil => rw [evalAll]; exact .done hs fun _ hv => by cases hv
      | cons e rest =>
        rw [evalAll]
        refine Safe.andThen (hsub _ (.part .firstArg)) fun v t hfirst _ _ hv => ?_
        refine Safe.andThen (hsub _ (.part (.restArgs hfirst))) fun vs u _ hext hu hvs => ?_
        exact .done hu (List.forall_mem_cons.mpr ⟨hext.yields hv, hvs⟩)
    | inits scope o inits =>
      rw [IsSafe, run, Task.exec]
      cases inits with
      | nil => rw [evalInits]; exact .done hs trivial
      | cons first rest =>
        obtain ⟨name, e⟩ := first
        rw [evalInits]
        refine Safe.andThen (hsub _ (.part .firstInit)) fun v t hv _ _ _ => ?_
        have hset : Exec.change (fun store => store.setField (.object o) name v) t =
            (.done (), t.withStore (t.store.setField (.object o) name v)) := rfl
        simp only [bind]
        rw [Exec.andThen_done hset]
        exact Safe.of_leaves (Store.leaves_setField ht.2.2 name v) (hsub _ (.part (.restInits hv)))
    | call f receiver args line => exact safe_call hs ht.2.1 ht.2.2 hsub

/-- Every point reached from one that withholds some objects does so too, and leaves them as they
were. -/
theorem Withholds.leaves_of_reaches {p q : Point} (hp : p.Withholds W) (h : Reaches limit p q) :
    p.state.store.Leaves W q.state.store ∧ q.Withholds W := by
  induction h with
  | refl => exact ⟨.refl _, hp⟩
  | tail _ hstep ih =>
    obtain ⟨hext, hmid⟩ := ih
    obtain ⟨hext', hq⟩ := leaves_withholds_of_enters hstep hmid fun _ _ hq => hq.safe
    exact ⟨hext.trans hext', hq⟩

theorem Withholds.of_reaches {p q : Point} (hp : p.Withholds W) (h : Reaches limit p q) :
    q.Withholds W :=
  (hp.leaves_of_reaches h).2

/-- **From a sound point an evaluation is safe.** -/
theorem Sound.safe {p : Point} (hp : p.Sound) : p.IsSafe limit fun _ => False :=
  hp.withholds_none.safe

/-- Every point reached from a sound one is sound, and nothing is removed on the way. -/
theorem Sound.extends_of_reaches {p q : Point} (hp : p.Sound) (h : Reaches limit p q) :
    p.state.store.Extends q.state.store ∧ q.Sound := by
  obtain ⟨hleaves, hq⟩ := hp.withholds_none.leaves_of_reaches h
  exact ⟨hleaves.grows, hq.sound⟩

theorem Sound.of_reaches {p q : Point} (hp : p.Sound) (h : Reaches limit p q) : q.Sound :=
  (hp.extends_of_reaches h).2

/-- The evaluations at the points that a sound point enters are safe. -/
theorem Sound.safe_of_enters {p q : Point} (hp : p.Sound) (h : Enters limit p q) :
    q.IsSafe limit fun _ => False :=
  (hp.of_reaches (.single h)).safe

/-- Every change that a sound point makes leads to a sound store. -/
theorem Acts.sound {p : Point} {s t : State} (h : Acts limit p s t) (hp : p.Sound) :
    t.store.Sound := by
  have hsub : ∀ q, Enters limit p q → q.IsSafe limit fun _ => False :=
    fun q hq => hp.safe_of_enters hq
  obtain ⟨hs, ht⟩ := hp
  cases h with
  | assign hvalue | declare hvalue _ =>
    obtain ⟨-, hstore, hv⟩ := (hsub _ (.part .assigned)).of_done hvalue
    exact hstore.sound.assign _ _ hv.1
  | makeFunction => exact hs.newClosure ht ..
  | nameFunction hmade =>
    cases hmade
    exact (hs.newClosure ht ..).assign _ _ (Store.hasFunction_newFunction ..)
  | makeObject => exact hs.newObject
  | @initField _ _ _ o name _ _ _ _ _ hfirst =>
    obtain ⟨-, hstore, hv⟩ := (hsub _ (.part .firstInit)).of_done hfirst
    exact hstore.sound.setField (.object o) name hv.1
  | setField hreceiver hfield hvalue =>
    obtain ⟨-, hstore, hv⟩ := (hsub _ (.part (.setFieldValue hreceiver hfield))).of_done hvalue
    exact hstore.sound.setField _ _ hv.1
  | logCall _ | logPrint _ _ _ _ | print _ _ _ _ _ => exact hs
  | openScope _ hcode _ => exact hs.openScope (hs.closures _ _ _ _ hcode) ht.2.1 _ ht.2.2

/-- Every state in the course of a sound point has a sound store. -/
theorem Passes.sound {p : Point} {s : State} (h : Passes limit p s) (hp : p.Sound) :
    s.store.Sound := by
  cases h with
  | start hq => exact (hp.of_reaches hq).store
  | change hq hact => exact hact.sound (hp.of_reaches hq)
  | finish hq => exact (hp.of_reaches hq).safe.store.sound

end Point

/-! ### Runs -/

/-- A run starts at a sound point. -/
theorem Program.sound_start (p : Program) (fuel : Nat) (sink : Sink) : (p.start fuel sink).Sound :=
  ⟨Store.sound_initial, Store.sound_initial.hasGlobal⟩

/-- **No run crashes.** -/
theorem Program.ending_ne_crashed (p : Program) (fuel : Nat) (limit : DepthLimit) (sink : Sink) :
    (p.runWith fuel limit sink).ending ≠ .crashed := by
  have hsafe : (p.start fuel sink).IsSafe limit fun _ => False := (p.sound_start fuel sink).safe
  rw [runWith_eq_run]
  rcases hrun : (p.start fuel sink).run limit with ⟨o, u⟩
  rw [Point.IsSafe, hrun] at hsafe
  intro hend
  cases o with
  | crashed => exact hsafe.outcome
  | returning v line =>
    -- the value of the `return` has a text
    obtain ⟨text, htext⟩ := Store.exists_showValue? hsafe.store.sound.inStep v
    simp only [Run.ofOutcome, Ending.ofOutcome, htext] at hend
    cases hend
  | _ => cases hend

/-- **The store is sound in every state of every run.**  A run is the course of the point at which
it starts.  In each state of that course the scopes form a tree whose root is the global scope; the
scope of every function, and whatever a variable or a field refers to, is there; the only scope held
by a variable or a field is the global one, so that in the text of a value every scope shows as
`<env global>`.  The same holds of whatever a task that is reached refers to, its arguments among
them, and of the value it completes with, by a result or by a `return`. -/
theorem Program.store_sound_throughout (p : Program) (fuel : Nat) (limit : DepthLimit)
    (sink : Sink) :
    p.runWith fuel limit sink =
      Run.ofOutcome ((p.start fuel sink).run limit).1 ((p.start fuel sink).run limit).2 ∧
    (∀ s, (p.start fuel sink).Passes limit s →
      ((∀ e, ¬ Relation.TransGen s.store.Within e e) ∧
        (∀ e, s.store.HasScope e → Relation.ReflTransGen s.store.Within e globalScope) ∧
        ∀ e, ¬ s.store.Within globalScope e) ∧
      ((∀ f params body e, (s.store.function f).code = .closure params body e →
          s.store.HasScope e) ∧
        (∀ e, ∀ b ∈ (s.store.scope e).bindings.toList, s.store.Admits b.2) ∧
        ∀ o, ∀ b ∈ (s.store.fields o).values.toList, s.store.Admits b.2) ∧
      (∀ e, s.store.Admits (.scope e) →
        s.store.showValue? (.scope e) = some ("<env global>" : Text)) ∧
      ∀ v, s.store.Admits v → ∃ text, s.store.showValue? v = some text ∧
        s.store.unscoped.showValue? v = some text) ∧
    ∀ q, (p.start fuel sink).Reaches limit q →
      q.task.Valid q.state.store ∧
      (q.run limit).1.Admitted (q.run limit).2.store.Admits
        (q.task.Answers (q.run limit).2.store.Admits) := by
  have hstart := p.sound_start fuel sink
  refine ⟨p.runWith_eq_run fuel limit sink, fun s hs => ?_, fun q hq => ?_⟩
  · have hsound := hs.sound hstart
    refine ⟨⟨hsound.not_within_self, fun e he => hsound.within_globalScope he, ?_⟩,
      ⟨hsound.closures, hsound.bound, hsound.fields⟩,
      fun e he => congrArg some (hsound.showShallow_scope he), fun v hv => ?_⟩
    · intro e he
      exact absurd (hsound.of_within he).1 (Nat.not_lt_zero _)
    · obtain ⟨text, htext⟩ := Store.exists_showValue? hsound.inStep v
      exact ⟨text, htext, (hsound.showValue?_unscoped hv).trans htext⟩
  · have hpoint := hstart.of_reaches hq
    exact ⟨hpoint.task, Task.admitted_mono (fun _ hv => hv.1) hpoint.safe.outcome⟩

/-- A program in which a function outlives the call that made it, and returns an object of that call
that holds the global scope. -/
def keeper : Program where
  body := some (.mk 1
    [.fn 1 (some "make") ["x"] (some (.mk 1
      [.assign 2 true "kept" (.object 2 [.mk "outer" (.var 2 "global"), .mk "x" (.var 2 "x")]),
        .ret 3 (.fn 3 none [] (some (.mk 3 [.ret 3 (.var 3 "kept")])))])),
      .assign 4 true "get" (.call 4 (.var 4 "make") [.literal 4 (.int 7)]),
      .call 5 (.var 5 "print") [.call 5 (.var 5 "get") []]])

/-- The run of `keeper` makes two scopes inside the global one, one inside the other, and prints the
global scope as part of an object. -/
theorem store_sound_throughout_keeper :
    (keeper.run ⟨8⟩ {}).output = "\x7bouter: <env global>, x: 7\x7d\n" ∧
      ((keeper.start 8 {}).run ⟨8⟩).2.store.parent? ⟨2⟩ = some ⟨1⟩ ∧
      Relation.ReflTransGen ((keeper.start 8 {}).run ⟨8⟩).2.store.Within ⟨2⟩ globalScope := by
  refine ⟨by decide +kernel, by decide +kernel, ?_⟩
  have hstate := (keeper.store_sound_throughout 8 ⟨8⟩ {}).2.1 _ (.finish .refl)
  exact hstate.1.2.1 ⟨2⟩ (by decide +kernel)

end TreeScript
