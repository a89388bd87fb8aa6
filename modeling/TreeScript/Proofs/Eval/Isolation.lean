import TreeScript.Proofs.Eval.Soundness

/-!
# Calls are isolated from the scopes around them

An invocation works in scopes of its own.  The body of the function runs in a scope made for the
call, and so does whatever it calls; variables are only written in the scope in which an expression
is evaluated.  So an invocation leaves the variables of every scope that was there before alone,
also those that the function has captured.  The one way to reach further is a field assignment, and
as a scope comes by as a value only if it is the global one, that way leads to objects and to the
global scope.

What an invocation leaves behind is said by `Store.Framed`.  It is checked for each change of state
that evaluation can make, and holds of the whole invocation because it is preserved along its
course.

## Main definitions

* `Written` — variables, or fields, that come from others by writes of a given kind.
* `Point.Writes` — a field assignment that is carried out in the course of a point.
* `Store.Framed` — what the changes inside an invocation leave behind.
* `Task.Inside` — a task that works in a scope made since.

## Main results

* `Point.Acts.framed` — **every change inside an invocation is framed.**
* `Program.call_isolated` — **invocations leave the scopes that exist alone.**
-/

namespace TreeScript

open Relation

/-! ### Writes -/

section Written

variable {β : Type} {set : β → Text → Value → β} {W : Text → Value → Prop} {b b' : β}

/-- `Written set W b b'`: the variables, or fields, `b'` come from `b` by writes, each of a value to a
name as in `W`. -/
def Written (set : β → Text → Value → β) (W : Text → Value → Prop) : β → β → Prop :=
  ReflTransGen fun b b' => ∃ name v, W name v ∧ b' = set b name v

/-- Without writes nothing changes. -/
theorem Written.eq_of_forall_not (h : Written set W b b') (hW : ∀ name v, ¬ W name v) :
    b' = b := by
  induction h with
  | refl => rfl
  | tail _ hstep _ =>
    obtain ⟨name, v, hwrite, -⟩ := hstep
    exact absurd hwrite (hW name v)

/-- A name that is not written keeps its value. -/
theorem Written.get_eq {γ : Type} {name : Text} (h : Written set W b b') (get : β → γ)
    (hget : ∀ b written v, written ≠ name → get (set b written v) = get b)
    (hname : ∀ v, ¬ W name v) : get b' = get b := by
  induction h with
  | refl => rfl
  | tail _ hstep ih =>
    obtain ⟨written, v, hwrite, rfl⟩ := hstep
    have hne : written ≠ name := by
      rintro rfl
      exact hname v hwrite
    rw [hget _ written v hne, ih]

end Written

namespace Point

variable (limit : DepthLimit)

/-- A field assignment is evaluated in the course of a point. -/
def EvaluatesSetField (p : Point) : Prop :=
  ∃ fuel depth scope line receiver name value s,
    Reaches limit p ⟨fuel, depth, .expr scope (.setField line receiver name value), s⟩

/-- A field assignment is evaluated in the course of a point that writes the value `v` to the field
`name` of `holder`. -/
def Writes (p : Point) (holder : Value) (name : Text) (v : Value) : Prop :=
  ∃ fuel depth scope line receiver value s t u,
    Reaches limit p ⟨fuel, depth, .expr scope (.setField line receiver name value), s⟩ ∧
    receiver.eval (invoke limit fuel depth) scope s = (.done holder, t) ∧
    value.eval (invoke limit fuel depth) scope t = (.done v, u)

theorem Writes.evaluatesSetField {limit : DepthLimit} {p : Point} {holder v : Value} {name : Text}
    (h : Writes limit p holder name v) : EvaluatesSetField limit p := by
  obtain ⟨fuel, depth, scope, line, receiver, value, s, t, u, hreach, -, -⟩ := h
  exact ⟨fuel, depth, scope, line, receiver, name, value, s, hreach⟩

end Point

/-! ### Frames -/

namespace Store

/-- What changes inside an invocation leave behind of the first `n` scopes and the first `m`
objects, where the fields written are those in `W`. -/
structure Framed (n m : Nat) (W : Value → Text → Value → Prop) (s t : Store) : Prop where
  /-- Nothing was removed. -/
  grows : s.Extends t
  /-- The scopes are the same, apart from the global one. -/
  scopes : ∀ e : ScopeRef, e.id < n → e ≠ globalScope → t.scope e = s.scope e
  /-- Variables of the global scope were written as fields of it. -/
  global : Written Bindings.set (W (.scope globalScope)) (s.scope globalScope).bindings
    (t.scope globalScope).bindings
  /-- Nothing is around the global scope that was not before. -/
  outermost : (t.scope globalScope).enclosing = (s.scope globalScope).enclosing
  /-- Fields of the objects were written. -/
  objects : ∀ o : ObjectRef, o.id < m →
    Written Fields.set (W (.object o)) (s.fields o) (t.fields o)

namespace Framed

variable {n m : Nat} {W : Value → Text → Value → Prop} {s t u : Store}

theorem refl (s : Store) : Framed n m W s s :=
  ⟨.refl s, fun _ _ _ => rfl, .refl, rfl, fun _ _ => .refl⟩

theorem trans (h : Framed n m W s t) (h' : Framed n m W t u) : Framed n m W s u where
  grows := h.grows.trans h'.grows
  scopes e he hne := (h'.scopes e he hne).trans (h.scopes e he hne)
  global := ReflTransGen.trans h.global h'.global
  outermost := h'.outermost.trans h.outermost
  objects o ho := ReflTransGen.trans (h.objects o ho) (h'.objects o ho)

/-- If no variable of the global scope is written as a field, the scope is the same. -/
theorem scope_globalScope (h : Framed n m W s t)
    (hW : ∀ name v, ¬ W (.scope globalScope) name v) :
    t.scope globalScope = s.scope globalScope := by
  have hbindings := h.global.eq_of_forall_not hW
  have houter := h.outermost
  calc t.scope globalScope
      = ⟨(t.scope globalScope).enclosing, (t.scope globalScope).bindings⟩ := rfl
    _ = ⟨(s.scope globalScope).enclosing, (s.scope globalScope).bindings⟩ := by
      rw [houter, hbindings]
    _ = s.scope globalScope := rfl

/-- A change that leaves the first `n` scopes and the first `m` objects alone. -/
theorem of_eq (hext : s.Extends t) (hglobal : globalScope.id < n)
    (hscopes : ∀ e : ScopeRef, e.id < n → t.scope e = s.scope e)
    (hobjects : ∀ o : ObjectRef, o.id < m → t.fields o = s.fields o) : Framed n m W s t where
  grows := hext
  scopes e he _ := hscopes e he
  global := by rw [hscopes _ hglobal]; exact .refl
  outermost := by rw [hscopes _ hglobal]
  objects o ho := by rw [hobjects o ho]; exact .refl

/-- A variable is written in a scope that is not among the first `n`. -/
theorem assign (hglobal : globalScope.id < n) {e : ScopeRef} (he : n ≤ e.id) (name : Text)
    (v : Value) : Framed n m W s (s.assign e name v) := by
  refine of_eq (s.extends_assign e name v) hglobal ?_ fun _ _ => rfl
  intro e' he'
  refine scope_assign_of_ne s e e' name v ?_
  rintro rfl
  omega

/-- A field that is in `W` is written. -/
theorem setField {r v : Value} {name : Text} (hr : s.Admits r) (hW : W r name v) :
    Framed n m W s (s.setField r name v) := by
  have hext := s.extends_setField r name v
  cases r with
  | object o =>
    refine ⟨hext, fun _ _ _ => rfl, .refl, rfl, fun o' _ => ?_⟩
    rw [fields_setField_object]
    split
    · next hsame =>
      obtain ⟨rfl, -⟩ := hsame
      exact .single ⟨name, v, hW, rfl⟩
    · exact .refl
  | scope e =>
    -- the only scope that is held as a value is the global one
    have he : e = globalScope := hr
    subst he
    refine ⟨hext, fun e' _ hne => scope_assign_of_ne s _ e' name v hne.symm, ?_,
      enclosing_assign .., fun _ _ => .refl⟩
    simp only [Store.setField]
    rw [scope_assign]
    split
    · exact .single ⟨name, v, hW, rfl⟩
    · exact .refl
  | _ => exact refl s

/-- A field is written of an object that is not among the first `m`. -/
theorem initField (hglobal : globalScope.id < n) {o : ObjectRef} (ho : m ≤ o.id) (name : Text)
    (v : Value) : Framed n m W s (s.setField (.object o) name v) := by
  refine of_eq (s.extends_setField (.object o) name v) hglobal (fun _ _ => rfl) fun o' ho' => ?_
  rw [fields_setField_object, if_neg]
  rintro ⟨rfl, -⟩
  omega

theorem newObject (hglobal : globalScope.id < n) (hm : m ≤ s.objects.size) :
    Framed n m W s s.newObject.2 := by
  refine of_eq s.extends_newObject hglobal (fun _ _ => rfl) fun o ho => ?_
  rw [fields_newObject, if_neg]
  rintro rfl
  exact absurd ho (Nat.not_lt_of_le hm)

/-- Binding parameters in a scope writes variables of no other. -/
theorem bindParams (hglobal : globalScope.id < n) {e : ScopeRef} (he : n ≤ e.id)
    (params : List Text) (args : List Value) : Framed n m W s (bindParams s e params args) := by
  induction params generalizing s args with
  | nil => exact refl s
  | cons param params ih =>
    cases args with
    | nil => exact refl s
    | cons arg args => exact (assign hglobal he param arg).trans (ih args)

/-- The scope of a call is made after the first `n`, and only its own variables are written. -/
theorem openScope (hglobal : globalScope.id < n) (hn : n ≤ s.scopes.size) (closure : ScopeRef)
    (receiver : Value) (params : List Text) (args : List Value) :
    Framed n m W s (openScope closure receiver params args s).2 := by
  have hnew : Framed n m W s (s.newScope (some closure)).2 := by
    refine of_eq (s.extends_newScope (some closure)) hglobal (fun e he => ?_) fun _ _ => rfl
    rw [scope_newScope, if_neg]
    rintro rfl
    exact absurd he (Nat.not_lt_of_le hn)
  have hthis : n ≤ (s.newScope (some closure)).1.id := hn
  exact (hnew.trans (assign hglobal hthis "this" receiver)).trans
    (bindParams hglobal hthis params args)

end Framed

end Store

/-! ### The scopes of an invocation -/

/-- The task works in a scope that is not among the first `n`, and sets fields of an object that is not
among the first `m`, if it does so. -/
def Task.Inside (n m : Nat) : Task → Prop
  | .expr scope _ => n ≤ scope.id
  | .instrs scope _ => n ≤ scope.id
  | .args scope _ => n ≤ scope.id
  | .inits scope o _ => n ≤ scope.id ∧ m ≤ o.id
  | .call _ _ _ _ => True

/-- The parts of a task work in its scope and on its object, or on a new one, or are invocations. -/
theorem Task.Enters.inside {inv : Invoke} {t t' : Task} {s s' : State} {n m : Nat}
    (h : t.Enters inv s t' s') (ht : t.Inside n m) (hm : m ≤ s.store.objects.size) :
    t'.Inside n m := by
  cases h with
  | callInvoke _ _ | sendInvoke _ _ _ => trivial
  | initialisers => exact ⟨ht, hm⟩
  | firstInit => exact ht.1
  | _ => exact ht

namespace Point

variable {limit : DepthLimit}

/-- Whatever is done in the course of an invocation is done in scopes made since it began, and objects
are initialised that were made since. -/
theorem inside_of_reaches {p q : Point} (hp : p.Sound) (h : Reaches limit p q) {n m : Nat}
    (hn : n ≤ p.state.store.scopes.size) (hm : m ≤ p.state.store.objects.size)
    (ht : p.task.Inside n m) : q.task.Inside n m := by
  induction h with
  | refl => exact ht
  | tail hbefore hstep ih =>
    have hext := (hp.extends_of_reaches hbefore).1
    cases hstep with
    | part hpart => exact hpart.inside ih (Nat.le_trans hm hext.objects)
    | body _ _ _ => exact Nat.le_trans hn hext.scopes

/-- **Every change inside an invocation is framed.** -/
theorem Acts.framed {p c : Point} {s t : State} {n m : Nat} (h : Acts limit p s t) (hp : p.Sound)
    (hreach : Reaches limit c p) (ht : p.task.Inside n m) (hglobal : globalScope.id < n)
    (hn : n ≤ s.store.scopes.size) (hm : m ≤ s.store.objects.size) :
    Store.Framed n m (Writes limit c) s.store t.store := by
  have hsub : ∀ q, Enters limit p q → q.IsSafe limit fun _ => False :=
    fun q hq => hp.safe_of_enters hq
  cases h with
  | assign _ | declare _ _ => exact .assign hglobal ht ..
  | makeFunction =>
    exact .of_eq (Store.extends_newFunction ..) hglobal (fun _ _ => rfl) fun _ _ => rfl
  | nameFunction hmade => exact .assign hglobal ht ..
  | makeObject => exact .newObject hglobal hm
  | initField _ => exact .initField hglobal ht.2 ..
  | setField hreceiver hfield hvalue =>
    -- the receiver was admitted when it was evaluated, and still is when the field is written
    obtain ⟨-, -, hr⟩ := (hsub _ (.part .setFieldReceiver)).of_done hreceiver
    have hext := ((hsub _ (.part (.setFieldValue hreceiver hfield))).of_done hvalue).1
    exact .setField (hext.grows.admits hr.1) ⟨_, _, _, _, _, _, _, _, _, hreach, hreceiver, hvalue⟩
  | logCall _ | logPrint _ _ _ _ | print _ _ _ _ _ => exact .refl _
  | openScope _ _ _ => exact .openScope hglobal hn ..

variable (limit)

/-- An invocation as a whole is framed. -/
theorem Sound.framed {c : Point} (hc : c.Sound)
    (ht : c.task.Inside c.state.store.scopes.size c.state.store.objects.size) :
    Store.Framed c.state.store.scopes.size c.state.store.objects.size (Writes limit c) c.state.store
      (c.run limit).2.store := by
  -- sizes only grow, so the frame of a change can rely on those of the state it starts from
  let R : State → State → Prop := fun s t =>
    c.state.store.scopes.size ≤ s.store.scopes.size →
    c.state.store.objects.size ≤ s.store.objects.size →
    Store.Framed c.state.store.scopes.size c.state.store.objects.size (Writes limit c) s.store
      t.store
  have hrun : R c.state (c.run limit).2 := by
    refine run_of_steps (R := R) (fun s _ _ => .refl _) ?_ c ?_
    · intro s t u hst htu hn hm
      have hframe := hst hn hm
      exact hframe.trans
        (htu (Nat.le_trans hn hframe.grows.scopes) (Nat.le_trans hm hframe.grows.objects))
    · intro q s t hq hact hn hm
      have hinside := inside_of_reaches hc hq (Nat.le_refl _) (Nat.le_refl _) ht
      exact hact.framed (hc.of_reaches hq) hq hinside hc.store.hasGlobal hn hm
  exact hrun (Nat.le_refl _) (Nat.le_refl _)

end Point

/-! ### Runs -/

/-- **Invocations leave the scopes that exist alone.**  Let `c` be the invocation of a function in a
state of a run, with a receiver and arguments that a program can come by; it may end in any way.
Every scope that was there before, apart from the global one, is the same afterwards.  The variables
of the global scope and the fields of the objects that were there before come from what they were by
the field assignments evaluated during the invocation.  So a variable or field that no such
assignment writes keeps its value, and if none is evaluated, all scopes and objects are the same. -/
theorem Program.call_isolated (p : Program) (fuel : Nat) (limit : DepthLimit) (sink : Sink)
    {c : Point} (hstate : (p.start fuel sink).Passes limit c.state) {f : FunctionRef}
    {receiver : Value} {args : List Value} {line : Int}
    (htask : c.task = .call f receiver args line) (hvalid : c.task.Valid c.state.store) :
    (∀ e, c.state.store.HasScope e → e ≠ globalScope →
      (c.run limit).2.store.scope e = c.state.store.scope e) ∧
    Written Bindings.set (c.Writes limit (.scope globalScope))
      (c.state.store.scope globalScope).bindings
      ((c.run limit).2.store.scope globalScope).bindings ∧
    (∀ o, c.state.store.HasObject o → Written Fields.set (c.Writes limit (.object o))
      (c.state.store.fields o) ((c.run limit).2.store.fields o)) ∧
    (∀ name, (∀ v, ¬ c.Writes limit (.scope globalScope) name v) →
      ((c.run limit).2.store.scope globalScope).bindings.get? name =
        (c.state.store.scope globalScope).bindings.get? name) ∧
    (∀ o, c.state.store.HasObject o → ∀ name, (∀ v, ¬ c.Writes limit (.object o) name v) →
      ((c.run limit).2.store.fields o).get? name = (c.state.store.fields o).get? name) ∧
    (¬ c.EvaluatesSetField limit →
      (∀ e, c.state.store.HasScope e → (c.run limit).2.store.scope e = c.state.store.scope e) ∧
      ∀ o, c.state.store.HasObject o →
        (c.run limit).2.store.fields o = c.state.store.fields o) := by
  have hsound : c.Sound := ⟨hstate.sound (p.sound_start fuel sink), hvalid⟩
  have hframe := hsound.framed limit (by rw [htask]; trivial)
  refine ⟨hframe.scopes, hframe.global, hframe.objects, ?_, ?_, ?_⟩
  · intro name hname
    exact hframe.global.get_eq (·.get? name) (fun _ _ v hne => Bindings.get?_set_of_ne v hne) hname
  · intro o ho name hname
    exact (hframe.objects o ho).get_eq (·.get? name) (fun _ _ v hne => Fields.get?_set_of_ne v hne)
      hname
  · intro hnone
    have hwrites : ∀ holder name v, ¬ c.Writes limit holder name v :=
      fun holder name v hwrite => hnone hwrite.evaluatesSetField
    refine ⟨fun e he => ?_, fun o ho => (hframe.objects o ho).eq_of_forall_not (hwrites _)⟩
    by_cases hglobal : e = globalScope
    · rw [hglobal]
      exact hframe.scope_globalScope (hwrites _)
    · exact hframe.scopes e he hglobal

/-- A program that makes a function which assigns to a variable it has captured, and to a field. -/
def captor : Program where
  body := some (.mk 1
    [.fn 1 (some "make") [] (some (.mk 1
      [.assign 2 true "x" (.literal 2 (.int 1)),
        .ret 3 (.fn 3 none [] (some (.mk 3
          [.assign 4 false "x" (.literal 4 (.int 2)),
            .setField 5 (.var 5 "box") "n" (.var 5 "x")])))])),
      .assign 6 true "box" (.object 6 [.mk "n" (.literal 6 (.int 1))]),
      .assign 7 true "change" (.call 7 (.var 7 "make") [])])

/-- The invocation, in a state after the run of `captor`, of the function that it made. -/
def captorCall (s : State) : Point where
  fuel := 8
  depth := 0
  task := .call ⟨13⟩ .undefined [] 8
  state := s

/-- The field is written by the invocation, but the captured variable is not. -/
theorem call_isolated_captorCall :
    (((captorCall ((captor.start 8 {}).run ⟨8⟩).2).run ⟨8⟩).2.store.fields ⟨0⟩).get? "n" =
        some (.int 2) ∧
      (((captorCall ((captor.start 8 {}).run ⟨8⟩).2).run ⟨8⟩).2.store.scope ⟨1⟩).bindings.get? "x" =
        some (.int 1) := by
  refine ⟨by decide +kernel, ?_⟩
  have hvariable : (((captor.start 8 {}).run ⟨8⟩).2.store.scope ⟨1⟩).bindings.get? "x" =
      some (.int 1) := by decide +kernel
  have hfunction : ((captor.start 8 {}).run ⟨8⟩).2.store.HasFunction ⟨13⟩ := by decide +kernel
  have hscope : ((captor.start 8 {}).run ⟨8⟩).2.store.HasScope ⟨1⟩ := by decide +kernel
  have hstate : (captor.start 8 {}).Passes ⟨8⟩ ((captor.start 8 {}).run ⟨8⟩).2 := .finish .refl
  generalize ((captor.start 8 {}).run ⟨8⟩).2 = s at *
  have hvalid : (captorCall s).task.Valid s.store := ⟨hfunction, trivial, fun _ hv => by cases hv⟩
  have hscopes := (captor.call_isolated 8 ⟨8⟩ {} (c := captorCall s) hstate rfl hvalid).1
  rw [hscopes ⟨1⟩ hscope (by decide)]
  exact hvariable

end TreeScript
