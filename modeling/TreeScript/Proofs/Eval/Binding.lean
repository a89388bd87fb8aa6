import TreeScript.Proofs.Eval.Soundness
import TreeScript.Proofs.Store.Renaming

/-!
# What names stand for when a call begins

The call of a function of the program makes a scope inside the one in which the function was
created, and writes the receiver and then the arguments in it, from left to right.  Names may come
twice among the parameters, one of them may be `this`, and any of them may be bound further out: a
later write replaces an earlier one, and what is bound in the new scope hides what is bound around
it.  So when the body begins, a parameter stands for the argument at the last place at which it is
named, and a name that is no parameter for what it stands for in the scope of the function, apart
from `this`.

## Main definitions

* `IsLastAt` — the last place of a name in a list.
* `Store.CallScope` — what names stand for in the scope of a call.

## Main results

* `Store.get?_bindParams_of_mem`, `Store.get?_bindParams_of_not_mem` — what a scope binds after
  parameters have been bound in it.
* `Store.callScope_openScope` — **the scope of a call binds the parameters, then the receiver.**
* `Program.call_binds_arguments` — **what names stand for when a call begins.**
-/

namespace TreeScript

/-! ### Last places -/

/-- The name is at the place `i` of the list and at none after it. -/
def IsLastAt (names : List Text) (n : Text) (i : Nat) : Prop :=
  names[i]? = some n ∧ ∀ j, i < j → names[j]? ≠ some n

namespace IsLastAt

variable {names : List Text} {n : Text} {i j : Nat}

/-- A name has one last place. -/
theorem unique (h : IsLastAt names n i) (h' : IsLastAt names n j) : i = j := by
  rcases Nat.lt_trichotomy i j with hlt | heq | hgt
  · exact absurd h'.1 (h.2 j hlt)
  · exact heq
  · exact absurd h.1 (h'.2 i hgt)

/-- One more name at the front moves the last place. -/
theorem cons (h : IsLastAt names n i) (first : Text) : IsLastAt (first :: names) n (i + 1) := by
  refine ⟨h.1, fun j hj => ?_⟩
  obtain ⟨k, rfl⟩ : ∃ k, j = k + 1 := ⟨j - 1, by omega⟩
  exact h.2 k (Nat.lt_of_succ_lt_succ hj)

/-- A name that does not come again has its last place at the front. -/
theorem of_not_mem (h : n ∉ names) : IsLastAt (n :: names) n 0 := by
  refine ⟨rfl, fun j hj hname => ?_⟩
  obtain ⟨k, rfl⟩ : ∃ k, j = k + 1 := ⟨j - 1, by omega⟩
  exact h (List.mem_of_getElem? hname)

end IsLastAt

/-! ### The scope of a call -/

namespace Store

/-- Binding parameters leaves the names that are none as they are. -/
theorem get?_bindParams_of_not_mem {n : Text} (s : Store) (e : ScopeRef) {params : List Text}
    (hn : n ∉ params) (args : List Value) :
    ((bindParams s e params args).scope e).bindings.get? n = (s.scope e).bindings.get? n := by
  induction params generalizing s args with
  | nil => rfl
  | cons param params ih =>
    cases args with
    | nil => rfl
    | cons arg args =>
      rw [List.mem_cons, not_or] at hn
      rw [bindParams, ih _ hn.2, scope_assign]
      split
      · exact Bindings.get?_set_of_ne arg (Ne.symm hn.1)
      · rfl

/-- A parameter is bound to the argument at its last place. -/
theorem get?_bindParams_of_mem {n : Text} {s : Store} {e : ScopeRef} (he : s.HasScope e)
    {params : List Text} {args : List Value} (hlen : args.length = params.length)
    (hn : n ∈ params) : ∃ i, IsLastAt params n i ∧ i < args.length ∧
      ((bindParams s e params args).scope e).bindings.get? n = args[i]? := by
  induction params generalizing s args with
  | nil => cases hn
  | cons param params ih =>
    cases args with
    | nil => cases hlen
    | cons arg args =>
      by_cases hrest : n ∈ params
      · -- the name comes again, so this argument is written over
        obtain ⟨i, hlast, hi, hget⟩ :=
          ih ((s.extends_assign e param arg).hasScope he) (Nat.succ.inj hlen) hrest
        exact ⟨i + 1, hlast.cons param, Nat.succ_lt_succ hi, hget⟩
      · have hname : n = param := (List.mem_cons.mp hn).resolve_right hrest
        subst hname
        refine ⟨0, .of_not_mem hrest, Nat.succ_pos _, ?_⟩
        rw [bindParams, get?_bindParams_of_not_mem _ e hrest, scope_assign, if_pos ⟨rfl, he⟩]
        exact Bindings.get?_set_self _ _ _

/-- What names stand for in the scope `scope` of a call, in the store `t`, which was made from the
store `s`. -/
structure CallScope (s : Store) (closure : ScopeRef) (receiver : Value) (params : List Text)
    (args : List Value) (scope : ScopeRef) (t : Store) : Prop where
  /-- The scope is a new one. -/
  fresh : ¬ s.HasScope scope ∧ t.HasScope scope
  /-- A parameter stands for the argument at its last place. -/
  parameter : ∀ n ∈ params, ∃ i, IsLastAt params n i ∧ args[i]? = some (t.lookup scope n)
  /-- If it is no parameter, `this` stands for the receiver. -/
  this : Text.ofString "this" ∉ params → t.lookup scope "this" = receiver
  /-- Any other name stands for what it does in the scope of the function. -/
  outer : ∀ n, n ∉ params → n ≠ "this" → t.lookup scope n = s.lookup closure n
  /-- The scopes that were there before are as they were. -/
  scopes : ∀ e, s.HasScope e → t.scope e = s.scope e
  /-- So are all objects. -/
  objects : t.objects = s.objects
  /-- So are all functions. -/
  functions : t.functions = s.functions

section OpenScope

variable (s : Store) (closure : ScopeRef) (receiver : Value) (params : List Text)
  (args : List Value)

/-- A name that is no parameter is bound in the scope of a call only if it is `this`. -/
theorem get?_openScope_of_not_mem {n : Text} (hn : n ∉ params) :
    ((openScope closure receiver params args s).2.scope
      (openScope closure receiver params args s).1).bindings.get? n =
        if n = "this" then some receiver else none := by
  have hscope := s.hasScope_newScope (some closure)
  simp only [openScope]
  rw [get?_bindParams_of_not_mem _ _ hn, scope_assign, if_pos ⟨rfl, hscope⟩]
  split
  · next hthis =>
    subst hthis
    exact Bindings.get?_set_self _ _ _
  · next hthis =>
    rw [Bindings.get?_set_of_ne receiver (Ne.symm hthis), scope_newScope, if_pos rfl]
    rfl

/-- A parameter is bound in the scope of a call to the argument at its last place. -/
theorem get?_openScope_of_mem (hlen : args.length = params.length) {n : Text} (hn : n ∈ params) :
    ∃ i, IsLastAt params n i ∧ i < args.length ∧
      ((openScope closure receiver params args s).2.scope
        (openScope closure receiver params args s).1).bindings.get? n = args[i]? :=
  get?_bindParams_of_mem ((extends_assign ..).hasScope (s.hasScope_newScope (some closure))) hlen hn

/-- A name that the scope of a call binds stands for what it is bound to. -/
theorem lookup_openScope_of_some {n : Text} {v : Value}
    (hget : ((openScope closure receiver params args s).2.scope
      (openScope closure receiver params args s).1).bindings.get? n = some v) :
    (openScope closure receiver params args s).2.lookup
      (openScope closure receiver params args s).1 n = v := by
  rw [lookup, chain, List.findSome?_cons, hget]
  rfl

variable {closure}

/-- Any other name stands for what it does in the scope of the function. -/
theorem lookup_openScope_of_none (hclosure : ∀ r ∈ s.chain closure, s.HasScope r) {n : Text}
    (hget : ((openScope closure receiver params args s).2.scope
      (openScope closure receiver params args s).1).bindings.get? n = none) :
    (openScope closure receiver params args s).2.lookup
      (openScope closure receiver params args s).1 n = s.lookup closure n := by
  have hsame : ∀ r ∈ s.chain closure,
      ((openScope closure receiver params args s).2.scope r).bindings.get? n =
        (s.scope r).bindings.get? n := by
    intro r hr
    rw [scope_openScope_of_hasScope _ _ _ _ _ (hclosure r hr)]
  rw [lookup, chain_openScope, List.findSome?_cons, hget, ← List.head?_filterMap,
    List.filterMap_congr hsame, List.head?_filterMap, ← lookup]

/-- **The scope of a call binds the parameters, then the receiver**, inside the scope of the
function. -/
theorem callScope_openScope (hclosure : ∀ r ∈ s.chain closure, s.HasScope r)
    (hlen : args.length = params.length) :
    s.CallScope closure receiver params args (openScope closure receiver params args s).1
      (openScope closure receiver params args s).2 where
  fresh := ⟨Nat.lt_irrefl _, s.hasScope_openScope closure receiver params args⟩
  parameter n hn := by
    obtain ⟨i, hlast, hi, hget⟩ := s.get?_openScope_of_mem closure receiver params args hlen hn
    have harg : args[i]? = some args[i] := List.getElem?_eq_getElem hi
    rw [harg] at hget
    rw [s.lookup_openScope_of_some closure receiver params args hget]
    exact ⟨i, hlast, harg⟩
  this hthis := by
    have hget := s.get?_openScope_of_not_mem closure receiver params args hthis
    rw [if_pos rfl] at hget
    exact s.lookup_openScope_of_some closure receiver params args hget
  outer n hn hthis := by
    have hget := s.get?_openScope_of_not_mem closure receiver params args hn
    rw [if_neg hthis] at hget
    exact s.lookup_openScope_of_none receiver params args hclosure hget
  scopes e he := s.scope_openScope_of_hasScope closure receiver params args he
  objects := objects_bindParams ..
  functions := functions_openScope ..

end OpenScope

end Store

/-! ### Calls in a run -/

/-- **What names stand for when a call begins.**  Let `f` be a function of the program in a state of
a run, called with any receiver and any arguments.  If there are not as many arguments as parameters,
the call fails and leaves the state as it was.  Otherwise the body runs in a new scope, in which a
parameter stands for the argument at its last place among the parameters, `this` for the receiver if
it is no parameter, and any other name for what it stands for in the scope in which the function was
created; nothing that was there before has changed by then. -/
theorem Program.call_binds_arguments (p : Program) (fuel : Nat) (limit : DepthLimit) (sink : Sink)
    {s : State} (hstate : (p.start fuel sink).Passes limit s) {f : FunctionRef} {params : List Text}
    {body : Option Block} {closure : ScopeRef}
    (hcode : (s.store.function f).code = .closure params body closure) (receiver : Value)
    (args : List Value) (inv : Invoke) :
    (args.length ≠ params.length →
      callFunction inv (s.store.function f) receiver args s =
        (.failed (.failure ⟨.arity, 0, (s.store.function f).name ++ " expects " ++
          toString params.length ++ ", got " ++ toString args.length⟩), s)) ∧
    (args.length = params.length →
      callFunction inv (s.store.function f) receiver args s =
        Exec.catchReturn
          (runOptional inv (openScope closure receiver params args s.store).1 body)
          (s.withStore (openScope closure receiver params args s.store).2) ∧
      s.store.CallScope closure receiver params args
        (openScope closure receiver params args s.store).1
        (openScope closure receiver params args s.store).2) := by
  have hsound : s.store.Sound := hstate.sound (p.sound_start fuel sink)
  have hclosure : ∀ r ∈ s.store.chain closure, s.store.HasScope r := fun r hr =>
    hsound.hasScope_of_mem_chain (hsound.closures f params body closure hcode) hr
  rw [callFunction_closure hcode]
  refine ⟨fun hlen => callClosure_of_length_ne hlen _ body closure s, fun hlen => ⟨?_, ?_⟩⟩
  · exact callClosure_of_length_eq hlen _ body closure s
  · exact s.store.callScope_openScope receiver params args hclosure hlen

/-- The parameters of `namesakes`: one comes twice, one is named like a native function, and one is
`this`. -/
def namesakeParams : List Text := ["x", "print", "x", "this"]

/-- The body of the function of `namesakes`. -/
def namesakeBody : Option Block := some (.mk 2 [.ret 3 (.var 3 "x")])

/-- A program with a variable and a function that can see it. -/
def namesakes : Program where
  body := some (.mk 1
    [.assign 1 true "y" (.literal 1 (.int 7)), .fn 2 (some "f") namesakeParams namesakeBody])

/-- The arguments of a call of the function of `namesakes`. -/
def namesakeArgs : List Value := [.int 1, .int 2, .int 3, .int 4]

/-- When the function of `namesakes` is called with four arguments after the run, the name that
comes twice stands for the third and `this` for the fourth.  Called with none, it fails. -/
theorem call_binds_arguments_namesakes :
    ∃ s scope t, (namesakes.start 8 {}).Passes ⟨8⟩ s ∧
      s.store.function ⟨12⟩ = ⟨"f", .closure namesakeParams namesakeBody globalScope⟩ ∧
      callFunction (invoke ⟨8⟩ 8 1) (s.store.function ⟨12⟩) .undefined [] s =
        (.failed (.failure ⟨.arity, 0, "f expects 4, got 0"⟩), s) ∧
      callFunction (invoke ⟨8⟩ 8 1) (s.store.function ⟨12⟩) .undefined namesakeArgs s =
        Exec.catchReturn (runOptional (invoke ⟨8⟩ 8 1) scope namesakeBody) (s.withStore t) ∧
      t.lookup scope "x" = .int 3 ∧ t.lookup scope "print" = .int 2 ∧
      t.lookup scope "this" = .int 4 ∧ t.lookup scope "y" = .int 7 := by
  have hstate : (namesakes.start 8 {}).Passes ⟨8⟩ ((namesakes.start 8 {}).run ⟨8⟩).2 :=
    .finish .refl
  have hfunction : ((namesakes.start 8 {}).run ⟨8⟩).2.store.function ⟨12⟩ =
      ⟨"f", .closure namesakeParams namesakeBody globalScope⟩ := by rfl
  have hvariable : ((namesakes.start 8 {}).run ⟨8⟩).2.store.lookup globalScope "y" = .int 7 := by
    decide +kernel
  generalize ((namesakes.start 8 {}).run ⟨8⟩).2 = s at *
  have hcode : (s.store.function ⟨12⟩).code = .closure namesakeParams namesakeBody globalScope := by
    rw [hfunction]
  have hcall := fun args =>
    namesakes.call_binds_arguments 8 ⟨8⟩ {} hstate hcode .undefined args (invoke ⟨8⟩ 8 1)
  have hnone := (hcall []).1 (by decide)
  obtain ⟨hbody, hscope⟩ := (hcall namesakeArgs).2 rfl
  -- the last place of a parameter says which argument it stands for
  have hplace : ∀ {n : Text} {i : Nat} {v : Value}, IsLastAt namesakeParams n i →
      namesakeArgs[i]? = some v → n ∈ namesakeParams →
        (openScope globalScope .undefined namesakeParams namesakeArgs s.store).2.lookup
          (openScope globalScope .undefined namesakeParams namesakeArgs s.store).1 n = v := by
    intro n i v hlast harg hn
    obtain ⟨j, hj, hlookup⟩ := hscope.parameter n hn
    rw [hj.unique hlast, harg] at hlookup
    exact (Option.some.inj hlookup).symm
  refine ⟨s, _, _, hstate, hfunction, ?_, hbody, ?_, ?_, ?_, ?_⟩
  · rw [hfunction] at hnone ⊢
    exact hnone
  · exact hplace (((IsLastAt.of_not_mem (by decide)).cons _).cons _) rfl (by decide)
  · exact hplace ((IsLastAt.of_not_mem (by decide)).cons _) rfl (by decide)
  · exact hplace ((((IsLastAt.of_not_mem (by decide)).cons _).cons _).cons _) rfl (by decide)
  · exact (hscope.outer "y" (by decide) (by decide)).trans hvariable

end TreeScript
