import TreeScript.Eval.Run
import TreeScript.Proofs.Eval.Congruence

/-!
# What steps can do

A step may print and log, but never takes back what was printed or logged.  It ends with a result,
a `return`, a failure, the error of the sink or a crash; and no failure is one of the call stack,
unless an invocation was refused, or the sink makes one.

Functions of the host can fail in any way they like, so all of this is said of stores that hold
none.  The store with which a run starts is one, and no step puts such a function into it.

## Main definitions

* `Exit` — a way of ending without a result, whatever the results are.
* `Store.HostFree` — no function of the store is one of the host's own.
* `Sink.Spares` — the sink never fails with a failure of some kind.
* `State.Grows` — what was printed and logged in one state is the beginning of what was in another.
* `Exec.Tame` — steps that only add to what was printed and logged.
* `Outcome.Plain`, `Exec.StoreOnly` — the ways in which evaluation ends by itself, and steps that end
  so and are about the store alone.
* `Outcome.Ordinary`, `Exec.Ordinary` — an outcome that no refused invocation can have, and tame
  steps with such.
* `Outcome.Native`, `Exec.Computes` — the ways in which native functions end, and steps that end so
  whatever the state.

## Main results

* `Exec.Elementary.storeOnly` — **elementary steps are about the store alone.**
* `computes_primitiveCall` — so are native functions other than `print`.
* `ordinary_callNative` — the calls of native functions are ordinary.
* `tame_invoke` — **every invocation is tame**, whatever the limit and the fuel.
-/

namespace TreeScript

/-! ### Sequencing, by the outcome of the first step -/

/-- A way for a step to end without a result. -/
inductive Exit
  /-- With a `return` of a value, written on a line. -/
  | returning (value : Value) (line : Int)
  /-- With an error. -/
  | failed (e : Fault)
  /-- By a crash. -/
  | crashed
  /-- Not within the bound on nested calls. -/
  | outOfFuel

/-- The outcome of a step that ends so. -/
def Exit.outcome {α : Type} : Exit → Outcome α
  | .returning v line => .returning v line
  | .failed e => .failed e
  | .crashed => .crashed
  | .outOfFuel => .outOfFuel

/-- An outcome is a result or an exit. -/
theorem Outcome.done_or_exit {α : Type} (o : Outcome α) :
    (∃ a, o = .done a) ∨ ∃ i : Exit, o = i.outcome := by
  cases o with
  | done a => exact Or.inl ⟨a, rfl⟩
  | returning v line => exact Or.inr ⟨.returning v line, rfl⟩
  | failed e => exact Or.inr ⟨.failed e, rfl⟩
  | crashed => exact Or.inr ⟨.crashed, rfl⟩
  | outOfFuel => exact Or.inr ⟨.outOfFuel, rfl⟩

namespace Exec

variable {α β : Type} {x : Exec α} {f : α → Exec β} {s t : State}

theorem andThen_done {a : α} (h : x s = (.done a, t)) : x.andThen f s = f a t := by
  simp only [andThen, h]

theorem andThen_returning {v : Value} {line : Int} (h : x s = (.returning v line, t)) :
    x.andThen f s = (.returning v line, t) := by
  simp only [andThen, h]

theorem andThen_failed {e : Fault} (h : x s = (.failed e, t)) : x.andThen f s = (.failed e, t) := by
  simp only [andThen, h]

theorem andThen_crashed (h : x s = (.crashed, t)) : x.andThen f s = (.crashed, t) := by
  simp only [andThen, h]

theorem andThen_outOfFuel (h : x s = (.outOfFuel, t)) : x.andThen f s = (.outOfFuel, t) := by
  simp only [andThen, h]

/-- An exit of the first step is one of the sequence. -/
theorem andThen_exit {i : Exit} (h : x s = (i.outcome, t)) :
    x.andThen f s = (i.outcome, t) := by
  cases i with
  | returning v line => exact andThen_returning h
  | failed e => exact andThen_failed h
  | crashed => exact andThen_crashed h
  | outOfFuel => exact andThen_outOfFuel h

/-- Steps in sequence have a result if both have. -/
theorem done_of_andThen {u : State} {b : β} (h : x.andThen f s = (.done b, u)) :
    ∃ a t, x s = (.done a, t) ∧ f a t = (.done b, u) := by
  rcases hx : x s with ⟨o, t⟩
  rcases o.done_or_exit with ⟨a, rfl⟩ | ⟨i, rfl⟩
  · rw [andThen_done hx] at h
    exact ⟨a, t, rfl, h⟩
  · rw [andThen_exit hx] at h
    cases i <;> cases h

/-- If the whole has enough fuel, so does its first step. -/
theorem ne_outOfFuel_of_andThen (h : (x.andThen f s).1 ≠ .outOfFuel) : (x s).1 ≠ .outOfFuel := by
  intro hx
  exact h (by rw [andThen_outOfFuel (Prod.ext hx rfl)])

end Exec

/-! ### Stores without functions of the host -/

/-- No function of the store is one of the host's own. -/
def Store.HostFree (s : Store) : Prop :=
  ∀ f arity body, (s.function f).code ≠ .native arity (.host body)

namespace Store

theorem HostFree.of_functions {s t : Store} (h : s.HostFree) (hf : t.functions = s.functions) :
    t.HostFree := by
  intro f arity body
  have := h f arity body
  rwa [function, ← hf] at this

@[simp] theorem functions_assign (s : Store) (e : ScopeRef) (name : Text) (v : Value) :
    (s.assign e name v).functions = s.functions := rfl

@[simp] theorem functions_setField (s : Store) (holder : Value) (name : Text) (v : Value) :
    (s.setField holder name v).functions = s.functions := by
  cases holder <;> rfl

@[simp] theorem functions_bindParams (s : Store) (e : ScopeRef) (params : List Text)
    (args : List Value) : (bindParams s e params args).functions = s.functions := by
  induction params generalizing s args with
  | nil => rfl
  | cons param params ih =>
    cases args with
    | nil => rfl
    | cons arg args => rw [bindParams, ih, functions_assign]

@[simp] theorem functions_openScope (s : Store) (closure : ScopeRef) (receiver : Value)
    (params : List Text) (args : List Value) :
    (openScope closure receiver params args s).2.functions = s.functions := by
  simp [openScope, newScope]

/-- Adding a function that is not one of the host's own keeps a store free of them. -/
theorem HostFree.newFunction {s : Store} (h : s.HostFree) {f : Function}
    (hf : ∀ arity body, f.code ≠ .native arity (.host body)) : (s.newFunction f).2.HostFree := by
  intro r arity body
  have hr := h r arity body
  simp only [function, Store.newFunction] at hr ⊢
  rw [Array.getElem?_push]
  split
  · exact hf arity body
  · exact hr

/-- What holds of the store with a global scope only, and is kept by the definition of each native
function, holds of the store with which a run starts. -/
theorem initial_induction {P : Store → Prop}
    (base : P ((Store.newScope {} none).2.assign globalScope "global" (.scope globalScope)))
    (define : ∀ s name arity p, (name, arity, p) ∈ builtins → P s → P (s.define name arity p)) :
    P Store.initial := by
  unfold Store.initial Store.globals Store.defineAll
  refine List.foldlRecOn builtins _ base fun s hs d hd => ?_
  exact define s d.1 d.2.1 d.2.2 hd hs

/-- No native function of the language is one of the host's own. -/
theorem not_host_of_mem_builtins {name : String} {arity : Arity} {p : Primitive}
    (h : (name, arity, p) ∈ builtins) (body : Value → List Value → Except Fault Value) :
    p ≠ .host body := by
  rintro rfl
  simp [builtins, builtinsIn, Arithmetic.all, Comparison.all] at h

/-- The store with which a run starts holds no function of the host. -/
theorem hostFree_initial : Store.initial.HostFree := by
  refine initial_induction ?_ fun s name arity p hmem hs => ?_
  · intro f arity body
    simp [function, newScope, assign, default]
  · refine HostFree.of_functions (hs.newFunction ?_) (functions_assign ..)
    intro arity' body hcode
    simp only [Code.native.injEq] at hcode
    exact not_host_of_mem_builtins hmem body hcode.2

end Store

/-! ### Sinks -/

namespace Sink

/-- The sink once it has been given some lines. -/
def afterAll (s : Sink) (lines : List Text) : Sink := ⟨fun given => s.refusal? (lines ++ given)⟩

theorem after_eq (s : Sink) (line : Text) : s.after line = s.afterAll [line] := rfl

theorem afterAll_afterAll (s : Sink) (lines lines' : List Text) :
    (s.afterAll lines).afterAll lines' = s.afterAll (lines ++ lines') := by
  simp only [afterAll, List.append_assoc]

/-- The sink never fails with a failure of a kind. -/
def Spares (s : Sink) (kind : FailureKind) : Prop :=
  ∀ given line e f, s.refusal? given line = some e → e.failure? = some f → f.kind ≠ kind

theorem Spares.afterAll {s : Sink} {kind : FailureKind} (h : s.Spares kind) (lines : List Text) :
    (s.afterAll lines).Spares kind :=
  fun given => h (lines ++ given)

/-- A sink that accepts every line fails with nothing. -/
theorem spares_open (kind : FailureKind) : Spares {} kind := by
  intro given line e f h
  cases h

/-- The error of a sink that is closed is no failure. -/
theorem spares_closingAfter (room : Nat) (kind : FailureKind) :
    (closingAfter room).Spares kind := by
  intro given line e f he hf
  simp only [closingAfter] at he
  split at he
  · cases he
  · cases he
    cases hf

end Sink

/-! ### Output and log only grow -/

/-- The state with one more entry in its log. -/
def State.logged (s : State) (entry : LogEntry) : State := { s with log := s.log.push entry }

/-- The state with another store. -/
def State.withStore (s : State) (store : Store) : State := { s with store := store }

@[simp] theorem State.withStore_store (s : State) (store : Store) :
    (s.withStore store).store = store := rfl

/-- What was printed and logged in `s` is the beginning of what was in `t`, and the sink has been given
lines, if any, since. -/
structure State.Grows (s t : State) : Prop where
  /-- The printed lines go on. -/
  printed : s.printed.toList <+: t.printed.toList
  /-- So does the log. -/
  log : s.log.toList <+: t.log.toList
  /-- The sink is that of before. -/
  sink : ∃ lines, t.sink = s.sink.afterAll lines

namespace State.Grows

theorem refl (s : State) : Grows s s := ⟨List.prefix_rfl, List.prefix_rfl, [], rfl⟩

theorem trans {s t u : State} (h : Grows s t) (h' : Grows t u) : Grows s u := by
  obtain ⟨lines, hlines⟩ := h.sink
  obtain ⟨lines', hlines'⟩ := h'.sink
  refine ⟨h.printed.trans h'.printed, h.log.trans h'.log, lines ++ lines', ?_⟩
  rw [hlines', hlines, Sink.afterAll_afterAll]

/-- A change of the store alone. -/
theorem store (s : State) (store : Store) : Grows s { s with store := store } :=
  ⟨List.prefix_rfl, List.prefix_rfl, [], rfl⟩

theorem logged (s : State) (entry : LogEntry) : Grows s (s.logged entry) :=
  ⟨List.prefix_rfl, by rw [State.logged, Array.toList_push]; exact List.prefix_append .., [], rfl⟩

/-- What the sink spares, it goes on sparing. -/
theorem spares {s t : State} (h : Grows s t) {kind : FailureKind} (hs : s.sink.Spares kind) :
    t.sink.Spares kind := by
  obtain ⟨lines, hlines⟩ := h.sink
  rw [hlines]
  exact hs.afterAll lines

end State.Grows

/-- A step that, from a store without functions of the host, leads to such a store and only adds to
what was printed and logged. -/
def Exec.Tame {α : Type} (x : Exec α) : Prop :=
  ∀ s, s.store.HostFree → State.Grows s (x s).2 ∧ (x s).2.store.HostFree

/-- An outcome of evaluation by itself: with neither an invocation nor a sink involved. -/
def Outcome.Plain {α : Type} : Outcome α → Prop
  | .done _ => True
  | .returning _ _ => True
  | .failed e => ∃ f, e = .failure f ∧ f.kind.isPlain = true
  | .crashed => True
  | .outOfFuel => False

/-- A step that looks at the store and changes nothing else.  It ends by itself, and puts no function of
the host into the store. -/
def Exec.StoreOnly {α : Type} (x : Exec α) : Prop :=
  ∃ g : Store → Outcome α × Store,
    (∀ s, x s = ((g s.store).1, s.withStore (g s.store).2)) ∧
    ∀ store, (g store).1.Plain ∧ (store.HostFree → (g store).2.HostFree)

/-- An outcome that is neither the refusal of an invocation nor out of fuel. -/
def Outcome.Ordinary {α : Type} : Outcome α → Prop
  | .failed e => ∀ f, e.failure? = some f → f.kind ≠ .stackExhausted
  | .outOfFuel => False
  | _ => True

theorem Outcome.Plain.ordinary {α : Type} {o : Outcome α} (h : o.Plain) : o.Ordinary := by
  cases o with
  | failed e =>
    obtain ⟨f, rfl, hkind⟩ := h
    intro f' hf' hexhausted
    cases hf'
    rw [hexhausted] at hkind
    cases hkind
  | outOfFuel => exact h
  | _ => trivial

/-- A tame step that ends in an ordinary way, if the sink does. -/
structure Exec.Ordinary {α : Type} (x : Exec α) : Prop where
  /-- It only adds to what was printed and logged. -/
  tame : x.Tame
  /-- It ends in an ordinary way. -/
  outcome : ∀ s, s.store.HostFree → s.sink.Spares .stackExhausted → (x s).1.Ordinary

theorem Exec.StoreOnly.ordinary {α : Type} {x : Exec α} (h : x.StoreOnly) : x.Ordinary := by
  obtain ⟨g, hg, hplain⟩ := h
  refine ⟨fun s hs => ?_, fun s _ _ => ?_⟩
  · rw [hg]
    exact ⟨.store s _, (hplain s.store).2 hs⟩
  · rw [hg]
    exact (hplain s.store).1.ordinary

/-! ### Elementary steps -/

/-- A declaration writes the name, or fails on its own line because the name has a value. -/
theorem Exec.declareAt_apply (line : Int) (scope : ScopeRef) (name : Text) (v : Value) (s : State) :
    Exec.atLine line (Exec.declare scope name v) s =
      if s.store.lookup scope name = .undefined then
        (.done (), { s with store := s.store.assign scope name v })
      else (.failed (.failure ⟨.alreadyDefined, line, name⟩), s) := by
  simp only [atLine, Exec.declare, Store.declare?]
  by_cases h : s.store.lookup scope name = .undefined
  · simp only [h, if_true]
  · simp only [h, if_false, Fault.atLine, Fault.failure?, if_true]

/-- Making something in the store. -/
theorem Exec.storeOnly_make {α : Type} {f : Store → α × Store}
    (hf : ∀ store, store.HostFree → (f store).2.HostFree) : (Exec.make f).StoreOnly :=
  ⟨fun store => (.done (f store).1, (f store).2), fun _ => rfl, fun store => ⟨trivial, hf store⟩⟩

/-- **Elementary steps are about the store alone.** -/
theorem Exec.Elementary.storeOnly {α : Type} {x : Exec α} (h : x.Elementary) : x.StoreOnly := by
  cases h with
  | result a => exact ⟨fun store => (.done a, store), fun _ => rfl, fun _ => ⟨trivial, id⟩⟩
  | read f => exact ⟨fun store => (.done (f store), store), fun _ => rfl, fun _ => ⟨trivial, id⟩⟩
  | demand f =>
    refine ⟨fun store => ((f store).elim .crashed .done, store), fun s => ?_, fun store => ⟨?_, id⟩⟩
    · simp only [Exec.demand]
      cases f s.store <;> rfl
    · dsimp only
      cases f store <;> trivial
  | refuse line detail hkind =>
    exact ⟨fun store => (.failed (.failure ⟨_, line, detail⟩), store), fun _ => rfl,
      fun _ => ⟨⟨_, rfl, hkind⟩, id⟩⟩
  | unwind v line =>
    exact ⟨fun store => (.returning v line, store), fun _ => rfl, fun _ => ⟨trivial, id⟩⟩
  | assign scope name v =>
    exact ⟨fun store => (.done (), store.assign scope name v), fun _ => rfl,
      fun _ => ⟨trivial, fun h => h.of_functions rfl⟩⟩
  | setField holder name v =>
    exact ⟨fun store => (.done (), store.setField holder name v), fun _ => rfl,
      fun _ => ⟨trivial, fun h => h.of_functions (Store.functions_setField ..)⟩⟩
  | makeFunction name params body scope =>
    exact storeOnly_make fun store h => h.newFunction (by simp)
  | makeObject => exact storeOnly_make fun store h => h.of_functions rfl
  | openScope closure receiver params args =>
    exact storeOnly_make fun store h => h.of_functions (Store.functions_openScope ..)
  | declare line scope name v =>
    refine ⟨fun store => if store.lookup scope name = .undefined then
        (.done (), store.assign scope name v)
      else (.failed (.failure ⟨.alreadyDefined, line, name⟩), store), fun s => ?_, fun store => ?_⟩
    · rw [declareAt_apply]
      by_cases hfree : s.store.lookup scope name = .undefined
      · simp only [hfree, if_true]; rfl
      · simp only [hfree, if_false]; rfl
    · by_cases hfree : store.lookup scope name = .undefined
      · simp only [hfree, if_true]
        exact ⟨trivial, fun h => h.of_functions rfl⟩
      · simp only [hfree, if_false]
        exact ⟨⟨_, rfl, rfl⟩, id⟩

/-- Reading a field gives its value and changes nothing, or fails because the receiver has none.  Such a
receiver is no object, so it has a text. -/
theorem Exec.fieldOf_apply (receiver : Value) (name : Text) (line : Int) (s : State) :
    Exec.fieldOf receiver name line s =
      match s.store.field? receiver name with
      | some v => (.done v, s)
      | none => (.failed (.failure ⟨.notAnObject, line,
          s.store.showShallow receiver ++ " has no field " ++ name⟩), s) := by
  cases receiver <;> rfl

/-- What follows a first step is tame, if every step that can follow is. -/
theorem Exec.Tame.after {α β : Type} {x : Exec α} {f : α → Exec β} {s : State}
    (hf : ∀ a, (f a).Tame) (hfree : (x s).2.store.HostFree) :
    State.Grows (x s).2 (x.andThen f s).2 ∧ (x.andThen f s).2.store.HostFree := by
  rcases h : x s with ⟨o, t⟩
  rw [h] at hfree
  rcases o.done_or_exit with ⟨a, rfl⟩ | ⟨i, rfl⟩
  · rw [andThen_done h]
    exact hf a t hfree
  · rw [andThen_exit h]
    exact ⟨.refl t, hfree⟩

/-- Sequencing tame steps is tame. -/
theorem Exec.Tame.andThen {α β : Type} {x : Exec α} {f : α → Exec β} (hx : x.Tame)
    (hf : ∀ a, (f a).Tame) : (x.andThen f).Tame := by
  intro s hs
  obtain ⟨hgrow, hfree⟩ := hx s hs
  obtain ⟨hgrow', hfree'⟩ := Exec.Tame.after hf hfree
  exact ⟨hgrow.trans hgrow', hfree'⟩

/-! ### Native functions -/

/-- A failure as native functions of the language have them: without a line, and about their
arguments. -/
def Failure.Native (f : Failure) : Prop :=
  f.line = 0 ∧ (f.kind = .arity ∨ f.kind = .type ∨ f.kind = .divisionByZero)

theorem Failure.Native.isPlain {f : Failure} (h : f.Native) : f.kind.isPlain = true := by
  obtain ⟨-, hkind⟩ := h
  rcases hkind with hkind | hkind | hkind <;> rw [hkind] <;> rfl

/-- An outcome as native functions of the language have them. -/
def Outcome.Native {α : Type} : Outcome α → Prop
  | .done _ => True
  | .failed e => ∃ f, e = .failure f ∧ f.Native
  | .crashed => True
  | _ => False

theorem Outcome.Native.plain {α : Type} {o : Outcome α} (h : o.Native) : o.Plain := by
  cases o with
  | failed e =>
    obtain ⟨f, rfl, hf⟩ := h
    exact ⟨f, rfl, hf.isPlain⟩
  | returning v line => exact h.elim
  | _ => exact h

/-- A step that changes nothing and ends as native functions do, in a way that does not depend on the
state. -/
def Exec.Computes {α : Type} (x : Exec α) : Prop :=
  ∃ o : Outcome α, o.Native ∧ ∀ s, x s = (o, s)

namespace Exec.Computes

variable {α β : Type} {x : Exec α}

theorem storeOnly (h : x.Computes) : x.StoreOnly := by
  obtain ⟨o, hnative, ho⟩ := h
  exact ⟨fun store => (o, store), ho, fun _ => ⟨hnative.plain, id⟩⟩

theorem result (a : α) : (Exec.result a).Computes := ⟨.done a, trivial, fun _ => rfl⟩

theorem refuse {f : Failure} (hf : f.Native) : (Exec.fail (.failure f) : Exec α).Computes :=
  ⟨.failed (.failure f), ⟨f, rfl, hf⟩, fun _ => rfl⟩

theorem ofExcept {r : Except Failure α} (hr : ∀ f, r = .error f → f.Native) :
    (Exec.ofExcept r).Computes := by
  cases r with
  | ok a => exact .result a
  | error f => exact .refuse (hr f rfl)

theorem argument (args : List Value) (place : Nat) : (Exec.argument args place).Computes := by
  unfold Exec.argument
  split
  · exact .result _
  · exact ⟨.crashed, trivial, fun _ => rfl⟩

theorem andThen {f : α → Exec β} (hx : x.Computes) (hf : ∀ a, (f a).Computes) :
    (x.andThen f).Computes := by
  obtain ⟨o, hnative, ho⟩ := hx
  rcases o.done_or_exit with ⟨a, rfl⟩ | ⟨i, rfl⟩
  · obtain ⟨o', hnative', ho'⟩ := hf a
    exact ⟨o', hnative', fun s => (andThen_done (ho s)).trans (ho' s)⟩
  · refine ⟨i.outcome, ?_, fun s => andThen_exit (ho s)⟩
    cases i <;> exact hnative

end Exec.Computes

/-- Arithmetic on integers fails on divisors only. -/
theorem Arithmetic.native_of_compute? {op : Arithmetic} {a b : Int64} {f : Failure}
    (h : op.compute? a b = .error f) : f.Native := by
  unfold Arithmetic.compute? at h
  split at h
  case h_4 | h_5 =>
    split at h
    · cases h; exact ⟨rfl, Or.inr (Or.inr rfl)⟩
    · cases h
  all_goals cases h

theorem Arithmetic.computes_operand (op : Arithmetic) (args : List Value) (place : Nat) :
    (op.operand args place).Computes := by
  refine (Exec.Computes.argument args place).andThen fun v => ?_
  cases v with
  | int n => exact .result n
  | _ => exact .refuse ⟨rfl, Or.inr (Or.inl rfl)⟩

/-- The failures of comparisons are about types. -/
theorem Comparison.native_of_eval {op : Comparison} {a b : Value} {f : Failure}
    (h : op.eval a b = .error f) : f.Native := by
  unfold Comparison.eval Value.compare? at h
  split at h
  · cases h
  · cases h; exact ⟨rfl, Or.inr (Or.inl rfl)⟩

/-- **Native functions of the language other than `print` are about their arguments alone.** -/
theorem computes_primitiveCall {p : Primitive} (hp : p ≠ .print) (hhost : ∀ body, p ≠ .host body)
    (receiver : Value) (args : List Value) : (p.call receiver args).Computes := by
  have htwo : ∀ g : Value → Value → Exec Value, (∀ a b, (g a b).Computes) →
      ((Exec.argument args 0).andThen fun a =>
        (Exec.argument args 1).andThen fun b => g a b).Computes := by
    intro g hg
    exact (Exec.Computes.argument args 0).andThen fun a =>
      (Exec.Computes.argument args 1).andThen fun b => hg a b
  cases p with
  | print => exact absurd rfl hp
  | host body => exact absurd rfl (hhost body)
  | arithmetic op =>
    refine (op.computes_operand args 0).andThen fun a => ?_
    refine (op.computes_operand args 1).andThen fun b => ?_
    refine (Exec.Computes.ofExcept fun f hf => Arithmetic.native_of_compute? hf).andThen fun n => ?_
    exact .result _
  | equal => exact htwo _ fun _ _ => .result _
  | notEqual => exact htwo _ fun _ _ => .result _
  | compare op => exact htwo _ fun a b => .ofExcept fun f hf => Comparison.native_of_eval hf

/-- **What a native function other than `print` does** is the same in every state, and changes
nothing.  It ends with no `return`; one of the host ends otherwise as it likes. -/
theorem primitiveCall_apply {p : Primitive} (hp : p ≠ .print) (receiver : Value)
    (args : List Value) :
    ∃ o, (∀ v line, o ≠ .returning v line) ∧ ∀ s, p.call receiver args s = (o, s) := by
  cases p with
  | host body =>
    simp only [Primitive.call]
    cases body receiver args with
    | ok v => exact ⟨.done v, by simp, fun _ => rfl⟩
    | error e => exact ⟨.failed e, by simp, fun _ => rfl⟩
  | _ =>
    obtain ⟨o, hnative, ho⟩ := computes_primitiveCall hp (by simp) receiver args
    refine ⟨o, fun v line hreturn => ?_, ho⟩
    rw [hreturn] at hnative
    exact hnative

/-- Operators give integers. -/
theorem int_of_primitiveCall {p : Primitive} (hp : p ≠ .print) (hhost : ∀ body, p ≠ .host body)
    {receiver v : Value} {args : List Value} {s t : State}
    (h : p.call receiver args s = (.done v, t)) : ∃ n, v = .int n := by
  have htwo : ∀ g : Value → Value → Exec Value,
      ((Exec.argument args 0).andThen fun a => (Exec.argument args 1).andThen (g a)) s =
        (.done v, t) → ∃ a b u, g a b u = (.done v, t) := by
    intro g hg
    obtain ⟨a, s', -, hg⟩ := Exec.done_of_andThen hg
    obtain ⟨b, u, -, hg⟩ := Exec.done_of_andThen hg
    exact ⟨a, b, u, hg⟩
  cases p with
  | print => exact absurd rfl hp
  | host body => exact absurd rfl (hhost body)
  | arithmetic op =>
    obtain ⟨a, s₁, -, h⟩ := Exec.done_of_andThen h
    obtain ⟨b, s₂, -, h⟩ := Exec.done_of_andThen h
    obtain ⟨n, s₃, -, h⟩ := Exec.done_of_andThen h
    cases h
    exact ⟨n, rfl⟩
  | equal | notEqual =>
    obtain ⟨a, b, u, h⟩ := htwo _ h
    cases h
    exact ⟨_, rfl⟩
  | compare op =>
    obtain ⟨a, b, u, h⟩ := htwo _ h
    unfold Comparison.eval at h
    cases hc : a.compare? b with
    | error f => rw [hc] at h; cases h
    | ok o => rw [hc] at h; cases h; exact ⟨_, rfl⟩

/-- Only `print` changes the state. -/
theorem primitiveCall_snd {p : Primitive} (hp : p ≠ .print) (receiver : Value) (args : List Value)
    (s : State) : (p.call receiver args s).2 = s := by
  obtain ⟨o, -, ho⟩ := primitiveCall_apply hp receiver args
  rw [ho]

/-- The state after a call of `print` was logged and the sink was given its line. -/
def State.offered (s : State) (text : Text) : State :=
  { s.logged (.print text) with sink := s.sink.after text }

/-- What `print` does: it logs the text, and prints it unless the sink refuses it. -/
theorem print_apply (receiver : Value) (args : List Value) (s : State) :
    Primitive.print.call receiver args s =
      match s.store.showValues? args with
      | none => (.crashed, s)
      | some text => match s.sink.refusal? [] text with
        | none => (.done .undefined, { s.offered text with printed := s.printed.push text })
        | some e => (.failed e, s.offered text) := by
  simp only [Primitive.call, bind, Exec.andThen, Exec.demand, Exec.log, Exec.printLine]
  cases s.store.showValues? args with
  | none => rfl
  | some text =>
    simp only
    cases s.sink.refusal? [] text <;> rfl

/-- `print` only adds to what was printed and logged. -/
theorem ordinary_print (receiver : Value) (args : List Value) :
    (Primitive.print.call receiver args).Ordinary := by
  constructor
  · intro s hs
    have hlog : ∀ text, s.log.toList <+: (s.offered text).log.toList :=
      fun text => (State.Grows.logged s (.print text)).log
    rw [print_apply]
    split
    · exact ⟨.refl s, hs⟩
    · next text _ =>
      split
      · exact ⟨⟨by rw [Array.toList_push]; exact List.prefix_append .., hlog text, [text], rfl⟩, hs⟩
      · exact ⟨⟨List.prefix_rfl, hlog text, [text], rfl⟩, hs⟩
  · intro s _ hsink
    rw [print_apply]
    split
    · trivial
    · next text _ =>
      split
      · trivial
      · next e he => exact fun f => hsink [] text e f he

/-- What a native function of the language does is ordinary. -/
theorem ordinary_primitiveCall {p : Primitive} (hp : ∀ body, p ≠ .host body) (receiver : Value)
    (args : List Value) : (p.call receiver args).Ordinary := by
  by_cases hprint : p = .print
  · rw [hprint]
    exact ordinary_print receiver args
  · exact (computes_primitiveCall hprint hp receiver args).storeOnly.ordinary

/-- **The call of a native function of the language is ordinary.** -/
theorem ordinary_callNative (arity : Arity) {p : Primitive} (hp : ∀ body, p ≠ .host body)
    (receiver : Value) (args : List Value) : (callNative arity p receiver args).Ordinary := by
  unfold callNative
  split
  · exact ordinary_primitiveCall hp receiver args
  · exact (Exec.Elementary.refuse _ _ rfl).storeOnly.ordinary

/-! ### Invocations -/

/-- A failure that is located keeps its kind and detail. -/
theorem Fault.atLine_failure (f : Failure) (line : Int) :
    (Fault.failure f).atLine line =
      .failure { f with line := if f.line = 0 then line else f.line } := by
  simp only [atLine, failure?]
  split <;> rfl

/-- The outcome of a call, by that of the body: a `return` is caught. -/
def Outcome.caught {α : Type} : Outcome α → Outcome Value
  | .done _ => .done .undefined
  | .returning v _ => .done v
  | .failed e => .failed e
  | .crashed => .crashed
  | .outOfFuel => .outOfFuel

/-- The outcome with its failure located. -/
def Outcome.located {α : Type} (line : Int) : Outcome α → Outcome α
  | .failed e => .failed (e.atLine line)
  | o => o

theorem Exec.catchReturn_apply {α : Type} (x : Exec α) (s : State) :
    x.catchReturn s = ((x s).1.caught, (x s).2) := by
  rcases h : x s with ⟨o, t⟩
  cases o <;> simp only [catchReturn, h, Outcome.caught]

theorem Exec.atLine_apply {α : Type} (line : Int) (x : Exec α) (s : State) :
    x.atLine line s = ((x s).1.located line, (x s).2) := by
  rcases h : x s with ⟨o, t⟩
  cases o <;> simp only [atLine, h, Outcome.located]

/-- An object is made, and then its initialisers are evaluated. -/
theorem Expr.eval_object (inv : Invoke) (scope : ScopeRef) (line : Int) (inits : List Init)
    (s : State) :
    (Expr.object line inits).eval inv scope s =
      (evalInits inv scope s.store.newObject.1 inits).andThen
        (fun _ => Exec.result (.object s.store.newObject.1)) (s.withStore s.store.newObject.2) := by
  have hmade : Exec.make (fun store => store.newObject) s =
      (.done s.store.newObject.1, s.withStore s.store.newObject.2) := rfl
  rw [Expr.eval]
  exact Exec.andThen_done hmade

section Call

variable {inv : Invoke} {params : List Text} {receiver : Value} {args : List Value}

theorem callFunction_closure {f : Function} {body : Option Block} {closure : ScopeRef}
    (h : f.code = .closure params body closure) :
    callFunction inv f receiver args =
      callClosure inv f.name params body closure receiver args := by
  rw [callFunction, h]

theorem callFunction_native {f : Function} {arity : Arity} {p : Primitive}
    (h : f.code = .native arity p) :
    callFunction inv f receiver args = callNative arity p receiver args := by
  rw [callFunction, h]

/-- A call with the wrong number of arguments fails and does nothing else. -/
theorem callClosure_of_length_ne (h : args.length ≠ params.length) (name : Text)
    (body : Option Block) (closure : ScopeRef) (s : State) :
    callClosure inv name params body closure receiver args s =
      (.failed (.failure ⟨.arity, 0,
        name ++ " expects " ++ toString params.length ++ ", got " ++ toString args.length⟩),
        s) := by
  rw [callClosure_eq, if_pos h]
  rfl

/-- Any other call runs the body in a new scope. -/
theorem callClosure_of_length_eq (h : args.length = params.length) (name : Text)
    (body : Option Block) (closure : ScopeRef) (s : State) :
    callClosure inv name params body closure receiver args s =
      Exec.catchReturn (runOptional inv (openScope closure receiver params args s.store).1 body)
        (s.withStore (openScope closure receiver params args s.store).2) := by
  rw [callClosure_eq, if_neg (by simp [h])]
  rfl

/-- A native function that does not take so many arguments fails and does nothing else. -/
theorem callNative_snd_of_not_accepts {arity : Arity} (h : arity.accepts args.length = false)
    (p : Primitive) (s : State) : (callNative arity p receiver args s).2 = s := by
  unfold callNative
  rw [h]
  rfl

theorem callNative_of_accepts {arity : Arity} (h : arity.accepts args.length = true)
    (p : Primitive) : callNative arity p receiver args = p.call receiver args := by
  unfold callNative
  rw [if_pos h]

end Call

/-- The entry by which an invocation is logged. -/
def callEntry (store : Store) (f : FunctionRef) (args : List Value) (line : Int) (depth : Nat) :
    LogEntry :=
  .invoke (store.function f).name line args.length (depth + 1)

section Invoke

variable {limit : DepthLimit} {depth : Nat} {f : FunctionRef} {receiver : Value}
  {args : List Value} {line : Int} {s : State}

/-- An invocation beyond the limit fails and does nothing else. -/
theorem invoke_of_reached (fuel : Nat) (h : limit.reached depth = true) :
    invoke limit fuel depth f receiver args line s =
      (.failed (.failure ⟨.stackExhausted, line,
        (s.store.function f).name ++ ", depth " ++ toString depth⟩), s) := by
  unfold invoke
  simp only [bind, Exec.andThen, Exec.read, h, if_true]
  rfl

/-- An invocation within the limit, but without fuel. -/
theorem invoke_zero (h : limit.reached depth = false) :
    invoke limit 0 depth f receiver args line s = (.outOfFuel, s) := by
  unfold invoke
  simp only [bind, Exec.andThen, Exec.read, h]
  rfl

/-- An invocation within the limit is logged and calls the function. -/
theorem invoke_succ (fuel : Nat) (h : limit.reached depth = false) :
    invoke limit (fuel + 1) depth f receiver args line s =
      Exec.atLine line
        (callFunction (invoke limit fuel (depth + 1)) (s.store.function f) receiver args)
        (s.logged (callEntry s.store f args line depth)) := by
  rw [invoke]
  simp only [bind, Exec.andThen, Exec.read, h]
  rfl

end Invoke

/-- The call of a function respects every congruence that relates the call of a native function to
itself. -/
theorem Congruence.callFunction_of_native {R : Congruence} {inv inv' : Invoke}
    (hinv : R.RelInvoke inv inv') {f : Function} {receiver : Value} {args : List Value}
    (hnative : ∀ arity p, f.code = .native arity p →
      R.Rel (callNative arity p receiver args) (callNative arity p receiver args)) :
    R.Rel (TreeScript.callFunction inv f receiver args)
      (TreeScript.callFunction inv' f receiver args) := by
  unfold TreeScript.callFunction
  cases hcode : f.code with
  | closure params body scope => exact callClosure hinv f.name params body scope receiver args
  | native arity p => exact hnative arity p hcode

/-- The call of a function that is not one of the host's own respects every congruence that relates
ordinary steps to themselves. -/
theorem Congruence.callFunction {R : Congruence} {inv inv' : Invoke} (hinv : R.RelInvoke inv inv')
    (hordinary : ∀ {x : Exec Value}, x.Ordinary → R.Rel x x) {f : Function}
    (hf : ∀ arity body, f.code ≠ .native arity (.host body)) (receiver : Value)
    (args : List Value) :
    R.Rel (TreeScript.callFunction inv f receiver args)
      (TreeScript.callFunction inv' f receiver args) := by
  refine callFunction_of_native hinv fun arity p hcode => ?_
  refine hordinary (ordinary_callNative arity (fun body hp => ?_) receiver args)
  exact hf arity body (by rw [hcode, hp])

/-- Tameness, as a congruence. -/
def Congruence.tame : Congruence where
  Rel x _ := x.Tame
  elementary h := h.storeOnly.ordinary.tame
  andThen hx hf := hx.andThen hf
  catchReturn hx := fun s hs => by rw [Exec.catchReturn_apply]; exact hx s hs

/-- **Every invocation is tame**, whatever the limit and the fuel. -/
theorem tame_invoke (limit : DepthLimit) (fuel depth : Nat) (f : FunctionRef) (receiver : Value)
    (args : List Value) (line : Int) : (invoke limit fuel depth f receiver args line).Tame := by
  induction fuel generalizing depth f receiver args line with
  | zero =>
    intro s hs
    cases h : limit.reached depth with
    | true => rw [invoke_of_reached 0 h]; exact ⟨.refl s, hs⟩
    | false => rw [invoke_zero h]; exact ⟨.refl s, hs⟩
  | succ fuel ih =>
    intro s hs
    cases h : limit.reached depth with
    | true => rw [invoke_of_reached _ h]; exact ⟨.refl s, hs⟩
    | false =>
      rw [invoke_succ fuel h, Exec.atLine_apply]
      -- the call starts from the state with the new entry in the log
      have hinv : Congruence.tame.RelInvoke (invoke limit fuel (depth + 1))
          (invoke limit fuel (depth + 1)) := ih (depth + 1)
      have hcall := Congruence.callFunction hinv Exec.Ordinary.tame (hs f) receiver args
      obtain ⟨hgrow, hfree⟩ := hcall (s.logged _) hs
      exact ⟨(State.Grows.logged s _).trans hgrow, hfree⟩

/-! ### Runs -/

/-- The state in which a run starts. -/
def State.start (sink : Sink) : State :=
  { store := Store.initial, log := #[.runStarted], sink := sink }

/-- What a run did whose root block ended with an outcome in a state. -/
def Run.ofOutcome (o : Outcome Unit) (s : State) : Run where
  ending := Ending.ofOutcome s.store.showValue? o
  printed := s.printed
  log := match Ending.entry? (Ending.ofOutcome s.store.showValue? o) with
    | some entry => s.log.push entry
    | none => s.log
  sink := s.sink

/-- A run is the evaluation of the root block from the state in which runs start. -/
theorem Program.runWith_eq (fuel : Nat) (limit : DepthLimit) (sink : Sink) (p : Program) :
    p.runWith fuel limit sink =
      Run.ofOutcome (runOptional (invoke limit fuel 0) globalScope p.body (State.start sink)).1
        (runOptional (invoke limit fuel 0) globalScope p.body (State.start sink)).2 := rfl

/-- A run is out of fuel only if its root block is. -/
theorem Run.ending_ofOutcome_ne {o : Outcome Unit} {s : State}
    (h : (Run.ofOutcome o s).ending ≠ .outOfFuel) : o ≠ .outOfFuel := by
  rintro rfl
  exact h rfl

/-- A run that ends with a `return` fails and tells of its value, if that has a text. -/
theorem Run.ending_returning (v : Value) (line : Int) (s : State) :
    (∃ text, s.store.showValue? v = some text ∧ (Run.ofOutcome (.returning v line) s).ending =
      .failed (.failure ⟨.returnOutsideFunction, line, text⟩)) ∨
    (Run.ofOutcome (.returning v line) s).ending = .crashed := by
  simp only [Run.ofOutcome, Ending.ofOutcome]
  cases s.store.showValue? v with
  | some text => exact Or.inl ⟨text, rfl, rfl⟩
  | none => exact Or.inr rfl

theorem Run.failed_of_returning {v : Value} {line : Int} {s : State} {e : Fault}
    (h : (Run.ofOutcome (.returning v line) s).ending = .failed e) :
    ∃ text, s.store.showValue? v = some text ∧
      e = .failure ⟨.returnOutsideFunction, line, text⟩ := by
  rcases Run.ending_returning v line s with ⟨text, htext, hend⟩ | hend
  · rw [hend] at h
    cases h
    exact ⟨text, htext, rfl⟩
  · rw [hend] at h
    cases h

end TreeScript
