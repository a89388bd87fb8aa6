import TreeScript.Proofs.Eval.DepthGuard
import TreeScript.Proofs.Eval.Origin

/-!
# A return never crosses a call

A `return` goes up to the nearest call and no further.  So the evaluation of an expression can end
with a `return` only if one is written in it outside the bodies of its functions, for what is
written inside those is only evaluated by calls; and a run can end with one only if the program
returns outside all functions, wherever its functions are kept and from wherever they are called.

## Main results

* `Expr.mem_ownNodes_of_returning` — a `return` on its way is written in the expression itself.
* `Program.return_kept_inside` — **the same of expressions, invocations and runs.**
-/

namespace TreeScript

/-- A `return` on its way is written in the expression, outside the bodies of its functions. -/
theorem Expr.mem_ownNodes_of_returning {limit : DepthLimit} {fuel depth : Nat} {scope : ScopeRef}
    {e : Expr} {s u : State} {v : Value} {line : Int}
    (h : e.eval (invoke limit fuel depth) scope s = (.returning v line, u)) :
    ∃ value, .ret line value ∈ e.ownNodes := by
  obtain ⟨scope', value, s', hleads, -⟩ := Task.leads_to_return (t := .expr scope e)
    (fun f r vs l s' => invoke_ne_returning _ _ _ f u) h
  exact ⟨value, hleads.collect_subset false (mem_collect false _)⟩

/-- A run that fails because of a `return` has one that is written outside all functions. -/
theorem Program.mem_ownNodes_of_failure (p : Program) {fuel : Nat} {limit : DepthLimit}
    {sink : Sink} (hsink : sink.Spares .returnOutsideFunction) {f : Failure}
    (hf : (p.runWith fuel limit sink).failure? = some f)
    (hkind : f.kind = .returnOutsideFunction) : ∃ value, .ret f.line value ∈ p.ownNodes := by
  obtain ⟨e, he, hfailure⟩ := Run.exists_fault_of_failure? hf
  rcases p.cause_of_ending he with ⟨e₀, hmakes, hloc⟩ | ⟨line, text, value, rfl, -, hmem⟩ |
    ⟨f₀, node, hloc, hne, -, -⟩
  · exact absurd hkind (hsink.kind_ne hmakes hloc hfailure)
  · cases hfailure
    exact ⟨value, hmem⟩
  · -- no other error is of this kind
    obtain ⟨f₁, hf₁, hkind₁⟩ := hloc.exists_failure? hfailure
    cases hf₁
    exact absurd (hkind₁.trans hkind) hne

/-- **A `return` never crosses a call.**  If the evaluation of an expression ends with a `return`,
one on the same line is written in the expression outside the bodies of its functions; and no
invocation ends so.  On a sink that makes no such failure itself, a run fails because of a `return`
only if one is written in the program outside the bodies of its functions, and on the line of such a
one; so a program that has none never does. -/
theorem Program.return_kept_inside :
    (∀ (limit : DepthLimit) (fuel depth : Nat) (scope : ScopeRef) (e : Expr) (s u : State)
      (v : Value) (line : Int),
      e.eval (invoke limit fuel depth) scope s = (.returning v line, u) →
      ∃ value, .ret line value ∈ e.ownNodes) ∧
    (∀ (limit : DepthLimit) (fuel depth : Nat) (f : FunctionRef) (receiver : Value)
      (args : List Value) (line line' : Int) (s u : State) (v : Value),
      invoke limit fuel depth f receiver args line s ≠ (.returning v line', u)) ∧
    (∀ (p : Program) (fuel : Nat) (limit : DepthLimit) (sink : Sink) (f : Failure),
      sink.Spares .returnOutsideFunction → (p.runWith fuel limit sink).failure? = some f →
      f.kind = .returnOutsideFunction → ∃ value, .ret f.line value ∈ p.ownNodes) ∧
    ∀ p : Program, (∀ line value, .ret line value ∉ p.ownNodes) →
      ∀ (fuel : Nat) (limit : DepthLimit) (sink : Sink) (f : Failure),
      sink.Spares .returnOutsideFunction → (p.runWith fuel limit sink).failure? = some f →
      f.kind ≠ .returnOutsideFunction := by
  refine ⟨?_, ?_, ?_, ?_⟩
  · intro limit fuel depth scope e s u v line h
    exact Expr.mem_ownNodes_of_returning h
  · intro limit fuel depth f receiver args line line' s u v
    exact invoke_ne_returning limit fuel depth f u
  · intro p fuel limit sink f hsink hf hkind
    exact p.mem_ownNodes_of_failure hsink hf hkind
  · intro p hnone fuel limit sink f hsink hf hkind
    obtain ⟨value, hmem⟩ := p.mem_ownNodes_of_failure hsink hf hkind
    exact hnone f.line value hmem

/-- A program with a `return` in an argument outside all functions, after a call of a function that
was stored in an object and has a `return` of its own. -/
def stray : Program where
  body := some (.mk 1
    [.assign 1 true "o" (.object 1 [.mk "f" (.fn 1 none [] (some (.mk 1
      [.ret 2 (.literal 2 (.int 5))])))]),
      .call 3 (.var 3 "print") [.send 3 (.var 3 "o") "f" []],
      .call 4 (.var 4 "print") [.ret 5 (.literal 5 (.int 6))]])

/-- The run of `stray` prints what the function returned, and then fails at the other `return`. -/
theorem return_kept_inside_stray :
    (stray.run ⟨4⟩ {}).output = "5\n" ∧
      (stray.run ⟨4⟩ {}).failure? = some ⟨.returnOutsideFunction, 5, "6"⟩ ∧
      ∃ value, .ret 5 value ∈ stray.ownNodes := by
  have hfailure : (stray.run ⟨4⟩ {}).failure? = some ⟨.returnOutsideFunction, 5, "6"⟩ := by
    decide +kernel
  exact ⟨by decide +kernel, hfailure,
    Program.return_kept_inside.2.2.1 stray _ ⟨4⟩ {} _ (Sink.spares_open _) hfailure rfl⟩

end TreeScript
