import TreeScript.Value.Failure

/-!
# Locating errors

An error is passed on by those who meet it.  Each of them may wrap it in a context, or offer the
line of the node at which it was met.  A failure takes the first line other than zero that is
offered, if it was made without one, and keeps it; what it is about never changes.  As long as it has
no line it is taken out of its contexts whenever one is offered, even if that is zero.  An error that
is no failure takes no line and stays in its contexts.

## Main definitions

* `Handling` — what is done to an error.
* `Fault.after`, `Fault.handled` — an error after a step, and after many.
* `Fault.chain`, `Fault.contexts` — an error with those inside it, and the contexts around them.
* `firstNonzero` — the first number other than zero.

## Main results

* `Fault.failure?_after`, `Fault.failure?_handled` — the failure in an error, after a step and after
  many.
* `Fault.contexts_atLine` — the contexts of an error that is located.
* `Fault.first_line_wins` — **locating an error keeps what it is, and the first line wins.**
-/

namespace TreeScript

/-! ### Steps -/

/-- What is done to an error by one who meets it. -/
inductive Handling where
  /-- It is wrapped in a context. -/
  | wrap (context : Text)
  /-- It is offered a line. -/
  | locate (line : Int)
  deriving DecidableEq, Repr, Inhabited

/-- The line that is offered. -/
def Handling.line? : Handling → Option Int
  | .wrap _ => none
  | .locate line => some line

/-- The lines that are offered, in order. -/
def offeredLines (steps : List Handling) : List Int :=
  steps.filterMap Handling.line?

/-- The first number other than zero, or zero if there is none. -/
def firstNonzero (lines : List Int) : Int :=
  (lines.find? (· ≠ 0)).getD 0

namespace Fault

/-- An error after a step. -/
def after (e : Fault) : Handling → Fault
  | .wrap context => .wrapped context e
  | .locate line => e.atLine line

/-- An error after steps, one after another. -/
def handled (e : Fault) (steps : List Handling) : Fault :=
  steps.foldl after e

/-- An error, with the errors inside its contexts. -/
def chain : Fault → List Fault
  | .failure f => [.failure f]
  | .plain text => [.plain text]
  | .wrapped context inner => .wrapped context inner :: inner.chain

/-- The contexts of an error, outermost first. -/
def contexts : Fault → List Text
  | .failure _ => []
  | .plain _ => []
  | .wrapped context inner => context :: inner.contexts

/-- The failures in the chain of an error are the one that it is or has inside. -/
theorem failure_mem_chain_iff {e : Fault} {f : Failure} :
    .failure f ∈ e.chain ↔ e.failure? = some f := by
  induction e with
  | failure f' => simp [chain, failure?, eq_comm]
  | plain text => simp [chain, failure?]
  | wrapped context inner ih => simp [chain, failure?, ih]

end Fault

/-! ### The first line -/

theorem firstNonzero_cons (line : Int) (lines : List Int) :
    firstNonzero (line :: lines) = if line = 0 then firstNonzero lines else line := by
  by_cases h : line = 0 <;> simp [firstNonzero, h]

theorem firstNonzero_singleton (line : Int) : firstNonzero [line] = line := by
  rw [firstNonzero_cons]
  split
  · next h => exact h.symm
  · rfl

/-- The first of some lines, followed by others, gives the first of all. -/
theorem firstNonzero_append (lines rest : List Int) :
    firstNonzero (firstNonzero lines :: rest) = firstNonzero (lines ++ rest) := by
  induction lines with
  | nil => rfl
  | cons line lines ih =>
    rw [List.cons_append, firstNonzero_cons line lines, firstNonzero_cons line (lines ++ rest),
      ← ih]
    by_cases h : line = 0
    · rw [if_pos h, if_pos h]
    · rw [if_neg h, if_neg h, firstNonzero_cons, if_neg h]

namespace Fault

/-! ### What a step does -/

/-- Locating an error, by the failure in it. -/
theorem atLine_of_failure? {e : Fault} {f : Failure} (h : e.failure? = some f) (line : Int) :
    e.atLine line = if f.line = 0 then .failure { f with line := line } else e := by
  simp only [atLine, h]

/-- An error without a failure in it is not located. -/
theorem atLine_of_no_failure {e : Fault} (h : e.failure? = none) (line : Int) :
    e.atLine line = e := by
  simp only [atLine, h]

/-- Locating a failure takes it out of its contexts exactly if it has no line. -/
theorem contexts_atLine {e : Fault} {f : Failure} (h : e.failure? = some f) (line : Int) :
    (e.atLine line).contexts = if f.line = 0 then [] else e.contexts := by
  rw [atLine_of_failure? h]
  split <;> rfl

/-- A failure keeps its kind and its detail in a step, and takes a line that is offered if it has
none. -/
theorem failure?_after (e : Fault) (step : Handling) :
    (e.after step).failure? =
      e.failure?.map fun f => { f with line := firstNonzero (f.line :: step.line?.toList) } := by
  cases step with
  | wrap context =>
    simp only [after, failure?, Handling.line?, Option.toList_none, firstNonzero_singleton]
    exact Option.map_id'.symm
  | locate line =>
    cases h : e.failure? with
    | none => rw [after, atLine_of_no_failure h, h, Option.map_none]
    | some f =>
      rw [after, atLine_of_failure? h, Option.map_some, Handling.line?, Option.toList_some,
        firstNonzero_cons, firstNonzero_singleton]
      split
      · rfl
      · exact h

/-! ### What many steps do -/

/-- **The failure in an error keeps its kind and its detail**, and has the first line other than
zero among its own and those that are offered. -/
theorem failure?_handled (e : Fault) (steps : List Handling) :
    (e.handled steps).failure? =
      e.failure?.map fun f => { f with line := firstNonzero (f.line :: offeredLines steps) } := by
  induction steps generalizing e with
  | nil =>
    simp only [offeredLines, List.filterMap_nil, firstNonzero_singleton]
    exact Option.map_id'.symm
  | cons step rest ih =>
    have hlines : offeredLines (step :: rest) = step.line?.toList ++ offeredLines rest := by
      cases step <;> rfl
    rw [handled, List.foldl_cons, ← handled, ih, failure?_after, Option.map_map, hlines]
    congr 1
    funext f
    rw [← List.cons_append, ← firstNonzero_append]
    rfl

example : (Fault.failure ⟨.type, 0, "d"⟩).handled
    [.wrap "a", .locate 0, .wrap "b", .locate (-3), .wrap "c", .locate 7] =
      .wrapped "c" (.failure ⟨.type, -3, "d"⟩) := by decide

/-- **Locating an error keeps what it is, and the first line wins.**  Let an error be handled in any
steps.  If it was a failure, it still is or has inside exactly one, of the same kind and with the
same detail, whose line is the first other than zero among its own and those that were offered.  If
one more line is offered, the failure gets it and loses its contexts if its line was zero; otherwise
the error stays as it is.  If it was no failure, no failure is in its chain, and no line changes
it. -/
theorem first_line_wins (steps : List Handling) :
    (∀ f : Failure,
      (∀ f', .failure f' ∈ ((Fault.failure f).handled steps).chain ↔
        f'.kind = f.kind ∧ f'.detail = f.detail ∧
          f'.line = firstNonzero (f.line :: offeredLines steps)) ∧
      ∀ line,
        (((Fault.failure f).handled steps).atLine line =
          if firstNonzero (f.line :: offeredLines steps) = 0 then .failure { f with line := line }
          else (Fault.failure f).handled steps) ∧
        (((Fault.failure f).handled steps).atLine line).contexts =
          if firstNonzero (f.line :: offeredLines steps) = 0 then []
          else ((Fault.failure f).handled steps).contexts) ∧
    ∀ text,
      (∀ f, .failure f ∉ ((Fault.plain text).handled steps).chain) ∧
      ∀ line,
        ((Fault.plain text).handled steps).atLine line = (Fault.plain text).handled steps := by
  refine ⟨fun f => ?_, fun text => ?_⟩
  · have hfailure := failure?_handled (.failure f) steps
    rw [failure?, Option.map_some] at hfailure
    refine ⟨fun f' => ?_, fun line =>
      ⟨atLine_of_failure? hfailure line, contexts_atLine hfailure line⟩⟩
    obtain ⟨kind, line, detail⟩ := f'
    rw [failure_mem_chain_iff, hfailure, Option.some.injEq, Failure.mk.injEq]
    constructor
    · rintro ⟨hkind, hline, hdetail⟩
      exact ⟨hkind.symm, hdetail.symm, hline.symm⟩
    · rintro ⟨hkind, hdetail, hline⟩
      exact ⟨hkind.symm, hline.symm, hdetail.symm⟩
  · have hnone := failure?_handled (.plain text) steps
    rw [failure?, Option.map_none] at hnone
    refine ⟨fun f hf => ?_, atLine_of_no_failure hnone⟩
    rw [failure_mem_chain_iff, hnone] at hf
    cases hf

end Fault

end TreeScript
