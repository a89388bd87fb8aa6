import TreeScript.Proofs.Eval.Nodes
import TreeScript.Proofs.Eval.Soundness

/-!
# Where errors come from

An error that ends an evaluation was made at one point of its course: where a check of an expression
was not passed, or where an invocation was refused, had the wrong number of arguments, or called a
native function that failed.  On its way up it passes through invocations, and each of them gives
its line to a failure that has none; nothing else about the error changes.

So the error tells of a node that was evaluated: a failure has a kind, and each kind belongs to a
few sorts of nodes.

## Main definitions

* `Point.Faults` — an error that is made at a point.
* `Fault.LocatedFrom` — the same error, but for a line that it was given.
* `Failure.CausedBy` — a node of the sort, and on the line, that a failure tells of.
* `Sink.Makes` — an error with which a sink can refuse a line.

## Main results

* `Point.origin` — **every error was made at a point that was reached.**
* `Point.Faults.cause` — **an error made at a point tells of a node that was evaluated**, unless it
  is that of the sink.
* `Program.cause_of_ending` — so does an error that ends a run.
-/

namespace TreeScript

/-! ### Giving lines -/

/-- The error `e` is `e₀`, or the failure in it, which has no line, with a line. -/
def Fault.LocatedFrom (e e₀ : Fault) : Prop :=
  e = e₀ ∨ ∃ f line, e₀.failure? = some f ∧ f.line = 0 ∧ e = .failure { f with line := line }

/-- Locating an error once more. -/
theorem Fault.LocatedFrom.atLine {e e₀ : Fault} (h : e.LocatedFrom e₀) (line : Int) :
    (e.atLine line).LocatedFrom e₀ := by
  rcases h with rfl | ⟨f, line', hf, hline, rfl⟩
  · cases hf : e.failure? with
    | none =>
      left
      simp only [Fault.atLine, hf]
    | some f =>
      by_cases hline : f.line = 0
      · exact Or.inr ⟨f, line, hf, hline, by simp only [Fault.atLine, hf, hline, if_true]⟩
      · left
        simp only [Fault.atLine, hf, hline, if_false]
  · rw [Fault.atLine_failure]
    exact Or.inr ⟨f, _, hf, hline, rfl⟩

/-- Locating an error that was located. -/
theorem Fault.LocatedFrom.trans {e e₁ e₀ : Fault} (h : e.LocatedFrom e₁) (h' : e₁.LocatedFrom e₀) :
    e.LocatedFrom e₀ := by
  rcases h with rfl | ⟨f, line, hf, hline, rfl⟩
  · exact h'
  · rcases h' with rfl | ⟨f', line', hf', hline', rfl⟩
    · exact Or.inr ⟨f, line, hf, hline, rfl⟩
    · cases hf
      exact Or.inr ⟨f', line, hf', hline', rfl⟩

/-- Giving a line to a failure does not change its kind. -/
theorem Fault.LocatedFrom.exists_failure? {e e₀ : Fault} {f : Failure} (h : e.LocatedFrom e₀)
    (hf : e.failure? = some f) : ∃ f₀, e₀.failure? = some f₀ ∧ f₀.kind = f.kind := by
  rcases h with rfl | ⟨f', line, hf', -, rfl⟩
  · exact ⟨f, hf, rfl⟩
  · cases hf
    exact ⟨f', hf', rfl⟩

/-! ### Errors that are made at a point -/

namespace Point

variable (limit : DepthLimit)

/-- `Faults limit q e`: what is done at the point `q` fails with `e`, and nothing that is done as a
part of it does. -/
inductive Faults : Point → Fault → Prop
  /-- An expression fails a check. -/
  | raised {fuel depth scope node s e u}
      (h : (Task.expr scope node).Raises (invoke limit fuel depth) s (.failed e) u) :
      Faults ⟨fuel, depth, .expr scope node, s⟩ e
  /-- An invocation is refused. -/
  | refused {fuel depth f receiver args line} {s : State} (hreached : limit.reached depth = true) :
      Faults ⟨fuel, depth, .call f receiver args line, s⟩
        (.failure ⟨.stackExhausted, line,
          (s.store.function f).name ++ ", depth " ++ toString depth⟩)
  /-- A function is invoked with the wrong number of arguments. -/
  | mismatched {fuel depth f receiver args line params body closure} {s : State}
      (hcode : (s.store.function f).code = .closure params body closure)
      (hargs : args.length ≠ params.length) :
      Faults ⟨fuel, depth, .call f receiver args line, s⟩
        (.failure ⟨.arity, line, (s.store.function f).name ++ " expects " ++
          toString params.length ++ ", got " ++ toString args.length⟩)
  /-- A native function fails. -/
  | native {fuel depth f receiver args line arity p e u} {s : State}
      (hcode : (s.store.function f).code = .native arity p)
      (h : callNative arity p receiver args (s.logged (callEntry s.store f args line depth)) =
        (.failed e, u)) :
      Faults ⟨fuel, depth, .call f receiver args line, s⟩ (e.atLine line)

variable {limit}

/-- What a task leads to is reached. -/
theorem reaches_of_leads {fuel depth : Nat} {t t' : Task} {s s' : State}
    (h : t.Leads (invoke limit fuel depth) s t' s') :
    Reaches limit ⟨fuel, depth, t, s⟩ ⟨fuel, depth, t', s'⟩ := by
  induction h with
  | refl => exact .refl
  | enter henter _ ih => exact .head (.part henter) ih

/-- The error of a located outcome is that of the outcome, located. -/
theorem failed_of_located {α : Type} {o : Outcome α} {line : Int} {e : Fault}
    (h : o.located line = .failed e) : ∃ e', o = .failed e' ∧ e'.atLine line = e := by
  cases o with
  | failed e' =>
    simp only [Outcome.located, Outcome.failed.injEq] at h
    exact ⟨e', rfl, h⟩
  | _ => cases h

/-- Catching a `return` leaves errors alone. -/
theorem failed_of_caught {α : Type} {o : Outcome α} {e : Fault} (h : o.caught = .failed e) :
    o = .failed e := by
  cases o with
  | failed e' =>
    simp only [Outcome.caught, Outcome.failed.injEq] at h
    rw [h]
  | _ => cases h

/-- An invocation that fails makes the error itself, or gives its line to that of the body. -/
theorem fails_invoke {fuel depth : Nat} {f : FunctionRef} {receiver : Value} {args : List Value}
    {line : Int} {s u : State} {e : Fault}
    (h : invoke limit fuel depth f receiver args line s = (.failed e, u)) :
    Faults limit ⟨fuel, depth, .call f receiver args line, s⟩ e ∨
      ∃ q e', Enters limit ⟨fuel, depth, .call f receiver args line, s⟩ q ∧ q.fuel < fuel ∧
        q.run limit = (.failed e', u) ∧ e'.atLine line = e := by
  have hends : ∀ r, Invocation limit fuel depth f receiver args line s r → r = (.failed e, u) →
      Faults limit ⟨fuel, depth, .call f receiver args line, s⟩ e ∨
        ∃ q e', Enters limit ⟨fuel, depth, .call f receiver args line, s⟩ q ∧ q.fuel < fuel ∧
          q.run limit = (.failed e', u) ∧ e'.atLine line = e := by
    intro r hr heq
    cases hr with
    | refused hreached => cases heq; exact Or.inl (.refused hreached)
    | unfuelled _ _ => cases heq
    | mismatched hcode hargs => cases heq; exact Or.inl (.mismatched hcode hargs)
    | native hcode =>
      obtain ⟨e', he', rfl⟩ := failed_of_located (congrArg Prod.fst heq)
      exact Or.inl (.native hcode (Prod.ext he' rfl))
    | empty _ _ => cases heq
    | body hbody =>
      rename_i q
      obtain ⟨e', he', rfl⟩ := failed_of_located (congrArg Prod.fst heq)
      have hu := congrArg Prod.snd heq
      refine Or.inr ⟨q, e', hbody, ?_, Prod.ext (failed_of_caught he') hu, rfl⟩
      cases hbody with
      | part hpart => cases hpart
      | body _ _ _ => exact Nat.lt_succ_self _
  exact hends _ (invocation limit fuel depth f receiver args line s) h

/-- **Every error was made at a point that was reached**, and is the same but for its line. -/
theorem origin {p : Point} {e : Fault} {u : State} (h : p.run limit = (.failed e, u)) :
    ∃ q e₀, Reaches limit p q ∧ Faults limit q e₀ ∧ e.LocatedFrom e₀ := by
  -- the body of a function is entered with less fuel
  induction hn : p.fuel using Nat.strongRecOn generalizing p e u with
  | _ n ih =>
    obtain ⟨fuel, depth, t, s⟩ := p
    obtain ⟨t', s', hleads, hraises⟩ := Task.raises_of_exits (i := .failed e) h
    have hreach := reaches_of_leads hleads
    cases t' with
    | expr scope node => exact ⟨_, e, hreach, .raised hraises, Or.inl rfl⟩
    | call f receiver args line =>
      rcases fails_invoke hraises.exec with hfaults | ⟨q, e', hbody, hfuel, hq, rfl⟩
      · exact ⟨_, e, hreach, hfaults, Or.inl rfl⟩
      · obtain ⟨r, e₀, hr, hfaults, hloc⟩ := ih q.fuel (hn ▸ hfuel) hq rfl
        exact ⟨r, e₀, hreach.trans (.head hbody hr), hfaults, hloc.atLine line⟩
    | _ => cases hraises

end Point

/-! ### Errors of the sink -/

namespace Sink

/-- The sink can refuse a line with an error. -/
def Makes (s : Sink) (e : Fault) : Prop := ∃ given line, s.refusal? given line = some e

theorem Makes.of_afterAll {s : Sink} {lines : List Text} {e : Fault} (h : (s.afterAll lines).Makes e) :
    s.Makes e := by
  obtain ⟨given, line, hrefused⟩ := h
  exact ⟨lines ++ given, line, hrefused⟩

/-- A sink that accepts every line makes no error. -/
theorem not_makes_open (e : Fault) : ¬ Makes {} e := by
  rintro ⟨given, line, h⟩
  cases h

/-- What a sink spares is not in an error that it makes, wherever this is located. -/
theorem Spares.kind_ne {s : Sink} {kind : FailureKind} (hs : s.Spares kind) {e e₀ : Fault}
    {f : Failure} (hmakes : s.Makes e₀) (hloc : e.LocatedFrom e₀) (hf : e.failure? = some f) :
    f.kind ≠ kind := by
  obtain ⟨given, line, hrefused⟩ := hmakes
  obtain ⟨f₀, hf₀, hkind⟩ := hloc.exists_failure? hf
  rw [← hkind]
  exact hs given line e₀ f₀ hrefused hf₀

end Sink

/-! ### Failures of native functions -/

/-- What a native function of the language fails with. -/
theorem primitiveCall_failed {p : Primitive} (hp : ∀ body, p ≠ .host body) {receiver : Value}
    {args : List Value} {s u : State} {e : Fault} (h : p.call receiver args s = (.failed e, u)) :
    s.sink.Makes e ∨ ∃ f, e = .failure f ∧ f.Native := by
  by_cases hprint : p = .print
  · rw [hprint, print_apply] at h
    split at h
    · cases h
    · split at h
      · cases h
      · next hrefused =>
        cases h
        exact Or.inl ⟨_, _, hrefused⟩
  · obtain ⟨o, hnative, ho⟩ := computes_primitiveCall hprint hp receiver args
    rw [ho] at h
    cases h
    exact Or.inr hnative

/-- What the call of a native function of the language fails with. -/
theorem callNative_failed {arity : Arity} {p : Primitive} (hp : ∀ body, p ≠ .host body)
    {receiver : Value} {args : List Value} {s u : State} {e : Fault}
    (h : callNative arity p receiver args s = (.failed e, u)) :
    s.sink.Makes e ∨ ∃ f, e = .failure f ∧ f.Native := by
  unfold callNative at h
  split at h
  · exact primitiveCall_failed hp h
  · cases h
    exact Or.inr ⟨_, rfl, rfl, Or.inl rfl⟩

/-! ### The nodes that errors tell of -/

/-- A call, of a function or of a method, on a line. -/
def Expr.CallsAt (line : Int) : Expr → Prop
  | .call line' _ _ => line' = line
  | .send line' _ _ _ => line' = line
  | _ => False

/-- A use of a field, to read it, to write it or to call what it holds, on a line. -/
def Expr.UsesFieldAt (line : Int) : Expr → Prop
  | .field line' _ _ => line' = line
  | .setField line' _ _ _ => line' = line
  | .send line' _ _ _ => line' = line
  | _ => False

/-- The node is of the sort that a failure of this kind tells of, and stands on its line.  A failure
made by the host tells of none. -/
def Failure.CausedBy (f : Failure) (node : Expr) : Prop :=
  match f.kind with
  | .notAFunction | .arity | .type | .divisionByZero | .stackExhausted => node.CallsAt f.line
  | .notAnObject => node.UsesFieldAt f.line
  | .alreadyDefined => ∃ value, node = .assign f.line true f.detail value
  | .returnOutsideFunction => ∃ value, node = .ret f.line value
  | .unknownNode => node = .missing ∧ f.line = 0
  | .foreign _ => False

namespace Point

variable {limit : DepthLimit}

/-- An expression of the program that is evaluated in the course of a point. -/
def Evaluates (limit : DepthLimit) (p : Point) (node : Expr) : Prop :=
  ∃ fuel depth scope s, Reaches limit p ⟨fuel, depth, .expr scope node, s⟩

/-- An invocation is made by a call on its line. -/
theorem evaluates_caller {p : Point} {fuel depth : Nat} {f : FunctionRef} {receiver : Value}
    {args : List Value} {line : Int} {s : State}
    (hp : ∀ f receiver args line, p.task ≠ .call f receiver args line)
    (hq : Reaches limit p ⟨fuel, depth, .call f receiver args line, s⟩) :
    ∃ node, Evaluates limit p node ∧ node.CallsAt line := by
  rcases Relation.ReflTransGen.cases_tail hq with rfl | ⟨r, hr, henter⟩
  · exact absurd rfl (hp f receiver args line)
  · cases henter with
    | part hpart =>
      cases hpart with
      | callInvoke _ _ => exact ⟨_, ⟨_, _, _, _, hr⟩, rfl⟩
      | sendInvoke _ _ _ => exact ⟨_, ⟨_, _, _, _, hr⟩, rfl⟩

/-- **An error made at a point tells of a node that was evaluated**, unless it is that of the sink. -/
theorem Faults.cause {p q : Point} {e : Fault} (h : Faults limit q e) (hsound : p.Sound)
    (hp : ∀ f receiver args line, p.task ≠ .call f receiver args line) (hq : Reaches limit p q) :
    (∃ e₀, q.state.sink.Makes e₀ ∧ e.LocatedFrom e₀) ∨
      ∃ f, e = .failure f ∧ f.kind ≠ .returnOutsideFunction ∧
        ∃ node, Evaluates limit p node ∧ f.CausedBy node := by
  cases h with
  | raised hraises =>
    refine Or.inr ?_
    have hnode := (⟨_, _, _, _, hq⟩ : Evaluates limit p _)
    cases hraises with
    | notAFunction _ _ _ | notAMethod _ _ _ _ => exact ⟨_, rfl, by simp, _, hnode, rfl⟩
    | alreadyDefined _ _ => exact ⟨_, rfl, by simp, _, hnode, _, rfl⟩
    | field _ _ | setField _ _ | send _ _ => exact ⟨_, rfl, by simp, _, hnode, rfl⟩
    | missing => exact ⟨_, rfl, by simp, _, hnode, rfl, rfl⟩
  | refused _ =>
    obtain ⟨node, hnode, hcalls⟩ := evaluates_caller hp hq
    exact Or.inr ⟨_, rfl, by simp, node, hnode, hcalls⟩
  | mismatched _ _ =>
    obtain ⟨node, hnode, hcalls⟩ := evaluates_caller hp hq
    exact Or.inr ⟨_, rfl, by simp, node, hnode, hcalls⟩
  | native hcode hfails =>
    have hhost := (hsound.of_reaches hq).store.hostFree
    rcases callNative_failed (fun body hbody => hhost _ _ body (hbody ▸ hcode)) hfails with
      hmakes | ⟨f, rfl, hline, hkind⟩
    · exact Or.inl ⟨_, hmakes, Fault.LocatedFrom.atLine (Or.inl rfl) _⟩
    · obtain ⟨node, hnode, hcalls⟩ := evaluates_caller hp hq
      refine Or.inr ⟨_, Fault.atLine_failure f _, ?_⟩
      rw [if_pos hline]
      rcases hkind with hkind | hkind | hkind
      all_goals
        refine ⟨by simp [hkind], node, hnode, ?_⟩
        simp only [Failure.CausedBy, hkind]
        exact hcalls

/-- A point that is reached has the sink of the start, which may have been given lines since. -/
theorem sink_of_reaches {p q : Point} (hq : Reaches limit p q) :
    ∃ lines, q.state.sink = p.state.sink.afterAll lines := by
  refine (invariant_of_reaches (T := fun _ => True)
    (S := fun s => ∃ lines, s.sink = p.state.sink.afterAll lines)
    (fun _ _ => trivial) (fun _ _ _ => trivial) ?_ trivial ⟨[], rfl⟩ hq).2
  intro r s t hact _ hs
  cases hact with
  | @logPrint _ _ _ _ _ _ _ text =>
    obtain ⟨lines, hlines⟩ := hs
    refine ⟨lines ++ [text], ?_⟩
    rw [← Sink.afterAll_afterAll, ← Sink.after_eq, ← hlines]
    rfl
  | _ => exact hs

end Point

/-! ### Runs -/

/-- The node that a failure tells of is a gap, or stands on its line. -/
theorem Failure.CausedBy.line {f : Failure} {node : Expr} (h : f.CausedBy node) :
    node = .missing ∨ node.line? = some f.line := by
  have hcalls : node.CallsAt f.line → node.line? = some f.line := by
    intro hnode
    cases node with
    | call _ _ _ | send _ _ _ _ => exact congrArg some hnode
    | _ => cases hnode
  have hfield : node.UsesFieldAt f.line → node.line? = some f.line := by
    intro hnode
    cases node with
    | field _ _ _ | setField _ _ _ _ | send _ _ _ _ => exact congrArg some hnode
    | _ => cases hnode
  unfold CausedBy at h
  split at h
  case h_6 => exact Or.inr (hfield h)
  case h_7 | h_8 =>
    obtain ⟨value, rfl⟩ := h
    exact Or.inr rfl
  case h_9 => exact Or.inl h.1
  case h_10 => exact h.elim
  all_goals exact Or.inr (hcalls h)

/-- What a run evaluates is a node of its program. -/
theorem Program.mem_nodes_of_evaluates {p : Program} {fuel : Nat} {limit : DepthLimit} {sink : Sink}
    {node : Expr} (h : (p.start fuel sink).Evaluates limit node) : node ∈ p.nodes := by
  obtain ⟨_, _, _, _, hreach⟩ := h
  exact p.nodes_of_reaches hreach (node.mem_collect true)

/-- **An error of the root block tells of a node that was evaluated**, unless it is one of the sink;
either but for a line that it may have been given. -/
theorem Program.cause_of_failed (p : Program) {fuel : Nat} {limit : DepthLimit} {sink : Sink}
    {e : Fault} {u : State} (h : (p.start fuel sink).run limit = (.failed e, u)) :
    (∃ e₀, sink.Makes e₀ ∧ e.LocatedFrom e₀) ∨
      ∃ f node, e.LocatedFrom (.failure f) ∧ f.kind ≠ .returnOutsideFunction ∧
        (p.start fuel sink).Evaluates limit node ∧ f.CausedBy node := by
  have hroot : ∀ f receiver args line, (p.start fuel sink).task ≠ .call f receiver args line := by
    intro f receiver args line htask
    cases htask
  obtain ⟨q, e₀, hq, hfaults, hloc⟩ := Point.origin h
  rcases hfaults.cause (p.sound_start fuel sink) hroot hq with
    ⟨e₁, hmakes, hloc'⟩ | ⟨f, rfl, hkind, node, hnode, hcause⟩
  · obtain ⟨lines, hlines⟩ := Point.sink_of_reaches hq
    rw [hlines] at hmakes
    exact Or.inl ⟨e₁, hmakes.of_afterAll, hloc.trans hloc'⟩
  · exact Or.inr ⟨f, node, hloc, hkind, hnode, hcause⟩

/-- A `return` of the root block comes from one that was evaluated outside the bodies of
functions. -/
theorem Program.return_of_returning (p : Program) {fuel : Nat} {limit : DepthLimit} {sink : Sink}
    {v : Value} {line : Int} {u : State}
    (h : (p.start fuel sink).run limit = (.returning v line, u)) :
    ∃ value, (p.start fuel sink).Evaluates limit (.ret line value) ∧
      .ret line value ∈ p.ownNodes := by
  obtain ⟨scope, value, s, hleads, -⟩ :=
    Task.leads_to_return (fun f r vs l s' => invoke_ne_returning _ _ _ f u) h
  refine ⟨value, ⟨_, _, _, _, Point.reaches_of_leads hleads⟩, ?_⟩
  exact p.collect_start_subset fuel sink false
    (hleads.collect_subset false (Expr.mem_collect false _))

/-- **An error that ends a run** is one of the sink, but for a line; or that of a `return` outside the
bodies of functions; or it tells of another node that was evaluated, but for a line. -/
theorem Program.cause_of_ending (p : Program) {fuel : Nat} {limit : DepthLimit} {sink : Sink}
    {e : Fault} (h : (p.runWith fuel limit sink).ending = .failed e) :
    (∃ e₀, sink.Makes e₀ ∧ e.LocatedFrom e₀) ∨
      (∃ line text value, e = .failure ⟨.returnOutsideFunction, line, text⟩ ∧
        (p.start fuel sink).Evaluates limit (.ret line value) ∧ .ret line value ∈ p.ownNodes) ∨
      ∃ f node, e.LocatedFrom (.failure f) ∧ f.kind ≠ .returnOutsideFunction ∧
        (p.start fuel sink).Evaluates limit node ∧ f.CausedBy node := by
  rw [runWith_eq_run] at h
  rcases hrun : (p.start fuel sink).run limit with ⟨o, u⟩
  rw [hrun] at h
  cases o with
  | returning v line =>
    obtain ⟨text, -, rfl⟩ := Run.failed_of_returning h
    obtain ⟨value, heval, hmem⟩ := p.return_of_returning hrun
    exact Or.inr (Or.inl ⟨line, text, value, rfl, heval, hmem⟩)
  | failed e' =>
    cases h
    rcases p.cause_of_failed hrun with hsink | hnode
    · exact Or.inl hsink
    · exact Or.inr (Or.inr hnode)
  | _ => cases h

/-- **Failures are located at the node that caused them.**  Let a program have no gaps, and let all
its nodes have lines other than zero.  On a sink that refuses no line, and whatever the depth limit,
every error of its run is a failure with a line other than zero.  It is the line of a node of the
program that was evaluated, and that is of the sort the failure tells of. -/
theorem Program.failure_located (p : Program) (hgaps : .missing ∉ p.nodes)
    (hlines : ∀ node ∈ p.nodes, node.line? ≠ some 0) (fuel : Nat) (limit : DepthLimit) {sink : Sink}
    (hsink : ∀ e, ¬ sink.Makes e) {e : Fault} (h : (p.runWith fuel limit sink).ending = .failed e) :
    ∃ f, e = .failure f ∧ f.line ≠ 0 ∧ f.kind ≠ .unknownNode ∧
      ∃ node ∈ p.nodes, f.CausedBy node ∧ (p.start fuel sink).Evaluates limit node := by
  -- what a failure of the run says about a node of the program
  have hnode : ∀ (f : Failure) (node : Expr), (p.start fuel sink).Evaluates limit node →
      f.CausedBy node → f.line ≠ 0 ∧ f.kind ≠ .unknownNode ∧
        ∃ node ∈ p.nodes, f.CausedBy node ∧ (p.start fuel sink).Evaluates limit node := by
    intro f node heval hcause
    have hmem := mem_nodes_of_evaluates heval
    have hne : node ≠ .missing := by
      rintro rfl
      exact hgaps hmem
    refine ⟨?_, ?_, node, hmem, hcause, heval⟩
    · intro hzero
      rcases hcause.line with hmissing | hline
      · exact hne hmissing
      · exact hlines node hmem (by rw [hline, hzero])
    · intro hkind
      simp only [Failure.CausedBy, hkind] at hcause
      exact hne hcause.1
  rcases p.cause_of_ending h with ⟨e₀, hmakes, -⟩ | ⟨line, text, value, rfl, heval, -⟩ |
    ⟨f, node, hloc, -, heval, hcause⟩
  · exact absurd hmakes (hsink e₀)
  · exact ⟨_, rfl, hnode _ _ heval ⟨value, rfl⟩⟩
  · obtain ⟨hline, hrest⟩ := hnode f node heval hcause
    rcases hloc with rfl | ⟨f', line, hf', hzero, -⟩
    · exact ⟨f, rfl, hline, hrest⟩
    · -- the failure had a line from the start, so no other was given to it
      cases hf'
      exact absurd hzero hline

/-- A program whose method divides by zero inside a call of its own. -/
def divider : Program where
  body := some (.mk 1
    [.fn 1 (some "half") ["n"] (some (.mk 1
      [.ret 2 (.call 3 (.var 3 "/") [.var 3 "n", .literal 3 (.int 0)])])),
      .assign 4 true "o" (.object 4 [.mk "half" (.var 4 "half")]),
      .send 5 (.var 5 "o") "half" [.literal 5 (.int 7)]])

/-- The failure of `divider` is located at the division, not at the call of the method. -/
theorem failure_located_divider :
    (divider.run ⟨8⟩ {}).ending = .failed (.failure ⟨.divisionByZero, 3, "7 / 0"⟩) ∧
      ∃ node ∈ divider.nodes, (⟨.divisionByZero, 3, "7 / 0"⟩ : Failure).CausedBy node := by
  have hending : (divider.run ⟨8⟩ {}).ending =
      .failed (.failure ⟨.divisionByZero, 3, "7 / 0"⟩) := by decide +kernel
  have hgaps : .missing ∉ divider.nodes := by
    simp [divider, Program.nodes, collectOptional, Block.collect, collectAll, Expr.collect,
      collectInits]
  have hlines : ∀ node ∈ divider.nodes, node.line? ≠ some 0 := by decide +kernel
  obtain ⟨f, hf, -, -, node, hmem, hcause, -⟩ :=
    divider.failure_located hgaps hlines _ ⟨8⟩ Sink.not_makes_open hending
  cases hf
  exact ⟨hending, node, hmem, hcause⟩

end TreeScript
