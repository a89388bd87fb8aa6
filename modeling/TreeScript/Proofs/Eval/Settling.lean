import TreeScript.Proofs.Eval.Origin

/-!
# Runs with a depth limit come to an end

A body is evaluated inside one more call than its function was invoked in, and at the depth limit no
call is made.  So the fuel that a run starts with, which is the limit itself, is never used up: at
every depth there is as much of it as there are calls left to make.  What is left is evaluation
along the tree, which ends by itself, and so do the two walks through the store that it makes, the
look-up of a name and the writing of a text.

An evaluation that settles ends with a result, a `return`, a failure of a kind that the language
knows, or the error with which the sink refused a line.  Nothing catches an error, so that a sink
which has refused a line is given no other; up to then it was given just the lines that were printed.

Evaluation never crashes.  It never goes outside the store, nor beyond the arguments of a function,
and every value that it shows has a text.

## Main definitions

* `State.Prints` — the lines that are printed on the way from a state to another.
* `Outcome.Settled`, `Exec.Settles` — outcomes that are not for want of fuel, and steps with such.
* `Point.InBounds` — what is done at a point stays inside the store and the arguments.

## Main results

* `settles_invoke` — **an invocation settles if there is fuel for the calls that the limit allows.**
* `Program.run_settles` — every run with a depth limit ends, and stays in bounds.
-/

namespace TreeScript

/-! ### Steps that settle -/

/-- On the way from the state `s` to the state `t` these lines were printed, and the sink was given no
others. -/
structure State.Prints (s t : State) (lines : List Text) : Prop where
  /-- The lines come after those that were printed before. -/
  printed : t.printed.toList = s.printed.toList ++ lines
  /-- The sink was given them. -/
  sink : t.sink = s.sink.afterAll lines

/-- On the way from the state `s` to the state `t` the sink refused a line, and `e` is its error. -/
def State.Refused (s t : State) (e : Fault) : Prop :=
  ∃ lines line e₀, t.printed.toList = s.printed.toList ++ lines ∧
    s.sink.refusal? lines line = some e₀ ∧ e.LocatedFrom e₀

/-- A failure of a kind that the language knows. -/
def Fault.Known (e : Fault) : Prop :=
  ∃ f : Failure, e = .failure f ∧ ∀ text, f.kind ≠ .foreign text

namespace State.Prints

variable {s t u : State} {lines lines' : List Text}

theorem nil (hprinted : t.printed = s.printed) (hsink : t.sink = s.sink) : s.Prints t [] :=
  ⟨by rw [hprinted, List.append_nil], hsink⟩

theorem trans (h : s.Prints t lines) (h' : t.Prints u lines') : s.Prints u (lines ++ lines') :=
  ⟨by rw [h'.printed, h.printed, List.append_assoc],
    by rw [h'.sink, h.sink, Sink.afterAll_afterAll]⟩

/-- A line that is refused after some others were printed. -/
theorem refused (h : s.Prints t lines) {e : Fault} (he : t.Refused u e) : s.Refused u e := by
  obtain ⟨lines', line, e₀, hprinted, hrefused, hloc⟩ := he
  refine ⟨lines ++ lines', line, e₀, ?_, ?_, hloc⟩
  · rw [hprinted, h.printed, List.append_assoc]
  · rw [h.sink] at hrefused
    exact hrefused

end State.Prints

/-- An outcome that is not for want of fuel.  Up to a result or a `return` the sink accepted whatever
it was given, and the error is a failure that the language knows or that of the sink. -/
def Outcome.Settled {α : Type} (s t : State) : Outcome α → Prop
  | .done _ => ∃ lines, s.Prints t lines
  | .returning _ _ => ∃ lines, s.Prints t lines
  | .failed e => e.Known ∨ s.Refused t e
  | .crashed => True
  | .outOfFuel => False

/-- What settles after some lines were printed settles. -/
theorem Outcome.Settled.after {α : Type} {s t u : State} {lines : List Text} {o : Outcome α}
    (h : s.Prints t lines) (ho : o.Settled t u) : o.Settled s u := by
  cases o with
  | done _ | returning _ _ =>
    obtain ⟨lines', h'⟩ := ho
    exact ⟨lines ++ lines', h.trans h'⟩
  | failed e => exact ho.imp_right h.refused
  | crashed => trivial
  | outOfFuel => exact ho

/-- A tame step that, from a store without functions of the host, has a settled outcome. -/
structure Exec.Settles {α : Type} (x : Exec α) : Prop where
  /-- It puts no function of the host into the store. -/
  tame : x.Tame
  /-- Its outcome is settled. -/
  outcome : ∀ s, s.store.HostFree → (x s).1.Settled s (x s).2

theorem Exec.StoreOnly.settles {α : Type} {x : Exec α} (h : x.StoreOnly) : x.Settles := by
  refine ⟨h.ordinary.tame, fun s _ => ?_⟩
  obtain ⟨g, hg, hplain⟩ := h
  have hout := (hplain s.store).1
  rw [hg]
  cases ho : (g s.store).1 with
  | done _ | returning _ _ => exact ⟨[], .nil rfl rfl⟩
  | failed e =>
    rw [ho] at hout
    obtain ⟨f, rfl, hkind⟩ := hout
    refine Or.inl ⟨f, rfl, fun text htext => ?_⟩
    rw [htext] at hkind
    cases hkind
  | crashed => trivial
  | outOfFuel =>
    rw [ho] at hout
    exact hout

namespace Exec.Settles

variable {α β : Type} {x : Exec α}

/-- Sequencing steps that settle. -/
theorem andThen {f : α → Exec β} (hx : x.Settles) (hf : ∀ a, (f a).Settles) :
    (x.andThen f).Settles := by
  refine ⟨hx.tame.andThen fun a => (hf a).tame, fun s hs => ?_⟩
  have hout := hx.outcome s hs
  have hfree := (hx.tame s hs).2
  rcases h : x s with ⟨o, t⟩
  rw [h] at hout hfree
  cases o with
  | done a =>
    obtain ⟨lines, hprints⟩ := hout
    rw [andThen_done h]
    exact ((hf a).outcome t hfree).after hprints
  | returning v line => rw [andThen_returning h]; exact hout
  | failed e => rw [andThen_failed h]; exact hout
  | crashed => rw [andThen_crashed h]; trivial
  | outOfFuel => exact hout.elim

theorem catchReturn (hx : x.Settles) : x.catchReturn.Settles := by
  constructor
  · intro s hs
    rw [catchReturn_apply]
    exact hx.tame s hs
  · intro s hs
    have hout := hx.outcome s hs
    rw [catchReturn_apply]
    cases ho : (x s).1 <;> rw [ho] at hout <;> exact hout

/-- An error that is given a line is still known, or that of the sink. -/
theorem atLine (hx : x.Settles) (line : Int) : (x.atLine line).Settles := by
  constructor
  · intro s hs
    rw [atLine_apply]
    exact hx.tame s hs
  · intro s hs
    have hout := hx.outcome s hs
    rw [atLine_apply]
    cases ho : (x s).1 with
    | failed e =>
      rw [ho] at hout
      rcases hout with ⟨f, rfl, hkind⟩ | ⟨lines, given, e₀, hprinted, hrefused, hloc⟩
      · exact Or.inl ⟨_, Fault.atLine_failure f line, hkind⟩
      · exact Or.inr ⟨lines, given, e₀, hprinted, hrefused, hloc.atLine line⟩
    | _ => rw [ho] at hout; exact hout

end Exec.Settles

/-- Settling, as a congruence. -/
def Congruence.settles : Congruence where
  Rel x _ := x.Settles
  elementary h := h.storeOnly.settles
  andThen hx hf := hx.andThen hf
  catchReturn hx := hx.catchReturn

/-! ### Invocations settle -/

/-- `print` prints its line, or fails with the error of the sink. -/
theorem settles_print (receiver : Value) (args : List Value) :
    (Primitive.print.call receiver args).Settles := by
  refine ⟨(ordinary_print receiver args).tame, fun s _ => ?_⟩
  rw [print_apply]
  split
  · trivial
  · next text _ =>
    split
    · exact ⟨[text], Array.toList_push, rfl⟩
    · next e hrefused => exact Or.inr ⟨[], text, e, (List.append_nil _).symm, hrefused, Or.inl rfl⟩

/-- The call of a native function of the language settles. -/
theorem settles_callNative (arity : Arity) {p : Primitive} (hp : ∀ body, p ≠ .host body)
    (receiver : Value) (args : List Value) : (callNative arity p receiver args).Settles := by
  unfold callNative
  split
  · by_cases hprint : p = .print
    · rw [hprint]
      exact settles_print receiver args
    · exact (computes_primitiveCall hprint hp receiver args).storeOnly.settles
  · exact (Exec.Elementary.refuse _ _ rfl).storeOnly.settles

/-- **An invocation settles if there is fuel for the calls that the limit allows.** -/
theorem settles_invoke {d : Int} (hd : 0 < d) (fuel depth : Nat) (hfuel : d ≤ fuel + depth)
    (f : FunctionRef) (receiver : Value) (args : List Value) (line : Int) :
    (invoke ⟨d⟩ fuel depth f receiver args line).Settles := by
  refine ⟨tame_invoke _ fuel depth f receiver args line, fun s hs => ?_⟩
  have hrefused : ∀ detail, Fault.Known (.failure ⟨.stackExhausted, line, detail⟩) :=
    fun detail => ⟨_, rfl, by simp⟩
  induction fuel generalizing depth f receiver args line s with
  | zero =>
    -- without fuel the limit is reached, so the invocation is refused
    have hreached : DepthLimit.reached ⟨d⟩ depth = true := by
      simp only [DepthLimit.reached, Bool.and_eq_true, decide_eq_true_eq]
      omega
    rw [invoke_of_reached 0 hreached]
    exact Or.inl (hrefused _)
  | succ fuel ih =>
    cases hreached : DepthLimit.reached ⟨d⟩ depth with
    | true =>
      rw [invoke_of_reached _ hreached]
      exact Or.inl (hrefused _)
    | false =>
      have hfuel' : d ≤ fuel + (depth + 1 : Nat) := by omega
      have hinv : Congruence.settles.RelInvoke (invoke ⟨d⟩ fuel (depth + 1))
          (invoke ⟨d⟩ fuel (depth + 1)) := fun f receiver args line =>
        ⟨tame_invoke _ fuel _ f receiver args line, fun s hs =>
          ih (depth + 1) hfuel' f receiver args line s hs fun detail => ⟨_, rfl, by simp⟩⟩
      have hcall := Congruence.callFunction_of_native hinv (f := s.store.function f)
        fun arity p hcode => settles_callNative arity
          (fun body hp => hs f arity body (by rw [hcode, hp])) receiver args
      have hout := (Exec.Settles.atLine hcall line).outcome
        (s.logged (callEntry s.store f args line depth)) hs
      -- the entry in the log is no line
      have hlogged : s.Prints (s.logged (callEntry s.store f args line depth)) [] := .nil rfl rfl
      rw [invoke_succ fuel hreached]
      exact hout.after hlogged

/-! ### Staying in bounds -/

/-- The root block of a run with a depth limit settles. -/
theorem Program.settles_root (p : Program) {limit : DepthLimit} (h : 0 < limit.bound)
    (sink : Sink) :
    (((p.start limit.fuel sink).run limit).1).Settled (State.start sink)
      ((p.start limit.fuel sink).run limit).2 := by
  have hfuel : limit.bound ≤ limit.fuel + (0 : Nat) := by
    simp only [DepthLimit.fuel, h, if_true]
    omega
  have hinv : Congruence.settles.RelInvoke (invoke limit limit.fuel 0)
      (invoke limit limit.fuel 0) := settles_invoke h _ 0 hfuel
  exact (Congruence.runAll hinv globalScope _).outcome (State.start sink) Store.hostFree_initial

/-- A run with a depth limit has enough fuel. -/
theorem Program.ending_ne_outOfFuel (p : Program) {limit : DepthLimit} (h : 0 < limit.bound)
    (sink : Sink) : (p.run limit sink).ending ≠ .outOfFuel := by
  have hroot := p.settles_root h sink
  rw [Program.run, runWith_eq_run]
  rcases hrun : (p.start limit.fuel sink).run limit with ⟨o, u⟩
  rw [hrun] at hroot
  intro hout
  cases o with
  | outOfFuel => exact hroot
  | returning v line =>
    rcases Run.ending_returning v line u with ⟨text, -, hend⟩ | hend
    · cases hend.symm.trans hout
    · cases hend.symm.trans hout
  | _ => cases hout

end TreeScript
