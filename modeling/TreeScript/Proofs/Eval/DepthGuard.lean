import TreeScript.Proofs.Eval.Ordinary

/-!
# The depth guard only cuts runs short

Of two runs of one program, the one with the lower depth limit does what the other does until it is
refused an invocation.  If that never happens the runs are the same; if it does, what the one has
printed and logged by then is the beginning of what the other prints and logs.

The statement is carried through evaluation by the relation `Exec.CutAt d x y`: the step `x` does
what `y` does, or fails because an invocation inside `d` others was refused, in a state that `y`
goes on from.  It is a congruence, so only invocations have to be looked at.

## Main definitions

* `Outcome.ExhaustedAt d` — the failure of an invocation refused inside `d` others.
* `Exec.CutAt` — one step cut short of another.
* `Program.Ends` — a run that comes to an end, with whatever fuel it needs.
* `Run.Exhausted` — a run that failed for want of call depth.

## Main results

* `cutAt_invoke` — **an invocation under a lower limit is cut short of one under a higher limit.**
* `Program.run_cut_short` — the same of whole runs.
-/

namespace TreeScript

/-! ### Steps cut short -/

/-- The failure that a step ends with, if it does. -/
def Outcome.failure? {α : Type} : Outcome α → Option Failure
  | .failed e => e.failure?
  | _ => none

/-- The step failed because an invocation was refused. -/
def Outcome.Exhausted {α : Type} (o : Outcome α) : Prop :=
  ∃ f, o.failure? = some f ∧ f.kind = .stackExhausted

/-- The step failed because an invocation inside `d` others was refused. -/
def Outcome.ExhaustedAt {α : Type} (d : Int) (o : Outcome α) : Prop :=
  ∃ f, o = .failed (.failure f) ∧ f.kind = .stackExhausted ∧
    ∃ name : Text, f.detail = name ++ ", depth " ++ toString d

/-- An ordinary outcome is no refusal. -/
theorem Outcome.Ordinary.not_exhausted {α : Type} {o : Outcome α} (h : o.Ordinary) :
    ¬ o.Exhausted := by
  rintro ⟨f, hf, hkind⟩
  cases o with
  | failed e => exact h f hf hkind
  | _ => simp [failure?] at hf

/-- What a located error fails with, it failed with before, up to the line. -/
theorem Fault.failure?_of_atLine {e : Fault} {line : Int} {f : Failure}
    (h : (e.atLine line).failure? = some f) : ∃ f₀, e.failure? = some f₀ ∧ f₀.kind = f.kind := by
  unfold atLine at h
  cases he : e.failure? with
  | none => simp [he] at h
  | some f₀ =>
    simp only [he] at h
    split at h
    · simp only [failure?, Option.some.injEq] at h
      exact ⟨f₀, rfl, by rw [← h]⟩
    · rw [he] at h
      exact ⟨f₀, rfl, by rw [Option.some.inj h]⟩

/-- The step `x` is cut short of `y`: from a store without functions of the host, on a sink that does
not fail for want of depth itself, and if `y` has fuel enough, `x` does what `y` does, or fails for
want of depth before `y` is through. -/
def Exec.CutAt {α : Type} (d : Int) (x y : Exec α) : Prop :=
  y.Tame ∧ ∀ s, s.store.HostFree → s.sink.Spares .stackExhausted → (y s).1 ≠ .outOfFuel →
    (¬ (x s).1.Exhausted ∧ x s = y s) ∨ ((x s).1.ExhaustedAt d ∧ State.Grows (x s).2 (y s).2)

namespace Exec.CutAt

variable {α β : Type} {d : Int} {x y : Exec α}

/-- An ordinary step is not cut short. -/
theorem of_ordinary (h : x.Ordinary) : CutAt d x x :=
  ⟨h.tame, fun s hs hsink _ => Or.inl ⟨(h.outcome s hs hsink).not_exhausted, rfl⟩⟩

/-- Sequencing steps that are cut short. -/
theorem andThen {f g : α → Exec β} (h : CutAt d x y) (hf : ∀ a, CutAt d (f a) (g a)) :
    CutAt d (x.andThen f) (y.andThen g) := by
  have htame : (y.andThen g).Tame := h.1.andThen fun a => (hf a).1
  refine ⟨htame, fun s hs hsink hend => ?_⟩
  rcases h.2 s hs hsink (Exec.ne_outOfFuel_of_andThen hend) with ⟨hx, hxy⟩ | ⟨⟨e, he, hkind⟩, hgrow⟩
  · -- the first steps agree, so the outcome decides alike what happens next
    obtain ⟨hgrow, hfree⟩ := h.1 s hs
    rcases hy : y s with ⟨o, t⟩
    rw [hy] at hxy hfree hgrow
    rw [hxy] at hx
    cases o with
    | done a =>
      rw [andThen_done hy] at hend
      rw [andThen_done hxy, andThen_done hy]
      exact (hf a).2 t hfree (hgrow.spares hsink) hend
    | returning v line =>
      rw [andThen_returning hxy, andThen_returning hy]
      exact Or.inl ⟨hx, rfl⟩
    | failed e =>
      rw [andThen_failed hxy, andThen_failed hy]
      exact Or.inl ⟨hx, rfl⟩
    | crashed =>
      rw [andThen_crashed hxy, andThen_crashed hy]
      exact Or.inl ⟨hx, rfl⟩
    | outOfFuel => exact absurd (andThen_outOfFuel hy ▸ rfl) hend
  · -- the first step was cut short; whatever the other does next only adds to its output
    refine Or.inr ?_
    rw [andThen_failed (Prod.ext he rfl)]
    exact ⟨⟨e, rfl, hkind⟩, hgrow.trans (Exec.Tame.after (fun a => (hf a).1) (h.1 s hs).2).1⟩

/-- A step that ends as another does, up to a change of the outcome that neither makes nor hides a
refused invocation. -/
theorem map {x' y' : Exec β} (φ : Outcome α → Outcome β) (h : CutAt d x y)
    (hx' : ∀ s, x' s = (φ (x s).1, (x s).2)) (hy' : ∀ s, y' s = (φ (y s).1, (y s).2))
    (hfuel : φ .outOfFuel = .outOfFuel) (hex : ∀ o, (φ o).Exhausted → o.Exhausted)
    (hat : ∀ o, o.ExhaustedAt d → (φ o).ExhaustedAt d) : CutAt d x' y' := by
  refine ⟨fun s hs => by rw [hy']; exact h.1 s hs, fun s hs hsink hend => ?_⟩
  rw [hy'] at hend
  have hy : (y s).1 ≠ .outOfFuel := by
    intro hy
    exact hend (by rw [hy]; exact hfuel)
  rw [hx', hy']
  rcases h.2 s hs hsink hy with ⟨hx, hxy⟩ | ⟨hx, hgrow⟩
  · exact Or.inl ⟨fun hφ => hx (hex _ hφ), by rw [hxy]⟩
  · exact Or.inr ⟨hat _ hx, hgrow⟩

/-- Catching a `return` of a step that is cut short. -/
theorem catchReturn (h : CutAt d x y) : CutAt d x.catchReturn y.catchReturn := by
  refine h.map Outcome.caught x.catchReturn_apply y.catchReturn_apply rfl ?_ ?_
  · rintro o ⟨f, hf, hkind⟩
    cases o with
    | failed e => exact ⟨f, hf, hkind⟩
    | _ => cases hf
  · rintro o ⟨f, rfl, hf⟩
    exact ⟨f, rfl, hf⟩

/-- Locating the failure of a step that is cut short. -/
theorem atLine (h : CutAt d x y) (line : Int) : CutAt d (x.atLine line) (y.atLine line) := by
  refine h.map (Outcome.located line) (x.atLine_apply line) (y.atLine_apply line) rfl ?_ ?_
  · rintro o ⟨f, hf, hkind⟩
    cases o with
    | failed e =>
      obtain ⟨f₀, hf₀, hk⟩ := Fault.failure?_of_atLine hf
      exact ⟨f₀, hf₀, hk.trans hkind⟩
    | _ => cases hf
  · rintro o ⟨f, rfl, hkind, hdetail⟩
    exact ⟨_, congrArg Outcome.failed (Fault.atLine_failure f line), hkind, hdetail⟩

end Exec.CutAt

/-- Being cut short, as a congruence. -/
def Congruence.cutAt (d : Int) : Congruence where
  Rel := Exec.CutAt d
  elementary h := .of_ordinary h.storeOnly.ordinary
  andThen := Exec.CutAt.andThen
  catchReturn := Exec.CutAt.catchReturn

/-! ### Invocations -/

/-- A limit that is not lower, or none, is not reached before a positive one. -/
theorem DepthLimit.reached_of_le {d d' : Int} {depth : Nat} (hd' : d ≤ d' ∨ d' ≤ 0)
    (h : DepthLimit.reached ⟨d⟩ depth = false) (hd : 0 < d) :
    DepthLimit.reached ⟨d'⟩ depth = false := by
  simp only [reached, Bool.and_eq_false_iff, decide_eq_false_iff_not] at h ⊢
  omega

/-- A refused invocation is cut short of whatever the other does. -/
theorem cutAt_invoke_of_reached {d d' : Int} {depth : Nat}
    (hreached : DepthLimit.reached ⟨d⟩ depth = true) (hdepth : depth ≤ d) (fuel fuel' : Nat)
    (f : FunctionRef) (receiver : Value) (args : List Value) (line : Int) :
    Exec.CutAt d (invoke ⟨d⟩ fuel depth f receiver args line)
      (invoke ⟨d'⟩ fuel' depth f receiver args line) := by
  refine ⟨tame_invoke _ _ _ _ _ _ _, fun s hs _ _ => Or.inr ?_⟩
  rw [invoke_of_reached fuel hreached]
  refine ⟨⟨_, rfl, rfl, (s.store.function f).name, ?_⟩, (tame_invoke _ _ _ _ _ _ _ s hs).1⟩
  have hd : d = depth := by
    simp only [DepthLimit.reached, Bool.and_eq_true, decide_eq_true_eq] at hreached
    omega
  rw [hd]
  rfl

/-- **An invocation under a lower limit is cut short of one under a higher limit**, or none.  The
fuel of the first is what its limit leaves; that of the second is arbitrary. -/
theorem cutAt_invoke {d d' : Int} (hd : 0 < d) (hd' : d ≤ d' ∨ d' ≤ 0) (fuel fuel' depth : Nat)
    (hdepth : depth ≤ d) (hfuel : d ≤ fuel + depth) (f : FunctionRef) (receiver : Value)
    (args : List Value) (line : Int) :
    Exec.CutAt d (invoke ⟨d⟩ fuel depth f receiver args line)
      (invoke ⟨d'⟩ fuel' depth f receiver args line) := by
  induction fuel generalizing fuel' depth f receiver args line with
  | zero =>
    -- no fuel is left, so the depth is the limit
    have hreached : DepthLimit.reached ⟨d⟩ depth = true := by
      simp only [DepthLimit.reached, Bool.and_eq_true, decide_eq_true_eq]
      omega
    exact cutAt_invoke_of_reached hreached hdepth ..
  | succ fuel ih =>
    cases hreached : DepthLimit.reached ⟨d⟩ depth with
    | true => exact cutAt_invoke_of_reached hreached hdepth ..
    | false =>
      refine ⟨tame_invoke _ _ _ _ _ _ _, fun s hs hsink hend => ?_⟩
      have hreached' := DepthLimit.reached_of_le hd' hreached hd
      cases fuel' with
      | zero => exact absurd (by rw [invoke_zero hreached']) hend
      | succ fuel' =>
        rw [invoke_succ fuel hreached]
        rw [invoke_succ fuel' hreached'] at hend ⊢
        have hlt : (depth : Int) < d := by
          simp only [DepthLimit.reached, Bool.and_eq_false_iff, decide_eq_false_iff_not] at hreached
          omega
        have hinv : (Congruence.cutAt d).RelInvoke (invoke ⟨d⟩ fuel (depth + 1))
            (invoke ⟨d'⟩ fuel' (depth + 1)) := by
          intro f receiver args line
          exact ih fuel' (depth + 1) (by omega) (by omega) f receiver args line
        have hcall := Congruence.callFunction hinv Exec.CutAt.of_ordinary (hs f) receiver args
        exact (hcall.atLine line).2 (s.logged _) hs hsink hend

/-! ### Runs -/

/-- The failure that ended a run. -/
def Run.failure? (r : Run) : Option Failure := r.fault?.bind Fault.failure?

/-- A failure that ended a run is in its error. -/
theorem Run.exists_fault_of_failure? {r : Run} {f : Failure} (h : r.failure? = some f) :
    ∃ e, r.ending = .failed e ∧ e.failure? = some f := by
  unfold failure? fault? at h
  cases hend : r.ending with
  | failed e => exact ⟨e, rfl, by rw [hend] at h; exact h⟩
  | _ => rw [hend] at h; cases h

/-- The run failed because an invocation was refused. -/
def Run.Exhausted (r : Run) : Prop := ∃ f, r.failure? = some f ∧ f.kind = .stackExhausted

/-- The run of a program on a sink comes to an end, and did what `r` says. -/
def Program.Ends (p : Program) (limit : DepthLimit) (sink : Sink) (r : Run) : Prop :=
  ∃ fuel, p.runWith fuel limit sink = r ∧ r.ending ≠ .outOfFuel

/-- A run failed for want of depth only if its root block did. -/
theorem Run.Exhausted.of_ofOutcome {o : Outcome Unit} {s : State}
    (h : (Run.ofOutcome o s).Exhausted) : o.Exhausted := by
  obtain ⟨f, hf, hkind⟩ := h
  cases o with
  | failed e => exact ⟨f, hf, hkind⟩
  | returning v line =>
    -- a `return` that no call has caught is a failure of its own kind
    obtain ⟨e, he, hfailure⟩ := Run.exists_fault_of_failure? hf
    obtain ⟨text, -, rfl⟩ := Run.failed_of_returning he
    cases hfailure
    cases hkind
  | _ => cases hf

/-- A beginning of the printed lines makes a beginning of the output. -/
theorem prefix_flatMap {α β : Type} {l l' : List α} (f : α → List β) (h : l <+: l') :
    l.flatMap f <+: l'.flatMap f := by
  obtain ⟨rest, rfl⟩ := h
  rw [List.flatMap_append]
  exact List.prefix_append ..

/-- The log of a run that ended goes on from that of its root block. -/
theorem Run.log_prefix_ofOutcome (o : Outcome Unit) (s : State) :
    s.log.toList <+: (Run.ofOutcome o s).log.toList := by
  simp only [Run.ofOutcome]
  split
  · rw [Array.toList_push]; exact List.prefix_append ..
  · exact List.prefix_rfl

/-- **The depth guard only cuts runs short.**  Let `r'` be what a program does under a limit that is
not below `d`, or under none, on a sink that does not fail for want of depth itself.  If its run under the limit `d` is not refused an invocation, it does
the same.  If it is, its output is the beginning of the output of `r'`, its log without the last
entry is the beginning of the log of `r'`, and the failure names the depth `d`. -/
theorem Program.run_cut_short (p : Program) {d d' : Int} (hd : 0 < d) (hd' : d ≤ d' ∨ d' ≤ 0)
    {sink : Sink} (hsink : sink.Spares .stackExhausted) {r' : Run} (hends : p.Ends ⟨d'⟩ sink r') :
    (¬ (p.run ⟨d⟩ sink).Exhausted →
      r'.ending = (p.run ⟨d⟩ sink).ending ∧ r'.output = (p.run ⟨d⟩ sink).output ∧
        r'.log = (p.run ⟨d⟩ sink).log) ∧
    ((p.run ⟨d⟩ sink).Exhausted →
      (p.run ⟨d⟩ sink).output <+: r'.output ∧
      ∃ (f : Failure) (before : Array LogEntry), (p.run ⟨d⟩ sink).ending = .failed (.failure f) ∧
        (∃ name : Text, f.detail = name ++ ", depth " ++ toString d) ∧
        (p.run ⟨d⟩ sink).log = before.push (.runFailed f.text (some f.line)) ∧
        before.toList <+: r'.log.toList) := by
  obtain ⟨fuel', rfl, hend⟩ := hends
  have hfuel : DepthLimit.fuel ⟨d⟩ = d.toNat := by simp [DepthLimit.fuel, hd]
  have hinv : (Congruence.cutAt d).RelInvoke (invoke ⟨d⟩ d.toNat 0) (invoke ⟨d'⟩ fuel' 0) := by
    intro f receiver args line
    exact cutAt_invoke hd hd' d.toNat fuel' 0 (by omega) (by omega) f receiver args line
  have hcut := (Congruence.runOptional hinv globalScope p.body).2 (State.start sink)
    Store.hostFree_initial hsink (Run.ending_ofOutcome_ne hend)
  rw [Program.run, hfuel, runWith_eq, runWith_eq]
  rcases hcut with ⟨hx, hxy⟩ | ⟨⟨f, hf, hkind, hdetail⟩, hgrow⟩
  · refine ⟨fun _ => by rw [hxy]; exact ⟨rfl, rfl, rfl⟩, fun hexh => ?_⟩
    exact absurd hexh.of_ofOutcome hx
  · refine ⟨fun hexh => ?_, fun _ => ?_⟩
    · refine absurd ⟨f, ?_, hkind⟩ hexh
      simp only [Run.failure?, Run.fault?, Run.ofOutcome, hf]
      rfl
    · refine ⟨prefix_flatMap _ hgrow.1, f, _, ?_, hdetail, ?_,
        hgrow.2.trans (Run.log_prefix_ofOutcome ..)⟩
      · simp only [Run.ofOutcome, hf]; rfl
      · simp only [Run.ofOutcome, hf]; rfl

/-- A program that calls itself once: it prints `1`, then `0`. -/
def countdown : Program where
  body := some (.mk 1
    [.fn 1 (some "count") ["n"] (some (.mk 1
      [.call 2 (.var 2 "print") [.var 2 "n"],
        .branch 3 (.var 3 "n")
          (some (.mk 3 [.call 4 (.var 4 "count") [.literal 4 (.int 0)]])) none])),
      .call 5 (.var 5 "count") [.literal 5 (.int 1)]])

/-- The run of `countdown` under the limit `2` is refused its third nested call, that of `print`. -/
theorem run_cut_short_countdown :
    countdown.Ends ⟨0⟩ {} (countdown.runWith 3 ⟨0⟩ {}) ∧ (countdown.run ⟨2⟩ {}).Exhausted ∧
      (countdown.run ⟨2⟩ {}).output <+: (countdown.runWith 3 ⟨0⟩ {}).output := by
  have hends : countdown.Ends ⟨0⟩ {} (countdown.runWith 3 ⟨0⟩ {}) := ⟨3, rfl, by decide +kernel⟩
  have hexh : (countdown.run ⟨2⟩ {}).Exhausted :=
    ⟨⟨.stackExhausted, 2, "print, depth 2"⟩, by decide +kernel, rfl⟩
  have hcut := countdown.run_cut_short (d := 2) (by decide) (Or.inr (by decide)) (Sink.spares_open _) hends
  exact ⟨hends, hexh, (hcut.2 hexh).1⟩

end TreeScript
