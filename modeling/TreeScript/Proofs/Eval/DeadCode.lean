import TreeScript.Proofs.Eval.Rewriting

/-!
# Code after a certain return is dead

Some instructions return whenever they do not fail: a `return`, a block with such an instruction, and
a conditional with two branches of this sort.  What stands after one of them in the same list is never
run.  It can be left out, in the root block, in the bodies of functions, in branches and in nested
blocks, and the program runs as it did before.

## Main definitions

* `Expr.alwaysReturns` — whether an instruction returns whenever it does not fail.
* `live` — the instructions of a list up to the first that always returns.
* `Program.prune` — a program of whose lists of instructions only the live ones are left.
* `Expr.Live` — a node that is no block with an instruction after one that always returns.

## Main results

* `Expr.neverDone` — **what always returns never gives a result.**
* `runAll_live` — so leaving out what follows makes no difference to running a list.
* `Block.rewrite_live` — pruning leaves out what follows an instruction that always returns, and
  nothing else.
* `Program.run_prune` — **a pruned program has no dead instruction, and runs as the program does.**
-/

namespace TreeScript

/-! ### Instructions that always return -/

mutual

/-- Whether an instruction returns whenever it does not fail. -/
def Expr.alwaysReturns : Expr → Bool
  | .ret _ _ => true
  | .block b => b.alwaysReturns
  | .branch _ _ onTrue onFalse => optionalReturns onTrue && optionalReturns onFalse
  | _ => false

/-- Whether a block has an instruction that always returns. -/
def Block.alwaysReturns : Block → Bool
  | .mk _ instrs => anyReturns instrs

/-- Whether there is a block, and it has an instruction that always returns. -/
def optionalReturns : Option Block → Bool
  | none => false
  | some b => b.alwaysReturns

/-- Whether one of some instructions always returns. -/
def anyReturns : List Expr → Bool
  | [] => false
  | e :: rest => e.alwaysReturns || anyReturns rest

end

/-- A step that never gives a result. -/
def Exec.NeverDone {α : Type} (x : Exec α) : Prop := ∀ s a t, x s ≠ (.done a, t)

namespace Exec.NeverDone

variable {α β : Type} {x : Exec α}

/-- A step that never gives a result ends with an exit. -/
theorem exists_exit (h : x.NeverDone) (s : State) :
    ∃ (i : Exit) (t : State), x s = (i.outcome, t) := by
  rcases hx : x s with ⟨o, t⟩
  rcases o.done_or_exit with ⟨a, rfl⟩ | ⟨i, rfl⟩
  · exact absurd hx (h s a t)
  · exact ⟨i, t, rfl⟩

/-- What follows such a step makes no difference. -/
theorem andThen_eq (h : x.NeverDone) (f g : α → Exec β) : x.andThen f = x.andThen g := by
  funext s
  obtain ⟨i, t, hx⟩ := h.exists_exit s
  rw [andThen_exit hx, andThen_exit hx]

/-- Nor does a sequence give a result whose first step never does. -/
theorem andThen (h : x.NeverDone) (f : α → Exec β) : (x.andThen f).NeverDone := by
  intro s b u hdone
  obtain ⟨i, t, hx⟩ := h.exists_exit s
  rw [andThen_exit hx] at hdone
  cases i <;> cases hdone

/-- Nor does one whose second step never does. -/
theorem after {f : α → Exec β} (h : ∀ a, (f a).NeverDone) : (x.andThen f).NeverDone := by
  intro s b u hdone
  rcases hx : x s with ⟨o, t⟩
  rcases o.done_or_exit with ⟨a, rfl⟩ | ⟨i, rfl⟩
  · rw [andThen_done hx] at hdone
    exact h a t b u hdone
  · rw [andThen_exit hx] at hdone
    cases i <;> cases hdone

end Exec.NeverDone

mutual

/-- **What always returns never gives a result**, whatever invocations do. -/
theorem Expr.neverDone (inv : Invoke) (scope : ScopeRef) :
    ∀ e : Expr, e.alwaysReturns = true → (e.eval inv scope).NeverDone
  | .ret _ value, _ => by
    rw [Expr.eval]
    refine Exec.NeverDone.after fun v s a t hdone => ?_
    cases hdone
  | .block b, h => by
    rw [Expr.alwaysReturns] at h
    rw [Expr.eval]
    exact (b.neverDone inv scope h).andThen _
  | .branch _ condition onTrue onFalse, h => by
    rw [Expr.alwaysReturns, Bool.and_eq_true] at h
    rw [Expr.eval]
    -- whichever branch is selected, it never gives a result
    refine Exec.NeverDone.after fun v => ?_
    cases v.truthy with
    | true => exact (neverDone_runOptional inv scope onTrue h.1).andThen _
    | false => exact (neverDone_runOptional inv scope onFalse h.2).andThen _
  | .literal _ _, h | .call _ _ _, h | .var _ _, h | .assign _ _ _ _, h | .fn _ _ _ _, h
  | .object _ _, h | .field _ _ _, h | .setField _ _ _ _, h | .send _ _ _ _, h | .missing, h => by
    cases h

/-- A block with an instruction that always returns. -/
theorem Block.neverDone (inv : Invoke) (scope : ScopeRef) :
    ∀ b : Block, b.alwaysReturns = true → (b.run inv scope).NeverDone
  | .mk _ instrs, h => by
    rw [Block.alwaysReturns] at h
    rw [Block.run]
    exact neverDone_runAll inv scope instrs h

/-- A block that is there, with an instruction that always returns. -/
theorem neverDone_runOptional (inv : Invoke) (scope : ScopeRef) :
    ∀ b : Option Block, optionalReturns b = true → (runOptional inv scope b).NeverDone
  | none, h => by cases h
  | some b, h => by
    rw [optionalReturns] at h
    rw [runOptional]
    exact b.neverDone inv scope h

/-- Instructions one of which always returns. -/
theorem neverDone_runAll (inv : Invoke) (scope : ScopeRef) :
    ∀ es : List Expr, anyReturns es = true → (runAll inv scope es).NeverDone
  | [], h => by cases h
  | e :: rest, h => by
    rw [anyReturns, Bool.or_eq_true] at h
    rw [runAll]
    rcases h with he | hrest
    · exact (e.neverDone inv scope he).andThen _
    · exact Exec.NeverDone.after fun _ => neverDone_runAll inv scope rest hrest

end

/-! ### Live instructions -/

/-- The instructions of a list up to the first that always returns. -/
def live : List Expr → List Expr
  | [] => []
  | e :: rest => if e.alwaysReturns then [e] else e :: live rest

/-- **Leaving out what follows an instruction that always returns makes no difference to running a
list.** -/
theorem runAll_live (inv : Invoke) (scope : ScopeRef) (es : List Expr) :
    runAll inv scope (live es) = runAll inv scope es := by
  induction es with
  | nil => rfl
  | cons e rest ih =>
    rw [live]
    split
    · next he =>
      rw [runAll, runAll]
      exact (e.neverDone inv scope he).andThen_eq _ _
    · rw [runAll, runAll, ih]

/-- Keeping the live instructions, as a way of rewriting lists of instructions. -/
def Rewriting.live : Rewriting where
  instrs := TreeScript.live
  run_instrs := runAll_live

/-- The program of whose lists of instructions, at every depth, only the live ones are left. -/
def Program.prune (p : Program) : Program := p.rewrite .live

mutual

/-- An expression always returns if it does so with the dead instructions in it left out. -/
theorem Expr.alwaysReturns_rewrite :
    ∀ e : Expr, (e.rewrite .live).alwaysReturns = e.alwaysReturns
  | .block b => by
    rw [Expr.rewrite, Expr.alwaysReturns, Expr.alwaysReturns, b.alwaysReturns_rewrite]
  | .branch _ condition onTrue onFalse => by
    rw [Expr.rewrite, Expr.alwaysReturns, Expr.alwaysReturns, optionalReturns_rewrite onTrue,
      optionalReturns_rewrite onFalse]
  | .ret _ _ | .literal _ _ | .call _ _ _ | .var _ _ | .assign _ _ _ _ | .fn _ _ _ _
  | .object _ _ | .field _ _ _ | .setField _ _ _ _ | .send _ _ _ _ | .missing => rfl

/-- A block always returns if it does so with its dead instructions left out. -/
theorem Block.alwaysReturns_rewrite :
    ∀ b : Block, (b.rewrite .live).alwaysReturns = b.alwaysReturns
  | .mk _ instrs => by
    rw [Block.rewrite, Block.alwaysReturns, Block.alwaysReturns]
    exact anyReturns_live_rewriteAll instrs

/-- The same of a block that may be absent. -/
theorem optionalReturns_rewrite :
    ∀ b : Option Block, optionalReturns (rewriteOptional .live b) = optionalReturns b
  | none => rfl
  | some b => b.alwaysReturns_rewrite

/-- The same of instructions. -/
theorem anyReturns_live_rewriteAll :
    ∀ es : List Expr, anyReturns (live (rewriteAll .live es)) = anyReturns es
  | [] => rfl
  | e :: rest => by
    have he := e.alwaysReturns_rewrite
    have hrest := anyReturns_live_rewriteAll rest
    rw [rewriteAll, live, anyReturns, he]
    cases hreturns : e.alwaysReturns with
    | true => simp [anyReturns, he, hreturns]
    | false => simp [anyReturns, he, hreturns, hrest]

end

/-- Which instructions are live can be seen before the instructions themselves are rewritten. -/
theorem live_rewriteAll (es : List Expr) :
    live (rewriteAll .live es) = rewriteAll .live (live es) := by
  induction es with
  | nil => rfl
  | cons e rest ih =>
    rw [rewriteAll, live, live, e.alwaysReturns_rewrite]
    split
    · rfl
    · rw [ih, rewriteAll]

/-- **Pruning a block leaves the instructions up to the first that always returns**, each of them
pruned. -/
theorem Block.rewrite_live (line : Int) (es : List Expr) :
    (Block.mk line es).rewrite .live = .mk line (rewriteAll .live (live es)) := by
  rw [Block.rewrite]
  exact congrArg (Block.mk line) (live_rewriteAll es)

/-! ### Nothing dead is left -/

/-- A node that is no block with an instruction after one that always returns. -/
def Expr.Live : Expr → Prop
  | .block b => ∀ before e after, b.instrs = before ++ e :: after → e.alwaysReturns = true →
    after = []
  | _ => True

/-- Only the last of the live instructions can be one that always returns. -/
theorem eq_nil_of_live {es before after : List Expr} {e : Expr}
    (h : live es = before ++ e :: after) (he : e.alwaysReturns = true) : after = [] := by
  induction es generalizing before with
  | nil =>
    rw [live] at h
    cases before <;> cases h
  | cons first rest ih =>
    rw [live] at h
    split at h
    · cases before with
      | nil =>
        cases h
        rfl
      | cons b before => cases before <;> cases h
    · next hfirst =>
      cases before with
      | nil =>
        rw [List.nil_append, List.cons.injEq] at h
        exact absurd (h.1 ▸ he) hfirst
      | cons b before =>
        rw [List.cons_append, List.cons.injEq] at h
        exact ih h.2

/-- The live instructions have no nodes but those of the list. -/
theorem collectAll_live_subset (bodies : Bool) (es : List Expr) :
    collectAll bodies (live es) ⊆ collectAll bodies es := by
  induction es with
  | nil => exact List.Subset.refl _
  | cons e rest ih =>
    rw [live, collectAll]
    split
    · rw [collectAll, collectAll, List.append_nil]
      exact List.subset_append_left _ _
    · rw [collectAll]
      intro node hnode
      rcases List.mem_append.mp hnode with hnode | hnode
      · exact List.mem_append_left _ hnode
      · exact List.mem_append_right _ (ih hnode)

/-- Keeping the live instructions leaves nothing dead. -/
theorem Rewriting.live_establishes : Rewriting.live.Establishes Expr.Live where
  other node hnode := by
    cases node with
    | block b => exact absurd rfl (hnode b)
    | _ => trivial
  block _ _ _ := fun _ _ _ hinstrs he => eq_nil_of_live hinstrs he
  subset := collectAll_live_subset true

/-- **Code after a certain return is dead.**  The evaluation of an expression that always returns
never gives a result.  A pruned program is the program without the instructions that follow one that
always returns in the same list, at every depth, and none such is left in it; whatever the depth
limit, it ends as the program does, with the same lines printed and the same entries logged. -/
theorem Program.run_prune :
    (∀ e : Expr, e.alwaysReturns = true →
      ∀ (inv : Invoke) (scope : ScopeRef) (s t : State) (v : Value),
        e.eval inv scope s ≠ (.done v, t)) ∧
    (∀ line es, (Block.mk line es).rewrite .live = .mk line (rewriteAll .live (live es))) ∧
    ∀ p : Program, (∀ node ∈ p.prune.nodes, node.Live) ∧
      ∀ (fuel : Nat) (limit : DepthLimit) (sink : Sink),
        (p.prune.runWith fuel limit sink).ending = (p.runWith fuel limit sink).ending ∧
        (p.prune.runWith fuel limit sink).output = (p.runWith fuel limit sink).output ∧
        (p.prune.runWith fuel limit sink).log = (p.runWith fuel limit sink).log := by
  refine ⟨?_, Block.rewrite_live, fun p => ⟨?_, ?_⟩⟩
  · intro e he inv scope s t v
    exact e.neverDone inv scope he s v t
  · exact Rewriting.live_establishes.program p
  · intro fuel limit sink
    rw [prune, runWith_rewrite]
    exact ⟨rfl, rfl, rfl⟩

/-- A conditional that returns in either branch, in one of them from a nested block. -/
def eitherWay : Expr :=
  .branch 2 (.var 2 "n")
    (some (.mk 2 [.block (.mk 3 [.ret 3 (.literal 3 (.str "some")), .missing]), .missing]))
    (some (.mk 4 [.ret 4 (.literal 4 (.str "none")), .call 5 (.var 5 "print") []]))

/-- A program with instructions after every `return`, in a function and outside. -/
def twoWays : Program where
  body := some (.mk 1
    [.fn 1 (some "amount") ["n"] (some (.mk 1 [eitherWay, .call 6 (.var 6 "print") []])),
      .call 7 (.var 7 "print") [.call 7 (.var 7 "amount") [.literal 7 (.int 7)]],
      .call 8 (.var 8 "print") [.call 8 (.var 8 "amount") [.literal 8 (.int 0)]],
      .ret 9 (.literal 9 (.int 1)),
      .missing])

/-- Nothing is left after the returns of the pruned `twoWays`, which prints what the function returns
either way and fails at the last `return`, as `twoWays` does. -/
theorem run_prune_twoWays :
    eitherWay.alwaysReturns = true ∧
    (∀ inv scope s t v, eitherWay.eval inv scope s ≠ (.done v, t)) ∧
    twoWays.prune.body = some (.mk 1
      [.fn 1 (some "amount") ["n"] (some (.mk 1
        [.branch 2 (.var 2 "n")
          (some (.mk 2 [.block (.mk 3 [.ret 3 (.literal 3 (.str "some"))])]))
          (some (.mk 4 [.ret 4 (.literal 4 (.str "none"))]))])),
        .call 7 (.var 7 "print") [.call 7 (.var 7 "amount") [.literal 7 (.int 7)]],
        .call 8 (.var 8 "print") [.call 8 (.var 8 "amount") [.literal 8 (.int 0)]],
        .ret 9 (.literal 9 (.int 1))]) ∧
    (twoWays.prune.run ⟨4⟩ {}).ending = .failed (.failure ⟨.returnOutsideFunction, 9, "1"⟩) ∧
    (twoWays.prune.run ⟨4⟩ {}).output = "some\nnone\n" ∧
    (twoWays.prune.run ⟨4⟩ {}).log = (twoWays.run ⟨4⟩ {}).log := by
  obtain ⟨hreturns, -, hprune⟩ := Program.run_prune
  have hrun := (hprune twoWays).2 (DepthLimit.fuel ⟨4⟩) ⟨4⟩ {}
  refine ⟨rfl, hreturns eitherWay rfl, rfl, ?_, ?_, hrun.2.2⟩
  · exact hrun.1.trans (by decide +kernel)
  · exact hrun.2.1.trans (by decide +kernel)

end TreeScript
