import TreeScript.Proofs.Eval.Rewriting

/-!
# Blocks open no scope

A block runs its instructions in the scope around it, and its value is always undefined.  So a block
that is itself an instruction makes no difference: its instructions can stand in its place.  A program
in which this has been done to every list of instructions, in the root block, in the bodies of
functions, in branches and in blocks that stand for values, runs as it did before.

## Main definitions

* `splice` — a list of instructions with the instructions of its blocks in their place.
* `Program.flatten` — a program in which every list of instructions has been spliced.
* `Expr.Flat` — a node that is no block with a block among its instructions.

## Main results

* `runAll_splice` — **splicing makes no difference to running a list.**
* `Program.run_flatten` — **a flattened program has no block among instructions, and runs as the program
  does.**
-/

namespace TreeScript

/-! ### Splicing -/

/-- The instructions that stand for an instruction: those of a block, or the instruction itself. -/
def Expr.unblocked : Expr → List Expr
  | .block b => b.instrs
  | e => [e]

/-- A list of instructions with the instructions of its blocks in their place. -/
def splice (es : List Expr) : List Expr := es.flatMap Expr.unblocked

/-- Sequencing is associative. -/
theorem Exec.andThen_assoc {α β γ : Type} (x : Exec α) (f : α → Exec β) (h : β → Exec γ) :
    (x.andThen f).andThen h = x.andThen fun a => (f a).andThen h := by
  funext s
  rcases hx : x s with ⟨o, t⟩
  rcases o.done_or_exit with ⟨a, rfl⟩ | ⟨i, rfl⟩
  · rw [andThen_done hx]
    simp only [andThen, hx]
  · rw [andThen_exit hx, andThen_exit (andThen_exit hx)]

/-- Running one list of instructions after another. -/
theorem runAll_append (inv : Invoke) (scope : ScopeRef) (es fs : List Expr) :
    runAll inv scope (es ++ fs) =
      (runAll inv scope es).andThen fun _ => runAll inv scope fs := by
  induction es with
  | nil =>
    rw [runAll]
    rfl
  | cons e rest ih =>
    rw [List.cons_append, runAll, ih, runAll]
    exact (Exec.andThen_assoc _ _ _).symm

/-- Running an instruction, whose value does not matter, is running what stands for it. -/
theorem runAll_unblocked (inv : Invoke) (scope : ScopeRef) (e : Expr) :
    runAll inv scope e.unblocked = runAll inv scope [e] := by
  cases e with
  | block b =>
    obtain ⟨line, es⟩ := b
    funext s
    simp only [Expr.unblocked, Block.instrs, runAll, Expr.eval, Block.run, bind, pure, Exec.andThen]
    rcases runAll inv scope es s with ⟨o, t⟩
    cases o <;> rfl
  | _ => rfl

/-- **Splicing makes no difference to running a list of instructions.** -/
theorem runAll_splice (inv : Invoke) (scope : ScopeRef) (es : List Expr) :
    runAll inv scope (splice es) = runAll inv scope es := by
  induction es with
  | nil => rfl
  | cons e rest ih =>
    have hcons : e :: rest = [e] ++ rest := rfl
    rw [splice, List.flatMap_cons, runAll_append, runAll_unblocked, ← splice, ih, hcons,
      runAll_append]

/-- Splicing, as a way of rewriting lists of instructions. -/
def Rewriting.splice : Rewriting where
  instrs := TreeScript.splice
  run_instrs := runAll_splice

/-! ### Flattening -/

/-- The program with, in every list of instructions, each instruction that is a block replaced by the
instructions of that block, flattened themselves. -/
def Program.flatten (p : Program) : Program := p.rewrite .splice

/-- A node that is no block with a block among its instructions. -/
def Expr.Flat : Expr → Prop
  | .block b => ∀ e ∈ b.instrs, ∀ b', e ≠ .block b'
  | _ => True

/-- The nodes of the instructions of a list are those of the list. -/
theorem collectAll_append (bodies : Bool) (es fs : List Expr) :
    collectAll bodies (es ++ fs) = collectAll bodies es ++ collectAll bodies fs := by
  induction es with
  | nil => rfl
  | cons e rest ih => rw [List.cons_append, collectAll, ih, collectAll, List.append_assoc]

/-- What stands for an instruction has no nodes but those of the instruction. -/
theorem collectAll_unblocked_subset (bodies : Bool) (e : Expr) :
    collectAll bodies e.unblocked ⊆ e.collect bodies := by
  intro node hnode
  cases e with
  | block b =>
    obtain ⟨line, es⟩ := b
    exact List.mem_cons_of_mem _ hnode
  | _ => simpa only [Expr.unblocked, collectAll, List.append_nil] using hnode

/-- Splicing brings in no nodes. -/
theorem collectAll_splice_subset (bodies : Bool) (es : List Expr) :
    collectAll bodies (splice es) ⊆ collectAll bodies es := by
  induction es with
  | nil => exact List.Subset.refl _
  | cons e rest ih =>
    rw [splice, List.flatMap_cons, collectAll_append, collectAll]
    intro node hnode
    rcases List.mem_append.mp hnode with hnode | hnode
    · exact List.mem_append_left _ (collectAll_unblocked_subset bodies e hnode)
    · exact List.mem_append_right _ (ih hnode)

/-- In a spliced list of instructions no instruction is a block, if the blocks spliced are flat. -/
theorem ne_block_of_mem_splice {es : List Expr} (hes : ∀ node ∈ collectAll true es, node.Flat)
    {e : Expr} (he : e ∈ splice es) (b : Block) : e ≠ .block b := by
  induction es with
  | nil => cases he
  | cons first rest ih =>
    rw [collectAll, List.forall_mem_append] at hes
    rw [splice, List.flatMap_cons, List.mem_append] at he
    rcases he with he | he
    · have hfirst : first.Flat := hes.1 first (first.mem_collect true)
      cases first with
      | block inner => exact hfirst e he b
      | _ =>
        simp only [Expr.unblocked, List.mem_singleton] at he
        rw [he]
        intro heq
        cases heq
    · exact ih hes.2 he

/-- Splicing makes blocks flat. -/
theorem Rewriting.splice_establishes : Rewriting.splice.Establishes Expr.Flat where
  other node hnode := by
    cases node with
    | block b => exact absurd rfl (hnode b)
    | _ => trivial
  block _ _ hes := fun _ he b => ne_block_of_mem_splice hes he b
  subset := collectAll_splice_subset true

/-- The nodes of a flattened block are flat, if there is one. -/
theorem flat_rewriteOptional (b : Option Block) :
    ∀ node ∈ collectOptional true (rewriteOptional .splice b), node.Flat :=
  Rewriting.splice_establishes.optional b

/-- **Blocks open no scope.**  A flattened program has no block among the instructions of another
block, at any depth; and whatever the depth limit, it ends as the program does, with the same lines
printed and the same entries logged. -/
theorem Program.run_flatten (p : Program) :
    (∀ node ∈ p.flatten.nodes, node.Flat) ∧
    ∀ (fuel : Nat) (limit : DepthLimit) (sink : Sink),
      (p.flatten.runWith fuel limit sink).ending = (p.runWith fuel limit sink).ending ∧
      (p.flatten.runWith fuel limit sink).output = (p.runWith fuel limit sink).output ∧
      (p.flatten.runWith fuel limit sink).log = (p.runWith fuel limit sink).log := by
  refine ⟨flat_rewriteOptional p.body, fun fuel limit sink => ?_⟩
  rw [flatten, runWith_rewrite]
  exact ⟨rfl, rfl, rfl⟩

/-- A program with blocks among the instructions of its root block, of a function and of a block that
stands for a value; the function returns from a block inside a block. -/
def nested : Program where
  body := some (.mk 1
    [.block (.mk 2 [.block (.mk 2 [.assign 2 true "a" (.literal 2 (.int 7))])]),
      .fn 3 (some "f") [] (some (.mk 3
        [.block (.mk 4 [.block (.mk 4 [.ret 4 (.var 4 "a")]), .missing])])),
      .call 5 (.var 5 "print") [.call 5 (.var 5 "f") []],
      .call 6 (.var 6 "print") [.block (.mk 6 [.block (.mk 7 []), .call 8 (.var 8 "b") []])]])

/-- The flattened `nested` keeps the block that stands for a value, prints what the function returns
and fails where no function is called, as `nested` does. -/
theorem run_flatten_nested :
    nested.flatten.body = some (.mk 1
      [.assign 2 true "a" (.literal 2 (.int 7)),
        .fn 3 (some "f") [] (some (.mk 3 [.ret 4 (.var 4 "a"), .missing])),
        .call 5 (.var 5 "print") [.call 5 (.var 5 "f") []],
        .call 6 (.var 6 "print") [.block (.mk 6 [.call 8 (.var 8 "b") []])]]) ∧
      (Expr.block (.mk 6 [.call 8 (.var 8 "b") []])).Flat ∧
      (nested.flatten.run ⟨4⟩ {}).ending = .failed (.failure ⟨.notAFunction, 8, "undefined"⟩) ∧
      (nested.flatten.run ⟨4⟩ {}).output = "7\n" ∧
      (nested.flatten.run ⟨4⟩ {}).log = (nested.run ⟨4⟩ {}).log := by
  have hrun := nested.run_flatten.2
  refine ⟨rfl, nested.run_flatten.1 _ ?_, ?_, ?_, ?_⟩
  · exact List.mem_of_getElem? (i := 14) rfl
  · exact (hrun _ ⟨4⟩ {}).1.trans (by decide +kernel)
  · exact (hrun _ ⟨4⟩ {}).2.1.trans (by decide +kernel)
  · exact (hrun _ ⟨4⟩ {}).2.2

end TreeScript
