import TreeScript.Proofs.Eval.Unwinding
import TreeScript.Proofs.Store.Sound

/-!
# The nodes that a run works on

A run evaluates only what its program is written of.  Each part of a task stands in the tree of the
task, and the bodies of functions stand in the tree in which the function was made; so every node
that is evaluated in a run is a node of the program.  The parts that an evaluation comes to without
a call stand outside the bodies of the functions in its tree.

## Main definitions

* `Expr.line?` — the line of a node.
* `Expr.nodes`, `Program.nodes` — all nodes of a tree.
* `Expr.ownNodes`, `Program.ownNodes` — the nodes outside the bodies of the functions in it.
* `Store.BodiesIn` — the bodies of the functions in a store consist of given nodes.

## Main results

* `Task.Leads.collect_subset` — what a task leads to stands in its tree.
* `Program.nodes_of_reaches` — **a run evaluates nodes of its program.**
-/

namespace TreeScript

/-! ### Nodes -/

/-- The line of a node; a gap has none. -/
def Expr.line? : Expr → Option Int
  | .block b => some b.line
  | .literal line _ => some line
  | .call line _ _ => some line
  | .var line _ => some line
  | .assign line _ _ _ => some line
  | .fn line _ _ _ => some line
  | .ret line _ => some line
  | .branch line _ _ _ => some line
  | .object line _ => some line
  | .field line _ _ => some line
  | .setField line _ _ _ => some line
  | .send line _ _ _ => some line
  | .missing => none

mutual

/-- The nodes of an expression, itself first; `bodies` says whether the bodies of the functions in
it are looked into. -/
def Expr.collect (bodies : Bool) : Expr → List Expr
  | .block b => b.collect bodies
  | .literal line value => [.literal line value]
  | .call line callee args =>
    .call line callee args :: (callee.collect bodies ++ collectAll bodies args)
  | .var line name => [.var line name]
  | .assign line declares name value => .assign line declares name value :: value.collect bodies
  | .fn line name params body =>
    .fn line name params body :: if bodies then collectOptional bodies body else []
  | .ret line value => .ret line value :: value.collect bodies
  | .branch line condition onTrue onFalse =>
    .branch line condition onTrue onFalse ::
      (condition.collect bodies ++ collectOptional bodies onTrue ++ collectOptional bodies onFalse)
  | .object line inits => .object line inits :: collectInits bodies inits
  | .field line receiver name => .field line receiver name :: receiver.collect bodies
  | .setField line receiver name value =>
    .setField line receiver name value :: (receiver.collect bodies ++ value.collect bodies)
  | .send line receiver name args =>
    .send line receiver name args :: (receiver.collect bodies ++ collectAll bodies args)
  | .missing => [.missing]

/-- The nodes of a block, itself first. -/
def Block.collect (bodies : Bool) : Block → List Expr
  | .mk line instrs => .block (.mk line instrs) :: collectAll bodies instrs

/-- The nodes of a block, if there is one. -/
def collectOptional (bodies : Bool) : Option Block → List Expr
  | none => []
  | some b => b.collect bodies

/-- The nodes of expressions, one after another. -/
def collectAll (bodies : Bool) : List Expr → List Expr
  | [] => []
  | e :: rest => e.collect bodies ++ collectAll bodies rest

/-- The nodes of the values of initialisers. -/
def collectInits (bodies : Bool) : List Init → List Expr
  | [] => []
  | .mk _ value :: rest => value.collect bodies ++ collectInits bodies rest

end

/-- All nodes of an expression. -/
def Expr.nodes (e : Expr) : List Expr := e.collect true

/-- The nodes of an expression outside the bodies of the functions in it. -/
def Expr.ownNodes (e : Expr) : List Expr := e.collect false

/-- All nodes of a program. -/
def Program.nodes (p : Program) : List Expr := collectOptional true p.body

/-- The nodes of a program outside the bodies of the functions in it. -/
def Program.ownNodes (p : Program) : List Expr := collectOptional false p.body

/-- An expression is one of its nodes. -/
theorem Expr.mem_collect (bodies : Bool) (e : Expr) : e ∈ e.collect bodies := by
  cases e with
  | block b =>
    obtain ⟨line, es⟩ := b
    simp [collect, Block.collect]
  | _ => simp [collect]

/-! ### The tree of a task -/

/-- The nodes of the tree that a task works on. -/
def Task.collect (bodies : Bool) : Task → List Expr
  | .expr _ e => e.collect bodies
  | .instrs _ es => collectAll bodies es
  | .args _ es => collectAll bodies es
  | .inits _ _ fs => collectInits bodies fs
  | .call _ _ _ _ => []

/-- The parts of a task stand in its tree. -/
theorem Task.Enters.collect_subset {inv : Invoke} {t t' : Task} {s s' : State} (bodies : Bool)
    (h : t.Enters inv s t' s') : t'.collect bodies ⊆ t.collect bodies := by
  intro e he
  cases h with
  | callInvoke _ _ | sendInvoke _ _ _ => cases he
  | _ =>
    simp only [Task.collect, Expr.collect, Block.collect, collectOptional, collectAll, collectInits,
      List.mem_cons, List.mem_append] at he ⊢
    simp only [he, or_true, true_or]

/-- What a task leads to stands in its tree. -/
theorem Task.Leads.collect_subset {inv : Invoke} {t t' : Task} {s s' : State} (bodies : Bool)
    (h : t.Leads inv s t' s') : t'.collect bodies ⊆ t.collect bodies := by
  induction h with
  | refl => exact List.Subset.refl _
  | enter henter _ ih => exact List.Subset.trans ih (henter.collect_subset bodies)

/-! ### The bodies in a store -/

/-- The bodies of the functions in a store consist of the nodes `N`. -/
def Store.BodiesIn (N : List Expr) (s : Store) : Prop :=
  ∀ f params b closure, (s.function f).code = .closure params (some b) closure →
    b.collect true ⊆ N

namespace Store.BodiesIn

variable {N : List Expr} {s t : Store}

theorem of_functions (h : s.BodiesIn N) (hf : t.functions = s.functions) : t.BodiesIn N := by
  intro f params b closure hcode
  rw [function, hf] at hcode
  exact h f params b closure hcode

/-- A function whose body consists of such nodes is added. -/
theorem newFunction (h : s.BodiesIn N) {f : Function}
    (hf : ∀ params b closure, f.code = .closure params (some b) closure → b.collect true ⊆ N) :
    (s.newFunction f).2.BodiesIn N := by
  intro r params b closure hcode
  rw [function_newFunction] at hcode
  split at hcode
  · exact hf params b closure hcode
  · exact h r params b closure hcode

/-- The store with which a run starts holds native functions only. -/
theorem initial (N : List Expr) : Store.initial.BodiesIn N := by
  refine initial_induction ?_ fun s name arity p _ hs => ?_
  · intro f params b closure hcode
    simp [function, newScope, assign, default] at hcode
  · refine (hs.newFunction ?_).of_functions (functions_assign ..)
    intro params b closure hcode
    cases hcode

end Store.BodiesIn

/-- A change made by a task whose tree consists of the nodes `N` brings no others into the store. -/
theorem Point.Acts.bodiesIn {limit : DepthLimit} {q : Point} {s t : State} {N : List Expr}
    (h : Acts limit q s t) (hq : q.task.collect true ⊆ N) (hs : s.store.BodiesIn N) :
    t.store.BodiesIn N := by
  cases h with
  | makeFunction =>
    refine hs.newFunction fun params b closure hcode => ?_
    cases hcode
    intro e he
    apply hq
    simp only [Task.collect, Expr.collect, collectOptional, if_true, List.mem_cons]
    exact Or.inr he
  | nameFunction hmade =>
    exact hs.of_functions (Store.functions_assign ..)
  | assign _ | declare _ _ => exact hs.of_functions (Store.functions_assign ..)
  | setField _ _ _ | initField _ => exact hs.of_functions (Store.functions_setField ..)
  | openScope _ _ _ => exact hs.of_functions (Store.functions_openScope ..)
  | makeObject => exact hs.of_functions rfl
  | logCall _ | logPrint _ _ _ _ | print _ _ _ _ _ => exact hs

/-- The tree of the task with which a run starts is that of the program. -/
theorem Program.collect_start_subset (p : Program) (fuel : Nat) (sink : Sink) (bodies : Bool) :
    (p.start fuel sink).task.collect bodies ⊆ collectOptional bodies p.body := by
  intro e he
  obtain ⟨path, body⟩ := p
  cases body with
  | none => cases he
  | some b =>
    obtain ⟨line, es⟩ := b
    exact List.mem_cons_of_mem _ he

/-- **A run evaluates nodes of its program**: the tree of every task that is reached consists of
such nodes. -/
theorem Program.nodes_of_reaches (p : Program) {fuel : Nat} {limit : DepthLimit} {sink : Sink}
    {q : Point} (hq : (p.start fuel sink).Reaches limit q) : q.task.collect true ⊆ p.nodes := by
  refine (Point.invariant_of_reaches (T := fun t => t.collect true ⊆ p.nodes)
    (S := fun s => s.store.BodiesIn p.nodes) ?_ ?_ ?_ ?_ ?_ hq).1
  · intro inv t s t' s' henter ht
    exact List.Subset.trans (henter.collect_subset true) ht
  · intro s f params line es closure scope hs hcode e he
    exact hs f params _ closure hcode (List.mem_cons_of_mem _ he)
  · intro q s t hact hq hs
    exact hact.bodiesIn hq hs
  · exact p.collect_start_subset fuel sink true
  · exact Store.BodiesIn.initial _

end TreeScript
