import TreeScript.Proofs.Eval.DepthGuard
import TreeScript.Proofs.Eval.Origin
import TreeScript.Syntax.Printer

/-!
# Trees without gaps

A tree that is built by hand may have gaps, and names that name nothing.  A tree is whole if no node
of it has such a fault, in the bodies of its functions as elsewhere.  A whole tree has a text, and
its run never comes to an expression that is not there.

## Main definitions

* `Expr.Complete` — nothing is missing in a node itself.
* `Expr.Whole`, `Block.Whole` — nothing is missing in any node.

## Main results

* `Expr.induction_on_parts` — what follows for an expression from its parts holds of all.
* `Program.exists_render?` — **a whole program has a text.**
* `Program.failure_kind_ne_unknownNode` — **the run of a whole program never comes to a gap.**
-/

namespace TreeScript

/-- Nothing is missing in the node itself: it is an expression, its constant is one of the language,
the blocks it must have are there, and what must have a name has one. -/
def Expr.Complete : Expr → Prop
  | .literal _ value => value ≠ .absent
  | .var _ name => name ≠ []
  | .assign _ _ name _ => name ≠ []
  | .fn _ name _ body => name ≠ some [] ∧ body.isSome
  | .branch _ _ onTrue _ => onTrue.isSome
  | .object _ fields => ∀ i ∈ fields, i.name ≠ []
  | .field _ _ name => name ≠ []
  | .setField _ _ name _ => name ≠ []
  | .send _ _ name _ => name ≠ []
  | .missing => False
  | .block _ | .call _ _ _ | .ret _ _ => True

instance : DecidablePred Expr.Complete
  | .literal _ value => inferInstanceAs (Decidable (value ≠ .absent))
  | .var _ name | .assign _ _ name _ | .field _ _ name | .setField _ _ name _ | .send _ _ name _ =>
    inferInstanceAs (Decidable (name ≠ []))
  | .fn _ name _ body => inferInstanceAs (Decidable (name ≠ some [] ∧ body.isSome))
  | .branch _ _ onTrue _ => inferInstanceAs (Decidable (onTrue.isSome = true))
  | .object _ fields => inferInstanceAs (Decidable (∀ i ∈ fields, i.name ≠ []))
  | .missing => inferInstanceAs (Decidable False)
  | .block _ | .call _ _ _ | .ret _ _ => inferInstanceAs (Decidable True)

/-- Nothing is missing in any node of an expression. -/
def Expr.Whole (e : Expr) : Prop := ∀ node ∈ e.nodes, node.Complete

/-- Nothing is missing in any node of a block. -/
def Block.Whole (b : Block) : Prop := ∀ node ∈ b.collect true, node.Complete

instance (e : Expr) : Decidable e.Whole := inferInstanceAs (Decidable (∀ _ ∈ _, _))

instance (b : Block) : Decidable b.Whole := inferInstanceAs (Decidable (∀ _ ∈ _, _))

/-! ### The parts of a whole tree -/

/-- The expressions that stand directly in an expression; a block that does is one of them. -/
def Expr.parts : Expr → List Expr
  | .block b => b.instrs
  | .call _ callee args => callee :: args
  | .assign _ _ _ value => [value]
  | .fn _ _ _ body => body.toList.map .block
  | .ret _ value => [value]
  | .branch _ condition onTrue onFalse => condition :: (onTrue.toList ++ onFalse.toList).map .block
  | .object _ fields => fields.map Init.value
  | .field _ receiver _ => [receiver]
  | .setField _ receiver _ value => [receiver, value]
  | .send _ receiver _ args => receiver :: args
  | .literal _ _ | .var _ _ | .missing => []

theorem collectAll_eq (es : List Expr) : collectAll true es = es.flatMap Expr.nodes := by
  induction es with
  | nil => rfl
  | cons e rest ih => rw [collectAll, ih, List.flatMap_cons, Expr.nodes]

theorem collectInits_eq (fs : List Init) :
    collectInits true fs = (fs.map Init.value).flatMap Expr.nodes := by
  induction fs with
  | nil => rfl
  | cons f rest ih =>
    obtain ⟨name, value⟩ := f
    rw [collectInits, ih, List.map_cons, List.flatMap_cons, Expr.nodes, Init.value]

theorem collectOptional_eq (b : Option Block) :
    collectOptional true b = (b.toList.map Expr.block).flatMap Expr.nodes := by
  cases b with
  | none => rfl
  | some b => simp [collectOptional, Expr.nodes, Expr.collect]

/-- The nodes of an expression are itself and those of its parts. -/
theorem Expr.nodes_eq (e : Expr) : e.nodes = e :: e.parts.flatMap Expr.nodes := by
  cases e with
  | block b =>
    obtain ⟨line, es⟩ := b
    rw [nodes, collect, Block.collect, collectAll_eq]
    rfl
  | literal _ _ | var _ _ | missing => rfl
  | call _ _ _ | send _ _ _ _ =>
    rw [nodes, collect, collectAll_eq]
    rfl
  | fn _ _ _ body =>
    rw [nodes, collect, if_pos rfl, collectOptional_eq]
    rfl
  | branch _ _ onTrue onFalse =>
    rw [nodes, collect, collectOptional_eq, collectOptional_eq, parts, List.flatMap_cons,
      List.map_append, List.flatMap_append, List.append_assoc, nodes]
  | object _ fields =>
    rw [nodes, collect, collectInits_eq]
    rfl
  | assign _ _ _ _ | ret _ _ | field _ _ _ | setField _ _ _ _ =>
    simp [nodes, collect, parts]

/-- A property holds of all nodes of an expression if it holds of itself and of all nodes of its
parts. -/
theorem Expr.forall_nodes_iff {P : Expr → Prop} (e : Expr) :
    (∀ node ∈ e.nodes, P node) ↔ P e ∧ ∀ part ∈ e.parts, ∀ node ∈ part.nodes, P node := by
  rw [nodes_eq, List.forall_mem_cons]
  refine and_congr_right fun _ => ?_
  simp only [List.mem_flatMap]
  constructor
  · intro h part hpart node hnode
    exact h node ⟨part, hpart, hnode⟩
  · rintro h node ⟨part, hpart, hnode⟩
    exact h part hpart node hnode

/-- What follows for an expression from its parts holds of all expressions. -/
theorem Expr.induction_on_parts {P : Expr → Prop}
    (step : ∀ e : Expr, (∀ part ∈ e.parts, P part) → P e) (e : Expr) : P e := by
  -- a part has fewer nodes
  refine (measure fun e : Expr => e.nodes.length).wf.induction e fun e ih => step e ?_
  intro part hpart
  refine ih part ?_
  have hsub : part.nodes.Sublist (e.parts.flatMap nodes) :=
    List.sublist_flatten_of_mem (List.mem_map_of_mem hpart)
  have hle := hsub.length_le
  show part.nodes.length < e.nodes.length
  rw [e.nodes_eq, List.length_cons]
  omega

/-- An expression is whole if it is complete and its parts are whole. -/
theorem Expr.whole_iff (e : Expr) : e.Whole ↔ e.Complete ∧ ∀ part ∈ e.parts, part.Whole :=
  e.forall_nodes_iff

/-- A block is whole as an expression if it is. -/
theorem Expr.whole_block {b : Block} : (Expr.block b).Whole ↔ b.Whole := by
  rw [Expr.Whole, nodes, collect, Block.Whole]

/-- A block is whole if its instructions are. -/
theorem Block.whole_iff {b : Block} : b.Whole ↔ ∀ e ∈ b.instrs, e.Whole := by
  rw [← Expr.whole_block, Expr.whole_iff]
  exact and_iff_right trivial

/-! ### The text of a whole tree -/

mutual

/-- A whole expression has a text. -/
theorem Expr.exists_render? : (e : Expr) → e.Whole → ∃ text, e.render? = some text
  | .block b, h => by
    rw [Expr.render?]
    exact b.exists_render? (Expr.whole_block.mp h)
  | .literal _ _, _ | .var _ _, _ => ⟨_, rfl⟩
  | .call _ callee args, h => by
    have hparts := (Expr.whole_iff _).mp h |>.2
    simp only [Expr.parts, List.forall_mem_cons] at hparts
    obtain ⟨_, hcallee⟩ := callee.exists_render? hparts.1
    obtain ⟨_, hargs⟩ := exists_renderAll? args hparts.2
    simp [Expr.render?, hcallee, hargs]
  | .assign _ _ _ value, h => by
    have hparts := (Expr.whole_iff _).mp h |>.2
    obtain ⟨_, hvalue⟩ := value.exists_render? (hparts _ (List.mem_singleton_self _))
    simp [Expr.render?, hvalue]
  | .fn _ _ _ (some b), h => by
    have hparts := (Expr.whole_iff _).mp h |>.2
    obtain ⟨_, hbody⟩ := b.exists_render?
      (Expr.whole_block.mp (hparts _ (List.mem_singleton_self _)))
    simp [Expr.render?, hbody]
  | .fn _ _ _ none, h => by
    have hcomplete := (Expr.whole_iff _).mp h |>.1
    simp [Expr.Complete] at hcomplete
  | .ret _ value, h => by
    have hparts := (Expr.whole_iff _).mp h |>.2
    obtain ⟨_, hvalue⟩ := value.exists_render? (hparts _ (List.mem_singleton_self _))
    simp [Expr.render?, hvalue]
  | .branch _ condition (some b) onFalse, h => by
    have hparts := (Expr.whole_iff _).mp h |>.2
    simp only [Expr.parts, Option.toList_some, List.cons_append, List.nil_append, List.map_cons,
      List.forall_mem_cons] at hparts
    obtain ⟨_, hcondition⟩ := condition.exists_render? hparts.1
    obtain ⟨_, htrue⟩ := b.exists_render? (Expr.whole_block.mp hparts.2.1)
    obtain ⟨_, hfalse⟩ := exists_renderElse? onFalse hparts.2.2
    simp [Expr.render?, hcondition, htrue, hfalse]
  | .branch _ _ none _, h => by
    have hcomplete := (Expr.whole_iff _).mp h |>.1
    cases hcomplete
  | .object _ fields, h => by
    have hparts := (Expr.whole_iff _).mp h |>.2
    obtain ⟨_, hfields⟩ := exists_renderInits? fields hparts
    simp [Expr.render?, hfields]
  | .field _ receiver _, h => by
    have hparts := (Expr.whole_iff _).mp h |>.2
    obtain ⟨_, hreceiver⟩ := receiver.exists_render? (hparts _ (List.mem_singleton_self _))
    simp [Expr.render?, hreceiver]
  | .setField _ receiver _ value, h => by
    have hparts := (Expr.whole_iff _).mp h |>.2
    simp only [Expr.parts, List.forall_mem_cons] at hparts
    obtain ⟨_, hreceiver⟩ := receiver.exists_render? hparts.1
    obtain ⟨_, hvalue⟩ := value.exists_render? hparts.2.1
    simp [Expr.render?, hreceiver, hvalue]
  | .send _ receiver _ args, h => by
    have hparts := (Expr.whole_iff _).mp h |>.2
    simp only [Expr.parts, List.forall_mem_cons] at hparts
    obtain ⟨_, hreceiver⟩ := receiver.exists_render? hparts.1
    obtain ⟨_, hargs⟩ := exists_renderAll? args hparts.2
    simp [Expr.render?, hreceiver, hargs]
  | .missing, h => ((Expr.whole_iff _).mp h).1.elim

/-- A whole block has a text. -/
theorem Block.exists_render? : (b : Block) → b.Whole → ∃ text, b.render? = some text
  | .mk _ [], _ => ⟨_, rfl⟩
  | .mk _ (instr :: instrs), h => by
    have hinstrs := List.forall_mem_cons.mp (Block.whole_iff.mp h)
    obtain ⟨_, hinstr⟩ := instr.exists_render? hinstrs.1
    obtain ⟨_, hrest⟩ := exists_renderAll? instrs hinstrs.2
    simp [Block.render?, hinstr, hrest]

/-- A second branch that is whole, or not there, has a text. -/
theorem exists_renderElse? : (b : Option Block) → (∀ e ∈ b.toList.map Expr.block, e.Whole) →
    ∃ text, renderElse? b = some text
  | none, _ => ⟨_, rfl⟩
  | some b, h => by
    obtain ⟨_, hb⟩ := b.exists_render? (Expr.whole_block.mp (h _ (List.mem_singleton_self _)))
    simp [renderElse?, hb]

/-- Whole expressions have texts. -/
theorem exists_renderAll? : (es : List Expr) → (∀ e ∈ es, e.Whole) →
    ∃ texts, renderAll? es = some texts
  | [], _ => ⟨_, rfl⟩
  | e :: rest, h => by
    obtain ⟨he, hrest⟩ := List.forall_mem_cons.mp h
    obtain ⟨_, he⟩ := e.exists_render? he
    obtain ⟨_, hrest⟩ := exists_renderAll? rest hrest
    simp [renderAll?, he, hrest]

/-- Initialisers with whole values have texts. -/
theorem exists_renderInits? : (fs : List Init) → (∀ e ∈ fs.map Init.value, e.Whole) →
    ∃ texts, renderInits? fs = some texts
  | [], _ => ⟨_, rfl⟩
  | .mk _ value :: rest, h => by
    rw [List.map_cons, List.forall_mem_cons] at h
    obtain ⟨_, hvalue⟩ := value.exists_render? h.1
    obtain ⟨_, hrest⟩ := exists_renderInits? rest h.2
    simp [renderInits?, hvalue, hrest]

end

/-- **A program whose root block is whole has a text.** -/
theorem Program.exists_render? (p : Program) {b : Block} (hp : p.body = some b) (hb : b.Whole) :
    ∃ text, p.render? = some text := by
  obtain ⟨texts, htexts⟩ := exists_renderAll? b.instrs (Block.whole_iff.mp hb)
  exact ⟨_, by rw [Program.render?, hp, Option.bind_eq_bind, Option.bind_some, htexts]; rfl⟩

/-! ### The runs of a whole program -/

/-- **The run of a program whose root block is whole never comes to a gap**, whatever its options, on a
sink that makes no such failure itself. -/
theorem Program.failure_kind_ne_unknownNode (p : Program) {b : Block} (hp : p.body = some b)
    (hb : b.Whole) (fuel : Nat) (limit : DepthLimit) {sink : Sink}
    (hsink : sink.Spares .unknownNode) {f : Failure}
    (hf : (p.runWith fuel limit sink).failure? = some f) : f.kind ≠ .unknownNode := by
  -- a gap that is evaluated is a node of the program
  have hgap : ∀ (f₀ : Failure) (node : Expr), (p.start fuel sink).Evaluates limit node →
      f₀.CausedBy node → f₀.kind ≠ .unknownNode := by
    intro f₀ node heval hcause hkind
    have hmem := p.mem_nodes_of_evaluates heval
    simp only [Failure.CausedBy, hkind] at hcause
    rw [hcause.1, nodes, hp] at hmem
    exact hb _ hmem
  obtain ⟨e, he, hfailure⟩ := Run.exists_fault_of_failure? hf
  rcases p.cause_of_ending he with ⟨e₀, hmakes, hloc⟩ | ⟨line, text, value, rfl, -, -⟩ |
    ⟨f₀, node, hloc, -, heval, hcause⟩
  · exact hsink.kind_ne hmakes hloc hfailure
  · cases hfailure
    simp
  · obtain ⟨f₁, hf₁, hkind⟩ := hloc.exists_failure? hfailure
    cases hf₁
    rw [← hkind]
    exact hgap f₀ node heval hcause

end TreeScript
