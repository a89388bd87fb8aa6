import TreeScript.Proofs.Form.Written
import TreeScript.Proofs.Syntax.Complete

/-!
# Reading what is written

Reading a document that writes a program gives the program back, whatever the order of the keys and
whichever of the parts that may be left out are.

## Main definitions

* `ReadsAs` — a node of a document is read as an expression.

## Main results

* `IsNode.readsAs` — a mapping is read as an expression that can be built from its fields; the
  lemmas after it say so of each type of nodes.
* `Expr.readsAs` — what is written is read.
* `Program.ofNode_writtenAs` — **reading a document that writes a whole block gives that block.**
-/

namespace TreeScript

open Document (Node Entry Meaning valueOf?)
open Form

namespace Form

/-! ### Reading the fields of a node -/

/-- The node of a document is read as the expression, as a part of a program or as all of it. -/
def ReadsAs (e : Expr) (node : Node) : Prop :=
  ∃ p : Part, p.expr = .ok e ∧ ∀ type d, type = .part ∨ type = .program →
    (partData type 0 p).Yields d → (readValue type node).Yields d

theorem ReadsAs.yields {e : Expr} {node : Node} (h : ReadsAs e node) :
    ∃ p : Part, p.expr = .ok e ∧ (readValue .part node).Yields (some (.part p)) := by
  obtain ⟨p, hp, hread⟩ := h
  exact ⟨p, hp, hread .part _ (Or.inl rfl) (Read.yields_pure _)⟩

theorem Under.mono {P Q : Node → Prop} {v : Option Node} (h : Under P v) (hPQ : ∀ n, P n → Q n) :
    Under Q v := by
  cases v with
  | none => exact h
  | some node => exact hPQ node h

/-- A part of a node. -/
theorem Under.gives {e : Expr} {v : Option Node} (h : Under (ReadsAs e) v) :
    Gives .part v fun r key => ∃ p, r.part? key = some p ∧ p.expr = .ok e := by
  cases v with
  | none => exact h.elim
  | some node =>
    obtain ⟨p, hp, hread⟩ := ReadsAs.yields h
    exact ⟨_, hread, fun r key hr => ⟨p, by simp only [Record.part?, hr], hp⟩⟩

/-- A part that is not there. -/
theorem Unset.gives_part {v : Option Node} (h : Unset v) :
    Gives .part v fun r key => r.part? key = none := by
  refine h.gives nofun fun r key hr => ?_
  rcases hr with hr | hr <;> simp only [Record.part?, hr]

/-- A scalar that is kept as it stands. -/
theorem gives_raw {place : Nat} {tag text : String} {value : Literal}
    (hvalue : ∀ place', literalOf place' (some (.scalar place tag text)) = .ok value) :
    Gives .raw (some (.scalar place tag text))
      fun r key => ∀ place, literalOf place (r.raw? key) = .ok value := by
  refine ⟨some (.raw (.scalar place tag text)), ?_, fun r key hr => ?_⟩
  · show (readValue .raw _).Yields _
    rw [readValue]
    exact Read.yields_visit.bind (Read.yields_pure _)
  · simpa only [Record.raw?, hr] using hvalue

theorem IsLiteral.gives {value : Literal} {v : Option Node} (h : IsLiteral value v) :
    Gives .raw v fun r key => ∀ place, literalOf place (r.raw? key) = .ok value := by
  cases value with
  | undefined =>
    rcases h with rfl | h
    · exact ⟨none, rfl, fun r key hr place => by simp only [Record.raw?, hr, literalOf]⟩
    · obtain ⟨place, text, rfl, -⟩ := h.exists_scalar
      exact gives_raw fun place' => by simp [literalOf, Meaning.tag]
  | int n =>
    obtain ⟨place, text, rfl, htext⟩ := Means.exists_scalar h
    refine gives_raw fun place' => ?_
    have hm : Document.meaning "!!int" text = .ok (.int n.toInt) :=
      meaning_of_resolve htext (of_decide_eq_true rfl)
    have hn := n.toInt_lt
    simpa [literalOf, Meaning.tag, hm] using hn
  | str s =>
    obtain ⟨place, text, rfl, htext⟩ := IsText.exists_scalar h
    refine gives_raw fun place' => ?_
    rw [Text.ofString_injective htext]
    simp [literalOf]
  | absent => exact h.elim

theorem IsOwnName.gives {name : Option Text} {v : Option Node} (h : IsOwnName name v)
    (hname : name ≠ some []) :
    Gives .maybeText v fun r key => Expr.functionName (r.text key) = name := by
  cases name with
  | none =>
    refine Unset.gives h nofun fun r key hr => ?_
    rcases hr with hr | hr <;> simp [Record.text, Record.text?, hr, Expr.functionName]
  | some name =>
    obtain ⟨d, hd, htext⟩ := IsText.gives .maybeText h (Or.inr rfl)
    refine ⟨d, hd, fun r key hr => ?_⟩
    simp only [Record.text, htext r key hr]
    simpa [Expr.functionName] using hname

/-- Texts are read as the items of a list. -/
theorem AreTexts.yields : {texts : List Text} → {nodes : List Node} → AreTexts texts nodes →
    ∃ ds, (readItems .text nodes).Yields ds ∧ ds = texts.map .text
  | [], [], _ => ⟨[], yields_readItems_nil .text, rfl⟩
  | text :: texts, node :: nodes, ⟨htext, htexts⟩ => by
    obtain ⟨ds, hds, rfl⟩ := htexts.yields
    obtain ⟨place, written, hnode, rfl⟩ := htext.exists_scalar
    cases hnode
    exact ⟨_, (yields_scalar place (meaning_str written) nofun rfl).items hds, rfl⟩

/-! ### Reading a node -/

/-- The type of a node is written under its key. -/
theorem writtenType_eq {entries : List Entry}
    (hnodup : (entries.map fun e => e.key.text).Nodup) :
    writtenType entries = (valueOf? entries "type").elim "" Node.text := by
  have hfold : ∀ type : String,
      entries.foldl (fun type e => if e.key.text == "type" then e.value.text else type) type =
        (valueOf? entries "type").elim type Node.text := by
    induction entries with
    | nil => exact fun _ => rfl
    | cons e rest ih =>
      intro type
      rw [List.map_cons, List.nodup_cons] at hnodup
      rw [List.foldl_cons, ih hnodup.2, valueOf?, valueOf?, List.find?_cons]
      by_cases hkey : e.key.text = "type"
      · -- no later entry has that key
        have hrest : rest.find? (fun f => f.key.text == "type") = none := by
          rw [List.find?_eq_none]
          intro f hf hf'
          rw [hkey, ← eq_of_beq hf'] at hnodup
          exact hnodup.1 (List.mem_map_of_mem hf)
        simp [hkey, hrest]
      · simp [beq_eq_false_iff_ne.mpr hkey]
  exact hfold ""

@[simp] theorem NodeKind.ofName?_name (kind : NodeKind) :
    NodeKind.ofName? kind.name = some kind := by
  cases kind <;> rfl

theorem IsNode.checkNode {kind : NodeKind} {line : Int} {node : Node} (h : IsNode kind line node)
    (place : Nat) : checkNode place node.entries = .ok () := by
  have htype : writtenType node.entries = kind.name := by
    obtain ⟨place, text, htype, htext⟩ := h.isType.exists_scalar
    rw [Node.value?] at htype
    rw [writtenType_eq h.nodup, htype, Text.ofString_injective htext]
    rfl
  have hkeys : node.entries.find? (fun e => !kind.allows e.key.text) = none := by
    rw [List.find?_eq_none]
    intro e he
    have hmem := h.mem e he
    simp only [List.mem_cons] at hmem
    rcases hmem with hmem | hmem | hmem <;> simp [NodeKind.allows, hmem]
  simp only [Form.checkNode, htype, NodeKind.ofName?_name, hkeys]

/-- **A mapping that writes a node is read as an expression**, if what stands under its keys can be
read and the expression can be built from it. -/
theorem IsNode.readsAs {kind : NodeKind} {line : Int} {node : Node} {e : Expr}
    (h : IsNode kind line node)
    (hgives : ∀ key ∈ kind.keys, ∃ field P, nodeField? key = some field ∧
      Gives field (node.value? key) P)
    (hbuild : ∀ (r : Record) (place : Nat), r.Holds .node node → r.number "line" = line →
      buildKind kind place r = .ok e) : ReadsAs e node := by
  have htype := h.isType.gives .text (Or.inl rfl)
  have hkeys : ∀ key ∈ "type" :: "line" :: kind.keys, ∃ field P,
      RecordType.node.field? key = some field ∧ Gives field (node.value? key) P := by
    rw [List.forall_mem_cons, List.forall_mem_cons]
    exact ⟨⟨_, _, rfl, htype⟩, ⟨_, _, rfl, h.onLine.gives⟩, hgives⟩
  obtain ⟨q, hq, hholds⟩ :=
    exists_record .node (node.entries.map Entry.key) h.toIsRecord hkeys
  obtain ⟨place, tag, hnode, htag⟩ := h.mapping.exists_mapping
  refine ⟨Part.ofRecord place q.record, ?_, ?_⟩
  · -- the type is checked as it is written, and looked up again as it was read
    have hname : Text.shown (q.record.text "type") = kind.name := by
      rw [Record.text, hholds.of_gives rfl htype, Option.getD_some, Text.shown_ofString]
    rw [Part.ofRecord, build, hname, NodeKind.ofName?_name]
    exact hbuild _ _ hholds (hholds.of_gives rfl h.onLine.gives)
  · intro type d htype hd
    -- the node is checked before its fields are read, and no problem was noted before
    have hfields : (readNode type place node.entries
        (readEntries .node (node.entries.map Entry.key) {} node.entries)).Yields d := by
      simp only [readNode, h.checkNode]
      refine .get fun r hr => ?_
      simp only [hr.problems, List.length_nil]
      exact (Read.yields_visit.bind
        (yields_unlessRepeated (duplicateKeys_eq_nil h.text h.nodup) (hq.bind hd))).apart
    rw [hnode, readValue]
    refine Read.yields_visit.bind ?_
    rcases htype with rfl | rfl
    · simpa [htag] using hfields
    · simpa [htag] using hfields

/-! ### Reading nodes of each type -/

/-- The nodes of a document are read as the expressions, in order. -/
def ReadAll (es : List Expr) (nodes : List Node) : Prop :=
  ∃ ds, (readItems .part nodes).Yields ds ∧ children ds = .ok es

/-- The nodes of a document are read as the initialisers, in order. -/
def ReadInits (fs : List Init) (nodes : List Node) : Prop :=
  ∃ ds, (readItems .init nodes).Yields ds ∧ ∀ place type, inits place type ds = .ok fs

/-- What is written is read as a block, or is nothing if there is none. -/
def ReadsOptional : Option Block → Option Node → Prop
  | none, v => Unset v
  | some b, v => Under (ReadsAs (.block b)) v

theorem ReadsOptional.gives {b : Option Block} {v : Option Node} (h : ReadsOptional b v) :
    Gives .part v fun r key => b = none ∧ r.part? key = none ∨
      ∃ b' p, b = some b' ∧ r.part? key = some p ∧ p.expr = .ok (.block b') := by
  cases b with
  | none =>
    obtain ⟨d, hd, hnone⟩ := Unset.gives_part h
    exact ⟨d, hd, fun r key hr => Or.inl ⟨rfl, hnone r key hr⟩⟩
  | some b =>
    obtain ⟨d, hd, hsome⟩ := Under.gives h
    refine ⟨d, hd, fun r key hr => Or.inr ?_⟩
    obtain ⟨p, hp, hexpr⟩ := hsome r key hr
    exact ⟨b, p, rfl, hp, hexpr⟩

/-- A name that is not empty is found. -/
theorem nameOf_eq {r : Record} {name : Text} (h : r.text? "name" = some name) (hname : name ≠ [])
    (place : Nat) (type : String) : nameOf place type r = .ok name := by
  simp [nameOf, h, hname]

section Types

variable {line : Int} {node : Node} {name : Text} {callee receiver value condition : Expr}
  {args : List Expr}

theorem IsNode.reads_block {instrs : List Expr} (h : IsNode .block line node)
    (hinstrs : IsList (ReadAll instrs) (node.value? "instrs")) :
    ReadsAs (.block (.mk line instrs)) node := by
  have hinstrs := hinstrs.gives fun _ => id
  refine h.readsAs ?_ fun r place hr hline => ?_
  · simp only [NodeKind.keys, List.forall_mem_cons]
    exact ⟨⟨_, _, rfl, hinstrs⟩, List.forall_mem_nil _⟩
  · have hinstrs := hr.of_gives rfl hinstrs
    simp only [buildKind, hline, hinstrs]
    rfl

theorem IsNode.reads_literal {v : Literal} (h : IsNode .literal line node)
    (hvalue : IsLiteral v (node.value? "value")) : ReadsAs (.literal line v) node := by
  refine h.readsAs ?_ fun r place hr hline => ?_
  · simp only [NodeKind.keys, List.forall_mem_cons]
    exact ⟨⟨_, _, rfl, hvalue.gives⟩, List.forall_mem_nil _⟩
  · have hvalue := hr.of_gives rfl hvalue.gives place
    simp only [buildKind, hline, hvalue]
    rfl

theorem IsNode.reads_call (h : IsNode .call line node)
    (hcallee : Under (ReadsAs callee) (node.value? "callee"))
    (hargs : IsList (ReadAll args) (node.value? "args")) :
    ReadsAs (.call line callee args) node := by
  have hargs := hargs.gives fun _ => id
  refine h.readsAs ?_ fun r place hr hline => ?_
  · simp only [NodeKind.keys, List.forall_mem_cons]
    exact ⟨⟨_, _, rfl, hcallee.gives⟩, ⟨_, _, rfl, hargs⟩, List.forall_mem_nil _⟩
  · obtain ⟨p, hp, hcallee⟩ := hr.of_gives rfl hcallee.gives
    have hargs := hr.of_gives rfl hargs
    simp only [buildKind, hline, child, hp, hcallee, hargs]
    rfl

theorem IsNode.reads_var (h : IsNode .variable line node) (hname : IsText name (node.value? "name"))
    (hne : name ≠ []) : ReadsAs (.var line name) node := by
  have hname := hname.gives .maybeText (Or.inr rfl)
  refine h.readsAs ?_ fun r place hr hline => ?_
  · simp only [NodeKind.keys, List.forall_mem_cons]
    exact ⟨⟨_, _, rfl, hname⟩, List.forall_mem_nil _⟩
  · have hname := nameOf_eq (hr.of_gives rfl hname) hne place
    simp only [buildKind, hline, hname]
    rfl

theorem IsNode.reads_assign {declares : Bool} (h : IsNode .assignment line node)
    (hname : IsText name (node.value? "name")) (hne : name ≠ [])
    (hvalue : Under (ReadsAs value) (node.value? "expr"))
    (hdeclares : IsFlag declares (node.value? "declaration")) :
    ReadsAs (.assign line declares name value) node := by
  have hname := hname.gives .maybeText (Or.inr rfl)
  refine h.readsAs ?_ fun r place hr hline => ?_
  · simp only [NodeKind.keys, List.forall_mem_cons]
    exact ⟨⟨_, _, rfl, hname⟩, ⟨_, _, rfl, hvalue.gives⟩, ⟨_, _, rfl, hdeclares.gives⟩,
      List.forall_mem_nil _⟩
  · have hname := nameOf_eq (hr.of_gives rfl hname) hne place
    obtain ⟨p, hp, hvalue⟩ := hr.of_gives rfl hvalue.gives
    have hdeclares := hr.of_gives rfl hdeclares.gives
    simp only [buildKind, hline, hname, child, hp, hvalue, hdeclares]
    rfl

theorem IsNode.reads_fn {own : Option Text} {params : List Text} {b : Block}
    (h : IsNode .function line node) (hname : IsOwnName own (node.value? "name"))
    (hne : own ≠ some []) (hparams : IsList (AreTexts params) (node.value? "params"))
    (hbody : Under (ReadsAs (.block b)) (node.value? "body")) :
    ReadsAs (.fn line own params (some b)) node := by
  have hname := hname.gives hne
  have hparams := hparams.gives fun _ hnodes => hnodes.yields
  refine h.readsAs ?_ fun r place hr hline => ?_
  · simp only [NodeKind.keys, List.forall_mem_cons]
    exact ⟨⟨_, _, rfl, hname⟩, ⟨_, _, rfl, hparams⟩, ⟨_, _, rfl, hbody.gives⟩,
      List.forall_mem_nil _⟩
  · have hname := hr.of_gives rfl hname
    have hparams : r.texts "params" = params := by
      rw [Record.texts, hr.of_gives rfl hparams, List.filterMap_map]
      exact List.filterMap_some
    obtain ⟨p, hp, hbody⟩ := hr.of_gives rfl hbody.gives
    simp only [buildKind, hline, hname, hparams, childBlock, hp, hbody]
    rfl

theorem IsNode.reads_ret (h : IsNode .ret line node)
    (hvalue : Under (ReadsAs value) (node.value? "expr")) : ReadsAs (.ret line value) node := by
  refine h.readsAs ?_ fun r place hr hline => ?_
  · simp only [NodeKind.keys, List.forall_mem_cons]
    exact ⟨⟨_, _, rfl, hvalue.gives⟩, List.forall_mem_nil _⟩
  · obtain ⟨p, hp, hvalue⟩ := hr.of_gives rfl hvalue.gives
    simp only [buildKind, hline, child, hp, hvalue]
    rfl

theorem IsNode.reads_branch {b : Block} {onFalse : Option Block} (h : IsNode .branch line node)
    (hcondition : Under (ReadsAs condition) (node.value? "condition"))
    (htrue : Under (ReadsAs (.block b)) (node.value? "then"))
    (hfalse : ReadsOptional onFalse (node.value? "else")) :
    ReadsAs (.branch line condition (some b) onFalse) node := by
  refine h.readsAs ?_ fun r place hr hline => ?_
  · simp only [NodeKind.keys, List.forall_mem_cons]
    exact ⟨⟨_, _, rfl, hcondition.gives⟩, ⟨_, _, rfl, htrue.gives⟩, ⟨_, _, rfl, hfalse.gives⟩,
      List.forall_mem_nil _⟩
  · obtain ⟨p, hp, hcondition⟩ := hr.of_gives rfl hcondition.gives
    obtain ⟨p', hp', htrue⟩ := hr.of_gives rfl htrue.gives
    -- without a second branch none is looked for
    rcases hr.of_gives rfl hfalse.gives with ⟨rfl, hnone⟩ | ⟨b', p'', rfl, hp'', hfalse⟩
    · simp only [buildKind, hline, child, hp, hcondition, childBlock, hp', htrue, hnone]
      rfl
    · simp only [buildKind, hline, child, hp, hcondition, childBlock, hp', htrue, hp'', hfalse]
      rfl

theorem IsNode.reads_object {fields : List Init} (h : IsNode .object line node)
    (hfields : IsList (ReadInits fields) (node.value? "fields")) :
    ReadsAs (.object line fields) node := by
  have hfields := hfields.gives fun _ => id
  refine h.readsAs ?_ fun r place hr hline => ?_
  · simp only [NodeKind.keys, List.forall_mem_cons]
    exact ⟨⟨_, _, rfl, hfields⟩, List.forall_mem_nil _⟩
  · have hfields := hr.of_gives rfl hfields place
    simp only [buildKind, hline, hfields]
    rfl

theorem IsNode.reads_field (h : IsNode .field line node)
    (hreceiver : Under (ReadsAs receiver) (node.value? "receiver"))
    (hname : IsText name (node.value? "name")) (hne : name ≠ []) :
    ReadsAs (.field line receiver name) node := by
  have hname := hname.gives .maybeText (Or.inr rfl)
  refine h.readsAs ?_ fun r place hr hline => ?_
  · simp only [NodeKind.keys, List.forall_mem_cons]
    exact ⟨⟨_, _, rfl, hreceiver.gives⟩, ⟨_, _, rfl, hname⟩, List.forall_mem_nil _⟩
  · obtain ⟨p, hp, hreceiver⟩ := hr.of_gives rfl hreceiver.gives
    have hname := nameOf_eq (hr.of_gives rfl hname) hne place
    simp only [buildKind, hline, child, hp, hreceiver, hname]
    rfl

theorem IsNode.reads_setField (h : IsNode .setField line node)
    (hreceiver : Under (ReadsAs receiver) (node.value? "receiver"))
    (hname : IsText name (node.value? "name")) (hne : name ≠ [])
    (hvalue : Under (ReadsAs value) (node.value? "expr")) :
    ReadsAs (.setField line receiver name value) node := by
  have hname := hname.gives .maybeText (Or.inr rfl)
  refine h.readsAs ?_ fun r place hr hline => ?_
  · simp only [NodeKind.keys, List.forall_mem_cons]
    exact ⟨⟨_, _, rfl, hreceiver.gives⟩, ⟨_, _, rfl, hname⟩, ⟨_, _, rfl, hvalue.gives⟩,
      List.forall_mem_nil _⟩
  · obtain ⟨p, hp, hreceiver⟩ := hr.of_gives rfl hreceiver.gives
    have hname := nameOf_eq (hr.of_gives rfl hname) hne place
    obtain ⟨p', hp', hvalue⟩ := hr.of_gives rfl hvalue.gives
    simp only [buildKind, hline, child, hp, hreceiver, hname, hp', hvalue]
    rfl

theorem IsNode.reads_send (h : IsNode .send line node)
    (hreceiver : Under (ReadsAs receiver) (node.value? "receiver"))
    (hname : IsText name (node.value? "name")) (hne : name ≠ [])
    (hargs : IsList (ReadAll args) (node.value? "args")) :
    ReadsAs (.send line receiver name args) node := by
  have hname := hname.gives .maybeText (Or.inr rfl)
  have hargs := hargs.gives fun _ => id
  refine h.readsAs ?_ fun r place hr hline => ?_
  · simp only [NodeKind.keys, List.forall_mem_cons]
    exact ⟨⟨_, _, rfl, hreceiver.gives⟩, ⟨_, _, rfl, hname⟩, ⟨_, _, rfl, hargs⟩,
      List.forall_mem_nil _⟩
  · obtain ⟨p, hp, hreceiver⟩ := hr.of_gives rfl hreceiver.gives
    have hname := nameOf_eq (hr.of_gives rfl hname) hne place
    have hargs := hr.of_gives rfl hargs
    simp only [buildKind, hline, child, hp, hreceiver, hname, hargs]
    rfl

end Types

/-- The mapping of an initialiser is read before those of the ones after it. -/
theorem readInits_cons {name : Text} {value : Expr} {fs : List Init} {node : Node}
    {nodes : List Node} (hnode : IsRecord ["name", "expr"] node)
    (hname : IsText name (node.value? "name")) (hne : name ≠ [])
    (hvalue : Under (ReadsAs value) (node.value? "expr")) (hrest : ReadInits fs nodes) :
    ReadInits (.mk name value :: fs) (node :: nodes) := by
  obtain ⟨ds, hds, hinits⟩ := hrest
  have hname := hname.gives .text (Or.inl rfl)
  have hgives : ∀ key ∈ ["name", "expr"], ∃ field P,
      RecordType.init.field? key = some field ∧ Gives field (node.value? key) P := by
    simp only [List.forall_mem_cons]
    exact ⟨⟨_, _, rfl, hname⟩, ⟨_, _, rfl, hvalue.gives⟩, List.forall_mem_nil _⟩
  obtain ⟨q, hq, hholds⟩ := exists_record .init (node.entries.map Entry.key) hnode hgives
  obtain ⟨place, tag, hmapping, -⟩ := hnode.mapping.exists_mapping
  have hinit : (readValue .init node).Yields (some (initData q.record)) := by
    rw [hmapping, readValue]
    exact Read.yields_visit.bind (yields_unlessRepeated
      (duplicateKeys_eq_nil hnode.text hnode.nodup) (hq.bind (Read.yields_pure _)))
  refine ⟨initData q.record :: ds, hinit.items hds, fun place type => ?_⟩
  obtain ⟨p, hp, hexpr⟩ := hholds.of_gives rfl hvalue.gives
  have hempty : name.isEmpty = false := List.isEmpty_eq_false_iff.mpr hne
  simp only [initData, Record.text, hholds.of_gives rfl hname, Option.getD_some, inits, hempty, hp,
    child, hexpr, hinits]
  rfl

end Form

/-! ### Reading a tree -/

mutual

/-- A node of a document that writes a whole expression is read as that expression. -/
theorem Expr.readsAs : (e : Expr) → {node : Node} → e.Whole → e.WrittenAs node → ReadsAs e node
  | .block b, _, hwhole, h => by
    rw [Expr.WrittenAs] at h
    exact b.readsAs (Expr.whole_block.mp hwhole) h
  | .literal line value, _, _, h => by
    rw [Expr.WrittenAs] at h
    exact h.1.reads_literal h.2
  | .call line callee args, _, hwhole, h => by
    rw [Expr.WrittenAs] at h
    obtain ⟨hnode, hcallee, hargs⟩ := h
    have hparts := (Expr.whole_iff _).mp hwhole |>.2
    rw [Expr.parts, List.forall_mem_cons] at hparts
    exact hnode.reads_call (hcallee.mono fun _ => callee.readsAs hparts.1)
      (hargs.mono fun _ => readAll_of_writtenAs args hparts.2)
  | .var line name, _, hwhole, h => by
    rw [Expr.WrittenAs] at h
    exact h.1.reads_var h.2 ((Expr.whole_iff _).mp hwhole).1
  | .assign line declares name value, _, hwhole, h => by
    rw [Expr.WrittenAs] at h
    obtain ⟨hnode, hname, hvalue, hdeclares⟩ := h
    obtain ⟨hne, hparts⟩ := (Expr.whole_iff _).mp hwhole
    rw [Expr.parts, List.forall_mem_singleton] at hparts
    exact hnode.reads_assign hname hne (hvalue.mono fun _ => value.readsAs hparts) hdeclares
  | .fn line name params (some b), _, hwhole, h => by
    rw [Expr.WrittenAs] at h
    obtain ⟨hnode, hname, hparams, hbody⟩ := h
    rw [OptionalWrittenAs] at hbody
    obtain ⟨hcomplete, hparts⟩ := (Expr.whole_iff _).mp hwhole
    rw [Expr.parts, Option.toList_some, List.map_singleton, List.forall_mem_singleton,
      Expr.whole_block] at hparts
    exact hnode.reads_fn hname hcomplete.1 hparams (hbody.mono fun _ => b.readsAs hparts)
  | .fn _ _ _ none, _, hwhole, _ => by
    -- a body that is not there could be written, but the function would not be whole
    have hcomplete := (Expr.whole_iff _).mp hwhole |>.1
    cases hcomplete.2
  | .ret line value, _, hwhole, h => by
    rw [Expr.WrittenAs] at h
    have hparts := (Expr.whole_iff _).mp hwhole |>.2
    rw [Expr.parts, List.forall_mem_singleton] at hparts
    exact h.1.reads_ret (h.2.mono fun _ => value.readsAs hparts)
  | .branch line condition (some b) onFalse, _, hwhole, h => by
    rw [Expr.WrittenAs] at h
    obtain ⟨hnode, hcondition, htrue, hfalse⟩ := h
    rw [OptionalWrittenAs] at htrue
    have hparts := (Expr.whole_iff _).mp hwhole |>.2
    rw [Expr.parts, List.forall_mem_cons, List.map_append, List.forall_mem_append,
      Option.toList_some, List.map_singleton, List.forall_mem_singleton,
      Expr.whole_block] at hparts
    exact hnode.reads_branch (hcondition.mono fun _ => condition.readsAs hparts.1)
      (htrue.mono fun _ => b.readsAs hparts.2.1)
      (readsOptional_of_writtenAs onFalse hparts.2.2 hfalse)
  | .branch _ _ none _, _, hwhole, _ => by
    have hcomplete := (Expr.whole_iff _).mp hwhole |>.1
    cases hcomplete
  | .object line fields, _, hwhole, h => by
    rw [Expr.WrittenAs] at h
    obtain ⟨hnames, hparts⟩ := (Expr.whole_iff _).mp hwhole
    rw [Expr.parts, List.forall_mem_map] at hparts
    exact h.1.reads_object (h.2.mono fun _ => readInits_of_writtenAs fields hnames hparts)
  | .field line receiver name, _, hwhole, h => by
    rw [Expr.WrittenAs] at h
    obtain ⟨hnode, hreceiver, hname⟩ := h
    obtain ⟨hne, hparts⟩ := (Expr.whole_iff _).mp hwhole
    rw [Expr.parts, List.forall_mem_singleton] at hparts
    exact hnode.reads_field (hreceiver.mono fun _ => receiver.readsAs hparts) hname hne
  | .setField line receiver name value, _, hwhole, h => by
    rw [Expr.WrittenAs] at h
    obtain ⟨hnode, hreceiver, hname, hvalue⟩ := h
    obtain ⟨hne, hparts⟩ := (Expr.whole_iff _).mp hwhole
    rw [Expr.parts, List.forall_mem_cons, List.forall_mem_singleton] at hparts
    exact hnode.reads_setField (hreceiver.mono fun _ => receiver.readsAs hparts.1) hname hne
      (hvalue.mono fun _ => value.readsAs hparts.2)
  | .send line receiver name args, _, hwhole, h => by
    rw [Expr.WrittenAs] at h
    obtain ⟨hnode, hreceiver, hname, hargs⟩ := h
    obtain ⟨hne, hparts⟩ := (Expr.whole_iff _).mp hwhole
    rw [Expr.parts, List.forall_mem_cons] at hparts
    exact hnode.reads_send (hreceiver.mono fun _ => receiver.readsAs hparts.1) hname hne
      (hargs.mono fun _ => readAll_of_writtenAs args hparts.2)
  | .missing, _, hwhole, _ => ((Expr.whole_iff _).mp hwhole).1.elim

/-- A node of a document that writes a whole block is read as that block. -/
theorem Block.readsAs : (b : Block) → {node : Node} → b.Whole → b.WrittenAs node →
    ReadsAs (.block b) node
  | .mk line instrs, _, hwhole, h => by
    rw [Block.WrittenAs] at h
    exact h.1.reads_block
      (h.2.mono fun _ => readAll_of_writtenAs instrs (Block.whole_iff.mp hwhole))

/-- A whole block that is written, or none that is not, is read. -/
theorem readsOptional_of_writtenAs : (b : Option Block) → {v : Option Node} →
    (∀ e ∈ b.toList.map Expr.block, e.Whole) → OptionalWrittenAs b v → ReadsOptional b v
  | none, _, _, h => by
    rw [OptionalWrittenAs] at h
    exact h
  | some b, _, hwhole, h => by
    rw [OptionalWrittenAs] at h
    rw [Option.toList_some, List.map_singleton, List.forall_mem_singleton,
      Expr.whole_block] at hwhole
    exact h.mono fun _ => b.readsAs hwhole

/-- Nodes that write whole expressions are read as those expressions. -/
theorem readAll_of_writtenAs : (es : List Expr) → {nodes : List Node} → (∀ e ∈ es, e.Whole) →
    AllWrittenAs es nodes → ReadAll es nodes
  | [], [], _, _ => ⟨[], yields_readItems_nil .part, rfl⟩
  | e :: rest, node :: nodes, hwhole, h => by
    rw [AllWrittenAs] at h
    rw [List.forall_mem_cons] at hwhole
    obtain ⟨p, hp, hnode⟩ := (e.readsAs hwhole.1 h.1).yields
    obtain ⟨ds, hds, hchildren⟩ := readAll_of_writtenAs rest hwhole.2 h.2
    refine ⟨.part p :: ds, hnode.items hds, ?_⟩
    simp only [children, hp, hchildren]
    rfl

/-- Nodes that write initialisers are read as those initialisers. -/
theorem readInits_of_writtenAs : (fs : List Init) → {nodes : List Node} →
    (∀ f ∈ fs, f.name ≠ []) → (∀ f ∈ fs, f.value.Whole) → InitsWrittenAs fs nodes →
    ReadInits fs nodes
  | [], [], _, _, _ => ⟨[], yields_readItems_nil .init, fun _ _ => rfl⟩
  | .mk name value :: rest, node :: nodes, hnames, hwhole, h => by
    rw [InitsWrittenAs] at h
    obtain ⟨⟨hnode, hname, hvalue⟩, hrest⟩ := h
    rw [List.forall_mem_cons] at hnames hwhole
    exact readInits_cons hnode hname hnames.1 (hvalue.mono fun _ => value.readsAs hwhole.1)
      (readInits_of_writtenAs rest hnames.2 hwhole.2 hrest)

end

/-- **Reading a document that writes a whole block gives the program of that block**, with every
node as it was written and on its line. -/
theorem Program.ofNode_writtenAs {b : Block} {node : Node} (hwhole : b.Whole)
    (h : b.WrittenAs node) : Program.ofNode node = .ok { body := some b } := by
  obtain ⟨p, hp, hread⟩ := b.readsAs hwhole h
  have hblock : (partData .program 0 p).Yields (some (.block b)) := by
    have hroot : rootBlock p = .ok b := by
      simp only [rootBlock, hp]
      rfl
    simp only [partData, hroot]
    exact .get fun r hr => by simpa [hr.problems] using Read.yields_pure _
  have hvalue := hread .program _ (Or.inr rfl) hblock
  obtain ⟨line, instrs⟩ := b
  rw [Block.WrittenAs] at h
  obtain ⟨place, tag, hnode, htag⟩ := h.1.mapping.exists_mapping
  have hroot : (readRoot node).Yields { body := some (.mk line instrs) } := by
    rw [readRoot_eq]
    · exact hvalue.bind (Read.yields_pure _)
    · intro line items heq
      rw [hnode] at heq
      cases heq
    · intro line entries heq
      rw [hnode] at heq
      cases heq
      exact htag rfl
  exact hroot.finish

/-- A block with a node of each type. -/
def sampler : Block :=
  .mk 1
    [.assign 0 true "o" (.object 2 [.mk "f" (.fn 2 none ["x", ""] (some (.mk 3
        [.ret (-4) (.var 4 "x")])))]),
      .branch 5 (.literal 5 (.int (-7))) (some (.mk 0 [])) none,
      .call 6 (.fn 6 (some "g") [] (some (.mk 6 []))) [],
      .branch 7 (.literal 7 .undefined) (some (.mk 7 [])) (some (.mk 8
        [.setField 8 (.var 8 "o") "y" (.field 8 (.var 8 "this") "z")])),
      .assign 9 false "o" (.send 9 (.var 9 "o") "f" [.literal 9 (.str "~"), .block (.mk 10 [])])]

/-- A document that writes `sampler`: the keys stand in no particular order, and of what may be left
out some is left out, some written as nothing and some as it is. -/
def samplerDocument : Node :=
  let node (type line : String) (fields : List (String × Node)) : Node :=
    .ofFields (fields ++ [("line", .ofNumeral line), ("type", .ofString type)])
  let access (line name : String) : Node := node "LocalVarAccess" line [("name", .ofString name)]
  node "Block" "1" [("instrs", .ofItems
    [.ofFields [("name", .ofString "o"), ("declaration", .scalar 1 "!!bool" "True"), ("line", .nothing),
        ("type", .ofString "LocalVarAssignment"), ("expr", node "New" "2" [("fields", .ofItems
          [.ofFields [("expr", node "Fun" "2" [("body", node "Block" "3" [("instrs", .ofItems
            [node "Return" "-0x4" [("expr", access "4" "x")]])]),
            ("params", .ofItems [.ofString "x", .ofString ""])]), ("name", .ofString "f")]])])],
      node "If" "5" [("else", .nothing), ("then", .ofFields [("type", .ofString "Block")]),
        ("condition", node "Literal" "5" [("value", .ofNumeral "-0b111")])],
      node "FunCall" "+6" [("args", .nothing), ("callee", node "Fun" "6" [("name", .ofString "g"),
        ("params", .nothing), ("body", node "Block" "6" [("instrs", .nothing)])])],
      node "If" "7" [("condition", node "Literal" "7" [("value", .nothing)]),
        ("then", node "Block" "7" [("instrs", .ofItems [])]),
        ("else", node "Block" "8" [("instrs", .ofItems
          [node "FieldAssignment" "8" [("expr", node "FieldAccess" "8" [("name", .ofString "z"),
            ("receiver", access "8" "this")]), ("receiver", access "8" "o"),
            ("name", .ofString "y")]])])],
      node "LocalVarAssignment" "9" [("expr", node "MethodCall" "9" [("name", .ofString "f"),
        ("args", .ofItems [node "Literal" "9" [("value", .ofString "~")], node "Block" "10" []]),
        ("receiver", access "9" "o")]), ("name", .ofString "o")]])]

/-- `sampler` is read from the document that writes it. -/
theorem ofNode_writtenAs_sampler :
    sampler.Whole ∧ sampler.WrittenAs samplerDocument ∧
      Program.ofNode samplerDocument = .ok { body := some sampler } := by
  have hwhole : sampler.Whole := by decide +kernel
  have hwritten : sampler.WrittenAs samplerDocument := by decide +kernel
  exact ⟨hwhole, hwritten, Program.ofNode_writtenAs hwhole hwritten⟩

end TreeScript
