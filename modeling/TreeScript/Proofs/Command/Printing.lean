import TreeScript.Proofs.Command.Testing
import TreeScript.Proofs.Form.Accepted

/-!
# Printing programs

A program that is loaded from a file can be printed if it has a body: its expressions have all the
blocks they must have, or are gaps, which are printed too.  A document that means nothing is loaded
as a program without a body.  Such a program runs, and does nothing, but printing it crashes.

## Main results

* `renderAll?_eq_some_iff` — the texts of expressions are those of each of them.
* `Program.exists_renderAll?` — **the instructions of an accepted program have texts.**
* `Program.isNull_of_bodiless` — a document without a body means nothing.
* `Command.tree_prints_iff` — **a program that is loaded can be printed exactly if it has a body.**
-/

namespace TreeScript

open Document (Node)

/-! ### Texts of instructions -/

/-- The texts of expressions are those of each of them, in order. -/
theorem renderAll?_eq_some_iff {es : List Expr} {texts : List Text} :
    renderAll? es = some texts ↔ es.map Expr.render? = texts.map some := by
  induction es generalizing texts with
  | nil => cases texts <;> simp [renderAll?]
  | cons e rest ih =>
    cases texts with
    | nil =>
      cases he : e.render? with
      | none => simp [renderAll?, he]
      | some text => cases hrest : renderAll? rest <;> simp [renderAll?, he, hrest]
    | cons text texts =>
      rw [List.map_cons, List.map_cons, List.cons.injEq, ← ih]
      cases he : e.render? with
      | none => simp [renderAll?, he]
      | some text' => cases hrest : renderAll? rest <;> simp [renderAll?, he, hrest]

/-- Gaps have texts. -/
theorem exists_renderAll?_of_gaps {es : List Expr} (h : ∀ e ∈ es, e = .missing) :
    ∃ texts, renderAll? es = some texts := by
  refine ⟨es.map fun _ => "<nil>", renderAll?_eq_some_iff.mpr ?_⟩
  rw [List.map_map]
  refine List.map_congr_left fun e he => ?_
  rw [h e he]
  rfl

namespace Program

/-! ### Accepted texts -/

/-- The program of an accepted text is that of its document. -/
theorem exists_node_of_ofText {text : String} {p : Program} (h : ofText text = .ok p) :
    ∃ node, Document.readDocument text = .ok (some node) ∧ ofNode node = .ok p := by
  unfold ofText at h
  split at h
  · cases h
  · cases h
  · next node hnode =>
    refine ⟨node, hnode, ?_⟩
    cases hp : ofNode node with
    | ok q =>
      rw [hp] at h
      exact congrArg _ (Except.ok.inj h)
    | error reason =>
      rw [hp] at h
      cases h

/-- What the root of an accepted document gives. -/
theorem rootGives_of_ofNode {node : Node} {p : Program} (h : ofNode node = .ok p) :
    Form.RootGives node p :=
  (Form.passes_readRoot node).finish h

/-- **The instructions of an accepted program have texts.** -/
theorem exists_renderAll? {node : Node} {p : Program} (h : ofNode node = .ok p) {b : Block}
    (hbody : p.body = some b) : ∃ texts, renderAll? b.instrs = some texts := by
  rcases rootGives_of_ofNode h with ⟨b', hb', hwhole⟩ | ⟨-, hnone⟩ | ⟨_, _, b', -, hb', hgaps⟩
  · rw [hbody] at hb'
    cases hb'
    exact TreeScript.exists_renderAll? b.instrs (Block.whole_iff.mp hwhole)
  · rw [hbody] at hnone
    cases hnone
  · rw [hbody] at hb'
    cases hb'
    exact exists_renderAll?_of_gaps hgaps

/-- A document whose program has no body means nothing. -/
theorem isNull_of_bodiless {node : Node} {p : Program} (h : ofNode node = .ok p)
    (hbody : p.body = none) : node.IsNull := by
  rcases rootGives_of_ofNode h with ⟨b, hb, -⟩ | ⟨hnull, -⟩ | ⟨_, _, b, -, hb, -⟩
  · rw [hbody] at hb
    cases hb
  · exact hnull
  · rw [hbody] at hb
    cases hb

/-- A program that is loaded is that of the text in the file, with the path of the file. -/
theorem exists_text_of_load {fs : FileSystem} {path : String} {p : Program}
    (h : load fs path = .ok p) :
    ∃ text q, fs.find (Path.absolute fs.workingDirectory path) = .ok (.file text) ∧
      ofText text = .ok q ∧ p.body = q.body := by
  unfold load at h
  simp only at h
  split at h
  · cases h
  · next item hitem =>
    cases item with
    | unreadable => cases h
    | directory _ => cases h
    | file text =>
      cases hq : ofText text with
      | error reason =>
        simp only [FileTree.text?, hq] at h
        cases h
      | ok q =>
        simp only [FileTree.text?, hq] at h
        cases h
        exact ⟨text, q, hitem, hq, rfl⟩

/-- A program without a body runs, and does nothing. -/
theorem run_of_bodiless {p : Program} (h : p.body = none) (limit : DepthLimit) (sink : Sink) :
    (p.run limit sink).ending = .finished ∧ (p.run limit sink).printed = #[] := by
  rw [run, runWith, h]
  exact ⟨rfl, rfl⟩

end Program

namespace Command

/-- **A program that is loaded can be printed exactly if it has a body.**  Then what is printed is the
text of each of its instructions, each ended by a line break.  Otherwise the command that prints it
crashes; the document means nothing, and the program runs without a failure. -/
theorem tree_prints_iff {fs : FileSystem} {path : String} {p : Program}
    (h : Program.load fs path = .ok p) :
    ((∃ texts : List Text, p.instrs.map Expr.render? = texts.map some ∧
        printFile fs path = .reported { output := texts.flatMap Text.line }) ↔ p.body ≠ none) ∧
    (printFile fs path = .crashed ↔ p.body = none) ∧
    (p.body = none →
      (∀ limit, runFile fs limit path = .reported { notice := .failure [] }) ∧
      ∃ text node, fs.find (Path.absolute fs.workingDirectory path) = .ok (.file text) ∧
        Document.readDocument text = .ok (some node) ∧ node.IsNull) := by
  obtain ⟨text, q, hfile, hq, hpq⟩ := Program.exists_text_of_load h
  obtain ⟨node, hnode, hp⟩ := Program.exists_node_of_ofText hq
  have hcrashed (hbody : p.body = none) : printFile fs path = .crashed := by
    simp only [printFile, h, Program.render?, hbody]
    rfl
  have hreported (hbody : p.body ≠ none) :
      ∃ texts : List Text, p.instrs.map Expr.render? = texts.map some ∧
        printFile fs path = .reported { output := texts.flatMap Text.line } := by
    obtain ⟨b, hb⟩ := Option.ne_none_iff_exists'.mp hbody
    obtain ⟨texts, htexts⟩ := Program.exists_renderAll? hp (hpq ▸ hb)
    refine ⟨texts, ?_, ?_⟩
    · rw [Program.instrs, hb]
      exact renderAll?_eq_some_iff.mp htexts
    · simp only [printFile, h, Program.render?, hb, Option.bind_eq_bind, Option.bind_some, htexts]
      rfl
  refine ⟨⟨?_, hreported⟩, ⟨?_, hcrashed⟩, fun hbody => ⟨fun limit => ?_, ?_⟩⟩
  · rintro ⟨texts, -, hreport⟩ hbody
    rw [hcrashed hbody] at hreport
    cases hreport
  · intro hcrash
    by_contra hbody
    obtain ⟨texts, -, hreport⟩ := hreported hbody
    rw [hcrash] at hreport
    cases hreport
  · obtain ⟨hending, hprinted⟩ := Program.run_of_bodiless hbody limit {}
    simp only [runFile, h, Run.ok, Run.output, Run.report, Run.fault?, hending, hprinted]
    rfl
  · exact ⟨text, node, hfile, hnode, Program.isNull_of_bodiless hp (hpq ▸ hbody)⟩

/-- A directory with a program of two instructions and a document that means nothing. -/
def drawer : FileSystem where
  workingDirectory := "/drawer"
  root := .directory [("drawer", .directory
    [("two.yaml", .file "type: Block\ninstrs:\n- &a {type: Literal, value: hi}\n- *a"),
      ("nothing.yaml", .file "~")])]

/-- The first file of `drawer` is loaded and printed, an instruction on a line. -/
theorem tree_prints_iff_drawer : ∃ (p : Program) (texts : List Text),
    Program.load drawer "two.yaml" = .ok p ∧ p.body ≠ none ∧
    p.instrs.map Expr.render? = texts.map some ∧
    printFile drawer "two.yaml" = .reported { output := texts.flatMap Text.line } := by
  have hload : (Program.load drawer "two.yaml").toOption.any (fun p => p.body.isSome) = true := by
    decide +kernel
  obtain ⟨p, hp, hbody⟩ := Form.exists_ok_of_any hload
  have hbody : p.body ≠ none := Option.isSome_iff_ne_none.mp hbody
  obtain ⟨texts, htexts, hprint⟩ := (tree_prints_iff hp).1.mpr hbody
  exact ⟨p, texts, hp, hbody, htexts, hprint⟩

/-- The second file of `drawer` is loaded and runs, but the command that prints it crashes. -/
theorem bodiless_not_printed : ∃ p : Program, Program.load drawer "nothing.yaml" = .ok p ∧
    printFile drawer "nothing.yaml" = .crashed ∧
    runFile drawer ⟨10000⟩ "nothing.yaml" = .reported { notice := .failure [] } := by
  have hload : (Program.load drawer "nothing.yaml").toOption.any
      (fun p => p.body.isNone && p.path = "/drawer/nothing.yaml") = true := by
    decide +kernel
  obtain ⟨⟨path, body⟩, hp, htest⟩ := Form.exists_ok_of_any hload
  rw [Bool.and_eq_true, Option.isNone_iff_eq_none] at htest
  obtain ⟨rfl, -⟩ := htest
  refine ⟨⟨path, none⟩, hp, ?_, ?_⟩
  · rw [printFile, hp]
    rfl
  · rw [runFile, hp]
    rfl

end Command

end TreeScript
