import TreeScript.Proofs.Syntax.Complete
import TreeScript.Proofs.Syntax.Renaming
import TreeScript.Proofs.Text.Symbolic

/-!
# Reading trees back

A tree is written as a symbolic expression, and that can be read back.  What is lost are the lines,
and whether a constant is `undefined` or not there at all.  The names in the tree must be such that
they are not taken for a constant or for more than one word, and the tree must have the blocks that
its text needs; all other gaps have a text of their own.

The argument goes through symbolic expressions.  Those of legible trees are proper, so that they are
known from their texts, and reading them gives the tree.

## Main definitions

* `Text.IsName`, `Expr.Legible` — names, and trees, that can be read back.
* `Expr.unlined` — a tree without its lines.
* `Expr.sexp` — the symbolic expression that a tree is written as.
* `Sexp.expr?` — the tree that a symbolic expression shows.

## Main results

* `Expr.Legible.proper_sexp` — a legible tree gives a proper symbolic expression.
* `Expr.Legible.render?_eq` — **a legible tree is written as its symbolic expression.**
* `Expr.Legible.expr?_sexp` — **a legible tree is read back from its symbolic expression.**
* `Expr.render_faithful` — **legible trees have the same text exactly if they are the same without
  their lines.**
-/

namespace TreeScript

/-! ### Legible trees -/

/-- A text that is taken for a name wherever it stands: nothing in it ends it, and it is not how a
constant or a gap is written. -/
structure Text.IsName (t : Text) : Prop where
  /-- There is something in it. -/
  ne_nil : t ≠ []
  /-- It has no space, no parenthesis, no comma and no quote in it. -/
  not_mem : ∀ s ∈ .char ',' :: Text.breaks, s ∉ t
  /-- It is not the constant that means no value. -/
  ne_undefined : t ≠ "undefined"
  /-- It is not how a gap is written. -/
  ne_gap : t ≠ "<nil>"
  /-- It is not how a 64-bit integer is written. -/
  ne_decimal : ∀ n : Int64, t ≠ Text.decimal n

/-- The blocks that a node must have are there. -/
def Expr.HasBlocks : Expr → Prop
  | .fn _ _ _ body => body.isSome
  | .branch _ _ onTrue _ => onTrue.isSome
  | _ => True

instance instDecidablePredHasBlocks : DecidablePred Expr.HasBlocks
  | .fn _ _ _ body => inferInstanceAs (Decidable (body.isSome = true))
  | .branch _ _ onTrue _ => inferInstanceAs (Decidable (onTrue.isSome = true))
  | .block _ | .literal _ _ | .call _ _ _ | .var _ _ | .assign _ _ _ _ | .ret _ _ | .object _ _
  | .field _ _ _ | .setField _ _ _ _ | .send _ _ _ _ | .missing => inferInstanceAs (Decidable True)

/-- Every function has a body, every conditional a first branch, and all names can be told from what
stands around them. -/
def Expr.Legible (e : Expr) : Prop :=
  ∀ node ∈ e.nodes, node.HasBlocks ∧ ∀ name ∈ node.mentions, name.IsName

theorem Expr.legible_iff (e : Expr) :
    e.Legible ↔ (e.HasBlocks ∧ ∀ name ∈ e.mentions, name.IsName) ∧
      ∀ part ∈ e.parts, part.Legible :=
  e.forall_nodes_iff

/-! ### Trees without lines -/

/-- A constant, with `undefined` for one that is not there. -/
def Literal.settled : Literal → Literal
  | .absent => .undefined
  | value => value

mutual

/-- An expression with no line but zero, and with no absent constant. -/
def Expr.unlined : Expr → Expr
  | .block b => .block b.unlined
  | .literal _ value => .literal 0 value.settled
  | .call _ callee args => .call 0 callee.unlined (unlinedAll args)
  | .var _ name => .var 0 name
  | .assign _ declares name value => .assign 0 declares name value.unlined
  | .fn _ name params body => .fn 0 name params (unlinedOptional body)
  | .ret _ value => .ret 0 value.unlined
  | .branch _ condition onTrue onFalse =>
    .branch 0 condition.unlined (unlinedOptional onTrue) (unlinedOptional onFalse)
  | .object _ fields => .object 0 (unlinedInits fields)
  | .field _ receiver name => .field 0 receiver.unlined name
  | .setField _ receiver name value => .setField 0 receiver.unlined name value.unlined
  | .send _ receiver name args => .send 0 receiver.unlined name (unlinedAll args)
  | .missing => .missing

/-- A block without lines. -/
def Block.unlined : Block → Block
  | .mk _ instrs => .mk 0 (unlinedAll instrs)

/-- A block without lines, if there is one. -/
def unlinedOptional : Option Block → Option Block
  | none => none
  | some b => some b.unlined

/-- Expressions without lines. -/
def unlinedAll : List Expr → List Expr
  | [] => []
  | e :: rest => e.unlined :: unlinedAll rest

/-- Initialisers without lines. -/
def unlinedInits : List Init → List Init
  | [] => []
  | .mk name value :: rest => .mk name value.unlined :: unlinedInits rest

end

/-! ### Trees as symbolic expressions -/

/-- The words for the parameters of a function; all but the last end in a comma. -/
def paramWords : List Text → List Text
  | [] => []
  | [name] => [name]
  | name :: rest => (name ++ ",") :: paramWords rest

/-- The symbolic expression of a constant. -/
def Literal.sexp : Literal → Sexp
  | .undefined | .absent => .word "undefined"
  | .int n => .atom (.int n)
  | .str s => .atom (.str s)

mutual

/-- The symbolic expression that an expression is shown as. -/
def Expr.sexp : Expr → Sexp
  | .block b => b.sexp
  | .literal _ value => value.sexp
  | .call _ callee args => .list (.word "call" :: callee.sexp :: sexps args)
  | .var _ name => .word name
  | .assign _ declares name value =>
    .list [.word (if declares then "let" else "set"), .word name, value.sexp]
  | .fn _ name params body =>
    .list (.word "fn" :: (name.toList.map .word ++
      .list ((paramWords params).map .word) :: sexpsOptional body))
  | .ret _ value => .list [.word "return", value.sexp]
  | .branch _ condition onTrue onFalse =>
    .list (.word "if" :: condition.sexp :: (sexpsOptional onTrue ++ sexpsOptional onFalse))
  | .object _ fields => .list (.word "new" :: sexpsInits fields)
  | .field _ receiver name => .list [.word ".", receiver.sexp, .word name]
  | .setField _ receiver name value =>
    .list [.word ".=", receiver.sexp, .word name, value.sexp]
  | .send _ receiver name args =>
    .list (.word "send" :: receiver.sexp :: .word name :: sexps args)
  | .missing => .word "<nil>"

/-- The symbolic expression of a block. -/
def Block.sexp : Block → Sexp
  | .mk _ instrs => .list (.word "block" :: sexps instrs)

/-- The symbolic expression of a block, if there is one. -/
def sexpsOptional : Option Block → List Sexp
  | none => []
  | some b => [b.sexp]

/-- The symbolic expressions of expressions, in order. -/
def sexps : List Expr → List Sexp
  | [] => []
  | e :: rest => e.sexp :: sexps rest

/-- The symbolic expressions of initialisers, in order. -/
def sexpsInits : List Init → List Sexp
  | [] => []
  | .mk name value :: rest => .list [.word name, value.sexp] :: sexpsInits rest

end

/-! ### Reading symbolic expressions -/

/-- The parameters of a function, read from their words. -/
def readParams : List Sexp → List Text
  | [] => []
  | [.atom (.word name)] => [name]
  | .atom (.word name) :: rest => name.dropLast :: readParams rest
  | _ :: rest => readParams rest

/-- The expression that an atom stands for. -/
def Atom.expr : Atom → Expr
  | .word t =>
    if t = "undefined" then .literal 0 .undefined
    else if t = "<nil>" then .missing
    else .var 0 t
  | .int n => .literal 0 (.int n)
  | .str s => .literal 0 (.str s)

/-- The block that an expression is. -/
def Expr.block? : Expr → Option Block
  | .block b => some b
  | _ => none

/-- The expression with a given head and given parts, in which a name is a variable. -/
def Expr.ofParts? (head : String) (parts : List Expr) : Option Expr :=
  match head, parts with
  | "block", instrs => some (.block (.mk 0 instrs))
  | "call", callee :: args => some (.call 0 callee args)
  | "let", [.var _ name, value] => some (.assign 0 true name value)
  | "set", [.var _ name, value] => some (.assign 0 false name value)
  | "return", [value] => some (.ret 0 value)
  | "if", [condition, .block onTrue] => some (.branch 0 condition onTrue none)
  | "if", [condition, .block onTrue, .block onFalse] => some (.branch 0 condition onTrue onFalse)
  | ".", [receiver, .var _ name] => some (.field 0 receiver name)
  | ".=", [receiver, .var _ name, value] => some (.setField 0 receiver name value)
  | "send", receiver :: .var _ name :: args => some (.send 0 receiver name args)
  | _, _ => none

mutual

/-- The expression that a symbolic expression shows, if it shows one. -/
def Sexp.expr? : Sexp → Option Expr
  | .atom a => some a.expr
  | .list (.atom (.word head) :: items) =>
    match head.shown, items with
    | "fn", [.list params, body] => do
      let body ← body.expr?
      return .fn 0 none (readParams params) body.block?
    | "fn", [.atom (.word name), .list params, body] => do
      let body ← body.expr?
      return .fn 0 (some name) (readParams params) body.block?
    | "new", items => do
      let fields ← inits? items
      return .object 0 fields
    | head, items => do
      let parts ← exprs? items
      Expr.ofParts? head parts
  | .list _ => none

/-- The expressions that symbolic expressions show. -/
def exprs? : List Sexp → Option (List Expr)
  | [] => some []
  | x :: rest => do
    let e ← x.expr?
    let es ← exprs? rest
    return e :: es

/-- The initialisers that symbolic expressions show. -/
def inits? : List Sexp → Option (List Init)
  | [] => some []
  | .list [.atom (.word name), value] :: rest => do
    let e ← value.expr?
    let fields ← inits? rest
    return .mk name e :: fields
  | _ :: _ => none

end

/-! ### Lists of parts -/

theorem sexps_eq (es : List Expr) : sexps es = es.map Expr.sexp := by
  induction es with
  | nil => rfl
  | cons e rest ih => rw [sexps, ih, List.map_cons]

theorem sexpsInits_eq (fields : List Init) :
    sexpsInits fields = fields.map fun i => .list [.word i.name, i.value.sexp] := by
  induction fields with
  | nil => rfl
  | cons i rest ih =>
    obtain ⟨name, value⟩ := i
    rw [sexpsInits, ih, List.map_cons, Init.name, Init.value]

theorem sexpsOptional_eq (b : Option Block) :
    sexpsOptional b = (b.toList.map Expr.block).map Expr.sexp := by
  cases b with
  | none => rfl
  | some b => rw [sexpsOptional, Option.toList_some, List.map_singleton, List.map_singleton, Expr.sexp]

/-! ### Legible trees are proper -/

/-- What follows for a legible expression from its parts holds of all legible expressions. -/
theorem Expr.Legible.induction {P : Expr → Prop}
    (step : ∀ e : Expr, e.Legible → (∀ part ∈ e.parts, P part) → P e) {e : Expr}
    (h : e.Legible) : P e := by
  induction e using Expr.induction_on_parts with
  | step e ih =>
    refine step e h fun part hpart => ih part hpart ?_
    exact (e.legible_iff.mp h).2 part hpart

namespace Sexp

theorem proper_list_iff {items : List Sexp} : (list items).Proper ↔ ∀ x ∈ items, x.Proper :=
  ⟨fun | .list h => h, .list⟩

/-- A bare word with a symbol that no number has is proper. -/
theorem proper_word {t : Text} (hbare : t.Bare) (h : ∃ s ∈ t, Text.isNumeric s = false) :
    (word t).Proper := by
  exact .atom ⟨hbare, Text.ne_decimal_of_exists h⟩

/-- A list of proper items after such a word is proper. -/
theorem proper_form {head : Text} (hbare : head.Bare) (h : ∃ s ∈ head, Text.isNumeric s = false)
    {items : List Sexp} (hitems : ∀ x ∈ items, x.Proper) :
    (list (.word head :: items)).Proper :=
  proper_list_iff.mpr (List.forall_mem_cons.mpr ⟨proper_word hbare h, hitems⟩)

end Sexp

theorem Text.IsName.proper {t : Text} (h : t.IsName) : (Sexp.word t).Proper := by
  refine .atom ⟨⟨h.ne_nil, fun s hs => ?_⟩, h.ne_decimal⟩
  exact h.not_mem s (List.mem_cons_of_mem _ hs)

/-- A name before a comma is a proper word. -/
theorem Text.IsName.proper_comma {t : Text} (h : t.IsName) : (Sexp.word (t ++ ",")).Proper := by
  have hcomma : ∀ s ∈ Text.breaks, s ∉ Text.ofString "," := by decide
  refine Sexp.proper_word ⟨?_, fun s hs hmem => ?_⟩
    ⟨.char ',', List.mem_append_right _ (by decide), rfl⟩
  · exact List.append_ne_nil_of_left_ne_nil h.ne_nil _
  · rcases List.mem_append.mp hmem with hmem | hmem
    · exact h.not_mem s (List.mem_cons_of_mem _ hs) hmem
    · exact hcomma s hs hmem

theorem proper_paramWords {params : List Text} (h : ∀ name ∈ params, name.IsName) :
    ∀ t ∈ paramWords params, (Sexp.word t).Proper := by
  fun_induction paramWords params with
  | case1 => exact List.forall_mem_nil _
  | case2 name => exact List.forall_mem_singleton.mpr (h name (List.mem_singleton_self name)).proper
  | case3 name rest _ ih =>
    obtain ⟨hname, hrest⟩ := List.forall_mem_cons.mp h
    exact List.forall_mem_cons.mpr ⟨hname.proper_comma, ih hrest⟩

/-- A legible expression is shown as a proper symbolic expression. -/
theorem Expr.Legible.proper_sexp {e : Expr} (h : e.Legible) : e.sexp.Proper := by
  refine Expr.Legible.induction (P := fun e => e.sexp.Proper) (fun e he hparts => ?_) h
  have hnames := (e.legible_iff.mp he).1.2
  cases e with
  | missing => exact Sexp.proper_word (by decide) (by decide)
  | var _ name => exact (hnames name (List.mem_singleton_self name)).proper
  | literal _ value =>
    cases value with
    | undefined | absent => exact Sexp.proper_word (by decide) (by decide)
    | int n => exact .atom trivial
    | str s => exact .atom trivial
  | block b =>
    obtain ⟨line, instrs⟩ := b
    rw [sexp, Block.sexp, sexps_eq]
    exact Sexp.proper_form (by decide) (by decide) (List.forall_mem_map.mpr hparts)
  | call _ callee args =>
    rw [sexp, sexps_eq, ← List.map_cons]
    exact Sexp.proper_form (by decide) (by decide) (List.forall_mem_map.mpr hparts)
  | assign _ declares name value =>
    rw [mentions, List.forall_mem_singleton] at hnames
    rw [parts, List.forall_mem_singleton] at hparts
    have hitems : ∀ x ∈ [Sexp.word name, value.sexp], x.Proper :=
      List.forall_mem_cons.mpr ⟨hnames.proper, List.forall_mem_singleton.mpr hparts⟩
    rw [sexp]
    cases declares <;> exact Sexp.proper_form (by decide) (by decide) hitems
  | fn _ name params body =>
    rw [mentions, List.forall_mem_append] at hnames
    rw [sexp, sexpsOptional_eq]
    refine Sexp.proper_form (by decide) (by decide) ?_
    rw [List.forall_mem_append, List.forall_mem_map, List.forall_mem_cons, Sexp.proper_list_iff,
      List.forall_mem_map, List.forall_mem_map]
    exact ⟨fun n hn => (hnames.1 n hn).proper, proper_paramWords hnames.2, hparts⟩
  | ret _ value =>
    rw [sexp, ← List.map_singleton]
    exact Sexp.proper_form (by decide) (by decide) (List.forall_mem_map.mpr hparts)
  | branch _ condition onTrue onFalse =>
    rw [sexp, sexpsOptional_eq, sexpsOptional_eq, ← List.map_append, ← List.map_append,
      ← List.map_cons]
    exact Sexp.proper_form (by decide) (by decide) (List.forall_mem_map.mpr hparts)
  | object _ fields =>
    rw [mentions, List.forall_mem_map] at hnames
    rw [parts, List.forall_mem_map] at hparts
    rw [sexp, sexpsInits_eq]
    refine Sexp.proper_form (by decide) (by decide) (List.forall_mem_map.mpr fun i hi => ?_)
    rw [Sexp.proper_list_iff, List.forall_mem_cons, List.forall_mem_singleton]
    exact ⟨(hnames i hi).proper, hparts i hi⟩
  | field _ receiver name =>
    rw [mentions, List.forall_mem_singleton] at hnames
    rw [parts, List.forall_mem_singleton] at hparts
    rw [sexp]
    refine Sexp.proper_form (by decide) (by decide) ?_
    rw [List.forall_mem_cons, List.forall_mem_singleton]
    exact ⟨hparts, hnames.proper⟩
  | setField _ receiver name value =>
    rw [mentions, List.forall_mem_singleton] at hnames
    rw [parts, List.forall_mem_cons, List.forall_mem_singleton] at hparts
    rw [sexp]
    refine Sexp.proper_form (by decide) (by decide) ?_
    rw [List.forall_mem_cons, List.forall_mem_cons, List.forall_mem_singleton]
    exact ⟨hparts.1, hnames.proper, hparts.2⟩
  | send _ receiver name args =>
    rw [mentions, List.forall_mem_singleton] at hnames
    rw [parts, List.forall_mem_cons] at hparts
    rw [sexp, sexps_eq]
    refine Sexp.proper_form (by decide) (by decide) ?_
    rw [List.forall_mem_cons, List.forall_mem_cons, List.forall_mem_map]
    exact ⟨hparts.1, hnames.proper, hparts.2⟩

/-! ### The text of a legible tree -/

/-- A form whose last part is a row of items is the list of its head, its other parts and them. -/
theorem form_join (head : Text) (xs : List Sexp) {ys : List Sexp}
    (h : (Sexp.list (.word head :: (xs ++ ys))).Proper) :
    form head (xs.map Sexp.text ++ [Text.join " " (ys.map Sexp.text)]) =
      (Sexp.list (.word head :: (xs ++ ys))).text := by
  rw [Sexp.proper_list_iff, List.forall_mem_cons, List.forall_mem_append] at h
  obtain ⟨-, hxs, hys⟩ := h
  -- no item has an empty text, so only a row without items is left out
  have hkept : (xs.map Sexp.text).filter (· ≠ []) = xs.map Sexp.text := by
    rw [List.filter_eq_self, List.forall_mem_map]
    exact fun x hx => decide_eq_true (hxs x hx).text_ne_nil
  rw [form, List.filter_append, hkept, Sexp.text_list_eq_join, List.map_cons, List.map_append]
  cases ys with
  | nil => rfl
  | cons y ys =>
    have hrow : Text.join " " ((y :: ys).map Sexp.text) ≠ [] := by
      rw [List.map_cons, Text.join_cons]
      exact List.append_ne_nil_of_left_ne_nil (hys y List.mem_cons_self).text_ne_nil _
    have hlast : [Text.join " " ((y :: ys).map Sexp.text)].filter (· ≠ []) =
        [Text.join " " ((y :: ys).map Sexp.text)] :=
      List.filter_eq_self.mpr (List.forall_mem_singleton.mpr (decide_eq_true hrow))
    rw [hlast, Text.join_cons, Text.join_cons, List.flatMap_append, List.flatMap_append,
      List.map_cons, List.flatMap_singleton, Text.join_cons, List.flatMap_cons,
      List.append_assoc (Text.ofString " ")]
    rfl

theorem paramWords_ne_nil {params : List Text} (h : params ≠ []) : paramWords params ≠ [] := by
  fun_cases paramWords params with
  | case1 => exact absurd rfl h
  | case2 name => exact List.cons_ne_nil _ _
  | case3 name rest _ => exact List.cons_ne_nil _ _

theorem join_paramWords (params : List Text) :
    Text.join " " (paramWords params) = Text.join ", " params := by
  fun_induction paramWords params with
  | case1 => rfl
  | case2 name => rfl
  | case3 name rest hrest ih =>
    rw [Text.join_cons_of_ne_nil _ _ (paramWords_ne_nil hrest), ih,
      Text.join_cons_of_ne_nil _ _ hrest, List.append_assoc name]
    rfl

theorem renderAll?_of_forall {es : List Expr} (h : ∀ e ∈ es, e.render? = some e.sexp.text) :
    renderAll? es = some ((sexps es).map Sexp.text) := by
  induction es with
  | nil => rfl
  | cons e rest ih =>
    obtain ⟨he, hrest⟩ := List.forall_mem_cons.mp h
    rw [renderAll?, he, ih hrest]
    rfl

theorem renderInits?_of_forall {fields : List Init}
    (h : ∀ i ∈ fields, i.value.render? = some i.value.sexp.text) :
    renderInits? fields = some ((sexpsInits fields).map Sexp.text) := by
  induction fields with
  | nil => rfl
  | cons i rest ih =>
    obtain ⟨name, value⟩ := i
    obtain ⟨hvalue, hrest⟩ := List.forall_mem_cons.mp h
    rw [Init.value] at hvalue
    rw [renderInits?, hvalue, ih hrest, sexpsInits, List.map_cons, Sexp.text_list]
    simp only [Option.bind_eq_bind, Option.bind_some, List.append_assoc]
    rfl

/-- **A legible expression is written as its symbolic expression.** -/
theorem Expr.Legible.render?_eq {e : Expr} (h : e.Legible) : e.render? = some e.sexp.text := by
  refine Expr.Legible.induction (P := fun e => e.render? = some e.sexp.text)
    (fun e he hparts => ?_) h
  have hblocks := (e.legible_iff.mp he).1.1
  have hproper := he.proper_sexp
  -- once the parts are known, both sides are the same up to the order of joining texts
  cases e with
  | missing => rfl
  | var _ name => rfl
  | literal _ value => cases value <;> rfl
  | block b =>
    obtain ⟨line, instrs⟩ := b
    cases instrs with
    | nil => rfl
    | cons instr rest =>
      obtain ⟨hinstr, hrest⟩ := List.forall_mem_cons.mp hparts
      rw [render?, Block.render?, hinstr, renderAll?_of_forall hrest, sexp, Block.sexp, sexps,
        Sexp.text_list_eq_join, List.map_cons, List.map_cons,
        Text.join_cons_of_ne_nil _ _ (List.cons_ne_nil _ _)]
      rfl
  | call _ callee args =>
    rw [parts, List.forall_mem_cons] at hparts
    rw [sexp] at hproper ⊢
    rw [render?, hparts.1, renderAll?_of_forall hparts.2]
    exact congrArg some (form_join "call" [callee.sexp] hproper)
  | assign _ declares name value =>
    rw [parts, List.forall_mem_singleton] at hparts
    rw [render?, hparts, sexp, Sexp.text_list]
    simp only [Option.bind_eq_bind, Option.bind_some, List.append_assoc]
    cases declares <;> rfl
  | fn _ name params body =>
    obtain ⟨body, rfl⟩ := Option.isSome_iff_exists.mp hblocks
    rw [parts, Option.toList_some, List.map_singleton, List.forall_mem_singleton, render?, sexp]
      at hparts
    have hparams : (Sexp.list ((paramWords params).map .word)).text =
        "(" ++ Text.join ", " params ++ ")" := by
      rw [Sexp.text_list_eq_join, List.map_map, ← join_paramWords]
      exact congrArg (fun words => "(" ++ Text.join " " words ++ ")") (List.map_id _)
    rw [sexp, Sexp.text_list, sexpsOptional]
    cases name <;>
    · simp only [render?, hparts, Sexp.row, Sexp.tail, hparams, Option.toList_none,
        Option.toList_some, List.map_nil, List.map_cons, List.cons_append, List.nil_append,
        Option.bind_eq_bind, Option.bind_some, List.append_assoc]
      rfl
  | ret _ value =>
    rw [parts, List.forall_mem_singleton] at hparts
    rw [render?, hparts, sexp, Sexp.text_list]
    rfl
  | branch _ condition onTrue onFalse =>
    obtain ⟨onTrue, rfl⟩ := Option.isSome_iff_exists.mp hblocks
    rw [parts, Option.toList_some, List.singleton_append, List.map_cons, List.forall_mem_cons,
      List.forall_mem_cons] at hparts
    obtain ⟨hcondition, htrue, hfalse⟩ := hparts
    rw [render?, sexp] at htrue
    rw [render?, hcondition, htrue, sexp, Sexp.text_list]
    cases onFalse with
    | none =>
      simp only [renderElse?, Option.bind_eq_bind, Option.bind_some, List.append_assoc]
      rfl
    | some onFalse =>
      rw [Option.toList_some, List.map_singleton, List.forall_mem_singleton, render?, sexp] at hfalse
      simp only [renderElse?, hfalse, Option.bind_eq_bind, Option.bind_some, Option.pure_def,
        List.append_assoc]
      rfl
  | object _ fields =>
    rw [parts, List.forall_mem_map] at hparts
    rw [sexp] at hproper ⊢
    rw [render?, renderInits?_of_forall hparts]
    exact congrArg some (form_join "new" [] hproper)
  | field _ receiver name =>
    rw [parts, List.forall_mem_singleton] at hparts
    rw [render?, hparts, sexp, Sexp.text_list]
    simp only [Option.bind_eq_bind, Option.bind_some, List.append_assoc]
    rfl
  | setField _ receiver name value =>
    simp only [parts, List.forall_mem_cons] at hparts
    rw [render?, hparts.1, hparts.2.1, sexp, Sexp.text_list]
    simp only [Option.bind_eq_bind, Option.bind_some, List.append_assoc]
    rfl
  | send _ receiver name args =>
    rw [parts, List.forall_mem_cons] at hparts
    rw [sexp] at hproper ⊢
    rw [render?, hparts.1, renderAll?_of_forall hparts.2]
    exact congrArg some (form_join "send" [receiver.sexp, .word name] hproper)

/-! ### Reading a tree back -/

theorem readParams_paramWords (params : List Text) :
    readParams ((paramWords params).map .word) = params := by
  fun_induction paramWords params with
  | case1 => rfl
  | case2 name => rfl
  | case3 name rest hrest ih =>
    obtain ⟨word, words, hwords⟩ := List.exists_cons_of_ne_nil (paramWords_ne_nil hrest)
    rw [hwords] at ih ⊢
    rw [List.map_cons, List.map_cons, Sexp.word, readParams, ← List.map_cons, ih]
    · simp [Text.ofString]
    · exact List.cons_ne_nil _ _

/-- A name is read as a variable. -/
theorem Text.IsName.expr?_word {t : Text} (h : t.IsName) : (Sexp.word t).expr? = some (.var 0 t) := by
  rw [Sexp.word, Sexp.expr?, Atom.expr, if_neg h.ne_undefined, if_neg h.ne_gap]

theorem exprs?_of_forall {es : List Expr} (h : ∀ e ∈ es, e.sexp.expr? = some e.unlined) :
    exprs? (sexps es) = some (unlinedAll es) := by
  induction es with
  | nil => rfl
  | cons e rest ih =>
    obtain ⟨he, hrest⟩ := List.forall_mem_cons.mp h
    simp [sexps, exprs?, unlinedAll, he, ih hrest]

theorem inits?_of_forall {fields : List Init}
    (h : ∀ i ∈ fields, i.value.sexp.expr? = some i.value.unlined) :
    inits? (sexpsInits fields) = some (unlinedInits fields) := by
  induction fields with
  | nil => rfl
  | cons i rest ih =>
    obtain ⟨name, value⟩ := i
    obtain ⟨he, hrest⟩ := List.forall_mem_cons.mp h
    rw [Init.value] at he
    simp [sexpsInits, inits?, unlinedInits, he, ih hrest, Sexp.word]

/-- A list is read by reading its items, unless it is a function or an object. -/
theorem Sexp.expr?_list {head : String} (hfn : head ≠ "fn") (hnew : head ≠ "new")
    (items : List Sexp) :
    (Sexp.list (.word head :: items)).expr? = (exprs? items).bind (Expr.ofParts? head) := by
  unfold word expr?
  simp only [Text.shown_ofString]
  split
  · exact absurd rfl hfn
  · exact absurd rfl hfn
  · exact absurd rfl hnew
  · rfl

/-- **A legible expression is read back from its symbolic expression**, without its lines. -/
theorem Expr.Legible.expr?_sexp {e : Expr} (h : e.Legible) : e.sexp.expr? = some e.unlined := by
  refine Expr.Legible.induction (P := fun e => e.sexp.expr? = some e.unlined)
    (fun e he hparts => ?_) h
  obtain ⟨hblocks, hnames⟩ := (e.legible_iff.mp he).1
  -- a name among the items is read as a variable, from which its place in the node takes it
  cases e with
  | missing => rfl
  | var _ name => exact (hnames name (List.mem_singleton_self name)).expr?_word
  | literal _ value => cases value <;> rfl
  | block b =>
    obtain ⟨line, instrs⟩ := b
    have hinstrs := exprs?_of_forall hparts
    rw [parts, Block.instrs] at hinstrs
    rw [sexp, Block.sexp, Sexp.expr?_list (by decide) (by decide), hinstrs]
    rfl
  | call _ callee args =>
    rw [parts, List.forall_mem_cons] at hparts
    rw [sexp, Sexp.expr?_list (by decide) (by decide), exprs?, hparts.1,
      exprs?_of_forall hparts.2]
    rfl
  | assign _ declares name value =>
    rw [parts, List.forall_mem_singleton] at hparts
    have hname := (hnames name (List.mem_singleton_self name)).expr?_word
    cases declares <;>
    · rw [sexp]
      simp only [Bool.false_eq_true, if_false, if_true]
      rw [Sexp.expr?_list (by decide) (by decide), exprs?, exprs?, exprs?, hname, hparts]
      rfl
  | fn _ name params body =>
    obtain ⟨body, rfl⟩ := Option.isSome_iff_exists.mp hblocks
    have hbody : body.sexp.expr? = some (.block body.unlined) := by
      simpa [parts, sexp, unlined] using hparts
    cases name with
    | none | some name =>
      simp [sexp, sexpsOptional, Sexp.word, Sexp.expr?, hbody, readParams_paramWords, unlined,
        unlinedOptional, block?]
  | ret _ value =>
    rw [parts, List.forall_mem_singleton] at hparts
    rw [sexp, Sexp.expr?_list (by decide) (by decide), exprs?, exprs?, hparts]
    rfl
  | branch _ condition onTrue onFalse =>
    obtain ⟨onTrue, rfl⟩ := Option.isSome_iff_exists.mp hblocks
    rw [parts, Option.toList_some, List.singleton_append, List.map_cons, List.forall_mem_cons,
      List.forall_mem_cons, sexp] at hparts
    obtain ⟨hcondition, htrue, hfalse⟩ := hparts
    cases onFalse with
    | none =>
      rw [sexp, Sexp.expr?_list (by decide) (by decide), sexpsOptional, sexpsOptional,
        List.append_nil, exprs?, exprs?, exprs?, hcondition, htrue]
      rfl
    | some onFalse =>
      rw [Option.toList_some, List.map_singleton, List.forall_mem_singleton, sexp] at hfalse
      rw [sexp, Sexp.expr?_list (by decide) (by decide), sexpsOptional, sexpsOptional,
        List.singleton_append, exprs?, exprs?, exprs?, exprs?, hcondition, htrue, hfalse]
      rfl
  | object _ fields =>
    rw [parts, List.forall_mem_map] at hparts
    simp [sexp, Sexp.word, Sexp.expr?, inits?_of_forall hparts, unlined]
  | field _ receiver name =>
    rw [parts, List.forall_mem_singleton] at hparts
    have hname := (hnames name (List.mem_singleton_self name)).expr?_word
    rw [sexp, Sexp.expr?_list (by decide) (by decide), exprs?, exprs?, exprs?, hname, hparts]
    rfl
  | setField _ receiver name value =>
    simp only [parts, List.forall_mem_cons] at hparts
    have hname := (hnames name (List.mem_singleton_self name)).expr?_word
    rw [sexp, Sexp.expr?_list (by decide) (by decide), exprs?, exprs?, exprs?, exprs?, hname,
      hparts.1, hparts.2.1]
    rfl
  | send _ receiver name args =>
    rw [parts, List.forall_mem_cons] at hparts
    have hname := (hnames name (List.mem_singleton_self name)).expr?_word
    rw [sexp, Sexp.expr?_list (by decide) (by decide), exprs?, exprs?, hname, hparts.1,
      exprs?_of_forall hparts.2]
    rfl

/-! ### Faithful texts -/

mutual

/-- An expression is shown without its lines. -/
theorem Expr.sexp_unlined : ∀ e : Expr, e.unlined.sexp = e.sexp
  | .block b => by rw [Expr.unlined, Expr.sexp, b.sexp_unlined, Expr.sexp]
  | .literal _ value => by cases value <;> rfl
  | .call _ callee args => by
    rw [Expr.unlined, Expr.sexp, callee.sexp_unlined, sexps_unlinedAll args, Expr.sexp]
  | .var _ _ => rfl
  | .assign _ _ _ value => by rw [Expr.unlined, Expr.sexp, value.sexp_unlined, Expr.sexp]
  | .fn _ _ _ body => by
    rw [Expr.unlined, Expr.sexp, sexpsOptional_unlinedOptional body, Expr.sexp]
  | .ret _ value => by rw [Expr.unlined, Expr.sexp, value.sexp_unlined, Expr.sexp]
  | .branch _ condition onTrue onFalse => by
    rw [Expr.unlined, Expr.sexp, condition.sexp_unlined, sexpsOptional_unlinedOptional onTrue,
      sexpsOptional_unlinedOptional onFalse, Expr.sexp]
  | .object _ fields => by
    rw [Expr.unlined, Expr.sexp, sexpsInits_unlinedInits fields, Expr.sexp]
  | .field _ receiver _ => by rw [Expr.unlined, Expr.sexp, receiver.sexp_unlined, Expr.sexp]
  | .setField _ receiver _ value => by
    rw [Expr.unlined, Expr.sexp, receiver.sexp_unlined, value.sexp_unlined, Expr.sexp]
  | .send _ receiver _ args => by
    rw [Expr.unlined, Expr.sexp, receiver.sexp_unlined, sexps_unlinedAll args, Expr.sexp]
  | .missing => rfl

theorem Block.sexp_unlined : ∀ b : Block, b.unlined.sexp = b.sexp
  | .mk _ instrs => by rw [Block.unlined, Block.sexp, sexps_unlinedAll instrs, Block.sexp]

theorem sexpsOptional_unlinedOptional :
    ∀ b : Option Block, sexpsOptional (unlinedOptional b) = sexpsOptional b
  | none => rfl
  | some b => by rw [unlinedOptional, sexpsOptional, b.sexp_unlined, sexpsOptional]

theorem sexps_unlinedAll : ∀ es : List Expr, sexps (unlinedAll es) = sexps es
  | [] => rfl
  | e :: rest => by rw [unlinedAll, sexps, e.sexp_unlined, sexps_unlinedAll rest, sexps]

theorem sexpsInits_unlinedInits :
    ∀ fields : List Init, sexpsInits (unlinedInits fields) = sexpsInits fields
  | [] => rfl
  | .mk _ value :: rest => by
    rw [unlinedInits, sexpsInits, value.sexp_unlined, sexpsInits_unlinedInits rest, sexpsInits]

end

/-- **The texts of two legible expressions are the same exactly if the expressions are**, up to their
lines and to whether a constant is `undefined` or not there.  Both have a text. -/
theorem Expr.render_faithful {e e' : Expr} (h : e.Legible) (h' : e'.Legible) :
    (∃ text, e.render? = some text) ∧ (e.render? = e'.render? ↔ e.unlined = e'.unlined) := by
  refine ⟨⟨_, h.render?_eq⟩, fun htext => ?_, fun hunlined => ?_⟩
  · -- the text gives the symbolic expression, and that the tree
    rw [h.render?_eq, h'.render?_eq] at htext
    have hsexp : e.sexp = e'.sexp :=
      h.proper_sexp.eq_of_text h'.proper_sexp (Option.some.inj htext)
    have hread : some e.unlined = some e'.unlined := by
      rw [← h.expr?_sexp, hsexp, h'.expr?_sexp]
    exact Option.some.inj hread
  · rw [h.render?_eq, h'.render?_eq, ← e.sexp_unlined, hunlined, e'.sexp_unlined]

/-- A function with a constant in its body, all on one line. -/
def ledger (line : Int) (constant : Literal) : Expr :=
  .fn line (some "book") ["call", "1st"] (some (.mk line
    [.assign line true "sum" (.call line (.var line "add") [.literal line constant, .missing]),
      .branch line (.var line "sum")
        (some (.mk line [.ret line (.object line [.mk "new" (.literal line (.int (-7)))])]))
        (some (.mk line [])),
      .setField line (.var line "call") "sum" (.field line (.var line "1st") "block"),
      .send line (.fn line none [] (some (.mk line []))) "+" [.literal line constant]]))

/-- The names in a ledger. -/
def ledgerNames : List Text := ["book", "call", "1st", "sum", "add", "new", "block", "+"]

theorem isName_ledgerNames : ∀ name ∈ ledgerNames, name.IsName := by
  have hcheck : ∀ name ∈ ledgerNames, name ≠ [] ∧
      (∀ s ∈ .char ',' :: Text.breaks, s ∉ name) ∧ name ≠ "undefined" ∧
      name ≠ "<nil>" ∧ ∃ s ∈ name, Text.isNumeric s = false := by
    decide
  intro name hname
  obtain ⟨hnil, hmem, hundefined, hgap, hnumeric⟩ := hcheck name hname
  exact ⟨hnil, hmem, hundefined, hgap, Text.ne_decimal_of_exists hnumeric⟩

/-- A ledger is legible. -/
theorem legible_ledger (line : Int) (constant : Literal) : (ledger line constant).Legible := by
  have hcheck : ((ledger line constant).nodes.all fun node =>
      decide node.HasBlocks && node.mentions.all (· ∈ ledgerNames)) = true := rfl
  intro node hnode
  have hnode := List.all_eq_true.mp hcheck node hnode
  rw [Bool.and_eq_true, decide_eq_true_eq, List.all_eq_true] at hnode
  exact ⟨hnode.1, fun name hname =>
    isName_ledgerNames name (of_decide_eq_true (hnode.2 name hname))⟩

/-- Two ledgers are told apart by their constants, but not by their lines. -/
theorem render_faithful_ledger :
    (ledger 1 .absent).render? = (ledger 9 .undefined).render? ∧
      (ledger 1 .absent).render? ≠ (ledger 1 (.str "undefined")).render? := by
  constructor
  · exact (Expr.render_faithful (legible_ledger 1 .absent) (legible_ledger 9 .undefined)).2.mpr rfl
  · intro h
    have hunlined := (Expr.render_faithful (legible_ledger 1 .absent)
      (legible_ledger 1 (.str "undefined"))).2.mp h
    cases hunlined

end TreeScript
