import TreeScript.Eval.Globals
import TreeScript.Proofs.Eval.Nodes

/-!
# Renaming a parameter

A parameter of a function is renamed by replacing its name in the list of parameters and, inside the
body, wherever a variable is read, written or bound as a parameter; the names of functions and of
fields stay.  The rest of the program is not touched.

Two programs that differ so are related by a relation with a flag, which says whether a tree stands
inside the function: outside it the trees are the same up to the function itself, and inside it they
are the same up to the name.

## Main definitions

* `Expr.mapVars` — an expression with the names of its variables mapped.
* `Expr.mentions` — the names that a node mentions.
* `Context`, `BlockContext` — a tree with a hole.
* `Renaming` — an old name and a new one; `replaceName` puts the one in the place of the other.
* `Expr.Renamed` — two expressions that differ by a renaming.

## Main results

* `Program.exists_fill` — **every function of a program stands in the hole of a context.**
* `Expr.renamed_mapVars` — mapping the names of an expression renames it.
* `BlockContext.renamed_fill` — **trees that are renamed are so in any context.**
-/

namespace TreeScript

/-! ### Mapping the names of variables -/

mutual

/-- An expression with the names of the variables that are read, written or bound as parameters
mapped by `f`; the names of functions and of fields stay. -/
def Expr.mapVars (f : Text → Text) : Expr → Expr
  | .block b => .block (b.mapVars f)
  | .literal line value => .literal line value
  | .call line callee args => .call line (callee.mapVars f) (mapVarsAll f args)
  | .var line name => .var line (f name)
  | .assign line declares name value => .assign line declares (f name) (value.mapVars f)
  | .fn line name params body => .fn line name (params.map f) (mapVarsOptional f body)
  | .ret line value => .ret line (value.mapVars f)
  | .branch line condition onTrue onFalse =>
    .branch line (condition.mapVars f) (mapVarsOptional f onTrue) (mapVarsOptional f onFalse)
  | .object line fields => .object line (mapVarsInits f fields)
  | .field line receiver name => .field line (receiver.mapVars f) name
  | .setField line receiver name value =>
    .setField line (receiver.mapVars f) name (value.mapVars f)
  | .send line receiver name args => .send line (receiver.mapVars f) name (mapVarsAll f args)
  | .missing => .missing

/-- A block with the names of its variables mapped. -/
def Block.mapVars (f : Text → Text) : Block → Block
  | .mk line instrs => .mk line (mapVarsAll f instrs)

/-- A block, if there is one, with the names of its variables mapped. -/
def mapVarsOptional (f : Text → Text) : Option Block → Option Block
  | none => none
  | some b => some (b.mapVars f)

/-- Expressions with the names of their variables mapped. -/
def mapVarsAll (f : Text → Text) : List Expr → List Expr
  | [] => []
  | e :: rest => e.mapVars f :: mapVarsAll f rest

/-- Initialisers with the names of the variables in their values mapped. -/
def mapVarsInits (f : Text → Text) : List Init → List Init
  | [] => []
  | .mk name value :: rest => .mk name (value.mapVars f) :: mapVarsInits f rest

end

mutual

/-- Names mapped to themselves change nothing. -/
theorem Expr.mapVars_id : ∀ e : Expr, e.mapVars id = e
  | .block b => by rw [Expr.mapVars, b.mapVars_id]
  | .literal _ _ | .missing => rfl
  | .call _ callee args => by rw [Expr.mapVars, callee.mapVars_id, mapVarsAll_id args]
  | .var _ _ => rfl
  | .assign _ _ _ value => by rw [Expr.mapVars, value.mapVars_id, id]
  | .fn _ _ params body => by rw [Expr.mapVars, mapVarsOptional_id body, List.map_id]
  | .ret _ value => by rw [Expr.mapVars, value.mapVars_id]
  | .branch _ condition onTrue onFalse => by
    rw [Expr.mapVars, condition.mapVars_id, mapVarsOptional_id onTrue, mapVarsOptional_id onFalse]
  | .object _ fields => by rw [Expr.mapVars, mapVarsInits_id fields]
  | .field _ receiver _ => by rw [Expr.mapVars, receiver.mapVars_id]
  | .setField _ receiver _ value => by
    rw [Expr.mapVars, receiver.mapVars_id, value.mapVars_id]
  | .send _ receiver _ args => by rw [Expr.mapVars, receiver.mapVars_id, mapVarsAll_id args]

theorem Block.mapVars_id : ∀ b : Block, b.mapVars id = b
  | .mk _ instrs => by rw [Block.mapVars, mapVarsAll_id instrs]

theorem mapVarsOptional_id : ∀ b : Option Block, mapVarsOptional id b = b
  | none => rfl
  | some b => by rw [mapVarsOptional, b.mapVars_id]

theorem mapVarsAll_id : ∀ es : List Expr, mapVarsAll id es = es
  | [] => rfl
  | e :: rest => by rw [mapVarsAll, e.mapVars_id, mapVarsAll_id rest]

theorem mapVarsInits_id : ∀ inits : List Init, mapVarsInits id inits = inits
  | [] => rfl
  | .mk _ value :: rest => by rw [mapVarsInits, value.mapVars_id, mapVarsInits_id rest]

end

/-! ### Names that occur -/

/-- The names that a node itself mentions: of a variable, of a function and its parameters, of a
field, or of the fields of a new object. -/
def Expr.mentions : Expr → List Text
  | .var _ name => [name]
  | .assign _ _ name _ => [name]
  | .fn _ name params _ => name.toList ++ params
  | .object _ fields => fields.map Init.name
  | .field _ _ name => [name]
  | .setField _ _ name _ => [name]
  | .send _ _ name _ => [name]
  | _ => []

/-- The name of a function, if it has one; other nodes have none. -/
def Expr.ownName? : Expr → Option Text
  | .fn _ name _ _ => name
  | _ => none

/-! ### Contexts -/

mutual

/-- An expression with a hole. -/
inductive Context where
  /-- The hole itself. -/
  | hole
  /-- In a block. -/
  | block (b : BlockContext)
  /-- In the function that is called. -/
  | callee (line : Int) (c : Context) (args : List Expr)
  /-- In an argument. -/
  | arg (line : Int) (callee : Expr) (before : List Expr) (c : Context) (after : List Expr)
  /-- In the value of an assignment. -/
  | assigned (line : Int) (declares : Bool) (name : Text) (c : Context)
  /-- In the body of a function. -/
  | body (line : Int) (name : Option Text) (params : List Text) (b : BlockContext)
  /-- In the value of a `return`. -/
  | returned (line : Int) (c : Context)
  /-- In a condition. -/
  | condition (line : Int) (c : Context) (onTrue onFalse : Option Block)
  /-- In the first branch of a conditional. -/
  | onTrue (line : Int) (condition : Expr) (b : BlockContext) (onFalse : Option Block)
  /-- In the second branch of a conditional. -/
  | onFalse (line : Int) (condition : Expr) (onTrue : Option Block) (b : BlockContext)
  /-- In the value of a field of a new object. -/
  | init (line : Int) (before : List Init) (name : Text) (c : Context) (after : List Init)
  /-- In the holder of a field that is read. -/
  | fieldReceiver (line : Int) (c : Context) (name : Text)
  /-- In the holder of a field that is written. -/
  | setFieldReceiver (line : Int) (c : Context) (name : Text) (value : Expr)
  /-- In the value of a field that is written. -/
  | setFieldValue (line : Int) (receiver : Expr) (name : Text) (c : Context)
  /-- In the receiver of a method call. -/
  | sendReceiver (line : Int) (c : Context) (name : Text) (args : List Expr)
  /-- In an argument of a method call. -/
  | sendArg (line : Int) (receiver : Expr) (name : Text) (before : List Expr) (c : Context)
      (after : List Expr)

/-- A block with a hole in one of its instructions. -/
inductive BlockContext where
  /-- The instructions before, the one with the hole, and those after. -/
  | mk (line : Int) (before : List Expr) (c : Context) (after : List Expr)

end

mutual

/-- The expression with `e` in the hole. -/
def Context.fill : Context → Expr → Expr
  | .hole, e => e
  | .block b, e => .block (b.fill e)
  | .callee line c args, e => .call line (c.fill e) args
  | .arg line callee before c after, e => .call line callee (before ++ c.fill e :: after)
  | .assigned line declares name c, e => .assign line declares name (c.fill e)
  | .body line name params b, e => .fn line name params (some (b.fill e))
  | .returned line c, e => .ret line (c.fill e)
  | .condition line c onTrue onFalse, e => .branch line (c.fill e) onTrue onFalse
  | .onTrue line condition b onFalse, e => .branch line condition (some (b.fill e)) onFalse
  | .onFalse line condition onTrue b, e => .branch line condition onTrue (some (b.fill e))
  | .init line before name c after, e => .object line (before ++ .mk name (c.fill e) :: after)
  | .fieldReceiver line c name, e => .field line (c.fill e) name
  | .setFieldReceiver line c name value, e => .setField line (c.fill e) name value
  | .setFieldValue line receiver name c, e => .setField line receiver name (c.fill e)
  | .sendReceiver line c name args, e => .send line (c.fill e) name args
  | .sendArg line receiver name before c after, e =>
    .send line receiver name (before ++ c.fill e :: after)

/-- The block with `e` in the hole. -/
def BlockContext.fill : BlockContext → Expr → Block
  | .mk line before c after, e => .mk line (before ++ c.fill e :: after)

end

mutual

/-- Every node of an expression, other than a block, stands in the hole of a context. -/
theorem Expr.exists_fill {node : Expr} (hnode : ∀ b, node ≠ .block b) :
    ∀ e : Expr, node ∈ e.collect true → ∃ c : Context, e = c.fill node
  | .block b, h => by
    rw [Expr.collect] at h
    obtain ⟨c, hc⟩ := Block.exists_fill hnode b h
    exact ⟨.block c, by rw [Context.fill, hc]⟩
  | .literal _ _, h | .var _ _, h | .missing, h => by
    rw [Expr.collect, List.mem_singleton] at h
    exact ⟨.hole, h.symm⟩
  | .call line callee args, h => by
    rw [Expr.collect, List.mem_cons, List.mem_append] at h
    rcases h with rfl | h | h
    · exact ⟨.hole, rfl⟩
    · obtain ⟨c, hc⟩ := Expr.exists_fill hnode callee h
      exact ⟨.callee line c args, by rw [Context.fill, ← hc]⟩
    · obtain ⟨before, c, after, hc⟩ := exists_fill_all hnode args h
      exact ⟨.arg line callee before c after, by rw [Context.fill, ← hc]⟩
  | .assign line declares name value, h => by
    rw [Expr.collect, List.mem_cons] at h
    rcases h with rfl | h
    · exact ⟨.hole, rfl⟩
    · obtain ⟨c, hc⟩ := Expr.exists_fill hnode value h
      exact ⟨.assigned line declares name c, by rw [Context.fill, ← hc]⟩
  | .fn line name params body, h => by
    rw [Expr.collect, if_pos rfl, List.mem_cons] at h
    rcases h with rfl | h
    · exact ⟨.hole, rfl⟩
    · obtain ⟨c, hc⟩ := exists_fill_optional hnode body h
      exact ⟨.body line name params c, by rw [Context.fill, ← hc]⟩
  | .ret line value, h => by
    rw [Expr.collect, List.mem_cons] at h
    rcases h with rfl | h
    · exact ⟨.hole, rfl⟩
    · obtain ⟨c, hc⟩ := Expr.exists_fill hnode value h
      exact ⟨.returned line c, by rw [Context.fill, ← hc]⟩
  | .branch line condition onTrue onFalse, h => by
    rw [Expr.collect, List.mem_cons, List.mem_append, List.mem_append] at h
    rcases h with rfl | (h | h) | h
    · exact ⟨.hole, rfl⟩
    · obtain ⟨c, hc⟩ := Expr.exists_fill hnode condition h
      exact ⟨.condition line c onTrue onFalse, by rw [Context.fill, ← hc]⟩
    · obtain ⟨c, hc⟩ := exists_fill_optional hnode onTrue h
      exact ⟨.onTrue line condition c onFalse, by rw [Context.fill, ← hc]⟩
    · obtain ⟨c, hc⟩ := exists_fill_optional hnode onFalse h
      exact ⟨.onFalse line condition onTrue c, by rw [Context.fill, ← hc]⟩
  | .object line fields, h => by
    rw [Expr.collect, List.mem_cons] at h
    rcases h with rfl | h
    · exact ⟨.hole, rfl⟩
    · obtain ⟨before, name, c, after, hc⟩ := exists_fill_inits hnode fields h
      exact ⟨.init line before name c after, by rw [Context.fill, ← hc]⟩
  | .field line receiver name, h => by
    rw [Expr.collect, List.mem_cons] at h
    rcases h with rfl | h
    · exact ⟨.hole, rfl⟩
    · obtain ⟨c, hc⟩ := Expr.exists_fill hnode receiver h
      exact ⟨.fieldReceiver line c name, by rw [Context.fill, ← hc]⟩
  | .setField line receiver name value, h => by
    rw [Expr.collect, List.mem_cons, List.mem_append] at h
    rcases h with rfl | h | h
    · exact ⟨.hole, rfl⟩
    · obtain ⟨c, hc⟩ := Expr.exists_fill hnode receiver h
      exact ⟨.setFieldReceiver line c name value, by rw [Context.fill, ← hc]⟩
    · obtain ⟨c, hc⟩ := Expr.exists_fill hnode value h
      exact ⟨.setFieldValue line receiver name c, by rw [Context.fill, ← hc]⟩
  | .send line receiver name args, h => by
    rw [Expr.collect, List.mem_cons, List.mem_append] at h
    rcases h with rfl | h | h
    · exact ⟨.hole, rfl⟩
    · obtain ⟨c, hc⟩ := Expr.exists_fill hnode receiver h
      exact ⟨.sendReceiver line c name args, by rw [Context.fill, ← hc]⟩
    · obtain ⟨before, c, after, hc⟩ := exists_fill_all hnode args h
      exact ⟨.sendArg line receiver name before c after, by rw [Context.fill, ← hc]⟩

/-- The same of a block. -/
theorem Block.exists_fill {node : Expr} (hnode : ∀ b, node ≠ .block b) :
    ∀ b : Block, node ∈ b.collect true → ∃ c : BlockContext, b = c.fill node
  | .mk line instrs, h => by
    rw [Block.collect, List.mem_cons] at h
    rcases h with h | h
    · exact absurd h (hnode _)
    · obtain ⟨before, c, after, hc⟩ := exists_fill_all hnode instrs h
      exact ⟨.mk line before c after, by rw [BlockContext.fill, ← hc]⟩

/-- The same of a block that may be absent. -/
theorem exists_fill_optional {node : Expr} (hnode : ∀ b, node ≠ .block b) :
    ∀ b : Option Block, node ∈ collectOptional true b →
      ∃ c : BlockContext, b = some (c.fill node)
  | none, h => by cases h
  | some b, h => by
    obtain ⟨c, hc⟩ := Block.exists_fill hnode b h
    exact ⟨c, by rw [← hc]⟩

/-- The same of one of several expressions. -/
theorem exists_fill_all {node : Expr} (hnode : ∀ b, node ≠ .block b) :
    ∀ es : List Expr, node ∈ collectAll true es →
      ∃ (before : List Expr) (c : Context) (after : List Expr),
        es = before ++ c.fill node :: after
  | [], h => by cases h
  | e :: rest, h => by
    rw [collectAll, List.mem_append] at h
    rcases h with h | h
    · obtain ⟨c, hc⟩ := Expr.exists_fill hnode e h
      exact ⟨[], c, rest, by rw [← hc, List.nil_append]⟩
    · obtain ⟨before, c, after, hc⟩ := exists_fill_all hnode rest h
      exact ⟨e :: before, c, after, by rw [hc, List.cons_append]⟩

/-- The same of one of several initialisers. -/
theorem exists_fill_inits {node : Expr} (hnode : ∀ b, node ≠ .block b) :
    ∀ inits : List Init, node ∈ collectInits true inits →
      ∃ (before : List Init) (name : Text) (c : Context) (after : List Init),
        inits = before ++ .mk name (c.fill node) :: after
  | [], h => by cases h
  | .mk name value :: rest, h => by
    rw [collectInits, List.mem_append] at h
    rcases h with h | h
    · obtain ⟨c, hc⟩ := Expr.exists_fill hnode value h
      exact ⟨[], name, c, rest, by rw [← hc, List.nil_append]⟩
    · obtain ⟨before, name', c, after, hc⟩ := exists_fill_inits hnode rest h
      exact ⟨.mk name value :: before, name', c, after, by rw [hc, List.cons_append]⟩

end

/-- **Every function of a program stands in the hole of a context.** -/
theorem Program.exists_fill (p : Program) {line : Int} {name : Option Text} {params : List Text}
    {body : Option Block} (h : .fn line name params body ∈ p.nodes) :
    ∃ c : BlockContext, p.body = some (c.fill (.fn line name params body)) := by
  refine exists_fill_optional ?_ p.body h
  intro b hb
  cases hb

/-! ### Renamings -/

/-- The names that the language itself binds. -/
def reservedNames : List Text :=
  "this" :: "global" :: builtins.map fun b => Text.ofString b.1

/-- An old name that a program may bind, and a new one that the language does not bind. -/
structure Renaming where
  /-- The name that is replaced. -/
  old : Text
  /-- The name that replaces it. -/
  new : Text
  /-- A receiver is bound by no parameter. -/
  old_ne_this : old ≠ "this"
  /-- The language does not bind the new name. -/
  new_unreserved : new ∉ reservedNames

/-- The name with `x` replaced by `y`. -/
def replaceName (x y : Text) (name : Text) : Text := if name = x then y else name

namespace Renaming

variable (g : Renaming)

/-- What a name becomes inside the function, and outside. -/
def name : (inside : Bool) → Text → Text
  | true => replaceName g.old g.new
  | false => id

theorem name_false : g.name false = id := rfl

theorem name_of_ne (inside : Bool) {n : Text} (h : n ≠ g.old) : g.name inside n = n := by
  cases inside with
  | true => exact if_neg h
  | false => rfl

@[simp] theorem name_this (inside : Bool) : g.name inside "this" = "this" :=
  g.name_of_ne inside g.old_ne_this.symm

theorem new_ne_this : g.new ≠ "this" := by
  intro h
  exact g.new_unreserved (h ▸ List.mem_cons_self)

theorem new_ne_global : g.new ≠ "global" := by
  intro h
  exact g.new_unreserved (h ▸ List.mem_cons_of_mem _ List.mem_cons_self)

theorem new_ne_of_mem_builtins {b : String × Arity × Primitive} (hb : b ∈ builtins) :
    g.new ≠ Text.ofString b.1 := by
  intro h
  refine g.new_unreserved (List.mem_cons_of_mem _ (List.mem_cons_of_mem _ ?_))
  exact List.mem_map.mpr ⟨b, hb, h.symm⟩

/-- Names other than the new one stay apart. -/
theorem eq_of_name_eq {inside : Bool} {n m : Text} (hn : n ≠ g.new) (hm : m ≠ g.new)
    (h : g.name inside n = g.name inside m) : n = m := by
  cases inside with
  | false => exact h
  | true =>
    simp only [name, replaceName] at h
    split at h
    · next hold =>
      split at h
      · next hold' => rw [hold, hold']
      · exact absurd h.symm hm
    · split at h
      · exact absurd h hn
      · exact h

/-- How the flag of the body of a function with these parameters can differ from the flag around it:
inside the renamed function it stays, and outside it changes only for a function that binds the old
name. -/
def Enters (outer inner : Bool) (params : List Text) : Prop :=
  (outer = true → inner = true) ∧ (inner = true → outer = true ∨ g.old ∈ params)

theorem enters_self (inside : Bool) (params : List Text) : g.Enters inside inside params :=
  ⟨id, Or.inl⟩

/-- A node that does not mention the new name and, inside the renamed function, is no function of the
old one. -/
def Suits (inside : Bool) (node : Expr) : Prop :=
  g.new ∉ node.mentions ∧ (inside = true → node.ownName? ≠ some g.old)

end Renaming

/-! ### Renamed trees -/

mutual

/-- `e.Renamed g inside e'`: the expression `e'` is `e` with the old name replaced by the new one,
everywhere if it stands inside the renamed function, and inside functions that bind the old name
otherwise.  The new name does not occur in `e`, and inside the function no function has the old
one. -/
inductive Expr.Renamed (g : Renaming) : Bool → Expr → Expr → Prop
  | block {inside line es es'} (h : AllRenamed g inside es es') :
      Expr.Renamed g inside (.block (.mk line es)) (.block (.mk line es'))
  | literal {inside line value} :
      Expr.Renamed g inside (.literal line value) (.literal line value)
  | call {inside line callee callee' args args'} (hcallee : Expr.Renamed g inside callee callee')
      (hargs : AllRenamed g inside args args') :
      Expr.Renamed g inside (.call line callee args) (.call line callee' args')
  | var {inside line name} (hname : name ≠ g.new) :
      Expr.Renamed g inside (.var line name) (.var line (g.name inside name))
  | assign {inside line declares name value value'} (hname : name ≠ g.new)
      (hvalue : Expr.Renamed g inside value value') :
      Expr.Renamed g inside (.assign line declares name value)
        (.assign line declares (g.name inside name) value')
  | fn {inside inner line name params body body'}
      (hname : ∀ n, name = some n → n ≠ g.new ∧ (inside = true → n ≠ g.old))
      (hparams : g.new ∉ params) (henters : g.Enters inside inner params)
      (hbody : OptionalRenamed g inner body body') :
      Expr.Renamed g inside (.fn line name params body)
        (.fn line name (params.map (g.name inner)) body')
  | ret {inside line value value'} (hvalue : Expr.Renamed g inside value value') :
      Expr.Renamed g inside (.ret line value) (.ret line value')
  | branch {inside line condition condition' onTrue onTrue' onFalse onFalse'}
      (hcondition : Expr.Renamed g inside condition condition')
      (honTrue : OptionalRenamed g inside onTrue onTrue')
      (honFalse : OptionalRenamed g inside onFalse onFalse') :
      Expr.Renamed g inside (.branch line condition onTrue onFalse)
        (.branch line condition' onTrue' onFalse')
  | object {inside line fields fields'} (hfields : InitsRenamed g inside fields fields') :
      Expr.Renamed g inside (.object line fields) (.object line fields')
  | field {inside line receiver receiver' name} (hname : name ≠ g.new)
      (hreceiver : Expr.Renamed g inside receiver receiver') :
      Expr.Renamed g inside (.field line receiver name) (.field line receiver' name)
  | setField {inside line receiver receiver' name value value'} (hname : name ≠ g.new)
      (hreceiver : Expr.Renamed g inside receiver receiver')
      (hvalue : Expr.Renamed g inside value value') :
      Expr.Renamed g inside (.setField line receiver name value)
        (.setField line receiver' name value')
  | send {inside line receiver receiver' name args args'} (hname : name ≠ g.new)
      (hreceiver : Expr.Renamed g inside receiver receiver')
      (hargs : AllRenamed g inside args args') :
      Expr.Renamed g inside (.send line receiver name args) (.send line receiver' name args')
  | missing {inside} : Expr.Renamed g inside .missing .missing

/-- The same of blocks that may be absent. -/
inductive OptionalRenamed (g : Renaming) : Bool → Option Block → Option Block → Prop
  | none {inside} : OptionalRenamed g inside none none
  | some {inside line es es'} (h : AllRenamed g inside es es') :
      OptionalRenamed g inside (some (.mk line es)) (some (.mk line es'))

/-- The same of expressions, one by one. -/
inductive AllRenamed (g : Renaming) : Bool → List Expr → List Expr → Prop
  | nil {inside} : AllRenamed g inside [] []
  | cons {inside e e' rest rest'} (he : Expr.Renamed g inside e e')
      (hrest : AllRenamed g inside rest rest') :
      AllRenamed g inside (e :: rest) (e' :: rest')

/-- The same of the values of initialisers. -/
inductive InitsRenamed (g : Renaming) : Bool → List Init → List Init → Prop
  | nil {inside} : InitsRenamed g inside [] []
  | cons {inside name value value' rest rest'} (hvalue : Expr.Renamed g inside value value')
      (hrest : InitsRenamed g inside rest rest') :
      InitsRenamed g inside (.mk name value :: rest) (.mk name value' :: rest')

end

/-- A function is renamed if its body is, with the flag that its parameters give. -/
theorem Expr.Renamed.function {g : Renaming} {inside inner : Bool} {line : Int}
    {name : Option Text} {params : List Text} {body body' : Option Block}
    (h : g.Suits inside (.fn line name params body)) (henters : g.Enters inside inner params)
    (hbody : OptionalRenamed g inner body body') :
    (Expr.fn line name params body).Renamed g inside
      (.fn line name (params.map (g.name inner)) body') := by
  have hnew : g.new ∉ name.toList ++ params := h.1
  refine .fn ?_ (fun hmem => hnew (List.mem_append_right _ hmem)) henters hbody
  rintro n rfl
  constructor
  · rintro rfl
    exact hnew (List.mem_append_left _ (List.mem_singleton_self _))
  · rintro hinside rfl
    exact h.2 hinside rfl

mutual

/-- Mapping the names of an expression renames it. -/
theorem Expr.renamed_mapVars (g : Renaming) (inside : Bool) : ∀ e : Expr,
    (∀ node ∈ e.collect true, g.Suits inside node) →
      e.Renamed g inside (e.mapVars (g.name inside))
  | .block (.mk _ instrs), h => by
    rw [Expr.collect, Block.collect, List.forall_mem_cons] at h
    rw [Expr.mapVars, Block.mapVars]
    exact .block (renamed_mapVarsAll g inside instrs h.2)
  | .literal _ _, _ => .literal
  | .call _ callee args, h => by
    rw [Expr.collect, List.forall_mem_cons, List.forall_mem_append] at h
    rw [Expr.mapVars]
    exact .call (callee.renamed_mapVars g inside h.2.1) (renamed_mapVarsAll g inside args h.2.2)
  | .var _ name, h => by
    rw [Expr.collect, List.forall_mem_singleton] at h
    exact .var (List.ne_of_not_mem_cons h.1).symm
  | .assign _ _ _ value, h => by
    rw [Expr.collect, List.forall_mem_cons] at h
    rw [Expr.mapVars]
    exact .assign (List.ne_of_not_mem_cons h.1.1).symm (value.renamed_mapVars g inside h.2)
  | .fn _ _ params body, h => by
    rw [Expr.collect, if_pos rfl, List.forall_mem_cons] at h
    rw [Expr.mapVars]
    exact .function h.1 (g.enters_self inside params) (renamed_mapVarsOptional g inside body h.2)
  | .ret _ value, h => by
    rw [Expr.collect, List.forall_mem_cons] at h
    rw [Expr.mapVars]
    exact .ret (value.renamed_mapVars g inside h.2)
  | .branch _ condition onTrue onFalse, h => by
    rw [Expr.collect, List.forall_mem_cons, List.forall_mem_append, List.forall_mem_append] at h
    rw [Expr.mapVars]
    exact .branch (condition.renamed_mapVars g inside h.2.1.1)
      (renamed_mapVarsOptional g inside onTrue h.2.1.2)
      (renamed_mapVarsOptional g inside onFalse h.2.2)
  | .object _ fields, h => by
    rw [Expr.collect, List.forall_mem_cons] at h
    rw [Expr.mapVars]
    exact .object (renamed_mapVarsInits g inside fields h.2)
  | .field _ receiver _, h => by
    rw [Expr.collect, List.forall_mem_cons] at h
    rw [Expr.mapVars]
    exact .field (List.ne_of_not_mem_cons h.1.1).symm
      (receiver.renamed_mapVars g inside h.2)
  | .setField _ receiver _ value, h => by
    rw [Expr.collect, List.forall_mem_cons, List.forall_mem_append] at h
    rw [Expr.mapVars]
    exact .setField (List.ne_of_not_mem_cons h.1.1).symm
      (receiver.renamed_mapVars g inside h.2.1) (value.renamed_mapVars g inside h.2.2)
  | .send _ receiver _ args, h => by
    rw [Expr.collect, List.forall_mem_cons, List.forall_mem_append] at h
    rw [Expr.mapVars]
    exact .send (List.ne_of_not_mem_cons h.1.1).symm
      (receiver.renamed_mapVars g inside h.2.1) (renamed_mapVarsAll g inside args h.2.2)
  | .missing, _ => .missing

/-- Mapping the names of a block, if there is one, renames it. -/
theorem renamed_mapVarsOptional (g : Renaming) (inside : Bool) : ∀ b : Option Block,
    (∀ node ∈ collectOptional true b, g.Suits inside node) →
      OptionalRenamed g inside b (mapVarsOptional (g.name inside) b)
  | none, _ => .none
  | some (.mk _ instrs), h => by
    rw [collectOptional, Block.collect, List.forall_mem_cons] at h
    rw [mapVarsOptional, Block.mapVars]
    exact .some (renamed_mapVarsAll g inside instrs h.2)

/-- Mapping the names of expressions renames them. -/
theorem renamed_mapVarsAll (g : Renaming) (inside : Bool) : ∀ es : List Expr,
    (∀ node ∈ collectAll true es, g.Suits inside node) →
      AllRenamed g inside es (mapVarsAll (g.name inside) es)
  | [], _ => .nil
  | e :: rest, h => by
    rw [collectAll, List.forall_mem_append] at h
    rw [mapVarsAll]
    exact .cons (e.renamed_mapVars g inside h.1) (renamed_mapVarsAll g inside rest h.2)

/-- Mapping the names of initialisers renames them. -/
theorem renamed_mapVarsInits (g : Renaming) (inside : Bool) : ∀ inits : List Init,
    (∀ node ∈ collectInits true inits, g.Suits inside node) →
      InitsRenamed g inside inits (mapVarsInits (g.name inside) inits)
  | [], _ => .nil
  | .mk _ value :: rest, h => by
    rw [collectInits, List.forall_mem_append] at h
    rw [mapVarsInits]
    exact .cons (value.renamed_mapVars g inside h.1) (renamed_mapVarsInits g inside rest h.2)

end

section Outside

variable {g : Renaming} {e e' : Expr}

/-! #### Outside the renamed function nothing changes -/

theorem Expr.renamed_self (h : ∀ node ∈ e.collect true, g.Suits false node) :
    e.Renamed g false e := by
  have hmap := e.renamed_mapVars g false h
  rwa [g.name_false, e.mapVars_id] at hmap

theorem OptionalRenamed.self {b : Option Block}
    (h : ∀ node ∈ collectOptional true b, g.Suits false node) : OptionalRenamed g false b b := by
  have hmap := renamed_mapVarsOptional g false b h
  rwa [g.name_false, mapVarsOptional_id] at hmap

theorem AllRenamed.self {es : List Expr} (h : ∀ node ∈ collectAll true es, g.Suits false node) :
    AllRenamed g false es es := by
  have hmap := renamed_mapVarsAll g false es h
  rwa [g.name_false, mapVarsAll_id] at hmap

theorem InitsRenamed.self {inits : List Init}
    (h : ∀ node ∈ collectInits true inits, g.Suits false node) :
    InitsRenamed g false inits inits := by
  have hmap := renamed_mapVarsInits g false inits h
  rwa [g.name_false, mapVarsInits_id] at hmap

/-- One of several expressions is renamed. -/
theorem AllRenamed.middle (he : e.Renamed g false e') {after : List Expr} : ∀ {before : List Expr},
    (∀ node ∈ collectAll true (before ++ e :: after), g.Suits false node) →
      AllRenamed g false (before ++ e :: after) (before ++ e' :: after)
  | [], h => by
    rw [List.nil_append, collectAll, List.forall_mem_append] at h
    exact .cons he (.self h.2)
  | first :: before, h => by
    rw [List.cons_append, collectAll, List.forall_mem_append] at h
    exact .cons (Expr.renamed_self h.1) (middle he h.2)

/-- The value of one of several initialisers is renamed. -/
theorem InitsRenamed.middle (he : e.Renamed g false e') {name : Text} {after : List Init} :
    ∀ {before : List Init},
      (∀ node ∈ collectInits true (before ++ .mk name e :: after), g.Suits false node) →
        InitsRenamed g false (before ++ .mk name e :: after) (before ++ .mk name e' :: after)
  | [], h => by
    rw [List.nil_append, collectInits, List.forall_mem_append] at h
    exact .cons he (.self h.2)
  | .mk _ value :: before, h => by
    rw [List.cons_append, collectInits, List.forall_mem_append] at h
    exact .cons (Expr.renamed_self h.1) (middle he h.2)

/-- The expression in the hole of a context consists of nodes of the whole. -/
theorem collect_subset_collectAll {before after : List Expr} :
    e.collect true ⊆ collectAll true (before ++ e :: after) := by
  intro node hnode
  induction before with
  | nil => exact List.mem_append_left _ hnode
  | cons first before ih => exact List.mem_append_right _ ih

/-- The same of the value of an initialiser. -/
theorem collect_subset_collectInits {name : Text} {before after : List Init} :
    e.collect true ⊆ collectInits true (before ++ .mk name e :: after) := by
  intro node hnode
  induction before with
  | nil => exact List.mem_append_left _ hnode
  | cons first before ih =>
    obtain ⟨name', value⟩ := first
    exact List.mem_append_right _ ih

mutual

/-- **Expressions that are renamed outside the renamed function are so in any context.**  That the
expression itself consists of suitable nodes follows from the same of the whole. -/
theorem Context.renamed_fill
    (he : (∀ node ∈ e.collect true, g.Suits false node) → e.Renamed g false e') : ∀ c : Context,
    (∀ node ∈ (c.fill e).collect true, g.Suits false node) →
      (c.fill e).Renamed g false (c.fill e')
  | .hole, h => he h
  | .block (.mk _ before c after), h => by
    rw [Context.fill, BlockContext.fill, Expr.collect, Block.collect, List.forall_mem_cons] at h
    have hc := c.renamed_fill he fun node hnode => h.2 node (collect_subset_collectAll hnode)
    exact .block (.middle hc h.2)
  | .callee _ c args, h => by
    rw [Context.fill, Expr.collect, List.forall_mem_cons, List.forall_mem_append] at h
    exact .call (c.renamed_fill he h.2.1) (.self h.2.2)
  | .arg _ callee before c after, h => by
    rw [Context.fill, Expr.collect, List.forall_mem_cons, List.forall_mem_append] at h
    have hc := c.renamed_fill he fun node hnode => h.2.2 node (collect_subset_collectAll hnode)
    exact .call (Expr.renamed_self h.2.1) (.middle hc h.2.2)
  | .assigned _ _ _ c, h => by
    rw [Context.fill, Expr.collect, List.forall_mem_cons] at h
    exact .assign (List.ne_of_not_mem_cons h.1.1).symm (c.renamed_fill he h.2)
  | .body _ _ params b, h => by
    rw [Context.fill, Expr.collect, if_pos rfl, List.forall_mem_cons] at h
    have hfn := Expr.Renamed.function h.1 (g.enters_self false params) (b.renamed_fill he h.2)
    rwa [g.name_false, List.map_id] at hfn
  | .returned _ c, h => by
    rw [Context.fill, Expr.collect, List.forall_mem_cons] at h
    exact .ret (c.renamed_fill he h.2)
  | .condition _ c onTrue onFalse, h => by
    rw [Context.fill, Expr.collect, List.forall_mem_cons, List.forall_mem_append,
      List.forall_mem_append] at h
    exact .branch (c.renamed_fill he h.2.1.1) (.self h.2.1.2) (.self h.2.2)
  | .onTrue _ condition b onFalse, h => by
    rw [Context.fill, Expr.collect, List.forall_mem_cons, List.forall_mem_append,
      List.forall_mem_append] at h
    exact .branch (Expr.renamed_self h.2.1.1) (b.renamed_fill he h.2.1.2) (.self h.2.2)
  | .onFalse _ condition onTrue b, h => by
    rw [Context.fill, Expr.collect, List.forall_mem_cons, List.forall_mem_append,
      List.forall_mem_append] at h
    exact .branch (Expr.renamed_self h.2.1.1) (.self h.2.1.2) (b.renamed_fill he h.2.2)
  | .init _ before name c after, h => by
    rw [Context.fill, Expr.collect, List.forall_mem_cons] at h
    have hc := c.renamed_fill he fun node hnode => h.2 node (collect_subset_collectInits hnode)
    exact .object (.middle hc h.2)
  | .fieldReceiver _ c _, h => by
    rw [Context.fill, Expr.collect, List.forall_mem_cons] at h
    exact .field (List.ne_of_not_mem_cons h.1.1).symm (c.renamed_fill he h.2)
  | .setFieldReceiver _ c _ value, h => by
    rw [Context.fill, Expr.collect, List.forall_mem_cons, List.forall_mem_append] at h
    exact .setField (List.ne_of_not_mem_cons h.1.1).symm (c.renamed_fill he h.2.1)
      (Expr.renamed_self h.2.2)
  | .setFieldValue _ receiver _ c, h => by
    rw [Context.fill, Expr.collect, List.forall_mem_cons, List.forall_mem_append] at h
    exact .setField (List.ne_of_not_mem_cons h.1.1).symm (Expr.renamed_self h.2.1)
      (c.renamed_fill he h.2.2)
  | .sendReceiver _ c _ args, h => by
    rw [Context.fill, Expr.collect, List.forall_mem_cons, List.forall_mem_append] at h
    exact .send (List.ne_of_not_mem_cons h.1.1).symm (c.renamed_fill he h.2.1) (.self h.2.2)
  | .sendArg _ receiver _ before c after, h => by
    rw [Context.fill, Expr.collect, List.forall_mem_cons, List.forall_mem_append] at h
    have hc := c.renamed_fill he fun node hnode => h.2.2 node (collect_subset_collectAll hnode)
    exact .send (List.ne_of_not_mem_cons h.1.1).symm (Expr.renamed_self h.2.1) (.middle hc h.2.2)

/-- The same of blocks. -/
theorem BlockContext.renamed_fill
    (he : (∀ node ∈ e.collect true, g.Suits false node) → e.Renamed g false e') :
    ∀ c : BlockContext, (∀ node ∈ (c.fill e).collect true, g.Suits false node) →
      OptionalRenamed g false (some (c.fill e)) (some (c.fill e'))
  | .mk _ before c after, h => by
    rw [BlockContext.fill, Block.collect, List.forall_mem_cons] at h
    have hc := c.renamed_fill he fun node hnode => h.2 node (collect_subset_collectAll hnode)
    exact .some (.middle hc h.2)

end

end Outside

end TreeScript
