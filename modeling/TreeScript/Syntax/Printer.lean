import TreeScript.Syntax.Expr
import TreeScript.Text.Quoted

/-!
# Trees as text

A tree is shown as a symbolic expression, without its lines.  A function must have a body and a
conditional a first branch to be shown, so a tree with such a gap has no text; a missing expression
and a missing second branch do have one.

## Main definitions

* `form` — a parenthesised form, which leaves empty parts out.
* `Literal.render` — the text of a constant.
* `Expr.render?`, `Block.render?` — the text of an expression and of a block.
* `Program.render?` — the instructions of a program, one on a line.
-/

namespace TreeScript

/-- A parenthesised form: its head and the parts that are not empty, with a space before each. -/
def form (head : Text) (parts : List Text) : Text :=
  "(" ++ Text.join " " (head :: parts.filter (· ≠ [])) ++ ")"

/-- The text of a constant; strings are quoted. -/
def Literal.render : Literal → Text
  | .undefined | .absent => "undefined"
  | .int n => toString n.toInt
  | .str s => Text.quoted s

mutual

/-- The text of an expression, if every function in it has a body and every conditional a first
branch. -/
def Expr.render? : Expr → Option Text
  | .block b => b.render?
  | .literal _ value => some value.render
  | .call _ callee args => do
    let callee ← callee.render?
    let args ← renderAll? args
    return form "call" [callee, Text.join " " args]
  | .var _ name => some name
  | .assign _ declares name value => do
    let value ← value.render?
    let head := if declares then "let" else "set"
    return "(" ++ head ++ " " ++ name ++ " " ++ value ++ ")"
  | .fn _ name params (some body) => do
    let body ← body.render?
    let name := match name with
      | some name => name ++ " "
      | none => ""
    return "(fn " ++ name ++ "(" ++ Text.join ", " params ++ ") " ++ body ++ ")"
  | .fn _ _ _ none => none
  | .ret _ value => do
    let value ← value.render?
    return "(return " ++ value ++ ")"
  | .branch _ condition (some onTrue) onFalse => do
    let condition ← condition.render?
    let onTrue ← onTrue.render?
    let onFalse ← renderElse? onFalse
    return "(if " ++ condition ++ " " ++ onTrue ++ onFalse ++ ")"
  | .branch _ _ none _ => none
  | .object _ fields => do
    let fields ← renderInits? fields
    return form "new" [Text.join " " fields]
  | .field _ receiver name => do
    let receiver ← receiver.render?
    return "(. " ++ receiver ++ " " ++ name ++ ")"
  | .setField _ receiver name value => do
    let receiver ← receiver.render?
    let value ← value.render?
    return "(.= " ++ receiver ++ " " ++ name ++ " " ++ value ++ ")"
  | .send _ receiver name args => do
    let receiver ← receiver.render?
    let args ← renderAll? args
    return form "send" [receiver, name, Text.join " " args]
  | .missing => some "<nil>"

/-- The text of a block. -/
def Block.render? : Block → Option Text
  | .mk _ [] => some "(block)"
  | .mk _ (instr :: instrs) => do
    let instr ← instr.render?
    let instrs ← renderAll? instrs
    return "(block " ++ Text.join " " (instr :: instrs) ++ ")"

/-- The text of a second branch, with the space before it. -/
def renderElse? : Option Block → Option Text
  | none => some ""
  | some b => do
    let text ← b.render?
    return " " ++ text

/-- The texts of expressions, in order. -/
def renderAll? : List Expr → Option (List Text)
  | [] => some []
  | e :: rest => do
    let text ← e.render?
    let texts ← renderAll? rest
    return text :: texts

/-- The texts of initialisers, in order. -/
def renderInits? : List Init → Option (List Text)
  | [] => some []
  | .mk name value :: rest => do
    let value ← value.render?
    let texts ← renderInits? rest
    return ("(" ++ name ++ " " ++ value ++ ")") :: texts

end

/-- The text of a program: each instruction of its root block, ended by a line break.  A program
without a root block has none. -/
def Program.render? (p : Program) : Option Text := do
  let body ← p.body
  let texts ← renderAll? body.instrs
  return texts.flatMap Text.line

end TreeScript
