import TreeScript.Document.Meaning
import TreeScript.Form.Record

/-!
# From records to expressions

## Main definitions

* `literalOf` — the constant that a node of the document stands for.
* `build` — the expression that the record of a node stands for.
* `Part.ofRecord` — a node with its expression.
-/

namespace TreeScript.Form

/-- The constant that a node of the document stands for, in a node of the program on a line.  Truth values
are written as one and zero. -/
def literalOf (line : Nat) (value : Option Document.Node) : Except Rejection Literal :=
  match value with
  | none => .ok .undefined
  | some (.scalar place tag text) =>
    if tag == "!!null" then .ok .undefined
    else if tag == "!!str" then .ok (.str text)
    else if tag == "!!int" || tag == "!!bool" then
      match Document.meaning tag text with
      | .error reason => .error (.malformed reason)
      | .ok (.int n) =>
        if n < (Nat.pow 2 63 : Nat) then .ok (.int (Int64.ofInt n))
        else .error (.literalProblem line (.mismatch place tag text "int64"))
      | .ok (.bool b) => .ok (.int (if b then 1 else 0))
      | .ok _ => .ok .undefined
    else .error (.unsupportedLiteral line text tag)
  | some _ => .error (.literalNotScalar line)

/-- The expression of a part that must be there. -/
def child (line : Nat) (type field : String) : Option Part → Except Rejection Expr
  | none => .error (.missingField line type field)
  | some p => p.expr

/-- The block of a part that must be there. -/
def childBlock (line : Nat) (type field : String) (part : Option Part) : Except Rejection Block := do
  match part with
  | none => throw (.missingField line type field)
  | some p =>
    match ← p.expr with
    | .block b => return b
    | _ => throw (.notBlock p.line field type p.type)

/-- The expressions of a list of nodes, which must have no gap. -/
def children : List Data → Except Rejection (List Expr)
  | [] => .ok []
  | .part p :: rest => do
    let expr ← p.expr
    return expr :: (← children rest)
  | _ :: _ => .error .nullNode

/-- The name of a node, which must not be empty. -/
def nameOf (line : Nat) (type : String) (r : Record) : Except Rejection Text :=
  match r.text? "name" with
  | some name => if name.isEmpty then .error (.missingField line type "name") else .ok name
  | none => .error (.missingField line type "name")

/-- The initialisers of an object, in order. -/
def inits (line : Nat) (type : String) : List Data → Except Rejection (List Init)
  | [] => .ok []
  | .init name value :: rest => do
    if name.isEmpty then throw (.namelessField line)
    let expr ← child line type ("expr of field " ++ Text.shown name) value
    return .mk name expr :: (← inits line type rest)
  | _ :: rest => inits line type rest

/-- The expression of a node of the given kind, whose mapping is on a line of the document. -/
def buildKind (kind : NodeKind) (place : Nat) (r : Record) : Except Rejection Expr := do
  let line := r.number "line"
  let type := kind.name
  let child (field : String) := child place type field (r.part? field)
  let name := nameOf place type r
  match kind with
  | .block => return .block (.mk line (← children (r.items "instrs")))
  | .literal => return .literal line (← literalOf place (r.raw? "value"))
  | .call => return .call line (← child "callee") (← children (r.items "args"))
  | .variable => return .var line (← name)
  | .assignment =>
    let name ← name
    return .assign line (r.flag "declaration") name (← child "expr")
  | .function =>
    let body ← childBlock place type "body" (r.part? "body")
    return .fn line (Expr.functionName (r.text "name")) (r.texts "params") (some body)
  | .ret => return .ret line (← child "expr")
  | .branch =>
    let condition ← child "condition"
    let onTrue ← childBlock place type "then" (r.part? "then")
    match r.part? "else" with
    | none => return .branch line condition (some onTrue) none
    | some p => return .branch line condition (some onTrue) (some (← childBlock place type "else" (some p)))
  | .object => return .object line (← inits place type (r.items "fields"))
  | .field =>
    let receiver ← child "receiver"
    return .field line receiver (← name)
  | .setField =>
    let receiver ← child "receiver"
    let name ← name
    return .setField line receiver name (← child "expr")
  | .send =>
    let receiver ← child "receiver"
    let name ← name
    return .send line receiver name (← children (r.items "args"))

/-- The expression that the record of a node stands for. -/
def build (place : Nat) (r : Record) : Except Rejection Expr :=
  match NodeKind.ofName? (Text.shown (r.text "type")) with
  | some kind => buildKind kind place r
  | none => .error (.unknownType place (r.text "type"))

/-- The node that a record stands for. -/
def Part.ofRecord (line : Nat) (r : Record) : Part :=
  { line, type := Text.shown (r.text "type"), expr := build line r }

end TreeScript.Form
