import TreeScript.Document.Node
import TreeScript.Form.Rejection
import TreeScript.Syntax.Expr

/-!
# Records

A mapping of a document is read as a record: the values of its fields by name.  What a record may hold is
laid down by its type.

## Main definitions

* `NodeKind` — the types of the nodes of a program, with the keys they may carry.
* `RecordType` — the types of records, with their fields.
* `Part`, `Data`, `Record` — nodes that have been read, the values of fields, and records.
* `Record.text?`, `Record.number`, … — the fields of a record by name.
-/

namespace TreeScript.Form

/-- The type of a node of a program. -/
inductive NodeKind where
  /-- A block. -/
  | block
  /-- A constant. -/
  | literal
  /-- A function call. -/
  | call
  /-- The value of a variable. -/
  | variable
  /-- A write to a variable. -/
  | assignment
  /-- A function. -/
  | function
  /-- A return. -/
  | ret
  /-- A conditional. -/
  | branch
  /-- A new object. -/
  | object
  /-- The value of a field. -/
  | field
  /-- A write to a field. -/
  | setField
  /-- A call of a method. -/
  | send
  deriving DecidableEq, Repr, Inhabited

/-- The name under which a document asks for a type. -/
def NodeKind.name : NodeKind → String
  | .block => "Block"
  | .literal => "Literal"
  | .call => "FunCall"
  | .variable => "LocalVarAccess"
  | .assignment => "LocalVarAssignment"
  | .function => "Fun"
  | .ret => "Return"
  | .branch => "If"
  | .object => "New"
  | .field => "FieldAccess"
  | .setField => "FieldAssignment"
  | .send => "MethodCall"

/-- All types of nodes. -/
def NodeKind.all : List NodeKind :=
  [.block, .literal, .call, .variable, .assignment, .function, .ret, .branch, .object, .field, .setField,
    .send]

/-- The type of a name. -/
def NodeKind.ofName? (name : String) : Option NodeKind :=
  NodeKind.all.find? (·.name == name)

/-- The keys that a node may carry besides its type and its line. -/
def NodeKind.keys : NodeKind → List String
  | .block => ["instrs"]
  | .literal => ["value"]
  | .call => ["callee", "args"]
  | .variable => ["name"]
  | .assignment => ["name", "expr", "declaration"]
  | .function => ["name", "params", "body"]
  | .ret => ["expr"]
  | .branch => ["condition", "then", "else"]
  | .object => ["fields"]
  | .field => ["receiver", "name"]
  | .setField => ["receiver", "name", "expr"]
  | .send => ["receiver", "name", "args"]

/-- Whether a node may carry a key. -/
def NodeKind.allows (kind : NodeKind) (key : String) : Bool :=
  key == "type" || key == "line" || kind.keys.contains key

/-! ### Types of records -/

/-- The types of records. -/
inductive RecordType where
  /-- A node of a program. -/
  | node
  /-- The initialiser of a field of an object. -/
  | init
  /-- A program with the outcome it should have. -/
  | fixture
  /-- A program, given by its path and its body. -/
  | program
  /-- A block, given by its line and its gaps. -/
  | block
  deriving DecidableEq, Repr, Inhabited

/-- The type that a problem names for a record. -/
def RecordType.name : RecordType → String
  | .node => "ast.plain"
  | .init => "ast.rawField"
  | .fixture => "suite.Case"
  | .program => "ast.Program"
  | .block => "ast.Block"

/-- What the field of a node holds. -/
def nodeField? : String → Option FieldType
  | "type" => some .text
  | "line" => some .number
  | "instrs" => some (.list .part)
  | "value" => some .raw
  | "callee" => some .part
  | "args" => some (.list .part)
  | "name" => some .maybeText
  | "expr" => some .part
  | "declaration" => some .flag
  | "params" => some (.list .text)
  | "body" => some .part
  | "condition" => some .part
  | "then" => some .part
  | "else" => some .part
  | "fields" => some (.list .init)
  | "receiver" => some .part
  | _ => none

/-- What a field of a record holds, if there is such a field. -/
def RecordType.field? : RecordType → String → Option FieldType
  | .node, key => nodeField? key
  | .init, "name" => some .text
  | .init, "expr" => some .part
  | .fixture, "name" => some .text
  | .fixture, "output" => some .text
  | .fixture, "failure" => some .text
  | .fixture, "program" => some .program
  | .program, "path" => some .text
  | .program, "body" => some .block
  | .block, "instrs" => some (.list .gap)
  | .block, "linenumber" => some .number
  | _, _ => none

/-- Whether a key that is no field is a problem; otherwise it is passed over. -/
def RecordType.isStrict : RecordType → Bool
  | .fixture => true
  | _ => false

/-! ### Values -/

/-- A node of a program that has been read. -/
structure Part where
  /-- The line of its mapping in the document. -/
  line : Nat
  /-- Its type. -/
  type : String
  /-- The expression it stands for, if it stands for one. -/
  expr : Except Rejection Expr
  deriving Inhabited

/-- The value of a field. -/
inductive Data where
  /-- The gap in a list of nodes. -/
  | null
  /-- A text. -/
  | text (s : Text)
  /-- A 64-bit integer. -/
  | number (n : Int)
  /-- A truth value. -/
  | flag (b : Bool)
  /-- A node of the document as it stands. -/
  | raw (node : Document.Node)
  /-- A node of a program. -/
  | part (p : Part)
  /-- The initialiser of a field, whose parts may be missing. -/
  | init (name : Text) (value : Option Part)
  /-- A block that was given as such, or as the root of a program. -/
  | block (b : Block)
  /-- Several values. -/
  | list (items : List Data)

/-- The values of the fields that are set, by name. -/
abbrev Record := List (String × Data)

namespace Record

/-- A text, if it is set. -/
def text? (r : Record) (key : String) : Option Text :=
  match r.lookup key with
  | some (.text s) => some s
  | _ => none

/-- A text, empty if it is not set. -/
def text (r : Record) (key : String) : Text :=
  (r.text? key).getD []

/-- An integer, zero if it is not set. -/
def number (r : Record) (key : String) : Int :=
  match r.lookup key with
  | some (.number n) => n
  | _ => 0

/-- A truth value, false if it is not set. -/
def flag (r : Record) (key : String) : Bool :=
  match r.lookup key with
  | some (.flag b) => b
  | _ => false

/-- A node of the document, if it is set. -/
def raw? (r : Record) (key : String) : Option Document.Node :=
  match r.lookup key with
  | some (.raw node) => some node
  | _ => none

/-- A node of a program, if it is set. -/
def part? (r : Record) (key : String) : Option Part :=
  match r.lookup key with
  | some (.part p) => some p
  | _ => none

/-- A block, if it is set. -/
def block? (r : Record) (key : String) : Option Block :=
  match r.lookup key with
  | some (.block b) => some b
  | _ => none

/-- The values of a list, none if it is not set. -/
def items (r : Record) (key : String) : List Data :=
  match r.lookup key with
  | some (.list ds) => ds
  | _ => []

/-- The texts of a list. -/
def texts (r : Record) (key : String) : List Text :=
  (r.items key).filterMap fun
    | .text s => some s
    | _ => none

end Record

end TreeScript.Form
