import TreeScript.Document.Malformed
import TreeScript.Text.Quoted
import TreeScript.Text.Utf8

/-!
# Why a document is no program

There are two kinds of faults.  A *problem* is a value of the wrong type or a key that comes twice;
reading goes on after it, and all problems are reported together.  Everything else rejects the document at
once.

## Main definitions

* `FieldType` — what a field of a record holds.
* `Problem` — a fault after which reading goes on.
* `Rejection` — why a document is rejected, and its text.
-/

namespace TreeScript.Form

/-- What a field of a record holds. -/
inductive FieldType where
  /-- A text. -/
  | text
  /-- A text that may be left open. -/
  | maybeText
  /-- A 64-bit integer. -/
  | number
  /-- A truth value. -/
  | flag
  /-- A node of the document as it stands. -/
  | raw
  /-- A node of a program. -/
  | part
  /-- The initialiser of a field of an object. -/
  | init
  /-- A whole program. -/
  | program
  /-- A block, given field by field. -/
  | block
  /-- An expression, of which only the gap can be given. -/
  | gap
  /-- Several of one type. -/
  | list (item : FieldType)
  deriving DecidableEq, Repr, Inhabited

/-- The type that a problem names for a field. -/
def FieldType.name : FieldType → String
  | .text => "string"
  | .maybeText => "string"
  | .number => "int"
  | .flag => "bool"
  | .raw => "yaml.Node"
  | .part => "*ast.rawExpr"
  | .init => "ast.rawField"
  | .program => "*ast.Program"
  | .block => "ast.Block"
  | .gap => "ast.Expr"
  | .list item => "[]" ++ item.name

/-- A fault after which reading goes on. -/
inductive Problem where
  /-- A node with a tag and a text cannot be a value of a type. -/
  | mismatch (line : Nat) (tag text type : String)
  /-- A key is written like an earlier one. -/
  | duplicateKey (line : Nat) (key : String) (earlier : Nat)
  /-- A key reads like an earlier one. -/
  | repeatedField (line : Nat) (key type : String)
  /-- A record has no field of that name. -/
  | unknownField (line : Nat) (key type : String)
  deriving DecidableEq, Repr, Inhabited

/-- The text of a scalar between back quotes; more than ten bytes are cut to seven. -/
def excerpt (text : String) : String :=
  let bytes := text.toUTF8.toList
  let shown := if 10 < bytes.length then Text.shown (Text.ofBytes (bytes.take 7)) ++ "..." else text
  " `" ++ shown ++ "`"

/-- The text of a problem.  A node with the tag of a collection shows its text as it stands. -/
def Problem.message : Problem → String
  | .mismatch line tag text type =>
    let shown := if tag == "!!seq" || tag == "!!map" then text else excerpt text
    s!"line {line}: cannot unmarshal {tag}{shown} into {type}"
  | .duplicateKey line key earlier =>
    s!"line {line}: mapping key {Text.quoted key} already defined at line {earlier}"
  | .repeatedField line key type => s!"line {line}: field {key} already set in type {type}"
  | .unknownField line key type => s!"line {line}: field {key} not found in type {type}"

/-- The text of several problems. -/
def problemsMessage (problems : List Problem) : String :=
  "yaml: unmarshal errors:\n  " ++ "\n  ".intercalate (problems.map Problem.message)

/-- Why a document is rejected. -/
inductive Rejection where
  /-- It is not well formed. -/
  | malformed (reason : Malformed)
  /-- It has problems. -/
  | problems (problems : List Problem)
  /-- A node of the program is no mapping. -/
  | notMapping (line : Nat)
  /-- A node has a type that there is not. -/
  | unknownType (line : Nat) (type : Text)
  /-- A key that does not belong to the type of its node. -/
  | invalidField (line : Nat) (key type : String)
  /-- A field of a node that must be there is missing. -/
  | missingField (line : Nat) (type field : String)
  /-- A part of a node that must be a block is none. -/
  | notBlock (line : Nat) (field type found : String)
  /-- A field of an object has no name. -/
  | namelessField (line : Nat)
  /-- A list of nodes has a gap. -/
  | nullNode
  /-- A constant is a collection or an alias. -/
  | literalNotScalar (line : Nat)
  /-- A constant of a type that there is not. -/
  | unsupportedLiteral (line : Nat) (text tag : String)
  /-- A constant has a problem. -/
  | literalProblem (line : Nat) (problem : Problem)
  /-- The root of a program is no block. -/
  | rootNotBlock (line : Nat) (type : String)
  /-- A mapping that others are merged into has a collection for a key, which is beyond this reader. -/
  | collectionKey (line : Nat)
  /-- A value is given where an expression can only be left out, which is beyond this reader. -/
  | notGap (line : Nat)
  deriving DecidableEq, Repr, Inhabited

/-- The text of a rejection. -/
def Rejection.message : Rejection → String
  | .malformed reason => "yaml: " ++ reason.message
  | .problems ps => problemsMessage ps
  | .notMapping line => s!"line {line}: expected a node mapping"
  | .unknownType line type => s!"line {line}: unknown node type {Text.quoted type}"
  | .invalidField line key type =>
    s!"line {line}: field {Text.quoted key} is not valid for {type}"
  | .missingField line type field => s!"line {line}: {type} requires {field}"
  | .notBlock line field type found =>
    s!"line {line}: {field} of {type} must be a Block, got {found}"
  | .namelessField line => s!"line {line}: New field requires a name"
  | .nullNode => "null node in list"
  | .literalNotScalar line => s!"line {line}: literal value must be a scalar"
  | .unsupportedLiteral line text tag =>
    s!"line {line}: unsupported literal {Text.quoted text} ({tag})"
  | .literalProblem line problem => s!"line {line}: {problemsMessage [problem]}"
  | .rootNotBlock line type => s!"line {line}: program root must be a Block, got {type}"
  | .collectionKey line => s!"line {line}: a collection cannot be a key here"
  | .notGap line => s!"line {line}: an expression cannot be given here"

/-- Whether a document asks for something that the reader has no way to answer. -/
def Rejection.isAbrupt : Rejection → Bool
  | .collectionKey _ | .notGap _ => true
  | _ => false

/-- Whether a document is rejected because it is not well formed. -/
def Rejection.isMalformed : Rejection → Bool
  | .malformed _ => true
  | _ => false

end TreeScript.Form
