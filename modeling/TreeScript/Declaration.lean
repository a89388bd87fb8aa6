import TreeScript.Text.Blank
import TreeScript.Text.LowerCase

/-!
# Declarations of node types

The node types of the language are declared by short lines, a name with its fields after a colon.  Source
text for them is written out: an interface that all node types share, and a structure with two
methods for every one.

## Main definitions

* `Declaration` — a node type with its fields.
* `Declaration.ofLine?` — the declaration that a line holds.
* `Declaration.render` — its source text.
* `renderSource?` — the source text for several lines.
* `nodeSource` — the source text for the language itself, formatted.
-/

namespace TreeScript

/-- A node type with its fields. -/
structure Declaration where
  /-- The name of the type. -/
  name : String
  /-- The fields, each a name and a type. -/
  fields : List String
  deriving DecidableEq, Repr, Inhabited

namespace Declaration

/-- The fields between commas. -/
def splitFields (fields : String) : List String :=
  (fields.splitOn ",").map Text.trim

/-- The name that a line declares. -/
def lineName (line : String) : String :=
  Text.trim ((line.splitOn ":").headD "")

/-- The declaration that a line holds: a name, a colon, fields; what follows another colon does not
count. -/
def ofLine? (line : String) : Option Declaration :=
  match line.splitOn ":" with
  | name :: fields :: _ => some ⟨Text.trim name, splitFields (Text.trim fields)⟩
  | _ => none

/-- The method that marks the node types of an interface. -/
def marker (base : String) : String :=
  Text.lower base ++ "Node()"

/-- The source text of a node type, with the given lines for its fields. -/
def renderWith (base name : String) (fieldLines : List String) : String :=
  "type " ++ name ++ " struct \x7b\n" ++
    String.join (fieldLines.map fun field => "\t" ++ field ++ "\n") ++
    "\x7d\n\n" ++
    "func (s *" ++ name ++ ") Line() int \x7b\n" ++
    "\treturn s.LineNumber\n" ++
    "\x7d\n\n" ++
    "func (s *" ++ name ++ ") " ++ marker base ++ " \x7b\x7d\n\n"

/-- The field that every node type has. -/
def lineField : String := "LineNumber int"

/-- The source text of a node type. -/
def render (base : String) (d : Declaration) : String :=
  renderWith base d.name (d.fields ++ [lineField])

end Declaration

/-- The source text before the node types: the package, the interface, and that the types of the given
names satisfy it. -/
def renderHead (base : String) (names : List String) : String :=
  "// Code generated by cmd/ast; DO NOT EDIT.\n\n" ++
    "package ast\n\n" ++
    "import (\n" ++
    "\t\"smalljs/internal/runtime\"\n\n" ++
    "\t\"github.com/samber/mo\"\n" ++
    ")\n\n" ++
    "// " ++ base ++ " is a node of the closed expression set. Every node knows its source line.\n" ++
    "type " ++ base ++ " interface \x7b\n" ++
    "\tLine() int\n" ++
    "\t" ++ Declaration.marker base ++ "\n" ++
    "\x7d\n\n" ++
    "var (\n" ++
    String.join (names.map fun name => "\t_ " ++ base ++ " = (*" ++ name ++ ")(nil)\n") ++
    ")\n\n"

/-- The source text for several lines, unless one of them declares nothing. -/
def renderSource? (base : String) (lines : List String) : Option String := do
  let declarations ← lines.mapM Declaration.ofLine?
  return renderHead base (lines.map Declaration.lineName) ++
    String.join (declarations.map (Declaration.render base))

/-! ### The source text of the language -/

/-- The node types of the language. -/
def nodeDeclarations : List Declaration :=
  [⟨"Block", ["Instrs []Expr"]⟩,
   ⟨"Literal", ["Value runtime.Value"]⟩,
   ⟨"FunCall", ["Callee Expr", "Args []Expr"]⟩,
   ⟨"LocalVarAccess", ["Name string"]⟩,
   ⟨"LocalVarAssignment", ["Name string", "Expr Expr", "Declaration bool"]⟩,
   ⟨"Fun", ["Name mo.Option[string]", "Params []string", "Body *Block"]⟩,
   ⟨"Return", ["Expr Expr"]⟩,
   ⟨"If", ["Condition Expr", "Then *Block", "Else *Block"]⟩,
   ⟨"New", ["Fields []FieldInit"]⟩,
   ⟨"FieldAccess", ["Receiver Expr", "Name string"]⟩,
   ⟨"FieldAssignment", ["Receiver Expr", "Name string", "Expr Expr"]⟩,
   ⟨"MethodCall", ["Receiver Expr", "Name string", "Args []Expr"]⟩]

/-- The name and the type of a field. -/
def splitField (field : String) : String × String :=
  let chars := field.toList
  (String.ofList (chars.takeWhile (· != ' ')), String.ofList (chars.dropWhile (· != ' ')))

/-- Fields with their types in one column. -/
def alignFields (fields : List String) : List String :=
  let split := fields.map splitField
  let width := split.foldl (fun w (name, _) => max w name.length) 0
  split.map fun (name, type) =>
    name ++ String.ofList (List.replicate (width - name.length) ' ') ++ type

/-- The source text of a node type with its fields aligned. -/
def Declaration.renderAligned (base : String) (d : Declaration) : String :=
  Declaration.renderWith base d.name (alignFields (d.fields ++ [Declaration.lineField]))

/-- The source text for the node types of the language.  Formatted text ends with one line break. -/
def nodeSource : String :=
  let text := renderHead "Expr" (nodeDeclarations.map Declaration.name) ++
    String.join (nodeDeclarations.map (Declaration.renderAligned "Expr"))
  String.ofList (text.toList.dropLast)

end TreeScript
