import TreeScript.Files.Load

/-!
# Fixtures

A fixture is a document with a program and what is expected of it: what it prints, and a text that its
error must contain if it is to fail.

## Main definitions

* `Fixture` — a program with its expected outcome.
* `Fixture.load` — the fixture in a file.
* `Fixture.loadAll` — the fixtures in a directory, by name.
-/

namespace TreeScript

open Document (Node)

/-- A program with its expected outcome. -/
structure Fixture where
  /-- The name it is reported under. -/
  name : Text
  /-- What the program prints. -/
  output : Text
  /-- What the text of its error contains; the empty text asks for no error. -/
  failure : Text
  /-- The program. -/
  program : Program
  /-- The file it came from. -/
  path : String
  deriving Inhabited

/-- Reads the root of a document as the record of a fixture. -/
def Form.readFixture : Node → Read Record
  | .mapping _ _ entries => readRecord .fixture entries
  | .scalar line tag text => do
    match ← Read.meaning tag text with
    | .null => return []
    | _ =>
      Read.report [.mismatch line tag text RecordType.fixture.name]
      return []
  | node => do
    Read.report [.mismatch node.line node.tag node.text RecordType.fixture.name]
    return []

namespace Fixture

/-- The fixture that a record stands for, if it has a program.  Without a name it has the name of its
file. -/
def ofRecord? (path : String) (r : Form.Record) : Option Fixture := do
  let body ← r.block? "program"
  let name := r.text "name"
  return {
    name := if name.isEmpty then Text.ofString (Path.stem path) else name
    output := r.text "output"
    failure := r.text "failure"
    program := { path, body := some body }
    path }

/-- The fixture that a text holds, in a file of the given path. -/
def ofText (path text : String) : Except LoadError Fixture := do
  match Document.readDocument text with
  | .error reason => throw (.fixture path (.malformed reason))
  | .ok none => throw (.emptyFixture path)
  | .ok (some node) =>
    match (Form.readFixture node).finish with
    | .error reason => throw (.fixture path reason)
    | .ok record =>
      match ofRecord? path record with
      | some f => return f
      | none => throw (.missingProgram path)

/-- The fixture in a file. -/
def load (fs : FileSystem) (path : String) : Except LoadError Fixture := do
  match fs.find path with
  | .error reason => throw (.cannotOpen path reason)
  | .ok item =>
    match item.text? with
    | some text => ofText path text
    | none => throw (.fixture path (.malformed .unreadable))

/-- The extensions of the files that hold fixtures. -/
def extensions : List String :=
  [".yaml", ".yml", ".json"]

/-- Whether an entry of a directory holds a fixture. -/
def isFixtureEntry (entry : String × FileTree) : Bool :=
  !entry.2.isDirectory && extensions.contains (Path.extension entry.1)

/-- The fixtures in a directory, in the order of their names; all of them must load. -/
def loadAll (fs : FileSystem) (directory : String) : Except LoadError (List Fixture) :=
  match fs.list directory with
  | .error reason => .error (.cannotList directory reason)
  | .ok entries =>
    (entries.filter isFixtureEntry).mapM fun entry => load fs (Path.join directory entry.1)

end Fixture

end TreeScript
