import TreeScript.Files.Tree
import TreeScript.Form.Program

/-!
# Programs from files

## Main definitions

* `LoadError` — why a file cannot be loaded.
* `FileSystem.readText` — the text of a file.
* `Program.load` — the program in a file.
-/

namespace TreeScript

/-- Why a file cannot be loaded. -/
inductive LoadError where
  /-- A file cannot be opened. -/
  | cannotOpen (path : String) (reason : OpenError)
  /-- A directory cannot be listed. -/
  | cannotList (path : String) (reason : OpenError)
  /-- A file holds no program. -/
  | program (path : String) (reason : DecodeError)
  /-- A file of fixtures holds no document. -/
  | emptyFixture (path : String)
  /-- A fixture is rejected. -/
  | fixture (path : String) (reason : Form.Rejection)
  /-- A fixture has no program. -/
  | missingProgram (path : String)
  deriving DecidableEq, Repr, Inhabited

/-- The text of an error. -/
def LoadError.message : LoadError → String
  | .cannotOpen path reason => s!"open {path}: {reason.message}"
  | .cannotList path reason => s!"read fixtures {path}: open {path}: {reason.message}"
  | .program path reason => s!"load {path}: {reason.message}"
  | .emptyFixture path => s!"load fixture {path}: EOF"
  | .fixture path reason => s!"load fixture {path}: {reason.message}"
  | .missingProgram path => s!"load fixture {path}: missing program"

/-- Whether a file asks for something that the reader has no way to answer. -/
def LoadError.isAbrupt : LoadError → Bool
  | .program _ reason => reason.isAbrupt
  | .fixture _ reason => reason.isAbrupt
  | _ => false

/-- Whether the text of a file is not well formed. -/
def LoadError.isMalformed : LoadError → Bool
  | .program _ reason => reason.isMalformed
  | .fixture _ reason => reason.isMalformed
  | _ => false

/-- The text of a file that can be opened; a directory has none. -/
def FileTree.text? : FileTree → Option String
  | .file text => some text
  | _ => none

/-- The program in a file.  Its path is made absolute and clean before the file is looked for. -/
def Program.load (fs : FileSystem) (path : String) : Except LoadError Program := do
  let path := Path.absolute fs.workingDirectory path
  match fs.find path with
  | .error reason => throw (.cannotOpen path reason)
  | .ok item =>
    match item.text? with
    | none => throw (.program path (.rejected (.malformed .unreadable)))
    | some text =>
      match Program.ofText text with
      | .error reason => throw (.program path reason)
      | .ok p => return { p with path }

end TreeScript
