import TreeScript.Files.Path

/-!
# Files and directories

## Main definitions

* `FileTree` — files and directories as data.
* `FileTree.insert`, `FileTree.makeDirectory` — a tree with more in it.
* `FileSystem` — a tree with a working directory.
* `FileSystem.find` — what a path leads to.
* `FileSystem.list` — the names in a directory, in order.
* `OpenError` — why a path leads nowhere.
-/

namespace TreeScript

/-- A file, or a directory with what it holds. -/
inductive FileTree where
  /-- A file that holds text. -/
  | file (text : String)
  /-- A file that holds no text. -/
  | unreadable
  /-- A directory of named files and directories. -/
  | directory (entries : List (String × FileTree))

instance : Inhabited FileTree := ⟨.directory []⟩

namespace FileTree

/-- Whether it is a directory. -/
def isDirectory : FileTree → Bool
  | .directory _ => true
  | _ => false

/-- What a directory holds; a file holds nothing. -/
def entries : FileTree → List (String × FileTree)
  | .directory entries => entries
  | _ => []

/-- Entries with one of a name put in or changed. -/
def putEntry (name : String) (change : FileTree → FileTree) :
    List (String × FileTree) → List (String × FileTree)
  | [] => [(name, change (.directory []))]
  | (n, t) :: rest =>
    if n == name then (n, change t) :: rest else (n, t) :: putEntry name change rest

/-- Changes what a list of names leads to, and makes the directories on the way. -/
def modify (change : FileTree → FileTree) : List String → FileTree → FileTree
  | [], t => change t
  | name :: rest, t => .directory (putEntry name (modify change rest) t.entries)

/-- Puts something where a list of names leads to. -/
def insert (t : FileTree) (names : List String) (item : FileTree) : FileTree :=
  t.modify (fun _ => item) names

/-- Makes the directories of a list of names. -/
def makeDirectory (t : FileTree) (names : List String) : FileTree :=
  t.modify id names

end FileTree

/-- Why a path leads nowhere. -/
inductive OpenError where
  /-- There is nothing of that name. -/
  | missing
  /-- The path goes on after a file. -/
  | notDirectory
  /-- The path, or a name in it, is too long. -/
  | tooLong
  /-- The path holds the character NUL, which ends paths. -/
  | invalid
  deriving DecidableEq, Repr, Inhabited

/-- The text of an error. -/
def OpenError.message : OpenError → String
  | .missing => "no such file or directory"
  | .notDirectory => "not a directory"
  | .tooLong => "file name too long"
  | .invalid => "invalid argument"

/-- A tree of files from the root on, with a working directory. -/
structure FileSystem where
  /-- The path of the working directory, from the root. -/
  workingDirectory : String
  /-- The root directory. -/
  root : FileTree
  deriving Inhabited

namespace FileSystem

/-- The greatest number of bytes of a name. -/
def nameLimit : Nat := 255

/-- The greatest number of bytes of a path. -/
def pathLimit : Nat := 4095

/-- Follows the parts of a path from the first of the given directories; the others are those around it,
the innermost first. -/
def follow (here : FileTree) (around : List FileTree) : List String → Except OpenError FileTree
  | [] => .ok here
  | part :: rest =>
    if !here.isDirectory then .error .notDirectory
    else if part == "" || part == "." then follow here around rest
    else if part == ".." then
      match around with
      | [] => follow here [] rest
      | outer :: around => follow outer around rest
    else if nameLimit < part.utf8ByteSize then .error .tooLong
    else
      match here.entries.lookup part with
      | some t => follow t (here :: around) rest
      | none => .error .missing

/-- What a path leads to. -/
def find (fs : FileSystem) (path : String) : Except OpenError FileTree :=
  if path.isEmpty then .error .missing
  else if path.toList.contains '\x00' then .error .invalid
  else if pathLimit < path.utf8ByteSize then .error .tooLong
  else
    let fromRoot := if Path.isAbsolute path then path else fs.workingDirectory ++ "/" ++ path
    follow fs.root [] (Path.parts fromRoot)

/-- The order of names by their bytes, which is that of their characters. -/
def nameLe (a b : String × FileTree) : Bool :=
  decide (a.1 ≤ b.1)

/-- What is in a directory, in the order of the names. -/
def list (fs : FileSystem) (path : String) : Except OpenError (List (String × FileTree)) := do
  match ← fs.find path with
  | .directory entries => return entries.mergeSort nameLe
  | _ => throw .notDirectory

end FileSystem

end TreeScript
