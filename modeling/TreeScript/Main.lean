import TreeScript.Command.Execute

/-!
# The command line

The outer layer: it takes down the files and variables that the arguments may be about, has the command
carried out on them, and writes the report.

## Main definitions

* `snapshot` — the files that a path leads to, as data.
* `main` — the command.
-/

namespace TreeScript.Command

/-- The variables of the environment that set options. -/
def optionVariables : List String :=
  [OptionName.logLevel, .maxDepth, .parallel].filterMap OptionName.variable?

/-- Takes down the environment. -/
def readVariables : IO Environment := do
  let found ← optionVariables.filterMapM fun name => do
    return (← IO.getEnv name).map (name, ·)
  return (found.lookup ·)

/-- Takes down a file. -/
def readItem (path : String) : IO FileTree := do
  try
    match String.fromUTF8? (← IO.FS.readBinFile path) with
    | some text => return .file text
    | none => return .unreadable
  catch _ => return .unreadable

/-- Takes down what a directory holds; of other files than fixtures only the names count. -/
def readDirectory (path : String) (names : List String) (t : FileTree) : IO FileTree := do
  let mut t := t
  for entry in ← ((← IO.currentDir) / path).readDir do
    let below := names ++ [entry.fileName]
    if ← entry.path.isDir then t := t.makeDirectory below
    else if Fixture.extensions.contains (Path.extension entry.fileName) then
      t := t.insert below (← readItem entry.path.toString)
  return t

/-- The files that a path from the root leads to, with those of the last directory if they are asked
for. -/
def snapshot (path : String) (wholeDirectory : Bool) : IO FileTree := do
  let mut t := FileTree.directory []
  let mut names : List String := []
  for part in (Path.parts path).filter (· != "") do
    names := names ++ [part]
    let here := "/" ++ "/".intercalate names
    let place := (← IO.currentDir) / here
    if ← place.isDir then t := t.makeDirectory names
    else if ← place.pathExists then return t.insert names (← readItem here)
    else return t
  if wholeDirectory then t ← readDirectory path names t
  return t

/-- The files that a task is about. -/
def taskFiles (workingDirectory : String) : Task → IO FileTree
  | .none => return .directory []
  | .run file => snapshot (Path.absolute workingDirectory file) false
  | .tree file => snapshot (Path.absolute workingDirectory file) false
  | .test directory => snapshot (Path.absolute workingDirectory directory) true

/-- The bytes of a text, ready to be written. -/
def bytesOf (t : Text) : ByteArray :=
  (Text.bytes t).toByteArray

/-- Carries out the command that arguments ask for. -/
def runCommand (argv : List String) : IO UInt32 := do
  let env ← readVariables
  let workingDirectory := (← IO.currentDir).toString
  let root ← match parseArguments env argv with
    | .ok a => taskFiles workingDirectory a.task
    | .error _ => pure (.directory [])
  -- The working directory is there even if no path leads to it.
  let root := root.makeDirectory ((Path.parts workingDirectory).filter (· != ""))
  match (execute ⟨workingDirectory, root⟩ env argv).report? with
  | some r =>
    (← IO.getStdout).write (bytesOf r.output)
    (← IO.getStderr).write (bytesOf r.notice.text)
    return r.exit.toUInt32
  | none =>
    IO.eprintln "there is nothing to report"
    return 2

end TreeScript.Command

/-- The command. -/
def main (argv : List String) : IO UInt32 :=
  TreeScript.Command.runCommand argv
