/-!
# Paths

A path is a text whose parts a slash divides.  These functions look at the text alone, not at any files.

## Main definitions

* `clean` — the shortest path that leads to the same place.
* `join`, `absolute` — a path below another, and a path from the root.
* `base`, `extension`, `stem` — the last part of a path, its extension, and the part without it.
-/

namespace TreeScript.Path

/-- The rows of characters between slashes. -/
def splitSlashes : List Char → List (List Char)
  | [] => [[]]
  | c :: rest =>
    let pieces := splitSlashes rest
    if c == '/' then [] :: pieces else (c :: pieces.headD []) :: pieces.tail

/-- The parts of a path between slashes. -/
def parts (path : String) : List String :=
  (splitSlashes path.toList).map String.ofList

/-- Whether a path starts at the root. -/
def isAbsolute (path : String) : Bool :=
  path.startsWith "/"

/-- The parts that remain, last ones first, after one more part: nothing and a dot stay where they are,
two dots go back, and at the root there is nowhere to go back to. -/
def cleanPart (fromRoot : Bool) (before : List String) (part : String) : List String :=
  if part == "" || part == "." then before
  else if part == ".." then
    match before with
    | [] => if fromRoot then [] else [".."]
    | last :: rest => if last == ".." then ".." :: before else rest
  else part :: before

/-- The shortest path that leads to the same place. -/
def clean (path : String) : String :=
  let fromRoot := isAbsolute path
  let remaining := ((parts path).foldl (cleanPart fromRoot) []).reverse
  let text := "/".intercalate remaining
  if fromRoot then "/" ++ text
  else if text.isEmpty then "."
  else text

/-- A path below a directory; an empty directory adds nothing. -/
def join (directory path : String) : String :=
  if directory.isEmpty then (if path.isEmpty then "" else clean path)
  else if path.isEmpty then clean directory
  else clean (directory ++ "/" ++ path)

/-- A path from the root, where other paths start at a working directory. -/
def absolute (workingDirectory path : String) : String :=
  if isAbsolute path then clean path else join workingDirectory path

/-- The last part of a path. -/
def base (path : String) : String :=
  if path.isEmpty then "."
  else
    match ((parts path).filter (· != "")).getLast? with
    | some last => last
    | none => "/"

/-- The characters of a name up to its last dot and those from it on; without a dot there are none. -/
def splitExtension : List Char → Option (List Char × List Char)
  | [] => none
  | c :: rest =>
    match splitExtension rest with
    | some (before, dotted) => some (c :: before, dotted)
    | none => if c == '.' then some ([], c :: rest) else none

/-- The extension of the last part of a path, with its dot. -/
def extension (path : String) : String :=
  match splitExtension ((parts path).getLastD "").toList with
  | some (_, dotted) => String.ofList dotted
  | none => ""

/-- The last part of a path without its extension. -/
def stem (path : String) : String :=
  match splitExtension (base path).toList with
  | some (before, dotted) =>
    if String.ofList dotted == extension path then String.ofList before else base path
  | none => base path

end TreeScript.Path
