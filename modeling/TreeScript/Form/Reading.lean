import TreeScript.Document.Meaning
import TreeScript.Document.Node
import TreeScript.Form.Rejection

/-!
# Readings

A reading collects the problems of a document, or rejects it.  Aliases let a short document stand for a
very long one, so a reading counts the nodes it visits, and how many of them it reached through an alias;
it rejects a document when it has visited many nodes and nearly all of them so.  The nodes of a program are
counted each for itself.

## Main definitions

* `Reading` — the problems and the counts.
* `excessive` — whether too many of the visited nodes were reached through aliases.
* `Read` — a computation on a reading.
* `Read.visit`, `Read.throughAlias`, `Read.apart` — how nodes are counted.
* `Read.finish` — the outcome of a whole reading.
-/

namespace TreeScript.Form

open Document (Meaning)

/-- The state of a reading. -/
structure Reading where
  /-- The problems so far. -/
  problems : List Problem := []
  /-- The number of nodes visited. -/
  visits : Nat := 0
  /-- How many of them were reached through an alias. -/
  aliased : Nat := 0
  /-- Whether the current node was reached through an alias. -/
  inAlias : Bool := false
  deriving DecidableEq, Repr, Inhabited

/-- The share of visited nodes that may be reached through aliases, in parts of 360 million: 99 in a hundred
for up to 400000 nodes, 10 in a hundred from 4000000 on, and in between in proportion. -/
def allowedShare (visits : Nat) : Nat :=
  if visits ≤ 400000 then 99 * 3600000
  else if 4000000 ≤ visits then 10 * 3600000
  else 99 * 3600000 - 89 * (visits - 400000)

/-- Whether too many of the visited nodes were reached through aliases. -/
def excessive (visits aliased : Nat) : Bool :=
  100 < aliased && 1000 < visits && allowedShare visits * visits < aliased * 360000000

/-- A computation that collects problems or rejects the document. -/
abbrev Read := StateT Reading (Except Rejection)

namespace Read

/-- Notes problems. -/
def report (problems : List Problem) : Read Unit :=
  modify fun r => { r with problems := r.problems ++ problems }

/-- Rejects the document. -/
def reject {α : Type} (reason : Rejection) : Read α :=
  throw reason

/-- What a scalar means. -/
def meaning (tag text : String) : Read Meaning :=
  match Document.meaning tag text with
  | .ok m => pure m
  | .error reason => reject (.malformed reason)

/-- Counts a node. -/
def visit : Read Unit := do
  let r ← get
  let r := { r with visits := r.visits + 1, aliased := if r.inAlias then r.aliased + 1 else r.aliased }
  if excessive r.visits r.aliased then reject (.malformed .excessiveAliasing)
  set r

/-- Reads what an alias stands for. -/
def throughAlias {α : Type} (x : Read α) : Read α := do
  let before := (← get).inAlias
  modify fun r => { r with inAlias := true }
  let a ← x
  modify fun r => { r with inAlias := before }
  return a

/-- Reads something with counts of its own. -/
def apart {α : Type} (x : Read α) : Read α := do
  let before ← get
  set { before with visits := 0, aliased := 0, inAlias := false }
  let a ← x
  modify fun r => { before with problems := r.problems }
  return a

/-- The outcome of a whole reading. -/
def finish {α : Type} (x : Read α) : Except Rejection α :=
  match x.run {} with
  | .ok (a, r) => if r.problems.isEmpty then .ok a else .error (.problems r.problems)
  | .error reason => .error reason

end Read

end TreeScript.Form
