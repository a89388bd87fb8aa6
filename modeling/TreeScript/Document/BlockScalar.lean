import TreeScript.Document.PlainScalar

/-!
# Block scalars

A block scalar is an indented piece of text after a header.  The header says whether lines are folded,
how the line breaks at the end are treated, and, if it wants to, how far the text is indented.

## Main definitions

* `Chomping` — what becomes of the line breaks at the end.
* `BlockHeader`, `blockHeader` — the header and how it is read.
* `blockScalar` — the text of a block scalar, from after its first sign.
-/

namespace TreeScript.Document

/-- What becomes of the line breaks at the end of a block scalar. -/
inductive Chomping where
  /-- All are dropped. -/
  | strip
  /-- The first is kept. -/
  | clip
  /-- All are kept. -/
  | keep
  deriving DecidableEq, Repr, Inhabited

/-- The header of a block scalar. -/
structure BlockHeader where
  /-- What becomes of the line breaks at the end. -/
  chomping : Chomping := .clip
  /-- How far the text is indented in its surroundings, if the header says it. -/
  indentation : Option Nat := none
  deriving Repr, Inhabited

/-- The chomping that a sign asks for. -/
def chomping? : Char → Option Chomping
  | '+' => some .keep
  | '-' => some .strip
  | _ => none

/-- The indentation that a digit asks for; zero is none. -/
def indentation? (c : Char) : Option Nat :=
  if isDigit c && c != '0' then some (c.toNat - '0'.toNat) else none

/-- Reads the signs of a header, which may come in either order. -/
def headerSigns (gs : List Glyph) : BlockHeader × List Glyph :=
  match chomping? (peek gs 0), indentation? (peek gs 0) with
  | some chomping, _ =>
    match indentation? (peek gs 1) with
    | some n => (⟨chomping, some n⟩, gs.drop 2)
    | none => (⟨chomping, none⟩, gs.drop 1)
  | none, some n =>
    match chomping? (peek gs 1) with
    | some chomping => (⟨chomping, some n⟩, gs.drop 2)
    | none => (⟨.clip, some n⟩, gs.drop 1)
  | none, none => ({}, gs)

/-- Reads a header with its line: only blanks and a comment may follow the signs. -/
def blockHeader (gs : List Glyph) : Except Malformed (BlockHeader × List Glyph) :=
  let (header, rest) := headerSigns gs
  let rest := dropBlanks rest
  let rest := if peek rest 0 == '#' then dropLine rest else rest
  if endsLine (peek rest 0) then .ok (header, rest.drop 1) else .error .badBlockHeader

/-- What a reader of a block scalar has read. -/
structure BlockText where
  /-- The column at which lines start, once it is known. -/
  indent : Option Nat
  /-- The deepest column reached by the empty lines before the first other one. -/
  deepest : Nat := 0
  /-- Whether the reader is inside a line and not in the margin before it. -/
  inLine : Bool := false
  /-- The text so far, last characters first. -/
  chars : List Char := []
  /-- The line break at the end of the last line that is not empty. -/
  lineBreak : Option Char := none
  /-- The breaks of the empty lines after it, last ones first. -/
  emptyLines : List Char := []
  /-- Whether the last line started with a blank. -/
  startedBlank : Bool := false

/-- The text with the line breaks at its end treated as asked. -/
def BlockText.chomp (t : BlockText) (chomping : Chomping) : String :=
  let chars := match chomping with
    | .strip => t.chars
    | .clip => t.lineBreak.toList ++ t.chars
    | .keep => t.emptyLines ++ t.lineBreak.toList ++ t.chars
  String.ofList chars.reverse

/-- Starts a line with its first character.  In folded text the break before it becomes a space, or
nothing if empty lines follow the break, unless one of the two lines starts with a blank. -/
def BlockText.startLine (t : BlockText) (literal : Bool) (indent : Nat) (c : Char) : BlockText :=
  let folds := !literal && !t.startedBlank && !isBlank c && t.lineBreak == some '\n'
  let joint := if folds then (if t.emptyLines.isEmpty then [' '] else []) else t.lineBreak.toList
  { indent := some indent
    inLine := true
    chars := c :: (t.emptyLines ++ joint ++ t.chars)
    startedBlank := isBlank c }

/-- Reads the lines of a block scalar whose surroundings end at the column `least`. -/
def blockLines (literal : Bool) (least : Nat) (t : BlockText) :
    List Glyph → Except Malformed (BlockText × List Glyph)
  | [] => .ok (t, [])
  | g :: rest =>
    if t.inLine then
      if isBreak g.char then
        blockLines literal least { t with inLine := false, lineBreak := some (breakChar g.char) } rest
      else blockLines literal least { t with chars := g.char :: t.chars } rest
    else
      let inMargin := match t.indent with
        | none => true
        | some n => decide (g.column < n)
      if g.char == ' ' && inMargin then
        blockLines literal least { t with deepest := max t.deepest (g.column + 1) } rest
      else if g.char == '\t' && inMargin then .error .tabIndentation
      else if isBreak g.char then
        blockLines literal least { t with emptyLines := breakChar g.char :: t.emptyLines } rest
      else
        let indent := t.indent.getD (max t.deepest least)
        if g.column == indent then blockLines literal least (t.startLine literal indent g.char) rest
        else .ok (t, g :: rest)

/-- The block scalar after its first sign, in surroundings indented by `indent`. -/
def blockScalar (literal : Bool) (indent : Option Nat) (gs : List Glyph) : Except Malformed Scanned := do
  let (header, rest) ← blockHeader gs
  let least := match indent with
    | some n => n + 1
    | none => 1
  let given := header.indentation.map (indent.getD 0 + ·)
  let (text, rest) ← blockLines literal least { indent := given } rest
  return { text := text.chomp header.chomping, brokeLine := true, rest }

end TreeScript.Document
