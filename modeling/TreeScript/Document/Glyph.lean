import TreeScript.Document.Malformed

/-!
# The characters of a document

Scanning depends on where a character stands: indentation is its column, and a key must end on the
line it starts on.  So a text is turned into glyphs, characters with their places, before anything
else is done with it.

Line breaks have several spellings.  In scalars all of them count as the line feed, but for the line and
paragraph separators, which break lines and keep their identity.

## Main definitions

* `Glyph` — a character with its place.
* `place` — the glyphs of a text.
* `peek` — a character ahead; the end of the text reads as the character NUL, which no text holds.
-/

namespace TreeScript.Document

/-- A character with its place, all counted from zero. -/
structure Glyph where
  /-- The character. -/
  char : Char
  /-- The number of line breaks before it. -/
  line : Nat
  /-- The number of characters before it on its line. -/
  column : Nat
  /-- The number of characters before it. -/
  index : Nat
  /-- The number of bytes before it. -/
  offset : Nat
  deriving Repr, Inhabited

/-- Whether a character ends a line and takes more than one byte. -/
def isWideBreak (c : Char) : Bool :=
  c == '\u0085' || c == '\u2028' || c == '\u2029'

/-- Whether a character ends a line. -/
def isBreak (c : Char) : Bool :=
  c == '\n' || isWideBreak c

/-- The character that a line break counts as in a scalar. -/
def breakChar (c : Char) : Char :=
  if c == '\u0085' then '\n' else c

/-- Whether a character is a space or a tab. -/
def isBlank (c : Char) : Bool :=
  c == ' ' || c == '\t'

/-- Whether a character is blank, ends a line or ends the text. -/
def isBoundary (c : Char) : Bool :=
  isBlank c || isBreak c || c == '\x00'

/-- Whether a character ends a line or the text. -/
def endsLine (c : Char) : Bool :=
  isBreak c || c == '\x00'

/-- Whether a character is a decimal digit. -/
def isDigit (c : Char) : Bool :=
  '0' ≤ c && c ≤ '9'

/-- Whether a character may stand in a document. -/
def isAllowed (c : Char) : Bool :=
  let n := c.toNat
  n == 0x09 || n == 0x0A || n == 0x0D || (0x20 ≤ n && n ≤ 0x7E) || n == 0x85 ||
    (0xA0 ≤ n && n ≤ 0xD7FF) || (0xE000 ≤ n && n ≤ 0xFFFD) || 0x10000 ≤ n

/-- The mark that may stand at the start of a text and says nothing. -/
def byteOrderMark : Char := '\ufeff'

/-- Gives characters their places, the first of them the given one.  A carriage return, alone or before a
line feed, is a line feed. -/
def place (line column index offset : Nat) : List Char → List Glyph
  | [] => []
  | '\r' :: '\n' :: rest =>
    ⟨'\n', line, column, index, offset⟩ :: place (line + 1) 0 (index + 2) (offset + 2) rest
  | c :: rest =>
    let next := offset + c.utf8Size
    let c := if c == '\r' then '\n' else c
    let tail := if isBreak c then place (line + 1) 0 (index + 1) next rest
      else place line (column + 1) (index + 1) next rest
    ⟨c, line, column, index, offset⟩ :: tail

/-- The place after the last glyph, which the end of the text has. -/
def stopAfter : List Glyph → Glyph
  | [] => ⟨'\x00', 0, 0, 0, 0⟩
  | [g] =>
    if isBreak g.char then ⟨'\x00', g.line + 1, 0, g.index + 1, g.offset + 1⟩
    else ⟨'\x00', g.line, g.column + 1, g.index + 1, g.offset + 1⟩
  | _ :: rest => stopAfter rest

/-- The character `n` places ahead, NUL beyond the end. -/
def peek (gs : List Glyph) (n : Nat) : Char :=
  match gs[n]? with
  | some g => g.char
  | none => '\x00'

/-- Whether a document marker, three times `c` and a boundary, stands at the start of a line here. -/
def isMarker (c : Char) (gs : List Glyph) : Bool :=
  match gs with
  | g :: _ => g.column == 0 && g.char == c && peek gs 1 == c && peek gs 2 == c &&
      isBoundary (peek gs 3)
  | [] => false

/-- Whether a marker of the start or the end of a document stands here. -/
def isDocumentMarker (gs : List Glyph) : Bool :=
  isMarker '-' gs || isMarker '.' gs

/-- What follows after the rest of the line, which is left out; the line break stays. -/
def dropLine : List Glyph → List Glyph
  | [] => []
  | g :: rest => if isBreak g.char then g :: rest else dropLine rest

/-- What follows after spaces and tabs. -/
def dropBlanks : List Glyph → List Glyph
  | [] => []
  | g :: rest => if isBlank g.char then dropBlanks rest else g :: rest

/-- The text of glyphs that satisfy a condition, and what follows them. -/
def takeText (p : Char → Bool) : List Glyph → List Char × List Glyph
  | [] => ([], [])
  | g :: rest =>
    if p g.char then
      let (chars, rest) := takeText p rest
      (g.char :: chars, rest)
    else ([], g :: rest)

end TreeScript.Document
