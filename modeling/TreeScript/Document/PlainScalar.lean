import TreeScript.Document.Glyph

/-!
# Plain scalars

A plain scalar is written without quotes.  It may go on over several lines, which are folded: a single
line break becomes a space, and of several all but the first are kept.

## Main definitions

* `Gap` — the blanks and line breaks between two words of a scalar.
* `Gap.fill` — the characters that a gap stands for.
* `plainScalar` — the text of a plain scalar.
-/

namespace TreeScript.Document

/-- What stands between two words of a scalar; characters met last come first. -/
inductive Gap where
  /-- Nothing: the last character belongs to a word. -/
  | none
  /-- Blanks on one line. -/
  | blanks (cs : List Char)
  /-- Line breaks with blanks around them: the first break, unless it was escaped, and the others. -/
  | breaks (first : Option Char) (more : List Char)
  deriving Repr, Inhabited

/-- The characters that a gap stands for, last ones first. -/
def Gap.fill : Gap → List Char
  | .none => []
  | .blanks cs => cs
  | .breaks (some '\n') [] => [' ']
  | .breaks (some '\n') more => more
  | .breaks (some c) more => more ++ [c]
  | .breaks .none more => more

/-- The gap after one more blank; blanks around line breaks do not count. -/
def Gap.blank (c : Char) : Gap → Gap
  | .none => .blanks [c]
  | .blanks cs => .blanks (c :: cs)
  | .breaks first more => .breaks first more

/-- The gap after one more line break, which undoes blanks before it. -/
def Gap.lineBreak (c : Char) : Gap → Gap
  | .none => .breaks (some c) []
  | .blanks _ => .breaks (some c) []
  | .breaks first more => .breaks first (c :: more)

/-- Whether a plain scalar ends before its character `c`, with `next` after it: at a colon before a
boundary, and inside brackets also at the signs of those. -/
def endsPlain (flow : Bool) (c next : Char) : Bool :=
  (c == ':' && isBoundary next) ||
    (flow && (c == ',' || c == '?' || c == '[' || c == ']' || c == '\x7b' || c == '\x7d'))

/-- A scalar that has been read. -/
structure Scanned where
  /-- Its text. -/
  text : String
  /-- Whether line breaks after it have been read too. -/
  brokeLine : Bool := false
  /-- What follows. -/
  rest : List Glyph

/-- The plain scalar at the start of the glyphs.  Outside brackets it ends where a line starts to the
left of `indent`; `gap` and `chars` are what has been read of it, last characters first. -/
def plainScalar (flow : Bool) (indent : Int) (gap : Gap) (chars : List Char) :
    List Glyph → Except Malformed Scanned
  | [] => .ok (finish [])
  | g :: rest =>
    if isBlank g.char then
      match gap with
      | .breaks .. =>
        if g.char == '\t' && g.column < indent then .error .tabIndentation
        else plainScalar flow indent gap chars rest
      | _ => plainScalar flow indent (gap.blank g.char) chars rest
    else if isBreak g.char then
      plainScalar flow indent (gap.lineBreak (breakChar g.char)) chars rest
    else
      let startsWord := match gap with
        | .none => false
        | _ => true
      if startsWord && ((!flow && g.column < indent) || isDocumentMarker (g :: rest) ||
          g.char == '#') then
        .ok (finish (g :: rest))
      else if endsPlain flow g.char (peek rest 0) then
        .ok (finish (g :: rest))
      else
        plainScalar flow indent .none (g.char :: (gap.fill ++ chars)) rest
where
  /-- The scalar as read so far; the gap after it is no part of it. -/
  finish (rest : List Glyph) : Scanned :=
    { text := String.ofList chars.reverse
      brokeLine := match gap with
        | .breaks .. => true
        | _ => false
      rest }

end TreeScript.Document
