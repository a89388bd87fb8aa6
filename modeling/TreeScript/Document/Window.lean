import TreeScript.Document.Glyph

/-!
# Reading a document in pieces

A text is read in pieces, when somebody asks for a character that has not been read.  A character that may
not stand in a document spoils the whole piece that it is in, but only for those who ask for that piece: a
scanner that has what it wants before never notices.

What has been read and is still of use is a window.  It starts where its reader stood when the last piece was
asked for.  Its first character matters: behind a byte order mark, lines lose their first character.

## Main definitions

* `pieceEnds` — the division of a text into pieces.
* `Source`, `Source.ofText` — the glyphs of a text as far as it can be read.
* `Window`, `Window.reach` — what has been read, and reading more of it.
* `Window.pass` — what is asked for while glyphs are passed.
-/

namespace TreeScript.Document

/-! ### Pieces -/

/-- The greatest number of bytes of a piece. -/
def pieceSize : Nat := 512

/-- The numbers of characters up to the ends of the pieces, and whether one follows that cannot be read.  The
current piece starts at byte `start`, and character number `index` stands at byte `offset`; characters are
not divided. -/
def pieceEnds (start offset index : Nat) : List Char → List Nat × Bool
  | [] => ([index], false)
  | c :: rest =>
    let next := offset + c.utf8Size
    if next ≤ start + pieceSize then
      if isAllowed c then pieceEnds start next (index + 1) rest else ([], true)
    else if isAllowed c then
      let (ends, cut) := pieceEnds offset next (index + 1) rest
      (index :: ends, cut)
    else ([index], true)

/-- A text as far as it can be read. -/
structure Source where
  /-- The glyphs that can be read. -/
  glyphs : List Glyph
  /-- The place after them. -/
  stop : Glyph
  /-- The numbers of characters up to the ends of the pieces. -/
  ends : List Nat
  /-- Whether something follows that cannot be read. -/
  cut : Bool
  deriving Inhabited

/-- The glyphs of a text.  A byte order mark at its start is dropped. -/
def Source.ofText (text : String) : Source :=
  let (chars, offset) := match text.toList with
    | c :: rest => if c == byteOrderMark then (rest, c.utf8Size) else (c :: rest, 0)
    | [] => ([], 0)
  let (ends, cut) := pieceEnds 0 offset 0 chars
  let size := ends.getLastD 0
  let all := place 0 0 0 offset chars
  let glyphs := if cut then all.takeWhile (·.index < size) else all
  { glyphs, stop := { stopAfter glyphs with index := size }, ends, cut }

/-! ### The window -/

/-- What has been read of a text and is still of use. -/
structure Window where
  /-- The number of characters up to its end. -/
  loaded : Nat := 0
  /-- Whether it starts with a byte order mark. -/
  marked : Bool := false
  /-- The ends of the pieces that have not been read. -/
  ends : List Nat
  /-- Whether a piece follows that cannot be read. -/
  cut : Bool
  /-- Whether that piece has been asked for. -/
  spoiled : Bool := false
  deriving Repr, Inhabited

namespace Window

/-- The window before anything has been read. -/
def ofSource (source : Source) : Window :=
  { ends := source.ends, cut := source.cut }

/-- Reads pieces until the characters before number `upTo` are there.  After the last piece one character
more counts as read, which stands for the end. -/
def fill (w : Window) (upTo : Nat) : List Nat → Window
  | [] => { w with ends := [], loaded := w.loaded + 1, spoiled := w.cut }
  | e :: ends =>
    if upTo ≤ e then { w with ends, loaded := e } else fill { w with loaded := e } upTo ends

/-- Asks at the glyph `g` for the characters before number `upTo`. -/
def reach (w : Window) (g : Glyph) (upTo : Nat) : Window :=
  if upTo ≤ w.loaded then w else { w with marked := g.char == byteOrderMark }.fill upTo w.ends

/-- Whether a glyph starts a line that loses it. -/
def loses (w : Window) (g : Glyph) : Bool :=
  w.marked && g.column == 0

/-- Passes the glyphs before `last`.  Each is asked for, and at a line break the next one too.  A reader of
words also asks for four characters at the start of a word and for two inside it. -/
def pass (w : Window) (words inWord : Bool) (last : Glyph) : List Glyph → Window
  | [] => w
  | g :: rest =>
    if last.index ≤ g.index then w
    else
      let space := isBlank g.char || isBreak g.char
      let ahead := if isBreak g.char || (words && inWord) then 2 else if words && !space then 4 else 1
      (w.reach g (g.index + ahead)).pass words (!space) last rest

end Window

end TreeScript.Document
