import TreeScript.Document.Window

/-!
# What stands between tokens

Blanks, line breaks and comments divide tokens.  Tabs are blanks only where no indentation is counted: in
brackets, and where no key may start.  The lines between two comments may hold tabs anyway, if the comments
are not too far apart and the lines end in breaks of one byte.  This does not hold after a comment on the
line of a token: such a comment is taken together with the token.

## Main definitions

* `skipBetween` — what follows after everything that divides tokens.
* `skipComment` — what follows after a comment on the line of a token.
-/

namespace TreeScript.Document

/-- How many bytes are looked through for a comment. -/
def commentReach : Nat := 512

/-- Whether a comment starts before the given number of bytes, with only blanks and line breaks of one byte
in front of it. -/
def leadsToComment (limit : Nat) : List Glyph → Bool
  | [] => false
  | g :: rest =>
    if limit ≤ g.offset then false
    else if isBlank g.char || g.char == '\n' then leadsToComment limit rest
    else g.char == '#'

/-- Where a reader between tokens stands. -/
inductive Between where
  /-- At the start, or at the start of a line. -/
  | start
  /-- Among blanks and line breaks. -/
  | space
  /-- In a comment. -/
  | comment
  /-- On the way from one comment to the next. -/
  | towardsComment
  deriving DecidableEq, Repr, Inhabited

/-- What follows a glyph that is passed over.  After a line break that is passed over the line goes on. -/
def passOver (g : Glyph) (rest : List Glyph) : List Glyph :=
  if isBreak g.char then
    rest.map fun h =>
      { h with
        line := h.line - 1
        column := if h.line == g.line + 1 then h.column + g.column + 1 else h.column }
  else rest

/-- Passing a glyph over loses no other. -/
theorem length_passOver (g : Glyph) (rest : List Glyph) : (passOver g rest).length = rest.length := by
  unfold passOver
  split <;> simp

/-- What has been read once everything was looked at that may stand between the comment that ends at the
line break `g` and the next one. -/
def lookPast (window : Window) (g : Glyph) (rest : List Glyph) : Window :=
  let limit := g.index + commentReach
  match rest.dropWhile fun h => h.index < limit && (isBlank h.char || h.char == '\n') with
  | h :: _ => window.reach g (min limit (h.index + 1))
  | [] => window.reach g (g.index + rest.length + 2)

/-- What is left after things that divide tokens. -/
structure Divided where
  /-- What follows them. -/
  rest : List Glyph
  /-- Whether a key may start there. -/
  keyAllowed : Bool
  /-- What has been read. -/
  window : Window

/-- Skips what divides tokens, in brackets or not.  The first glyphs of lines that lose them go with it.  The
flag `keyAllowed` says whether a key may start here; outside brackets it is set by a line break. -/
def skipBetween (flow keyAllowed : Bool) (place : Between) (window : Window) (gs : List Glyph) :
    Divided :=
  match gs with
  | [] => ⟨[], keyAllowed, window⟩
  | g :: rest =>
    let window := window.reach g (g.index + 1)
    match place with
    | .comment =>
      if !isBreak g.char then skipBetween flow keyAllowed .comment window rest
      else
        let window := lookPast window g rest
        if !isWideBreak g.char && leadsToComment (g.offset + commentReach) rest then
          skipBetween flow keyAllowed .towardsComment window rest
        else skipBetween flow (keyAllowed || !flow) .start window rest
    | .towardsComment =>
      if g.char == '#' then skipBetween flow keyAllowed .comment window rest
      else skipBetween flow keyAllowed .towardsComment window rest
    | place =>
      if place == .start && window.loses g then
        skipBetween flow keyAllowed .space window (passOver g rest)
      else if g.char == ' ' || (g.char == '\t' && (flow || !keyAllowed)) then
        skipBetween flow keyAllowed .space window rest
      else if g.char == '#' then skipBetween flow keyAllowed .comment window rest
      else if isBreak g.char then
        skipBetween flow (keyAllowed || !flow) .start (window.reach g (g.index + 2)) rest
      else ⟨g :: rest, keyAllowed, window⟩
termination_by gs.length
decreasing_by all_goals simp [length_passOver]

/-- Skips blanks and a comment after them on the same line, unless it is too far off; without a comment
nothing is skipped. -/
def skipComment (gs : List Glyph) : List Glyph :=
  match gs with
  | [] => []
  | g :: _ =>
    match dropBlanks gs with
    | [] => gs
    | h :: rest => if h.char == '#' && h.offset < g.offset + commentReach then dropLine rest else gs

end TreeScript.Document
