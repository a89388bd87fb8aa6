import TreeScript.Document.PlainScalar

/-!
# Quoted scalars

Between single quotes only the quote is special: it is written twice.  Between double quotes a backslash
starts an escape: a letter for a character, a hexadecimal code, or a line break that is to be ignored.
Line breaks are folded in both as in plain scalars.

## Main definitions

* `escaped?` — the character that a one-letter escape stands for.
* `singleQuoted`, `doubleQuoted` — the text of a quoted scalar, from after its first quote.
-/

namespace TreeScript.Document

/-- The character that an escape of one letter stands for. -/
def escaped? : Char → Option Char
  | '0' => some '\x00'
  | 'a' => some '\x07'
  | 'b' => some '\x08'
  | 't' => some '\t'
  | '\t' => some '\t'
  | 'n' => some '\n'
  | 'v' => some '\x0B'
  | 'f' => some '\x0C'
  | 'r' => some '\r'
  | 'e' => some '\x1B'
  | ' ' => some ' '
  | '"' => some '"'
  | '\'' => some '\''
  | '\\' => some '\\'
  | 'N' => some '\u0085'
  | '_' => some '\u00a0'
  | 'L' => some '\u2028'
  | 'P' => some '\u2029'
  | _ => none

/-- The number of digits of the code after an escape letter. -/
def codeLength? : Char → Option Nat
  | 'x' => some 2
  | 'u' => some 4
  | 'U' => some 8
  | _ => none

/-- The value of a hexadecimal digit. -/
def hexDigit? (c : Char) : Option Nat :=
  if '0' ≤ c && c ≤ '9' then some (c.toNat - '0'.toNat)
  else if 'a' ≤ c && c ≤ 'f' then some (c.toNat - 'a'.toNat + 10)
  else if 'A' ≤ c && c ≤ 'F' then some (c.toNat - 'A'.toNat + 10)
  else none

/-- The character of a code, unless the code is a surrogate or too large. -/
def charOfCode? (code : Nat) : Option Char :=
  if (0xD800 ≤ code && code ≤ 0xDFFF) || 0x10FFFF < code then none else some (Char.ofNat code)

/-- Whether a document marker stands here at the start of a word. -/
def markerStartsWord (gap : Gap) (gs : List Glyph) : Bool :=
  match gap with
  | .none => false
  | _ => isDocumentMarker gs

/-- The rest of a single-quoted scalar; `gap` and `chars` are what has been read of it, last characters
first. -/
def singleQuoted (gap : Gap) (chars : List Char) : List Glyph → Except Malformed Scanned
  | [] => .error .unclosedQuote
  | g :: rest =>
    if isBlank g.char then singleQuoted (gap.blank g.char) chars rest
    else if isBreak g.char then singleQuoted (gap.lineBreak (breakChar g.char)) chars rest
    else if markerStartsWord gap (g :: rest) then .error .markerInQuotes
    else
      let chars := gap.fill ++ chars
      if g.char == '\'' then
        match rest with
        | q :: rest' =>
          if q.char == '\'' then singleQuoted .none ('\'' :: chars) rest'
          else .ok { text := String.ofList chars.reverse, rest := q :: rest' }
        | [] => .ok { text := String.ofList chars.reverse, rest := [] }
      else singleQuoted .none (g.char :: chars) rest

/-- Where a reader of a double-quoted scalar stands. -/
inductive EscapeState where
  /-- Not in an escape. -/
  | none
  /-- After a backslash. -/
  | started
  /-- In a code of which so many digits are to come, with the value of those read. -/
  | code (digits value : Nat)
  deriving Repr, Inhabited

/-- The rest of a double-quoted scalar; `gap`, `chars` and `escape` are what has been read of it, last
characters first. -/
def doubleQuoted (gap : Gap) (chars : List Char) (escape : EscapeState) :
    List Glyph → Except Malformed Scanned
  | [] => .error .unclosedQuote
  | g :: rest =>
    match escape with
    | .started =>
      if isBreak g.char then doubleQuoted (.breaks .none []) chars .none rest
      else match escaped? g.char, codeLength? g.char with
        | some c, _ => doubleQuoted .none (c :: chars) .none rest
        | none, some n => doubleQuoted .none chars (.code n 0) rest
        | none, none => .error .badEscape
    | .code digits value =>
      match hexDigit? g.char with
      | none => .error .badEscape
      | some d =>
        let value := value * 16 + d
        if digits ≤ 1 then
          match charOfCode? value with
          | some c => doubleQuoted .none (c :: chars) .none rest
          | none => .error .badEscape
        else doubleQuoted .none chars (.code (digits - 1) value) rest
    | .none =>
      if isBlank g.char then doubleQuoted (gap.blank g.char) chars .none rest
      else if isBreak g.char then doubleQuoted (gap.lineBreak (breakChar g.char)) chars .none rest
      else if markerStartsWord gap (g :: rest) then .error .markerInQuotes
      else
        let chars := gap.fill ++ chars
        if g.char == '"' then .ok { text := String.ofList chars.reverse, rest }
        else if g.char == '\\' then doubleQuoted .none chars .started rest
        else doubleQuoted .none (g.char :: chars) .none rest

end TreeScript.Document
