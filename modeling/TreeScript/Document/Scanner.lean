import TreeScript.Document.Between
import TreeScript.Document.Property

/-!
# The tokens of a document

Indentation and keys make the division into tokens depend on what came before.  An indented collection
starts where a line is indented further than its surroundings and ends where a later one is not.  A key is
recognised only by the colon after it: the scanner remembers where a key may have started and puts the
token before it once the colon is found.

Tokens are read on demand.  The scanner stays three tokens ahead, and further as long as the next token may
turn out to start a key.  What it never gets to may be anything.  Brackets in which no key can start are not
waited for once they are closed; a colon that comes too late for them puts its key in the wrong place.

## Main definitions

* `KeyCandidate`, `KeyLevel` — places where keys may have started.
* `Scanner` — the state between two tokens.
* `Scanner.step` — reads a token, with the tokens of collections that start or end before it.
* `Scanner.advance` — reads as far ahead as it takes to know the next token.
-/

namespace TreeScript.Document

/-- A place where a key may have started. -/
structure KeyCandidate where
  /-- Whether nothing but a key may stand there. -/
  required : Bool
  /-- The number of tokens before it in the whole text. -/
  token : Nat
  /-- The place itself. -/
  start : Glyph
  /-- Whether the scanner reads ahead of the token to find its colon. -/
  awaited : Bool := true
  deriving Repr, Inhabited

/-- What is known about keys inside the same brackets. -/
structure KeyLevel where
  /-- Where a key may have started. -/
  candidate : Option KeyCandidate := none
  /-- The number of the last token with which a key may have started, at first that of the bracket. -/
  lastStart : Nat := 0
  deriving Repr, Inhabited

/-- The keys around brackets that are closed, in which the last key may have started with token `number`. -/
def KeyLevel.closing (level : KeyLevel) (number : Nat) : KeyLevel :=
  { level with
    candidate := level.candidate.map fun k => { k with awaited := k.awaited && k.token != number } }

/-- The state between two tokens. -/
structure Scanner where
  /-- What has not been read. -/
  rest : List Glyph
  /-- The place of the end of the text. -/
  stop : Glyph
  /-- What has been read to get there. -/
  window : Window
  /-- The tokens that wait to be taken. -/
  tokens : List Token := []
  /-- The number of tokens that have been taken. -/
  taken : Nat := 0
  /-- The columns of the indented collections around, the innermost first. -/
  indents : List Nat := []
  /-- The keys inside the innermost brackets. -/
  level : KeyLevel := {}
  /-- The keys around the brackets that are open, the innermost first. -/
  outer : List KeyLevel := []
  /-- Whether a key may start here. -/
  keyAllowed : Bool := true
  /-- Whether the end of the text has been reached. -/
  finished : Bool := false
  deriving Inhabited

/-- The greatest depth of brackets, and of indented collections. -/
def depthLimit : Nat := 10000

/-- The longest distance between the start of a key and its colon. -/
def keyLength : Nat := 1024

namespace Scanner

/-- Whether brackets are open. -/
def inFlow (s : Scanner) : Bool :=
  !s.outer.isEmpty

/-- The place that has been reached. -/
def here (s : Scanner) : Glyph :=
  s.rest.headD s.stop

/-- The number of tokens so far. -/
def count (s : Scanner) : Nat :=
  s.taken + s.tokens.length

/-- Puts a token before the tokens from number `index` on; if that one has been taken already, the token
comes last. -/
def insert (s : Scanner) (index : Nat) (t : Token) : Scanner :=
  if index < s.taken then { s with tokens := s.tokens ++ [t] }
  else { s with tokens := s.tokens.insertIdx (index - s.taken) t }

/-- Adds a token at the place that has been reached. -/
def push (s : Scanner) (kind : TokenKind) : Scanner :=
  { s with tokens := s.tokens ++ [⟨kind, s.here.line⟩] }

/-- Adds a token and goes on with what follows it. -/
def emitBare (s : Scanner) (kind : TokenKind) (rest : List Glyph) : Scanner :=
  { s.push kind with rest }

/-- Adds a token and goes on with what follows it and a comment on its line. -/
def emit (s : Scanner) (kind : TokenKind) (rest : List Glyph) : Scanner :=
  s.emitBare kind (skipComment rest)

/-- Ends the indented collections that a condition on their columns selects. -/
def closeBlocks (s : Scanner) (closes : Nat → Bool) : Scanner :=
  if s.inFlow then s
  else
    let closed := (s.indents.takeWhile closes).length
    { s with
      tokens := s.tokens ++ List.replicate closed ⟨.blockEnd, s.here.line⟩
      indents := s.indents.drop closed }

/-- Whether a column is indented further than the surroundings. -/
def isDeeper (s : Scanner) (column : Nat) : Bool :=
  match s.indents with
  | n :: _ => n < column
  | [] => true

/-- Starts an indented collection at a column that is indented further than the surroundings; its token
goes before the tokens from number `index` on. -/
def openBlock (s : Scanner) (column index : Nat) (kind : TokenKind) (line : Nat) :
    Except Malformed Scanner :=
  if s.inFlow || !s.isDeeper column then .ok s
  else if depthLimit ≤ s.indents.length then .error .tooDeep
  else .ok { s.insert index ⟨kind, line⟩ with indents := column :: s.indents }

/-- Forgets where a key may have started. -/
def forgetCandidate (s : Scanner) : Scanner :=
  { s with level := { s.level with candidate := none } }

/-- Forgets where a key may have started, unless there must be one. -/
def dropCandidate (s : Scanner) : Except Malformed Scanner :=
  match s.level.candidate with
  | some k => if k.required then .error .missingColon else .ok s.forgetCandidate
  | none => .ok s

/-- Remembers that a key may start at a character. -/
def saveCandidate (s : Scanner) (g : Glyph) : Except Malformed Scanner := do
  if s.keyAllowed then
    let s ← s.dropCandidate
    let required := !s.inFlow && s.indents.head? == some g.column
    return { s with level := ⟨some { required, token := s.count, start := g }, s.count⟩ }
  else return s

/-- The place where a key may have started, if a colon here is near enough to it. -/
def nearEnough (s : Scanner) (candidate : Option KeyCandidate) :
    Except Malformed (Option KeyCandidate) :=
  match candidate with
  | none => .ok none
  | some k =>
    if k.start.line == s.here.line && s.here.index ≤ k.start.index + keyLength then .ok (some k)
    else if k.required then .error .missingColon
    else .ok none

/-! ### Single tokens -/

/-- The end of the text. -/
def streamEnd (s : Scanner) : Except Malformed Scanner := do
  let s ← (s.closeBlocks fun _ => true).dropCandidate
  return { s.push .streamEnd with finished := true, keyAllowed := false }

/-- Ends everything that a directive or a document marker ends. -/
def endContent (s : Scanner) : Except Malformed Scanner := do
  let s ← (s.closeBlocks fun _ => true).dropCandidate
  return { s with keyAllowed := false }

/-- An opening bracket. -/
def flowStart (s : Scanner) (g : Glyph) (kind : TokenKind) (rest : List Glyph) :
    Except Malformed Scanner := do
  let s ← s.saveCandidate g
  if depthLimit ≤ s.outer.length then throw .tooDeep
  return { s.emit kind rest with
    level := { lastStart := s.count }
    outer := s.level :: s.outer
    keyAllowed := true }

/-- A closing bracket. -/
def flowEnd (s : Scanner) (kind : TokenKind) (rest : List Glyph) : Except Malformed Scanner := do
  let s ← s.dropCandidate
  let s := { s.emit kind rest with keyAllowed := false }
  match s.outer with
  | around :: outer => return { s with level := around.closing s.level.lastStart, outer }
  | [] => return s

/-- A comma between brackets. -/
def flowEntry (s : Scanner) (rest : List Glyph) : Except Malformed Scanner := do
  let s ← s.dropCandidate
  return { s.emit .flowEntry rest with keyAllowed := true }

/-- The sign before an entry of an indented sequence. -/
def blockEntry (s : Scanner) (g : Glyph) (rest : List Glyph) : Except Malformed Scanner := do
  if !s.inFlow && !s.keyAllowed then throw .misplacedEntry
  let s ← s.openBlock g.column s.count .blockSequenceStart g.line
  let s ← s.dropCandidate
  return { s.emitBare .blockEntry rest with keyAllowed := true }

/-- The sign before a key. -/
def explicitKey (s : Scanner) (g : Glyph) (rest : List Glyph) : Except Malformed Scanner := do
  if !s.inFlow && !s.keyAllowed then throw .misplacedKey
  let s ← s.openBlock g.column s.count .blockMappingStart g.line
  let s ← s.dropCandidate
  return { s.emit .key rest with keyAllowed := !s.inFlow }

/-- The sign before a value.  If it ends a key, the token for the key goes before that. -/
def value (s : Scanner) (g : Glyph) (rest : List Glyph) : Except Malformed Scanner := do
  match ← s.nearEnough s.level.candidate with
  | some k =>
    let s := s.insert k.token ⟨.key, k.start.line⟩
    let s ← s.openBlock k.start.column k.token .blockMappingStart k.start.line
    return { s.forgetCandidate.emit .value rest with keyAllowed := false }
  | none =>
    if !s.inFlow && !s.keyAllowed then throw .misplacedValue
    let s ← s.openBlock g.column s.count .blockMappingStart g.line
    return { s.forgetCandidate.emit .value rest with keyAllowed := !s.inFlow }

/-- An anchor, an alias or a tag. -/
def property (s : Scanner) (g : Glyph) (read : Except Malformed (TokenKind × List Glyph)) :
    Except Malformed Scanner := do
  let s ← s.saveCandidate g
  let (kind, rest) ← read
  return { s.emit kind rest with keyAllowed := false }

/-- The least column of the further lines of a plain scalar. -/
def plainColumn (s : Scanner) : Int :=
  match s.indents with
  | n :: _ => n + 1
  | [] => 0

/-- What has been read once the words of a scalar before `rest` are passed.  A plain scalar is over only when
what follows is no further word of it, and that takes as much as to know a word. -/
def passWords (s : Scanner) (plain : Bool) (words rest : List Glyph) : Window :=
  let last := rest.headD s.stop
  let window := s.window.reach (words.headD s.stop) ((words.headD s.stop).index + 4)
  let window := window.pass true false last words
  if plain then
    let goesOn := s.inFlow || s.plainColumn ≤ last.column
    window.reach last (last.index + if goesOn then 4 else 1)
  else window

/-- A scalar that may be a key. -/
def scalar (s : Scanner) (g : Glyph) (plain : Bool) (words : List Glyph)
    (read : List Glyph → Except Malformed Scanned) : Except Malformed Scanner := do
  let s ← s.saveCandidate g
  let scanned ← read words
  let s := { s with window := s.passWords plain words scanned.rest }
  let kind := TokenKind.scalar scanned.text plain
  if scanned.brokeLine then return { s.emitBare kind scanned.rest with keyAllowed := true }
  else return { s.emit kind scanned.rest with keyAllowed := false }

/-- A block scalar, which is no key. -/
def block (s : Scanner) (literal : Bool) (rest : List Glyph) : Except Malformed Scanner := do
  let s ← s.dropCandidate
  let scanned ← blockScalar literal s.indents.head? rest
  return { s.emitBare (.scalar scanned.text false) scanned.rest with keyAllowed := true }

/-- Whether a plain scalar can start with `c` before `next`. -/
def startsPlain (s : Scanner) (c next : Char) : Bool :=
  !(isBoundary c || "-?:,[]\x7b\x7d#&*!|>'\"%@`".toList.contains c) ||
    (c == '-' && !isBlank next) ||
    (!s.inFlow && (c == '?' || c == ':') && !isBoundary next)

/-- Reads the token at the character `g`. -/
def token (s : Scanner) (g : Glyph) (rest : List Glyph) : Except Malformed Scanner := do
  let next := peek rest 0
  let boundary := isBoundary next
  if g.column == 0 && g.char == '%' then
    let s ← s.endContent
    let (kind, rest) ← directive rest
    return s.emitBare kind rest
  else if isMarker '-' s.rest then return (← s.endContent).emitBare .documentStart (s.rest.drop 3)
  else if isMarker '.' s.rest then return (← s.endContent).emitBare .documentEnd (s.rest.drop 3)
  else if g.char == '[' then s.flowStart g .flowSequenceStart rest
  else if g.char == '\x7b' then s.flowStart g .flowMappingStart rest
  else if g.char == ']' then s.flowEnd .flowSequenceEnd rest
  else if g.char == '\x7d' then s.flowEnd .flowMappingEnd rest
  else if g.char == ',' then s.flowEntry rest
  else if g.char == '-' && boundary then s.blockEntry g rest
  else if g.char == '?' && (s.inFlow || boundary) then s.explicitKey g rest
  else if g.char == ':' && (s.inFlow || boundary) then s.value g rest
  else if g.char == '*' then
    s.property g ((anchorName rest).map fun (name, rest) => (.alias name, rest))
  else if g.char == '&' then
    s.property g ((anchorName rest).map fun (name, rest) => (.anchor name, rest))
  else if g.char == '!' then s.property g (tagToken rest)
  else if g.char == '|' && !s.inFlow then s.block true rest
  else if g.char == '>' && !s.inFlow then s.block false rest
  else if g.char == '\'' then s.scalar g false rest (singleQuoted .none [])
  else if g.char == '"' then s.scalar g false rest (doubleQuoted .none [] .none)
  else if s.startsPlain g.char next then
    s.scalar g true (g :: rest) (plainScalar s.inFlow s.plainColumn .none [])
  else throw .strayCharacter

/-- Asks for so many of the next characters. -/
def see (s : Scanner) (n : Nat) : Except Malformed Scanner :=
  let window := s.window.reach s.here (s.here.index + n)
  if window.spoiled then .error .controlCharacter else .ok { s with window }

/-- Reads a token, with the ends of the collections that it is not indented enough for.  To know a token
takes four characters, and one more is looked at after it. -/
def step (s : Scanner) : Except Malformed Scanner := do
  let s ← s.see 1
  let divided := skipBetween s.inFlow s.keyAllowed .start s.window s.rest
  let s := { s with rest := divided.rest, keyAllowed := divided.keyAllowed, window := divided.window }
  let s ← s.see 4
  match s.rest with
  | [] => s.streamEnd
  | g :: rest =>
    let s ← (s.closeBlocks (g.column < ·)).token g rest
    { s with window := s.window.pass false false s.here rest }.see 1

/-! ### Reading on demand -/

/-- How many more brackets are opened than closed by tokens. -/
def openedBy (tokens : List Token) : Int :=
  (tokens.map fun t => match t.kind with
    | .flowSequenceStart | .flowMappingStart => (1 : Int)
    | .flowSequenceEnd | .flowMappingEnd => -1
    | _ => 0).foldr (· + ·) 0

/-- The place where a key may have started with the next token. -/
def headCandidate (s : Scanner) : Option KeyCandidate :=
  let level := openedBy s.tokens
  let keys := if level == 0 then s.level else (s.outer.drop (level.toNat - 1)).headD {}
  keys.candidate.filter fun k => k.token == s.taken && k.awaited

/-- Whether the next token is known. -/
def knowsNext (s : Scanner) : Except Malformed Bool :=
  if s.finished then .ok true
  else
    match s.tokens with
    | _ :: _ :: _ :: _ => (s.nearEnough s.headCandidate).map (·.isNone)
    | _ => .ok false

/-- Reads as far ahead as it takes to know the next token.  Every step takes a character away, so the number
of characters and one is enough fuel. -/
def advance (fuel : Nat) (s : Scanner) : Except Malformed Scanner := do
  match fuel with
  | 0 => return s
  | fuel + 1 => if ← s.knowsNext then return s else (← s.step).advance fuel

/-- Takes the next token away. -/
def take (s : Scanner) : Scanner :=
  { s with tokens := s.tokens.drop 1, taken := s.taken + 1 }

/-- The scanner at the start of a text. -/
def ofSource (source : Source) : Scanner :=
  { rest := source.glyphs, stop := source.stop, window := .ofSource source }

end Scanner

end TreeScript.Document
