import TreeScript.Document.BlockScalar
import TreeScript.Document.QuotedScalar
import TreeScript.Document.Token
import TreeScript.Text.Utf8

/-!
# Anchors, tags and directives

## Main definitions

* `anchorName` — the name of an anchor or alias, from after its sign.
* `tagToken` — a tag, from after its sign.
* `directive` — a directive, from after its sign to the end of its line.
-/

namespace TreeScript.Document

/-- Whether a character may stand in a name. -/
def isNameChar (c : Char) : Bool :=
  isDigit c || ('a' ≤ c && c ≤ 'z') || ('A' ≤ c && c ≤ 'Z') || c == '_' || c == '-'

/-- The name of an anchor or alias; after it there must be a boundary or one of a few signs. -/
def anchorName (gs : List Glyph) : Except Malformed (String × List Glyph) :=
  let (name, rest) := takeText isNameChar gs
  let next := peek rest 0
  if name.isEmpty || !(isBoundary next || "?:,]\x7d%@`".toList.contains next) then .error .badAnchor
  else .ok (String.ofList name, rest)

/-! ### Tags -/

/-- Whether a character may stand in the address that a tag is. -/
def isAddressChar (c : Char) : Bool :=
  isNameChar c || ";/?:@&=+$,.!~*'()[]%".toList.contains c

/-- The number of bytes of the character that starts with a byte. -/
def byteCount? (lead : Nat) : Option Nat :=
  if lead < 0x80 then some 1
  else if 0xC0 ≤ lead && lead < 0xE0 then some 2
  else if 0xE0 ≤ lead && lead < 0xF0 then some 3
  else if 0xF0 ≤ lead && lead < 0xF8 then some 4
  else none

/-- The bytes of an address in which a percent sign and two digits stand for a byte.  Such bytes spell
whole characters: `pending` more of them are to come. -/
def addressBytes (pending : Nat) : List Char → Option (List UInt8)
  | [] => if pending == 0 then some [] else none
  | '%' :: a :: b :: rest => do
    let byte := (← hexDigit? a) * 16 + (← hexDigit? b)
    let pending ←
      if pending == 0 then (byteCount? byte).map (· - 1)
      else if 0x80 ≤ byte && byte < 0xC0 then some (pending - 1) else none
    let bytes ← addressBytes pending rest
    return byte.toUInt8 :: bytes
  | c :: rest => do
    if c == '%' || pending != 0 then none
    let bytes ← addressBytes 0 rest
    return (String.singleton c).toUTF8.toList ++ bytes

/-- Reads an address, which may be empty. -/
def address (gs : List Glyph) : Except Malformed (String × List Glyph) :=
  let (chars, rest) := takeText isAddressChar gs
  match addressBytes 0 chars with
  | some bytes => .ok (Text.shown (Text.ofBytes bytes), rest)
  | none => .error .badTag

/-- Reads an address with at least one character. -/
def someAddress (gs : List Glyph) : Except Malformed (String × List Glyph) :=
  if isAddressChar (peek gs 0) then address gs else .error .badTag

/-- Reads the part of a tag that may be a handle: names a `!` ends, or not. -/
def tagName (gs : List Glyph) : String × Bool × List Glyph :=
  let (name, rest) := takeText isNameChar gs
  if peek rest 0 == '!' then (String.ofList name, true, rest.drop 1)
  else (String.ofList name, false, rest)

/-- Reads a tag up to its end, without regard to what follows. -/
def tagParts (gs : List Glyph) : Except Malformed (TokenKind × List Glyph) := do
  if peek gs 0 == '<' then
    let (suffix, rest) ← someAddress (gs.drop 1)
    if peek rest 0 != '>' then throw .badTag
    return (.tag "" suffix, rest.drop 1)
  else
    let (name, isHandle, rest) := tagName gs
    if isHandle then
      let (suffix, rest) ← someAddress rest
      return (.tag ("!" ++ name ++ "!") suffix, rest)
    else
      let (suffix, rest) ← address rest
      let suffix := name ++ suffix
      if suffix.isEmpty then return (.tag "" "!", rest)
      else return (.tag "!" suffix, rest)

/-- A tag; after it there must be a boundary. -/
def tagToken (gs : List Glyph) : Except Malformed (TokenKind × List Glyph) := do
  let (tag, rest) ← tagParts gs
  if isBoundary (peek rest 0) then return (tag, rest) else throw .badTag

/-! ### Directives -/

/-- A number of at most two digits. -/
def versionNumber (gs : List Glyph) : Except Malformed (Nat × List Glyph) :=
  let (digits, rest) := takeText isDigit gs
  if digits.isEmpty || 2 < digits.length then .error .badDirective
  else .ok (digits.foldl (fun n c => n * 10 + (c.toNat - '0'.toNat)) 0, rest)

/-- The version that a document is written in. -/
def versionDirective (gs : List Glyph) : Except Malformed (TokenKind × List Glyph) := do
  let (major, rest) ← versionNumber (dropBlanks gs)
  if peek rest 0 != '.' then throw .badDirective
  let (minor, rest) ← versionNumber (rest.drop 1)
  return (.version major minor, rest)

/-- A handle for tags and the address it stands for. -/
def tagDirective (gs : List Glyph) : Except Malformed (TokenKind × List Glyph) := do
  let rest := dropBlanks gs
  if peek rest 0 != '!' then throw .badDirective
  let (name, isHandle, rest) := tagName (rest.drop 1)
  if !isHandle && !name.isEmpty then throw .badDirective
  if !isBlank (peek rest 0) then throw .badDirective
  let (start, rest) ← someAddress (dropBlanks rest)
  if !isBoundary (peek rest 0) then throw .badDirective
  return (.tagHandle (if isHandle then "!" ++ name ++ "!" else "!") start, rest)

/-- A directive and its line, on which only a comment may follow. -/
def directive (gs : List Glyph) : Except Malformed (TokenKind × List Glyph) := do
  let (name, rest) := takeText isNameChar gs
  if !isBoundary (peek rest 0) then throw .badDirective
  let (kind, rest) ←
    if name == "YAML".toList then versionDirective rest
    else if name == "TAG".toList then tagDirective rest
    else throw .badDirective
  let rest := dropBlanks rest
  let rest := if peek rest 0 == '#' then dropLine rest else rest
  if endsLine (peek rest 0) then return (kind, rest.drop 1) else throw .badDirective

end TreeScript.Document
