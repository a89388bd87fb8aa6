import TreeScript.Document.Meaning
import TreeScript.Document.Node
import TreeScript.Document.Scanner

/-!
# From tokens to nodes

The grammar of documents, read by recursive descent.  Parts that may be left out, such as the value after
a key, read as the empty scalar, which means nothing.

## Main definitions

* `Composing`, `Compose` — the scanner, the tag handles and the anchors.
* `compose` — the node that starts at the next token.
* `readDocument` — the first document of a text.
-/

namespace TreeScript.Document

/-- What the grammar carries along. -/
structure Composing where
  /-- The scanner that gives the tokens. -/
  scanner : Scanner
  /-- The number of steps that the scanner may take at once. -/
  reach : Nat
  /-- The beginnings of tags that handles stand for. -/
  handles : List (String × String) := [("!", "!"), ("!!", longTag)]
  /-- The nodes that have been named, last ones first. -/
  anchors : List (String × Node) := []

/-- A computation that reads tokens. -/
abbrev Compose := StateT Composing (Except Malformed)

namespace Compose

/-- The next token, which stays. -/
def next : Compose Token := do
  let s ← get
  let scanner ← s.scanner.advance s.reach
  set { s with scanner }
  return scanner.tokens.headD ⟨.streamEnd, scanner.stop.line⟩

/-- Leaves the next token out. -/
def skip : Compose Unit :=
  modify fun s => { s with scanner := s.scanner.take }

/-- Fails at the next token. -/
def unexpected {α : Type} : Compose α :=
  throw .unexpectedToken

/-- Whether the next token is one of the given ones. -/
def nextIsOneOf (kinds : List TokenKind) : Compose Bool := do
  return kinds.contains (← next).kind

/-- Leaves the next token out, which must be the given one. -/
def expect (kind : TokenKind) : Compose Unit := do
  if (← next).kind == kind then skip else unexpected

/-- Names a node. -/
def setAnchor (name : Option String) (node : Node) : Compose Unit :=
  match name with
  | some name => modify fun s => { s with anchors := (name, node) :: s.anchors }
  | none => pure ()

/-- Reads the content of a collection.  Its name counts from its start on, so inside the collection it
stands for one of the same kind without content. -/
def collection {α : Type} (name : Option String) (node : List α → Node) (content : Compose (List α)) :
    Compose Node := do
  let before := (← get).anchors.length
  setAnchor name (node [])
  let whole := node (← content)
  if let some name := name then
    modify fun s =>
      { s with anchors := s.anchors.set (s.anchors.length - 1 - before) (name, whole) }
  return whole

end Compose

/-- What stands before the content of a node. -/
structure Properties where
  /-- The line of the first property, or else of the content. -/
  line : Nat
  /-- The name of the node. -/
  anchor : Option String := none
  /-- The tag of the node, in full. -/
  tag : Option String := none

/-- The tag of a token in full. -/
def fullTag (handle suffix : String) : Compose String := do
  if handle.isEmpty then return suffix
  match (← get).handles.lookup handle with
  | some start => return start ++ suffix
  | none => throw .unknownTagHandle

/-- Reads an anchor and a tag, in either order; both may be missing. -/
def properties : Compose Properties := do
  let first ← Compose.next
  let found : Properties := { line := first.line }
  match first.kind with
  | .anchor name =>
    Compose.skip
    match (← Compose.next).kind with
    | .tag handle suffix =>
      Compose.skip
      return { found with anchor := some name, tag := some (← fullTag handle suffix) }
    | _ => return { found with anchor := some name }
  | .tag handle suffix =>
    Compose.skip
    match (← Compose.next).kind with
    | .anchor name =>
      Compose.skip
      return { found with anchor := some name, tag := some (← fullTag handle suffix) }
    | _ => return { found with tag := some (← fullTag handle suffix) }
  | _ => return found

/-- The tag of a node: the one given, unless it is the sign `!` alone, which leaves it open. -/
def Properties.tagOr (p : Properties) (default : String) : String :=
  match p.tag with
  | some tag => if tag == "!" then default else shortTag tag
  | none => default

/-- The tag of a scalar to which no tag is given. -/
def openTag (text : String) (plain : Bool) : String :=
  if !plain then "!!str"
  else if text == mergeText then mergeTag
  else (resolve text).tag

/-- The scalar that stands where nothing is written. -/
def emptyScalar (line : Nat) : Node :=
  .scalar (line + 1) "!!null" ""

mutual

/-- Reads a node.  Only in `block` position may it be an indented collection, and only in `indentless`
position a sequence that is not indented further than its surroundings. -/
def compose (fuel : Nat) (block indentless : Bool) : Compose Node := do
  match fuel with
  | 0 => throw .tooDeep
  | fuel + 1 =>
    let first ← Compose.next
    match first.kind with
    | .alias name =>
      Compose.skip
      match (← get).anchors.lookup name with
      | some target => return .alias (first.line + 1) name target
      | none => throw (.unknownAnchor name)
    | _ =>
      let props ← properties
      let line := props.line + 1
      let sequenceNode := Node.sequence line (props.tagOr "!!seq")
      let mappingNode := Node.mapping line (props.tagOr "!!map")
      match (← Compose.next).kind with
      | .scalar text plain =>
        Compose.skip
        let node := Node.scalar line (props.tagOr (openTag text plain)) text
        Compose.setAnchor props.anchor node
        return node
      | .flowSequenceStart =>
        Compose.skip
        Compose.collection props.anchor sequenceNode (composeFlowItems fuel true)
      | .flowMappingStart =>
        Compose.skip
        Compose.collection props.anchor mappingNode (composeFlowEntries fuel true)
      | kind =>
        if indentless && kind == .blockEntry then
          Compose.collection props.anchor sequenceNode (composeIndentlessItems fuel)
        else if block && kind == .blockSequenceStart then
          Compose.skip
          Compose.collection props.anchor sequenceNode (composeBlockItems fuel)
        else if block && kind == .blockMappingStart then
          Compose.skip
          Compose.collection props.anchor mappingNode (composeBlockEntries fuel)
        else if props.anchor.isSome || props.tag.isSome then
          let node := Node.scalar line (props.tagOr (openTag "" true)) ""
          Compose.setAnchor props.anchor node
          return node
        else Compose.unexpected

/-- Reads a node unless one of the given tokens follows; then it is empty. -/
def composeUnless (fuel : Nat) (ends : List TokenKind) (block indentless : Bool) (line : Nat) :
    Compose Node := do
  match fuel with
  | 0 => throw .tooDeep
  | fuel + 1 =>
    if ← Compose.nextIsOneOf ends then return emptyScalar line
    else compose fuel block indentless

/-- Reads the items of an indented sequence and its end. -/
def composeBlockItems (fuel : Nat) : Compose (List Node) := do
  match fuel with
  | 0 => throw .tooDeep
  | fuel + 1 =>
    let token ← Compose.next
    if token.kind == .blockEntry then
      Compose.skip
      let item ← composeUnless fuel [.blockEntry, .blockEnd] true false token.line
      return item :: (← composeBlockItems fuel)
    else
      Compose.expect .blockEnd
      return []

/-- Reads the items of a sequence that is not indented further than its surroundings. -/
def composeIndentlessItems (fuel : Nat) : Compose (List Node) := do
  match fuel with
  | 0 => throw .tooDeep
  | fuel + 1 =>
    let token ← Compose.next
    if token.kind == .blockEntry then
      Compose.skip
      let item ← composeUnless fuel [.blockEntry, .key, .value, .blockEnd] true false token.line
      return item :: (← composeIndentlessItems fuel)
    else return []

/-- Reads the entries of an indented mapping and its end. -/
def composeBlockEntries (fuel : Nat) : Compose (List Entry) := do
  match fuel with
  | 0 => throw .tooDeep
  | fuel + 1 =>
    let token ← Compose.next
    if token.kind == .key then
      Compose.skip
      let ends : List TokenKind := [.key, .value, .blockEnd]
      let key ← composeUnless fuel ends true true token.line
      let colon ← Compose.next
      if colon.kind == .value then
        Compose.skip
        let value ← composeUnless fuel ends true true colon.line
        return .mk key value :: (← composeBlockEntries fuel)
      else return .mk key (emptyScalar colon.line) :: (← composeBlockEntries fuel)
    else
      Compose.expect .blockEnd
      return []

/-- Reads the items of a sequence in brackets and the closing one.  A key makes an item a mapping of one
entry. -/
def composeFlowItems (fuel : Nat) (first : Bool) : Compose (List Node) := do
  match fuel with
  | 0 => throw .tooDeep
  | fuel + 1 =>
    if (← Compose.next).kind == .flowSequenceEnd then
      Compose.skip
      return []
    else
      if !first then Compose.expect .flowEntry
      let token ← Compose.next
      if token.kind == .key then
        Compose.skip
        let entry ← composeSingleEntry fuel
        let item := Node.mapping (token.line + 1) "!!map" [entry]
        return item :: (← composeFlowItems fuel false)
      else if token.kind == .flowSequenceEnd then
        Compose.skip
        return []
      else
        let item ← compose fuel false false
        return item :: (← composeFlowItems fuel false)

/-- Reads the entry of a mapping that is an item of a sequence in brackets.  Where its key is empty, the
sign that shows it is passed over. -/
def composeSingleEntry (fuel : Nat) : Compose Entry := do
  match fuel with
  | 0 => throw .tooDeep
  | fuel + 1 =>
    let token ← Compose.next
    let key ←
      if ← Compose.nextIsOneOf [.value, .flowEntry, .flowSequenceEnd] then
        Compose.skip
        pure (emptyScalar token.line)
      else compose fuel false false
    return .mk key (← composeFlowValue fuel .flowSequenceEnd)

/-- Reads the value of an entry between brackets that the given token closes. -/
def composeFlowValue (fuel : Nat) (close : TokenKind) : Compose Node := do
  match fuel with
  | 0 => throw .tooDeep
  | fuel + 1 =>
    let token ← Compose.next
    if token.kind == .value then
      Compose.skip
      composeUnless fuel [.flowEntry, close] false false token.line
    else return emptyScalar token.line

/-- Reads the entries of a mapping in braces and the closing one. -/
def composeFlowEntries (fuel : Nat) (first : Bool) : Compose (List Entry) := do
  match fuel with
  | 0 => throw .tooDeep
  | fuel + 1 =>
    if (← Compose.next).kind == .flowMappingEnd then
      Compose.skip
      return []
    else
      if !first then Compose.expect .flowEntry
      let token ← Compose.next
      if token.kind == .key then
        Compose.skip
        let after ← Compose.next
        let key ← composeUnless fuel [.value, .flowEntry, .flowMappingEnd] false false after.line
        let value ← composeFlowValue fuel .flowMappingEnd
        return .mk key value :: (← composeFlowEntries fuel false)
      else if token.kind == .flowMappingEnd then
        Compose.skip
        return []
      else
        let key ← compose fuel false false
        let after ← Compose.next
        return .mk key (emptyScalar after.line) :: (← composeFlowEntries fuel false)

end

/-! ### Documents -/

/-- Reads the directives before a document; the version must be 1.1, and nothing is declared twice. -/
def composeDirectives (fuel : Nat) (versionSeen : Bool) (declared : List (String × String)) :
    Compose (List (String × String)) := do
  match fuel with
  | 0 => throw .tooDeep
  | fuel + 1 =>
    match (← Compose.next).kind with
    | .version major minor =>
      if versionSeen || major != 1 || minor != 1 then throw .badDirective
      Compose.skip
      composeDirectives fuel true declared
    | .tagHandle handle start =>
      if (declared.lookup handle).isSome then throw .badDirective
      Compose.skip
      composeDirectives fuel versionSeen (declared ++ [(handle, start)])
    | _ => return declared

/-- Reads the first document, if there is one, and looks at the token after it. -/
def composeDocument (fuel : Nat) : Compose (Option Node) := do
  let first ← Compose.next
  match first.kind with
  | .streamEnd => return none
  | .version .. | .tagHandle .. | .documentStart =>
    let declared ← composeDirectives fuel false []
    modify fun s => { s with handles := declared ++ s.handles }
    Compose.expect .documentStart
    let content ← Compose.next
    match content.kind with
    | .version .. | .tagHandle .. | .documentStart | .documentEnd | .streamEnd =>
      return some (emptyScalar content.line)
    | _ => root
  | _ => root
where
  /-- Reads the root of the document. -/
  root : Compose (Option Node) := do
    let node ← compose fuel true false
    let _ ← Compose.next
    return some node

/-- The first document of a text, if the text holds one.  Every character makes at most six tokens, and a
token takes part in at most three steps of the grammar, so twenty times their number is enough fuel. -/
def readDocument (text : String) : Except Malformed (Option Node) := do
  let source := Source.ofText text
  let length := source.glyphs.length
  let start : Composing := { scanner := .ofSource source, reach := length + 1 }
  let (node, _) ← (composeDocument (20 * (length + 2))).run start
  return node

end TreeScript.Document
