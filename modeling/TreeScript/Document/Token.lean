/-!
# Tokens

## Main definitions

* `TokenKind`, `Token` — the words of a document, with the lines they start on.
-/

namespace TreeScript.Document

/-- What a token is. -/
inductive TokenKind where
  /-- The version of the format that a document is written in. -/
  | version (major minor : Nat)
  /-- A short name for the beginning of tags. -/
  | tagHandle (handle start : String)
  /-- The marker of the start of a document. -/
  | documentStart
  /-- The marker of the end of a document. -/
  | documentEnd
  /-- The end of the text. -/
  | streamEnd
  /-- An indented sequence starts. -/
  | blockSequenceStart
  /-- An indented mapping starts. -/
  | blockMappingStart
  /-- An indented sequence or mapping ends. -/
  | blockEnd
  /-- The sign `[`. -/
  | flowSequenceStart
  /-- The sign `]`. -/
  | flowSequenceEnd
  /-- An opening brace. -/
  | flowMappingStart
  /-- A closing brace. -/
  | flowMappingEnd
  /-- The sign `-` before an entry. -/
  | blockEntry
  /-- The sign `,`. -/
  | flowEntry
  /-- A key follows. -/
  | key
  /-- A value follows. -/
  | value
  /-- A node named by an anchor before. -/
  | alias (name : String)
  /-- A name for the node that follows. -/
  | anchor (name : String)
  /-- A type for the node that follows; without a handle the suffix is all of it. -/
  | tag (handle suffix : String)
  /-- A scalar, plain or not. -/
  | scalar (text : String) (plain : Bool)
  deriving DecidableEq, Repr, Inhabited

/-- A token and the line it starts on, counted from zero. -/
structure Token where
  /-- What it is. -/
  kind : TokenKind
  /-- The line it starts on. -/
  line : Nat
  deriving DecidableEq, Repr, Inhabited

end TreeScript.Document
