/-!
# Texts

The texts that programs name things by and print are rows of characters.  A text that was given as
binary data may also hold bytes that belong to no character; they are kept as they are, so that two
texts are the same only if all their bytes are.

## Main definitions

* `Symbol` — a character, or a byte that is no part of one.
* `Text` — a row of symbols.
* `Text.ofString`, `Text.shown` — the text of a string, and a string for a text.
* `Text.bytes` — the bytes of a text.
* `Text.join`, `Text.line` — texts in a row, and a text that ends a line.
-/

namespace TreeScript

/-- A place in a text. -/
inductive Symbol where
  /-- A character. -/
  | char (c : Char)
  /-- A byte that is no part of a character. -/
  | stray (b : UInt8)
  deriving DecidableEq, Repr, Inhabited

/-- A row of characters, and of bytes that belong to none. -/
abbrev Text : Type := List Symbol

/-- The bytes of a symbol. -/
def Symbol.bytes : Symbol → List UInt8
  | .char c => String.utf8EncodeChar c
  | .stray b => [b]

/-- The character that a symbol is shown as: a byte that belongs to no character shows as the character
for what cannot be shown. -/
def Symbol.shown : Symbol → Char
  | .char c => c
  | .stray _ => '\ufffd'

namespace Text

/-- The text of a string. -/
def ofString (s : String) : Text :=
  s.toList.map .char

instance : Coe String Text := ⟨ofString⟩

/-- The string that a text is shown as. -/
def shown (t : Text) : String :=
  String.ofList (t.map Symbol.shown)

/-- The bytes of a text. -/
def bytes (t : Text) : List UInt8 :=
  t.flatMap Symbol.bytes

/-- Texts in a row, with a separator between any two. -/
def join (separator : Text) (texts : List Text) : Text :=
  List.intercalate separator texts

/-- A text that ends a line. -/
def line (t : Text) : Text :=
  t ++ "\n"

end Text

end TreeScript
