import TreeScript.Text.Printable
import TreeScript.Text.Symbol

/-!
# Quoted text

A text is quoted by double quotes around it.  Printable characters stand for themselves, the quote
and the backslash are escaped by a backslash, and every other character is written by a short
escape or by its code in hexadecimal, as is a byte that belongs to no character.

## Main definitions

* `Text.hex` — a number in lower-case hexadecimal digits of a given width.
* `Text.escape`, `Text.escapeSymbol` — how one character and one symbol are written between quotes.
* `Text.quoted` — a text between quotes.
-/

namespace TreeScript.Text

/-- The number `n` in lower-case hexadecimal, with zeros in front up to `width` digits. -/
def hex (width n : Nat) : String :=
  let digits := Nat.toDigits 16 n
  String.ofList (List.replicate (width - digits.length) '0' ++ digits)

/-- The way `c` is written between double quotes. -/
def escape (c : Char) : String :=
  if c = '"' ∨ c = '\\' then String.ofList ['\\', c]
  else if isPrintable c then String.singleton c
  else match c.toNat with
    | 0x07 => "\\a"
    | 0x08 => "\\b"
    | 0x09 => "\\t"
    | 0x0A => "\\n"
    | 0x0B => "\\v"
    | 0x0C => "\\f"
    | 0x0D => "\\r"
    | n =>
      if n < 0x20 ∨ n = 0x7F then "\\x" ++ hex 2 n
      else if n < 0x10000 then "\\u" ++ hex 4 n
      else "\\U" ++ hex 8 n

/-- The way a symbol is written between double quotes. -/
def escapeSymbol : Symbol → String
  | .char c => escape c
  | .stray b => "\\x" ++ hex 2 b.toNat

/-- The text `t` between double quotes. -/
def quoted (t : Text) : String :=
  "\"" ++ String.join (t.map escapeSymbol) ++ "\""

end TreeScript.Text
