/-!
# Blank characters

## Main definitions

* `Text.isBlank` — the characters of Unicode that separate words or lines.
* `Text.trim` — a text without the blanks at its ends.
-/

namespace TreeScript.Text

/-- Whether a character is white space: the six of ASCII, the two controls and spaces of Latin-1 and
the spaces and separators beyond. -/
def isBlank (c : Char) : Bool :=
  let n := c.toNat
  (0x09 ≤ n && n ≤ 0x0D) || n == 0x20 || n == 0x85 || n == 0xA0 || n == 0x1680 ||
    (0x2000 ≤ n && n ≤ 0x200A) || n == 0x2028 || n == 0x2029 || n == 0x202F || n == 0x205F ||
    n == 0x3000

/-- The text without the blanks before its first and after its last other character. -/
def trim (s : String) : String :=
  String.ofList ((s.toList.dropWhile isBlank).reverse.dropWhile isBlank).reverse

end TreeScript.Text
