/-!
# Base 64

Three bytes are written as four letters of six bits each; padding fills the last group up.

## Main definitions

* `decodeBase64` — the bytes of a text in base 64; line breaks in it do not count.
-/

namespace TreeScript.Text

/-- The six bits of a letter. -/
def sextet? (c : Char) : Option Nat :=
  if 'A' ≤ c && c ≤ 'Z' then some (c.toNat - 'A'.toNat)
  else if 'a' ≤ c && c ≤ 'z' then some (c.toNat - 'a'.toNat + 26)
  else if '0' ≤ c && c ≤ '9' then some (c.toNat - '0'.toNat + 52)
  else if c == '+' then some 62
  else if c == '/' then some 63
  else none

/-- The bytes of groups of four letters; only the last group may be padded. -/
def decodeGroups : List Char → Option (List UInt8)
  | [] => some []
  | [a, b, '=', '='] => do
    let n := (← sextet? a) * 64 + (← sextet? b)
    return [(n / 16).toUInt8]
  | [a, b, c, '='] => do
    let n := ((← sextet? a) * 64 + (← sextet? b)) * 64 + (← sextet? c)
    return [(n / 1024).toUInt8, (n / 4).toUInt8]
  | a :: b :: c :: d :: rest => do
    let n := (((← sextet? a) * 64 + (← sextet? b)) * 64 + (← sextet? c)) * 64 + (← sextet? d)
    let bytes ← decodeGroups rest
    return (n / 65536).toUInt8 :: (n / 256).toUInt8 :: n.toUInt8 :: bytes
  | _ => none

/-- The bytes of a text in base 64, if it is one. -/
def decodeBase64 (text : String) : Option (List UInt8) :=
  decodeGroups (text.toList.filter fun c => c != '\n' && c != '\r')

end TreeScript.Text
