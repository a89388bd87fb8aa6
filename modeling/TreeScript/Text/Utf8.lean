import TreeScript.Text.Symbol

/-!
# Reading bytes as text

## Main definitions

* `Text.ofBytes` — the text of bytes, in which every byte that is no part of a character stands for itself.
-/

namespace TreeScript.Text

/-- The six low bits of a byte that continues a character. -/
def continuation? (b : UInt8) : Option Nat :=
  if 0x80 ≤ b && b ≤ 0xBF then some (b.toNat - 0x80) else none

/-- The character of a lead byte and the bytes after it, with the number of those; the shortest spelling
is the only one. -/
def firstChar? (lead : UInt8) (rest : List UInt8) : Option (Char × Nat) :=
  let code? : Option (Nat × Nat × Nat) :=
    if lead < 0x80 then some (lead.toNat, 0, 0)
    else if 0xC0 ≤ lead && lead < 0xE0 then some (lead.toNat - 0xC0, 1, 0x80)
    else if 0xE0 ≤ lead && lead < 0xF0 then some (lead.toNat - 0xE0, 2, 0x800)
    else if 0xF0 ≤ lead && lead < 0xF8 then some (lead.toNat - 0xF0, 3, 0x10000)
    else none
  match code? with
  | none => none
  | some (start, count, least) =>
    let tail := (rest.take count).filterMap continuation?
    let code := tail.foldl (fun n d => n * 64 + d) start
    if tail.length == count && least ≤ code && code.isValidChar then some (Char.ofNat code, count)
    else none

/-- The symbols of bytes, of which the first `skip` have been read already. -/
def symbols (skip : Nat) : List UInt8 → Text
  | [] => []
  | b :: rest =>
    match skip with
    | skip + 1 => symbols skip rest
    | 0 =>
      match firstChar? b rest with
      | some (c, count) => .char c :: symbols count rest
      | none => .stray b :: symbols 0 rest

/-- The text of bytes. -/
def ofBytes (bytes : List UInt8) : Text :=
  symbols 0 bytes

end TreeScript.Text
