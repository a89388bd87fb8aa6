import TreeScript.Number.Binary64

/-!
# Written numbers

## Main definitions

* `writtenInteger?` — an integer with an optional sign and base.
* `Decimal`, `decimal?` — a decimal number and how it is written.
* `Decimal.toBinary64?` — the nearest number of 64 bits.
-/

namespace TreeScript.Number

/-- The value of a digit in some base. -/
def digit? (c : Char) : Option Nat :=
  if '0' ≤ c && c ≤ '9' then some (c.toNat - '0'.toNat)
  else if 'a' ≤ c && c ≤ 'z' then some (c.toNat - 'a'.toNat + 10)
  else if 'A' ≤ c && c ≤ 'Z' then some (c.toNat - 'A'.toNat + 10)
  else none

/-- The number that digits of a base write after the number `n`. -/
def digits? (base n : Nat) : List Char → Option Nat
  | [] => some n
  | c :: rest => do
    let d ← digit? c
    if d < base then digits? base (n * base + d) rest else none

/-- The base that a letter after a zero asks for. -/
def base? (c : Char) : Option Nat :=
  if c == 'b' || c == 'B' then some 2
  else if c == 'o' || c == 'O' then some 8
  else if c == 'x' || c == 'X' then some 16
  else none

/-- A number without a sign: a zero and a letter give its base, a zero alone makes it octal. -/
def natural? : List Char → Option Nat
  | [] => none
  | '0' :: c :: d :: rest =>
    match base? c with
    | some base => digits? base 0 (d :: rest)
    | none => digits? 8 0 (c :: d :: rest)
  | '0' :: rest => digits? 8 0 rest
  | cs => digits? 10 0 cs

/-- A number with the given sign if it fits 64 bits, signed; without a sign also if it fits unsigned. -/
def withSign? (sign : Option Char) (n : Nat) : Option Int :=
  match sign with
  | some '-' => if n ≤ Nat.pow 2 63 then some (-(n : Int)) else none
  | some _ => if n < Nat.pow 2 63 then some n else none
  | none => if n < Nat.pow 2 64 then some n else none

/-- Splits a sign off. -/
def splitSign : List Char → Option Char × List Char
  | '-' :: rest => (some '-', rest)
  | '+' :: rest => (some '+', rest)
  | cs => (none, cs)

/-- A written integer of at most 64 bits. -/
def writtenInteger? (cs : List Char) : Option Int := do
  let (sign, cs) := splitSign cs
  withSign? sign (← natural? cs)

/-- A written integer of at most 64 bits in a given base, with an optional sign. -/
def integerInBase? (base : Nat) (cs : List Char) : Option Int := do
  let (sign, cs) := splitSign cs
  if cs.isEmpty then none
  withSign? sign (← digits? base 0 cs)

/-- An integer whose sign comes after its base, which is 2 or 8 and in a small letter. -/
def lateSign? : List Char → Option Int
  | '0' :: 'b' :: rest => integerInBase? 2 rest
  | '0' :: 'o' :: rest => integerInBase? 8 rest
  | _ => none

/-! ### Decimals -/

/-- The number `digits * 10 ^ exponent` with a sign. -/
structure Decimal where
  /-- Whether the sign is minus. -/
  negative : Bool
  /-- The digits without the point. -/
  digits : Nat
  /-- The power of ten. -/
  exponent : Int
  deriving DecidableEq, Repr, Inhabited

/-- Splits decimal digits off. -/
def splitDigits (cs : List Char) : List Char × List Char :=
  cs.span fun c => '0' ≤ c && c ≤ '9'

/-- The exponent at the end of a decimal; without one it is zero. -/
def exponent? : List Char → Option Int
  | [] => some 0
  | e :: rest => do
    if e != 'e' && e != 'E' then none
    let (sign, rest) := splitSign rest
    if rest.isEmpty then none
    let n ← digits? 10 0 rest
    return if sign == some '-' then -(n : Int) else n

/-- A decimal: a sign, digits with a point among them, an exponent.  There are digits before the point, or
a point with digits after it. -/
def decimal? (cs : List Char) : Option Decimal := do
  let (sign, cs) := splitSign cs
  let (whole, cs) := splitDigits cs
  let (fraction, pointed, cs) := match cs with
    | '.' :: rest => let (fraction, rest) := splitDigits rest; (fraction, true, rest)
    | cs => ([], false, cs)
  if whole.isEmpty && (!pointed || fraction.isEmpty) then none
  let exponent ← exponent? cs
  let n ← digits? 10 0 (whole ++ fraction)
  return ⟨sign == some '-', n, exponent - fraction.length⟩

/-- Whether every underscore stands between two digits; `before` is the character before. -/
def separatesDigits (before : Char) : List Char → Bool
  | [] => before != '_'
  | c :: rest =>
    let ok := if c == '_' then '0' ≤ before && before ≤ '9'
      else before != '_' || ('0' ≤ c && c ≤ '9')
    ok && separatesDigits c rest

/-- The nearest number of 64 bits, if the decimal is in range.  Powers of ten far out of range are not
worked out. -/
def Decimal.toBinary64? (d : Decimal) : Option Binary64 :=
  let bits : Int := d.digits.log2
  if d.digits == 0 then some (.finite d.negative 0 0)
  else if 400 < bits / 4 + d.exponent then none
  else if (bits + 1) / 3 + 1 + d.exponent < -400 then some (.finite d.negative 0 0)
  else if 0 ≤ d.exponent then
    Binary64.ofRatio? d.negative (d.digits * Nat.pow 10 d.exponent.toNat) 1
  else Binary64.ofRatio? d.negative d.digits (Nat.pow 10 (-d.exponent).toNat)

end TreeScript.Number
