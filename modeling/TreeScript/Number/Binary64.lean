/-!
# Binary floating point of 64 bits

Numbers with a fraction are held in 64 bits.  Only their rounding matters here: a decimal is rounded to
the nearest number that has at most 53 significant bits, and of two equally near ones to the even one.

## Main definitions

* `Binary64` — the numbers.
* `roundRatio` — a quotient rounded to a whole number.
* `Binary64.ofRatio?` — a quotient as a number, unless it is too large.
* `Binary64.toInt64?` — a number cut to a whole one.
-/

namespace TreeScript

/-- A number of 64 bits in binary floating point. -/
inductive Binary64 where
  /-- No number. -/
  | nan
  /-- An infinity. -/
  | infinite (negative : Bool)
  /-- The number `mantissa * 2 ^ exponent` with a sign. -/
  | finite (negative : Bool) (mantissa : Nat) (exponent : Int)
  deriving DecidableEq, Repr, Inhabited

/-- A quotient rounded to the nearest whole number, of two equally near ones to the even one. -/
def roundRatio (num den : Nat) : Nat :=
  let quotient := num / den
  let twice := 2 * (num % den)
  if den < twice || (twice == den && quotient % 2 == 1) then quotient + 1 else quotient

namespace Binary64

/-- A natural number times a power of two, as a fraction of natural numbers. -/
def scale (num den : Nat) (exponent : Int) : Nat × Nat :=
  if 0 ≤ exponent then (num * Nat.pow 2 exponent.toNat, den)
  else (num, den * Nat.pow 2 (-exponent).toNat)

/-- The exponent with which a positive quotient has 53 significant bits, or the least exponent. -/
def exponentFor (num den : Nat) : Int :=
  let guess : Int := (num.log2 : Int) - den.log2 - 52
  let (n, d) := scale num den (-guess)
  let exact := if n < d * Nat.pow 2 52 then guess - 1 else guess
  max exact (-1074)

/-- The nearest number to a quotient, if it is in range. -/
def ofRatio? (negative : Bool) (num den : Nat) : Option Binary64 :=
  if num == 0 then some (.finite negative 0 0)
  else
    let exponent := exponentFor num den
    let (n, d) := scale num den (-exponent)
    let mantissa := roundRatio n d
    if 971 < exponent || (exponent == 971 && Nat.pow 2 53 ≤ mantissa) then none
    else some (.finite negative mantissa exponent)

/-- The nearest number to an integer of at most 64 bits. -/
def ofInt (n : Int) : Binary64 :=
  (ofRatio? (n < 0) n.natAbs 1).getD .nan

/-- A number without its fraction. -/
def truncate (negative : Bool) (mantissa : Nat) (exponent : Int) : Int :=
  let (n, d) := scale mantissa 1 exponent
  if negative then -((n / d : Nat) : Int) else (n / d : Nat)

/-- A number cut to 64 bits.  There is none for what is not a number and for what exceeds `2 ^ 63`; what
does not fit otherwise reads as the least integer. -/
def toInt64? : Binary64 → Option Int
  | .nan => none
  | .infinite negative => if negative then some (-(Nat.pow 2 63 : Nat)) else none
  | .finite negative mantissa exponent =>
    let (n, d) := scale mantissa 1 exponent
    if !negative && Nat.pow 2 63 * d < n then none
    else
      let whole := truncate negative mantissa exponent
      if -(Nat.pow 2 63 : Nat) ≤ whole && whole < (Nat.pow 2 63 : Nat) then some whole
      else some (-(Nat.pow 2 63 : Nat))

end Binary64

end TreeScript
