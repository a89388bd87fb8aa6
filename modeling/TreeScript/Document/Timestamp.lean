import TreeScript.Document.Glyph

/-!
# Points in time

A plain scalar that is a date, perhaps with a time, is no text.

## Main definitions

* `isTimestamp` — whether a text is a date, or a date and a time.
-/

namespace TreeScript.Document

/-- A number of one or two digits and what follows. -/
def shortNumber? : List Char → Option (Nat × List Char)
  | a :: b :: rest =>
    if !isDigit a then none
    else if isDigit b then some ((a.toNat - '0'.toNat) * 10 + (b.toNat - '0'.toNat), rest)
    else some (a.toNat - '0'.toNat, b :: rest)
  | [a] => if isDigit a then some (a.toNat - '0'.toNat, []) else none
  | [] => none

/-- What follows after a given character. -/
def after? (c : Char) : List Char → Option (List Char)
  | d :: rest => if c == d then some rest else none
  | [] => none

/-- The number of days of a month. -/
def daysIn (year month : Nat) : Nat :=
  if month == 2 then
    if year % 4 == 0 && (year % 100 != 0 || year % 400 == 0) then 29 else 28
  else if month == 4 || month == 6 || month == 9 || month == 11 then 30
  else 31

/-- What follows after a date of four digits for the year and at most two for month and day. -/
def date? (cs : List Char) : Option (List Char) := do
  let (year, cs) := cs.span isDigit
  if year.length != 4 then none
  let year := year.foldl (fun n c => n * 10 + (c.toNat - '0'.toNat)) 0
  let (month, cs) ← shortNumber? (← after? '-' cs)
  let (day, cs) ← shortNumber? (← after? '-' cs)
  if 1 ≤ month && month ≤ 12 && 1 ≤ day && day ≤ daysIn year month then some cs else none

/-- What follows after a fraction of a second, if there is one. -/
def skipFraction : List Char → List Char
  | p :: d :: rest =>
    if (p == '.' || p == ',') && isDigit d then rest.dropWhile isDigit else p :: d :: rest
  | cs => cs

/-- What follows after a time of the day. -/
def time? (cs : List Char) : Option (List Char) := do
  let (hour, cs) ← shortNumber? cs
  let (minute, cs) ← shortNumber? (← after? ':' cs)
  let (second, cs) ← shortNumber? (← after? ':' cs)
  if hour < 24 && minute < 60 && second < 60 then some (skipFraction cs) else none

/-- Whether a text is a distance from universal time. -/
def isZone : List Char → Bool
  | ['Z'] => true
  | [sign, a, b, ':', c, d] =>
    (sign == '+' || sign == '-') &&
      [a, b, c, d].all isDigit &&
      (a.toNat - '0'.toNat) * 10 + (b.toNat - '0'.toNat) ≤ 24 &&
      (c.toNat - '0'.toNat) * 10 + (d.toNat - '0'.toNat) ≤ 60
  | _ => false

/-- Whether what follows a date makes it a point in time: nothing, a time after spaces, or a time with its
zone after a letter. -/
def isClock : List Char → Bool
  | [] => true
  | ' ' :: rest => time? (rest.dropWhile (· == ' ')) == some []
  | c :: rest => (c == 'T' || c == 't') && (time? rest).any isZone

/-- Whether a text is a date, or a date and a time. -/
def isTimestamp (text : String) : Bool :=
  (date? text.toList).any isClock

end TreeScript.Document
