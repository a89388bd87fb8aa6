import TreeScript.Document.Malformed
import TreeScript.Document.Timestamp
import TreeScript.Number.Written
import TreeScript.Text.Base64
import TreeScript.Text.Utf8

/-!
# What a scalar means

A plain scalar without a tag is read for what it looks like: nothing, a truth value, a number, a point in
time, or else text.  A tag fixes the type, and then the scalar must look like that type.

## Main definitions

* `Meaning` — what a scalar means.
* `resolve` — what a plain scalar without a tag means.
* `meaning` — what a scalar with a tag means.
-/

namespace TreeScript.Document

/-- What a scalar means. -/
inductive Meaning where
  /-- Nothing. -/
  | null
  /-- A truth value. -/
  | bool (b : Bool)
  /-- An integer of at most 64 bits, signed or not. -/
  | int (n : Int)
  /-- A number in floating point. -/
  | float (x : Binary64)
  /-- A point in time. -/
  | timestamp
  /-- Text. -/
  | text (s : Text)
  deriving DecidableEq, Repr, Inhabited

/-- The tag of a scalar with a meaning. -/
def Meaning.tag : Meaning → String
  | .null => "!!null"
  | .bool _ => "!!bool"
  | .int _ => "!!int"
  | .float _ => "!!float"
  | .timestamp => "!!timestamp"
  | .text _ => "!!str"

/-- The words with a meaning of their own. -/
def word? : String → Option Meaning
  | "" | "~" | "null" | "Null" | "NULL" => some .null
  | "true" | "True" | "TRUE" => some (.bool true)
  | "false" | "False" | "FALSE" => some (.bool false)
  | ".nan" | ".NaN" | ".NAN" => some (.float .nan)
  | ".inf" | ".Inf" | ".INF" | "+.inf" | "+.Inf" | "+.INF" => some (.float (.infinite false))
  | "-.inf" | "-.Inf" | "-.INF" => some (.float (.infinite true))
  | _ => none

/-- The number that starts with a point, in which underscores may separate digits. -/
def pointed? (cs : List Char) : Option Meaning := do
  if !Number.separatesDigits '.' cs then none
  let d ← Number.decimal? (cs.filter (· != '_'))
  return .float (← d.toBinary64?)

/-- The number that starts with a digit or a sign, in which underscores do not count. -/
def number? (cs : List Char) : Option Meaning :=
  let cs := cs.filter (· != '_')
  let float? := (Number.decimal? cs).bind Number.Decimal.toBinary64?
  ((Number.writtenInteger? cs).map .int).or
    ((float?.map .float).or ((Number.lateSign? cs).map .int))

/-- What a plain scalar without a tag means. -/
def resolve (text : String) : Meaning :=
  match word? text with
  | some m => m
  | none =>
    match text.toList with
    | [] => .text text
    | c :: rest =>
      if c == '.' then (pointed? (c :: rest)).getD (.text text)
      else if isDigit c || c == '+' || c == '-' then
        if isTimestamp text then .timestamp else (number? (c :: rest)).getD (.text text)
      else .text text

/-- The beginning of the tags that `!!` abbreviates. -/
def longTag : String := "tag:yaml.org,2002:"

/-- A tag with its beginning abbreviated. -/
def shortTag (tag : String) : String :=
  if longTag.isPrefixOf tag then "!!" ++ String.ofList (tag.toList.drop longTag.length) else tag

/-- The tag of the key that merges mappings. -/
def mergeTag : String := "!!merge"

/-- The text of the key that merges mappings. -/
def mergeText : String := "<<"

/-- The tags that ask of a scalar to look like something. -/
def demandingTags : List String :=
  ["!!null", "!!bool", "!!int", "!!float", "!!timestamp"]

/-- What a scalar with a tag means.  A scalar with a demanding tag must look like it, where an integer will
do for a number in floating point; binary data must be in base 64; any other tag leaves the scalar the text
it is. -/
def meaning (tag text : String) : Except Malformed Meaning :=
  if tag == "!!binary" then
    match Text.decodeBase64 text with
    | some bytes => .ok (.text (Text.ofBytes bytes))
    | none => .error .badBinary
  else if !demandingTags.contains tag then .ok (.text text)
  else
    let found := resolve text
    if tag == found.tag then .ok found
    else
      match found with
      | .int n =>
        if tag == "!!float" && n < (Nat.pow 2 63 : Nat) then .ok (.float (.ofInt n)) else .error .tagMismatch
      | _ => .error .tagMismatch

end TreeScript.Document
