import TreeScript.Form.Build
import TreeScript.Form.Reading

/-!
# From nodes to records

The nodes of a document are read by the types of the fields they stand in.  An alias is read as the node
it stands for.  A node that means nothing leaves its field unset, and in a list it is left out, unless it
stands for a node of a program: then it leaves a gap.

## Main definitions

* `checkNode` — the checks of a node before its fields are read.
* `readValue`, `readEntries` — values by the type of their field, records by their type.
* `readMerge` — mappings that are merged into a record.
-/

namespace TreeScript.Form

open Document (Node Entry Meaning)

/-! ### Checks -/

/-- The text that the type of a node is written with; the last one counts, and it is empty if there is
none. -/
def writtenType (entries : List Entry) : String :=
  entries.foldl (fun type e => if e.key.text == "type" then e.value.text else type) ""

/-- Checks the type of a node and that its keys belong to that type. -/
def checkNode (line : Nat) (entries : List Entry) : Except Rejection Unit :=
  let type := writtenType entries
  match NodeKind.ofName? type with
  | none => .error (.unknownType line type)
  | some kind =>
    match entries.find? fun e => !kind.allows e.key.text with
    | some e => .error (.invalidField e.key.line e.key.text type)
    | none => .ok ()

/-- The problems of keys that are written alike, by the earlier one and then the later one. -/
def duplicateKeys : List Entry → List Problem
  | [] => []
  | e :: rest =>
    let repeats := rest.filter fun f => e.key.sameKey f.key
    repeats.map (fun f => .duplicateKey f.key.line f.key.text e.key.line) ++ duplicateKeys rest

/-- Reads a mapping unless keys of it are written alike, which is a problem. -/
def unlessRepeated {α : Type} (entries : List Entry) (otherwise : α) (x : Read α) : Read α := do
  let repeats := duplicateKeys entries
  if repeats.isEmpty then x
  else
    Read.report repeats
    return otherwise

/-- Whether a key merges its value into the record. -/
def isMergeKey : Node → Bool
  | .scalar _ tag text => tag == Document.mergeTag && text == Document.mergeText
  | _ => false

/-! ### Scalars -/

/-- The truth value of a word that is no truth value in other places. -/
def flagWord? : String → Option Bool
  | "y" | "Y" | "yes" | "Yes" | "YES" | "on" | "On" | "ON" => some true
  | "n" | "N" | "no" | "No" | "NO" | "off" | "Off" | "OFF" => some false
  | _ => none

/-- Notes that a node has not the type of its field. -/
def mismatch (type : FieldType) (node : Node) : Read (Option Data) := do
  let leftOpen := node.tag == "!!null" && (type == .maybeText || type == .block)
  let name := if leftOpen then "*" ++ type.name else type.name
  Read.report [.mismatch node.line node.tag node.text name]
  return none

/-- The value of a scalar that means something, for a field of the given type: any scalar will do for a
text, as it is written. -/
def scalarData? (type : FieldType) (text : String) (m : Meaning) : Option Data :=
  match type with
  | .text | .maybeText =>
    match m with
    | .text s => some (.text s)
    | _ => some (.text text)
  | .number =>
    match m with
    | .int n => if n < (Nat.pow 2 63 : Nat) then some (.number n) else none
    | .float x => x.toInt64?.map .number
    | _ => none
  | .flag =>
    match m with
    | .bool b => some (.flag b)
    | .text s => (flagWord? (Text.shown s)).map .flag
    | _ => none
  | _ => none

/-- Reads a scalar. -/
def readScalar (type : FieldType) (line : Nat) (tag text : String) : Read (Option Data) := do
  let isNode := type == .part || type == .program
  if type == .raw then return some (.raw (.scalar line tag text))
  else if isNode && tag != "!!null" then Read.reject (.notMapping line)
  else
    match ← Read.meaning tag text with
    | .null => return if type == .part || type == .gap then some .null else none
    | m =>
      if type == .gap then Read.reject (.notGap line)
      else
        match scalarData? type text m with
        | some d => return some d
        | none => mismatch type (.scalar line tag text)

/-! ### Records -/

/-- How far a record has been read. -/
structure Progress where
  /-- The fields that are set. -/
  record : Record := []
  /-- The fields that the current mapping has given. -/
  given : List Text := []
  /-- While mappings are merged, the names that are taken. -/
  taken : Option (List Text) := none

/-- Notes a field of a mapping and its value, if it has one. -/
def Progress.set (p : Progress) (name : Text) (data : Option Data) : Progress :=
  { p with
    record := match data with
      | some d => p.record ++ [(Text.shown name, d)]
      | none => p.record
    given := name :: p.given
    taken := p.taken.map (name :: ·) }

/-- The root block of a program, which must be one. -/
def rootBlock (p : Part) : Except Rejection Block := do
  match ← p.expr with
  | .block b => return b
  | _ => throw (.rootNotBlock p.line p.type)

/-- The value that a node of a program gives to a field of the given type; `before` is the number of
problems before the node was read. -/
def partData (type : FieldType) (before : Nat) (p : Part) : Read (Option Data) := do
  if type == .program then
    if before < (← get).problems.length then return none
    else
      match rootBlock p with
      | .ok b => return some (.block b)
      | .error reason => Read.reject reason
  else return some (.part p)

/-- Reads a node of a program: it is checked, and then its fields are read with counts of their own. -/
def readNode (type : FieldType) (line : Nat) (entries : List Entry) (fields : Read Progress) :
    Read (Option Data) := do
  match checkNode line entries with
  | .error reason => Read.reject reason
  | .ok () =>
    let before := (← get).problems.length
    Read.apart do
      Read.visit
      unlessRepeated entries none do
        let p ← fields
        partData type before (Part.ofRecord line p.record)

/-- The initialiser that a record stands for. -/
def initData (r : Record) : Data :=
  .init (r.text "name") (r.part? "expr")

/-- The block that a record stands for: all its expressions are gaps. -/
def blockData (r : Record) : Data :=
  .block (.mk (r.number "linenumber") ((r.items "instrs").map fun _ => .missing))

/-- The text of a key, if it means one. -/
def keyText? : Node → Read (Option Text)
  | .scalar _ tag text => do
    match ← Read.meaning tag text with
    | .text s => return some s
    | _ => return none
  | key => Read.reject (.collectionKey key.line)

/-- The texts of the keys that mean one. -/
def keyTexts : List Node → Read (List Text)
  | [] => return []
  | .alias _ _ target :: rest => do
    Read.visit
    let text ← Read.throughAlias do
      Read.visit
      keyText? target
    return text.toList ++ (← keyTexts rest)
  | key :: rest => do
    Read.visit
    let text ← keyText? key
    return text.toList ++ (← keyTexts rest)

/-- Starts merging into a record: the keys of its own mapping are taken, unless names are already. -/
def Progress.merging (p : Progress) (own : List Node) : Read Progress := do
  match p.taken with
  | some _ => return { p with given := [] }
  | none => return { p with given := [], taken := some (← keyTexts own) }

/-- A program after a node has been merged into it, which replaces its body. -/
def Progress.withBody (p : Progress) (body : Option Data) : Progress :=
  match body with
  | some d => { p with record := ("body", d) :: p.record }
  | none => p

/-- Merges a mapping into a record.  It is read field by field, unless the record is a program and the
mapping a node of one. -/
def mergeMapping (type : RecordType) (p : Progress) (line : Nat) (tag : String) (entries : List Entry)
    (node fields : Read Progress) : Read Progress := do
  Read.visit
  if type == .program && tag != "!!null" then return p.withBody (← readNode .program line entries node)
  else unlessRepeated entries p fields

mutual

/-- Reads a node for a field of the given type. -/
def readValue (type : FieldType) : Node → Read (Option Data)
  | .alias line name target => do
    Read.visit
    if type == .raw then return some (.raw (.alias line name target))
    else Read.throughAlias (readValue type target)
  | .scalar line tag text => do
    Read.visit
    readScalar type line tag text
  | .sequence line tag items => do
    Read.visit
    match type with
    | .raw => return some (.raw (.sequence line tag items))
    | .list item => return some (.list (← readItems item items))
    | .part | .program =>
      if tag == "!!null" then mismatch type (.sequence line tag items)
      else Read.reject (.notMapping line)
    | .gap => Read.reject (.notGap line)
    | _ => mismatch type (.sequence line tag items)
  | .mapping line tag entries => do
    Read.visit
    let keys := entries.map (·.key)
    if type == .raw then return some (.raw (.mapping line tag entries))
    else if (type == .part || type == .program) && tag != "!!null" then
      readNode type line entries (readEntries .node keys {} entries)
    else
      unlessRepeated entries none do
        if type == .init then
          let p ← readEntries .init keys {} entries
          return some (initData p.record)
        else if type == .block && tag != "!!null" then
          let p ← readEntries .block keys {} entries
          return some (blockData p.record)
        else if type == .gap then Read.reject (.notGap line)
        else mismatch type (.mapping line tag entries)

/-- Reads the items of a list. -/
def readItems (item : FieldType) : List Node → Read (List Data)
  | [] => return []
  | node :: rest => do
    let d ← readValue item node
    let ds ← readItems item rest
    return d.toList ++ ds

/-- Reads the entries of a mapping with the given keys into a record.  What is merged comes after the
other entries. -/
def readEntries (type : RecordType) (own : List Node) (p : Progress) : List Entry → Read Progress
  | [] => return p
  | .mk key value :: rest => do
    if isMergeKey key then
      let p ← readEntries type own p rest
      let p ← p.merging own
      readMerge type p value
    else
      match ← readValue .text key with
      | some (.text name) =>
        if (p.taken.getD []).contains name then readEntries type own p rest
        else
          match type.field? (Text.shown name) with
          | none =>
            if type.isStrict then
              Read.report [.unknownField key.line (Text.shown name) type.name]
            readEntries type own { p with taken := p.taken.map (name :: ·) } rest
          | some field =>
            if p.given.contains name then
              Read.report [.repeatedField key.line (Text.shown name) type.name]
              readEntries type own p rest
            else
              let d ← readValue field value
              readEntries type own (p.set name d) rest
      | _ => readEntries type own p rest

/-- Merges a mapping, or several, into a record: names that are taken stay as they are. -/
def readMerge (type : RecordType) (p : Progress) : Node → Read Progress
  | .mapping line tag entries =>
    mergeMapping type p line tag entries (readEntries .node [] {} entries)
      (readEntries type [] { p with given := [] } entries)
  | .alias _ _ (.mapping line tag entries) => do
    Read.visit
    Read.throughAlias <|
      mergeMapping type p line tag entries (readEntries .node [] {} entries)
        (readEntries type [] { p with given := [] } entries)
  | .sequence _ _ items => readMergeItems type p items
  | _ => Read.reject (.malformed .badMerge)

/-- Merges several mappings into a record. -/
def readMergeItems (type : RecordType) (p : Progress) : List Node → Read Progress
  | [] => return p
  | .mapping line tag entries :: rest => do
    let p ← mergeMapping type p line tag entries (readEntries .node [] {} entries)
      (readEntries type [] { p with given := [] } entries)
    readMergeItems type p rest
  | .alias _ _ (.mapping line tag entries) :: rest => do
    Read.visit
    let p ← Read.throughAlias <|
      mergeMapping type p line tag entries (readEntries .node [] {} entries)
        (readEntries type [] { p with given := [] } entries)
    readMergeItems type p rest
  | _ :: _ => Read.reject (.malformed .badMerge)

end

/-- Reads the root mapping of a document as a record; the document itself counts as a node. -/
def readRecord (type : RecordType) (entries : List Entry) : Read Record := do
  Read.visit
  Read.visit
  unlessRepeated entries [] do
    let p ← readEntries type (entries.map (·.key)) {} entries
    return p.record

end TreeScript.Form
