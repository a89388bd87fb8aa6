/-!
# The nodes of a document

## Main definitions

* `Node`, `Entry` — scalars, sequences, mappings and aliases, with their lines and tags.
* `Node.resolveAlias` — the node that an alias stands for.
-/

namespace TreeScript.Document

mutual

/-- A node of a document.  Lines are counted from one, and tags are abbreviated. -/
inductive Node where
  /-- A text of some type. -/
  | scalar (line : Nat) (tag text : String)
  /-- Nodes in a row. -/
  | sequence (line : Nat) (tag : String) (items : List Node)
  /-- Keys and their values. -/
  | mapping (line : Nat) (tag : String) (entries : List Entry)
  /-- Another name for a node that was named before. -/
  | alias (line : Nat) (name : String) (target : Node)

/-- A key and its value. -/
inductive Entry where
  /-- The entry of a key and a value. -/
  | mk (key value : Node)

end

instance : Inhabited Node := ⟨.scalar 0 "" ""⟩

namespace Entry

/-- The key of an entry. -/
def key : Entry → Node
  | .mk key _ => key

/-- The value of an entry. -/
def value : Entry → Node
  | .mk _ value => value

end Entry

namespace Node

/-- The line that a node starts on. -/
def line : Node → Nat
  | .scalar line .. => line
  | .sequence line .. => line
  | .mapping line .. => line
  | .alias line .. => line

/-- The tag of a node; an alias has none. -/
def tag : Node → String
  | .scalar _ tag _ => tag
  | .sequence _ tag _ => tag
  | .mapping _ tag _ => tag
  | .alias .. => ""

/-- The text that a node itself shows: that of a scalar, the name of an alias, and none of a collection. -/
def text : Node → String
  | .scalar _ _ text => text
  | .alias _ name _ => name
  | _ => ""

/-- The node that an alias stands for; any other node stands for itself. -/
def resolveAlias : Node → Node
  | .alias _ _ target => target
  | node => node

/-- Whether two keys are written alike: they are of one kind and show the same text. -/
def sameKey : Node → Node → Bool
  | .scalar _ _ s, .scalar _ _ t => s == t
  | .alias _ s _, .alias _ t _ => s == t
  | .sequence .., .sequence .. => true
  | .mapping .., .mapping .. => true
  | _, _ => false

end Node

end TreeScript.Document
