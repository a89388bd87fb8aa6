import TreeScript.Document.Composer
import TreeScript.Form.Reader

/-!
# Programs from documents

## Main definitions

* `Program.ofNode` — the program that the root of a document stands for.
* `DecodeError` — why a text is no program.
* `Program.ofText` — the program that a text holds.
-/

namespace TreeScript

open Document (Node)

namespace Form

/-- Reads the root of a document as a program: a node gives the body of one.  A root that means nothing
is a program without a body, unless it is a mapping: that gives the path and the body. -/
def readRoot : Node → Read Program
  | .sequence line "!!null" _ => do
    Read.report [.mismatch line "!!null" "" RecordType.program.name]
    return { body := none }
  | .mapping _ "!!null" entries => do
    let r ← readRecord .program entries
    return { path := Text.shown (r.text "path"), body := r.block? "body" }
  | node => do
    match ← readValue .program node with
    | some (.block b) => return { body := some b }
    | _ => return { body := none }

end Form

/-- The program that the root of a document stands for. -/
def Program.ofNode (node : Node) : Except Form.Rejection Program :=
  (Form.readRoot node).finish

/-- Why a text is no program. -/
inductive DecodeError where
  /-- It holds no document. -/
  | empty
  /-- Its document is rejected. -/
  | rejected (reason : Form.Rejection)
  deriving DecidableEq, Repr, Inhabited

/-- The text of an error. -/
def DecodeError.message : DecodeError → String
  | .empty => "decode program: empty document"
  | .rejected reason => "decode program: " ++ reason.message

/-- Whether a text asks for something that the reader has no way to answer. -/
def DecodeError.isAbrupt : DecodeError → Bool
  | .empty => false
  | .rejected reason => reason.isAbrupt

/-- Whether a text is not well formed. -/
def DecodeError.isMalformed : DecodeError → Bool
  | .empty => false
  | .rejected reason => reason.isMalformed

/-- The program that a text holds. -/
def Program.ofText (text : String) : Except DecodeError Program :=
  match Document.readDocument text with
  | .error reason => .error (.rejected (.malformed reason))
  | .ok none => .error .empty
  | .ok (some node) => (Program.ofNode node).mapError .rejected

end TreeScript
