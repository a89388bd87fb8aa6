import TreeScript.Text.Symbol

/-!
# Failures

Evaluation fails with a `Failure`: a kind, a detail, and the line of the node that observed it, which
is zero as long as no node has.  The host, in its functions and its outputs, may make failures of other
kinds, and errors that are no failures; a `Fault` is any of these, possibly with contexts around it.

## Main definitions

* `FailureKind`, `Failure` — what went wrong and where.
* `Fault` — a failure or another error, with contexts.
* `Fault.atLine` — locates a failure that has no line yet.
-/

namespace TreeScript

/-- What went wrong. -/
inductive FailureKind where
  | notAFunction | notAnObject | alreadyDefined | arity | type | divisionByZero
  | returnOutsideFunction | stackExhausted | unknownNode
  /-- Something that the language does not know, in the words of the host. -/
  | foreign (text : Text)
  deriving DecidableEq, Repr, Inhabited

/-- The words for a kind of failure. -/
def FailureKind.text : FailureKind → Text
  | .notAFunction => "not a function"
  | .notAnObject => "not an object"
  | .alreadyDefined => "variable already defined"
  | .arity => "wrong number of arguments"
  | .type => "type error"
  | .divisionByZero => "division by zero"
  | .returnOutsideFunction => "return outside of function"
  | .stackExhausted => "call stack exhausted"
  | .unknownNode => "unknown node"
  | .foreign text => text

/-- A failure of evaluation. -/
structure Failure where
  /-- What went wrong. -/
  kind : FailureKind
  /-- The line of the node that observed it, or zero. -/
  line : Int
  /-- More about it; may be empty. -/
  detail : Text
  deriving DecidableEq, Repr, Inhabited

/-- The text of a failure without its line. -/
def Failure.message (f : Failure) : Text :=
  if f.detail = [] then f.kind.text else f.kind.text ++ ": " ++ f.detail

/-- The text of a failure, with its line if that is positive. -/
def Failure.text (f : Failure) : Text :=
  if 0 < f.line then "at line " ++ toString f.line ++ ", " ++ f.message else f.message

/-- An error of a run: a failure, another error, or either in a context. -/
inductive Fault where
  /-- A failure of evaluation. -/
  | failure (f : Failure)
  /-- An error that is no failure, such as one of an output that is closed. -/
  | plain (text : Text)
  /-- An error with a text about where it was met. -/
  | wrapped (context : Text) (inner : Fault)
  deriving DecidableEq, Repr, Inhabited

namespace Fault

/-- The text of an error; contexts come first. -/
def text : Fault → Text
  | .failure f => f.text
  | .plain text => text
  | .wrapped context inner => context ++ ": " ++ inner.text

/-- The failure that an error is or has inside its contexts. -/
def failure? : Fault → Option Failure
  | .failure f => some f
  | .plain _ => none
  | .wrapped _ inner => inner.failure?

/-- Gives a failure without a line the line `line`, and takes it out of its contexts.  A failure that
has a line, and an error that is no failure, stay as they are. -/
def atLine (line : Int) (e : Fault) : Fault :=
  match e.failure? with
  | some f => if f.line = 0 then .failure { f with line := line } else e
  | none => e

end Fault

end TreeScript
