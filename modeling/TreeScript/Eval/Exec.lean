import TreeScript.Eval.Log
import TreeScript.Value.Store

/-!
# Steps of evaluation

A step of evaluation reads and changes the state of a run, and ends in one of five ways: with a
result, with a `return` on its way to the nearest call, with an error, by a crash, or because the bound
on nested calls was met.  Only a result lets the next step go on; the others pass through unchanged.

A crash is an argument that is read and is not there, or the text of a field that holds nothing.

## Main definitions

* `Sink` — where printed lines go; it may refuse any of them.
* `State` — the store, the printed lines, the log and the sink.
* `Outcome` — how a step ends.
* `Exec` — a step of evaluation, a monad.
* `Exec.catchReturn`, `Exec.atLine` — what a call does with the outcome of the function's body.
-/

namespace TreeScript

/-- An output.  Whether it accepts a line may depend on all the lines that it was given before, also on
those that it refused. -/
structure Sink where
  /-- The error with which a line is refused, if it is, after the lines `given`. -/
  refusal? : (given : List Text) → (line : Text) → Option Fault := fun _ _ => none

namespace Sink

instance instInhabited : Inhabited Sink := ⟨{}⟩

/-- The sink once it has been given a line. -/
def after (s : Sink) (line : Text) : Sink :=
  ⟨fun given => s.refusal? (line :: given)⟩

/-- The error of a sink that accepts no more. -/
def closed : Fault := .plain "sink closed"

/-- A sink that accepts a number of lines and then no more. -/
def closingAfter (room : Nat) : Sink :=
  ⟨fun given _ => if given.length < room then none else some closed⟩

end Sink

/-- The state of a run. -/
structure State where
  /-- The memory. -/
  store : Store := {}
  /-- The lines printed so far. -/
  printed : Array Text := #[]
  /-- The entries logged so far. -/
  log : Array LogEntry := #[]
  /-- Where lines go. -/
  sink : Sink := {}
  deriving Inhabited

/-- How a step ends. -/
inductive Outcome (α : Type) where
  /-- With a result. -/
  | done (a : α)
  /-- With a `return` of a value, written on a line, that no call has caught yet. -/
  | returning (value : Value) (line : Int)
  /-- With an error. -/
  | failed (e : Fault)
  /-- By a crash. -/
  | crashed
  /-- Not within the bound on nested calls. -/
  | outOfFuel

/-- A step of evaluation. -/
def Exec (α : Type) : Type := State → Outcome α × State

namespace Exec

/-- The step that only gives a result. -/
def result {α : Type} (a : α) : Exec α := fun s => (.done a, s)

/-- One step after another; the second runs only if the first gives a result. -/
def andThen {α β : Type} (x : Exec α) (f : α → Exec β) : Exec β := fun s =>
  match x s with
  | (.done a, s) => f a s
  | (.returning v line, s) => (.returning v line, s)
  | (.failed e, s) => (.failed e, s)
  | (.crashed, s) => (.crashed, s)
  | (.outOfFuel, s) => (.outOfFuel, s)

instance : Monad Exec where
  pure := result
  bind := andThen

/-- Ends with an error. -/
def fail {α : Type} (e : Fault) : Exec α := fun s => (.failed e, s)

/-- Ends with a failure. -/
def failWith {α : Type} (kind : FailureKind) (line : Int) (detail : Text) : Exec α :=
  fail (.failure ⟨kind, line, detail⟩)

/-- Ends with a `return` on its way to the nearest call. -/
def unwind {α : Type} (value : Value) (line : Int) : Exec α := fun s => (.returning value line, s)

/-- Crashes. -/
def crash {α : Type} : Exec α := fun s => (.crashed, s)

/-- Ends because no further nested call is allowed for. -/
def outOfFuel {α : Type} : Exec α := fun s => (.outOfFuel, s)

/-- Reads from the store. -/
def read {α : Type} (f : Store → α) : Exec α := fun s => (.done (f s.store), s)

/-- Reads from the store what must be there. -/
def demand {α : Type} (f : Store → Option α) : Exec α := fun s =>
  match f s.store with
  | some a => (.done a, s)
  | none => (.crashed, s)

/-- Changes the store. -/
def change (f : Store → Store) : Exec Unit := fun s => (.done (), { s with store := f s.store })

/-- Changes the store and gives a result. -/
def make {α : Type} (f : Store → α × Store) : Exec α := fun s =>
  let (a, store) := f s.store
  (.done a, { s with store := store })

/-- Adds an entry to the log. -/
def log (entry : LogEntry) : Exec Unit := fun s => (.done (), { s with log := s.log.push entry })

/-- Gives a line to the sink, and prints it unless the sink refuses it. -/
def printLine (text : Text) : Exec Unit := fun s =>
  match s.sink.refusal? [] text with
  | none => (.done (), { s with printed := s.printed.push text, sink := s.sink.after text })
  | some e => (.failed e, { s with sink := s.sink.after text })

/-- The value of a function's body: that of the `return` that ended it, or undefined. -/
def catchReturn {α : Type} (x : Exec α) : Exec Value := fun s =>
  match x s with
  | (.done _, s) => (.done .undefined, s)
  | (.returning v _, s) => (.done v, s)
  | (.failed e, s) => (.failed e, s)
  | (.crashed, s) => (.crashed, s)
  | (.outOfFuel, s) => (.outOfFuel, s)

/-- Gives the line to a failure of the step that has none. -/
def atLine {α : Type} (line : Int) (x : Exec α) : Exec α := fun s =>
  match x s with
  | (.failed e, s) => (.failed (e.atLine line), s)
  | r => r

end Exec

end TreeScript
