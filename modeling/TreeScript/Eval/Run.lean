import TreeScript.Eval.Evaluate
import TreeScript.Eval.Globals

/-!
# Runs

A run evaluates the root block of a program in a fresh global scope.  A `return` that no call has
caught is a failure of the run.

## Main definitions

* `Settings` — the depth limit and the level of the logger.
* `Run` — what a run did and how it ended.
* `Program.runWith`, `Program.run` — running a program with a given fuel, and with enough.
* `Run.output`, `Run.report` — what a run printed, and how its failure is reported.
-/

namespace TreeScript

/-- How programs are run. -/
structure Settings where
  /-- The limit on nested calls. -/
  limit : DepthLimit := ⟨10000⟩
  /-- The level of the logger. -/
  level : LogLevel := .info
  deriving DecidableEq, Repr, Inhabited

/-- Settings from the name of a level, where the empty name means `warning`, and a depth limit. -/
def Settings.ofNames (level : String) (maxDepth : Int) : Except LogLevel.Unknown Settings := do
  let level ← LogLevel.ofName (if level = "" then "warning" else level)
  return { limit := ⟨maxDepth⟩, level := level }

/-- How a run ended. -/
inductive Ending where
  /-- Every instruction was carried out. -/
  | finished
  /-- An error ended it. -/
  | failed (e : Fault)
  /-- A crash ended it. -/
  | crashed
  /-- It nested more calls than there was fuel for. -/
  | outOfFuel
  deriving DecidableEq, Repr, Inhabited

/-- What a run did. -/
structure Run where
  /-- How it ended. -/
  ending : Ending
  /-- The lines it printed. -/
  printed : Array Text
  /-- The entries it logged. -/
  log : Array LogEntry
  /-- The sink as the run left it. -/
  sink : Sink

namespace Run

/-- The printed lines as one text. -/
def output (r : Run) : Text :=
  r.printed.toList.flatMap Text.line

/-- Whether the run carried out every instruction. -/
def ok (r : Run) : Bool :=
  r.ending = .finished

/-- The error that ended the run. -/
def fault? (r : Run) : Option Fault :=
  match r.ending with
  | .failed e => some e
  | _ => none

/-- The entries that a logger of this level keeps. -/
def entries (r : Run) (level : LogLevel) : List LogEntry :=
  if level.keepsDebug then r.log.toList else []

/-- How the error that ended the run is reported to a user. -/
def report (r : Run) : Text :=
  match r.fault? with
  | none => ""
  | some e => match e.failure? with
    | some f => "Runtime Error on line " ++ toString f.line ++ "\n\t" ++ f.message ++ "\n"
    | none => e.text ++ "\n"

end Run

/-- The ending of a run whose root block ended with this outcome; `showValue?` gives the text of the
value of an uncaught `return`. -/
def Ending.ofOutcome (showValue? : Value → Option Text) : Outcome Unit → Ending
  | .done _ => .finished
  | .returning v line => match showValue? v with
    | some text => .failed (.failure ⟨.returnOutsideFunction, line, text⟩)
    | none => .crashed
  | .failed e => .failed e
  | .crashed => .crashed
  | .outOfFuel => .outOfFuel

/-- The last entry of a run that ended so; a crash leaves none. -/
def Ending.entry? : Ending → Option LogEntry
  | .finished => some .runFinished
  | .failed e => some (.runFailed e.text (e.failure?.map Failure.line))
  | .crashed => none
  | .outOfFuel => none

/-- Runs a program on a sink, with a bound on nested calls beside the depth limit. -/
def Program.runWith (fuel : Nat) (limit : DepthLimit) (sink : Sink) (p : Program) : Run :=
  let start : State := { store := Store.initial, log := #[.runStarted], sink := sink }
  let (outcome, s) := runOptional (invoke limit fuel 0) globalScope p.body start
  let ending := Ending.ofOutcome s.store.showValue? outcome
  { ending
    printed := s.printed
    log := match ending.entry? with
      | some entry => s.log.push entry
      | none => s.log
    sink := s.sink }

/-- The nested calls allowed for when the language sets no limit: more than any memory holds. -/
def unlimitedFuel : Nat := Nat.pow 2 48

/-- The fuel of a run: the depth limit itself if there is one. -/
def DepthLimit.fuel (limit : DepthLimit) : Nat :=
  if 0 < limit.bound then limit.bound.toNat else unlimitedFuel

/-- Runs a program on a sink. -/
def Program.run (limit : DepthLimit) (sink : Sink) (p : Program) : Run :=
  p.runWith limit.fuel limit sink

/-- Runs programs one after another on one sink, each in a global scope of its own. -/
def runSession (limit : DepthLimit) : Sink → List Program → List Run
  | _, [] => []
  | sink, p :: rest =>
    let r := p.run limit sink
    r :: runSession limit r.sink rest

end TreeScript
