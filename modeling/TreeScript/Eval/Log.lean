import TreeScript.Text.LowerCase
import TreeScript.Text.Quoted

/-!
# The log of a run

A run logs when it starts and ends, every invocation and every print.  All entries are of the level
`debug`; a logger keeps those of its own level and of the more severe ones.

## Main definitions

* `LogEntry` — what is logged.
* `LogEntry.message`, `LogEntry.fields` — how an entry is presented.
* `LogLevel` — the levels, from the most to the least severe, with their names.
-/

namespace TreeScript

/-- An entry of the log. -/
inductive LogEntry where
  /-- A run begins. -/
  | runStarted
  /-- A function is invoked from a line, with so many arguments, as the `depth`-th nested call. -/
  | invoke (fn : Text) (line : Int) (args : Nat) (depth : Nat)
  /-- The print function was called; the text is what it prints. -/
  | print (text : Text)
  /-- A run ended well.  How long it took is left out: no two runs need agree on it. -/
  | runFinished
  /-- A run ended with an error, which has a line if it is a failure. -/
  | runFailed (error : Text) (line : Option Int)
  deriving DecidableEq, Repr, Inhabited

/-- The message of an entry. -/
def LogEntry.message : LogEntry → String
  | .runStarted => "run started"
  | .invoke .. => "invoke"
  | .print _ => "print called"
  | .runFinished => "run finished"
  | .runFailed .. => "run failed"

/-- The value of a field of an entry. -/
inductive LogValue where
  /-- A text. -/
  | text (s : Text)
  /-- A number. -/
  | number (n : Int)
  deriving DecidableEq, Repr, Inhabited

/-- The fields of an entry of a program with the given path, which is named if it is not empty. -/
def LogEntry.fields (path : String) (entry : LogEntry) : List (String × LogValue) :=
  let own := match entry with
    | .runStarted | .runFinished => []
    | .invoke fn line args depth =>
      [("fn", .text fn), ("line", .number line), ("args", .number args), ("depth", .number depth)]
    | .print text => [("args", .text text)]
    | .runFailed error line =>
      ("error", .text error) :: match line with
        | some line => [("line", .number line)]
        | none => []
  if path = "" then own else ("path", .text path) :: own

/-- A level of a logger, most severe first. -/
inductive LogLevel where
  | panic | fatal | error | warning | info | debug | trace
  deriving DecidableEq, Repr, Inhabited

/-- Why a level is refused. -/
structure LogLevel.Unknown where
  /-- The name that is no level. -/
  name : String
  deriving DecidableEq, Repr, Inhabited

/-- The text of the refusal. -/
def LogLevel.Unknown.message (u : LogLevel.Unknown) : String :=
  "not a valid logrus Level: " ++ Text.quoted u.name

/-- The level of a name, in any letter case. -/
def LogLevel.ofName (name : String) : Except LogLevel.Unknown LogLevel :=
  match Text.lower name with
  | "panic" => .ok .panic
  | "fatal" => .ok .fatal
  | "error" => .ok .error
  | "warn" => .ok .warning
  | "warning" => .ok .warning
  | "info" => .ok .info
  | "debug" => .ok .debug
  | "trace" => .ok .trace
  | _ => .error ⟨name⟩

/-- Whether a logger of this level keeps the entries of a run, which are all of the level `debug`. -/
def LogLevel.keepsDebug : LogLevel → Bool
  | .debug | .trace => true
  | _ => false

end TreeScript
