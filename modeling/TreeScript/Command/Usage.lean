import TreeScript.Eval.Log
import TreeScript.Text.Quoted

/-!
# Errors of usage

## Main definitions

* `ValueType`, `ValueError` — values of options, and why a text is none.
* `UsageError` — what is wrong with the arguments, and its text.
-/

namespace TreeScript.Command

/-- What the value of an option is. -/
inductive ValueType where
  /-- A 64-bit integer. -/
  | integer
  /-- A truth value. -/
  | truth
  deriving DecidableEq, Repr, Inhabited

/-- Why a text is not the value of an option. -/
structure ValueError where
  /-- What the value should be. -/
  type : ValueType
  /-- The text. -/
  text : String
  /-- Whether it is a number that is too large. -/
  outOfRange : Bool := false
  deriving DecidableEq, Repr, Inhabited

/-- The text of an error. -/
def ValueError.message (e : ValueError) : String :=
  let reader := match e.type with
    | .integer => "strconv.ParseInt"
    | .truth => "strconv.ParseBool"
  let reason := if e.outOfRange then "value out of range" else "invalid syntax"
  s!"{reader}: parsing {Text.quoted e.text}: {reason}"

/-- What is wrong with the arguments. -/
inductive UsageError where
  /-- There is no such option. -/
  | unknownArgument (argument : String)
  /-- There is no such command. -/
  | invalidSubcommand (name : String)
  /-- An argument more than the command takes. -/
  | tooManyPositionals (argument : String)
  /-- An argument that the command needs is missing. -/
  | fileRequired
  /-- An option has no value. -/
  | missingValue (argument : String)
  /-- An option has a value that is none. -/
  | badOption (argument : String) (reason : ValueError)
  /-- A variable of the environment has a value that is none. -/
  | badVariable (name : String) (reason : ValueError)
  /-- There is no log level of that name. -/
  | badLevel (level : LogLevel.Unknown)
  /-- There is no command. -/
  | missingSubcommand
  deriving DecidableEq, Repr, Inhabited

/-- The text of an error. -/
def UsageError.message : UsageError → String
  | .unknownArgument argument => s!"unknown argument {argument}"
  | .invalidSubcommand name => s!"invalid subcommand: {name}"
  | .tooManyPositionals argument => s!"too many positional arguments at '{argument}'"
  | .fileRequired => "file is required"
  | .missingValue argument => s!"missing value for {argument}"
  | .badOption argument reason => s!"error processing {argument}: {reason.message}"
  | .badVariable name reason => s!"error processing environment variable {name}: {reason.message}"
  | .badLevel level => level.message
  | .missingSubcommand => "missing subcommand: run, tree or test"

end TreeScript.Command
