import TreeScript.Command.Usage

/-!
# Arguments

The arguments name a command, what it works on, and options, which may stand anywhere.  An option that is
not given takes its value from the environment if there is one.

## Main definitions

* `Subcommand`, `OptionName` — the commands and the options.
* `Choices` — the values of the options that are given.
* `Arguments` — what the arguments ask for.
* `parseArguments` — reads arguments and environment.
-/

namespace TreeScript.Command

/-- The commands. -/
inductive Subcommand where
  /-- Runs a program. -/
  | run
  /-- Prints a program. -/
  | tree
  /-- Runs fixtures. -/
  | test
  deriving DecidableEq, Repr, Inhabited

/-- The command of a name. -/
def Subcommand.ofName? : String → Option Subcommand
  | "run" => some .run
  | "tree" => some .tree
  | "test" => some .test
  | _ => none

/-- The options. -/
inductive OptionName where
  /-- The level of the logger. -/
  | logLevel
  /-- The limit on nested calls. -/
  | maxDepth
  /-- Whether failures are shown without colour. -/
  | noColor
  /-- The number of fixtures run at once. -/
  | parallel
  deriving DecidableEq, Repr, Inhabited

/-- The name of an option. -/
def OptionName.text : OptionName → String
  | .logLevel => "log-level"
  | .maxDepth => "max-depth"
  | .noColor => "no-color"
  | .parallel => "parallel"

/-- The variable of the environment that sets an option. -/
def OptionName.variable? : OptionName → Option String
  | .logLevel => some "SMALLJS_LOG_LEVEL"
  | .maxDepth => some "SMALLJS_MAX_DEPTH"
  | .noColor => none
  | .parallel => some "SMALLJS_PARALLEL"

/-- Whether the value of an option is an integer. -/
def OptionName.isInteger : OptionName → Bool
  | .maxDepth | .parallel => true
  | _ => false

/-- The options that every command has. -/
def commonOptions : List OptionName :=
  [.logLevel, .maxDepth, .noColor]

/-- The options that a command has besides. -/
def Subcommand.options : Subcommand → List OptionName
  | .test => [.parallel]
  | _ => []

/-- The values of the options that are given. -/
structure Choices where
  /-- The level of the logger. -/
  logLevel : String := "warning"
  /-- The limit on nested calls. -/
  maxDepth : Int := 10000
  /-- Whether failures are shown without colour. -/
  noColor : Bool := false
  /-- The number of fixtures run at once. -/
  parallel : Int := 4
  deriving DecidableEq, Repr, Inhabited

/-! ### Values -/

/-- The number that decimal digits write after the number `n`, which must fit 64 bits; the first fault from
the left counts. -/
def readDigits (n : Nat) : List Char → Except Bool Nat
  | [] => .ok n
  | c :: rest =>
    if c < '0' || '9' < c then .error false
    else
      let n := n * 10 + (c.toNat - '0'.toNat)
      if Nat.pow 2 64 ≤ n then .error true else readDigits n rest

/-- A decimal integer of 64 bits with an optional sign. -/
def readInteger (text : String) : Except ValueError Int :=
  let (negative, digits) := match text.toList with
    | '-' :: rest => (true, rest)
    | '+' :: rest => (false, rest)
    | cs => (false, cs)
  let bad (outOfRange : Bool) : Except ValueError Int := .error ⟨.integer, text, outOfRange⟩
  if digits.isEmpty then bad false
  else
    match readDigits 0 digits with
    | .error outOfRange => bad outOfRange
    | .ok n =>
      if negative then (if n ≤ Nat.pow 2 63 then .ok (-(n : Int)) else bad true)
      else (if n < Nat.pow 2 63 then .ok n else bad true)

/-- A truth value. -/
def readTruth (text : String) : Except ValueError Bool :=
  if ["1", "t", "T", "true", "TRUE", "True"].contains text then .ok true
  else if ["0", "f", "F", "false", "FALSE", "False"].contains text then .ok false
  else .error ⟨.truth, text, false⟩

/-- Gives an option a value. -/
def Choices.set (c : Choices) (o : OptionName) (value : String) : Except ValueError Choices := do
  match o with
  | .logLevel => return { c with logLevel := value }
  | .maxDepth => return { c with maxDepth := ← readInteger value }
  | .noColor => return { c with noColor := ← readTruth value }
  | .parallel => return { c with parallel := ← readInteger value }

/-! ### Arguments -/

/-- Why no command is carried out. -/
inductive Halt where
  /-- Help is asked for. -/
  | help
  /-- The version is asked for. -/
  | version
  /-- The arguments are wrong. -/
  | usage (e : UsageError)
  deriving DecidableEq, Repr, Inhabited

/-- What has been read of the arguments. -/
structure Parsing where
  /-- The command. -/
  subcommand : Option Subcommand := none
  /-- The options that may come. -/
  options : List OptionName := commonOptions
  /-- The values of the options. -/
  choices : Choices := {}
  /-- Whether everything that follows is no option. -/
  onlyPositionals : Bool := false
  /-- What the command works on, last ones first. -/
  positionals : List String := []

/-- The environment: the values of variables. -/
abbrev Environment := String → Option String

/-- Sets options from the environment. -/
def readEnvironment (env : Environment) : List OptionName → Choices → Except UsageError Choices
  | [], c => .ok c
  | o :: rest, c =>
    match o.variable?.bind fun name => (env name).map (name, ·) with
    | none => readEnvironment env rest c
    | some (name, value) =>
      match c.set o value with
      | .ok c => readEnvironment env rest c
      | .error reason => .error (.badVariable name reason)

/-- Whether an argument is an option: it starts with a dash and is not dashes alone. -/
def isOption (argument : String) : Bool :=
  argument.startsWith "-" && argument.toList.any (· != '-')

/-- The name of an option in an argument, and the value after an equals sign, empty if there is none. -/
def splitOption (argument : String) : String × String :=
  let chars := argument.toList.dropWhile (· == '-')
  (String.ofList (chars.takeWhile (· != '=')),
    String.ofList ((chars.dropWhile (· != '=')).drop 1))

/-- The option of a name; the empty name stands for the first one. -/
def findOption? (options : List OptionName) (name : String) : Option OptionName :=
  options.find? fun o => name.isEmpty || o.text == name

/-- Whether an argument can be the value of the option before it. -/
def canBeValue (o : OptionName) (argument : String) : Bool :=
  !isOption argument || (o.isInteger && (readInteger argument).toOption.isSome)

/-- Takes an argument that is no option: the command, or what it works on. -/
def Parsing.positional (p : Parsing) (env : Environment) (argument : String) :
    Except UsageError Parsing :=
  match p.subcommand with
  | some _ => .ok { p with positionals := argument :: p.positionals }
  | none =>
    match Subcommand.ofName? argument with
    | none => .error (.invalidSubcommand argument)
    | some command => do
      let choices ← readEnvironment env command.options p.choices
      return { p with
        subcommand := some command
        options := p.options ++ command.options
        choices }

/-- Gives an option the value that an argument has for it. -/
def Parsing.setOption (p : Parsing) (o : OptionName) (argument value : String) :
    Except UsageError Parsing :=
  match p.choices.set o value with
  | .ok choices => .ok { p with choices }
  | .error reason => .error (.badOption argument reason)

/-- Reads arguments from the left. -/
def readArguments (env : Environment) (p : Parsing) : List String → Except Halt Parsing
  | [] => .ok p
  | argument :: rest => do
    if argument == "--" then readArguments env { p with onlyPositionals := true } rest
    else if !isOption argument || p.onlyPositionals then
      let p ← (p.positional env argument).mapError .usage
      readArguments env p rest
    else if argument == "-h" || argument == "--help" then throw .help
    else if argument == "--version" then throw .version
    else
      let (name, value) := splitOption argument
      match findOption? p.options name with
      | none => throw (.usage (.unknownArgument argument))
      | some o =>
        let value := if value.isEmpty && o == .noColor then "true" else value
        if !value.isEmpty then
          let p ← (p.setOption o argument value).mapError .usage
          readArguments env p rest
        else
          match rest with
          | [] => throw (.usage (.missingValue argument))
          | next :: rest =>
            if canBeValue o next then
              let p ← (p.setOption o argument next).mapError .usage
              readArguments env p rest
            else throw (.usage (.missingValue argument))

/-- What a command works on. -/
inductive Task where
  /-- Nothing is to be done. -/
  | none
  /-- A program is to be run. -/
  | run (file : String)
  /-- A program is to be printed. -/
  | tree (file : String)
  /-- The fixtures of a directory are to be run. -/
  | test (directory : String)
  deriving DecidableEq, Repr, Inhabited

/-- What the arguments ask for. -/
structure Arguments where
  /-- What is to be done. -/
  task : Task
  /-- The values of the options. -/
  choices : Choices
  deriving DecidableEq, Repr, Inhabited

/-- What is to be done after all arguments have been read: a program must be named, and fixtures are those
of the working directory unless another one is named. -/
def Parsing.task (p : Parsing) : Except UsageError Task :=
  match p.subcommand, p.positionals.reverse with
  | _, _ :: extra :: _ => .error (.tooManyPositionals extra)
  | none, _ => .ok .none
  | some .run, [file] => .ok (.run file)
  | some .tree, [file] => .ok (.tree file)
  | some .test, [directory] => .ok (.test directory)
  | some .test, [] => .ok (.test ".")
  | some _, [] => .error .fileRequired

/-- Reads arguments and environment without regard to a late call for help. -/
def parseInOrder (env : Environment) (argv : List String) : Except Halt Arguments := do
  let choices ← (readEnvironment env commonOptions {}).mapError .usage
  let p ← readArguments env { choices } argv
  let task ← p.task.mapError .usage
  return ⟨task, p.choices⟩

/-- Reads arguments and environment.  A call for help counts before any error. -/
def parseArguments (env : Environment) (argv : List String) : Except Halt Arguments :=
  match parseInOrder env argv with
  | .ok a => .ok a
  | .error halt =>
    let options := argv.takeWhile (· != "--")
    if options.contains "-h" || options.contains "--help" then .error .help else .error halt

end TreeScript.Command
