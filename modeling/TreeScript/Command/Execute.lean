import TreeScript.Command.Arguments
import TreeScript.Fixture.Suite
import TreeScript.Syntax.Printer

/-!
# Carrying out commands

## Main definitions

* `Notice`, `Report` — what a command writes and how it ends.
* `Conclusion` — what comes of a command: a report, or a crash.
* `execute` — what is done with files, environment and arguments.
-/

namespace TreeScript.Command

/-- What a command writes on its error stream. -/
inductive Notice where
  /-- Nothing. -/
  | none
  /-- That the arguments are wrong. -/
  | usage (e : UsageError)
  /-- That a file cannot be loaded. -/
  | load (e : LoadError)
  /-- How a run failed. -/
  | failure (text : Text)
  /-- That the command crashed. -/
  | crash

/-- The text of a notice. -/
def Notice.text : Notice → Text
  | .none => []
  | .usage e => s!"error: {e.message}\n"
  | .load e => e.message ++ "\n"
  | .failure text => text
  | .crash => "panic: runtime error: invalid memory address or nil pointer dereference\n"

/-- What a command writes and how it ends. -/
structure Report where
  /-- The exit status. -/
  exit : Nat := 0
  /-- What it writes on its output. -/
  output : Text := []
  /-- What it writes on its error stream. -/
  notice : Notice := .none

/-- The report of wrong arguments. -/
def Report.usage (e : UsageError) : Report :=
  { exit := 255, notice := .usage e }

/-- What comes of a command. -/
inductive Conclusion where
  /-- It writes something and ends. -/
  | reported (r : Report)
  /-- It crashes on something that is not there. -/
  | crashed
  /-- It cannot be told: a file asks for something that the reader has no way to answer, or a run without
  a depth limit nests more calls than any memory holds. -/
  | unknown

/-- What is written, and the exit status, if they can be told.  Where it crashed is left out of the notice
of a crash. -/
def Conclusion.report? : Conclusion → Option Report
  | .reported r => some r
  | .crashed => some { exit := 2, notice := .crash }
  | .unknown => none

/-- What comes of a file that cannot be loaded. -/
def Conclusion.load (e : LoadError) : Conclusion :=
  if e.isAbrupt then .unknown else .reported { exit := 1, notice := .load e }

/-- Runs the program in a file. -/
def runFile (fs : FileSystem) (limit : DepthLimit) (path : String) : Conclusion :=
  match Program.load fs path with
  | .error e => .load e
  | .ok p =>
    let r := p.run limit {}
    match r.ending with
    | .crashed => .crashed
    | .outOfFuel => .unknown
    | _ => .reported
      { exit := if r.ok then 0 else 1, output := r.output, notice := .failure r.report }

/-- Prints the program in a file.  The command crashes on a block that it prints and that is not there. -/
def printFile (fs : FileSystem) (path : String) : Conclusion :=
  match Program.load fs path with
  | .error e => .load e
  | .ok p => match p.render? with
    | some text => .reported { output := text }
    | none => .crashed

/-- The lines on the result of a fixture. -/
def resultText (r : FixtureResult) : Text :=
  if r.passed then "PASS " ++ r.fixture.name ++ "\n"
  else
    "FAIL " ++ r.fixture.name ++ " (" ++ Text.ofString r.fixture.path ++ ")\n\t" ++ r.verdict.problem ++
      "\n"

/-- The line with the numbers of fixtures that passed and that failed. -/
def totalsText (rs : List FixtureResult) : String :=
  let failed := (failedResults rs).length
  s!"{rs.length - failed} passed, {failed} failed\n"

/-- Runs the fixtures of a directory. -/
def testDirectory (fs : FileSystem) (limit : DepthLimit) (directory : String) : Conclusion :=
  match Fixture.loadAll fs directory with
  | .error e => .load e
  | .ok fixtures =>
    match runFixtures limit false fixtures with
    | .error e => .reported { exit := 1, notice := .failure (e.message ++ "\n") }
    | .ok results =>
      if results.any fun r => r.run.ending = .crashed then .crashed
      else if results.any fun r => r.run.ending = .outOfFuel then .unknown
      else .reported {
        exit := if (failedResults results).isEmpty then 0 else 1
        output := results.flatMap resultText ++ totalsText results }

/-- Carries out what the arguments ask for. -/
def Arguments.execute (a : Arguments) (fs : FileSystem) : Conclusion :=
  match Settings.ofNames a.choices.logLevel a.choices.maxDepth with
  | .error level => .reported (.usage (.badLevel level))
  | .ok settings =>
    match a.task with
    | .none => .reported (.usage .missingSubcommand)
    | .run file => runFile fs settings.limit file
    | .tree file => printFile fs file
    | .test directory => testDirectory fs settings.limit directory

/-- How the command is used. -/
def helpText : String :=
  "smalljs evaluates programs given as syntax tree documents\n\n" ++
    "Usage: smalljs [--log-level LEVEL] [--max-depth DEPTH] [--no-color] <command> [<args>]\n\n" ++
    "Commands:\n" ++
    "  run FILE    evaluate a program\n" ++
    "  tree FILE   print the syntax tree of a program\n" ++
    "  test [DIR]  run fixture programs and compare their output\n"

/-- The report when no command is carried out. -/
def Halt.report : Halt → Report
  | .help => { output := helpText }
  | .version => { output := "\n" }
  | .usage e => .usage e

/-- What is done with files, environment and arguments. -/
def execute (fs : FileSystem) (env : Environment) (argv : List String) : Conclusion :=
  match parseArguments env argv with
  | .error halt => .reported halt.report
  | .ok a => a.execute fs

end TreeScript.Command
