import TreeScript.Eval.Run
import TreeScript.Fixture.Basic

/-!
# Judging fixtures

## Main definitions

* `Verdict` — whether a run is what its fixture expects, and how it differs.
* `Verdict.problem` — the text of a difference.
* `Fixture.judge` — the verdict on a run.
* `FixtureResult`, `runFixtures` — fixtures with their runs.
-/

namespace TreeScript

/-- Whether a run is what its fixture expects. -/
inductive Verdict where
  /-- It is. -/
  | passed
  /-- It failed and should not have. -/
  | unexpectedFailure (found : Text)
  /-- It should have failed and did not. -/
  | missingFailure (expected : Text)
  /-- It failed in another way. -/
  | otherFailure (found expected : Text)
  /-- It printed something else. -/
  | outputMismatch
  deriving DecidableEq, Repr, Inhabited

/-- The text of a difference, empty if there is none.  Where the output is another, the lines that set the
two side by side are left out: how they are spaced is not fixed. -/
def Verdict.problem : Verdict → Text
  | .passed => []
  | .unexpectedFailure found => "unexpected failure: " ++ found
  | .missingFailure expected => s!"expected a failure containing {Text.quoted expected}"
  | .otherFailure found expected =>
    s!"failure {Text.quoted found} does not contain {Text.quoted expected}"
  | .outputMismatch => "output mismatch (-want +got):"

/-- Whether bytes occur in others. -/
def occursIn (part : List UInt8) : List UInt8 → Bool
  | [] => part.isEmpty
  | b :: rest => part.isPrefixOf (b :: rest) || occursIn part rest

namespace Fixture

/-- The verdict on a run of a fixture: its error counts first, then what it printed. -/
def judge (f : Fixture) (r : Run) : Verdict :=
  let outputVerdict := if f.output == r.output then Verdict.passed else .outputMismatch
  match r.fault? with
  | some e =>
    if f.failure.isEmpty then .unexpectedFailure e.text
    else if occursIn (Text.bytes f.failure) (Text.bytes e.text) then outputVerdict
    else .otherFailure e.text f.failure
  | none => if f.failure.isEmpty then outputVerdict else .missingFailure f.failure

end Fixture

/-- A fixture and its run. -/
structure FixtureResult where
  /-- The fixture. -/
  fixture : Fixture
  /-- The run of its program. -/
  run : Run

namespace FixtureResult

/-- The verdict on the run. -/
def verdict (r : FixtureResult) : Verdict :=
  r.fixture.judge r.run

/-- Whether the run is what the fixture expects. -/
def passed (r : FixtureResult) : Bool :=
  r.verdict == .passed

end FixtureResult

/-- Runs a fixture on a sink of its own. -/
def Fixture.run (limit : DepthLimit) (f : Fixture) : FixtureResult :=
  { fixture := f, run := f.program.run limit {} }

/-- Why fixtures were not run. -/
inductive SuiteError where
  /-- The runs were called off before the first. -/
  | cancelled
  deriving DecidableEq, Repr, Inhabited

/-- The text of an error. -/
def SuiteError.message : SuiteError → String
  | .cancelled => "context canceled"

/-- Runs fixtures, each on its own, with the results in the order of the fixtures.  If they are called off
before the first, none is run, which is an error unless there is none to run. -/
def runFixtures (limit : DepthLimit) (cancelled : Bool) (fs : List Fixture) :
    Except SuiteError (List FixtureResult) :=
  if cancelled && !fs.isEmpty then .error .cancelled else .ok (fs.map (Fixture.run limit))

/-- The results that are not as expected. -/
def failedResults (rs : List FixtureResult) : List FixtureResult :=
  rs.filter (!·.passed)

end TreeScript
