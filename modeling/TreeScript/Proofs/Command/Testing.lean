import Mathlib.Data.List.Forall2
import Mathlib.Data.List.Infix
import TreeScript.Command.Execute
import TreeScript.Proofs.Eval.Settling

/-!
# What the test command reports

The test command loads the fixtures of a directory, runs them, and reports on each.  Here is said
what it reports in terms of the directory alone: which entries are fixtures, in which order they
come, and what it takes to pass.

## Main definitions

* `Fixture.Passes` — what the run of a fixture has to do.
* `Fixture.ReportedAs` — the lines that a report has on a fixture.

## Main results

* `Fixture.passed_run_iff` — **the verdict on a run is whether the fixture passes.**
* `Command.test_judged_exactly` — **the test command judges fixtures exactly.**
-/

namespace TreeScript

/-! ### Fixtures that pass -/

namespace Fixture

/-- The run of the fixture prints what is expected, and it finishes if no failure is expected, or
else fails with an error whose text contains the one expected. -/
structure Passes (limit : DepthLimit) (f : Fixture) : Prop where
  /-- It prints just what is expected. -/
  output : (f.program.run limit {}).output = f.output
  /-- It ends as expected. -/
  ending : (f.failure = [] ∧ (f.program.run limit {}).ending = .finished) ∨
    (f.failure ≠ [] ∧ ∃ e, (f.program.run limit {}).ending = .failed e ∧
      Text.bytes f.failure <:+: Text.bytes e.text)

/-- The lines that a report has on a fixture, with a problem if it does not pass. -/
def ReportedAs (limit : DepthLimit) (f : Fixture) (lines : Text) : Prop :=
  (f.Passes limit ∧ lines = "PASS " ++ f.name ++ "\n") ∨
    (¬ f.Passes limit ∧ ∃ problem : Text, problem ≠ [] ∧
      lines = "FAIL " ++ f.name ++ " (" ++ Text.ofString f.path ++ ")\n\t" ++ problem ++ "\n")

end Fixture

/-- Bytes occur in others if those contain them in a row. -/
theorem occursIn_iff (part bytes : List UInt8) : occursIn part bytes = true ↔ part <:+: bytes := by
  induction bytes with
  | nil => simp [occursIn]
  | cons b rest ih =>
    rw [occursIn, Bool.or_eq_true, List.isPrefixOf_iff_prefix, ih, List.infix_cons_iff]

/-- A verdict has a problem unless it is that the fixture passed. -/
theorem Verdict.problem_eq_nil_iff {v : Verdict} : v.problem = [] ↔ v = .passed := by
  cases v <;> simp [problem, Text.ofString, toString]

namespace Fixture

/-- **The verdict on a run is whether the fixture passes**, unless there was not enough fuel for
the run. -/
theorem passed_run_iff (limit : DepthLimit) (f : Fixture) :
    ((f.program.run limit {}).ending ≠ .outOfFuel ∧ (f.run limit).passed = true) ↔
      f.Passes limit := by
  have hpasses : f.Passes limit ↔ (f.program.run limit {}).output = f.output ∧ _ :=
    ⟨fun h => ⟨h.output, h.ending⟩, fun h => ⟨h.1, h.2⟩⟩
  rw [hpasses, FixtureResult.passed, beq_iff_eq, FixtureResult.verdict, run]
  simp only [judge, Run.fault?]
  have huncrashed := f.program.ending_ne_crashed limit.fuel limit {}
  generalize (f.program.run limit {}).output = output
  cases hending : (f.program.run limit {}).ending with
  | crashed => exact absurd hending huncrashed
  | outOfFuel => simp
  | finished =>
    by_cases hfailure : f.failure = []
    · simpa [hfailure] using eq_comm
    · simp [hfailure]
  | failed e =>
    by_cases hfailure : f.failure = []
    · simp [hfailure]
    · by_cases hoccurs : Text.bytes f.failure <:+: Text.bytes e.text
      · simpa [hfailure, hoccurs, (occursIn_iff _ _).mpr hoccurs] using eq_comm
      · simp [hfailure, hoccurs, occursIn_iff]

instance (limit : DepthLimit) (f : Fixture) : Decidable (f.Passes limit) :=
  decidable_of_iff _ (passed_run_iff limit f)

/-- The verdict on a run for which there was enough fuel. -/
theorem passed_run_eq {limit : DepthLimit} {f : Fixture}
    (h : (f.program.run limit {}).ending ≠ .outOfFuel) :
    (f.run limit).passed = decide (f.Passes limit) := by
  rw [Bool.eq_iff_iff, decide_eq_true_iff, ← passed_run_iff]
  exact ⟨fun hpassed => ⟨h, hpassed⟩, fun hpassed => hpassed.2⟩

/-- The lines on the result of a fixture say whether it passes. -/
theorem reportedAs_resultText {limit : DepthLimit} {f : Fixture}
    (h : (f.program.run limit {}).ending ≠ .outOfFuel) :
    f.ReportedAs limit (Command.resultText (f.run limit)) := by
  rw [Command.resultText, passed_run_eq h]
  by_cases hpasses : f.Passes limit
  · left
    simp only [hpasses, decide_true, if_true]
    exact ⟨trivial, rfl⟩
  · right
    have hproblem : (f.run limit).verdict.problem ≠ [] := by
      rw [ne_eq, Verdict.problem_eq_nil_iff, ← beq_iff_eq]
      show ¬ (f.run limit).passed = true
      rw [passed_run_eq h, decide_eq_true_iff]
      exact hpasses
    simp only [hpasses, decide_false]
    exact ⟨not_false, _, hproblem, rfl⟩

end Fixture

/-! ### Loading a directory -/

/-- Whether a computation ends with something of which a property holds can be found out by carrying
it out. -/
instance decidableExistsOk {ε α : Type} (P : α → Prop) [DecidablePred P] :
    (x : Except ε α) → Decidable (∃ a, x = .ok a ∧ P a)
  | .ok a => decidable_of_iff (P a) ⟨fun h => ⟨a, rfl, h⟩, fun ⟨_, heq, h⟩ => by cases heq; exact h⟩
  | .error _ => .isFalse fun ⟨_, heq, _⟩ => by cases heq

/-- Doing something for every element of a list succeeds if it does for each. -/
theorem mapM_eq_ok_iff {ε α β : Type} {f : α → Except ε β} {l : List α} {r : List β} :
    l.mapM f = .ok r ↔ l.map f = r.map .ok := by
  induction l generalizing r with
  | nil => cases r <;> simp [pure, Except.pure]
  | cons a l ih =>
    rw [List.mapM_cons, List.map_cons]
    cases ha : f a with
    | error e => cases r <;> simp [bind, Except.bind]
    | ok b =>
      cases hl : l.mapM f with
      | error e => cases r <;> simp [bind, Except.bind, ← ih, hl]
      | ok bs => cases r <;> simp [bind, Except.bind, pure, Except.pure, ← ih, hl]

/-- Doing something for every element of a list fails as it does for one of them. -/
theorem exists_of_mapM_eq_error {ε α β : Type} {f : α → Except ε β} {l : List α} {e : ε}
    (h : l.mapM f = .error e) : ∃ a ∈ l, f a = .error e := by
  induction l with
  | nil => cases h
  | cons a l ih =>
    rw [List.mapM_cons] at h
    cases ha : f a with
    | error e' =>
      rw [ha] at h
      cases h
      exact ⟨a, List.mem_cons_self, ha⟩
    | ok b =>
      cases hl : l.mapM f with
      | error e' =>
        rw [ha, hl] at h
        cases h
        obtain ⟨a', ha', hfa'⟩ := ih hl
        exact ⟨a', List.mem_cons_of_mem _ ha', hfa'⟩
      | ok bs =>
        rw [ha, hl] at h
        cases h

theorem FileSystem.nameLe_iff (a b : String × FileTree) : nameLe a b = true ↔ a.1 ≤ b.1 :=
  decide_eq_true_iff

/-- Entries come in the order of their names. -/
theorem FileSystem.pairwise_mergeSort (entries : List (String × FileTree)) :
    (entries.mergeSort nameLe).Pairwise (·.1 ≤ ·.1) := by
  have htrans (a b c : String × FileTree) (hab : nameLe a b = true) (hbc : nameLe b c = true) :
      nameLe a c = true := by
    rw [nameLe_iff] at *
    exact String.le_trans hab hbc
  have htotal (a b : String × FileTree) : (nameLe a b || nameLe b a) = true := by
    rw [Bool.or_eq_true, nameLe_iff, nameLe_iff]
    exact String.le_total a.1 b.1
  exact (List.pairwise_mergeSort htrans htotal entries).imp fun h => (nameLe_iff _ _).mp h

/-- A path that is not too long leads to what its parts, from the root on, lead to. -/
theorem FileSystem.find_eq_follow {fs : FileSystem} {path : String} (parts : List String)
    (hpath : path ≠ "" ∧ '\x00' ∉ path.toList ∧ path.utf8ByteSize ≤ pathLimit)
    (hparts : Path.parts
      (if Path.isAbsolute path then path else fs.workingDirectory ++ "/" ++ path) = parts) :
    fs.find path = follow fs.root [] parts := by
  obtain ⟨hempty, hnul, hshort⟩ := hpath
  have hcontains : path.toList.contains '\x00' = false := by simpa using hnul
  rw [← hparts, find, if_neg (by simpa using hempty), hcontains, if_neg (by decide),
    if_neg (by omega)]

namespace Fixture

/-- An entry of a directory that is no directory and has one of three extensions. -/
def HeldBy (entry : String × FileTree) : Prop :=
  entry.2.isDirectory = false ∧ Path.extension entry.1 ∈ [".yaml", ".yml", ".json"]

instance (entry : String × FileTree) : Decidable (HeldBy entry) :=
  inferInstanceAs (Decidable (_ ∧ _))

theorem isFixtureEntry_eq (entry : String × FileTree) :
    isFixtureEntry entry = decide (HeldBy entry) := by
  simp [isFixtureEntry, HeldBy, extensions]

/-- The entries of a directory that hold fixtures, in the order of their names. -/
def ordered (entries : List (String × FileTree)) : List (String × FileTree) :=
  (entries.mergeSort FileSystem.nameLe).filter fun entry => HeldBy entry

theorem ordered_perm (entries : List (String × FileTree)) :
    (ordered entries).Perm (entries.filter fun entry => HeldBy entry) :=
  (List.mergeSort_perm entries _).filter _

theorem mem_ordered {entries : List (String × FileTree)} {entry : String × FileTree} :
    entry ∈ ordered entries ↔ entry ∈ entries ∧ HeldBy entry := by
  rw [(ordered_perm entries).mem_iff, List.mem_filter, decide_eq_true_iff]

theorem pairwise_ordered (entries : List (String × FileTree)) :
    (ordered entries).Pairwise (·.1 ≤ ·.1) :=
  (FileSystem.pairwise_mergeSort entries).filter _

variable {fs : FileSystem} {directory : String} {entries : List (String × FileTree)}
  (hdir : fs.find directory = .ok (.directory entries))
include hdir

/-- The fixtures of a directory are loaded one after another. -/
theorem loadAll_eq : loadAll fs directory =
    (ordered entries).mapM fun entry => load fs (Path.join directory entry.1) := by
  have hentries : (entries.mergeSort FileSystem.nameLe).filter isFixtureEntry = ordered entries :=
    List.filter_congr fun entry _ => isFixtureEntry_eq entry
  rw [loadAll, FileSystem.list, hdir, ← hentries]
  rfl

/-- If every fixture of a directory loads, all do. -/
theorem exists_loadAll
    (h : ∀ entry ∈ entries, HeldBy entry → ∃ f, load fs (Path.join directory entry.1) = .ok f) :
    ∃ fixtures, loadAll fs directory = .ok fixtures := by
  cases hload : loadAll fs directory with
  | ok fixtures => exact ⟨fixtures, rfl⟩
  | error e =>
    rw [loadAll_eq hdir] at hload
    obtain ⟨entry, hentry, herror⟩ := exists_of_mapM_eq_error hload
    obtain ⟨f, hf⟩ := h entry (mem_ordered.mp hentry).1 (mem_ordered.mp hentry).2
    rw [herror] at hf
    cases hf

/-- The fixtures that are loaded are those of the entries, in the order of their names. -/
theorem map_load_of_loadAll {fixtures : List Fixture} (h : loadAll fs directory = .ok fixtures) :
    ((ordered entries).map fun entry => load fs (Path.join directory entry.1)) =
      fixtures.map .ok := by
  rw [loadAll_eq hdir] at h
  exact mapM_eq_ok_iff.mp h

/-- Something holds of all fixtures that are loaded if each entry holds one of which it does. -/
theorem forall_loaded_iff {fixtures : List Fixture} (h : loadAll fs directory = .ok fixtures)
    (P : Fixture → Prop) :
    (∀ f ∈ fixtures, P f) ↔
      ∀ entry ∈ entries, HeldBy entry →
        ∃ f, load fs (Path.join directory entry.1) = .ok f ∧ P f := by
  have hmap := map_load_of_loadAll hdir h
  constructor
  · intro hall entry hentry hheld
    have hmem := List.mem_map_of_mem (f := fun entry => load fs (Path.join directory entry.1))
      (mem_ordered.mpr ⟨hentry, hheld⟩)
    rw [hmap] at hmem
    obtain ⟨f, hf, hload⟩ := List.mem_map.mp hmem
    exact ⟨f, hload.symm, hall f hf⟩
  · -- a fixture that was loaded is the one that its entry holds
    intro hall f hf
    have hmem : (.ok f : Except LoadError Fixture) ∈ fixtures.map .ok := List.mem_map_of_mem hf
    rw [← hmap] at hmem
    obtain ⟨entry, hentry, hload⟩ := List.mem_map.mp hmem
    obtain ⟨hentry, hheld⟩ := mem_ordered.mp hentry
    obtain ⟨f', hload', hf'⟩ := hall entry hentry hheld
    rw [hload] at hload'
    cases hload'
    exact hf'

end Fixture

/-! ### The command -/

namespace Command

variable {fs : FileSystem} {limit : DepthLimit} {directory : String} {fixtures : List Fixture}

/-- The results that are not as expected are those of the fixtures that do not pass. -/
theorem failedResults_map (hfuel : ∀ f ∈ fixtures, (f.program.run limit {}).ending ≠ .outOfFuel) :
    failedResults (fixtures.map (Fixture.run limit)) =
      (fixtures.filter fun f => ¬ f.Passes limit).map (Fixture.run limit) := by
  rw [failedResults, List.filter_map]
  congr 1
  refine List.filter_congr fun f hf => ?_
  rw [Function.comp_apply, Fixture.passed_run_eq (hfuel f hf), decide_not]

/-- The totals are the numbers of fixtures that pass and that do not. -/
theorem exists_totals (hfuel : ∀ f ∈ fixtures, (f.program.run limit {}).ending ≠ .outOfFuel) :
    ∃ passed failed : Nat,
      totalsText (fixtures.map (Fixture.run limit)) = s!"{passed} passed, {failed} failed\n" ∧
      passed = fixtures.countP (fun f => f.Passes limit) ∧
      failed = fixtures.countP (fun f => ¬ f.Passes limit) ∧
      passed + failed = fixtures.length := by
  have hfailed : (failedResults (fixtures.map (Fixture.run limit))).length =
      fixtures.countP (fun f => ¬ f.Passes limit) := by
    rw [failedResults_map hfuel, List.length_map, List.countP_eq_length_filter]
  have hlength : fixtures.length = fixtures.countP (fun f => f.Passes limit) +
      fixtures.countP (fun f => ¬ f.Passes limit) := by
    rw [List.length_eq_countP_add_countP fun f => decide (f.Passes limit)]
    simp
  refine ⟨_, _, ?_, rfl, rfl, hlength.symm⟩
  simp only [totalsText, hfailed, List.length_map]
  rw [hlength, Nat.add_sub_cancel]

/-- There is a run that ends so. -/
theorem any_ending_iff {ending : Ending} :
    ((fixtures.map (Fixture.run limit)).any fun r => r.run.ending = ending) = true ↔
      ∃ f ∈ fixtures, (f.program.run limit {}).ending = ending := by
  simp only [List.any_map, List.any_eq_true, Function.comp_apply, decide_eq_true_iff]
  rfl

/-- No run of a fixture crashes. -/
theorem not_any_crashed :
    ¬ ((fixtures.map (Fixture.run limit)).any fun r => r.run.ending = .crashed) = true := by
  rw [any_ending_iff]
  rintro ⟨f, -, hcrashed⟩
  exact f.program.ending_ne_crashed limit.fuel limit {} hcrashed

/-- What is reported once all fixtures are loaded and run. -/
theorem testDirectory_of_loadAll (hload : Fixture.loadAll fs directory = .ok fixtures)
    (hfuel : ∀ f ∈ fixtures, (f.program.run limit {}).ending ≠ .outOfFuel) :
    testDirectory fs limit directory = .reported {
      exit := if ∀ f ∈ fixtures, f.Passes limit then 0 else 1
      output := fixtures.flatMap (fun f => resultText (f.run limit)) ++
        totalsText (fixtures.map (Fixture.run limit)) } := by
  have hany :
      ¬ ((fixtures.map (Fixture.run limit)).any fun r => r.run.ending = .outOfFuel) = true := by
    rw [any_ending_iff]
    rintro ⟨f, hf, hout⟩
    exact hfuel f hf hout
  have hall : (failedResults (fixtures.map (Fixture.run limit))).isEmpty = true ↔
      ∀ f ∈ fixtures, f.Passes limit := by
    rw [failedResults_map hfuel]
    simp
  simp only [testDirectory, hload, runFixtures, Bool.false_and, Bool.false_eq_true, if_false,
    not_any_crashed, hany, hall, List.flatMap_map]

/-- Nothing is reported if a run has not enough fuel. -/
theorem testDirectory_of_outOfFuel (hload : Fixture.loadAll fs directory = .ok fixtures)
    (hfuel : ∃ f ∈ fixtures, (f.program.run limit {}).ending = .outOfFuel) :
    testDirectory fs limit directory = .unknown := by
  simp only [testDirectory, hload, runFixtures, Bool.false_and, Bool.false_eq_true, if_false,
    not_any_crashed, any_ending_iff.mpr hfuel, if_true]

/-- Once all fixtures are loaded, success is reported if they pass. -/
theorem exists_exit_zero_iff (hload : Fixture.loadAll fs directory = .ok fixtures) :
    (∃ r, testDirectory fs limit directory = .reported r ∧ r.exit = 0) ↔
      ∀ f ∈ fixtures, f.Passes limit := by
  by_cases hfuel : ∀ f ∈ fixtures, (f.program.run limit {}).ending ≠ .outOfFuel
  · rw [testDirectory_of_loadAll hload hfuel]
    simp
  · -- a run without enough fuel does not pass, and keeps anything from being reported
    push Not at hfuel
    rw [testDirectory_of_outOfFuel hload hfuel]
    obtain ⟨f, hf, hout⟩ := hfuel
    constructor
    · rintro ⟨r, hr, -⟩
      cases hr
    · intro hall
      exact absurd hout ((Fixture.passed_run_iff limit f).mpr (hall f hf)).1

/-- Arguments that ask for a test have the fixtures of a directory run. -/
theorem execute_eq_testDirectory {env : Environment} {argv : List String} {a : Arguments}
    {settings : Settings} (hargs : parseArguments env argv = .ok a)
    (htask : a.task = .test directory)
    (hsettings : Settings.ofNames a.choices.logLevel a.choices.maxDepth = .ok settings) :
    execute fs env argv = testDirectory fs settings.limit directory := by
  simp only [execute, hargs, Arguments.execute, hsettings, htask]

/-- If a fixture does not load, nothing is run: the answer is that of one that does not. -/
theorem exists_testDirectory_eq_load {entries : List (String × FileTree)}
    (hdir : fs.find directory = .ok (.directory entries))
    (h : ∃ entry ∈ entries, Fixture.HeldBy entry ∧
      ∀ f, Fixture.load fs (Path.join directory entry.1) ≠ .ok f) :
    ∃ e, (∃ entry ∈ entries, Fixture.HeldBy entry ∧
        Fixture.load fs (Path.join directory entry.1) = .error e) ∧
      ∀ limit, testDirectory fs limit directory = .load e := by
  cases hload : Fixture.loadAll fs directory with
  | ok fixtures =>
    have hall := (Fixture.forall_loaded_iff hdir hload fun _ => True).mp fun _ _ => trivial
    obtain ⟨entry, hentry, hheld, hfails⟩ := h
    obtain ⟨f, hf, -⟩ := hall entry hentry hheld
    exact absurd hf (hfails f)
  | error e =>
    have herror := hload
    rw [Fixture.loadAll_eq hdir] at herror
    obtain ⟨entry, hentry, hfails⟩ := exists_of_mapM_eq_error herror
    obtain ⟨hentry, hheld⟩ := Fixture.mem_ordered.mp hentry
    refine ⟨e, ⟨entry, hentry, hheld, hfails⟩, fun limit => ?_⟩
    rw [testDirectory, hload]

/-- A file that cannot be loaded is not a success, and nothing is written on the output. -/
theorem exit_of_load {e : LoadError} {r : Report} (h : Conclusion.load e = .reported r) :
    r.exit = 1 ∧ r.output = [] := by
  rw [Conclusion.load] at h
  split at h
  · cases h
  · cases h
    exact ⟨rfl, rfl⟩

/-- **The test command judges fixtures exactly.**  It reports success if every entry of the directory
that holds a fixture loads as one that passes.  If all load, it reports on each of them in the order
of the names of their files, and then how many pass and how many do not; without a depth limit, this
takes runs that end.  If one does not load, it says why, whatever running the others would give, and
writes nothing on its output. -/
theorem test_judged_exactly {env : Environment} {argv : List String} {a : Arguments}
    {settings : Settings}
    {entries : List (String × FileTree)} (hargs : parseArguments env argv = .ok a)
    (htask : a.task = .test directory)
    (hsettings : Settings.ofNames a.choices.logLevel a.choices.maxDepth = .ok settings)
    (hdir : fs.find directory = .ok (.directory entries)) :
    ((∃ r, execute fs env argv = .reported r ∧ r.exit = 0) ↔
      ∀ entry ∈ entries, Fixture.HeldBy entry →
        ∃ f, Fixture.load fs (Path.join directory entry.1) = .ok f ∧ f.Passes settings.limit) ∧
    ((∀ entry ∈ entries, Fixture.HeldBy entry →
        ∃ f, Fixture.load fs (Path.join directory entry.1) = .ok f) →
      ∃ (ordered : List (String × FileTree)) (fixtures : List Fixture),
        ordered.Perm (entries.filter fun entry => Fixture.HeldBy entry) ∧
        ordered.Pairwise (·.1 ≤ ·.1) ∧
        (ordered.map fun entry => Fixture.load fs (Path.join directory entry.1)) =
          fixtures.map .ok ∧
        ((settings.limit.bound ≤ 0 →
            ∀ f ∈ fixtures, (f.program.run settings.limit {}).ending ≠ .outOfFuel) →
          ∃ r lines, ∃ passed failed : Nat,
            execute fs env argv = .reported r ∧
            r.output = lines.flatten ++ Text.ofString s!"{passed} passed, {failed} failed\n" ∧
            List.Forall₂ (Fixture.ReportedAs settings.limit) fixtures lines ∧
            passed = fixtures.countP (fun f => f.Passes settings.limit) ∧
            failed = fixtures.countP (fun f => ¬ f.Passes settings.limit) ∧
            passed + failed = fixtures.length)) ∧
    ((∃ entry ∈ entries, Fixture.HeldBy entry ∧
        ∀ f, Fixture.load fs (Path.join directory entry.1) ≠ .ok f) →
      ∃ e, (∃ entry ∈ entries, Fixture.HeldBy entry ∧
          Fixture.load fs (Path.join directory entry.1) = .error e) ∧
        (∀ limit, testDirectory fs limit directory = .load e) ∧
        ∀ r, execute fs env argv = .reported r → r.exit = 1 ∧ r.output = []) := by
  have hexecute : execute fs env argv = _ := execute_eq_testDirectory hargs htask hsettings
  rw [hexecute]
  refine ⟨?_, fun hall => ?_, fun hfails => ?_⟩
  · -- an entry that does not load keeps success from being reported, whatever the others do
    by_cases hall : ∀ entry ∈ entries, Fixture.HeldBy entry →
        ∃ f, Fixture.load fs (Path.join directory entry.1) = .ok f
    · obtain ⟨fixtures, hload⟩ := Fixture.exists_loadAll hdir hall
      rw [exists_exit_zero_iff hload, Fixture.forall_loaded_iff hdir hload]
    · push Not at hall
      obtain ⟨e, -, hanswer⟩ := exists_testDirectory_eq_load hdir hall
      obtain ⟨entry, hentry, hheld, hfails⟩ := hall
      constructor
      · rintro ⟨r, hr, hexit⟩
        rw [hanswer] at hr
        rw [(exit_of_load hr).1] at hexit
        cases hexit
      · intro hpass
        obtain ⟨f, hf, -⟩ := hpass entry hentry hheld
        exact absurd hf (hfails f)
  · obtain ⟨fixtures, hload⟩ := Fixture.exists_loadAll hdir hall
    refine ⟨Fixture.ordered entries, fixtures, Fixture.ordered_perm entries,
      Fixture.pairwise_ordered entries, Fixture.map_load_of_loadAll hdir hload, fun hends => ?_⟩
    have hfuel (f) (hf : f ∈ fixtures) : (f.program.run settings.limit {}).ending ≠ .outOfFuel := by
      rcases Int.lt_or_le 0 settings.limit.bound with hlimit | hlimit
      · exact f.program.ending_ne_outOfFuel hlimit {}
      · exact hends hlimit f hf
    obtain ⟨passed, failed, htotals, hcounts⟩ := exists_totals hfuel
    refine ⟨_, fixtures.map fun f => resultText (f.run settings.limit), passed, failed,
      testDirectory_of_loadAll hload hfuel, ?_, ?_, hcounts⟩
    · rw [htotals, List.flatMap_def]
    · rw [List.forall₂_map_right_iff, List.forall₂_same]
      exact fun f hf => Fixture.reportedAs_resultText (hfuel f hf)
  · obtain ⟨e, hentry, hanswer⟩ := exists_testDirectory_eq_load hdir hfails
    refine ⟨e, hentry, hanswer, fun r hr => ?_⟩
    rw [hanswer] at hr
    exact exit_of_load hr

/-- A directory of fixtures that pass, one of which asks for a failure, with a directory and a file
that are none. -/
def passingEntries : List (String × FileTree) :=
  [("b.json", .file ("failure: return\nprogram:\n type: Block\n instrs:\n - type: Return\n" ++
      "   expr:\n    type: Literal")),
    ("a.yaml", .file "program:\n type: Block"), ("c.yml", .directory []), ("d.txt", .file "")]

/-- A directory with a fixture that does not print what is expected. -/
def failingEntries : List (String × FileTree) :=
  [("a.yaml", .file "output: 1\nprogram:\n type: Block")]

/-- A directory with a fixture that does not load. -/
def brokenEntries : List (String × FileTree) :=
  [("a.yaml", .file "program:\n type: Block"), ("b.yml", .unreadable)]

/-- The three directories. -/
def shelf : FileSystem where
  workingDirectory := "/shelf"
  root := .directory [("shelf", .directory [("passing", .directory passingEntries),
    ("failing", .directory failingEntries), ("broken", .directory brokenEntries)])]

/-- Success is reported of the first directory only, and of the last one nothing is reported to
pass. -/
theorem test_judged_exactly_shelf :
    (∃ r, execute shelf (fun _ => none) ["test", "passing"] = .reported r ∧ r.exit = 0) ∧
    (¬ ∃ r, execute shelf (fun _ => none) ["test", "failing"] = .reported r ∧ r.exit = 0) ∧
    ∀ r, execute shelf (fun _ => none) ["test", "broken"] = .reported r →
      r.exit = 1 ∧ r.output = [] := by
  have hsettings : Settings.ofNames "warning" 10000 = .ok ⟨⟨10000⟩, .warning⟩ := rfl
  have hpassing : shelf.find "passing" = .ok (.directory passingEntries) :=
    FileSystem.find_eq_follow ["", "shelf", "passing"] (by decide +kernel) (by decide +kernel)
  have hfailing : shelf.find "failing" = .ok (.directory failingEntries) :=
    FileSystem.find_eq_follow ["", "shelf", "failing"] (by decide +kernel) (by decide +kernel)
  have hbroken : shelf.find "broken" = .ok (.directory brokenEntries) :=
    FileSystem.find_eq_follow ["", "shelf", "broken"] (by decide +kernel) (by decide +kernel)
  refine ⟨?_, ?_, ?_⟩
  · refine (test_judged_exactly (a := ⟨.test "passing", {}⟩) ?_ rfl hsettings hpassing).1.mpr ?_
    · decide +kernel
    · decide +kernel
  · refine mt (test_judged_exactly (a := ⟨.test "failing", {}⟩) ?_ rfl hsettings hfailing).1.mp ?_
    · decide +kernel
    · decide +kernel
  · have hargs : parseArguments (fun _ => none) ["test", "broken"] = .ok ⟨.test "broken", {}⟩ := by
      decide +kernel
    have hfails : ¬ ∃ f, Fixture.load shelf (Path.join "broken" "b.yml") = .ok f ∧ True := by
      decide +kernel
    obtain ⟨e, -, -, hreport⟩ := (test_judged_exactly hargs rfl hsettings hbroken).2.2
      ⟨("b.yml", .unreadable), by simp [brokenEntries], by decide +kernel,
        fun f hf => hfails ⟨f, hf, trivial⟩⟩
    exact hreport

end Command

end TreeScript
