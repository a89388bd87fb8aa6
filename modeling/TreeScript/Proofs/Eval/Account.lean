import Mathlib.Algebra.Ring.Int.Defs
import Mathlib.Data.List.Chain
import TreeScript.Proofs.Eval.ClosedSink
import TreeScript.Proofs.Eval.Origin

/-!
# The log is a faithful account of a run

An evaluation logs the invocations it makes and nothing else, but for what `print` logs.  An
invocation from inside `depth` calls is logged with the depth `depth + 1`, and what its function logs
follows.  So the log of a run can be read as the course of its calls: an entry with a depth is that of
a call made by the last call before it that is one less deep.

What is logged next does not depend on the calls that have ended, nor on how they ended: every
evaluation inside `depth` calls logs its own ones with the depth `depth + 1`.

## Main definitions

* `Trace` — what an evaluation inside a number of calls can log.
* `FollowsStack` — depths that go up by one at a time and never below those of the first calls.
* `Exec.Logs` — a step that logs such a trace.
* `Point.Inside` — a point that is reached inside a number of calls.
* `Paired` — a log in which every print directly follows an invocation of `print`.
* `LogEntry.Presented` — an entry that can be told from its message and fields.
* `Run.Told` — a run with a log that is a faithful account of it.

## Main results

* `logs_invoke`, `Task.logs` — **every invocation, and every evaluation, logs a trace.**
* `Point.Inside.depth_eq` — the depth of a point is the number of calls under way at it.
* `Program.paired_run` — in the log of a run every print directly follows an invocation of `print`.
* `Program.log_faithful` — **the log of every run is a faithful account of it.**
-/

namespace TreeScript

/-! ### Traces -/

/-- The depth of an entry that tells of an invocation. -/
def LogEntry.depth? : LogEntry → Option Nat
  | .invoke _ _ _ depth => some depth
  | _ => none

/-- What an evaluation inside `depth` calls can log. -/
inductive Trace (limit : DepthLimit) : Nat → List LogEntry → Prop
  /-- Nothing. -/
  | nil {depth} : Trace limit depth []
  /-- What one evaluation logs, then what another does inside as many calls. -/
  | append {depth l l'} (h : Trace limit depth l) (h' : Trace limit depth l') :
      Trace limit depth (l ++ l')
  /-- An invocation that is not refused, then what the function logs inside one more call. -/
  | call {depth name line args l} (hreached : limit.reached depth = false)
      (h : Trace limit (depth + 1) l) : Trace limit depth (.invoke name line args (depth + 1) :: l)
  /-- A text that is printed. -/
  | print {depth} (text : Text) : Trace limit depth [.print text]

/-- Depths that follow a stack of calls, above `depth` of them: the first is one more, each is at most
one more than the one before it, and none is less than the first. -/
structure FollowsStack (depth : Nat) (ds : List Nat) : Prop where
  /-- The first call is made from inside `depth` others. -/
  first : ∀ d ∈ ds.head?, d = depth + 1
  /-- The next is made from inside the one before it, or after that one has ended. -/
  next : ds.IsChain fun d d' => d' ≤ d + 1
  /-- None is made after the `depth` others have ended. -/
  above : ∀ d ∈ ds, depth + 1 ≤ d

namespace FollowsStack

variable {depth : Nat} {ds ds' : List Nat}

theorem nil : FollowsStack depth [] :=
  ⟨by simp, List.IsChain.nil, by simp⟩

/-- Calls one after another, above the same stack. -/
theorem append (h : FollowsStack depth ds) (h' : FollowsStack depth ds') :
    FollowsStack depth (ds ++ ds') := by
  refine ⟨?_, ?_, ?_⟩
  · intro d hd
    rw [List.head?_append, Option.mem_def, Option.or_eq_some_iff] at hd
    rcases hd with hd | ⟨-, hd⟩
    · exact h.first d hd
    · exact h'.first d hd
  · refine List.isChain_append.mpr ⟨h.next, h'.next, fun d hd d' hd' => ?_⟩
    have hlast := h.above d (List.mem_of_getLast? hd)
    have hfirst := h'.first d' hd'
    omega
  · intro d hd
    rcases List.mem_append.mp hd with hd | hd
    · exact h.above d hd
    · exact h'.above d hd

/-- A call, and those made from inside it. -/
theorem cons (h : FollowsStack (depth + 1) ds) : FollowsStack depth ((depth + 1) :: ds) := by
  refine ⟨by simp, ?_, ?_⟩
  · refine List.isChain_cons.mpr ⟨fun d hd => ?_, h.next⟩
    rw [h.first d hd]
  · intro d hd
    rcases List.mem_cons.mp hd with rfl | hd
    · exact Nat.le_refl _
    · exact Nat.le_of_succ_le (h.above d hd)

end FollowsStack

namespace Trace

variable {limit : DepthLimit} {depth : Nat} {l : List LogEntry}

/-- Nothing is logged but invocations and prints. -/
theorem message (h : Trace limit depth l) :
    ∀ entry ∈ l, entry.message = "invoke" ∨ entry.message = "print called" := by
  induction h with
  | nil => simp
  | append _ _ ih ih' => exact List.forall_mem_append.mpr ⟨ih, ih'⟩
  | call _ _ ih => exact List.forall_mem_cons.mpr ⟨Or.inl rfl, ih⟩
  | print text => exact List.forall_mem_singleton.mpr (Or.inr rfl)

/-- **The depths in a trace follow a stack of calls.** -/
theorem followsStack (h : Trace limit depth l) :
    FollowsStack depth (l.filterMap LogEntry.depth?) := by
  induction h with
  | nil => exact .nil
  | append _ _ ih ih' =>
    rw [List.filterMap_append]
    exact ih.append ih'
  | call _ _ ih =>
    rw [List.filterMap_cons]
    exact ih.cons
  | print text => exact .nil

/-- No depth in a trace is beyond the limit. -/
theorem le_bound (h : Trace limit depth l) (hlimit : 0 < limit.bound) :
    ∀ d ∈ l.filterMap LogEntry.depth?, (d : Int) ≤ limit.bound := by
  induction h with
  | nil => simp
  | append _ _ ih ih' =>
    rw [List.filterMap_append]
    exact List.forall_mem_append.mpr ⟨ih, ih'⟩
  | @call depth _ _ _ _ hreached _ ih =>
    rw [List.filterMap_cons]
    refine List.forall_mem_cons.mpr ⟨?_, ih⟩
    simp only [DepthLimit.reached, Bool.and_eq_false_iff, decide_eq_false_iff_not] at hreached
    omega
  | print text => simp [LogEntry.depth?]

end Trace

/-! ### Steps that log traces -/

/-- A step that logs a trace, however it ends. -/
def Exec.Logs {α : Type} (limit : DepthLimit) (depth : Nat) (x : Exec α) : Prop :=
  ∀ s, ∃ added, (x s).2.log.toList = s.log.toList ++ added ∧ Trace limit depth added

namespace Exec.Logs

variable {α β : Type} {limit : DepthLimit} {depth : Nat} {x : Exec α}

/-- A step that logs nothing. -/
theorem of_log_eq (h : ∀ s, (x s).2.log = s.log) : x.Logs limit depth :=
  fun s => ⟨[], by rw [h s, List.append_nil], .nil⟩

/-- Sequencing steps that log traces. -/
theorem andThen {f : α → Exec β} (hx : x.Logs limit depth) (hf : ∀ a, (f a).Logs limit depth) :
    (x.andThen f).Logs limit depth := by
  intro s
  obtain ⟨added, hadded, htrace⟩ := hx s
  rcases h : x s with ⟨o, t⟩
  rw [h] at hadded
  rcases o.done_or_exit with ⟨a, rfl⟩ | ⟨i, rfl⟩
  · obtain ⟨more, hmore, htrace'⟩ := hf a t
    refine ⟨added ++ more, ?_, htrace.append htrace'⟩
    rw [andThen_done h, hmore, hadded, List.append_assoc]
  · refine ⟨added, ?_, htrace⟩
    rw [andThen_exit h, hadded]

end Exec.Logs

/-- Logging a trace, as a congruence. -/
def Congruence.logs (limit : DepthLimit) (depth : Nat) : Congruence where
  Rel x _ := x.Logs limit depth
  elementary h := by
    obtain ⟨g, hg, -⟩ := h.storeOnly
    refine .of_log_eq fun s => ?_
    rw [hg]
    rfl
  andThen hx hf := hx.andThen hf
  catchReturn hx := fun s => by rw [Exec.catchReturn_apply]; exact hx s

/-- The call of a native function logs nothing, unless it prints. -/
theorem logs_callNative (limit : DepthLimit) (depth : Nat) (arity : Arity) (p : Primitive)
    (receiver : Value) (args : List Value) :
    (callNative arity p receiver args).Logs limit depth := by
  cases haccepts : arity.accepts args.length with
  | false => exact .of_log_eq fun s => by rw [callNative_snd_of_not_accepts haccepts]
  | true =>
    rw [callNative_of_accepts haccepts]
    by_cases hp : p = .print
    · subst hp
      intro s
      rw [print_apply]
      split
      · exact ⟨[], (List.append_nil _).symm, .nil⟩
      · next text _ =>
        refine ⟨[.print text], ?_, .print text⟩
        split <;> exact Array.toList_push
    · exact .of_log_eq fun s => by rw [primitiveCall_snd hp]

/-- **Every invocation logs a trace**, whatever its outcome. -/
theorem logs_invoke (limit : DepthLimit) (fuel depth : Nat) (f : FunctionRef) (receiver : Value)
    (args : List Value) (line : Int) :
    (invoke limit fuel depth f receiver args line).Logs limit depth := by
  induction fuel generalizing depth f receiver args line with
  | zero =>
    refine .of_log_eq fun s => ?_
    cases h : limit.reached depth with
    | true => rw [invoke_of_reached 0 h]
    | false => rw [invoke_zero h]
  | succ fuel ih =>
    intro s
    cases h : limit.reached depth with
    | true =>
      refine ⟨[], ?_, .nil⟩
      rw [invoke_of_reached _ h, List.append_nil]
    | false =>
      -- the entry of the invocation comes first, then what the function logs inside one more call
      have hinv : (Congruence.logs limit (depth + 1)).RelInvoke (invoke limit fuel (depth + 1))
          (invoke limit fuel (depth + 1)) := ih (depth + 1)
      have hcall := Congruence.callFunction_of_native hinv (f := s.store.function f)
        fun arity p _ => logs_callNative limit (depth + 1) arity p receiver args
      obtain ⟨added, hadded, htrace⟩ := hcall (s.logged (callEntry s.store f args line depth))
      refine ⟨callEntry s.store f args line depth :: added, ?_, htrace.call h⟩
      rw [invoke_succ fuel h, Exec.atLine_apply, hadded, State.logged, Array.toList_push,
        List.append_assoc]
      rfl

/-- **Every evaluation logs a trace**, whatever its outcome. -/
theorem Task.logs (limit : DepthLimit) (fuel depth : Nat) (t : Task) :
    (t.exec (invoke limit fuel depth)).Logs limit depth := by
  have hinv : (Congruence.logs limit depth).RelInvoke (invoke limit fuel depth)
      (invoke limit fuel depth) := logs_invoke limit fuel depth
  cases t with
  | expr scope e => exact Congruence.eval hinv scope e
  | instrs scope es => exact Congruence.runAll hinv scope es
  | args scope es => exact Congruence.evalAll hinv scope es
  | inits scope o inits => exact Congruence.evalInits hinv scope o inits
  | call f receiver args line => exact logs_invoke limit fuel depth f receiver args line

/-! ### Calls under way -/

/-- How many calls a task is. -/
def Task.calls : Task → Nat
  | .call _ _ _ _ => 1
  | _ => 0

/-- `p.Inside limit n q`: the point `p` leads to the point `q` inside `n` calls, which have been made
on the way and not ended yet. -/
inductive Point.Inside (limit : DepthLimit) (p : Point) : Nat → Point → Prop
  /-- A point leads to itself inside no call. -/
  | refl : Inside limit p 0 p
  /-- What an invocation leads to is inside that call, and what any other task leads to is inside the
  same ones. -/
  | enter {n q r} (h : Inside limit p n q) (henter : q.Enters limit r) :
      Inside limit p (n + q.task.calls) r

/-- **The depth of a point is the number of calls under way at it**, whatever other calls have been
made before, and however these ended. -/
theorem Point.Inside.depth_eq {limit : DepthLimit} {p q : Point} {n : Nat}
    (h : p.Inside limit n q) : q.depth = p.depth + n := by
  induction h with
  | refl => rfl
  | @enter n q r _ henter ih =>
    cases henter with
    | @part fuel depth t s t' s' hpart =>
      have hcalls : t.calls = 0 := by cases hpart <;> rfl
      simp only [hcalls, Nat.add_zero]
      exact ih
    | body _ _ _ =>
      have hdepth := congrArg (· + 1) ih
      simpa only [Task.calls, Nat.add_assoc] using hdepth

/-! ### Prints and their invocations -/

/-- Every print in the log directly follows an invocation of `print`. -/
def Paired (entries : List LogEntry) : Prop :=
  ∀ before text after, entries = before ++ .print text :: after →
    ∃ earlier line args depth, before = earlier ++ [.invoke "print" line args depth]

/-- One more entry, which is no print or comes after an invocation of `print`. -/
theorem Paired.snoc {entries : List LogEntry} {entry : LogEntry} (h : Paired entries)
    (hentry : ∀ text, entry = .print text →
      ∃ earlier line args depth, entries = earlier ++ [.invoke "print" line args depth]) :
    Paired (entries ++ [entry]) := by
  intro before text after heq
  rcases List.eq_nil_or_concat after with rfl | ⟨after, last, rfl⟩
  · obtain ⟨rfl, hlast⟩ := List.append_inj' heq rfl
    exact hentry text (List.cons.inj hlast).1
  · rw [List.concat_eq_append, ← List.cons_append, ← List.append_assoc] at heq
    exact h before text after (List.append_inj' heq rfl).1

/-- In this store a function that prints is called `print`. -/
def Store.PrintNamed (s : Store) : Prop :=
  ∀ f arity, s.HasFunction f → (s.function f).code = .native arity .print →
    (s.function f).name = "print"

namespace Store.PrintNamed

variable {s t : Store}

theorem of_functions (h : s.PrintNamed) (hf : t.functions = s.functions) : t.PrintNamed := by
  intro f arity hmem hcode
  rw [HasFunction, hf] at hmem
  rw [function, hf] at hcode ⊢
  exact h f arity hmem hcode

/-- A function is added that does not print, or is called `print`. -/
theorem newFunction (h : s.PrintNamed) {f : Function}
    (hf : ∀ arity, f.code = .native arity .print → f.name = "print") :
    (s.newFunction f).2.PrintNamed := by
  intro r arity hmem hcode
  rw [function_newFunction] at hcode ⊢
  split at hcode
  · next hr =>
    rw [if_pos hr]
    exact hf arity hcode
  · next hr =>
    rw [if_neg hr]
    refine h r arity ?_ hcode
    -- it is an older function, so its place is not the new one
    simp only [Store.newFunction, HasFunction, Array.size_push] at hmem hr ⊢
    have hne : r.id ≠ s.functions.size := fun heq => hr (by rw [← heq])
    omega

/-- The function that prints is called `print` when a run starts. -/
theorem initial : Store.initial.PrintNamed := by
  refine initial_induction ?_ fun s name arity p hmem hs => ?_
  · intro f arity hf
    exact absurd hf (Nat.not_lt_zero _)
  · refine (hs.newFunction fun arity' hcode => ?_).of_functions (functions_assign ..)
    cases hcode
    have hname : name = "print" ∧ arity = .variadic := by
      simpa [builtins, builtinsIn, Arithmetic.all, Comparison.all] using hmem
    rw [hname.1]

end Store.PrintNamed

/-- A change of state at a point of a run keeps every print after an invocation of `print`. -/
theorem Point.Acts.paired {limit : DepthLimit} {q : Point} {s t : State} (h : Acts limit q s t)
    (hq : q.Sound) (hs : s.store.PrintNamed ∧ Paired s.log.toList) :
    t.store.PrintNamed ∧ Paired t.log.toList := by
  cases h with
  | assign _ | declare _ _ | nameFunction _ =>
    exact ⟨hs.1.of_functions (Store.functions_assign ..), hs.2⟩
  | makeFunction => exact ⟨hs.1.newFunction (by simp), hs.2⟩
  | makeObject => exact ⟨hs.1.of_functions rfl, hs.2⟩
  | initField _ | setField _ _ _ => exact ⟨hs.1.of_functions (Store.functions_setField ..), hs.2⟩
  | openScope _ _ _ => exact ⟨hs.1.of_functions (Store.functions_openScope ..), hs.2⟩
  | print _ _ _ _ _ => exact hs
  | logCall _ =>
    refine ⟨hs.1, ?_⟩
    rw [State.logged, Array.toList_push]
    exact hs.2.snoc fun text htext => by cases htext
  | @logPrint fuel depth f receiver args line arity text s _ hcode _ _ =>
    refine ⟨hs.1, ?_⟩
    have hname : (s.store.function f).name = "print" := hs.1 f arity hq.task.1 hcode
    rw [State.offered, State.logged, Array.toList_push]
    refine hs.2.snoc fun _ _ => ⟨s.log.toList, line, args.length, depth + 1, ?_⟩
    rw [State.logged, Array.toList_push, callEntry, hname]

/-- **In the course of a run every print is logged directly after an invocation of `print`.** -/
theorem Program.paired_run (p : Program) (fuel : Nat) (limit : DepthLimit) (sink : Sink) :
    Paired ((p.start fuel sink).run limit).2.log.toList := by
  have hstart : (State.start sink).store.PrintNamed ∧ Paired (State.start sink).log.toList := by
    have hempty : Paired [] := by
      intro before text after heq
      cases before <;> cases heq
    exact ⟨Store.PrintNamed.initial, hempty.snoc fun text htext => by cases htext⟩
  refine (Point.run_of_steps (p := p.start fuel sink)
    (R := fun s t => s.store.PrintNamed ∧ Paired s.log.toList →
      t.store.PrintNamed ∧ Paired t.log.toList) (fun _ h => h) (fun _ _ _ h h' => h' ∘ h) ?_
    hstart).2
  intro q s t hq hact
  exact hact.paired ((p.sound_start fuel sink).of_reaches hq)

/-! ### How entries are presented -/

/-- An entry can be told from its message and fields, be the path of the program named there or
not. -/
structure LogEntry.Presented (path : String) (entry : LogEntry) : Prop where
  /-- An invocation has the name of the function, the line, the number of arguments and the depth. -/
  invoke : ∀ fn line args depth, entry = .invoke fn line args depth ↔
    entry.message = "invoke" ∧ ("fn", .text fn) ∈ entry.fields path ∧
      ("line", .number line) ∈ entry.fields path ∧
      ("args", .number (args : Nat)) ∈ entry.fields path ∧
      ("depth", .number (depth : Nat)) ∈ entry.fields path
  /-- A print has its text. -/
  print : ∀ text, entry = .print text ↔
    entry.message = "print called" ∧ ("args", .text text) ∈ entry.fields path
  /-- The end of a run by a failure has the text of the error and the line. -/
  runFailed : ∀ text line, entry = .runFailed text (some line) ↔
    entry.message = "run failed" ∧ ("error", .text text) ∈ entry.fields path ∧
      ("line", .number line) ∈ entry.fields path

/-- **Every entry can be told from its message and fields.** -/
theorem LogEntry.presented (path : String) (entry : LogEntry) : entry.Presented path := by
  -- the path is the first field, with a name that no other has
  by_cases hpath : path = ""
  all_goals
    constructor
    · intro fn line args depth
      cases entry <;> simp [message, fields, hpath, eq_comm]
    · intro text
      cases entry <;> simp [message, fields, hpath, eq_comm]
    · intro text line
      cases entry with
      | runFailed error line' => cases line' <;> simp [message, fields, hpath, eq_comm]
      | _ => simp [message]

/-! ### Runs -/

/-- On a sink that accepts every line, what `print` was called with has been printed. -/
theorem Program.prints_runWith (p : Program) (fuel : Nat) (limit : DepthLimit) :
    (p.runWith fuel limit {}).prints = (p.runWith fuel limit {}).printed.toList := by
  rw [runWith_eq, Run.prints_ofOutcome]
  -- a sink for just as many lines does not stop the run
  have hcut := p.cut_root fuel limit
    (runOptional (invoke limit fuel 0) globalScope p.body (State.start {})).2.prints.length
  generalize runOptional (invoke limit fuel 0) globalScope p.body (State.start {}) = r at hcut ⊢
  generalize runOptional (invoke limit fuel 0) globalScope p.body _ = r' at hcut
  cases hcut with
  | within hopen _ => exact hopen.prints
  | beyond hstop => exact absurd hstop.lt_length (Nat.lt_irrefl _)

/-- On a sink that refuses no line, the error of a run is a failure. -/
theorem Program.exists_failure (p : Program) {fuel : Nat} {limit : DepthLimit} {sink : Sink}
    (hsink : ∀ e, ¬ sink.Makes e) {e : Fault}
    (h : (p.runWith fuel limit sink).ending = .failed e) : ∃ f, e = .failure f := by
  rcases p.cause_of_ending h with ⟨e₀, hmakes, -⟩ | ⟨line, text, value, rfl, -, -⟩ | ⟨f, node, hloc, -⟩
  · exact absurd hmakes (hsink e₀)
  · exact ⟨_, rfl⟩
  · rcases hloc with rfl | ⟨f', line, -, -, rfl⟩
    · exact ⟨f, rfl⟩
    · exact ⟨_, rfl⟩

/-- The entries of a run from its start on, with `course` for those in between.  A run that nests more
calls than there is fuel for has no last entry, nor has one that crashes. -/
def Run.framed (r : Run) (course : List LogEntry) : List LogEntry :=
  .runStarted :: course ++ r.ending.entry?.toList

/-- A log at the level `debug` that is a faithful account of a run under a depth limit. -/
structure Run.Told (limit : DepthLimit) (r : Run) : Prop where
  /-- The log starts with the start of the run and ends with its end; in between it tells only of
  invocations and prints. -/
  frame : ∃ course, r.entries .debug = r.framed course ∧
    ∀ entry ∈ course, entry.message = "invoke" ∨ entry.message = "print called"
  /-- The last entry says that the run finished, if it did. -/
  finished : r.ending = .finished → (r.entries .debug).getLast? = some .runFinished
  /-- Otherwise it has the text of the error that ended the run, and its line. -/
  failed : ∀ e, r.ending = .failed e → ∃ f, e = .failure f ∧
    (r.entries .debug).getLast? = some (.runFailed e.text (some f.line))
  /-- No crash ended the run. -/
  uncrashed : r.ending ≠ .crashed
  /-- What is told stands in the messages and fields of the entries. -/
  presented : ∀ path, ∀ entry ∈ r.entries .debug, entry.Presented path
  /-- The texts of the prints, each on a line of its own, are the output. -/
  printed : ((r.entries .debug).filterMap LogEntry.print?).flatMap Text.line = r.output
  /-- Every print directly follows an invocation of `print`. -/
  paired : Paired (r.entries .debug)
  /-- The depths of the invocations follow a stack of calls. -/
  stack : FollowsStack 0 ((r.entries .debug).filterMap LogEntry.depth?)
  /-- None of them is beyond the limit. -/
  bounded : 0 < limit.bound →
    ∀ d ∈ (r.entries .debug).filterMap LogEntry.depth?, (d : Int) ≤ limit.bound

/-- The last entry of a run tells of no invocation. -/
theorem Ending.depth?_entry? (e : Ending) : e.entry?.toList.filterMap LogEntry.depth? = [] := by
  cases e <;> rfl

/-- The log of a run, between its first and its last entry, is a trace. -/
theorem Program.exists_trace (p : Program) (fuel : Nat) (limit : DepthLimit) (sink : Sink) :
    ∃ course, (p.runWith fuel limit sink).log.toList = (p.runWith fuel limit sink).framed course ∧
      ((p.start fuel sink).run limit).2.log.toList = .runStarted :: course ∧
      Trace limit 0 course := by
  obtain ⟨course, hcourse, htrace⟩ := Task.logs limit fuel 0 (p.start fuel sink).task
    (State.start sink)
  refine ⟨course, ?_, hcourse, htrace⟩
  have hlog : ((p.start fuel sink).run limit).2.log.toList = .runStarted :: course := hcourse
  rw [runWith_eq_run, Run.framed, ← hlog]
  generalize (p.start fuel sink).run limit = r
  simp only [Run.ofOutcome]
  cases Ending.entry? (Ending.ofOutcome r.2.store.showValue? r.1) with
  | none => exact (List.append_nil _).symm
  | some entry => exact Array.toList_push

/-- **The log of every run is a faithful account of it**: it has a start and an end, the prints are
what was printed, and the depths follow the calls.  Every evaluation in the course of the run, inside
`n` calls and whatever its outcome, logs the calls that it makes from the depth `n + 1` on: the calls
made before it have all been taken off the count again. -/
theorem Program.log_faithful (p : Program) (fuel : Nat) (limit : DepthLimit) :
    (p.runWith fuel limit {}).Told limit ∧
    ∀ n q, (p.start fuel {}).Inside limit n q → q.depth = n ∧
      ∃ added, (q.run limit).2.log.toList = q.state.log.toList ++ added ∧
        FollowsStack n (added.filterMap LogEntry.depth?) := by
  constructor
  · obtain ⟨course, hlog, hroot, htrace⟩ := p.exists_trace fuel limit {}
    have hentries : (p.runWith fuel limit {}).entries .debug =
        (p.runWith fuel limit {}).framed course := hlog
    have hdepths : ((p.runWith fuel limit {}).entries .debug).filterMap LogEntry.depth? =
        course.filterMap LogEntry.depth? := by
      rw [hentries, Run.framed, List.filterMap_append, Ending.depth?_entry?, List.append_nil]
      rfl
    refine ⟨⟨course, hentries, htrace.message⟩, ?_, ?_, p.ending_ne_crashed fuel limit {},
      fun path entry _ => entry.presented path, ?_, ?_, ?_, ?_⟩
    · intro hfinished
      rw [hentries, Run.framed, hfinished]
      exact List.getLast?_concat
    · intro e he
      obtain ⟨f, rfl⟩ := p.exists_failure Sink.not_makes_open he
      refine ⟨f, rfl, ?_⟩
      rw [hentries, Run.framed, he]
      exact List.getLast?_concat
    · exact congrArg (List.flatMap Text.line) (p.prints_runWith fuel limit)
    · -- the last entry is no print
      have hpaired := p.paired_run fuel limit {}
      rw [hroot] at hpaired
      rw [hentries, Run.framed]
      cases (p.runWith fuel limit {}).ending with
      | crashed | outOfFuel => exact (List.append_nil _).symm ▸ hpaired
      | finished | failed _ => exact hpaired.snoc fun text htext => by cases htext
    · rw [hdepths]
      exact htrace.followsStack
    · rw [hdepths]
      exact htrace.le_bound
  · intro n q hq
    have hdepth : q.depth = n := hq.depth_eq.trans (Nat.zero_add n)
    obtain ⟨added, hadded, htrace⟩ := Task.logs limit q.fuel q.depth q.task q.state
    exact ⟨hdepth, added, hadded, hdepth ▸ htrace.followsStack⟩

/-- A program that calls a function which prints and returns, prints again, and divides by zero. -/
def relay : Program where
  body := some (.mk 1
    [.call 1 (.fn 1 none [] (some (.mk 1
      [.call 2 (.var 2 "print") [.literal 2 (.str "in")], .ret 3 (.literal 3 .undefined)]))) [],
      .call 4 (.var 4 "print") [.literal 4 (.str "out")],
      .call 5 (.var 5 "/") [.literal 5 (.int 1), .literal 5 (.int 0)]])

/-- The log of `relay`: the function prints inside one more call, and the depth is back at one when it
has returned. -/
theorem log_faithful_relay :
    (relay.run ⟨2⟩ {}).entries .debug =
      [.runStarted, .invoke "lambda" 1 0 1, .invoke "print" 2 1 2, .print "in",
        .invoke "print" 4 1 1, .print "out", .invoke "/" 5 2 1,
        .runFailed "at line 5, division by zero: 1 / 0" (some 5)] ∧
      (relay.run ⟨2⟩ {}).Told ⟨2⟩ ∧
      ∃ q, (relay.start 2 {}).Inside ⟨2⟩ 1 q ∧ q.depth = 1 ∧
        ∃ added, (q.run ⟨2⟩).2.log.toList = q.state.log.toList ++ added ∧
          FollowsStack 1 (added.filterMap LogEntry.depth?) := by
  obtain ⟨htold, hinside⟩ := relay.log_faithful 2 ⟨2⟩
  refine ⟨by decide +kernel, htold, ?_⟩
  -- the body of the function, entered from the invocation in the first instruction
  have hbody : ∃ q, (relay.start 2 {}).Inside ⟨2⟩ 1 q :=
    ⟨_, .enter (.enter (.enter .refl (.part .firstInstr)) (.part (.callInvoke rfl rfl)))
      (.body rfl rfl rfl)⟩
  obtain ⟨q, hq⟩ := hbody
  exact ⟨q, hq, hinside 1 q hq⟩

end TreeScript
