import TreeScript.Proofs.Eval.DepthGuard

/-!
# A sink that closes cuts a run at one print

Compare two runs of one program, on a sink that accepts every line and on one that accepts `k` lines
and then no more.  They do the same until `print` is called once more after the `k`-th time.  Both
log that call; on the second sink it fails, with an error that is no failure, so that no call around
it gives it a line, and the run ends.

A state of the first run in which no more than `k` lines were printed belongs to one of the second,
which differs in the sink alone: `State.onSink`.  `Exec.ClosesAfter k` says what a step does from
such a pair of states.  It is a congruence, so only invocations have to be looked at, and among them
only those of `print`.

## Main definitions

* `Run.prints` — the texts with which `print` was called, as the log has them.
* `State.onSink` — a state on a sink that accepts `k` lines in all.
* `State.StoppedAt` — where such a sink stops what leads to a state.
* `Exec.ClosesAfter` — a step that such a sink stops at the print after the `k`-th, and only there.
* `Run.ClosedAfter` — the same of runs.

## Main results

* `closesAfter_invoke` — **every invocation is stopped at the print after the `k`-th.**
* `Program.run_closedAfter` — so is every run, and every run of a session, with `k` less by the
  lines that were accepted before it.
-/

namespace TreeScript

/-! ### Calls of `print` -/

/-- The text of an entry that tells of a call of `print`. -/
def LogEntry.print? : LogEntry → Option Text
  | .print text => some text
  | _ => none

/-- The texts with which `print` was called. -/
def State.prints (s : State) : List Text := s.log.toList.filterMap LogEntry.print?

/-- The texts with which `print` was called. -/
def Run.prints (r : Run) : List Text := r.log.toList.filterMap LogEntry.print?

/-- Logging a call of `print`. -/
theorem State.prints_logged_print (s : State) (text : Text) :
    (s.logged (.print text)).prints = s.prints ++ [text] := by
  rw [prints, logged, Array.toList_push, List.filterMap_append]
  rfl

/-- Logging anything else. -/
theorem State.prints_logged {entry : LogEntry} (h : entry.print? = none) (s : State) :
    (s.logged entry).prints = s.prints := by
  rw [prints, logged, Array.toList_push, List.filterMap_append, List.filterMap_cons, h]
  simp only [List.filterMap_nil, List.append_nil]
  rfl

/-- The last entry of a run tells of no call of `print`. -/
theorem Run.prints_ofOutcome (o : Outcome Unit) (s : State) :
    (Run.ofOutcome o s).prints = s.prints := by
  simp only [Run.prints, State.prints, Run.ofOutcome]
  cases Ending.ofOutcome s.store.showValue? o <;>
    simp [Ending.entry?, LogEntry.print?]

/-! ### Stopped states -/

/-- A state on a sink that accepts every line: what `print` was called with has been printed. -/
structure State.Open (s : State) : Prop where
  /-- The sink accepts every line. -/
  sink : s.sink = {}
  /-- No function of the store is one of the host's own. -/
  hostFree : s.store.HostFree
  /-- There is a line for each call of `print`. -/
  prints : s.prints = s.printed.toList

/-- The state on a sink that accepts `k` lines in all, those already printed among them. -/
def State.onSink (k : Nat) (s : State) : State :=
  { s with sink := .closingAfter (k - s.printed.size) }

/-- The state `u` is where a sink that accepts `k` lines stops what leads to the state `t`: so many
lines have been printed, and the next call of `print` has been logged. -/
structure State.StoppedAt (k : Nat) (u t : State) : Prop where
  /-- The sink accepts no more. -/
  sink : u.sink = .closingAfter 0
  /-- It has accepted `k` lines. -/
  size : u.printed.size = k
  /-- The log goes up to the call of `print` for which there is no line. -/
  log : ∃ before text, u.log.toList = before ++ [.print text] ∧
    before.filterMap LogEntry.print? = u.printed.toList ∧ u.log.toList <+: t.log.toList

namespace State.StoppedAt

variable {k : Nat} {u t t' : State}

/-- What follows the state `t` comes after the stop as well. -/
theorem of_grows (h : u.StoppedAt k t) (hgrow : State.Grows t t') : u.StoppedAt k t' := by
  obtain ⟨before, text, hlog, hprints, hbegin⟩ := h.log
  exact ⟨h.sink, h.size, before, text, hlog, hprints, hbegin.trans hgrow.2⟩

/-- The calls of `print` on the way to `t`: those with the printed lines, then one more. -/
theorem prints_eq (h : u.StoppedAt k t) :
    ∃ text later, t.prints = u.printed.toList ++ text :: later := by
  obtain ⟨before, text, hlog, hprints, ⟨later, hlater⟩⟩ := h.log
  refine ⟨text, later.filterMap LogEntry.print?, ?_⟩
  rw [prints, ← hlater, hlog, List.filterMap_append, List.filterMap_append, hprints,
    List.append_assoc]
  rfl

theorem length_printed (h : u.StoppedAt k t) : u.printed.toList.length = k := by
  rw [Array.length_toList, h.size]

/-- There were more than `k` calls of `print`. -/
theorem lt_length (h : u.StoppedAt k t) : k < t.prints.length := by
  obtain ⟨text, later, hprints⟩ := h.prints_eq
  rw [hprints, List.length_append, h.length_printed, List.length_cons]
  omega

/-- The printed lines are those of the first `k` calls of `print`. -/
theorem printed_eq (h : u.StoppedAt k t) : u.printed.toList = t.prints.take k := by
  obtain ⟨text, later, hprints⟩ := h.prints_eq
  rw [hprints, List.take_left' h.length_printed]

end State.StoppedAt

/-! ### Steps that a sink can stop -/

/-- What a step does on a sink that accepts `k` lines, compared with what it does on one that
accepts every line. -/
inductive Cut {α : Type} (k : Nat) (r : Outcome α × State) : Outcome α × State → Prop where
  /-- The lines are enough: it does the same. -/
  | within (hopen : r.2.Open) (hsize : r.2.printed.size ≤ k) : Cut k r (r.1, r.2.onSink k)
  /-- They are not: it fails with the error of the sink. -/
  | beyond {u : State} (hstop : u.StoppedAt k r.2) : Cut k r (.failed Sink.closed, u)

/-- A step that a sink for `k` lines stops at the print after the `k`-th, and only there. -/
structure Exec.ClosesAfter {α : Type} (k : Nat) (x : Exec α) : Prop where
  /-- It only adds to what was printed and logged. -/
  tame : x.Tame
  /-- It is stopped if it would print too much. -/
  cut : ∀ s, s.Open → s.printed.size ≤ k → Cut k (x s) (x (s.onSink k))

section Cut

variable {α β : Type} {k : Nat} {x : Exec α}

/-- A change of the outcome that leaves the error of the sink alone. -/
theorem Cut.map {r r' : Outcome α × State} {g : Outcome α → Outcome β}
    (hg : g (.failed Sink.closed) = .failed Sink.closed) (h : Cut k r r') :
    Cut k (g r.1, r.2) (g r'.1, r'.2) := by
  cases h with
  | within hopen hsize => exact .within hopen hsize
  | beyond hstop => rw [hg]; exact .beyond hstop

/-- The error of the sink is no failure, so it is given no line. -/
theorem located_closed (line : Int) :
    (Outcome.failed Sink.closed : Outcome α).located line = .failed Sink.closed := rfl

/-- No sink stops a step that is about the store alone. -/
theorem Exec.StoreOnly.closesAfter (hx : x.StoreOnly) : x.ClosesAfter k := by
  obtain ⟨g, hg, hplain⟩ := id hx
  refine ⟨hx.ordinary.tame, fun s hs hsize => ?_⟩
  rw [hg s, hg (s.onSink k)]
  exact .within ⟨hs.sink, (hplain s.store).2 hs.hostFree, hs.prints⟩ hsize

/-- Sequencing steps that a sink can stop. -/
theorem Exec.ClosesAfter.andThen {f : α → Exec β} (hx : x.ClosesAfter k)
    (hf : ∀ a, (f a).ClosesAfter k) : (x.andThen f).ClosesAfter k := by
  refine ⟨hx.tame.andThen fun a => (hf a).tame, fun s hs hsize => ?_⟩
  have hcut := hx.cut s hs hsize
  have hfree := (hx.tame s hs.hostFree).2
  have hgrow := (Exec.Tame.after (fun a => (hf a).tame) hfree).1
  rcases h : x s with ⟨o, t⟩
  rw [h] at hcut hgrow
  generalize h' : x (s.onSink k) = r' at hcut
  cases hcut with
  | within hopen hsize =>
    -- the second step starts from a pair of states again
    rcases o.done_or_exit with ⟨a, rfl⟩ | ⟨i, rfl⟩
    · rw [andThen_done h, andThen_done h']
      exact (hf a).cut t hopen hsize
    · rw [andThen_exit h, andThen_exit h']
      exact .within hopen hsize
  | beyond hstop =>
    rw [andThen_failed h']
    exact .beyond (hstop.of_grows hgrow)

end Cut

/-! ### Native functions -/

/-- A sink that accepts some lines accepts one less when it has been given one. -/
theorem Sink.after_closingAfter (room : Nat) (line : Text) :
    (Sink.closingAfter room).after line = Sink.closingAfter (room - 1) := by
  simp only [after, closingAfter, List.length_cons, Nat.lt_sub_iff_add_lt]

/-- A sink that accepts `k` lines takes the next one if there are fewer. -/
theorem State.refusal?_onSink {k : Nat} {s : State} (h : s.printed.size < k) (text : Text) :
    (s.onSink k).sink.refusal? [] text = none := by
  simp only [onSink, Sink.closingAfter, List.length_nil, Nat.sub_pos_of_lt h, if_true]

/-- **A sink stops `print`** when it has accepted `k` lines. -/
theorem closesAfter_print (k : Nat) (receiver : Value) (args : List Value) :
    (Primitive.print.call receiver args).ClosesAfter k := by
  refine ⟨(ordinary_print receiver args).tame, fun s hs hsize => ?_⟩
  rw [print_apply, print_apply]
  have hsame : (s.onSink k).store = s.store := rfl
  rw [hsame]
  cases s.store.showValues? args with
  | none => exact .within hs hsize
  | some text =>
    let t : State := { s.offered text with printed := s.printed.push text }
    have hopen : s.sink.refusal? [] text = none := by rw [hs.sink]
    simp only [hopen]
    rcases Nat.lt_or_eq_of_le hsize with hlt | heq
    · have ht : t.Open := by
        refine ⟨?_, hs.hostFree, ?_⟩
        · show s.sink.after text = {}
          rw [hs.sink]
          rfl
        · have hprints := s.prints_logged_print text
          rw [hs.prints] at hprints
          rwa [Array.toList_push]
      have hsize' : t.printed.size = s.printed.size + 1 := Array.size_push ..
      have hnext : t.onSink k =
          { (s.onSink k).offered text with printed := (s.onSink k).printed.push text } := by
        simp only [State.onSink, State.offered, State.logged, Sink.after_closingAfter, hsize',
          Nat.sub_sub, t]
      simp only [State.refusal?_onSink hlt]
      rw [← hnext]
      exact .within ht (Nat.le_trans (Nat.le_of_eq hsize') hlt)
    · -- the call is logged, and no line is left for it
      have hroom : (s.onSink k).sink = .closingAfter 0 := by
        simp only [State.onSink, heq, Nat.sub_self]
      have hrefused : (s.onSink k).sink.refusal? [] text = some Sink.closed := by
        rw [hroom]
        rfl
      simp only [hrefused]
      refine .beyond ⟨?_, heq, s.log.toList, text, ?_, hs.prints, ?_⟩
      · show (s.onSink k).sink.after text = .closingAfter 0
        rw [hroom, Sink.after_closingAfter]
      · exact Array.toList_push ..
      · exact List.prefix_rfl

/-- A sink can stop the call of a native function. -/
theorem closesAfter_callNative (k : Nat) (arity : Arity) {p : Primitive}
    (hp : ∀ body, p ≠ .host body) (receiver : Value) (args : List Value) :
    (callNative arity p receiver args).ClosesAfter k := by
  by_cases h : arity.accepts args.length = true
  · rw [callNative_of_accepts h]
    by_cases hprint : p = .print
    · rw [hprint]
      exact closesAfter_print k receiver args
    · exact (computes_primitiveCall hprint hp receiver args).storeOnly.closesAfter
  · unfold callNative
    rw [if_neg h]
    exact (Exec.Elementary.refuse _ _ rfl).storeOnly.closesAfter

/-! ### Invocations -/

/-- Being stopped after `k` lines, as a congruence. -/
def Congruence.closesAfter (k : Nat) : Congruence where
  Rel x _ := x.ClosesAfter k
  elementary h := h.storeOnly.closesAfter
  andThen hx hf := hx.andThen hf
  catchReturn {α x _} hx := by
    refine ⟨Congruence.tame.catchReturn (y := x) hx.tame, fun s hs hsize => ?_⟩
    rw [Exec.catchReturn_apply, Exec.catchReturn_apply]
    exact (hx.cut s hs hsize).map rfl

/-- **Every invocation is stopped at the print after the `k`-th**, if it would come so far. -/
theorem closesAfter_invoke (k : Nat) (limit : DepthLimit) (fuel depth : Nat) (f : FunctionRef)
    (receiver : Value) (args : List Value) (line : Int) :
    (invoke limit fuel depth f receiver args line).ClosesAfter k := by
  refine ⟨tame_invoke limit fuel depth f receiver args line, ?_⟩
  induction fuel generalizing depth f receiver args line with
  | zero =>
    intro s hs hsize
    cases h : limit.reached depth with
    | true => rw [invoke_of_reached 0 h, invoke_of_reached 0 h]; exact .within hs hsize
    | false => rw [invoke_zero h, invoke_zero h]; exact .within hs hsize
  | succ fuel ih =>
    intro s hs hsize
    cases h : limit.reached depth with
    | true => rw [invoke_of_reached _ h, invoke_of_reached _ h]; exact .within hs hsize
    | false =>
      have hinv : (Congruence.closesAfter k).RelInvoke (invoke limit fuel (depth + 1))
          (invoke limit fuel (depth + 1)) :=
        fun f receiver args line =>
          ⟨tame_invoke limit fuel _ f receiver args line, ih _ f receiver args line⟩
      have hnative : ∀ arity p, (s.store.function f).code = .native arity p →
          (callNative arity p receiver args).ClosesAfter k := by
        intro arity p hcode
        refine closesAfter_callNative k arity (fun body hp => ?_) receiver args
        exact hs.hostFree f arity body (by rw [hcode, hp])
      have hcall := Congruence.callFunction_of_native hinv hnative
      rw [invoke_succ fuel h, invoke_succ fuel h, Exec.atLine_apply, Exec.atLine_apply]
      refine Cut.map (located_closed line) (hcall.cut (s.logged _) ?_ hsize)
      exact ⟨hs.sink, hs.hostFree, (State.prints_logged rfl s).trans hs.prints⟩

/-! ### Runs -/

/-- The run `r'` of a program on a sink that accepts `k` lines, compared with its run `r` on a sink
that accepts every line. -/
structure Run.ClosedAfter (k : Nat) (r r' : Run) : Prop where
  /-- With no more than `k` calls of `print`, the runs do not differ. -/
  within : r.prints.length ≤ k → r'.ending = r.ending ∧ r'.output = r.output ∧ r'.log = r.log
  /-- With more, it ends with the error of the sink itself. -/
  ending : k < r.prints.length → r'.ending = .failed (.plain "sink closed")
  /-- What it printed is then the text of the first `k` calls. -/
  output : k < r.prints.length → r'.output = (r.prints.take k).flatMap Text.line
  /-- Its log then goes up to the call after them, and ends with a failure on no line. -/
  log : k < r.prints.length → ∃ before text later,
    r.log.toList = before ++ .print text :: later ∧
    (before.filterMap LogEntry.print?).length = k ∧
    r'.log.toList = before ++ [.print text, .runFailed "sink closed" none]

/-- Runs whose root blocks are cut so. -/
theorem Run.closedAfter_of_cut {k : Nat} {o o' : Outcome Unit} {s s' : State}
    (h : Cut k (o, s) (o', s')) : (Run.ofOutcome o s).ClosedAfter k (Run.ofOutcome o' s') := by
  cases h with
  | within hopen hsize =>
    -- the lines were enough, so there were not more calls of `print`
    have hle : (Run.ofOutcome o s).prints.length ≤ k := by
      rwa [prints_ofOutcome, hopen.prints, Array.length_toList]
    have hnot : ¬ k < (Run.ofOutcome o s).prints.length := Nat.not_lt.mpr hle
    exact ⟨fun _ => ⟨rfl, rfl, rfl⟩, fun h => absurd h hnot, fun h => absurd h hnot,
      fun h => absurd h hnot⟩
  | beyond hstop =>
    have hlt : k < (Run.ofOutcome o s).prints.length := by
      rw [prints_ofOutcome]
      exact hstop.lt_length
    refine ⟨fun h => absurd hlt (Nat.not_lt.mpr h), fun _ => rfl, fun _ => ?_, fun _ => ?_⟩
    · rw [prints_ofOutcome, ← hstop.printed_eq]
      rfl
    · obtain ⟨before, text, hlog, hprints, hbegin⟩ := hstop.log
      obtain ⟨later, hlater⟩ := hbegin.trans (Run.log_prefix_ofOutcome o s)
      refine ⟨before, text, later, ?_, ?_, ?_⟩
      · rw [← hlater, hlog, List.append_assoc]
        rfl
      · rw [hprints, hstop.length_printed]
      · have hend : (Run.ofOutcome (.failed Sink.closed) s').log =
            s'.log.push (.runFailed "sink closed" none) := rfl
        rw [hend, Array.toList_push, hlog, List.append_assoc]
        rfl

/-- The root block of a program, on either sink. -/
theorem Program.cut_root (fuel : Nat) (limit : DepthLimit) (k : Nat) (p : Program) :
    Cut k (runOptional (invoke limit fuel 0) globalScope p.body (State.start {}))
      (runOptional (invoke limit fuel 0) globalScope p.body (State.start (.closingAfter k))) := by
  have hinv : (Congruence.closesAfter k).RelInvoke (invoke limit fuel 0) (invoke limit fuel 0) :=
    fun f receiver args line => closesAfter_invoke k limit fuel 0 f receiver args line
  have hroot := Congruence.runOptional hinv globalScope p.body
  exact hroot.cut (State.start {}) ⟨rfl, Store.hostFree_initial, rfl⟩ (Nat.zero_le k)

/-- A run leaves so much room in the sink as there was, less the lines that it printed. -/
theorem Program.sink_run (limit : DepthLimit) (k : Nat) (p : Program) :
    (p.run limit (.closingAfter k)).printed.size ≤ k ∧
      (p.run limit (.closingAfter k)).sink = .closingAfter (k - (p.run limit (.closingAfter k)).printed.size) := by
  have hcut := p.cut_root limit.fuel limit k
  rw [Program.run, Program.runWith_eq]
  generalize runOptional (invoke limit limit.fuel 0) globalScope p.body (State.start (.closingAfter k)) = r
    at hcut
  cases hcut with
  | within hopen hsize => exact ⟨hsize, rfl⟩
  | beyond hstop => exact ⟨Nat.le_of_eq hstop.size, by simp [Run.ofOutcome, hstop.size, hstop.sink]⟩

/-! ### Sessions -/

/-- The lines that were accepted from some runs. -/
def acceptedLines (rs : List Run) : Nat := (rs.flatMap fun r => r.printed.toList).length

theorem acceptedLines_cons (r : Run) (rs : List Run) :
    acceptedLines (r :: rs) = r.printed.size + acceptedLines rs := by
  rw [acceptedLines, List.flatMap_cons, List.length_append, Array.length_toList]
  rfl

/-- A session goes on with the room that is left. -/
theorem runSession_append (limit : DepthLimit) (k : Nat) (earlier later : List Program) :
    acceptedLines (runSession limit (.closingAfter k) earlier) ≤ k ∧
      runSession limit (.closingAfter k) (earlier ++ later) =
        runSession limit (.closingAfter k) earlier ++ runSession limit
          (.closingAfter (k - acceptedLines (runSession limit (.closingAfter k) earlier))) later := by
  induction earlier generalizing k with
  | nil => exact ⟨Nat.zero_le k, rfl⟩
  | cons p earlier ih =>
    obtain ⟨hsize, hsink⟩ := p.sink_run limit k
    obtain ⟨hle, hrest⟩ := ih (k - (p.run limit (.closingAfter k)).printed.size)
    simp only [List.cons_append, runSession, hsink, acceptedLines_cons]
    refine ⟨by omega, ?_⟩
    rw [hrest, Nat.sub_sub]

/-- **A sink that closes cuts a run at exactly the print that fails.**  On a sink that accepts `k`
lines, a run with no more calls of `print` than that does what it does on a sink that accepts every
line.  Any other run ends with the error of the sink at the next call, under whatever calls it is
made.  Of runs one after another, each finds the room that those before it left. -/
theorem Program.run_closedAfter (limit : DepthLimit) (k : Nat) :
    (∀ fuel (p : Program),
      Run.ClosedAfter k (p.runWith fuel limit {}) (p.runWith fuel limit (.closingAfter k))) ∧
    ∀ (earlier : List Program) (p : Program) (later : List Program),
      acceptedLines (runSession limit (.closingAfter k) earlier) ≤ k ∧
      ∃ r, runSession limit (.closingAfter k) (earlier ++ p :: later) =
          runSession limit (.closingAfter k) earlier ++ r :: runSession limit r.sink later ∧
        Run.ClosedAfter (k - acceptedLines (runSession limit (.closingAfter k) earlier))
          (p.run limit {}) r := by
  have hrun : ∀ fuel k (p : Program),
      Run.ClosedAfter k (p.runWith fuel limit {}) (p.runWith fuel limit (.closingAfter k)) :=
    fun fuel k p => Run.closedAfter_of_cut (p.cut_root fuel limit k)
  refine ⟨fun fuel p => hrun fuel k p, fun earlier p later => ?_⟩
  obtain ⟨hle, happend⟩ := runSession_append limit k earlier (p :: later)
  exact ⟨hle, _, happend, hrun limit.fuel _ p⟩

/-- Of two runs of `countdown` on a sink that accepts three lines, the second is cut at the call of
`print` that it makes from within a call. -/
theorem run_closedAfter_countdown :
    (countdown.run ⟨10⟩ {}).prints = ["1", "0"].map Text.ofString ∧
      acceptedLines (runSession ⟨10⟩ (.closingAfter 3) [countdown]) = 2 ∧
      ∃ r, runSession ⟨10⟩ (.closingAfter 3) [countdown, countdown] =
          runSession ⟨10⟩ (.closingAfter 3) [countdown] ++ [r] ∧
        r.ending = .failed (.plain "sink closed") ∧ r.output = Text.ofString "1\n" := by
  have hprints : (countdown.run ⟨10⟩ {}).prints = ["1", "0"].map Text.ofString := by decide +kernel
  have haccepted : acceptedLines (runSession ⟨10⟩ (.closingAfter 3) [countdown]) = 2 := by decide +kernel
  obtain ⟨-, r, hsession, hclosed⟩ := (Program.run_closedAfter ⟨10⟩ 3).2 [countdown] countdown []
  rw [haccepted] at hclosed
  have hmore : 1 < (countdown.run ⟨10⟩ {}).prints.length := by rw [hprints]; decide
  refine ⟨hprints, haccepted, r, hsession, hclosed.ending hmore, ?_⟩
  rw [hclosed.output hmore, hprints]
  decide

end TreeScript
