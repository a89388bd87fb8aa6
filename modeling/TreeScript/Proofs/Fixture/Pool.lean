import Mathlib.Data.List.Perm.Basic
import Mathlib.Data.List.Range
import Mathlib.Logic.Relation
import TreeScript.Fixture.Suite

/-!
# Running fixtures on a pool of workers

Fixtures are run side by side.  A producer hands their indexes, one after another, over a channel
without room to workers that wait there; a worker that has received an index runs the fixture and
puts the result into the place of that index.  The producer closes the channel when all indexes are
handed over, which is what ends the workers.  All of them belong to a group, which keeps the first
error one of them ends with and then calls off what is left.  Whoever finds the runs called off ends
with an error: the producer may do so instead of handing over an index, a worker does so instead of
running a fixture.

The order of these steps is left open.  Still a pool always ends, and with the results that
`runFixtures` gives one after another: as long as nobody has ended with an error, the indexes that
the producer has handed over are those that were run and those that workers have in hand, each of
them once.

## Main definitions

* `Pool` — the producer, the workers, and what they share.
* `Pool.Step` — what may happen next.
* `Pool.Sound` — the invariant.

## Main results

* `Pool.Sound.step` — **the invariant is kept by every step.**
* `Pool.Sound.finished_or_exists_step` — a pool that has not ended is not stuck.
* `Pool.wellFounded_step` — no pool goes on for ever.
* `Pool.returned_eq_runFixtures` — **in whatever order, a pool gives the results of `runFixtures`.**
-/

namespace TreeScript

/-! ### Producer, workers and pools -/

/-- What a worker is doing. -/
inductive Worker where
  /-- It waits at the channel. -/
  | idle
  /-- It has received an index, and not yet looked whether the runs are called off. -/
  | holding (i : Nat)
  /-- It runs the fixture of an index. -/
  | running (i : Nat)
  /-- It has left its loop, with an error or without. -/
  | leaving (e : Option SuiteError)
  /-- It has ended, and the group knows. -/
  | ended

namespace Worker

/-- The index that a worker has in hand. -/
def index? : Worker → Option Nat
  | .holding i => some i
  | .running i => some i
  | _ => none

/-- The error that a worker is about to end with. -/
def fault? : Worker → Option SuiteError
  | .leaving e => e
  | _ => none

/-- Whether a worker has left its loop. -/
def hasLeft : Worker → Bool
  | .leaving _ => true
  | .ended => true
  | _ => false

/-- How many steps a worker can take by itself. -/
def stepsLeft : Worker → Nat
  | .idle => 2
  | .holding _ => 4
  | .running _ => 3
  | .leaving _ => 1
  | .ended => 0

/-- How many steps several workers can take by themselves. -/
def allStepsLeft : List Worker → Nat
  | [] => 0
  | w :: rest => w.stepsLeft + allStepsLeft rest

theorem allStepsLeft_append (l r : List Worker) :
    allStepsLeft (l ++ r) = allStepsLeft l + allStepsLeft r := by
  induction l with
  | nil => simp [allStepsLeft]
  | cons w l ih =>
    simp only [List.cons_append, allStepsLeft, ih]
    omega

end Worker

/-- What the producer is doing. -/
inductive Producer where
  /-- It has an index to hand over, or has handed over all that are below. -/
  | offering (i : Nat)
  /-- It has left its loop, with an error or without, and the channel is still open. -/
  | leaving (e : Option SuiteError)
  /-- It has closed the channel. -/
  | closing (e : Option SuiteError)
  /-- It has ended, and the group knows. -/
  | ended

namespace Producer

/-- The error that the producer is about to end with. -/
def fault? : Producer → Option SuiteError
  | .leaving e => e
  | .closing e => e
  | _ => none

/-- Whether the channel is closed. -/
def isClosed : Producer → Bool
  | .closing _ => true
  | .ended => true
  | _ => false

/-- How many of `n` indexes the producer has handed over, if it did not give up. -/
def handed (n : Nat) : Producer → Nat
  | .offering i => i
  | _ => n

/-- How many steps are left to a producer of `n` indexes, those of the workers it hands them to
included. -/
def stepsLeft (n : Nat) : Producer → Nat
  | .offering i => 3 * (n - i) + 3
  | .leaving _ => 2
  | .closing _ => 1
  | .ended => 0

end Producer

/-- A producer and workers, with what they share. -/
structure Pool where
  /-- The producer. -/
  producer : Producer
  /-- The workers. -/
  workers : List Worker
  /-- Whether the runs are called off. -/
  cancelled : Bool
  /-- The first error that one of the group has ended with. -/
  error : Option SuiteError
  /-- The results, where there are any yet. -/
  results : List (Option FixtureResult)
  /-- The indexes of the fixtures that were run, in the order of their ends. -/
  ran : List Nat

namespace Pool

variable {limit : DepthLimit} {fs : List Fixture} {p q : Pool}

/-- How many workers there are for a degree of parallelism: at least one. -/
def workerCount (parallel : Int) : Nat :=
  if parallel < 1 then 1 else parallel.toNat

theorem workerCount_pos (parallel : Int) : 0 < workerCount parallel := by
  unfold workerCount
  split <;> omega

/-- The pool that is about to run fixtures. -/
def start (fs : List Fixture) (parallel : Int) (cancelled : Bool) : Pool where
  producer := .offering 0
  workers := List.replicate (workerCount parallel) .idle
  cancelled := cancelled
  error := none
  results := List.replicate fs.length none
  ran := []

/-- Notes how one of the group has ended: the first error stays, and calls off what is left. -/
def note (p : Pool) (e : Option SuiteError) : Pool :=
  { p with error := p.error.or e, cancelled := p.cancelled || e.isSome }

/-- What may happen next in a pool that runs fixtures. -/
inductive Step (limit : DepthLimit) (fs : List Fixture) : Pool → Pool → Prop
  /-- The producer hands an index to a worker that waits for one. -/
  | hand {p : Pool} {i : Nat} {l r : List Worker} (hp : p.producer = .offering i)
      (hi : i < fs.length) (hw : p.workers = l ++ .idle :: r) :
      Step limit fs p { p with producer := .offering (i + 1), workers := l ++ .holding i :: r }
  /-- The producer finds the runs called off. -/
  | giveUp {p : Pool} {i : Nat} (hp : p.producer = .offering i) (hi : i < fs.length)
      (hc : p.cancelled = true) :
      Step limit fs p { p with producer := .leaving (some .cancelled) }
  /-- The producer has handed over all indexes. -/
  | exhaust {p : Pool} (hp : p.producer = .offering fs.length) :
      Step limit fs p { p with producer := .leaving none }
  /-- The producer closes the channel. -/
  | close {p : Pool} {e : Option SuiteError} (hp : p.producer = .leaving e) :
      Step limit fs p { p with producer := .closing e }
  /-- The producer ends. -/
  | retire {p : Pool} {e : Option SuiteError} (hp : p.producer = .closing e) :
      Step limit fs p (note { p with producer := .ended } e)
  /-- A worker with an index finds the runs called off. -/
  | drop {p : Pool} {i : Nat} {l r : List Worker} (hw : p.workers = l ++ .holding i :: r)
      (hc : p.cancelled = true) :
      Step limit fs p { p with workers := l ++ .leaving (some .cancelled) :: r }
  /-- A worker with an index finds the runs not called off. -/
  | begin {p : Pool} {i : Nat} {l r : List Worker} (hw : p.workers = l ++ .holding i :: r)
      (hc : p.cancelled = false) :
      Step limit fs p { p with workers := l ++ .running i :: r }
  /-- A worker ends a run, and waits again. -/
  | finish {p : Pool} {i : Nat} {f : Fixture} {l r : List Worker}
      (hw : p.workers = l ++ .running i :: r) (hf : fs[i]? = some f) :
      Step limit fs p { p with
        workers := l ++ .idle :: r
        results := p.results.set i (some (f.run limit))
        ran := p.ran ++ [i] }
  /-- A worker finds the channel closed. -/
  | runDry {p : Pool} {l r : List Worker} (hw : p.workers = l ++ .idle :: r)
      (hc : p.producer.isClosed = true) :
      Step limit fs p { p with workers := l ++ .leaving none :: r }
  /-- A worker ends. -/
  | leave {p : Pool} {e : Option SuiteError} {l r : List Worker}
      (hw : p.workers = l ++ .leaving e :: r) :
      Step limit fs p (note { p with workers := l ++ .ended :: r } e)

/-- A pool whose producer and workers have all ended. -/
def Finished (p : Pool) : Prop :=
  p.producer = .ended ∧ ∀ w ∈ p.workers, w = .ended

/-- What the group gives once it has ended: its error, or else the results. -/
def returned (p : Pool) : Except SuiteError (List (Option FixtureResult)) :=
  match p.error with
  | some e => .error e
  | none => .ok p.results

/-! ### Every pool ends -/

/-- How many steps are left at most. -/
def stepsLeft (n : Nat) (p : Pool) : Nat :=
  p.producer.stepsLeft n + Worker.allStepsLeft p.workers

/-- Every step is one of those that were left. -/
theorem Step.stepsLeft_lt (h : Step limit fs p q) :
    q.stepsLeft fs.length < p.stepsLeft fs.length := by
  cases h <;>
    simp_all only [Pool.stepsLeft, note, Producer.stepsLeft, Worker.stepsLeft,
      Worker.allStepsLeft, Worker.allStepsLeft_append] <;>
    omega

/-- **No pool goes on for ever.** -/
theorem wellFounded_step (limit : DepthLimit) (fs : List Fixture) :
    WellFounded fun q p => Step limit fs p q :=
  Subrelation.wf (fun h => h.stepsLeft_lt) (measure (stepsLeft fs.length)).wf

/-! ### The invariant -/

/-- The indexes that workers have in hand. -/
def held (p : Pool) : List Nat :=
  p.workers.filterMap Worker.index?

/-- The errors that there are: the one noted, and those that the producer and workers are about to
end with. -/
def faults (p : Pool) : List SuiteError :=
  p.error.toList ++ p.producer.fault?.toList ++ p.workers.filterMap Worker.fault?

/-- The results of fixtures of which some were run. -/
def table (limit : DepthLimit) (fs : List Fixture) (ran : List Nat) : List (Option FixtureResult) :=
  fs.mapIdx fun i f => if i ∈ ran then some (f.run limit) else none

/-- What holds of a pool at any time. -/
structure Sound (limit : DepthLimit) (fs : List Fixture) (p : Pool) : Prop where
  /-- There is a worker. -/
  staffed : p.workers ≠ []
  /-- The index that is offered is that of a fixture, or all are handed over. -/
  offered : ∀ i, p.producer = .offering i → i ≤ fs.length
  /-- The indexes that workers have in hand are those of fixtures. -/
  bounded : ∀ i ∈ p.held, i < fs.length
  /-- There are results of the fixtures that were run, and no others. -/
  results : p.results = table limit fs p.ran
  /-- There are errors only if the runs are called off, and there is a fixture to run. -/
  blamed : p.faults ≠ [] → p.cancelled = true ∧ fs ≠ []
  /-- Without an error, the indexes handed over were run or are in hand. -/
  complete : p.faults = [] → (p.ran ++ p.held).Perm (List.range (p.producer.handed fs.length))
  /-- Without an error, workers leave only when the channel is closed. -/
  waiting : p.faults = [] → p.workers.any Worker.hasLeft = true → p.producer.isClosed = true

/-- What workers have in hand, one of them singled out. -/
theorem held_middle {l r : List Worker} {w : Worker} (hw : p.workers = l ++ w :: r) :
    p.held = l.filterMap Worker.index? ++ (w.index?.toList ++ r.filterMap Worker.index?) := by
  rw [held, hw, List.filterMap_append, List.filterMap_cons]
  cases w.index? <;> rfl

/-- No fixture was run. -/
theorem table_nil (limit : DepthLimit) (fs : List Fixture) :
    table limit fs [] = List.replicate fs.length none := by
  simp only [table, List.not_mem_nil, if_false]
  rw [List.eq_replicate_iff]
  simp

/-- One more fixture was run. -/
theorem table_snoc {i : Nat} {f : Fixture} (hf : fs[i]? = some f) (ran : List Nat) :
    (table limit fs ran).set i (some (f.run limit)) = table limit fs (ran ++ [i]) := by
  apply List.ext_getElem?
  intro j
  simp only [table, List.getElem?_set, List.getElem?_mapIdx, List.length_mapIdx, List.mem_append,
    List.mem_singleton]
  by_cases hij : i = j
  · subst hij
    obtain ⟨hlt, rfl⟩ := List.getElem?_eq_some_iff.mp hf
    simp [hlt]
  · have hji : j ≠ i := fun h => hij h.symm
    simp [hij, hji]

/-- When all fixtures were run, their results are those of running them one after another. -/
theorem table_of_forall_mem {ran : List Nat} (h : ∀ i < fs.length, i ∈ ran) :
    table limit fs ran = fs.map fun f => some (f.run limit) := by
  apply List.ext_getElem?
  intro j
  simp only [table, List.getElem?_mapIdx, List.getElem?_map]
  by_cases hj : j < fs.length
  · simp only [h j hj, if_true]
  · rw [List.getElem?_eq_none (Nat.le_of_not_lt hj)]
    rfl

/-- A step leaves the errors there are. -/
theorem Step.faults_eq_nil (h : Step limit fs p q) (hq : q.faults = []) : p.faults = [] := by
  obtain ⟨producer, workers, cancelled, error, results, ran⟩ := p
  cases h with
  | retire hp =>
    subst hp
    cases error <;> simp_all [faults, note, Producer.fault?]
  | leave hw =>
    subst hw
    cases error <;> simp_all [faults, note, Worker.fault?]
  | _ => simp_all [faults, Producer.fault?, Worker.fault?]

namespace Sound

variable (hs : p.Sound limit fs)
include hs

/-- An index that a worker has in hand is that of a fixture. -/
theorem lt_of_workers_eq {l r : List Worker} {w : Worker} {i : Nat} (hw : p.workers = l ++ w :: r)
    (hi : w.index? = some i) : i < fs.length := by
  apply hs.bounded
  rw [held_middle hw, hi]
  simp

/-- Errors come from runs that are called off while there is a fixture to run. -/
theorem blamed_step (h : Step limit fs p q) (hq : q.faults ≠ []) :
    q.cancelled = true ∧ fs ≠ [] := by
  by_cases hp : p.faults = []
  · cases h with
    | giveUp _ hi hc => exact ⟨hc, List.ne_nil_of_length_pos (Nat.zero_lt_of_lt hi)⟩
    | drop hw hc =>
      have hi := hs.lt_of_workers_eq hw rfl
      exact ⟨hc, List.ne_nil_of_length_pos (Nat.zero_lt_of_lt hi)⟩
    | _ =>
      exfalso
      simp_all [faults, note, Producer.fault?, Worker.fault?]
  · obtain ⟨hc, hfs⟩ := hs.blamed hp
    refine ⟨?_, hfs⟩
    cases h <;> simp [note, hc]

/-- Indexes go from the producer to a worker, and from there to those that were run. -/
theorem complete_step (h : Step limit fs p q) (hq : q.faults = []) :
    (q.ran ++ q.held).Perm (List.range (q.producer.handed fs.length)) := by
  have hperm := hs.complete (h.faults_eq_nil hq)
  cases h with
  | @hand i l r hp hi hw =>
    rw [held_middle hw, hp, ← List.append_assoc] at hperm
    rw [held_middle (p := { p with producer := _, workers := _ }) rfl, Producer.handed,
      List.range_succ, ← List.append_assoc]
    -- the index in the middle goes to the end, where the range has it
    refine List.perm_middle.trans ((List.perm_append_singleton _ _).symm.trans ?_)
    exact List.Perm.append_right [i] hperm
  | @finish i f l r hw hf =>
    rw [held_middle hw] at hperm
    rw [held_middle (p := { p with workers := _, results := _, ran := _ }) rfl, List.append_assoc]
    have hmove : (l.filterMap Worker.index? ++ i :: r.filterMap Worker.index?).Perm
        (i :: (l.filterMap Worker.index? ++ r.filterMap Worker.index?)) := List.perm_middle
    exact (hmove.symm.append_left p.ran).trans hperm
  | giveUp => simp [faults, Producer.fault?] at hq
  | drop => simp [faults, Worker.fault?] at hq
  | _ =>
    simp_all only [held, note, Producer.handed, Worker.index?, List.filterMap_append,
      List.filterMap_cons]

/-- Workers leave when the channel is closed, which stays closed. -/
theorem waiting_step (h : Step limit fs p q) (hq : q.faults = [])
    (hleft : q.workers.any Worker.hasLeft = true) : q.producer.isClosed = true := by
  have hwait := hs.waiting (h.faults_eq_nil hq)
  cases h with
  | drop => simp [faults, Worker.fault?] at hq
  | _ =>
    simp_all only [note, Worker.hasLeft, Producer.isClosed, List.any_append, List.any_cons,
      Bool.or_true, Bool.true_or, Bool.false_or, Bool.false_eq_true, imp_false, not_true,
      forall_const]

/-- **The invariant is kept by every step.** -/
theorem step (h : Step limit fs p q) : q.Sound limit fs where
  staffed := by
    have hstaffed := hs.staffed
    cases h <;> simp [note, hstaffed]
  offered := by
    have hoffered := hs.offered
    cases h with
    | hand hp hi hw => exact fun j hj => by cases hj; exact hi
    | _ => simp_all [note]
  bounded := by
    have hbounded := hs.bounded
    cases h <;> simp_all only [note, held, Worker.index?, List.filterMap_append,
      List.filterMap_cons, List.forall_mem_append, List.forall_mem_cons, implies_true, and_self]
  results := by
    have hresults := hs.results
    cases h with
    | finish hw hf => rw [hresults, table_snoc hf]
    | _ => exact hresults
  blamed := hs.blamed_step h
  complete := hs.complete_step h
  waiting := hs.waiting_step h

/-- Nobody calls off the runs but who has found them called off. -/
theorem cancelled_step (h : Step limit fs p q) : q.cancelled = p.cancelled := by
  have hblamed := hs.blamed
  cases h with
  | @retire e hp =>
    cases e with
    | none => exact Bool.or_false _
    | some e =>
      have hc := (hblamed (by simp [faults, hp, Producer.fault?])).1
      simp [note, hc]
  | @leave e l r hw =>
    cases e with
    | none => exact Bool.or_false _
    | some e =>
      have hc := (hblamed (by simp [faults, hw, Worker.fault?])).1
      simp [note, hc]
  | _ => rfl

/-! ### No pool is stuck -/

/-- A worker that neither waits nor has ended can go on. -/
theorem exists_step_of_busy {w : Worker} (hw : w ∈ p.workers) (hidle : w ≠ .idle)
    (hended : w ≠ .ended) : ∃ q, Step limit fs p q := by
  obtain ⟨l, r, hlr⟩ := List.append_of_mem hw
  cases w with
  | idle => exact absurd rfl hidle
  | holding i =>
    cases hc : p.cancelled with
    | true => exact ⟨_, .drop hlr hc⟩
    | false => exact ⟨_, .begin hlr hc⟩
  | running i =>
    have hi := hs.lt_of_workers_eq hlr rfl
    exact ⟨_, .finish hlr (List.getElem?_eq_getElem hi)⟩
  | leaving e => exact ⟨_, .leave hlr⟩
  | ended => exact absurd rfl hended

/-- An index can be handed over as long as the runs are not called off and no worker is busy:
without an error all workers wait. -/
theorem exists_idle {i : Nat} (hp : p.producer = .offering i) (hc : p.cancelled = false)
    (hfree : ∀ w ∈ p.workers, w = .idle ∨ w = .ended) : ∃ l r, p.workers = l ++ .idle :: r := by
  have hfaults : p.faults = [] := by
    by_contra hne
    rw [(hs.blamed hne).1] at hc
    cases hc
  obtain ⟨w, r, hw⟩ := List.exists_cons_of_ne_nil hs.staffed
  have hwait : w ≠ .ended := by
    rintro rfl
    have hclosed := hs.waiting hfaults (by simp [hw, Worker.hasLeft])
    simp [hp, Producer.isClosed] at hclosed
  obtain rfl := (hfree w (by simp [hw])).resolve_right hwait
  exact ⟨[], r, hw⟩

/-- **A pool that has not ended is not stuck.** -/
theorem finished_or_exists_step : p.Finished ∨ ∃ q, Step limit fs p q := by
  by_cases hfree : ∀ w ∈ p.workers, w = .idle ∨ w = .ended
  · -- no worker goes on by itself, so it is for the producer to do so, or for the closed channel
    cases hp : p.producer with
    | offering i =>
      right
      rcases Nat.lt_or_eq_of_le (hs.offered i hp) with hi | rfl
      · cases hc : p.cancelled with
        | true => exact ⟨_, .giveUp hp hi hc⟩
        | false =>
          obtain ⟨l, r, hw⟩ := hs.exists_idle hp hc hfree
          exact ⟨_, .hand hp hi hw⟩
      · exact ⟨_, .exhaust hp⟩
    | leaving e => exact .inr ⟨_, .close hp⟩
    | closing e => exact .inr ⟨_, .retire hp⟩
    | ended =>
      by_cases hended : ∀ w ∈ p.workers, w = .ended
      · exact .inl ⟨hp, hended⟩
      · push Not at hended
        obtain ⟨w, hw, hne⟩ := hended
        obtain rfl := (hfree w hw).resolve_right hne
        obtain ⟨l, r, hlr⟩ := List.append_of_mem hw
        exact .inr ⟨_, .runDry hlr (by rw [hp]; rfl)⟩
  · push Not at hfree
    obtain ⟨w, hw, hidle, hended⟩ := hfree
    exact .inr (hs.exists_step_of_busy hw hidle hended)

end Sound

/-! ### Whole runs -/

/-- A pool that is about to start is sound. -/
theorem sound_start (limit : DepthLimit) (fs : List Fixture) (parallel : Int) (cancelled : Bool) :
    (start fs parallel cancelled).Sound limit fs := by
  have hheld : (start fs parallel cancelled).held = [] := by simp [start, held, Worker.index?]
  have hfaults : (start fs parallel cancelled).faults = [] := by
    simp [start, faults, Producer.fault?, Worker.fault?]
  constructor
  · simp [start, (workerCount_pos parallel).ne']
  · rintro i ⟨⟩
    exact Nat.zero_le _
  · simp [hheld]
  · exact (table_nil limit fs).symm
  · exact fun hne => absurd hfaults hne
  · intro _
    rw [hheld]
    rfl
  · intro _ hleft
    simp [start, Worker.hasLeft] at hleft

/-- **At any time a pool is sound**, and called off if it was from the start. -/
theorem sound_of_reaches {parallel : Int} {cancelled : Bool}
    (h : Relation.ReflTransGen (Step limit fs) (start fs parallel cancelled) p) :
    p.Sound limit fs ∧ p.cancelled = cancelled := by
  induction h with
  | refl => exact ⟨sound_start limit fs parallel cancelled, rfl⟩
  | tail _ hstep ih => exact ⟨ih.1.step hstep, (ih.1.cancelled_step hstep).trans ih.2⟩

/-- A pool that was called off before it started runs nothing. -/
theorem ran_eq_nil_of_reaches {parallel : Int}
    (h : Relation.ReflTransGen (Step limit fs) (start fs parallel true) p) :
    p.ran = [] ∧ ∀ i, .running i ∉ p.workers := by
  induction h with
  | refl => exact ⟨rfl, fun i hi => by simp [start] at hi⟩
  | tail hreach hstep ih =>
    have hc := (sound_of_reaches hreach).2
    cases hstep with
    | begin hw hc' => rw [hc] at hc'; cases hc'
    | @finish i f l r hw hf => exact absurd (by simp [hw]) (ih.2 i)
    | _ => simp_all [note]

namespace Finished

variable (hf : p.Finished)
include hf

/-- In the end no worker has an index in hand. -/
theorem held_eq_nil : p.held = [] := by
  refine List.filterMap_eq_nil_iff.mpr fun w hw => ?_
  rw [hf.2 w hw]
  rfl

/-- In the end there is no error but the one noted. -/
theorem faults_eq : p.faults = p.error.toList := by
  have hworkers : p.workers.filterMap Worker.fault? = [] := by
    refine List.filterMap_eq_nil_iff.mpr fun w hw => ?_
    rw [hf.2 w hw]
    rfl
  rw [faults, hf.1, hworkers]
  simp [Producer.fault?]

/-- In the end, if there is no error, every fixture was run once. -/
theorem ran_perm (hs : p.Sound limit fs) (he : p.error = none) :
    p.ran.Perm (List.range fs.length) := by
  have hperm := hs.complete (by rw [hf.faults_eq, he]; rfl)
  rw [hf.held_eq_nil, List.append_nil, hf.1] at hperm
  exact hperm

/-- In the end, if there is no error, the results are those of the fixtures, each run by itself. -/
theorem results_eq (hs : p.Sound limit fs) (he : p.error = none) :
    p.results = fs.map fun f => some (f.run limit) := by
  rw [hs.results]
  apply table_of_forall_mem
  intro i hi
  exact (hf.ran_perm hs he).mem_iff.mpr (List.mem_range.mpr hi)

end Finished

/-- In the end there is an error if the runs were called off from the start and there was one to
make. -/
theorem error_of_finished {parallel : Int} {cancelled : Bool}
    (hreach : Relation.ReflTransGen (Step limit fs) (start fs parallel cancelled) p)
    (hf : p.Finished) : p.error = some .cancelled ↔ cancelled = true ∧ fs ≠ [] := by
  obtain ⟨hs, hc⟩ := sound_of_reaches hreach
  constructor
  · intro he
    rw [← hc]
    exact hs.blamed (by simp [hf.faults_eq, he])
  · rintro ⟨rfl, hfs⟩
    cases he : p.error with
    | some e => rfl
    | none =>
      -- Every fixture was run, and none was, so there are none.
      have hperm := hf.ran_perm hs he
      rw [(ran_eq_nil_of_reaches hreach).1, List.nil_perm, List.range_eq_nil] at hperm
      exact absurd (List.eq_nil_of_length_eq_zero hperm) hfs

/-- **In whatever order its steps are taken, a pool gives the results of `runFixtures`.**  No
sequence of steps goes on for ever, and none stops before all have ended.  When all have ended and the
runs were not called off, every fixture was run once, its result, the one it has when it is run by
itself, is in its place, and there is no error.  If the runs were called off from the start, nothing
was run, which is an error unless there was nothing to run. -/
theorem returned_eq_runFixtures (limit : DepthLimit) (fs : List Fixture) (parallel : Int) :
    (WellFounded fun q p => Step limit fs p q) ∧
    ∀ (cancelled : Bool) (p : Pool),
      Relation.ReflTransGen (Step limit fs) (start fs parallel cancelled) p →
      (p.Finished ∨ ∃ q, Step limit fs p q) ∧
      (p.Finished →
        (cancelled = false →
          p.ran.Perm (List.range fs.length) ∧
          p.results = fs.map (fun f => some (f.run limit)) ∧
          p.error = none) ∧
        (cancelled = true → p.ran = [] ∧ (p.error = some .cancelled ↔ fs ≠ [])) ∧
        p.returned = (runFixtures limit cancelled fs).map (List.map some)) := by
  refine ⟨wellFounded_step limit fs, fun cancelled p hreach => ?_⟩
  obtain ⟨hs, -⟩ := sound_of_reaches hreach
  refine ⟨hs.finished_or_exists_step, fun hf => ?_⟩
  have herror := error_of_finished hreach hf
  have hnone (h : ¬ (cancelled = true ∧ fs ≠ [])) : p.error = none := by
    cases he : p.error with
    | none => rfl
    | some e => exact absurd (herror.mp he) h
  refine ⟨?_, ?_, ?_⟩
  · rintro rfl
    have he := hnone (by simp)
    exact ⟨hf.ran_perm hs he, hf.results_eq hs he, he⟩
  · rintro rfl
    exact ⟨(ran_eq_nil_of_reaches hreach).1, herror.trans (by simp)⟩
  · by_cases h : cancelled = true ∧ fs ≠ []
    · rw [returned, herror.mpr h, runFixtures, if_pos (by simpa using h)]
      rfl
    · rw [returned, hnone h, hf.results_eq hs (hnone h), runFixtures, if_neg (by simpa using h)]
      simp [Except.map]

/-- Two fixtures: one prints, and one asks for a failure. -/
def twoFixtures : List Fixture :=
  [{ name := "one", output := "1\n", failure := [], path := "one.yaml"
     program := ⟨"one.yaml", some (.mk 1 [.call 1 (.var 1 "print") [.literal 1 (.int 1)]])⟩ },
   { name := "two", output := [], failure := "line 2", path := "two.yaml"
     program := ⟨"two.yaml", some (.mk 1 [.call 2 (.var 2 "two") []])⟩ }]

/-- The second of two workers is done before the first. -/
theorem twoFixtures_crossing (limit : DepthLimit) :
    Relation.ReflTransGen (Step limit twoFixtures) (start twoFixtures 2 false)
      ⟨.ended, [.ended, .ended], false, none,
        twoFixtures.map fun f => some (f.run limit), [1, 0]⟩ :=
  .head (.hand (l := []) rfl (by decide) rfl) <|
  .head (.hand (l := [_]) rfl (by decide) rfl) <|
  .head (.exhaust rfl) <|
  .head (.begin (l := [_]) rfl rfl) <|
  .head (.finish (l := [_]) rfl rfl) <|
  .head (.begin (l := []) rfl rfl) <|
  .head (.close rfl) <|
  .head (.runDry (l := [_]) rfl rfl) <|
  .head (.finish (l := []) rfl rfl) <|
  .head (.runDry (l := []) rfl rfl) <|
  .head (.leave (l := []) rfl) <|
  .head (.retire rfl) <|
  .head (.leave (l := [_]) rfl) <|
  .refl

/-- The only worker is handed an index though the runs are called off, and drops it. -/
theorem twoFixtures_cancelled (limit : DepthLimit) :
    Relation.ReflTransGen (Step limit twoFixtures) (start twoFixtures (-3) true)
      ⟨.ended, [.ended], true, some .cancelled, [none, none], []⟩ :=
  .head (.hand (l := []) rfl (by decide) rfl) <|
  .head (.drop (l := []) rfl rfl) <|
  .head (.giveUp rfl (by decide) rfl) <|
  .head (.leave (l := []) rfl) <|
  .head (.close rfl) <|
  .head (.retire rfl) <|
  .refl

/-- Two workers that are done in the other order, and a worker that is called off. -/
theorem returned_eq_runFixtures_twoFixtures :
    (∃ p, Relation.ReflTransGen (Step ⟨8⟩ twoFixtures) (start twoFixtures 2 false) p ∧
      p.Finished ∧ p.ran = [1, 0] ∧ p.ran.Perm (List.range 2) ∧
      p.returned = .ok (twoFixtures.map fun f => some (f.run ⟨8⟩))) ∧
    ∃ p, Relation.ReflTransGen (Step ⟨8⟩ twoFixtures) (start twoFixtures (-3) true) p ∧
      p.Finished ∧ p.ran = [] ∧ p.error = some .cancelled := by
  refine ⟨⟨_, twoFixtures_crossing ⟨8⟩, ?_⟩, ⟨_, twoFixtures_cancelled ⟨8⟩, ?_⟩⟩
  · have hf : Finished ⟨.ended, [.ended, .ended], false, none,
        twoFixtures.map fun f => some (f.run ⟨8⟩), [1, 0]⟩ := ⟨rfl, by simp⟩
    obtain ⟨hall, -, hreturned⟩ :=
      ((returned_eq_runFixtures ⟨8⟩ twoFixtures 2).2 false _ (twoFixtures_crossing ⟨8⟩)).2 hf
    exact ⟨hf, rfl, (hall rfl).1, hreturned⟩
  · have hf : Finished ⟨.ended, [.ended], true, some .cancelled, [none, none], []⟩ := ⟨rfl, by simp⟩
    obtain ⟨-, hnothing, -⟩ :=
      ((returned_eq_runFixtures ⟨8⟩ twoFixtures (-3)).2 true _ (twoFixtures_cancelled ⟨8⟩)).2 hf
    obtain ⟨hran, herror⟩ := hnothing rfl
    exact ⟨hf, hran, herror.mpr (List.cons_ne_nil _ _)⟩

end Pool

end TreeScript
