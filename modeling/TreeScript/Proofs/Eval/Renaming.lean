import TreeScript.Proofs.Eval.Soundness
import TreeScript.Proofs.Store.Renaming

/-!
# Scoping is lexical

What a name stands for is settled by where it is written: a parameter can be renamed, if the name is
replaced inside the function only, and the new one is not in use.  A run of the renamed program keeps
a store that is like the store of the program's run; it does the same in it, step by step, and prints
the same.  Only the failure of a declaration names the variable, and so may name the new one.

## Main definitions

* `State.Renamed` — two states whose stores are alike.
* `Fault.Renamed` — errors that are the same but for the name in the failure of a declaration.
* `Exec.Follows` — a step that does what another does, in a state that is alike.

## Main results

* `follows_eval`, `follows_invoke` — **evaluation of a renamed expression follows that of the
  expression**, and so do invocations.
* `Program.run_renameParam` — **a parameter can be renamed.**
-/

namespace TreeScript

/-! ### States and outcomes -/

/-- Two states with the same printed lines, log and sink, and with stores that are alike. -/
structure State.Renamed (g : Renaming) (inside : ScopeRef → Bool) (s t : State) : Prop where
  /-- The marks are inherited. -/
  marked : s.store.Marked g inside
  /-- The stores are alike. -/
  alike : s.store.Alike g inside t.store
  /-- The same lines were printed. -/
  printed : t.printed = s.printed
  /-- The same entries were logged. -/
  log : t.log = s.log
  /-- Lines go to the same sink. -/
  sink : t.sink = s.sink

/-- The errors are the same, or one is that of a declaration of the old name and the other that of a
declaration of the new name on the same line. -/
inductive Fault.Renamed (g : Renaming) : Fault → Fault → Prop
  | same (e : Fault) : Fault.Renamed g e e
  | declared (line : Int) :
      Fault.Renamed g (.failure ⟨.alreadyDefined, line, g.old⟩) (.failure ⟨.alreadyDefined, line, g.new⟩)

theorem Fault.Renamed.atLine {g : Renaming} {e e' : Fault} (h : e.Renamed g e') (line : Int) :
    (e.atLine line).Renamed g (e'.atLine line) := by
  cases h with
  | same => exact .same _
  | declared line' =>
    rw [Fault.atLine_failure, Fault.atLine_failure]
    exact .declared _

/-- The outcomes are the same up to errors, and the result has the property `P`. -/
inductive Outcome.Renamed (g : Renaming) {α : Type} (P : α → Prop) : Outcome α → Outcome α → Prop
  | done {a} (ha : P a) : Outcome.Renamed g P (.done a) (.done a)
  | returning {v line} (hv : v.GlobalOnly) :
      Outcome.Renamed g P (.returning v line) (.returning v line)
  | failed {e e'} (he : e.Renamed g e') : Outcome.Renamed g P (.failed e) (.failed e')
  | crashed : Outcome.Renamed g P .crashed .crashed
  | outOfFuel : Outcome.Renamed g P .outOfFuel .outOfFuel

/-- From stores that were alike, with marks `inside`, evaluation led to states that are, with marks
that only new scopes have changed, and to the same outcomes. -/
def Tracks (g : Renaming) (inside : ScopeRef → Bool) (before : Store) {α : Type} (P : α → Prop)
    (r r' : Outcome α × State) : Prop :=
  ∃ marks : ScopeRef → Bool, (∀ e, before.HasScope e → marks e = inside e) ∧
    before.Extends r.2.store ∧ r.2.Renamed g marks r'.2 ∧ r.1.Renamed g P r'.1

/-- In states whose stores are alike, `x'` does what `x` does.  Both work in a scope, whose mark is
known. -/
def Exec.Follows (g : Renaming) (scope : ScopeRef) (mark : Bool) {α : Type} (P : α → Prop)
    (x x' : Exec α) : Prop :=
  ∀ inside s t, State.Renamed g inside s t → s.store.HasScope scope → inside scope = mark →
    Tracks g inside s.store P (x s) (x' t)

namespace Tracks

variable {g : Renaming} {inside : ScopeRef → Bool} {α : Type} {P : α → Prop} {s t : State}
  {o o' : Outcome α}

/-- Nothing has changed. -/
theorem here (h : s.Renamed g inside t) (ho : o.Renamed g P o') :
    Tracks g inside s.store P (o, s) (o', t) :=
  ⟨inside, fun _ _ => rfl, .refl _, h, ho⟩

/-- Only the stores have changed. -/
theorem stores (h : s.Renamed g inside t) {store store' : Store} (hext : s.store.Extends store)
    (hmarked : store.Marked g inside) (halike : store.Alike g inside store')
    (ho : o.Renamed g P o') :
    Tracks g inside s.store P (o, s.withStore store) (o', t.withStore store') :=
  ⟨inside, fun _ _ => rfl, hext, ⟨hmarked, halike, h.printed, h.log, h.sink⟩, ho⟩

/-- What a call does with the outcomes. -/
theorem catchReturn {x x' : Exec α} {before : Store}
    (h : Tracks g inside before P (x s) (x' t)) :
    Tracks g inside before Value.GlobalOnly (x.catchReturn s) (x'.catchReturn t) := by
  obtain ⟨marks, hmarks, hext, hstate, ho⟩ := h
  rw [Exec.catchReturn_apply, Exec.catchReturn_apply]
  refine ⟨marks, hmarks, hext, hstate, ?_⟩
  generalize (x s).1 = o at ho ⊢
  generalize (x' t).1 = o' at ho ⊢
  cases ho with
  | done _ => exact .done trivial
  | returning hv => exact .done hv
  | failed he => exact .failed he
  | crashed => exact .crashed
  | outOfFuel => exact .outOfFuel

/-- What an invocation does with the outcomes. -/
theorem atLine {x x' : Exec α} {before : Store} (h : Tracks g inside before P (x s) (x' t))
    (line : Int) : Tracks g inside before P (x.atLine line s) (x'.atLine line t) := by
  obtain ⟨marks, hmarks, hext, hstate, ho⟩ := h
  rw [Exec.atLine_apply, Exec.atLine_apply]
  refine ⟨marks, hmarks, hext, hstate, ?_⟩
  generalize (x s).1 = o at ho ⊢
  generalize (x' t).1 = o' at ho ⊢
  cases ho with
  | done ha => exact .done ha
  | returning hv => exact .returning hv
  | failed he => exact .failed (he.atLine line)
  | crashed => exact .crashed
  | outOfFuel => exact .outOfFuel

end Tracks

namespace Exec.Follows

variable {g : Renaming} {scope : ScopeRef} {mark : Bool} {α β : Type} {P : α → Prop}
  {Q : β → Prop} {x x' : Exec α}

theorem result {a : α} (ha : P a) : Follows g scope mark P (Exec.result a) (Exec.result a) :=
  fun _ _ _ h _ _ => .here h (.done ha)

theorem failWith (kind : FailureKind) (line : Int) (detail : Text) :
    Follows g scope mark P (Exec.failWith kind line detail) (Exec.failWith kind line detail) :=
  fun _ _ _ h _ _ => .here h (.failed (.same _))

/-- Sequencing steps of which one follows the other. -/
theorem andThen {f f' : α → Exec β} (hx : Follows g scope mark P x x')
    (hf : ∀ a, P a → Follows g scope mark Q (f a) (f' a)) :
    Follows g scope mark Q (x.andThen f) (x'.andThen f') := by
  intro inside s t h hscope hmark
  obtain ⟨marks, hmarks, hext, h₁, ho⟩ := hx inside s t h hscope hmark
  rcases hxs : x s with ⟨o, s₁⟩
  rcases hxt : x' t with ⟨o', t₁⟩
  rw [hxs, hxt] at h₁ ho
  rw [hxs] at hext
  cases ho with
  | done ha =>
    rw [andThen_done hxs, andThen_done hxt]
    obtain ⟨marks₂, hmarks₂, hext₂, h₂, ho₂⟩ := hf _ ha marks s₁ t₁ h₁ (hext.hasScope hscope)
      ((hmarks scope hscope).trans hmark)
    refine ⟨marks₂, fun e he => ?_, hext.trans hext₂, h₂, ho₂⟩
    exact (hmarks₂ e (hext.hasScope he)).trans (hmarks e he)
  | returning hv =>
    rw [andThen_returning hxs, andThen_returning hxt]
    exact ⟨marks, hmarks, hext, h₁, .returning hv⟩
  | failed he =>
    rw [andThen_failed hxs, andThen_failed hxt]
    exact ⟨marks, hmarks, hext, h₁, .failed he⟩
  | crashed =>
    rw [andThen_crashed hxs, andThen_crashed hxt]
    exact ⟨marks, hmarks, hext, h₁, .crashed⟩
  | outOfFuel =>
    rw [andThen_outOfFuel hxs, andThen_outOfFuel hxt]
    exact ⟨marks, hmarks, hext, h₁, .outOfFuel⟩

/-- Reading the text of a value. -/
theorem showValue? (v : Value) :
    Follows g scope mark (fun _ => True) (Exec.demand fun store => store.showValue? v)
      (Exec.demand fun store => store.showValue? v) := by
  intro inside s t h _ _
  simp only [Exec.demand, h.alike.showValue?]
  cases s.store.showValue? v with
  | some text => exact .here h (.done trivial)
  | none => exact .here h .crashed

/-- Writing a variable. -/
theorem assign {name : Text} (hname : name ≠ g.new) {v : Value} (hv : v.GlobalOnly) :
    Follows g scope mark (fun _ => True) (Exec.change fun store => store.assign scope name v)
      (Exec.change fun store => store.assign scope (g.name mark name) v) := by
  intro inside s t h _ hmark
  subst hmark
  exact .stores h (s.store.extends_assign ..) (h.marked.assign scope name hv)
    (h.alike.assign scope hname v) (.done trivial)

/-- Declaring a variable: if it cannot be declared, the failure has its name. -/
theorem declare (line : Int) {name : Text} (hname : name ≠ g.new) {v : Value}
    (hv : v.GlobalOnly) :
    Follows g scope mark (fun _ => True) (Exec.atLine line (Exec.declare scope name v))
      (Exec.atLine line (Exec.declare scope (g.name mark name) v)) := by
  intro inside s t h hscope hmark
  subst hmark
  rw [declareAt_apply, declareAt_apply, h.alike.lookup h.marked hscope hname]
  by_cases hundefined : s.store.lookup scope name = .undefined
  · rw [if_pos hundefined, if_pos hundefined]
    exact .stores h (s.store.extends_assign ..) (h.marked.assign scope name hv)
      (h.alike.assign scope hname v) (.done trivial)
  · rw [if_neg hundefined, if_neg hundefined]
    refine .here h (.failed ?_)
    by_cases hold : name = g.old
    · subst hold
      cases inside scope with
      | true =>
        have hnew : g.name true g.old = g.new := if_pos rfl
        rw [hnew]
        exact .declared line
      | false => exact .same _
    · rw [g.name_of_ne _ hold]
      exact .same _

/-- Reading a field of a value that can be held. -/
theorem fieldOf {receiver : Value} (hreceiver : receiver.GlobalOnly) {name : Text}
    (hname : name ≠ g.new) (line : Int) :
    Follows g scope mark Value.GlobalOnly (Exec.fieldOf receiver name line)
      (Exec.fieldOf receiver name line) := by
  refine andThen (P := fun held => ∀ v, held = some v → v.GlobalOnly) ?_ fun held hheld => ?_
  · intro inside s t h _ _
    simp only [Exec.read, h.alike.field? h.marked hreceiver hname]
    exact .here h (.done fun v hv => h.marked.field? hv)
  · cases held with
    | some v => exact result (hheld v rfl)
    | none => exact andThen (showValue? receiver) fun _ _ => failWith _ _ _

/-- Writing a field of a value that can be held. -/
theorem setField {receiver v : Value} (hreceiver : receiver.GlobalOnly) {name : Text}
    (hname : name ≠ g.new) (hv : v.GlobalOnly) :
    Follows g scope mark (fun _ => True) (Exec.change fun store => store.setField receiver name v)
      (Exec.change fun store => store.setField receiver name v) :=
  fun _ s _ h _ _ => .stores h (s.store.extends_setField ..) (h.marked.setField receiver name hv)
    (h.alike.setField h.marked hreceiver hname v) (.done trivial)

/-- Writing a field of an object. -/
theorem initField (o : ObjectRef) (name : Text) {v : Value} (hv : v.GlobalOnly) :
    Follows g scope mark (fun _ => True) (Exec.change fun store => store.setField (.object o) name v)
      (Exec.change fun store => store.setField (.object o) name v) :=
  fun _ s _ h _ _ => .stores h (s.store.extends_setField ..) (h.marked.setField (.object o) name hv)
    (h.alike.setFieldObject o name v) (.done trivial)

/-- Making an object. -/
theorem newObject :
    Follows g scope mark (fun _ => True) (Exec.make fun store => store.newObject)
      (Exec.make fun store => store.newObject) := by
  intro inside s t h _ _
  have hplace : t.store.newObject.1 = s.store.newObject.1 := by
    simp only [Store.newObject, h.alike.objects]
  simp only [Exec.make, hplace]
  exact .stores h s.store.extends_newObject h.marked.newObject h.alike.newObject (.done trivial)

/-- Making a function in the scope. -/
theorem newFunction (name : Text) {params : List Text} (hparams : g.new ∉ params) {inner : Bool}
    (henters : g.Enters mark inner params) {body body' : Option Block}
    (hbody : OptionalRenamed g inner body body') :
    Follows g scope mark (fun _ => True)
      (Exec.make fun store => store.newFunction ⟨name, .closure params body scope⟩)
      (Exec.make fun store =>
        store.newFunction ⟨name, .closure (params.map (g.name inner)) body' scope⟩) := by
  intro inside s t h hscope hmark
  subst hmark
  have hplace : (t.store.newFunction ⟨name, .closure (params.map (g.name inner)) body' scope⟩).1 =
      (s.store.newFunction ⟨name, .closure params body scope⟩).1 := by
    simp only [Store.newFunction, h.alike.size_functions]
  simp only [Exec.make, hplace]
  exact .stores h (s.store.extends_newFunction _) (h.marked.newClosure hscope name params body)
    (h.alike.newFunction rfl (.closure hparams henters hbody)) (.done trivial)

end Exec.Follows

/-! ### Evaluation -/

/-- Invocations with values that can be held follow themselves. -/
def Invoke.Follows (g : Renaming) (inv : Invoke) : Prop :=
  ∀ f receiver args line, receiver.GlobalOnly → (∀ v ∈ args, v.GlobalOnly) → ∀ scope mark,
    (inv f receiver args line).Follows g scope mark Value.GlobalOnly (inv f receiver args line)

section Evaluation

open Exec.Follows

variable {g : Renaming} {inv : Invoke}

mutual

/-- **Evaluation of a renamed expression follows that of the expression.** -/
theorem follows_eval (hinv : Invoke.Follows g inv) (scope : ScopeRef) :
    ∀ (e : Expr) {mark : Bool} {e' : Expr}, e.Renamed g mark e' →
      (e.eval inv scope).Follows g scope mark Value.GlobalOnly (e'.eval inv scope)
  | .block (.mk _ instrs), _, _, h => by
    cases h with
    | block hinstrs =>
      rw [Expr.eval, Expr.eval, Block.run, Block.run]
      exact andThen (follows_runAll hinv scope instrs hinstrs) fun _ _ => result trivial
  | .literal _ value, _, _, h => by
    cases h with
    | literal => cases value <;> rw [Expr.eval] <;> exact result trivial
  | .call line callee args, _, _, h => by
    cases h with
    | call hcallee hargs =>
      rw [Expr.eval, Expr.eval]
      refine andThen (follows_eval hinv scope callee hcallee) fun v _ => ?_
      cases v with
      | function f =>
        refine andThen (follows_evalAll hinv scope args hargs) fun vs hvs => ?_
        exact hinv f .undefined vs line trivial hvs scope _
      | _ => exact andThen (showValue? _) fun _ _ => failWith _ _ _
  | .var _ name, _, _, h => by
    cases h with
    | var hname =>
      intro inside s t hstate hscope hmark
      subst hmark
      rw [Expr.eval, Expr.eval]
      simp only [Exec.read, hstate.alike.lookup hstate.marked hscope hname]
      exact .here hstate (.done (hstate.marked.lookup scope name))
  | .assign line declares name value, _, _, h => by
    cases h with
    | assign hname hvalue =>
      rw [Expr.eval, Expr.eval]
      refine andThen (follows_eval hinv scope value hvalue) fun v hv => ?_
      cases declares with
      | true => exact andThen (declare line hname hv) fun _ _ => result hv
      | false => exact andThen (assign hname hv) fun _ _ => result hv
  | .fn _ name params body, mark, _, h => by
    cases h with
    | fn hname hparams henters hbody =>
      rw [Expr.eval, Expr.eval]
      refine andThen (newFunction (shownName name) hparams henters hbody) fun f _ => ?_
      cases name with
      | none => exact result trivial
      | some name =>
        -- the name of a function stays, since inside the renamed function it is not the old one
        obtain ⟨hnew, hold⟩ := hname name rfl
        have hstays : g.name mark name = name := by
          cases mark with
          | true => exact g.name_of_ne true (hold rfl)
          | false => rfl
        have hassign : (Exec.change fun store => store.assign scope name (.function f)).Follows g
            scope mark (fun _ => True)
            (Exec.change fun store => store.assign scope (g.name mark name) (.function f)) :=
          assign hnew trivial
        rw [hstays] at hassign
        exact andThen hassign fun _ _ => result trivial
  | .ret line value, _, _, h => by
    cases h with
    | ret hvalue =>
      rw [Expr.eval, Expr.eval]
      refine andThen (follows_eval hinv scope value hvalue) fun v hv => ?_
      exact fun _ _ _ hstate _ _ => .here hstate (.returning hv)
  | .branch _ condition onTrue onFalse, _, _, h => by
    cases h with
    | branch hcondition honTrue honFalse =>
      rw [Expr.eval, Expr.eval]
      refine andThen (follows_eval hinv scope condition hcondition) fun v _ => ?_
      cases v.truthy with
      | true =>
        exact andThen (follows_runOptional hinv scope onTrue honTrue) fun _ _ => result trivial
      | false =>
        exact andThen (follows_runOptional hinv scope onFalse honFalse) fun _ _ => result trivial
  | .object _ fields, _, _, h => by
    cases h with
    | object hfields =>
      rw [Expr.eval, Expr.eval]
      refine andThen newObject fun o _ => ?_
      exact andThen (follows_evalInits hinv scope o fields hfields) fun _ _ => result trivial
  | .field line receiver name, _, _, h => by
    cases h with
    | field hname hreceiver =>
      rw [Expr.eval, Expr.eval]
      exact andThen (follows_eval hinv scope receiver hreceiver) fun r hr => fieldOf hr hname line
  | .setField line receiver name value, _, _, h => by
    cases h with
    | setField hname hreceiver hvalue =>
      rw [Expr.eval, Expr.eval]
      refine andThen (follows_eval hinv scope receiver hreceiver) fun r hr => ?_
      refine andThen (fieldOf hr hname line) fun _ _ => ?_
      refine andThen (follows_eval hinv scope value hvalue) fun v hv => ?_
      exact andThen (setField hr hname hv) fun _ _ => result hv
  | .send line receiver name args, _, _, h => by
    cases h with
    | send hname hreceiver hargs =>
      rw [Expr.eval, Expr.eval]
      refine andThen (follows_eval hinv scope receiver hreceiver) fun r hr => ?_
      refine andThen (fieldOf hr hname line) fun m _ => ?_
      cases m with
      | function f =>
        refine andThen (follows_evalAll hinv scope args hargs) fun vs hvs => ?_
        exact hinv f r vs line hr hvs scope _
      | _ => exact andThen (showValue? r) fun _ _ => failWith _ _ _
  | .missing, _, _, h => by
    cases h with
    | missing =>
      rw [Expr.eval]
      exact failWith _ _ _
termination_by structural e => e

/-- Running a renamed block, if there is one, follows running the block. -/
theorem follows_runOptional (hinv : Invoke.Follows g inv) (scope : ScopeRef) :
    ∀ (b : Option Block) {mark : Bool} {b' : Option Block}, OptionalRenamed g mark b b' →
      (runOptional inv scope b).Follows g scope mark (fun _ => True) (runOptional inv scope b')
  | none, _, _, h => by
    cases h with
    | none =>
      rw [runOptional]
      exact result trivial
  | some (.mk _ instrs), _, _, h => by
    cases h with
    | some hinstrs =>
      rw [runOptional, runOptional, Block.run, Block.run]
      exact follows_runAll hinv scope instrs hinstrs
termination_by structural b => b

/-- Running renamed instructions follows running the instructions. -/
theorem follows_runAll (hinv : Invoke.Follows g inv) (scope : ScopeRef) :
    ∀ (es : List Expr) {mark : Bool} {es' : List Expr}, AllRenamed g mark es es' →
      (runAll inv scope es).Follows g scope mark (fun _ => True) (runAll inv scope es')
  | [], _, _, h => by
    cases h with
    | nil =>
      rw [runAll]
      exact result trivial
  | e :: rest, _, _, h => by
    cases h with
    | cons he hrest =>
      rw [runAll, runAll]
      exact andThen (follows_eval hinv scope e he) fun _ _ => follows_runAll hinv scope rest hrest
termination_by structural es => es

/-- Evaluating renamed arguments follows evaluating the arguments. -/
theorem follows_evalAll (hinv : Invoke.Follows g inv) (scope : ScopeRef) :
    ∀ (es : List Expr) {mark : Bool} {es' : List Expr}, AllRenamed g mark es es' →
      (evalAll inv scope es).Follows g scope mark (fun vs => ∀ v ∈ vs, v.GlobalOnly)
        (evalAll inv scope es')
  | [], _, _, h => by
    cases h with
    | nil =>
      rw [evalAll]
      exact result fun _ hv => by cases hv
  | e :: rest, _, _, h => by
    cases h with
    | cons he hrest =>
      rw [evalAll, evalAll]
      refine andThen (follows_eval hinv scope e he) fun v hv => ?_
      refine andThen (follows_evalAll hinv scope rest hrest) fun vs hvs => ?_
      exact result (List.forall_mem_cons.mpr ⟨hv, hvs⟩)
termination_by structural es => es

/-- Evaluating renamed initialisers follows evaluating the initialisers. -/
theorem follows_evalInits (hinv : Invoke.Follows g inv) (scope : ScopeRef) (o : ObjectRef) :
    ∀ (inits : List Init) {mark : Bool} {inits' : List Init}, InitsRenamed g mark inits inits' →
      (evalInits inv scope o inits).Follows g scope mark (fun _ => True)
        (evalInits inv scope o inits')
  | [], _, _, h => by
    cases h with
    | nil =>
      rw [evalInits]
      exact result trivial
  | .mk name value :: rest, _, _, h => by
    cases h with
    | cons hvalue hrest =>
      rw [evalInits, evalInits]
      refine andThen (follows_eval hinv scope value hvalue) fun v hv => ?_
      exact andThen (initField o name hv) fun _ _ => follows_evalInits hinv scope o rest hrest
termination_by structural inits => inits

end

/-! ### Invocations -/

/-- The call of a native function of the language looks at values only, and shows them alike. -/
theorem follows_callNative (arity : Arity) {p : Primitive} (hp : ∀ body, p ≠ .host body)
    (receiver : Value) (args : List Value) (scope : ScopeRef) (mark : Bool) :
    (callNative arity p receiver args).Follows g scope mark Value.GlobalOnly
      (callNative arity p receiver args) := by
  by_cases hargs : arity.accepts args.length = true
  · rw [callNative_of_accepts hargs]
    intro inside s t h _ _
    by_cases hprint : p = .print
    · subst hprint
      rw [print_apply, print_apply, h.alike.showValues?, h.sink]
      cases s.store.showValues? args with
      | none => exact .here h .crashed
      | some text =>
        have hlog : (t.offered text).log = (s.offered text).log := by
          simp only [State.offered, State.logged, h.log]
        have hsink : (t.offered text).sink = (s.offered text).sink := by
          simp only [State.offered, h.sink]
        simp only
        cases s.sink.refusal? [] text with
        | none =>
          refine ⟨inside, fun _ _ => rfl, .refl _, ?_, .done trivial⟩
          exact ⟨h.marked, h.alike, by simp only [h.printed], hlog, hsink⟩
        | some e =>
          refine ⟨inside, fun _ _ => rfl, .refl _, ?_, .failed (.same _)⟩
          exact ⟨h.marked, h.alike, h.printed, hlog, hsink⟩
    · obtain ⟨o, hnative, ho⟩ := computes_primitiveCall hprint hp receiver args
      have hint : ∀ v, o = .done v → ∃ n, v = .int n :=
        fun v hv => int_of_primitiveCall hprint hp (hv ▸ ho s)
      rw [ho, ho]
      cases o with
      | done v =>
        obtain ⟨n, rfl⟩ := hint v rfl
        exact .here h (.done trivial)
      | failed e => exact .here h (.failed (.same e))
      | crashed => exact .here h .crashed
      | returning v line => exact hnative.elim
      | outOfFuel => exact hnative.elim
  · unfold callNative
    rw [if_neg hargs]
    exact failWith _ _ _

/-- The call of a renamed function, in states that are alike, follows the call of the function. -/
theorem tracks_callClosure (hinv : Invoke.Follows g inv) {inside : ScopeRef → Bool} {s t : State}
    (h : s.Renamed g inside t) {name : Text} {params : List Text} (hparams : g.new ∉ params)
    {body body' : Option Block} {closure : ScopeRef} (hclosure : s.store.HasScope closure)
    {inner : Bool} (henters : g.Enters (inside closure) inner params)
    (hbody : OptionalRenamed g inner body body') {receiver : Value}
    (hreceiver : receiver.GlobalOnly) {args : List Value} (hargs : ∀ v ∈ args, v.GlobalOnly) :
    Tracks g inside s.store Value.GlobalOnly
      (callClosure inv name params body closure receiver args s)
      (callClosure inv name (params.map (g.name inner)) body' closure receiver args t) := by
  have hmap : (params.map (g.name inner)).length = params.length := List.length_map _
  by_cases hlen : args.length = params.length
  · rw [callClosure_of_length_eq hlen, callClosure_of_length_eq (hlen.trans hmap.symm)]
    refine Tracks.catchReturn (P := fun _ => True) ?_
    have hplace : (openScope closure receiver (params.map (g.name inner)) args t.store).1 =
        (openScope closure receiver params args s.store).1 :=
      congrArg ScopeRef.mk h.alike.size_scopes
    have hmarked := h.marked.openScope hclosure hreceiver hargs hlen henters
    have halike := h.alike.openScope h.marked closure receiver hparams args inner
    have hext := s.store.extends_openScope closure receiver params args
    have hnew := s.store.hasScope_openScope closure receiver params args
    have hfresh : ¬ s.store.HasScope (openScope closure receiver params args s.store).1 :=
      Nat.lt_irrefl _
    -- the body runs in the new scope, which has the mark that the function gives it
    have hrun := follows_runOptional hinv _ body hbody _
      (s.withStore (openScope closure receiver params args s.store).2)
      (t.withStore (openScope closure receiver (params.map (g.name inner)) args t.store).2)
      ⟨hmarked, halike, h.printed, h.log, h.sink⟩ hnew (Function.update_self ..)
    obtain ⟨marks, hmarks, hext', hstate, ho⟩ := hrun
    rw [hplace]
    refine ⟨marks, fun e he => ?_, hext.trans hext', hstate, ho⟩
    rw [hmarks e (hext.hasScope he)]
    refine Function.update_of_ne ?_ _ _
    rintro rfl
    exact hfresh he
  · rw [callClosure_of_length_ne hlen, callClosure_of_length_ne (by rwa [hmap]), hmap]
    exact .here h (.failed (.same _))

/-- **Invocations follow themselves in states that are alike**, whatever the limit and the fuel. -/
theorem follows_invoke (g : Renaming) (limit : DepthLimit) (fuel depth : Nat) :
    Invoke.Follows g (invoke limit fuel depth) := by
  induction fuel generalizing depth with
  | zero =>
    intro f receiver args line _ _ scope mark inside s t h _ _
    cases hreached : limit.reached depth with
    | true =>
      rw [invoke_of_reached 0 hreached, invoke_of_reached 0 hreached, h.alike.names]
      exact .here h (.failed (.same _))
    | false =>
      rw [invoke_zero hreached, invoke_zero hreached]
      exact .here h .outOfFuel
  | succ fuel ih =>
    intro f receiver args line hreceiver hargs scope mark inside s t h hscope hmark
    cases hreached : limit.reached depth with
    | true =>
      rw [invoke_of_reached _ hreached, invoke_of_reached _ hreached, h.alike.names]
      exact .here h (.failed (.same _))
    | false =>
      have hentry : callEntry t.store f args line depth = callEntry s.store f args line depth := by
        simp only [callEntry, h.alike.names]
      rw [invoke_succ fuel hreached, invoke_succ fuel hreached, hentry]
      have hlogged : (s.logged (callEntry s.store f args line depth)).Renamed g inside
          (t.logged (callEntry s.store f args line depth)) :=
        ⟨h.marked, h.alike, h.printed, by simp only [State.logged, h.log], h.sink⟩
      refine Tracks.atLine ?_ line
      have hcode := h.alike.code f
      have hname := h.alike.names f
      have hclosures := h.marked.closures f
      have hhost := h.marked.hostFree f
      generalize s.store.function f = code at *
      generalize t.store.function f = code' at *
      obtain ⟨name, code⟩ := code
      obtain ⟨name', code'⟩ := code'
      cases hname
      cases hcode with
      | native =>
        exact follows_callNative _ (fun body hp => hhost _ body (by rw [hp])) receiver args scope mark
          inside _ _ hlogged hscope hmark
      | closure hparams henters hbody =>
        exact tracks_callClosure (ih (depth + 1)) hlogged hparams (hclosures _ _ _ rfl) henters hbody
          hreceiver hargs

end Evaluation

/-! ### Runs -/

/-- The endings are the same, or both are failures of a declaration, of the old name in one and of
the new name in the other. -/
def Ending.Renamed (g : Renaming) (e e' : Ending) : Prop :=
  e' = e ∨ ∃ line, e = .failed (.failure ⟨.alreadyDefined, line, g.old⟩) ∧
    e' = .failed (.failure ⟨.alreadyDefined, line, g.new⟩)

/-- The run of a renamed program prints the same and ends alike. -/
theorem Program.renamed_runWith {g : Renaming} {p p' : Program}
    (h : OptionalRenamed g false p.body p'.body) (fuel : Nat) (limit : DepthLimit) (sink : Sink) :
    (p'.runWith fuel limit sink).printed = (p.runWith fuel limit sink).printed ∧
      (p.runWith fuel limit sink).ending.Renamed g (p'.runWith fuel limit sink).ending := by
  have hstart : (State.start sink).Renamed g (fun _ => false) (State.start sink) :=
    ⟨Store.sound_initial.marked g, Store.alike_initial g, rfl, rfl, rfl⟩
  have hroot := follows_runOptional (follows_invoke g limit fuel 0) globalScope p.body h _ _ _ hstart
    Store.sound_initial.hasGlobal rfl
  obtain ⟨marks, -, -, hstate, ho⟩ := hroot
  rw [runWith_eq, runWith_eq]
  generalize runOptional (invoke limit fuel 0) globalScope p.body (State.start sink) = r at hstate ho ⊢
  generalize runOptional (invoke limit fuel 0) globalScope p'.body (State.start sink) = r'
    at hstate ho ⊢
  refine ⟨hstate.printed, ?_⟩
  simp only [Run.ofOutcome]
  generalize r.1 = o at ho ⊢
  generalize r'.1 = o' at ho ⊢
  cases ho with
  | done _ =>
    left
    simp only [Ending.ofOutcome]
  | returning _ =>
    left
    simp only [Ending.ofOutcome, hstate.alike.showValue?]
  | failed he =>
    simp only [Ending.ofOutcome]
    cases he with
    | same e => exact Or.inl rfl
    | declared line => exact Or.inr ⟨line, rfl, rfl⟩
  | crashed | outOfFuel =>
    left
    simp only [Ending.ofOutcome]

/-- The program with `e` in the hole of a context of its root block. -/
def Program.plug (p : Program) (c : BlockContext) (e : Expr) : Program :=
  { p with body := some (c.fill e) }

/-- **A parameter can be renamed.**  A function of a program stands in the hole of a context.  Let `x`
be a parameter of it other than `this`, such that no function inside its body is called `x`, and `y` a
name that the program does not mention and that the language does not bind.  Replace the function, in
any such context, by the one in which `x` is replaced by `y` among the parameters and, inside the body,
in every variable that is read or written and in every parameter.  Whatever the depth limit, the run
prints the same and ends alike; only the failure of a declaration may name `y` where it named `x`. -/
theorem Program.run_renameParam (p : Program) {line : Int} {name : Option Text}
    {params : List Text} {body : Option Block} {x y : Text}
    (hfn : .fn line name params body ∈ p.nodes) (hx : x ∈ params) (hthis : x ≠ "this")
    (hinner : ∀ node ∈ collectOptional true body, node.ownName? ≠ some x)
    (hfresh : ∀ node ∈ p.nodes, y ∉ node.mentions) (hreserved : y ∉ reservedNames) :
    (∃ c : BlockContext, p = p.plug c (.fn line name params body)) ∧
    ∀ c : BlockContext, p = p.plug c (.fn line name params body) →
    ∀ p', p' = p.plug c ((Expr.fn line name params body).mapVars (replaceName x y)) →
    ∀ (fuel : Nat) (limit : DepthLimit) (sink : Sink),
      (p'.runWith fuel limit sink).output = (p.runWith fuel limit sink).output ∧
      ((p'.runWith fuel limit sink).ending = (p.runWith fuel limit sink).ending ∨
        ∃ l, (p.runWith fuel limit sink).ending = .failed (.failure ⟨.alreadyDefined, l, x⟩) ∧
          (p'.runWith fuel limit sink).ending = .failed (.failure ⟨.alreadyDefined, l, y⟩)) := by
  refine ⟨?_, ?_⟩
  · obtain ⟨c, hc⟩ := p.exists_fill hfn
    exact ⟨c, by rw [plug, ← hc]⟩
  · rintro c hc p' rfl fuel limit sink
    let g : Renaming := ⟨x, y, hthis, hreserved⟩
    have hbody : p.body = some (c.fill (.fn line name params body)) := congrArg Program.body hc
    -- outside the function nothing changes, and its body is renamed
    have hfunction : (∀ node ∈ (Expr.fn line name params body).collect true, g.Suits false node) →
        (Expr.fn line name params body).Renamed g false
          ((Expr.fn line name params body).mapVars (replaceName x y)) := by
      intro hsuits
      rw [Expr.collect, if_pos rfl, List.forall_mem_cons] at hsuits
      have henters : g.Enters false true params := ⟨fun h => (by cases h), fun _ => Or.inr hx⟩
      have hmap := renamed_mapVarsOptional g true body fun node hnode =>
        ⟨(hsuits.2 node hnode).1, fun _ => hinner node hnode⟩
      rw [Expr.mapVars]
      exact .function hsuits.1 henters hmap
    have hroot : OptionalRenamed g false p.body
        (p.plug c ((Expr.fn line name params body).mapVars (replaceName x y))).body := by
      rw [hbody]
      refine c.renamed_fill hfunction fun node hnode => ?_
      refine ⟨hfresh node ?_, fun hinside => by cases hinside⟩
      rwa [nodes, hbody, collectOptional]
    obtain ⟨hprinted, hending⟩ := renamed_runWith hroot fuel limit sink
    exact ⟨by rw [Run.output, Run.output, hprinted], hending⟩

/-- A function whose parameter is also the parameter of a function inside it, a variable and a field
of the global scope; in the end it is declared again. -/
def shadower : Expr :=
  .fn 2 (some "f") ["n"] (some (.mk 2
    [.assign 3 true "add" (.fn 3 none ["n", "m"] (some (.mk 3
      [.ret 3 (.call 3 (.var 3 "+") [.var 3 "n", .var 3 "m"])]))),
      .setField 4 (.var 4 "global") "n" (.literal 4 (.int 30)),
      .call 5 (.var 5 "print")
        [.call 5 (.var 5 "add") [.var 5 "n", .field 5 (.var 5 "global") "n"]],
      .assign 6 true "n" (.literal 6 (.int 5))]))

/-- A program that binds the name of the parameter outside the function, too. -/
def shadowing : Program where
  body := some (.mk 1 [.assign 1 true "n" (.literal 1 (.int 40)), shadower,
    .call 7 (.var 7 "f") [.literal 7 (.int 3)]])

/-- With the parameter renamed, `shadowing` prints what it did, and the declaration that fails is that
of the new name. -/
theorem run_renameParam_shadowing :
    ∃ c : BlockContext, shadowing = shadowing.plug c shadower ∧
      ((shadowing.plug c (shadower.mapVars (replaceName "n" "k"))).run ⟨4⟩ {}).output = "33\n" ∧
      ((shadowing.plug c (shadower.mapVars (replaceName "n" "k"))).run ⟨4⟩ {}).ending =
        .failed (.failure ⟨.alreadyDefined, 6, "k"⟩) := by
  have hfn : shadower ∈ shadowing.nodes := List.mem_of_getElem? (i := 3) rfl
  have hrename := (shadowing.run_renameParam (x := "n") (y := "k") hfn (by decide) (by decide)
    (by decide +kernel) (by decide +kernel) (by decide +kernel)).2
  refine ⟨.mk 1 [.assign 1 true "n" (.literal 1 (.int 40))] .hole
    [.call 7 (.var 7 "f") [.literal 7 (.int 3)]], rfl, ?_, by decide +kernel⟩
  exact (hrename _ rfl _ rfl _ ⟨4⟩ {}).1.trans (by decide +kernel)

end TreeScript
