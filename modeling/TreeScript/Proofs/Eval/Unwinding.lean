import TreeScript.Proofs.Eval.Course

/-!
# Unwinding

An evaluation that ends without a result ends where one of its parts did.  A `return`, an error, a
crash or the end of the fuel arises at one place: at a `return` whose value is there, at a check that
was not passed, or at an invocation.  From there it goes up through all the tasks around that place, and
none of them does anything more.

Both directions are stated of the same relation, `Task.Leads`.  It says that one task comes to do
another at an evaluation position of its tree, after everything before that position has given a
result.  So a task exits exactly as some task it leads to exits by itself.

## Main definitions

* `Task.Leads` — a task that another comes to in the end, outside the bodies of functions.
* `Task.Raises` — an exit that a task makes by itself, and the state it makes it in.

## Main results

* `Task.Leads.exits` — **an exit goes up unchanged**, with the state in which it was made.
* `Task.raises_of_exits` — **every exit was made somewhere.**
* `Expr.eval_unwinds` — the same of expressions and of the bodies of functions.
-/

namespace TreeScript

/-! ### Exits of a sequence -/

/-- An exit is no result. -/
theorem Exit.done_ne {α : Type} {a : α} {i : Exit} {s t : State} :
    (Outcome.done a, s) ≠ (i.outcome, t) := by
  intro h
  cases i <;> cases h

/-- Exits with the same outcome are the same. -/
theorem Exit.eq_of_outcome {α : Type} {i j : Exit} {s t : State}
    (h : ((i.outcome : Outcome α), s) = (j.outcome, t)) : i = j ∧ s = t := by
  cases i <;> cases j <;> cases h <;> exact ⟨rfl, rfl⟩

namespace Exec

variable {α β : Type} {x : Exec α} {f : α → Exec β} {s u : State} {i : Exit}

/-- An exit of a sequence is one of its first step, or of its second after a result. -/
theorem exit_of_andThen (h : x.andThen f s = (i.outcome, u)) :
    x s = (i.outcome, u) ∨ ∃ a t, x s = (.done a, t) ∧ f a t = (i.outcome, u) := by
  rcases hx : x s with ⟨o, t⟩
  rcases o.done_or_exit with ⟨a, rfl⟩ | ⟨j, rfl⟩
  · rw [andThen_done hx] at h
    exact Or.inr ⟨a, t, rfl, h⟩
  · rw [andThen_exit hx] at h
    obtain ⟨rfl, rfl⟩ := Exit.eq_of_outcome h
    exact Or.inl rfl

/-- A sequence whose second step only gives a result exits with the first. -/
theorem exit_of_andThen_result {g : α → β}
    (h : x.andThen (fun a => result (g a)) s = (i.outcome, u)) : x s = (i.outcome, u) := by
  rcases exit_of_andThen h with hx | ⟨a, t, -, hdone⟩
  · exact hx
  · exact absurd hdone Exit.done_ne

end Exec

/-! ### Exits that a task makes itself -/

/-- The failure of a value without fields. -/
def noField (store : Store) (receiver : Value) (name : Text) (line : Int) : Fault :=
  .failure ⟨.notAnObject, line, store.showShallow receiver ++ " has no field " ++ name⟩

section FieldOf

variable {receiver : Value} {name : Text} {line : Int} {s : State}

theorem Exec.fieldOf_of_some {v : Value} (h : s.store.field? receiver name = some v) :
    Exec.fieldOf receiver name line s = (.done v, s) := by
  rw [fieldOf_apply, h]

theorem Exec.fieldOf_of_none (h : s.store.field? receiver name = none) :
    Exec.fieldOf receiver name line s = (.failed (noField s.store receiver name line), s) := by
  rw [fieldOf_apply, h]
  rfl

/-- Reading a field exits only because there is none to read. -/
theorem Exec.exit_of_fieldOf {i : Exit} {u : State}
    (h : Exec.fieldOf receiver name line s = (i.outcome, u)) :
    s.store.field? receiver name = none ∧ .failed (noField s.store receiver name line) = i ∧
      s = u := by
  cases hfield : s.store.field? receiver name with
  | some v =>
    rw [fieldOf_of_some hfield] at h
    exact absurd h Exit.done_ne
  | none =>
    rw [fieldOf_of_none hfield] at h
    exact ⟨rfl, Exit.eq_of_outcome (i := .failed _) h⟩

end FieldOf

/-- A value that is at fault is shown, and the failure has its text; without a text there is a crash. -/
theorem Exec.exit_of_refuse {α : Type} {v : Value} {kind : FailureKind} {line : Int}
    {detail : Text → Text} {s u : State} {i : Exit}
    (h : ((Exec.demand fun store => store.showValue? v).andThen fun text =>
      (Exec.failWith kind line (detail text) : Exec α)) s = (i.outcome, u)) :
    s = u ∧ ((∃ text, s.store.showValue? v = some text ∧
        i = .failed (.failure ⟨kind, line, detail text⟩)) ∨
      (s.store.showValue? v = none ∧ i = .crashed)) := by
  cases htext : s.store.showValue? v with
  | some text =>
    have hshown : Exec.demand (fun store => store.showValue? v) s = (.done text, s) := by
      simp only [demand, htext]
    rw [andThen_done hshown] at h
    obtain ⟨rfl, rfl⟩ := Exit.eq_of_outcome (i := .failed _) h
    exact ⟨rfl, Or.inl ⟨text, rfl, rfl⟩⟩
  | none =>
    have hcrash : Exec.demand (fun store => store.showValue? v) s = (.crashed, s) := by
      simp only [demand, htext]
    rw [andThen_crashed hcrash] at h
    obtain ⟨rfl, rfl⟩ := Exit.eq_of_outcome (i := .crashed) h
    exact ⟨rfl, Or.inr ⟨rfl, rfl⟩⟩

/-- A block that may be absent exits only if it is there. -/
theorem exit_of_runOptional {inv : Invoke} {scope : ScopeRef} {b : Option Block} {s u : State}
    {i : Exit} (h : runOptional inv scope b s = (i.outcome, u)) :
    ∃ line es, b = some (.mk line es) ∧ runAll inv scope es s = (i.outcome, u) := by
  cases b with
  | none =>
    rw [runOptional] at h
    exact absurd h Exit.done_ne
  | some b =>
    obtain ⟨line, es⟩ := b
    rw [runOptional, Block.run] at h
    exact ⟨line, es, rfl, h⟩

namespace Task

/-- `Raises inv t s i u`: the task `t`, begun in the state `s`, makes the exit `i` in the state `u`,
and none of its parts does.  An invocation counts as one thing here. -/
inductive Raises (inv : Invoke) : Task → State → Exit → State → Prop
  /-- The callee is no function. -/
  | notAFunction {scope line callee args s v text} {t : State}
      (hcallee : callee.eval inv scope s = (.done v, t)) (hv : ∀ f, v ≠ .function f)
      (htext : t.store.showValue? v = some text) :
      Raises inv (.expr scope (.call line callee args)) s
        (.failed (.failure ⟨.notAFunction, line, text⟩)) t
  /-- The callee is no function, and has no text. -/
  | unshown {scope line callee args s v} {t : State}
      (hcallee : callee.eval inv scope s = (.done v, t)) (hv : ∀ f, v ≠ .function f)
      (htext : t.store.showValue? v = none) :
      Raises inv (.expr scope (.call line callee args)) s .crashed t
  /-- The variable that is declared has a value. -/
  | alreadyDefined {scope line name value s v} {t : State}
      (hvalue : value.eval inv scope s = (.done v, t))
      (hname : t.store.lookup scope name ≠ .undefined) :
      Raises inv (.expr scope (.assign line true name value)) s
        (.failed (.failure ⟨.alreadyDefined, line, name⟩)) t
  /-- A `return`, once its value is there. -/
  | returned {scope line value s v t} (hvalue : value.eval inv scope s = (.done v, t)) :
      Raises inv (.expr scope (.ret line value)) s (.returning v line) t
  /-- The receiver of a field that is read has none. -/
  | field {scope line receiver name s r} {t : State}
      (hreceiver : receiver.eval inv scope s = (.done r, t))
      (hfield : t.store.field? r name = none) :
      Raises inv (.expr scope (.field line receiver name)) s
        (.failed (noField t.store r name line)) t
  /-- The receiver of a field that is written has none. -/
  | setField {scope line receiver name value s r} {t : State}
      (hreceiver : receiver.eval inv scope s = (.done r, t))
      (hfield : t.store.field? r name = none) :
      Raises inv (.expr scope (.setField line receiver name value)) s
        (.failed (noField t.store r name line)) t
  /-- The receiver of a method has no fields. -/
  | send {scope line receiver name args s r} {t : State}
      (hreceiver : receiver.eval inv scope s = (.done r, t))
      (hfield : t.store.field? r name = none) :
      Raises inv (.expr scope (.send line receiver name args)) s
        (.failed (noField t.store r name line)) t
  /-- What the field of a method holds is no function. -/
  | notAMethod {scope line receiver name args s r held text} {t : State}
      (hreceiver : receiver.eval inv scope s = (.done r, t))
      (hfield : t.store.field? r name = some held) (hheld : ∀ f, held ≠ .function f)
      (htext : t.store.showValue? r = some text) :
      Raises inv (.expr scope (.send line receiver name args)) s
        (.failed (.failure ⟨.notAFunction, line, text ++ "." ++ name⟩)) t
  /-- What the field of a method holds is no function, and the receiver has no text. -/
  | unshownReceiver {scope line receiver name args s r held} {t : State}
      (hreceiver : receiver.eval inv scope s = (.done r, t))
      (hfield : t.store.field? r name = some held) (hheld : ∀ f, held ≠ .function f)
      (htext : t.store.showValue? r = none) :
      Raises inv (.expr scope (.send line receiver name args)) s .crashed t
  /-- There is nothing to evaluate. -/
  | missing {scope s} :
      Raises inv (.expr scope .missing) s
        (.failed (.failure ⟨.unknownNode, 0, "nil expression"⟩)) s
  /-- An invocation exits. -/
  | invoked {f receiver vs line s i u} (h : inv f receiver vs line s = (i.outcome, u)) :
      Raises inv (.call f receiver vs line) s i u

/-- `Leads inv t s t' s'`: the task `t`, begun in the state `s`, comes to do `t'` in the state `s'`,
which stands at an evaluation position of its tree.  Everything before that position has given a
result, and every check made before it was passed. -/
inductive Leads (inv : Invoke) : Task → State → Task → State → Prop
  /-- The task itself. -/
  | refl {t s} : Leads inv t s t s
  /-- What a part comes to. -/
  | enter {t s t' s' t'' s''} (h : t.Enters inv s t' s') (hrest : Leads inv t' s' t'' s'') :
      Leads inv t s t'' s''

variable {inv : Invoke} {t t' : Task} {s s' u : State} {i : Exit}

/-- What a task raises it ends with. -/
theorem Raises.exec (h : t.Raises inv s i u) : t.exec inv s = (i.outcome, u) := by
  cases h with
  | @notAFunction _ _ _ _ _ v _ _ hcallee hv htext | @unshown _ _ _ _ _ v _ hcallee hv htext =>
    rw [Task.exec, Expr.eval]
    refine (Exec.andThen_done hcallee).trans ?_
    cases v with
    | function f => exact absurd rfl (hv f)
    | _ => simp only [bind, Exec.andThen, Exec.demand, htext]; rfl
  | alreadyDefined hvalue hname =>
    rw [Task.exec, Expr.eval]
    refine (Exec.andThen_done hvalue).trans (Exec.andThen_failed ?_)
    exact (Exec.declareAt_apply ..).trans (if_neg hname)
  | returned hvalue =>
    rw [Task.exec, Expr.eval]
    exact Exec.andThen_done hvalue
  | field hreceiver hfield =>
    rw [Task.exec, Expr.eval]
    exact (Exec.andThen_done hreceiver).trans (Exec.fieldOf_of_none hfield)
  | setField hreceiver hfield | send hreceiver hfield =>
    rw [Task.exec, Expr.eval]
    refine (Exec.andThen_done hreceiver).trans ?_
    exact Exec.andThen_failed (Exec.fieldOf_of_none hfield)
  | @notAMethod _ _ _ _ _ _ _ held _ _ hreceiver hfield hheld htext
  | @unshownReceiver _ _ _ _ _ _ _ held _ hreceiver hfield hheld htext =>
    rw [Task.exec, Expr.eval]
    refine (Exec.andThen_done hreceiver).trans ?_
    refine (Exec.andThen_done (Exec.fieldOf_of_some hfield)).trans ?_
    cases held with
    | function f => exact absurd rfl (hheld f)
    | _ => simp only [bind, Exec.andThen, Exec.demand, htext]; rfl
  | missing => rw [Task.exec, Expr.eval]; rfl
  | invoked h => exact h

/-! ### Exits go up -/

/-- **The exit of a part is one of the whole**, in the state in which the part made it. -/
theorem Enters.exits (h : t.Enters inv s t' s') (hpart : t'.exec inv s' = (i.outcome, u)) :
    t.exec inv s = (i.outcome, u) := by
  cases h with
  | block =>
    rw [Task.exec, Expr.eval, Block.run]
    exact Exec.andThen_exit hpart
  | callee | assigned | returned | condition | fieldReceiver | setFieldReceiver | sendReceiver =>
    -- the part comes first
    rw [Task.exec, Expr.eval]
    exact Exec.andThen_exit hpart
  | initialisers =>
    rw [Task.exec, Expr.eval_object]
    exact Exec.andThen_exit hpart
  | callArgs hcallee =>
    rw [Task.exec, Expr.eval]
    exact (Exec.andThen_done hcallee).trans (Exec.andThen_exit hpart)
  | callInvoke hcallee hargs =>
    rw [Task.exec, Expr.eval]
    exact (Exec.andThen_done hcallee).trans ((Exec.andThen_done hargs).trans hpart)
  | onTrue hcondition hv | onFalse hcondition hv =>
    rw [Task.exec, Expr.eval]
    refine (Exec.andThen_done hcondition).trans ?_
    rw [hv]
    refine Exec.andThen_exit ?_
    rw [runOptional, Block.run]
    exact hpart
  | setFieldValue hreceiver hfield | sendArgs hreceiver hfield =>
    rw [Task.exec, Expr.eval]
    refine (Exec.andThen_done hreceiver).trans ?_
    exact (Exec.andThen_done (Exec.fieldOf_of_some hfield)).trans (Exec.andThen_exit hpart)
  | sendInvoke hreceiver hfield hargs =>
    rw [Task.exec, Expr.eval]
    refine (Exec.andThen_done hreceiver).trans ?_
    refine (Exec.andThen_done (Exec.fieldOf_of_some hfield)).trans ?_
    exact (Exec.andThen_done hargs).trans hpart
  | firstInstr => rw [Task.exec, runAll]; exact Exec.andThen_exit hpart
  | restInstrs hfirst => rw [Task.exec, runAll]; exact (Exec.andThen_done hfirst).trans hpart
  | firstArg => rw [Task.exec, evalAll]; exact Exec.andThen_exit hpart
  | restArgs hfirst =>
    rw [Task.exec, evalAll]
    exact (Exec.andThen_done hfirst).trans (Exec.andThen_exit hpart)
  | firstInit => rw [Task.exec, evalInits]; exact Exec.andThen_exit hpart
  | restInits hfirst =>
    rw [Task.exec, evalInits]
    exact (Exec.andThen_done hfirst).trans hpart

/-- **An exit goes up unchanged**, with the state in which it was made. -/
theorem Leads.exits (h : t.Leads inv s t' s') (hexit : t'.exec inv s' = (i.outcome, u)) :
    t.exec inv s = (i.outcome, u) := by
  induction h with
  | refl => exact hexit
  | enter henter _ ih => exact henter.exits (ih hexit)

/-! ### Exits come from somewhere -/

/-- An expression raises its exit itself, or one of its parts has it. -/
theorem raises_or_enters_expr {scope : ScopeRef} (e : Expr)
    (h : e.eval inv scope s = (i.outcome, u)) :
    (Task.expr scope e).Raises inv s i u ∨
      ∃ t' s', (Task.expr scope e).Enters inv s t' s' ∧ t'.exec inv s' = (i.outcome, u) := by
  cases e with
  | block b =>
    obtain ⟨line, es⟩ := b
    rw [Expr.eval, Block.run] at h
    exact Or.inr ⟨_, _, .block, Exec.exit_of_andThen_result h⟩
  | literal line value =>
    cases value <;> rw [Expr.eval] at h <;> exact absurd h Exit.done_ne
  | call line callee args =>
    rw [Expr.eval] at h
    rcases Exec.exit_of_andThen h with h | ⟨v, t, hv, h⟩
    · exact Or.inr ⟨_, _, .callee, h⟩
    cases v with
    | function f =>
      rcases Exec.exit_of_andThen h with h | ⟨vs, u', hvs, h⟩
      · exact Or.inr ⟨_, _, .callArgs hv, h⟩
      · exact Or.inr ⟨_, _, .callInvoke hv hvs, h⟩
    | _ =>
      obtain ⟨rfl, ⟨text, htext, rfl⟩ | ⟨htext, rfl⟩⟩ := Exec.exit_of_refuse h
      · exact Or.inl (.notAFunction hv (fun f => by simp) htext)
      · exact Or.inl (.unshown hv (fun f => by simp) htext)
  | var line name => rw [Expr.eval] at h; exact absurd h Exit.done_ne
  | assign line declares name value =>
    rw [Expr.eval] at h
    rcases Exec.exit_of_andThen h with h | ⟨v, t, hv, h⟩
    · exact Or.inr ⟨_, _, .assigned, h⟩
    cases declares with
    | true =>
      have hdeclare := Exec.exit_of_andThen_result h
      rw [Exec.declareAt_apply] at hdeclare
      split at hdeclare
      · exact absurd hdeclare Exit.done_ne
      · next hname =>
        obtain ⟨rfl, rfl⟩ := Exit.eq_of_outcome (i := .failed _) hdeclare
        exact Or.inl (.alreadyDefined hv hname)
    | false => exact absurd h Exit.done_ne
  | fn line name params body =>
    rw [Expr.eval] at h
    cases name <;> exact absurd h Exit.done_ne
  | ret line value =>
    rw [Expr.eval] at h
    rcases Exec.exit_of_andThen h with h | ⟨v, t, hv, h⟩
    · exact Or.inr ⟨_, _, .returned, h⟩
    · obtain ⟨rfl, rfl⟩ := Exit.eq_of_outcome (i := .returning v line) h
      exact Or.inl (.returned hv)
  | branch line condition onTrue onFalse =>
    rw [Expr.eval] at h
    rcases Exec.exit_of_andThen h with h | ⟨v, t, hv, h⟩
    · exact Or.inr ⟨_, _, .condition, h⟩
    cases hb : v.truthy with
    | true =>
      rw [hb] at h
      obtain ⟨line', es, rfl, hrun⟩ := exit_of_runOptional (Exec.exit_of_andThen_result h)
      exact Or.inr ⟨_, _, .onTrue hv hb, hrun⟩
    | false =>
      rw [hb] at h
      obtain ⟨line', es, rfl, hrun⟩ := exit_of_runOptional (Exec.exit_of_andThen_result h)
      exact Or.inr ⟨_, _, .onFalse hv hb, hrun⟩
  | object line inits =>
    rw [Expr.eval] at h
    rcases Exec.exit_of_andThen h with h | ⟨o, t, ho, h⟩
    · exact absurd h Exit.done_ne
    · cases ho
      exact Or.inr ⟨_, _, .initialisers, Exec.exit_of_andThen_result h⟩
  | field line receiver name =>
    rw [Expr.eval] at h
    rcases Exec.exit_of_andThen h with h | ⟨r, t, hr, h⟩
    · exact Or.inr ⟨_, _, .fieldReceiver, h⟩
    · obtain ⟨hfield, rfl, rfl⟩ := Exec.exit_of_fieldOf h
      exact Or.inl (.field hr hfield)
  | setField line receiver name value =>
    rw [Expr.eval] at h
    rcases Exec.exit_of_andThen h with h | ⟨r, t, hr, hread⟩
    · exact Or.inr ⟨_, _, .setFieldReceiver, h⟩
    rcases Exec.exit_of_andThen hread with h | ⟨held, t', hheld, hwrite⟩
    · obtain ⟨hfield, rfl, rfl⟩ := Exec.exit_of_fieldOf h
      exact Or.inl (.setField hr hfield)
    obtain ⟨hfield, rfl⟩ := Exec.field?_of_fieldOf hheld
    rcases Exec.exit_of_andThen hwrite with h | ⟨v, u', -, hdone⟩
    · exact Or.inr ⟨_, _, .setFieldValue hr hfield, h⟩
    · exact absurd hdone Exit.done_ne
  | send line receiver name args =>
    rw [Expr.eval] at h
    rcases Exec.exit_of_andThen h with h | ⟨r, t, hr, hread⟩
    · exact Or.inr ⟨_, _, .sendReceiver, h⟩
    rcases Exec.exit_of_andThen hread with h | ⟨held, t', hheld, hcall⟩
    · obtain ⟨hfield, rfl, rfl⟩ := Exec.exit_of_fieldOf h
      exact Or.inl (.send hr hfield)
    obtain ⟨hfield, rfl⟩ := Exec.field?_of_fieldOf hheld
    cases held with
    | function f =>
      rcases Exec.exit_of_andThen hcall with h | ⟨vs, u', hvs, h⟩
      · exact Or.inr ⟨_, _, .sendArgs hr hfield, h⟩
      · exact Or.inr ⟨_, _, .sendInvoke hr hfield hvs, h⟩
    | _ =>
      obtain ⟨rfl, ⟨text, htext, rfl⟩ | ⟨htext, rfl⟩⟩ := Exec.exit_of_refuse hcall
      · exact Or.inl (.notAMethod hr hfield (fun f => by simp) htext)
      · exact Or.inl (.unshownReceiver hr hfield (fun f => by simp) htext)
  | missing =>
    rw [Expr.eval] at h
    obtain ⟨rfl, rfl⟩ := Exit.eq_of_outcome (i := .failed _) h
    exact Or.inl .missing

/-- A task raises its exit itself, or one of its parts has it. -/
theorem raises_or_enters (t : Task) (h : t.exec inv s = (i.outcome, u)) :
    t.Raises inv s i u ∨ ∃ t' s', t.Enters inv s t' s' ∧ t'.exec inv s' = (i.outcome, u) := by
  cases t with
  | expr scope e => exact raises_or_enters_expr e h
  | instrs scope es =>
    rw [Task.exec] at h
    cases es with
    | nil =>
      rw [runAll] at h
      exact absurd h Exit.done_ne
    | cons e rest =>
      rw [runAll] at h
      rcases Exec.exit_of_andThen h with h | ⟨v, t, hv, h⟩
      · exact Or.inr ⟨_, _, .firstInstr, h⟩
      · exact Or.inr ⟨_, _, .restInstrs hv, h⟩
  | args scope es =>
    rw [Task.exec] at h
    cases es with
    | nil =>
      rw [evalAll] at h
      exact absurd h Exit.done_ne
    | cons e rest =>
      rw [evalAll] at h
      rcases Exec.exit_of_andThen h with h | ⟨v, t, hv, h⟩
      · exact Or.inr ⟨_, _, .firstArg, h⟩
      · exact Or.inr ⟨_, _, .restArgs hv, Exec.exit_of_andThen_result h⟩
  | inits scope o inits =>
    rw [Task.exec] at h
    cases inits with
    | nil =>
      rw [evalInits] at h
      exact absurd h Exit.done_ne
    | cons first rest =>
      obtain ⟨name, e⟩ := first
      rw [evalInits] at h
      rcases Exec.exit_of_andThen h with h | ⟨v, t, hv, h⟩
      · exact Or.inr ⟨_, _, .firstInit, h⟩
      · exact Or.inr ⟨_, _, .restInits hv, h⟩
  | call f receiver vs line => exact Or.inl (.invoked h)

/-- **Every exit was made somewhere**: a task that exits leads to one that raises the same exit, in
the state in which the whole ends. -/
theorem raises_of_exits {t : Task} {s : State} (h : t.exec inv s = (i.outcome, u)) :
    ∃ t' s', t.Leads inv s t' s' ∧ t'.Raises inv s' i u := by
  -- a part works on a smaller tree
  induction hn : t.weight using Nat.strongRecOn generalizing t s with
  | _ n ih =>
    rcases t.raises_or_enters h with hraises | ⟨t', s', henter, hpart⟩
    · exact ⟨t, s, .refl, hraises⟩
    · obtain ⟨t'', s'', hleads, hraises⟩ := ih _ (hn ▸ henter.weight_lt) hpart rfl
      exact ⟨t'', s'', .enter henter hleads, hraises⟩

/-- **A `return` on its way comes from one that the task leads to**, whose value was there in the
state in which the task ends, unless an invocation has let it through. -/
theorem leads_to_return {v : Value} {line : Int}
    (hinv : ∀ f receiver vs line' s', inv f receiver vs line' s' ≠ (.returning v line, u))
    (h : t.exec inv s = (.returning v line, u)) :
    ∃ scope value s', t.Leads inv s (.expr scope (.ret line value)) s' ∧
      value.eval inv scope s' = (.done v, u) := by
  obtain ⟨t', s', hleads, hraises⟩ := raises_of_exits (i := .returning v line) h
  cases hraises with
  | returned hvalue => exact ⟨_, _, s', hleads, hvalue⟩
  | invoked hcall => exact absurd hcall (hinv _ _ _ _ s')

end Task

/-! ### Invocations -/

section Invocation

variable (limit : DepthLimit) (fuel depth : Nat) (f : FunctionRef) (receiver : Value)
  (args : List Value) (line : Int) (s : State)

/-- The ways in which an invocation can go, with the outcome and the state it ends in. -/
inductive Invocation : Outcome Value × State → Prop
  /-- It is refused, because the depth limit is reached. -/
  | refused (hreached : limit.reached depth = true) :
      Invocation (.failed (.failure ⟨.stackExhausted, line,
        (s.store.function f).name ++ ", depth " ++ toString depth⟩), s)
  /-- It has no fuel. -/
  | unfuelled (hreached : limit.reached depth = false) (hfuel : fuel = 0) :
      Invocation (.outOfFuel, s)
  /-- The function takes another number of arguments. -/
  | mismatched {params body closure}
      (hcode : (s.store.function f).code = .closure params body closure)
      (hargs : args.length ≠ params.length) :
      Invocation (.failed (.failure ⟨.arity, line, (s.store.function f).name ++ " expects " ++
        toString params.length ++ ", got " ++ toString args.length⟩),
        s.logged (callEntry s.store f args line depth))
  /-- The function is a native one. -/
  | native {arity p} (hcode : (s.store.function f).code = .native arity p) :
      Invocation
        ((callNative arity p receiver args
          (s.logged (callEntry s.store f args line depth))).1.located line,
        (callNative arity p receiver args (s.logged (callEntry s.store f args line depth))).2)
  /-- The function has no body. -/
  | empty {params closure} (hcode : (s.store.function f).code = .closure params none closure)
      (hargs : args.length = params.length) :
      Invocation (.done .undefined, (s.logged (callEntry s.store f args line depth)).withStore
        (openScope closure receiver params args s.store).2)
  /-- The body of the function is entered. -/
  | body {q} (hbody : Point.Enters limit ⟨fuel, depth, .call f receiver args line, s⟩ q) :
      Invocation ((q.run limit).1.caught.located line, (q.run limit).2)

variable {limit fuel depth f receiver args line s}

/-- What an invocation does with the outcome of the body that it enters. -/
theorem invoke_of_body {q : Point}
    (h : Point.Enters limit ⟨fuel, depth, .call f receiver args line, s⟩ q) :
    invoke limit fuel depth f receiver args line s =
      ((q.run limit).1.caught.located line, (q.run limit).2) := by
  cases h with
  | part hpart => cases hpart
  | body hreached hcode hargs =>
    rw [invoke_succ _ hreached, Exec.atLine_apply, callFunction_closure hcode,
      callClosure_of_length_eq hargs, Exec.catchReturn_apply, runOptional, Block.run]
    rfl

variable (limit fuel depth f receiver args line s)

/-- **Every invocation goes in one of these ways.** -/
theorem invocation : Invocation limit fuel depth f receiver args line s
    (invoke limit fuel depth f receiver args line s) := by
  cases hreached : limit.reached depth with
  | true =>
    rw [invoke_of_reached fuel hreached]
    exact .refused hreached
  | false =>
    cases fuel with
    | zero =>
      rw [invoke_zero hreached]
      exact .unfuelled hreached rfl
    | succ fuel =>
      cases hcode : (s.store.function f).code with
      | native arity p =>
        rw [invoke_succ fuel hreached, Exec.atLine_apply, callFunction_native hcode]
        exact .native hcode
      | closure params body closure =>
        by_cases hargs : args.length = params.length
        · cases body with
          | none =>
            rw [invoke_succ fuel hreached, Exec.atLine_apply, callFunction_closure hcode,
              callClosure_of_length_eq hargs, Exec.catchReturn_apply, runOptional]
            exact .empty hcode hargs
          | some b =>
            obtain ⟨line', es⟩ := b
            have henter : Point.Enters limit ⟨fuel + 1, depth, .call f receiver args line, s⟩ _ :=
              .body hreached hcode hargs
            rw [invoke_of_body henter]
            exact .body henter
        · rw [invoke_succ fuel hreached, Exec.atLine_apply, callFunction_closure hcode,
            callClosure_of_length_ne hargs]
          exact .mismatched hcode hargs

end Invocation

/-! ### Invocations catch returns -/

section Returning

variable {receiver v : Value} {args : List Value} {line line' : Int} {s : State}

theorem Outcome.caught_ne_returning {α : Type} (o : Outcome α) : o.caught ≠ .returning v line := by
  cases o <;> simp [caught]

theorem Outcome.located_ne_returning {α : Type} {o : Outcome α} (h : o ≠ .returning v line) :
    o.located line' ≠ .returning v line := by
  cases o with
  | failed e => simp [located]
  | _ => exact h

/-- What a native function does never ends with a `return`. -/
theorem primitiveCall_ne_returning (p : Primitive) :
    (p.call receiver args s).1 ≠ .returning v line := by
  by_cases hprint : p = .print
  · rw [hprint, print_apply]
    split
    · simp
    · split <;> simp
  · obtain ⟨o, ho, happly⟩ := primitiveCall_apply hprint receiver args
    rw [happly]
    exact ho v line

/-- The call of a native function never ends with a `return`. -/
theorem callNative_ne_returning (arity : Arity) (p : Primitive) :
    (callNative arity p receiver args s).1 ≠ .returning v line := by
  unfold callNative
  split
  · exact primitiveCall_ne_returning p
  · rintro ⟨⟩

/-- **An invocation never ends with a `return`**: that of a body is caught. -/
theorem invoke_ne_returning (limit : DepthLimit) (fuel depth : Nat) (f : FunctionRef) (u : State) :
    invoke limit fuel depth f receiver args line s ≠ (.returning v line', u) := by
  have hends : ∀ r, Invocation limit fuel depth f receiver args line s r →
      r.1 ≠ .returning v line' := by
    intro r hr
    cases hr with
    | native _ => exact Outcome.located_ne_returning (callNative_ne_returning _ _)
    | body _ => exact Outcome.located_ne_returning (Outcome.caught_ne_returning _)
    | _ => rintro ⟨⟩
  intro h
  exact hends _ (invocation limit fuel depth f receiver args line s) (by rw [h])

end Returning

/-! ### Expressions and bodies unwind -/

/-- `E.LeadsTo inv scope s e s'`: the evaluation of `E`, begun in the state `s`, comes to `e` in the
state `s'`. -/
inductive Expr.LeadsTo (inv : Invoke) (scope : ScopeRef) (E : Expr) (s : State) :
    Expr → State → Prop
  /-- An expression at an evaluation position. -/
  | expr {e s'} (h : Task.Leads inv (.expr scope E) s (.expr scope e) s') :
      LeadsTo inv scope E s e s'
  /-- A block whose instructions are run, such as the branch that is selected. -/
  | block {line es s'} (h : Task.Leads inv (.expr scope E) s (.instrs scope es) s') :
      LeadsTo inv scope E s (.block (.mk line es)) s'

/-- The exit of an expression goes up to the one that led to it. -/
theorem Expr.LeadsTo.exits {inv : Invoke} {scope : ScopeRef} {E e : Expr} {s s' u : State}
    {i : Exit} (h : E.LeadsTo inv scope s e s') (he : e.eval inv scope s' = (i.outcome, u)) :
    E.eval inv scope s = (i.outcome, u) := by
  cases h with
  | expr h => exact h.exits he
  | block h =>
    rw [Expr.eval, Block.run] at he
    exact h.exits (Exec.exit_of_andThen_result he)

/-- **Unwinding is immediate and exact.**  Let the evaluation of `E` come to `e`, at an evaluation
position outside the bodies of functions, in the state `s'`.  If `e` ends with a `return` or with an
error, then `E` ends with the same, and in the same state: nothing more is printed, logged, bound or
written.

Let an invocation enter the body of its function.  The body unwinds with the value `v` exactly if it
comes to a `return` whose value is `v`, and it ends in the state in which that value was there.  The
invocation then has the result `v`, in that same state. -/
theorem Expr.eval_unwinds (limit : DepthLimit) (fuel depth : Nat) :
    (∀ {scope : ScopeRef} {E e : Expr} {s s' : State},
      E.LeadsTo (invoke limit fuel depth) scope s e s' →
      (∀ v line s'', e.eval (invoke limit fuel depth) scope s' = (.returning v line, s'') →
        E.eval (invoke limit fuel depth) scope s = (.returning v line, s'')) ∧
      ∀ err s'', e.eval (invoke limit fuel depth) scope s' = (.failed err, s'') →
        E.eval (invoke limit fuel depth) scope s = (.failed err, s'')) ∧
    ∀ {f : FunctionRef} {receiver : Value} {args : List Value} {line : Int} {s : State} {q : Point},
      Point.Enters limit ⟨fuel, depth, .call f receiver args line, s⟩ q → ∀ line' v t,
      (q.run limit = (.returning v line', t) ↔
        ∃ scope value u,
          q.task.Leads (invoke limit q.fuel q.depth) q.state (.expr scope (.ret line' value)) u ∧
          value.eval (invoke limit q.fuel q.depth) scope u = (.done v, t)) ∧
      (q.run limit = (.returning v line', t) →
        invoke limit fuel depth f receiver args line s = (.done v, t)) := by
  constructor
  · intro scope E e s s' hleads
    constructor
    · intro v line s'' he
      exact hleads.exits (i := .returning v line) he
    · intro err s'' he
      exact hleads.exits (i := .failed err) he
  · intro f receiver args line s q hbody line' v t
    refine ⟨⟨?_, ?_⟩, ?_⟩
    · intro hq
      exact Task.leads_to_return (fun f r vs l s' => invoke_ne_returning _ _ _ f t) hq
    · rintro ⟨scope, value, u, hleads, hvalue⟩
      exact hleads.exits (Task.Raises.returned hvalue).exec
    · intro hq
      rw [invoke_of_body hbody, hq]
      rfl

/-- A call that would print two values, were the second not a `return`. -/
def abandoned : Expr :=
  .call 3 (.var 3 "print") [.literal 3 (.int 1), .ret 4 (.literal 4 (.int 7))]

/-- Instructions that come to `abandoned` in a branch, and would print a variable after it. -/
def picks : List Expr :=
  [.branch 2 (.var 2 "n") (some (.mk 2 [abandoned])) none, .call 5 (.var 5 "print") [.var 5 "n"]]

/-- The state in which the function with these instructions was made, the thirteenth of the run. -/
def picksMade : State :=
  ((Expr.fn 1 (some "pick") ["n"] (some (.mk 1 picks))).eval (invoke ⟨0⟩ 4 0) globalScope
    (State.start {})).2

/-- The body of that function, invoked with the argument `5`. -/
def picksBody (s : State) : Point where
  fuel := 3
  depth := 1
  task := .instrs (openScope globalScope .undefined ["n"] [.int 5] s.store).1 picks
  state := (s.logged (callEntry s.store ⟨12⟩ [.int 5] 6 0)).withStore
    (openScope globalScope .undefined ["n"] [.int 5] s.store).2

/-- Where `print` is a function, `abandoned` leads to its `return`, and nothing changes before. -/
theorem abandoned_leads (inv : Invoke) {scope : ScopeRef} {s : State} {f : FunctionRef}
    (hprint : s.store.lookup scope "print" = .function f) :
    Task.Leads inv (.expr scope abandoned) s (.expr scope (.ret 4 (.literal 4 (.int 7)))) s := by
  have hcallee : (Expr.var 3 "print").eval inv scope s = (.done (.function f), s) := by
    rw [Expr.eval, ← hprint]
    rfl
  have hfirst : (Expr.literal 3 (.int 1)).eval inv scope s = (.done (.int 1), s) := by
    rw [Expr.eval]
    rfl
  exact .enter (.callArgs hcallee) (.enter (.restArgs hfirst) (.enter .firstArg .refl))

/-- The `return` in `abandoned` ends the call of `print`, the branch and the body at once: nothing
is printed, and the state is the one in which the body began. -/
theorem eval_unwinds_abandoned :
    abandoned.eval (invoke ⟨0⟩ 3 1) ⟨1⟩ (picksBody picksMade).state =
        (.returning (.int 7) 4, (picksBody picksMade).state) ∧
      invoke ⟨0⟩ 4 0 ⟨12⟩ .undefined [.int 5] 6 picksMade =
        (.done (.int 7), (picksBody picksMade).state) := by
  have hscope : (openScope globalScope .undefined ["n"] [.int 5] picksMade.store).1 = ⟨1⟩ := by
    decide +kernel
  have hprint : (picksBody picksMade).state.store.lookup ⟨1⟩ "print" = .function ⟨0⟩ := by
    decide +kernel
  have hn : (picksBody picksMade).state.store.lookup ⟨1⟩ "n" = .int 5 := by decide +kernel
  have hcode : (picksMade.store.function ⟨12⟩).code =
      .closure ["n"] (some (.mk 1 picks)) globalScope := rfl
  generalize picksMade = s at *
  have hcondition : (Expr.var 2 "n").eval (invoke ⟨0⟩ 3 1) ⟨1⟩ (picksBody s).state =
      (.done (.int 5), (picksBody s).state) := by
    rw [Expr.eval, ← hn]
    rfl
  have hvalue : (Expr.literal 4 (.int 7)).eval (invoke ⟨0⟩ 3 1) ⟨1⟩ (picksBody s).state =
      (.done (.int 7), (picksBody s).state) := by
    rw [Expr.eval]
    rfl
  have hleads := abandoned_leads (invoke ⟨0⟩ 3 1) hprint
  constructor
  · exact ((Expr.eval_unwinds ⟨0⟩ 3 1).1 (.expr hleads)).1 _ _ _ (Task.Raises.returned hvalue).exec
  · have hbody : Point.Enters ⟨0⟩ ⟨4, 0, .call ⟨12⟩ .undefined [.int 5] 6, s⟩ (picksBody s) :=
      .body (by decide) hcode rfl
    obtain ⟨hiff, hresult⟩ := (Expr.eval_unwinds ⟨0⟩ 4 0).2 hbody 4 (.int 7) (picksBody s).state
    refine hresult (hiff.mpr ⟨⟨1⟩, .literal 4 (.int 7), (picksBody s).state, ?_, hvalue⟩)
    rw [picksBody, hscope]
    exact .enter .firstInstr (.enter (.onTrue hcondition rfl) (.enter .firstInstr hleads))

end TreeScript
