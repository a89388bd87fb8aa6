import Mathlib.Data.List.Induction
import TreeScript.Proofs.Eval.Soundness

/-!
# Objects keep their fields

An object has the values of its fields in one place and their names, in the order in which they were
first set, in another.  One operation writes both.  It keeps all names in their places and adds at most
one, at the end; so the two stay in step, and whatever an evaluation does, the names that an object
had before are the first of those that it has afterwards.

A new object is made before its initialisers are evaluated, and its fields are set in between.  But
until all is done the object is out of reach: no variable and no field holds it, and no value that is
computed on the way is this object.  So nothing else can write to it, whatever the initialisers do.
Its names are those of the initialisers, each where it occurs first, with the value of the last
initialiser that has the name.

## Main definitions

* `Fields.setAll` — fields after a sequence of writes.
* `Initialises` — initialisers that all give values, in between which fields of an object are set.
* `Building` — an object under construction: out of reach, with the fields set so far.
* `Point.Constructs`, `Point.Conceals` — a point in the course of the initialisers of an object, and a
  point at which an object is out of reach.

## Main results

* `Point.Acts.object` — what a change of state can do to an object.
* `Expr.eval_object_iff` — **an object is made, then initialised.**
* `Point.Constructs.of_reaches`, `Point.Constructs.conceals` — **an object under construction is out of
  reach.**
* `Initialises.building` — **initialisers set the fields of the object, and nothing else does.**
* `Program.objects_keep_fields` — **objects keep their fields and the order of these.**
-/

namespace TreeScript

/-! ### Writes to fields -/

namespace Fields

variable {f : Fields} {name : Text}

theorem names_prefix_set (f : Fields) (name : Text) (v : Value) :
    f.names <+: (f.set name v).names := by
  cases h : f.get? name with
  | some w => exact (names_set_of_some h v).symm ▸ List.prefix_refl _
  | none =>
    rw [names_set_of_none h]
    exact List.prefix_append _ _

/-- Sets fields one after another. -/
def setAll (f : Fields) (pairs : List (Text × Value)) : Fields :=
  pairs.foldl (fun f b => f.set b.1 b.2) f

theorem setAll_concat (f : Fields) (pairs : List (Text × Value)) (name : Text) (v : Value) :
    f.setAll (pairs ++ [(name, v)]) = (f.setAll pairs).set name v := by
  rw [setAll, List.foldl_append]
  rfl

theorem InStep.setAll (h : f.InStep) (pairs : List (Text × Value)) : (f.setAll pairs).InStep := by
  induction pairs generalizing f with
  | nil => exact h
  | cons b rest ih => exact ih (h.set b.1 b.2)

/-- The names of fields that are set from nothing stand in the order of their first occurrences. -/
theorem names_setAll (pairs : List (Text × Value)) :
    (setAll {} pairs).names = (pairs.map Prod.fst).eraseDups := by
  induction pairs using List.reverseRecOn with
  | nil => rfl
  | append_singleton pairs b ih =>
    obtain ⟨name, v⟩ := b
    have hmem := (inStep_empty.setAll pairs).mem_names name
    rw [ih, List.mem_eraseDups] at hmem
    rw [setAll_concat, List.map_append, List.eraseDups_append]
    cases hget : (setAll {} pairs).get? name with
    | some w =>
      -- the name has occurred before
      have hbefore : name ∈ pairs.map Prod.fst := hmem.mpr ⟨w, hget⟩
      rw [names_set_of_some hget, ih]
      simp [hbefore, List.removeAll]
    | none =>
      have hnew : name ∉ pairs.map Prod.fst := by
        intro hbefore
        obtain ⟨w, hw⟩ := hmem.mp hbefore
        rw [hget] at hw
        cases hw
      rw [names_set_of_none hget, ih]
      simp [hnew, List.removeAll, List.eraseDups_cons]

theorem get?_setAll_of_not_mem (pairs : List (Text × Value))
    (h : name ∉ pairs.map Prod.fst) : (f.setAll pairs).get? name = f.get? name := by
  induction pairs generalizing f with
  | nil => rfl
  | cons b rest ih =>
    rw [List.map_cons, List.mem_cons, not_or] at h
    have hrest : ((f.set b.1 b.2).setAll rest).get? name = (f.set b.1 b.2).get? name := ih h.2
    rw [get?_set_of_ne b.2 (Ne.symm h.1)] at hrest
    exact hrest

/-- The last write to a field decides. -/
theorem get?_setAll (before after : List (Text × Value)) (v : Value)
    (h : name ∉ after.map Prod.fst) :
    (f.setAll (before ++ (name, v) :: after)).get? name = some v := by
  have hsplit : f.setAll (before ++ (name, v) :: after) =
      ((f.setAll before).set name v).setAll after := by
    rw [setAll, List.foldl_append]
    rfl
  rw [hsplit, get?_setAll_of_not_mem after h, get?_set_self]

end Fields

/-! ### Changes of state -/

namespace Point

variable {limit : DepthLimit}

/-- **What a change of state can do to an object**: it leaves its fields alone, makes it without fields,
or writes a field of it.  An object that is there stays there. -/
theorem Acts.object {p : Point} {s t : State} (h : Acts limit p s t) (o : ObjectRef) :
    (s.store.HasObject o → t.store.HasObject o) ∧
    (t.store.fields o = s.store.fields o ∨
      (¬ s.store.HasObject o ∧ t.store.fields o = {}) ∨
      ∃ name v, t.store.fields o = (s.store.fields o).set name v) := by
  have hwrite : ∀ (store : Store) (holder : Value) (name : Text) (v : Value),
      (store.HasObject o → (store.setField holder name v).HasObject o) ∧
      ((store.setField holder name v).fields o = store.fields o ∨
        (¬ store.HasObject o ∧ (store.setField holder name v).fields o = {}) ∨
        ∃ name' v', (store.setField holder name v).fields o = (store.fields o).set name' v') := by
    intro store holder name v
    refine ⟨fun ho => Nat.lt_of_lt_of_le ho (store.extends_setField holder name v).objects, ?_⟩
    cases holder with
    | object o' =>
      rw [Store.fields_setField_object]
      split
      · exact Or.inr (Or.inr ⟨name, v, rfl⟩)
      · exact Or.inl rfl
    | _ => exact Or.inl rfl
  cases h with
  | assign _ | declare _ _ | makeFunction | logCall _ | logPrint _ _ _ _ | print _ _ _ _ _ =>
    exact ⟨id, Or.inl rfl⟩
  | nameFunction hmade =>
    cases hmade
    exact ⟨id, Or.inl rfl⟩
  | openScope _ _ _ =>
    refine ⟨fun ho => ?_, Or.inl (Store.fields_openScope ..)⟩
    exact Nat.lt_of_lt_of_le ho (Store.extends_openScope ..).objects
  | makeObject =>
    refine ⟨fun ho => Nat.lt_of_lt_of_le ho s.store.extends_newObject.objects, ?_⟩
    rw [State.withStore_store, Store.fields_newObject]
    split
    · next hnew => exact Or.inr (Or.inl ⟨hnew ▸ Nat.lt_irrefl _, rfl⟩)
    · exact Or.inl rfl
  | initField _ => exact hwrite ..
  | setField _ _ _ => exact hwrite ..

/-- A change of state keeps the names of the fields of an object that is there in their places. -/
theorem Acts.names_prefix {p : Point} {s t : State} (h : Acts limit p s t) {o : ObjectRef}
    (ho : s.store.HasObject o) : (s.store.fields o).names <+: (t.store.fields o).names := by
  rcases (h.object o).2 with heq | ⟨hnone, -⟩ | ⟨name, v, heq⟩
  · exact heq ▸ List.prefix_refl _
  · exact absurd ho hnone
  · rw [heq]
    exact Fields.names_prefix_set _ name v

/-- **The names of the fields of an object stay in their places**, whatever is done at a point and
however it ends. -/
theorem names_prefix_run (p : Point) {o : ObjectRef} (ho : p.state.store.HasObject o) :
    (p.state.store.fields o).names <+: ((p.run limit).2.store.fields o).names := by
  let R : State → State → Prop := fun s t => s.store.HasObject o →
    t.store.HasObject o ∧ (s.store.fields o).names <+: (t.store.fields o).names
  have hrun : R p.state (p.run limit).2 := by
    refine run_of_steps (R := R) (fun _ hs => ⟨hs, List.prefix_refl _⟩) ?_ p ?_
    · intro s t u hst htu hs
      obtain ⟨ht, hnames⟩ := hst hs
      obtain ⟨hu, hnames'⟩ := htu ht
      exact ⟨hu, hnames.trans hnames'⟩
    · intro q s t _ hact hs
      exact ⟨(hact.object o).1 hs, hact.names_prefix hs⟩
  exact (hrun ho).2

end Point

/-! ### Initialisers -/

/-- `Initialises inv scope o inits s vs u`: from the state `s` the initialisers are evaluated one after
another, and a field of the object `o` is set to what each gives, before the next; they give the values
`vs` and lead to the state `u`. -/
inductive Initialises (inv : Invoke) (scope : ScopeRef) (o : ObjectRef) :
    List Init → State → List Value → State → Prop
  /-- No initialisers are left. -/
  | nil {s} : Initialises inv scope o [] s [] s
  /-- One is evaluated, and its field is set. -/
  | cons {name e rest s v vs u} {t : State} (hvalue : e.eval inv scope s = (.done v, t))
      (hrest : Initialises inv scope o rest (t.withStore (t.store.setField (.object o) name v)) vs u) :
      Initialises inv scope o (.mk name e :: rest) s (v :: vs) u

section Initialisers

variable {inv : Invoke} {scope : ScopeRef} {o : ObjectRef} {inits : List Init} {s u : State}

/-- After an initialiser that gives a value its field is set, and the others follow. -/
theorem evalInits_of_done {name : Text} {e : Expr} {rest : List Init} {v : Value} {t : State}
    (hvalue : e.eval inv scope s = (.done v, t)) :
    evalInits inv scope o (.mk name e :: rest) s =
      evalInits inv scope o rest (t.withStore (t.store.setField (.object o) name v)) := by
  have hset : Exec.change (fun store => store.setField (.object o) name v) t =
      (.done (), t.withStore (t.store.setField (.object o) name v)) := rfl
  rw [evalInits]
  simp only [bind]
  rw [Exec.andThen_done hvalue, Exec.andThen_done hset]

/-- An initialiser that gives no value is the last. -/
theorem evalInits_of_exit {name : Text} {e : Expr} {rest : List Init} {i : Exit} {t : State}
    (hexit : e.eval inv scope s = (i.outcome, t)) :
    evalInits inv scope o (.mk name e :: rest) s = (i.outcome, t) := by
  rw [evalInits]
  exact Exec.andThen_exit hexit

/-- Initialisers that give a result all give values. -/
theorem evalInits_done_iff :
    evalInits inv scope o inits s = (.done (), u) ↔
      ∃ vs, Initialises inv scope o inits s vs u := by
  constructor
  · intro h
    induction inits generalizing s with
    | nil =>
      rw [evalInits] at h
      cases h
      exact ⟨[], .nil⟩
    | cons first rest ih =>
      obtain ⟨name, e⟩ := first
      rw [evalInits] at h
      obtain ⟨v, t, hvalue, h⟩ := Exec.done_of_andThen h
      obtain ⟨_, t', hset, hrest⟩ := Exec.done_of_andThen h
      cases hset
      obtain ⟨vs, hvs⟩ := ih hrest
      exact ⟨v :: vs, .cons hvalue hvs⟩
  · rintro ⟨vs, h⟩
    induction h with
    | nil => rw [evalInits]; rfl
    | cons hvalue _ ih =>
      rw [evalInits_of_done hvalue]
      exact ih

theorem Initialises.length_eq {vs : List Value} (h : Initialises inv scope o inits s vs u) :
    vs.length = inits.length := by
  induction h with
  | nil => rfl
  | cons _ _ ih => rw [List.length_cons, ih, List.length_cons]

/-- **An object is made, then initialised**, and it is the result. -/
theorem Expr.eval_object_iff {line : Int} {w : Value} :
    (Expr.object line inits).eval inv scope s = (.done w, u) ↔
      w = .object s.store.newObject.1 ∧ ∃ vs, Initialises inv scope s.store.newObject.1 inits
        (s.withStore s.store.newObject.2) vs u := by
  rw [Expr.eval_object]
  constructor
  · intro h
    obtain ⟨_, t, hinits, h⟩ := Exec.done_of_andThen h
    cases h
    exact ⟨rfl, evalInits_done_iff.mp hinits⟩
  · rintro ⟨rfl, hinits⟩
    rw [Exec.andThen_done (evalInits_done_iff.mpr hinits)]
    rfl

end Initialisers

/-! ### Objects out of reach -/

/-- No variable and no field holds the object. -/
structure Store.Isolates (s : Store) (o : ObjectRef) : Prop where
  /-- No variable does. -/
  bound : ∀ e, ∀ b ∈ (s.scope e).bindings.toList, b.2 ≠ .object o
  /-- No field does. -/
  fields : ∀ o', ∀ b ∈ (s.fields o').values.toList, b.2 ≠ .object o

theorem Value.Outside.ne {o : ObjectRef} {v : Value} (h : v.Outside (· = o)) : v ≠ .object o :=
  fun hv => h o hv rfl

theorem Store.Withholds.isolates {s : Store} {o : ObjectRef} (h : s.Withholds (· = o)) :
    s.Isolates o :=
  ⟨fun e b hb => (h.bound e b hb).ne, fun o' b hb => (h.fields o' b hb).ne⟩

namespace Point

variable {limit : DepthLimit} {o : ObjectRef}

/-- The object is out of reach at a point: nothing holds it before or afterwards, the task does not
refer to it, unless it is to set fields of this object, and it ends with no value that is this object. -/
structure Conceals (limit : DepthLimit) (o : ObjectRef) (q : Point) : Prop where
  /-- Nothing holds the object when the task is begun. -/
  before : q.state.store.Isolates o
  /-- The task does not refer to it, or is to initialise it. -/
  task : (∃ scope inits, q.task = .inits scope o inits) ∨
    q.task.ValidFor q.state.store (· ≠ .object o)
  /-- Nothing holds the object afterwards. -/
  after : (q.run limit).2.store.Isolates o
  /-- The object is not among the values of the outcome. -/
  outcome : (q.run limit).1.Admitted (· ≠ .object o) (q.task.Answers (· ≠ .object o))

/-- A point in the course of the initialisers of an object: they are to be evaluated, or the object is
withheld. -/
inductive Constructs (o : ObjectRef) : Point → Prop
  /-- Initialisers are to be evaluated. -/
  | inits {fuel depth scope inits s} (hs : s.store.Withholds (· = o))
      (hscope : s.store.HasScope scope) : Constructs o ⟨fuel, depth, .inits scope o inits, s⟩
  /-- Something else is to be done, which does not refer to the object. -/
  | apart {q} (hq : q.Withholds (· = o)) : Constructs o q

/-- While an initialiser is evaluated, the object is withheld. -/
theorem safe_initialiser {fuel depth : Nat} {scope : ScopeRef} {s : State}
    (hs : s.store.Withholds (· = o)) (hscope : s.store.HasScope scope) (e : Expr) :
    Safe (· = o) s.store (Store.Yields (· = o)) (e.eval (invoke limit fuel depth) scope s) :=
  Withholds.safe (p := ⟨fuel, depth, .expr scope e, s⟩) ⟨hs, hscope⟩

/-- A point that is entered from such a one is such a one. -/
theorem Constructs.of_enters {p q : Point} (hp : p.Constructs o) (h : Enters limit p q) :
    q.Constructs o := by
  cases hp with
  | apart hp => exact .apart (hp.of_reaches (.single h))
  | @inits _ _ _ _ s hs hscope =>
    cases h with
    | part h =>
      cases h with
      | firstInit => exact .apart ⟨hs, hscope⟩
      | @restInits _ _ name e _ _ v t hfirst =>
        obtain ⟨hleaves, ht, hv⟩ := (safe_initialiser hs hscope e).of_done hfirst
        have hext := hleaves.grows.trans (t.store.extends_setField (.object o) name v)
        exact .inits (ht.setField (.object o) name hv) (hext.hasScope hscope)

theorem Constructs.of_reaches {p q : Point} (hp : p.Constructs o) (h : Reaches limit p q) :
    q.Constructs o := by
  induction h with
  | refl => exact hp
  | tail _ hstep ih => exact ih.of_enters hstep

/-- Evaluating initialisers keeps the object withheld, however that ends. -/
theorem withholds_evalInits (limit : DepthLimit) (fuel depth : Nat) {scope : ScopeRef}
    (inits : List Init) {s : State} (hs : s.store.Withholds (· = o)) (hscope : s.store.HasScope scope) :
    (evalInits (invoke limit fuel depth) scope o inits s).2.store.Withholds (· = o) ∧
    (evalInits (invoke limit fuel depth) scope o inits s).1.Admitted (· ≠ .object o)
      fun _ => True := by
  induction inits generalizing s with
  | nil =>
    rw [evalInits]
    exact ⟨hs, trivial⟩
  | cons first rest ih =>
    obtain ⟨name, e⟩ := first
    have hsafe : Safe (· = o) s.store (Store.Yields (· = o))
        (e.eval (invoke limit fuel depth) scope s) := safe_initialiser hs hscope e
    rcases hvalue : e.eval (invoke limit fuel depth) scope s with ⟨outcome, t⟩
    rw [hvalue] at hsafe
    have hstore : t.store.Withholds (· = o) := hsafe.store
    rcases outcome.done_or_exit with ⟨v, rfl⟩ | ⟨i, rfl⟩
    · have hext := hsafe.leaves.grows.trans (t.store.extends_setField (.object o) name v)
      rw [evalInits_of_done hvalue]
      exact ih (s := t.withStore (t.store.setField (.object o) name v))
        (hstore.setField (.object o) name hsafe.outcome) (hext.hasScope hscope)
    · -- a `return` carries a value, which is not the object
      have hout := hsafe.outcome
      rw [evalInits_of_exit hvalue]
      refine ⟨hstore, ?_⟩
      cases i with
      | returning v line => exact hout.2.ne
      | failed _ | outOfFuel => trivial
      | crashed => exact hout

/-- **An object under construction is out of reach.** -/
theorem Constructs.conceals {q : Point} (hq : q.Constructs o) : q.Conceals limit o := by
  cases hq with
  | @inits fuel depth scope inits s hs hscope =>
    have hrun := withholds_evalInits limit fuel depth inits hs hscope
    exact ⟨hs.isolates, Or.inl ⟨scope, inits, rfl⟩, hrun.1.isolates, hrun.2⟩
  | apart hq =>
    have hsafe : q.IsSafe limit (· = o) := hq.safe
    exact ⟨hq.store.isolates, Or.inr (hq.task.mono fun v hv => hv.2.ne), hsafe.store.isolates,
      Task.admitted_mono (fun v hv => hv.2.ne) hsafe.outcome⟩

end Point

/-! ### Objects under construction -/

/-- An object under construction: it is withheld, and its fields are those set so far. -/
structure Building (o : ObjectRef) (done : List (Text × Value)) (store : Store) : Prop where
  /-- Nothing holds the object. -/
  withheld : store.Withholds (· = o)
  /-- Its fields have been set one after another. -/
  fields : store.fields o = Fields.setAll {} done

/-- A new object is under construction. -/
theorem Store.Sound.building {s : Store} (h : s.Sound) : Building s.newObject.1 [] s.newObject.2 where
  withheld := h.withholds_newObject
  fields := by rw [fields_newObject, if_pos rfl]; rfl

section Building

variable {limit : DepthLimit} {fuel depth : Nat} {scope : ScopeRef} {o : ObjectRef}
  {done : List (Text × Value)}

/-- **The evaluation of an initialiser does nothing to the object, and then its field is set.** -/
theorem Building.step {s t : State} {e : Expr} {v : Value} (h : Building o done s.store)
    (hscope : s.store.HasScope scope) (name : Text)
    (hvalue : e.eval (invoke limit fuel depth) scope s = (.done v, t)) :
    s.store.Extends (t.store.setField (.object o) name v) ∧ v ≠ .object o ∧
      Building o (done ++ [(name, v)]) (t.store.setField (.object o) name v) := by
  obtain ⟨hleaves, ht, hv⟩ := (Point.safe_initialiser h.withheld hscope e).of_done hvalue
  refine ⟨hleaves.grows.trans (t.store.extends_setField ..), hv.2.ne, ht.setField _ name hv, ?_⟩
  have ho : t.store.HasObject o := ht.there o rfl
  rw [Store.fields_setField_object, if_pos ⟨rfl, ho⟩, hleaves.fields o rfl, h.fields,
    Fields.setAll_concat]

/-- **Initialisers set the fields of the object, and nothing else does**; no value that they give is the
object. -/
theorem Initialises.building {inits : List Init} {s u : State} {vs : List Value}
    (h : Initialises (invoke limit fuel depth) scope o inits s vs u)
    (hs : Building o done s.store) (hscope : s.store.HasScope scope) :
    Building o (done ++ (inits.map Init.name).zip vs) u.store ∧ ∀ v ∈ vs, v ≠ .object o := by
  induction h generalizing done with
  | nil =>
    rw [List.map_nil, List.zip_nil_left, List.append_nil]
    exact ⟨hs, List.forall_mem_nil _⟩
  | @cons name e rest s v vs u t hvalue _ ih =>
    obtain ⟨hext, hv, hnext⟩ := hs.step hscope name hvalue
    obtain ⟨hu, hvs⟩ := ih hnext (hext.hasScope hscope)
    rw [List.append_assoc] at hu
    exact ⟨hu, List.forall_mem_cons.mpr ⟨hv, hvs⟩⟩

end Building

/-- The field of a new object has the value of the last initialiser with its name. -/
theorem get?_setAll_zip {before after : List Init} {name : Text} {e : Expr} {vs : List Value}
    (hlen : vs.length = (before ++ .mk name e :: after).length)
    (hlast : name ∉ after.map Init.name) :
    (Fields.setAll {} (((before ++ .mk name e :: after).map Init.name).zip vs)).get? name =
      vs[before.length]? := by
  rw [List.length_append, List.length_cons] at hlen
  have hlt : before.length < vs.length := by omega
  -- the values are those of the initialisers before, its own, and those of the ones after
  have hsplit : vs = vs.take before.length ++ vs[before.length] :: vs.drop (before.length + 1) := by
    rw [List.getElem_cons_drop, List.take_append_drop]
  have hzip : ((before ++ .mk name e :: after).map Init.name).zip vs =
      (before.map Init.name).zip (vs.take before.length) ++
        (name, vs[before.length]) :: (after.map Init.name).zip (vs.drop (before.length + 1)) := by
    conv_lhs => rw [hsplit]
    rw [List.map_append, List.map_cons, List.zip_append, List.zip_cons_cons]
    · rfl
    · simp
      omega
  have hafter : name ∉ ((after.map Init.name).zip (vs.drop (before.length + 1))).map Prod.fst := by
    intro hmem
    obtain ⟨b, hb, rfl⟩ := List.mem_map.mp hmem
    exact hlast (List.of_mem_zip hb).1
  rw [hzip, Fields.get?_setAll _ _ _ hafter, List.getElem?_eq_getElem hlt]

/-- The fields of a new object have the names of its initialisers, by first occurrence. -/
theorem names_setAll_zip {inits : List Init} {vs : List Value} (hlen : vs.length = inits.length) :
    (Fields.setAll {} ((inits.map Init.name).zip vs)).names =
      (inits.map Init.name).eraseDups := by
  rw [Fields.names_setAll, List.map_fst_zip (by simp [hlen])]

/-! ### Runs -/

/-- **Objects keep their fields, and the order of these.**  In every state of a run the names that an
object lists are distinct, and they are those under which it holds a value.  Whatever is done at a
point, an expression evaluated or anything else, and however it ends, the names that an object had are
the first of those it has afterwards, in the same order.

Let an object `o` be made in a state of a run, and let its initialisers then be evaluated.  It is no
value that a program could come by before.  It is out of reach at every point that the initialisers
lead to, however these end.  If they all give values, in the end `o` is the result.  It is none of these
values.  Its names are those of the initialisers by first occurrence, and each has the value of the last
initialiser with the name. -/
theorem Program.objects_keep_fields (p : Program) (fuel : Nat) (limit : DepthLimit) (sink : Sink) :
    (∀ s, (p.start fuel sink).Passes limit s → ∀ o, (s.store.fields o).names.Nodup ∧
      ∀ name, name ∈ (s.store.fields o).names ↔
        ∃ v, (s.store.fields o).values.get? name = some v) ∧
    (∀ (q : Point) (o : ObjectRef), q.state.store.HasObject o →
      (q.state.store.fields o).names <+: ((q.run limit).2.store.fields o).names) ∧
    ∀ s, (p.start fuel sink).Passes limit s → ∀ scope, s.store.HasScope scope →
      ∀ o made, s.store.newObject = (o, made) →
      ∀ (fuel' depth : Nat) (line : Int) (inits : List Init),
      (∀ v, s.store.Admits v → v ≠ .object o) ∧
      (∀ q, Point.Reaches limit ⟨fuel', depth, .inits scope o inits, s.withStore made⟩ q →
        q.Conceals limit o) ∧
      (∀ w t, (Expr.object line inits).eval (invoke limit fuel' depth) scope s = (.done w, t) ↔
        w = .object o ∧
          ∃ vs, Initialises (invoke limit fuel' depth) scope o inits (s.withStore made) vs t) ∧
      ∀ vs t, Initialises (invoke limit fuel' depth) scope o inits (s.withStore made) vs t →
        (∀ v ∈ vs, v ≠ .object o) ∧
        (t.store.fields o).names = (inits.map Init.name).eraseDups ∧
        ∀ before name e after, inits = before ++ .mk name e :: after →
          name ∉ after.map Init.name → (t.store.fields o).get? name = vs[before.length]? := by
  have hstart := p.sound_start fuel sink
  refine ⟨fun s hs o => ?_, fun q o ho => q.names_prefix_run ho, ?_⟩
  · have hstep := (hs.sound hstart).inStep o
    exact ⟨hstep.nodup, hstep.mem_names⟩
  · intro s hs scope hscope o made hmade fuel' depth line inits
    have hsound := hs.sound hstart
    have hbuilding := hsound.building
    have hscope' := s.store.extends_newObject.hasScope hscope
    have hne : ∀ v, s.store.Admits v → v ≠ .object s.store.newObject.1 := fun v hv => hv.ne_newObject
    rw [hmade] at hbuilding hscope' hne
    refine ⟨hne, fun q hq => ?_, fun w t => ?_, fun vs t hvs => ?_⟩
    · exact (Point.Constructs.of_reaches (.inits hbuilding.withheld hscope') hq).conceals
    · rw [Expr.eval_object_iff, hmade]
    · obtain ⟨hdone, hvalues⟩ := hvs.building hbuilding hscope'
      have hfields : t.store.fields o = Fields.setAll {} ((inits.map Init.name).zip vs) := hdone.fields
      refine ⟨hvalues, by rw [hfields, names_setAll_zip hvs.length_eq], ?_⟩
      rintro before name e after rfl hlast
      rw [hfields, get?_setAll_zip hvs.length_eq hlast]

/-- A program that makes an object with one field. -/
def holder : Program where
  body := some (.mk 1 [.assign 1 true "o" (.object 1 [.mk "a" (.literal 1 (.int 1))])])

/-- Initialisers of which the first sets a field of the object of `holder`, and the last has the name of
the first. -/
def additions : List Init :=
  [.mk "x" (.setField 2 (.var 2 "o") "b" (.literal 2 (.int 2))), .mk "y" (.literal 3 (.int 3)),
    .mk "x" (.var 4 "o")]

/-- The state in which the run of `holder` ends. -/
def held : State := ((holder.start 8 {}).run ⟨8⟩).2

/-- The evaluation of a new object with the initialisers `additions` in that state. -/
def adding : Outcome Value × State :=
  (Expr.object 2 additions).eval (invoke ⟨8⟩ 8 0) globalScope held

/-- A new object with the initialisers `additions` is not the one that they change.  It has two fields,
of which the first holds what the last initialiser gives; and the other object has a second field,
after the one it had. -/
theorem objects_keep_fields_additions : ∃ vs : List Value,
    Initialises (invoke ⟨8⟩ 8 0) globalScope ⟨1⟩ additions
      (held.withStore held.store.newObject.2) vs adding.2 ∧
    (∀ v ∈ vs, v ≠ .object ⟨1⟩) ∧
    (adding.2.store.fields ⟨1⟩).names = (["x", "y"] : List Text) ∧
    (adding.2.store.fields ⟨1⟩).get? "x" = vs[2]? ∧
    (adding.2.store.fields ⟨1⟩).get? "x" = some (.object ⟨0⟩) ∧
    (held.store.fields ⟨0⟩).names = (["a"] : List Text) ∧
    (held.store.fields ⟨0⟩).names <+: (adding.2.store.fields ⟨0⟩).names ∧
    (adding.2.store.fields ⟨0⟩).get? "b" = some (.int 2) := by
  have hscope : held.store.HasScope globalScope := by decide +kernel
  have hobject : held.store.HasObject ⟨0⟩ := by decide +kernel
  obtain ⟨-, hprefix, hnew⟩ := holder.objects_keep_fields 8 ⟨8⟩ {}
  obtain ⟨-, -, heval, hdone⟩ := hnew held (.finish .refl) globalScope hscope ⟨1⟩ _ rfl 8 0 2 additions
  obtain ⟨-, vs, hvs⟩ := (heval (.object ⟨1⟩) adding.2).mp rfl
  obtain ⟨hvalues, hnames, hlast⟩ := hdone vs adding.2 hvs
  refine ⟨vs, hvs, hvalues, ?_, ?_, by decide +kernel, by decide +kernel, ?_, by decide +kernel⟩
  · rw [hnames]
    decide
  · exact hlast (additions.take 2) "x" (.var 4 "o") [] rfl (by simp)
  · exact hprefix ⟨8, 0, .expr globalScope (.object 2 additions), held⟩ ⟨0⟩ hobject

end TreeScript
