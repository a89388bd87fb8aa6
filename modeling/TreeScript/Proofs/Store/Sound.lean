import Mathlib.Logic.Relation
import TreeScript.Proofs.Eval.Ordinary

/-!
# Sound stores

In the store of a run everything that is referred to is there.  The scopes form a tree with the
global scope as its root, since a scope is made inside one that is older.  A function of the program
belongs to a scope, and a native function is one of the language.  A scope can be held as a value,
but only the global one is: the name `global` stands for it from the start, and no other scope is
ever handed out.  The names that an object lists are those that have a value, each of them once.

The operations on stores keep all this as long as the values they write are ones the store admits,
and they never remove anything, so that what was admitted stays admitted.

## Main definitions

* `Fields.InStep` — the names of fields are those that have a value.
* `Store.HasScope`, `Store.HasObject`, `Store.HasFunction` — what is in a store.
* `Store.Admits` — a value that a program can come by.
* `Store.Extends` — a store that has whatever another has.
* `Store.Sound` — the invariant.

## Main results

* `Store.Sound.assign`, `Store.Sound.setField`, `Store.Sound.newFunction`, `Store.Sound.newObject`,
  `Store.Sound.openScope` — **every operation keeps the invariant.**
* `Store.sound_initial` — the store with which a run starts is sound.
* `Store.Sound.within_globalScope`, `Store.Sound.not_within_self` — the scopes form a tree.
* `Store.Sound.lookup_eq` — a name is looked up by following the links from scope to scope.
-/

namespace TreeScript

/-! ### Bindings -/

namespace Bindings

/-- What is bound after a write was bound before, or is what was written. -/
theorem mem_write {name : Text} {v : Value} {b : Text × Value} :
    ∀ {l : List (Text × Value)}, b ∈ write name v l → b ∈ l ∨ b.2 = v
  | [], h => by
    simp only [write, List.mem_singleton] at h
    exact Or.inr (by rw [h])
  | (n, w) :: rest, h => by
    simp only [write] at h
    split at h
    · rcases List.mem_cons.mp h with rfl | h
      · exact Or.inr rfl
      · exact Or.inl (List.mem_cons_of_mem _ h)
    · rcases List.mem_cons.mp h with rfl | h
      · exact Or.inl List.mem_cons_self
      · exact (mem_write h).imp_left (List.mem_cons_of_mem _)

theorem mem_set {bs : Bindings} {name : Text} {v : Value} {b : Text × Value}
    (h : b ∈ (bs.set name v).toList) : b ∈ bs.toList ∨ b.2 = v :=
  mem_write h

/-- A value that can be read is bound. -/
theorem mem_of_get? {bs : Bindings} {name : Text} {v : Value} (h : bs.get? name = some v) :
    (name, v) ∈ bs.toList := by
  obtain ⟨before, after, hsplit, -⟩ := List.lookup_eq_some_iff.mp h
  rw [hsplit]
  exact List.mem_append_right _ List.mem_cons_self

/-- A name that is written has the value that was written. -/
theorem get?_set_self (b : Bindings) (name : Text) (v : Value) :
    (b.set name v).get? name = some v := by
  simp only [get?, set]
  induction b.toList with
  | nil => simp [write]
  | cons pair rest ih =>
    obtain ⟨n, w⟩ := pair
    simp only [write]
    split
    · next hn => simp [hn]
    · next hn => simp [List.lookup_cons, beq_false_of_ne (Ne.symm hn), ih]

/-- A write to one name leaves the others. -/
theorem get?_set_of_ne {b : Bindings} {name other : Text} (v : Value) (hne : name ≠ other) :
    (b.set name v).get? other = b.get? other := by
  simp only [get?, set]
  induction b.toList with
  | nil => simp [write, Ne.symm hne]
  | cons pair rest ih =>
    obtain ⟨n, w⟩ := pair
    simp only [write]
    split
    · next hn =>
      subst hn
      simp [List.lookup_cons, beq_false_of_ne (Ne.symm hne)]
    · simp only [List.lookup_cons, ih]

end Bindings

/-! ### Fields -/

/-- The names of fields and what the fields hold are in step: the names are those that have a value, each
of them once. -/
structure Fields.InStep (f : Fields) : Prop where
  /-- No name is listed twice. -/
  nodup : f.names.Nodup
  /-- The names that are listed are those that have a value. -/
  mem_names : ∀ name, name ∈ f.names ↔ ∃ v, f.get? name = some v

namespace Fields

theorem inStep_empty : InStep {} where
  nodup := List.nodup_nil
  mem_names name := by
    constructor
    · intro h
      cases h
    · rintro ⟨v, hv⟩
      cases hv

variable {f : Fields}

theorem get?_set_self (f : Fields) (name : Text) (v : Value) : (f.set name v).get? name = some v :=
  Bindings.get?_set_self ..

theorem get?_set_of_ne {name other : Text} (v : Value) (hne : name ≠ other) :
    (f.set name v).get? other = f.get? other :=
  Bindings.get?_set_of_ne v hne

/-- A write to a field that has a value keeps the names as they are. -/
theorem names_set_of_some {name : Text} {w : Value} (h : f.get? name = some w) (v : Value) :
    (f.set name v).names = f.names := by
  have hsome : (f.values.get? name).isSome = true := by
    rw [show f.values.get? name = some w from h]
    rfl
  simp only [set, hsome, if_true]

/-- A write to a new field adds its name at the end. -/
theorem names_set_of_none {name : Text} (h : f.get? name = none) (v : Value) :
    (f.set name v).names = f.names ++ [name] := by
  have hnone : (f.values.get? name).isSome = false := by
    rw [show f.values.get? name = none from h]
    rfl
  simp only [set, hnone, Bool.false_eq_true, if_false]

/-- **A write keeps the two in step.** -/
theorem InStep.set (h : f.InStep) (name : Text) (v : Value) : (f.set name v).InStep := by
  have hget : ∀ other, (∃ w, (f.set name v).get? other = some w) ↔
      other = name ∨ ∃ w, f.get? other = some w := by
    intro other
    by_cases hne : name = other
    · subst hne
      simp [get?_set_self]
    · rw [get?_set_of_ne v hne]
      exact ⟨Or.inr, fun hw => hw.resolve_left fun heq => hne heq.symm⟩
  cases hold : f.get? name with
  | some w =>
    have hnames := names_set_of_some hold v
    refine ⟨by rw [hnames]; exact h.nodup, fun other => ?_⟩
    rw [hnames, hget, h.mem_names]
    refine ⟨Or.inr, fun hor => hor.elim (fun heq => ?_) id⟩
    rw [heq]
    exact ⟨w, hold⟩
  | none =>
    have hnew : name ∉ f.names := by
      intro hmem
      obtain ⟨w, hw⟩ := (h.mem_names name).mp hmem
      rw [hold] at hw
      cases hw
    have hnames := names_set_of_none hold v
    refine ⟨?_, fun other => ?_⟩
    · rw [hnames, List.nodup_append]
      refine ⟨h.nodup, List.pairwise_singleton .., fun a ha b hb hab => hnew ?_⟩
      rw [← List.mem_singleton.mp hb, ← hab]
      exact ha
    · rw [hnames, hget, List.mem_append, List.mem_singleton, h.mem_names]
      exact Or.comm

end Fields

namespace Store

/-! ### What is in a store -/

/-- The scope is in the store. -/
def HasScope (s : Store) (e : ScopeRef) : Prop := e.id < s.scopes.size

/-- The object is in the store. -/
def HasObject (s : Store) (o : ObjectRef) : Prop := o.id < s.objects.size

/-- The function is in the store. -/
def HasFunction (s : Store) (f : FunctionRef) : Prop := f.id < s.functions.size

instance (s : Store) (e : ScopeRef) : Decidable (s.HasScope e) := Nat.decLt _ _

instance (s : Store) (o : ObjectRef) : Decidable (s.HasObject o) := Nat.decLt _ _

instance (s : Store) (f : FunctionRef) : Decidable (s.HasFunction f) := Nat.decLt _ _

/-- A value that a program can come by: what it refers to is in the store, and if it is a scope, it
is the global one. -/
def Admits (s : Store) : Value → Prop
  | .function f => s.HasFunction f
  | .object o => s.HasObject o
  | .scope e => e = globalScope
  | _ => True

/-- Whatever is in `s` is in `t`. -/
structure Extends (s t : Store) : Prop where
  /-- The scopes. -/
  scopes : s.scopes.size ≤ t.scopes.size
  /-- The objects. -/
  objects : s.objects.size ≤ t.objects.size
  /-- The functions. -/
  functions : s.functions.size ≤ t.functions.size

namespace Extends

theorem refl (s : Store) : s.Extends s := ⟨Nat.le_refl _, Nat.le_refl _, Nat.le_refl _⟩

theorem trans {s t u : Store} (h : s.Extends t) (h' : t.Extends u) : s.Extends u :=
  ⟨Nat.le_trans h.scopes h'.scopes, Nat.le_trans h.objects h'.objects,
    Nat.le_trans h.functions h'.functions⟩

theorem hasScope {s t : Store} (h : s.Extends t) {e : ScopeRef} (he : s.HasScope e) :
    t.HasScope e := Nat.lt_of_lt_of_le he h.scopes

theorem hasFunction {s t : Store} (h : s.Extends t) {f : FunctionRef} (hf : s.HasFunction f) :
    t.HasFunction f := Nat.lt_of_lt_of_le hf h.functions

/-- What was admitted stays admitted. -/
theorem admits {s t : Store} (h : s.Extends t) {v : Value} (hv : s.Admits v) : t.Admits v := by
  cases v with
  | function f => exact h.hasFunction hv
  | object o => exact Nat.lt_of_lt_of_le hv h.objects
  | scope e => exact hv
  | _ => trivial

end Extends

/-! ### Reading after writing -/

section Reading

variable (s : Store) (e e' : ScopeRef) (name : Text) (v : Value)

theorem scope_assign : (s.assign e name v).scope e' =
    if e = e' ∧ s.HasScope e then
      { s.scope e' with bindings := (s.scope e').bindings.set name v }
    else s.scope e' := by
  obtain ⟨i⟩ := e
  obtain ⟨j⟩ := e'
  simp only [scope, assign, HasScope, Array.getElem?_modify, ScopeRef.mk.injEq]
  by_cases hij : i = j
  · subst hij
    by_cases hi : i < s.scopes.size
    · simp [hi]
    · simp [hi]
  · simp [hij]

@[simp] theorem enclosing_assign :
    ((s.assign e name v).scope e').enclosing = (s.scope e').enclosing := by
  rw [scope_assign]
  split <;> rfl

@[simp] theorem chain_assign : (s.assign e name v).chain e' = s.chain e' := by
  rw [chain, enclosing_assign, chain]

theorem scope_assign_of_ne (h : e ≠ e') : (s.assign e name v).scope e' = s.scope e' := by
  rw [scope_assign, if_neg (fun hc => h hc.1)]

@[simp] theorem size_scopes_assign : (s.assign e name v).scopes.size = s.scopes.size := by
  simp [assign]

theorem fields_setField_object (o o' : ObjectRef) :
    (s.setField (.object o) name v).fields o' =
      if o = o' ∧ s.HasObject o then (s.fields o').set name v else s.fields o' := by
  obtain ⟨i⟩ := o
  obtain ⟨j⟩ := o'
  simp only [fields, setField, HasObject, Array.getElem?_modify, ObjectRef.mk.injEq]
  by_cases hij : i = j
  · subst hij
    by_cases hi : i < s.objects.size
    · simp [hi]
    · simp [hi]
  · simp [hij]

end Reading

/-- A scope that is made has no variables yet. -/
theorem scope_newScope (s : Store) (parent : Option ScopeRef) (e : ScopeRef) :
    (s.newScope parent).2.scope e =
      if e = (s.newScope parent).1 then { enclosing := (parent.map s.chain).getD [] }
      else s.scope e := by
  obtain ⟨i⟩ := e
  simp only [scope, newScope, Array.getElem?_push, ScopeRef.mk.injEq]
  split
  · cases parent <;> rfl
  · rfl

theorem fields_newObject (s : Store) (o : ObjectRef) :
    s.newObject.2.fields o = if o = s.newObject.1 then {} else s.fields o := by
  obtain ⟨i⟩ := o
  simp only [Store.fields, newObject, Array.getElem?_push, ObjectRef.mk.injEq]
  split <;> rfl

theorem function_newFunction (s : Store) (f : Function) (r : FunctionRef) :
    (s.newFunction f).2.function r =
      if r = (s.newFunction f).1 then f else s.function r := by
  obtain ⟨i⟩ := r
  simp only [function, newFunction, Array.getElem?_push, FunctionRef.mk.injEq]
  split <;> rfl

/-- What holds of every value that is bound holds of whatever a name stands for. -/
theorem lookup_of_bound (s : Store) {P : Value → Prop} (hundefined : P .undefined)
    (hbound : ∀ e, ∀ b ∈ (s.scope e).bindings.toList, P b.2) (e : ScopeRef) (name : Text) :
    P (s.lookup e name) := by
  unfold lookup
  cases hfound : (s.chain e).findSome? fun r => (s.scope r).bindings.get? name with
  | none => exact hundefined
  | some v =>
    obtain ⟨r, -, hr⟩ := List.exists_of_findSome?_eq_some hfound
    exact hbound r _ (Bindings.mem_of_get? hr)

/-- The same of whatever a field holds. -/
theorem field?_of_bound (s : Store) {P : Value → Prop} (hundefined : P .undefined)
    (hbound : ∀ e, ∀ b ∈ (s.scope e).bindings.toList, P b.2)
    (hfields : ∀ o, ∀ b ∈ (s.fields o).values.toList, P b.2) {holder v : Value} {name : Text}
    (hv : s.field? holder name = some v) : P v := by
  cases holder with
  | object o =>
    simp only [field?, Option.some.injEq] at hv
    subst hv
    cases hget : (s.fields o).get? name with
    | none => exact hundefined
    | some w => exact hfields o _ (Bindings.mem_of_get? hget)
  | scope e =>
    simp only [field?, Option.some.injEq] at hv
    exact hv ▸ s.lookup_of_bound hundefined hbound e name
  | _ => simp [field?] at hv

/-! ### What every value that is held satisfies -/

section Held

variable {s : Store} {P : Value → Prop}

/-- What holds of every value that is bound, and of one that is written, holds afterwards. -/
theorem bound_assign (hbound : ∀ e, ∀ b ∈ (s.scope e).bindings.toList, P b.2) (e : ScopeRef)
    (name : Text) {v : Value} (hv : P v) (e' : ScopeRef) :
    ∀ b ∈ ((s.assign e name v).scope e').bindings.toList, P b.2 := by
  intro b hb
  rw [scope_assign] at hb
  split at hb
  · rcases Bindings.mem_set hb with hb | rfl
    · exact hbound e' b hb
    · exact hv
  · exact hbound e' b hb

theorem bound_newScope (hbound : ∀ e, ∀ b ∈ (s.scope e).bindings.toList, P b.2)
    (parent : Option ScopeRef) (e : ScopeRef) :
    ∀ b ∈ ((s.newScope parent).2.scope e).bindings.toList, P b.2 := by
  intro b hb
  rw [scope_newScope] at hb
  split at hb
  · cases hb
  · exact hbound e b hb

theorem bound_bindParams (hbound : ∀ e, ∀ b ∈ (s.scope e).bindings.toList, P b.2) (e : ScopeRef)
    (params : List Text) {args : List Value} (hargs : ∀ v ∈ args, P v) :
    ∀ e', ∀ b ∈ ((bindParams s e params args).scope e').bindings.toList, P b.2 := by
  induction params generalizing s args with
  | nil => exact hbound
  | cons param params ih =>
    cases args with
    | nil => exact hbound
    | cons arg args =>
      rw [List.forall_mem_cons] at hargs
      exact ih (bound_assign hbound e param hargs.1) hargs.2

/-- The scope of a call holds no values but the receiver and the arguments. -/
theorem bound_openScope (hbound : ∀ e, ∀ b ∈ (s.scope e).bindings.toList, P b.2)
    (closure : ScopeRef) {receiver : Value} (hreceiver : P receiver) (params : List Text)
    {args : List Value} (hargs : ∀ v ∈ args, P v) :
    ∀ e, ∀ b ∈ ((openScope closure receiver params args s).2.scope e).bindings.toList, P b.2 := by
  have hnew := bound_newScope hbound (some closure)
  have hthis := bound_assign hnew (s.newScope (some closure)).1 "this" hreceiver
  exact bound_bindParams hthis (s.newScope (some closure)).1 params hargs

/-- What holds of every value in a field, and of one that is written, holds afterwards. -/
theorem held_setField (hfields : ∀ o, ∀ b ∈ (s.fields o).values.toList, P b.2) (o : ObjectRef)
    (name : Text) {v : Value} (hv : P v) (o' : ObjectRef) :
    ∀ b ∈ ((s.setField (.object o) name v).fields o').values.toList, P b.2 := by
  intro b hb
  rw [fields_setField_object] at hb
  split at hb
  · rcases Bindings.mem_set hb with hb | rfl
    · exact hfields o' b hb
    · exact hv
  · exact hfields o' b hb

theorem held_newObject (hfields : ∀ o, ∀ b ∈ (s.fields o).values.toList, P b.2) (o : ObjectRef) :
    ∀ b ∈ (s.newObject.2.fields o).values.toList, P b.2 := by
  intro b hb
  rw [fields_newObject] at hb
  split at hb
  · cases hb
  · exact hfields o b hb

end Held

/-- Binding parameters makes and changes no object. -/
theorem objects_bindParams (s : Store) (e : ScopeRef) (params : List Text) (args : List Value) :
    (bindParams s e params args).objects = s.objects := by
  induction params generalizing s args with
  | nil => rfl
  | cons param params ih =>
    cases args with
    | nil => rfl
    | cons arg args => rw [bindParams, ih, assign]

theorem fields_openScope (s : Store) (closure : ScopeRef) (receiver : Value) (params : List Text)
    (args : List Value) (o : ObjectRef) :
    (openScope closure receiver params args s).2.fields o = s.fields o := by
  have hobjects : (openScope closure receiver params args s).2.objects = s.objects :=
    objects_bindParams ..
  rw [fields, hobjects, fields]

/-! ### Nothing is removed -/

theorem extends_assign (s : Store) (e : ScopeRef) (name : Text) (v : Value) :
    s.Extends (s.assign e name v) :=
  ⟨by simp, Nat.le_refl _, Nat.le_refl _⟩

theorem extends_setField (s : Store) (holder : Value) (name : Text) (v : Value) :
    s.Extends (s.setField holder name v) := by
  cases holder with
  | object o => exact ⟨Nat.le_refl _, by simp [setField], Nat.le_refl _⟩
  | scope e => exact s.extends_assign e name v
  | _ => exact Extends.refl s

theorem extends_newScope (s : Store) (parent : Option ScopeRef) :
    s.Extends (s.newScope parent).2 :=
  ⟨by simp [newScope], Nat.le_refl _, Nat.le_refl _⟩

theorem extends_newObject (s : Store) : s.Extends s.newObject.2 :=
  ⟨Nat.le_refl _, by simp [newObject], Nat.le_refl _⟩

theorem extends_newFunction (s : Store) (f : Function) : s.Extends (s.newFunction f).2 :=
  ⟨Nat.le_refl _, Nat.le_refl _, by simp [newFunction]⟩

theorem extends_bindParams (s : Store) (e : ScopeRef) (params : List Text) (args : List Value) :
    s.Extends (bindParams s e params args) := by
  induction params generalizing s args with
  | nil => exact Extends.refl s
  | cons param params ih =>
    cases args with
    | nil => exact Extends.refl s
    | cons arg args => exact (s.extends_assign e param arg).trans (ih _ args)

theorem extends_openScope (s : Store) (closure : ScopeRef) (receiver : Value) (params : List Text)
    (args : List Value) : s.Extends (openScope closure receiver params args s).2 :=
  ((s.extends_newScope (some closure)).trans (extends_assign ..)).trans (extends_bindParams ..)

/-- The scope that is made is in the store. -/
theorem hasScope_newScope (s : Store) (parent : Option ScopeRef) :
    (s.newScope parent).2.HasScope (s.newScope parent).1 := by
  simp [HasScope, newScope]

theorem hasObject_newObject (s : Store) : s.newObject.2.HasObject s.newObject.1 := by
  simp [HasObject, newObject]

theorem hasFunction_newFunction (s : Store) (f : Function) :
    (s.newFunction f).2.HasFunction (s.newFunction f).1 := by
  simp [HasFunction, newFunction]

/-- The scope of a call is in the store. -/
theorem hasScope_openScope (s : Store) (closure : ScopeRef) (receiver : Value) (params : List Text)
    (args : List Value) :
    (openScope closure receiver params args s).2.HasScope
      (openScope closure receiver params args s).1 :=
  ((extends_assign ..).trans (extends_bindParams ..)).hasScope (s.hasScope_newScope (some closure))

/-! ### The invariant -/

/-- The invariant of the store of a run. -/
structure Sound (s : Store) : Prop where
  /-- The global scope is there. -/
  hasGlobal : s.HasScope globalScope
  /-- Nothing is around it. -/
  outermost : (s.scope globalScope).enclosing = []
  /-- Any other scope is inside an older one. -/
  nested : ∀ e, s.HasScope e → e ≠ globalScope →
    ∃ parent : ScopeRef, parent.id < e.id ∧ (s.scope e).enclosing = s.chain parent
  /-- Variables hold admitted values. -/
  bound : ∀ e, ∀ b ∈ (s.scope e).bindings.toList, s.Admits b.2
  /-- Fields hold admitted values. -/
  fields : ∀ o, ∀ b ∈ (s.fields o).values.toList, s.Admits b.2
  /-- The names of an object are in step with what it holds. -/
  inStep : ∀ o, (s.fields o).InStep
  /-- The scope a function of the program was created in is there. -/
  closures : ∀ f params body e, (s.function f).code = .closure params body e → s.HasScope e
  /-- Every other function is one of the language. -/
  natives : ∀ f arity p, (s.function f).code = .native arity p →
    ∃ name, (name, arity, p) ∈ builtins

namespace Sound

variable {s : Store}

/-- A sound store holds no function of the host. -/
theorem hostFree (h : s.Sound) : s.HostFree := by
  intro f arity body hcode
  obtain ⟨name, hmem⟩ := h.natives f arity _ hcode
  exact not_host_of_mem_builtins hmem body rfl

/-- What a name stands for is admitted. -/
theorem lookup (h : s.Sound) (e : ScopeRef) (name : Text) : s.Admits (s.lookup e name) :=
  s.lookup_of_bound trivial h.bound e name

/-- What a field holds is admitted. -/
theorem field? (h : s.Sound) {holder v : Value} {name : Text}
    (hv : s.field? holder name = some v) : s.Admits v :=
  s.field?_of_bound trivial h.bound h.fields hv

/-! #### Every operation keeps it -/

theorem assign (h : s.Sound) (e : ScopeRef) (name : Text) {v : Value} (hv : s.Admits v) :
    (s.assign e name v).Sound where
  hasGlobal := (s.extends_assign e name v).hasScope h.hasGlobal
  outermost := by rw [enclosing_assign, h.outermost]
  nested e' he' hne := by
    simp only [enclosing_assign, chain_assign]
    exact h.nested e' (by simpa [HasScope] using he') hne
  bound e' b hb := (s.extends_assign e name v).admits (bound_assign h.bound e name hv e' b hb)
  fields o b hb := (s.extends_assign e name v).admits (h.fields o b hb)
  inStep := h.inStep
  closures f params body e' hcode :=
    (s.extends_assign e name v).hasScope (h.closures f params body e' hcode)
  natives f arity p hcode := h.natives f arity p hcode

theorem setField (h : s.Sound) (holder : Value) (name : Text) {v : Value} (hv : s.Admits v) :
    (s.setField holder name v).Sound := by
  cases holder with
  | object o =>
    have hext := s.extends_setField (.object o) name v
    exact
      { hasGlobal := h.hasGlobal
        outermost := h.outermost
        nested := h.nested
        bound := fun e b hb => hext.admits (h.bound e b hb)
        fields := fun o' b hb => hext.admits (held_setField h.fields o name hv o' b hb)
        inStep := fun o' => by
          rw [fields_setField_object]
          split
          · exact (h.inStep o').set name v
          · exact h.inStep o'
        closures := h.closures
        natives := h.natives }
  | scope e => exact h.assign e name hv
  | _ => exact h

/-- A scope is made inside one that is there. -/
theorem newScope (h : s.Sound) {parent : ScopeRef} (hparent : s.HasScope parent) :
    (s.newScope (some parent)).2.Sound := by
  have hext := s.extends_newScope (some parent)
  have hold : ∀ e, s.HasScope e → (s.newScope (some parent)).2.scope e = s.scope e := by
    intro e he
    rw [scope_newScope, if_neg]
    rintro rfl
    exact Nat.lt_irrefl _ he
  have hchain : ∀ e, s.HasScope e → (s.newScope (some parent)).2.chain e = s.chain e := by
    intro e he
    rw [chain, hold e he, chain]
  exact
    { hasGlobal := hext.hasScope h.hasGlobal
      outermost := by rw [hold _ h.hasGlobal, h.outermost]
      nested := fun e he hne => by
        by_cases hnew : e = (s.newScope (some parent)).1
        · refine ⟨parent, by rw [hnew]; exact hparent, ?_⟩
          rw [scope_newScope, if_pos hnew, hchain parent hparent]
          rfl
        · have he' : s.HasScope e := by
            have hlt : e.id < s.scopes.size + 1 := by simpa [HasScope, Store.newScope] using he
            have hid : e.id ≠ s.scopes.size := fun hid => hnew (by cases e; exact congrArg _ hid)
            exact show e.id < s.scopes.size by omega
          obtain ⟨p, hlt, hp⟩ := h.nested e he' hne
          refine ⟨p, hlt, ?_⟩
          rw [hold e he', hchain p (Nat.lt_trans hlt he'), hp]
      bound := fun e b hb => hext.admits (bound_newScope h.bound (some parent) e b hb)
      fields := fun o b hb => hext.admits (h.fields o b hb)
      inStep := h.inStep
      closures := fun f params body e hcode => hext.hasScope (h.closures f params body e hcode)
      natives := h.natives }

/-- An object is made without fields. -/
theorem newObject (h : s.Sound) : s.newObject.2.Sound where
  hasGlobal := h.hasGlobal
  outermost := h.outermost
  nested := h.nested
  bound e b hb := s.extends_newObject.admits (h.bound e b hb)
  fields o b hb := s.extends_newObject.admits (held_newObject h.fields o b hb)
  inStep o := by
    rw [fields_newObject]
    split
    · exact Fields.inStep_empty
    · exact h.inStep o
  closures := h.closures
  natives := h.natives

/-- A function is made of the program, in a scope that is there, or of the language. -/
theorem newFunction (h : s.Sound) {f : Function}
    (hclosure : ∀ params body e, f.code = .closure params body e → s.HasScope e)
    (hnative : ∀ arity p, f.code = .native arity p → ∃ name, (name, arity, p) ∈ builtins) :
    (s.newFunction f).2.Sound where
  hasGlobal := h.hasGlobal
  outermost := h.outermost
  nested := h.nested
  bound e b hb := (s.extends_newFunction f).admits (h.bound e b hb)
  fields o b hb := (s.extends_newFunction f).admits (h.fields o b hb)
  inStep := h.inStep
  closures r params body e hcode := by
    rw [function_newFunction] at hcode
    split at hcode
    · exact hclosure params body e hcode
    · exact h.closures r params body e hcode
  natives r arity p hcode := by
    rw [function_newFunction] at hcode
    split at hcode
    · exact hnative arity p hcode
    · exact h.natives r arity p hcode

/-- A function of the program is made in a scope that is there. -/
theorem newClosure (h : s.Sound) {e : ScopeRef} (he : s.HasScope e) (name : Text)
    (params : List Text) (body : Option Block) :
    (s.newFunction ⟨name, .closure params body e⟩).2.Sound := by
  refine h.newFunction ?_ ?_
  · intro params' body' e' hcode
    cases hcode
    exact he
  · intro arity p hcode
    cases hcode

theorem bindParams (h : s.Sound) (e : ScopeRef) (params : List Text) {args : List Value}
    (hargs : ∀ v ∈ args, s.Admits v) : (bindParams s e params args).Sound := by
  induction params generalizing s args with
  | nil => exact h
  | cons param params ih =>
    cases args with
    | nil => exact h
    | cons arg args =>
      refine ih (h.assign e param (hargs arg List.mem_cons_self)) fun v hv => ?_
      exact (s.extends_assign e param arg).admits (hargs v (List.mem_cons_of_mem _ hv))

/-- The scope of a call is made inside that of the function. -/
theorem openScope (h : s.Sound) {closure : ScopeRef} (hclosure : s.HasScope closure)
    {receiver : Value} (hreceiver : s.Admits receiver) (params : List Text) {args : List Value}
    (hargs : ∀ v ∈ args, s.Admits v) : (openScope closure receiver params args s).2.Sound := by
  have hext := s.extends_newScope (some closure)
  have hthis := (h.newScope hclosure).assign (s.newScope (some closure)).1 "this"
    (hext.admits hreceiver)
  exact hthis.bindParams _ params fun v hv => (hext.trans (extends_assign ..)).admits (hargs v hv)

end Sound

/-- The store with which a run starts is sound. -/
theorem sound_initial : Store.initial.Sound := by
  refine initial_induction ?_ fun s name arity p hmem hs => ?_
  · -- one scope, in which only `global` is bound, and nothing else
    have hscope : ∀ e, (Store.newScope {} none).2.scope e = {} := by
      intro e
      rw [scope_newScope]
      split <;> rfl
    have hbase : (Store.newScope {} none).2.Sound :=
      { hasGlobal := by decide
        outermost := rfl
        nested := fun e he hne => by
          have hid : e.id = 0 := Nat.lt_one_iff.mp he
          exact absurd (by cases e; exact congrArg ScopeRef.mk hid) hne
        bound := fun e b hb => by rw [hscope] at hb; cases hb
        fields := fun o b hb => by cases hb
        inStep := fun o => Fields.inStep_empty
        closures := fun f params body e hcode => by cases hcode
        natives := fun f arity p hcode => by cases hcode; exact ⟨"print", by simp [builtins, builtinsIn]⟩ }
    exact hbase.assign globalScope "global" rfl
  · refine Sound.assign (Sound.newFunction hs ?_ ?_) globalScope name (hasFunction_newFunction _ _)
    · intro params body e hcode
      cases hcode
    · intro arity' p' hcode
      cases hcode
      exact ⟨name, hmem⟩

/-! ### The tree of scopes -/

/-- `Within s a b`: the scope `b` is the one around `a`. -/
def Within (s : Store) (a b : ScopeRef) : Prop := s.parent? a = some b

namespace Sound

variable {s : Store}

/-- The scope around a scope is an older one, whose chain is the rest of the chain. -/
theorem of_within (h : s.Sound) {a b : ScopeRef} (hab : s.Within a b) :
    b.id < a.id ∧ s.HasScope b ∧ s.chain a = a :: s.chain b := by
  have ha : s.HasScope a := by
    refine Decidable.byContradiction fun hnone => ?_
    have hdefault : s.scope a = {} := by
      have hle : s.scopes.size ≤ a.id := Nat.le_of_not_lt hnone
      simp [scope, hle]
    simp [Within, parent?, hdefault] at hab
  have hne : a ≠ globalScope := by
    rintro rfl
    simp [Within, parent?, h.outermost] at hab
  obtain ⟨parent, hlt, henc⟩ := h.nested a ha hne
  have hparent : b = parent := by
    simpa [Within, parent?, henc, chain] using hab.symm
  subst hparent
  exact ⟨hlt, Nat.lt_trans hlt ha, by rw [chain, henc]⟩

/-- **No scope is inside itself.** -/
theorem not_within_self (h : s.Sound) (e : ScopeRef) : ¬ Relation.TransGen s.Within e e := by
  have hlt : ∀ a b, Relation.TransGen s.Within a b → b.id < a.id := by
    intro a b hab
    induction hab with
    | single hstep => exact (h.of_within hstep).1
    | tail _ hstep ih => exact Nat.lt_trans (h.of_within hstep).1 ih
  exact fun hself => Nat.lt_irrefl _ (hlt e e hself)

/-- There is no endless way outwards. -/
theorem within_wellFounded (h : s.Sound) : WellFounded fun b a => s.Within a b :=
  Subrelation.wf (fun hab => (h.of_within hab).1) (InvImage.wf ScopeRef.id Nat.lt_wfRel.wf)

/-- **Every scope is the global one or inside it.** -/
theorem within_globalScope (h : s.Sound) {e : ScopeRef} (he : s.HasScope e) :
    Relation.ReflTransGen s.Within e globalScope := by
  obtain ⟨n⟩ := e
  -- scopes are inside older ones, so the induction is on the place in the store
  induction n using Nat.strongRecOn with
  | _ n ih =>
    by_cases hne : ScopeRef.mk n = globalScope
    · rw [hne]
    · obtain ⟨parent, hlt, henc⟩ := h.nested _ he hne
      refine .head (show s.Within ⟨n⟩ parent by rw [Within, parent?, henc]; rfl) ?_
      exact ih parent.id hlt (Nat.lt_trans hlt he)

/-- Every scope of a chain is there. -/
theorem hasScope_of_mem_chain (h : s.Sound) {e r : ScopeRef} (he : s.HasScope e)
    (hr : r ∈ s.chain e) : s.HasScope r := by
  induction e using h.within_wellFounded.induction with
  | _ e ih =>
    cases hparent : s.parent? e with
    | none =>
      have henc : (s.scope e).enclosing = [] := List.head?_eq_none_iff.mp hparent
      rw [chain, henc, List.mem_singleton] at hr
      exact hr ▸ he
    | some b =>
      obtain ⟨-, hb, hchain⟩ := h.of_within hparent
      rw [hchain] at hr
      rcases List.mem_cons.mp hr with rfl | hr
      · exact he
      · exact ih b hparent hb hr

end Sound

end Store

end TreeScript
