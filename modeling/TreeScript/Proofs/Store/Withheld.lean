import TreeScript.Proofs.Store.Show

/-!
# Withheld objects

An object that has been made, and that no variable and no field holds, is withheld from the program:
whatever is read, it does not come up.  As long as only values are written that can be come by without
it, it stays withheld, and since a field is written through a value that holds the object, its fields
stay as they are.

## Main definitions

* `Value.Outside`, `Store.Yields` — values that can be come by while some objects are withheld.
* `Store.Withholds` — a sound store in which nothing holds these objects.
* `Store.Leaves` — a store that has whatever another has, with the withheld objects as they were.

## Main results

* `Store.Withholds.assign`, `Store.Withholds.setField`, `Store.Withholds.newClosure`,
  `Store.Withholds.newObject`, `Store.Withholds.openScope` — **every operation withholds what was
  withheld.**
* `Store.Sound.withholds_newObject` — **a new object is withheld.**
-/

namespace TreeScript

/-- A value that is none of some objects. -/
def Value.Outside (W : ObjectRef → Prop) (v : Value) : Prop := ∀ o, v = .object o → ¬ W o

theorem Value.outside_of_ne {W : ObjectRef → Prop} {v : Value} (h : ∀ o, v ≠ .object o) :
    v.Outside W :=
  fun o ho => absurd ho (h o)

namespace Store

/-- A value that a program can come by while some objects are withheld. -/
def Yields (W : ObjectRef → Prop) (s : Store) (v : Value) : Prop := s.Admits v ∧ v.Outside W

/-- A sound store that withholds some of its objects: no variable and no field holds them. -/
structure Withholds (W : ObjectRef → Prop) (s : Store) : Prop where
  /-- The store is sound. -/
  sound : s.Sound
  /-- The objects are there. -/
  there : ∀ o, W o → s.HasObject o
  /-- No variable holds one of them. -/
  bound : ∀ e, ∀ b ∈ (s.scope e).bindings.toList, b.2.Outside W
  /-- No field holds one of them. -/
  fields : ∀ o, ∀ b ∈ (s.fields o).values.toList, b.2.Outside W

/-- Whatever is in `s` is in `t`, and the withheld objects are as they were. -/
structure Leaves (W : ObjectRef → Prop) (s t : Store) : Prop where
  /-- Nothing is removed. -/
  grows : s.Extends t
  /-- The fields of withheld objects are the same. -/
  fields : ∀ o, W o → t.fields o = s.fields o

variable {W : ObjectRef → Prop} {s : Store}

namespace Leaves

variable {t u : Store}

theorem refl (s : Store) : Leaves W s s := ⟨.refl s, fun _ _ => rfl⟩

theorem trans (h : Leaves W s t) (h' : Leaves W t u) : Leaves W s u :=
  ⟨h.grows.trans h'.grows, fun o ho => (h'.fields o ho).trans (h.fields o ho)⟩

theorem yields (h : Leaves W s t) {v : Value} (hv : Yields W s v) : Yields W t v :=
  ⟨h.grows.admits hv.1, hv.2⟩

end Leaves

theorem leaves_setField {holder : Value} (h : holder.Outside W) (name : Text) (v : Value) :
    Leaves W s (s.setField holder name v) := by
  refine ⟨s.extends_setField holder name v, fun o ho => ?_⟩
  cases holder with
  | object o' =>
    rw [fields_setField_object, if_neg]
    rintro ⟨rfl, -⟩
    exact h _ rfl ho
  | _ => rfl

namespace Withholds

/-- What a name stands for can be come by. -/
theorem lookup (h : s.Withholds W) (e : ScopeRef) (name : Text) : s.Yields W (s.lookup e name) :=
  ⟨h.sound.lookup e name,
    s.lookup_of_bound (P := Value.Outside W) (Value.outside_of_ne (by simp)) h.bound e name⟩

/-- What a field holds can be come by. -/
theorem field? (h : s.Withholds W) {holder v : Value} {name : Text}
    (hv : s.field? holder name = some v) : s.Yields W v :=
  ⟨h.sound.field? hv,
    s.field?_of_bound (P := Value.Outside W) (Value.outside_of_ne (by simp)) h.bound h.fields hv⟩

theorem assign (h : s.Withholds W) (e : ScopeRef) (name : Text) {v : Value} (hv : s.Yields W v) :
    (s.assign e name v).Withholds W where
  sound := h.sound.assign e name hv.1
  there := h.there
  bound := bound_assign h.bound e name hv.2
  fields := h.fields

theorem setField (h : s.Withholds W) (holder : Value) (name : Text) {v : Value}
    (hv : s.Yields W v) : (s.setField holder name v).Withholds W := by
  cases holder with
  | object o =>
    exact
      { sound := h.sound.setField (.object o) name hv.1
        there := fun o' ho' =>
          Nat.lt_of_lt_of_le (h.there o' ho') (s.extends_setField (.object o) name v).objects
        bound := h.bound
        fields := held_setField h.fields o name hv.2 }
  | scope e => exact h.assign e name hv
  | _ => exact h

/-- A function of the program is made in a scope that is there. -/
theorem newClosure (h : s.Withholds W) {e : ScopeRef} (he : s.HasScope e) (name : Text)
    (params : List Text) (body : Option Block) :
    (s.newFunction ⟨name, .closure params body e⟩).2.Withholds W where
  sound := h.sound.newClosure he name params body
  there := h.there
  bound := h.bound
  fields := h.fields

theorem newObject (h : s.Withholds W) : s.newObject.2.Withholds W where
  sound := h.sound.newObject
  there o ho := Nat.lt_of_lt_of_le (h.there o ho) s.extends_newObject.objects
  bound := h.bound
  fields := held_newObject h.fields

/-- A new object is none of those that are withheld. -/
theorem yields_newObject (h : s.Withholds W) : s.newObject.2.Yields W (.object s.newObject.1) := by
  refine ⟨s.hasObject_newObject, fun o ho hW => ?_⟩
  cases ho
  exact Nat.lt_irrefl _ (h.there _ hW)

theorem leaves_newObject (h : s.Withholds W) : Leaves W s s.newObject.2 := by
  refine ⟨s.extends_newObject, fun o ho => ?_⟩
  rw [fields_newObject, if_neg]
  rintro rfl
  exact Nat.lt_irrefl _ (h.there _ ho)

/-- The scope of a call is made inside that of the function. -/
theorem openScope (h : s.Withholds W) {closure : ScopeRef} (hclosure : s.HasScope closure)
    {receiver : Value} (hreceiver : s.Yields W receiver) (params : List Text) {args : List Value}
    (hargs : ∀ v ∈ args, s.Yields W v) :
    (openScope closure receiver params args s).2.Withholds W where
  sound := h.sound.openScope hclosure hreceiver.1 params fun v hv => (hargs v hv).1
  there o ho := Nat.lt_of_lt_of_le (h.there o ho) (extends_openScope ..).objects
  bound := bound_openScope h.bound closure hreceiver.2 params fun v hv => (hargs v hv).2
  fields o := by
    rw [fields_openScope]
    exact h.fields o

end Withholds

/-- Nothing need be withheld. -/
theorem Sound.withholds_none (h : s.Sound) : s.Withholds (fun _ => False) where
  sound := h
  there _ ho := ho.elim
  bound _ _ _ _ _ := id
  fields _ _ _ _ _ := id

/-- A value that a store admits is no object that is made later. -/
theorem Admits.ne_newObject {v : Value} (hv : s.Admits v) : v ≠ .object s.newObject.1 := by
  rintro rfl
  exact Nat.lt_irrefl _ hv

/-- **A new object is withheld.** -/
theorem Sound.withholds_newObject (h : s.Sound) : s.newObject.2.Withholds (· = s.newObject.1) where
  sound := h.newObject
  there o ho := ho ▸ s.hasObject_newObject
  bound e b hb o ho hnew := (h.bound e b hb).ne_newObject (hnew ▸ ho)
  fields o b hb o' ho' hnew := by
    refine held_newObject (P := fun v => v ≠ .object s.newObject.1) ?_ o b hb (hnew ▸ ho')
    exact fun o b hb => (h.fields o b hb).ne_newObject

end Store

end TreeScript
