import Mathlib.Data.Finset.Card
import Mathlib.Logic.Relation
import TreeScript.Proofs.Store.Show

/-!
# Objects unfolded along paths

The text of an object is its unfolding along paths.  An object is rendered with all its fields
wherever it is come upon, unless it is being rendered already around that place; there it shows as a
cycle.  What has been rendered before, and is finished, makes no difference: an object that is
shared, and on no cycle, shows in full wherever it is held.

The same text is written by a traversal that keeps one set of marks for all its calls.  A call marks
its object, renders the fields with the marks that each leaves to the next, and takes the mark away
at its end.  Every call ends, and leaves the marks as it found them, so that the marks are the
objects around the place.

An object whose names are not in step with what it holds has no text: it lists a name under which
there is nothing to show.

## Main definitions

* `Store.unfolding?` — the text of an object inside others, by the rule.
* `Store.Formats`, `Store.FormatsAll` — a call of the traversal that ends, with its marks.
* `Store.Holds` — an object has another in a field.
* `Store.Renders` — what is come upon, and inside which objects, while an object is rendered.

## Main results

* `Store.showValue?_eq_unfolding?` — **the text of an object is its unfolding.**
* `Store.formats_iff` — **a call of the traversal that ends has written the unfolding, and left the
  marks as they were.**
* `Store.exists_unfolding?` — **every call ends**, if the names of objects are in step.
* `Store.Renders.unfolding?_eq` — **an object on no cycle shows in full.**
-/

namespace TreeScript

open Relation (ReflTransGen TransGen)

namespace Store

variable {s : Store}

/-! ### Objects that are not being rendered -/

/-- The objects of a store. -/
def objectRefs (s : Store) : Finset ObjectRef := (Finset.range s.objects.size).image ObjectRef.mk

theorem mem_objectRefs {o : ObjectRef} : o ∈ s.objectRefs ↔ s.HasObject o := by
  simp only [objectRefs, Finset.mem_image, Finset.mem_range, HasObject]
  constructor
  · rintro ⟨i, hi, rfl⟩
    exact hi
  · intro ho
    exact ⟨o.id, ho, rfl⟩

/-- How many objects of a store are not among those being rendered. -/
def remaining (s : Store) (around : Finset ObjectRef) : Nat := (s.objectRefs \ around).card

/-- Rendering one more object leaves fewer. -/
theorem remaining_insert_lt {around : Finset ObjectRef} {o : ObjectRef} (ho : s.HasObject o)
    (hnew : o ∉ around) : s.remaining (insert o around) < s.remaining around := by
  refine Finset.card_lt_card (Finset.ssubset_iff_of_subset ?_ |>.mpr ⟨o, ?_, ?_⟩)
  · exact Finset.sdiff_subset_sdiff subset_rfl (Finset.subset_insert o around)
  · exact Finset.mem_sdiff.mpr ⟨mem_objectRefs.mpr ho, hnew⟩
  · intro hmem
    exact (Finset.mem_sdiff.mp hmem).2 (Finset.mem_insert_self o around)

/-- At the start all objects are left, and no more. -/
theorem remaining_empty_lt (s : Store) : s.remaining ∅ < s.objects.size + 1 := by
  have hcard : s.objectRefs.card ≤ (Finset.range s.objects.size).card := Finset.card_image_le
  rw [Finset.card_range] at hcard
  rw [remaining, Finset.sdiff_empty]
  omega

/-! ### The rule -/

/-- The text of an object that is come upon while the objects `around` are being rendered.  If it is
one of these, it shows as a cycle.  Otherwise its fields are rendered in order, each object in a field
by the same rule inside one more object, and any other value by its own text. -/
def unfolding? (s : Store) (around : Finset ObjectRef) (o : ObjectRef) : Option Text :=
  if o ∈ around then some ("<cycle>" : Text)
  else
    let texts? := (s.fields o).names.attach.mapM fun ⟨name, _⟩ =>
      match (s.fields o).get? name with
      | some (.object inner) => (s.unfolding? (insert o around) inner).map (name ++ ": " ++ ·)
      | some other => some (name ++ ": " ++ s.showShallow other)
      | none => none
    texts?.map fun texts => "\x7b" ++ Text.join ", " texts ++ "\x7d"
termination_by s.remaining around
decreasing_by exact remaining_insert_lt (hasObject_of_mem_names ‹_›) ‹_›

/-- The text of a field that is come upon in the same way. -/
def fieldUnfolding? (s : Store) (around : Finset ObjectRef) (o : ObjectRef) (name : Text) :
    Option Text :=
  match (s.fields o).get? name with
  | some (.object inner) => (s.unfolding? around inner).map (name ++ ": " ++ ·)
  | some other => some (name ++ ": " ++ s.showShallow other)
  | none => none

theorem unfolding?_of_mem {around : Finset ObjectRef} {o : ObjectRef} (h : o ∈ around) :
    s.unfolding? around o = some ("<cycle>" : Text) := by
  rw [unfolding?, if_pos h]

theorem unfolding?_of_not_mem {around : Finset ObjectRef} {o : ObjectRef} (h : o ∉ around) :
    s.unfolding? around o =
      ((s.fields o).names.mapM (s.fieldUnfolding? (insert o around) o)).map fun texts =>
        "\x7b" ++ Text.join ", " texts ++ "\x7d" := by
  rw [unfolding?, if_neg h]
  simp only
  congr 1
  rw [List.mapM_subtype (g := s.fieldUnfolding? (insert o around) o) fun _ _ => rfl,
    List.unattach_attach]

section Field

variable {around : Finset ObjectRef} {o : ObjectRef} {name : Text}

theorem fieldUnfolding?_object {inner : ObjectRef}
    (h : (s.fields o).get? name = some (.object inner)) :
    s.fieldUnfolding? around o name = (s.unfolding? around inner).map (name ++ ": " ++ ·) := by
  simp only [fieldUnfolding?, h]

theorem fieldUnfolding?_other {v : Value} (h : (s.fields o).get? name = some v)
    (hv : ∀ inner, v ≠ .object inner) :
    s.fieldUnfolding? around o name = some (name ++ ": " ++ s.showShallow v) := by
  cases v with
  | object inner => exact absurd rfl (hv inner)
  | _ => simp only [fieldUnfolding?, h]

/-- The text of a field is written by the rule if that of the object in it is. -/
theorem showField?_eq_fieldUnfolding? {f : ObjectRef → Option Text}
    (h : ∀ inner, f inner = s.unfolding? around inner) :
    s.showField? f o name = s.fieldUnfolding? around o name := by
  unfold showField? fieldUnfolding?
  cases (s.fields o).get? name with
  | none => rfl
  | some v =>
    cases v with
    | object inner =>
      simp only [Option.bind_eq_bind, Option.bind_some, showWith?, h]
      cases s.unfolding? around inner <;> rfl
    | _ => rfl

end Field

/-! ### The text of an object -/

/-- With enough levels, the text of an object inside others is the one that the rule gives. -/
theorem showObject?_eq_unfolding? {n : Nat} (path : List ObjectRef)
    (hn : s.remaining path.toFinset < n) (o : ObjectRef) :
    s.showObject? n path o = s.unfolding? path.toFinset o := by
  induction n generalizing path o with
  | zero => omega
  | succ n ih =>
    by_cases hmem : o ∈ path
    · rw [showObject?_of_mem hmem, unfolding?_of_mem (List.mem_toFinset.mpr hmem)]
    · have hnew : o ∉ path.toFinset := fun h => hmem (List.mem_toFinset.mp h)
      rw [showObject?_of_not_mem hmem, unfolding?_of_not_mem hnew]
      congr 1
      refine mapM_congr fun name hname => showField?_eq_fieldUnfolding? fun inner => ?_
      -- the object has a field, so it was one of those left
      have hless := remaining_insert_lt (hasObject_of_mem_names hname) hnew
      have hinner := ih (o :: path) (by rw [List.toFinset_cons]; omega) inner
      rwa [List.toFinset_cons] at hinner

/-- **The text of an object is its unfolding.** -/
theorem showValue?_eq_unfolding? (s : Store) (o : ObjectRef) :
    s.showValue? (.object o) = s.unfolding? ∅ o :=
  showObject?_eq_unfolding? [] s.remaining_empty_lt o

/-- **Every object has an unfolding**, if the names of objects are in step with what these hold. -/
theorem exists_unfolding? (h : ∀ i, (s.fields i).InStep) (around : Finset ObjectRef)
    (o : ObjectRef) : ∃ text, s.unfolding? around o = some text := by
  have hshow := showObject?_eq_unfolding? (s := s) around.toList (Nat.lt_succ_self _) o
  rw [Finset.toList_toFinset] at hshow
  rw [← hshow]
  exact exists_showObject? h _ _ o

/-! ### The traversal with marks -/

mutual

/-- `Formats s seen o text after`: the traversal is called on the object `o` with the marks `seen`, and
ends with `text` and with the marks `after`. -/
inductive Formats (s : Store) : Finset ObjectRef → ObjectRef → Text → Finset ObjectRef → Prop
  /-- A marked object shows as a cycle. -/
  | marked {seen o} (hseen : o ∈ seen) : Formats s seen o "<cycle>" seen
  /-- Any other is marked, its fields are rendered, and the mark is taken away. -/
  | fields {seen o texts after} (hseen : o ∉ seen)
      (hfields : FormatsAll s o (insert o seen) (s.fields o).names texts after) :
      Formats s seen o ("\x7b" ++ Text.join ", " texts ++ "\x7d") (after.erase o)

/-- The same for the fields of an object with these names, one after another. -/
inductive FormatsAll (s : Store) : ObjectRef →
    Finset ObjectRef → List Text → List Text → Finset ObjectRef → Prop
  /-- No fields are left. -/
  | done {o seen} : FormatsAll s o seen [] [] seen
  /-- A field that holds an object is rendered by a call. -/
  | object {o seen name inner text between rest texts after}
      (hfield : (s.fields o).get? name = some (.object inner))
      (hinner : Formats s seen inner text between)
      (hrest : FormatsAll s o between rest texts after) :
      FormatsAll s o seen (name :: rest) ((name ++ ": " ++ text) :: texts) after
  /-- Any other field shows its own text. -/
  | other {o seen name value rest texts after} (hfield : (s.fields o).get? name = some value)
      (hvalue : ∀ inner, value ≠ .object inner) (hrest : FormatsAll s o seen rest texts after) :
      FormatsAll s o seen (name :: rest) ((name ++ ": " ++ s.showShallow value) :: texts) after

end

mutual

/-- A call that ends has written the unfolding, and left the marks as they were. -/
theorem Formats.unfolding?_eq {seen : Finset ObjectRef} {o : ObjectRef} {text : Text}
    {after : Finset ObjectRef} : s.Formats seen o text after →
      s.unfolding? seen o = some text ∧ after = seen
  | .marked hseen => ⟨unfolding?_of_mem hseen, rfl⟩
  | .fields hseen hfields => by
    obtain ⟨htexts, rfl⟩ := hfields.mapM_eq
    rw [unfolding?_of_not_mem hseen, htexts]
    exact ⟨rfl, Finset.erase_insert hseen⟩

/-- The same for the fields of an object. -/
theorem FormatsAll.mapM_eq {o : ObjectRef} {seen : Finset ObjectRef} {names texts : List Text}
    {after : Finset ObjectRef} : s.FormatsAll o seen names texts after →
      names.mapM (s.fieldUnfolding? seen o) = some texts ∧ after = seen
  | .done => ⟨rfl, rfl⟩
  | .object hfield hinner hrest => by
    obtain ⟨htext, rfl⟩ := hinner.unfolding?_eq
    obtain ⟨htexts, rfl⟩ := hrest.mapM_eq
    rw [List.mapM_cons, fieldUnfolding?_object hfield, htext, htexts]
    exact ⟨rfl, rfl⟩
  | .other hfield hvalue hrest => by
    obtain ⟨htexts, rfl⟩ := hrest.mapM_eq
    rw [List.mapM_cons, fieldUnfolding?_other hfield hvalue, htexts]
    exact ⟨rfl, rfl⟩

end

/-- The fields of an object are rendered, if the objects among them are. -/
theorem formatsAll_of_forall {o : ObjectRef} {seen : Finset ObjectRef} {names texts : List Text}
    (htexts : names.mapM (s.fieldUnfolding? seen o) = some texts)
    (h : ∀ name ∈ names, ∀ inner text, s.unfolding? seen inner = some text →
      s.Formats seen inner text seen) : s.FormatsAll o seen names texts seen := by
  induction names generalizing texts with
  | nil =>
    cases htexts
    exact .done
  | cons name rest ih =>
    simp only [List.mapM_cons, Option.bind_eq_bind, Option.bind_eq_some_iff, Option.pure_def] at htexts
    obtain ⟨shown, hshown, texts', htexts', htext⟩ := htexts
    cases htext
    have hrest := ih htexts' fun name' hname => h name' (List.mem_cons_of_mem _ hname)
    cases hfield : (s.fields o).get? name with
    | none =>
      simp only [fieldUnfolding?, hfield] at hshown
      cases hshown
    | some v =>
      by_cases hv : ∃ inner, v = .object inner
      · obtain ⟨inner, rfl⟩ := hv
        rw [fieldUnfolding?_object hfield, Option.map_eq_some_iff] at hshown
        obtain ⟨text, htext, rfl⟩ := hshown
        exact .object hfield (h name List.mem_cons_self inner text htext) hrest
      · have hother : ∀ inner, v ≠ .object inner := fun inner hinner => hv ⟨inner, hinner⟩
        rw [fieldUnfolding?_other hfield hother] at hshown
        cases hshown
        exact .other hfield hother hrest

/-- A call on an object that has an unfolding ends: it marks an object, and there are only so many. -/
theorem formats_of_unfolding? {seen : Finset ObjectRef} {o : ObjectRef} {text : Text}
    (h : s.unfolding? seen o = some text) : s.Formats seen o text seen := by
  induction hn : s.remaining seen using Nat.strongRecOn generalizing seen o text with
  | _ n ih =>
    by_cases hseen : o ∈ seen
    · rw [unfolding?_of_mem hseen] at h
      cases h
      exact .marked hseen
    · rw [unfolding?_of_not_mem hseen, Option.map_eq_some_iff] at h
      obtain ⟨texts, htexts, rfl⟩ := h
      have hfields := formatsAll_of_forall htexts fun name hname inner text htext =>
        ih _ (hn ▸ remaining_insert_lt (hasObject_of_mem_names hname) hseen) htext rfl
      have hcall := Formats.fields hseen hfields
      rwa [Finset.erase_insert hseen] at hcall

/-- **A call of the traversal that ends has written the unfolding, and left the marks as they were**;
and it ends if there is an unfolding. -/
theorem formats_iff {seen : Finset ObjectRef} {o : ObjectRef} {text : Text}
    {after : Finset ObjectRef} :
    s.Formats seen o text after ↔ s.unfolding? seen o = some text ∧ after = seen := by
  constructor
  · exact Formats.unfolding?_eq
  · rintro ⟨htext, rfl⟩
    exact formats_of_unfolding? htext

/-! ### Shared objects -/

/-- An object has another in one of its fields. -/
def Holds (s : Store) (a b : ObjectRef) : Prop :=
  ∃ name ∈ (s.fields a).names, (s.fields a).get? name = some (.object b)

/-- The unfolding of an object only depends on which of the objects below it are around it. -/
theorem unfolding?_congr {around around' : Finset ObjectRef} {o : ObjectRef}
    (h : ∀ i, ReflTransGen s.Holds o i → (i ∈ around ↔ i ∈ around')) :
    s.unfolding? around o = s.unfolding? around' o := by
  induction hn : s.remaining around using Nat.strongRecOn generalizing around around' o with
  | _ n ih =>
    by_cases ho : o ∈ around
    · rw [unfolding?_of_mem ho, unfolding?_of_mem ((h o .refl).mp ho)]
    · have ho' : o ∉ around' := fun hmem => ho ((h o .refl).mpr hmem)
      rw [unfolding?_of_not_mem ho, unfolding?_of_not_mem ho']
      congr 1
      refine mapM_congr fun name hname => ?_
      have hless := remaining_insert_lt (hasObject_of_mem_names hname) ho
      unfold fieldUnfolding?
      cases hfield : (s.fields o).get? name with
      | none => rfl
      | some v =>
        cases v with
        | object inner =>
          have hinner : s.unfolding? (insert o around) inner =
              s.unfolding? (insert o around') inner := by
            refine ih _ (hn ▸ hless) (fun i hi => ?_) rfl
            rw [Finset.mem_insert, Finset.mem_insert, h i (.head ⟨name, hname, hfield⟩ hi)]
          simp only [hinner]
        | _ => rfl

/-- `Renders s o around i`: while the object `o` is rendered, the object `i` is come upon inside the
objects `around`. -/
inductive Renders (s : Store) (o : ObjectRef) : Finset ObjectRef → ObjectRef → Prop
  /-- The object itself, inside no other. -/
  | root : Renders s o ∅ o
  /-- An object in a field of one that is rendered. -/
  | field {around i name j} (hi : Renders s o around i) (hnew : i ∉ around)
      (hname : name ∈ (s.fields i).names) (hfield : (s.fields i).get? name = some (.object j)) :
      Renders s o (insert i around) j

/-- The objects around a place all lead to it. -/
theorem Renders.leads {o i : ObjectRef} {around : Finset ObjectRef} (h : s.Renders o around i) :
    ∀ a ∈ around, TransGen s.Holds a i := by
  induction h with
  | root => exact fun a ha => absurd ha (Finset.notMem_empty a)
  | @field around i name j _ _ hname hfield ih =>
    intro a ha
    have hstep : s.Holds i j := ⟨name, hname, hfield⟩
    rcases Finset.mem_insert.mp ha with rfl | ha
    · exact .single hstep
    · exact .tail (ih a ha) hstep

/-- **An object on no cycle shows in full**, wherever it is come upon. -/
theorem Renders.unfolding?_eq {o i : ObjectRef} {around : Finset ObjectRef}
    (h : s.Renders o around i) (hcycle : ¬ TransGen s.Holds i i) :
    i ∉ around ∧ s.unfolding? around i = s.showValue? (.object i) := by
  have hfree : ∀ d, ReflTransGen s.Holds i d → d ∉ around := by
    intro d hd hmem
    -- an object below that is around would close a cycle
    exact hcycle (TransGen.trans_right hd (h.leads d hmem))
  refine ⟨hfree i .refl, ?_⟩
  rw [showValue?_eq_unfolding?]
  refine unfolding?_congr fun d hd => ?_
  simp [hfree d hd]

/-! ### Any store -/

/-- **The text of an object is its unfolding along paths**, in every store and for every object.  The
traversal with marks ends with this text, whatever the marks are, and leaves the marks as they were.
It does end if the names of the objects are in step with what these hold.  And an object that is come
upon in rendering another, and is on no cycle, shows there in full, as it does by itself; so it does
each time. -/
theorem showValue_unfolds (s : Store) (o : ObjectRef) :
    s.showValue? (.object o) = s.unfolding? ∅ o ∧
    (∀ seen i text after,
      s.Formats seen i text after ↔ s.unfolding? seen i = some text ∧ after = seen) ∧
    ((∀ i, (s.fields i).InStep) → ∀ seen i, ∃ text, s.unfolding? seen i = some text) ∧
    ∀ around i, s.Renders o around i → ¬ TransGen s.Holds i i →
      i ∉ around ∧ s.unfolding? around i = s.showValue? (.object i) :=
  ⟨s.showValue?_eq_unfolding? o, fun _ _ _ _ => formats_iff, exists_unfolding?,
    fun _ _ h hcycle => h.unfolding?_eq hcycle⟩

/-- An object that holds another in two fields, and itself in a third. -/
def diamond : Store where
  objects := #[⟨⟨[("left", .object ⟨1⟩), ("right", .object ⟨1⟩), ("self", .object ⟨0⟩)]⟩,
      ["left", "right", "self"]⟩,
    ⟨⟨[("n", .int 1)]⟩, ["n"]⟩]

/-- The shared object of `diamond` shows in full both times, and the one around it as a cycle. -/
theorem showValue_unfolds_diamond :
    diamond.showValue? (.object ⟨0⟩) =
      some ("\x7bleft: \x7bn: 1\x7d, right: \x7bn: 1\x7d, self: <cycle>\x7d" : Text) ∧
    diamond.unfolding? {⟨0⟩} ⟨1⟩ = some ("\x7bn: 1\x7d" : Text) ∧
    ∃ text, diamond.showValue? (.object ⟨0⟩) = some text ∧ diamond.Formats ∅ ⟨0⟩ text ∅ := by
  obtain ⟨htext, hcalls, -, hfull⟩ := diamond.showValue_unfolds ⟨0⟩
  have hleft : ("left" : Text) ∈ (diamond.fields ⟨0⟩).names := by decide
  have hmet : diamond.Renders ⟨0⟩ (insert ⟨0⟩ ∅) ⟨1⟩ :=
    .field .root (Finset.notMem_empty _) hleft rfl
  have hcycle : ¬ TransGen diamond.Holds ⟨1⟩ ⟨1⟩ := by
    intro h
    obtain ⟨i, ⟨name, hname, hfield⟩, -⟩ := TransGen.head'_iff.mp h
    -- the only field of the shared object is no object
    cases List.mem_singleton.mp hname
    cases hfield
  have hshown : diamond.showValue? (.object ⟨0⟩) =
      some ("\x7bleft: \x7bn: 1\x7d, right: \x7bn: 1\x7d, self: <cycle>\x7d" : Text) := by
    decide +kernel
  refine ⟨hshown, ?_, _, hshown, (hcalls ∅ ⟨0⟩ _ ∅).mpr ⟨htext ▸ hshown, rfl⟩⟩
  have hinner := (hfull _ ⟨1⟩ hmet hcycle).2
  rw [insert_empty_eq] at hinner
  rw [hinner]
  decide +kernel

end Store

end TreeScript
