import Mathlib.Data.List.Nodup
import Mathlib.Data.List.Perm.Subperm
import TreeScript.Proofs.Store.Sound

/-!
# The texts of values

Objects can hold each other, and themselves, so the text of an object is written along a path: an
object met again on it shows as a cycle.  The recursion has a bound on the number of levels.  It is
never met, since no path without repetitions is longer than there are objects; so the text is the
one that the rules give without any bound, and showing a value ends by itself.

There is a text if the names that objects list are in step with what they hold.  In a sound store they
are, and the scopes in the text of a value all show as the global one.

## Main definitions

* `Store.unscoped` — the store in which every scope shows as a global one.

## Main results

* `Store.showObject?_eq_showValue?` — **the bound on the levels of a text is never met.**
* `Store.exists_showValue?` — **every value has a text**, if the names of objects are in step.
* `Store.showValue?_eq_of_shallow` — stores with the same objects show values alike, if they show
  those alike that are no objects.
* `Store.Sound.showValue?_unscoped` — **in the text of a value every scope shows as the global one.**
-/

namespace TreeScript

/-! ### Lists of results -/

section Results

variable {α β : Type} {f g : α → Option β} {l : List α}

/-- Functions that agree on a list give the same results for it. -/
theorem mapM_congr (h : ∀ a ∈ l, f a = g a) : l.mapM f = l.mapM g := by
  induction l with
  | nil => rfl
  | cons a rest ih =>
    rw [List.mapM_cons, List.mapM_cons, h a List.mem_cons_self,
      ih fun b hb => h b (List.mem_cons_of_mem _ hb)]

/-- There are results for a list if there is one for each of its members. -/
theorem exists_mapM (h : ∀ a ∈ l, ∃ b, f a = some b) : ∃ bs, l.mapM f = some bs := by
  induction l with
  | nil => exact ⟨[], rfl⟩
  | cons a rest ih =>
    obtain ⟨b, hb⟩ := h a List.mem_cons_self
    obtain ⟨bs, hbs⟩ := ih fun c hc => h c (List.mem_cons_of_mem _ hc)
    refine ⟨b :: bs, ?_⟩
    rw [List.mapM_cons, hb, hbs]
    rfl

end Results

namespace Store

/-! ### The texts of fields -/

section Fields

variable {s : Store} {f g : ObjectRef → Option Text} {o : ObjectRef} {name : Text}

theorem showObject?_of_mem {depth : Nat} {path : List ObjectRef} (h : o ∈ path) :
    s.showObject? depth path o = some ("<cycle>" : Text) := by
  cases depth with
  | zero => rfl
  | succ depth => rw [showObject?, if_pos h]

theorem showObject?_of_not_mem {depth : Nat} {path : List ObjectRef} (h : o ∉ path) :
    s.showObject? (depth + 1) path o =
      ((s.fields o).names.mapM (s.showField? (s.showObject? depth (o :: path)) o)).map fun texts =>
        "\x7b" ++ Text.join ", " texts ++ "\x7d" := by
  rw [showObject?, if_neg h]
  cases (s.fields o).names.mapM (s.showField? (s.showObject? depth (o :: path)) o) <;> rfl

/-- A field that holds something has a text, if the object it may hold has. -/
theorem exists_showField? (hname : ∃ v, (s.fields o).get? name = some v)
    (h : ∀ inner, ∃ text, f inner = some text) : ∃ text, s.showField? f o name = some text := by
  obtain ⟨v, hv⟩ := hname
  unfold showField?
  rw [hv]
  cases v with
  | object inner =>
    obtain ⟨text, htext⟩ := h inner
    exact ⟨_, by simp only [Option.bind_eq_bind, Option.bind_some, showWith?, htext]; rfl⟩
  | _ => exact ⟨_, rfl⟩

end Fields

/-! ### The bound on levels -/

/-- An object that lists a name is in the store. -/
theorem hasObject_of_mem_names {s : Store} {o : ObjectRef} {name : Text}
    (hname : name ∈ (s.fields o).names) : s.HasObject o := by
  refine Decidable.byContradiction fun hnone => ?_
  have hle : s.objects.size ≤ o.id := Nat.le_of_not_lt hnone
  have hdefault : s.fields o = {} := by simp [fields, hle]
  rw [hdefault] at hname
  cases hname

/-- An object that holds itself shows as a cycle inside itself, and the text ends there. -/
example :
    ({ objects := #[⟨⟨[("self", .object ⟨0⟩), ("n", .int 1)]⟩, ["self", "n"]⟩] } : Store).showValue?
      (.object ⟨0⟩) = some ("\x7bself: <cycle>, n: 1\x7d" : Text) := by
  decide +kernel

/-! ### Every value has a text -/

/-- Objects whose names are in step have a text. -/
theorem exists_showObject? {s : Store} (h : ∀ o, (s.fields o).InStep) (depth : Nat)
    (path : List ObjectRef) (o : ObjectRef) : ∃ text, s.showObject? depth path o = some text := by
  induction depth generalizing path o with
  | zero => exact ⟨_, rfl⟩
  | succ depth ih =>
    by_cases hmem : o ∈ path
    · exact ⟨_, showObject?_of_mem hmem⟩
    · have hfield : ∀ name ∈ (s.fields o).names,
          ∃ text, s.showField? (s.showObject? depth (o :: path)) o name = some text :=
        fun name hname => exists_showField? (((h o).mem_names name).mp hname) (ih (o :: path))
      obtain ⟨texts, htexts⟩ := exists_mapM hfield
      exact ⟨_, by rw [showObject?_of_not_mem hmem, htexts]; rfl⟩

/-- **Every value has a text**, if the names of objects are in step with what these hold. -/
theorem exists_showValue? {s : Store} (h : ∀ o, (s.fields o).InStep) (v : Value) :
    ∃ text, s.showValue? v = some text := by
  cases v with
  | object o => exact exists_showObject? h _ [] o
  | _ => exact ⟨_, rfl⟩

/-- So have values in a row. -/
theorem exists_showValues? {s : Store} (h : ∀ o, (s.fields o).InStep) (vs : List Value) :
    ∃ text, s.showValues? vs = some text := by
  obtain ⟨texts, htexts⟩ := exists_mapM fun v (_ : v ∈ vs) => exists_showValue? h v
  exact ⟨_, by rw [showValues?, htexts]; rfl⟩

/-! ### Stores with the same texts -/

/-- Objects show alike in two stores that have the same fields, if all other values that these hold
do. -/
theorem showObject?_eq_of_shallow {s t : Store} (hfields : ∀ o, t.fields o = s.fields o)
    (hshallow : ∀ o name v, (s.fields o).get? name = some v → t.showShallow v = s.showShallow v)
    (depth : Nat) (path : List ObjectRef) (o : ObjectRef) :
    t.showObject? depth path o = s.showObject? depth path o := by
  induction depth generalizing path o with
  | zero => rfl
  | succ depth ih =>
    have hinner : t.showObject? depth (o :: path) = s.showObject? depth (o :: path) :=
      funext fun inner => ih (o :: path) inner
    rw [showObject?, showObject?, hfields, hinner]
    congr 2
    refine mapM_congr fun name _ => ?_
    simp only [showField?, hfields]
    cases hget : (s.fields o).get? name with
    | none => rfl
    | some v =>
      cases v with
      | object inner => rfl
      | _ => simp only [Option.bind_eq_bind, Option.bind_some, showWith?, hshallow _ _ _ hget]

/-- Values show alike in two stores with the same objects, if those that are no objects do. -/
theorem showValue?_eq_of_shallow {s t : Store} (hobjects : t.objects = s.objects)
    (hshallow : ∀ v, t.showShallow v = s.showShallow v) (v : Value) :
    t.showValue? v = s.showValue? v := by
  have hfields : ∀ o, t.fields o = s.fields o := by
    intro o
    simp only [fields, hobjects]
  cases v with
  | object o =>
    simp only [showValue?, showWith?, hobjects]
    exact showObject?_eq_of_shallow hfields (fun _ _ v _ => hshallow v) _ [] o
  | _ => simp only [showValue?, showWith?, hshallow]

/-! ### Scopes in texts -/

/-- The store without its scopes, in which every scope shows as a global one. -/
def unscoped (s : Store) : Store := { s with scopes := #[] }

namespace Sound

variable {s : Store}

/-- The one scope that a program can hold shows as the global one. -/
theorem showShallow_scope (h : s.Sound) {e : ScopeRef} (he : s.Admits (.scope e)) :
    s.showShallow (.scope e) = "<env global>" := by
  have hglobal : e = globalScope := he
  subst hglobal
  simp [showShallow, h.outermost]

theorem showShallow_unscoped (h : s.Sound) {v : Value} (hv : s.Admits v) :
    s.unscoped.showShallow v = s.showShallow v := by
  cases v with
  | scope e => rw [h.showShallow_scope hv]; rfl
  | _ => rfl

theorem showObject?_unscoped (h : s.Sound) (depth : Nat) (path : List ObjectRef) (o : ObjectRef) :
    s.unscoped.showObject? depth path o = s.showObject? depth path o := by
  have hfields : ∀ o, s.unscoped.fields o = s.fields o := fun _ => rfl
  refine showObject?_eq_of_shallow hfields (fun o name v hget => ?_) depth path o
  exact h.showShallow_unscoped (h.fields o _ (Bindings.mem_of_get? hget))

/-- **In the text of a value every scope shows as the global one**: the text does not change if the
scopes are taken away. -/
theorem showValue?_unscoped (h : s.Sound) {v : Value} (hv : s.Admits v) :
    s.unscoped.showValue? v = s.showValue? v := by
  cases v with
  | object o => exact h.showObject?_unscoped _ [] o
  | _ => exact congrArg some (h.showShallow_unscoped hv)

end Sound

end Store

end TreeScript
