import TreeScript.Proofs.Store.Sound

/-!
# Scopes made by operations

Scopes are made inside others, names are declared and assigned in them, and fields are written to
them as to objects.  Whatever the operations are, the scopes form trees: those around a scope are the
ones that are met on the way along its links outwards.

A declaration asks what the name stands for, and the nearest scope that binds it decides that.  Now a
name can be bound to undefined, by an undefined argument or an assignment.  Such a binding hides
those beyond it, and a declaration then succeeds although a scope further out holds a value for the
name.  There is no other way to shadow one.

## Main definitions

* `ScopeAct` — an operation on scopes.
* `Store.after`, `Store.MadeBy` — the store after an operation, and a store that operations made
  from nothing.
* `Store.Nested` — every scope is outermost or inside an older one.
* `Store.Binds`, `Store.Hides` — a scope binds a name, and the chain of a scope hides a value.

## Main results

* `Store.MadeBy.nested` — **operations make trees of scopes.**
* `Store.Nested.mem_enclosing_iff` — the scopes around a scope are those on the way outwards.
* `Store.declare?_ok_iff` — the nearest binding decides whether a declaration succeeds.
* `Store.MadeBy.declare_shadows_iff` — **a declaration shadows a value exactly if it is hidden.**
-/

namespace TreeScript

open Relation (ReflTransGen TransGen)

/-! ### Operations -/

/-- An operation on the scopes of a store. -/
inductive ScopeAct where
  /-- Makes a scope inside another, or a global one. -/
  | newScope (parent : Option ScopeRef)
  /-- Binds a new name. -/
  | declare (e : ScopeRef) (name : Text) (value : Value)
  /-- Writes a name. -/
  | assign (e : ScopeRef) (name : Text) (value : Value)
  /-- Writes a field of the scope, seen as a value. -/
  | setField (e : ScopeRef) (name : Text) (value : Value)
  deriving DecidableEq

/-- The name that an operation writes, with the value. -/
def ScopeAct.written? : ScopeAct → Option (Text × Value)
  | .newScope _ => none
  | .declare _ name value | .assign _ name value | .setField _ name value => some (name, value)

namespace Store

/-- The store after an operation.  A declaration that fails changes nothing. -/
def after (s : Store) : ScopeAct → Store
  | .newScope parent => (s.newScope parent).2
  | .declare e name value =>
    match s.declare? e name value with
    | .ok t => t
    | .error _ => s
  | .assign e name value => s.assign e name value
  | .setField e name value => s.setField (.scope e) name value

/-- The scope that an operation works on is there. -/
def Allows (s : Store) : ScopeAct → Prop
  | .newScope parent => ∀ e ∈ parent, s.HasScope e
  | .declare e _ _ | .assign e _ _ | .setField e _ _ => s.HasScope e

instance (s : Store) : DecidablePred s.Allows
  | .newScope parent => inferInstanceAs (Decidable (∀ e ∈ parent, s.HasScope e))
  | .declare e _ _ | .assign e _ _ | .setField e _ _ => inferInstanceAs (Decidable (s.HasScope e))

/-- The operations, one after another, make the store from nothing. -/
inductive MadeBy : List ScopeAct → Store → Prop
  | nothing : MadeBy [] {}
  | step {acts : List ScopeAct} {s : Store} {act : ScopeAct} :
      MadeBy acts s → s.Allows act → MadeBy (acts ++ [act]) (s.after act)

/-- What an operation does: it makes a scope, changes nothing, or assigns what it writes. -/
theorem after_eq (s : Store) (act : ScopeAct) :
    (∃ parent, act = .newScope parent ∧ s.after act = (s.newScope parent).2) ∨ s.after act = s ∨
      ∃ e name v, act.written? = some (name, v) ∧ s.after act = s.assign e name v := by
  cases act with
  | newScope parent => exact Or.inl ⟨parent, rfl, rfl⟩
  | assign e name v => exact Or.inr (Or.inr ⟨e, name, v, rfl, rfl⟩)
  | setField e name v => exact Or.inr (Or.inr ⟨e, name, v, rfl, rfl⟩)
  | declare e name v =>
    by_cases hfree : s.lookup e name = .undefined
    · exact Or.inr (Or.inr ⟨e, name, v, rfl, by simp [after, declare?, hfree]⟩)
    · exact Or.inr (Or.inl (by simp [after, declare?, hfree]))

/-! ### Trees of scopes -/

/-- Every scope is outermost or inside an older one. -/
def Nested (s : Store) : Prop :=
  ∀ e, (s.scope e).enclosing = [] ∨
    ∃ parent : ScopeRef, parent.id < e.id ∧ (s.scope e).enclosing = s.chain parent

namespace Nested

variable {s : Store}

theorem assign (h : s.Nested) (e : ScopeRef) (name : Text) (v : Value) :
    (s.assign e name v).Nested := by
  intro e'
  simp only [enclosing_assign, chain_assign]
  exact h e'

theorem newScope (h : s.Nested) {parent : Option ScopeRef}
    (hparent : ∀ e ∈ parent, s.HasScope e) : (s.newScope parent).2.Nested := by
  -- a scope that is older than another, or is there, is not the one that is made
  have hold : ∀ e : ScopeRef, e.id < s.scopes.size →
      (s.newScope parent).2.chain e = s.chain e := by
    intro e he
    rw [chain, scope_newScope, if_neg, chain]
    rintro rfl
    exact Nat.lt_irrefl _ he
  intro e
  rw [scope_newScope]
  split
  · next hnew =>
    cases hp : parent with
    | none => exact Or.inl rfl
    | some q =>
      have hq := hparent q hp
      refine Or.inr ⟨q, ?_, ?_⟩
      · rw [hnew]
        exact hq
      · rw [← hp, hold q hq, hp]
        rfl
  · rcases h e with hnone | ⟨q, hlt, hq⟩
    · exact Or.inl hnone
    · have hsize : e.id < s.scopes.size := by
        refine Decidable.byContradiction fun hout => ?_
        have hscope : s.scope e = {} := by
          simp [scope, Nat.le_of_not_lt hout]
        rw [hscope] at hq
        cases hq
      exact Or.inr ⟨q, hlt, by rw [hold q (Nat.lt_trans hlt hsize), hq]⟩

/-- The scope around a scope heads those around it. -/
theorem enclosing_eq (h : s.Nested) {a b : ScopeRef} (hab : s.Within a b) :
    b.id < a.id ∧ (s.scope a).enclosing = s.chain b := by
  rcases h a with hnone | ⟨q, hlt, hq⟩
  · simp [Within, parent?, hnone] at hab
  · have hb : q = b := by simpa [Within, parent?, hq, chain] using hab
    subst hb
    exact ⟨hlt, hq⟩

/-- **The scopes around a scope are those that are met on the way outwards.** -/
theorem mem_enclosing_iff (h : s.Nested) {e a : ScopeRef} :
    a ∈ (s.scope e).enclosing ↔ TransGen s.Within e a := by
  constructor
  · obtain ⟨n⟩ := e
    -- the links lead to older scopes
    induction n using Nat.strongRecOn with
    | _ n ih =>
      intro ha
      rcases h ⟨n⟩ with hnone | ⟨q, hlt, hq⟩
      · rw [hnone] at ha
        cases ha
      · have hlink : s.Within ⟨n⟩ q := by
          rw [Within, parent?, hq]
          rfl
        rw [hq] at ha
        rcases List.mem_cons.mp ha with rfl | ha
        · exact .single hlink
        · exact .head hlink (ih q.id hlt ha)
  · intro hway
    induction hway using TransGen.head_induction_on with
    | single hlink =>
      rw [(h.enclosing_eq hlink).2]
      exact List.mem_cons_self
    | head hlink _ ih =>
      rw [(h.enclosing_eq hlink).2]
      exact List.mem_cons_of_mem _ ih

/-- The chain of a scope is the scope with those on the way outwards. -/
theorem mem_chain_iff (h : s.Nested) {e a : ScopeRef} :
    a ∈ s.chain e ↔ ReflTransGen s.Within e a := by
  rw [chain, List.mem_cons, h.mem_enclosing_iff, Relation.reflTransGen_iff_eq_or_transGen]

end Nested

/-! ### Bindings of made scopes -/

/-- A scope binds a name to a value. -/
def Binds (s : Store) (e : ScopeRef) (name : Text) (v : Value) : Prop :=
  (s.scope e).bindings.get? name = some v

/-- What is bound after an assignment was bound before, or was assigned. -/
theorem binds_of_assign {s : Store} {e r : ScopeRef} {name n : Text} {v w : Value}
    (h : (s.assign e name v).Binds r n w) : s.Binds r n w ∨ (n = name ∧ w = v) := by
  rw [Binds, scope_assign] at h
  split at h
  · by_cases hn : name = n
    · subst hn
      rw [Bindings.get?_set_self] at h
      exact Or.inr ⟨rfl, (Option.some.inj h).symm⟩
    · rw [Bindings.get?_set_of_ne v hn] at h
      exact Or.inl h
  · exact Or.inl h

/-- **Operations make trees of scopes.** -/
theorem MadeBy.nested {acts : List ScopeAct} {s : Store} (h : MadeBy acts s) : s.Nested := by
  induction h with
  | nothing => exact fun e => Or.inl rfl
  | @step acts s act _ hallowed ih =>
    rcases s.after_eq act with ⟨parent, rfl, heq⟩ | heq | ⟨e, name, v, -, heq⟩
    · exact heq ▸ ih.newScope hallowed
    · exact heq.symm ▸ ih
    · exact heq ▸ ih.assign e name v

/-- What is bound was written by one of the operations. -/
theorem MadeBy.written {acts : List ScopeAct} {s : Store} (h : MadeBy acts s) {r : ScopeRef}
    {name : Text} {v : Value} (hbound : s.Binds r name v) :
    ∃ act ∈ acts, act.written? = some (name, v) := by
  induction h with
  | nothing => cases hbound
  | @step acts s act _ _ ih =>
    have hkept : s.Binds r name v → ∃ a ∈ acts ++ [act], a.written? = some (name, v) := by
      intro hs
      obtain ⟨a, ha, hwritten⟩ := ih hs
      exact ⟨a, List.mem_append_left _ ha, hwritten⟩
    rcases s.after_eq act with ⟨parent, rfl, heq⟩ | heq | ⟨e, n, w, hact, heq⟩
    · rw [heq, Binds, scope_newScope] at hbound
      split at hbound
      · cases hbound
      · exact hkept hbound
    · exact hkept (heq ▸ hbound)
    · rw [heq] at hbound
      rcases binds_of_assign hbound with hs | ⟨rfl, rfl⟩
      · exact hkept hs
      · exact ⟨act, List.mem_append_right _ (List.mem_singleton_self act), hact⟩

/-! ### What a declaration finds -/

/-- The chain of the scope hides a value of the name: a scope of the chain binds the name to
undefined, none before it binds the name, and one after it binds it to something else. -/
def Hides (s : Store) (e : ScopeRef) (name : Text) : Prop :=
  ∃ before r beyond a v, s.chain e = before ++ r :: beyond ∧
    (∀ b ∈ before, (s.scope b).bindings.get? name = none) ∧ s.Binds r name .undefined ∧
    a ∈ beyond ∧ s.Binds a name v ∧ v ≠ .undefined

/-- The nearest scope that binds a name decides what it stands for. -/
theorem lookup_of_nearest {s : Store} {e r : ScopeRef} {name : Text} {v : Value}
    {before beyond : List ScopeRef} (hchain : s.chain e = before ++ r :: beyond)
    (hbefore : ∀ b ∈ before, (s.scope b).bindings.get? name = none) (hr : s.Binds r name v) :
    s.lookup e name = v := by
  have hnone : before.findSome? (fun b => (s.scope b).bindings.get? name) = none :=
    List.findSome?_eq_none_iff.mpr hbefore
  have hsome : (s.scope r).bindings.get? name = some v := hr
  rw [lookup, hchain, List.findSome?_append, hnone, List.findSome?_cons, hsome]
  rfl

/-- A name is bound by no scope of a chain, or by a nearest one. -/
theorem unbound_or_nearest (s : Store) (e : ScopeRef) (name : Text) :
    (∀ r ∈ s.chain e, (s.scope r).bindings.get? name = none) ∨
      ∃ before r beyond v, s.chain e = before ++ r :: beyond ∧
        (∀ b ∈ before, (s.scope b).bindings.get? name = none) ∧ s.Binds r name v := by
  cases hfound : (s.chain e).findSome? fun r => (s.scope r).bindings.get? name with
  | none => exact Or.inl (List.findSome?_eq_none_iff.mp hfound)
  | some v =>
    obtain ⟨before, r, beyond, hchain, hr, hbefore⟩ := List.findSome?_eq_some_iff.mp hfound
    exact Or.inr ⟨before, r, beyond, v, hchain, hbefore, hr⟩

/-- A declaration succeeds if the name stands for nothing. -/
theorem declare?_ok_iff {s : Store} {e : ScopeRef} {name : Text} {value : Value} :
    (∃ t, s.declare? e name value = .ok t) ↔ s.lookup e name = .undefined := by
  by_cases hfree : s.lookup e name = .undefined
  · simp [declare?, hfree]
  · simp [declare?, hfree]

/-- If the name stands for nothing, no scope of the chain holds a value for it, or the chain hides
one. -/
theorem unbound_or_hides {s : Store} {e : ScopeRef} {name : Text}
    (hfree : s.lookup e name = .undefined) :
    (∀ r ∈ s.chain e, ∀ v, s.Binds r name v → v = .undefined) ∨ s.Hides e name := by
  rcases s.unbound_or_nearest e name with hnone | ⟨before, r, beyond, v, hchain, hbefore, hr⟩
  · refine Or.inl fun r hr v hv => ?_
    have := hnone r hr
    rw [Binds, this] at hv
    cases hv
  · rw [lookup_of_nearest hchain hbefore hr] at hfree
    subst hfree
    by_cases hbeyond : ∃ a ∈ beyond, ∃ v, s.Binds a name v ∧ v ≠ .undefined
    · obtain ⟨a, ha, v, hv, hne⟩ := hbeyond
      exact Or.inr ⟨before, r, beyond, a, v, hchain, hbefore, hr, ha, hv, hne⟩
    · refine Or.inl fun q hq v hv => ?_
      rw [hchain] at hq
      rcases List.mem_append.mp hq with hq | hq
      · rw [Binds, hbefore q hq] at hv
        cases hv
      · rcases List.mem_cons.mp hq with rfl | hq
        · exact Option.some.inj (hv.symm.trans hr)
        · exact Decidable.byContradiction fun hne => hbeyond ⟨q, hq, v, hv, hne⟩

/-- A declaration succeeds if no scope of the chain holds a value for the name. -/
theorem lookup_of_unbound {s : Store} {e : ScopeRef} {name : Text}
    (hfree : ∀ r ∈ s.chain e, ∀ v, s.Binds r name v → v = .undefined) :
    s.lookup e name = .undefined := by
  rcases s.unbound_or_nearest e name with hnone | ⟨before, r, beyond, v, hchain, hbefore, hr⟩
  · rw [lookup, List.findSome?_eq_none_iff.mpr hnone]
    rfl
  · have hmem : r ∈ s.chain e := by
      rw [hchain]
      exact List.mem_append_right _ List.mem_cons_self
    rw [lookup_of_nearest hchain hbefore hr, hfree r hmem v hr]

/-- What is beyond a scope of a chain is around its first scope. -/
theorem mem_enclosing_of_beyond {s : Store} {e r a : ScopeRef} {before beyond : List ScopeRef}
    (hchain : s.chain e = before ++ r :: beyond) (ha : a ∈ beyond) :
    a ∈ (s.scope e).enclosing := by
  cases before with
  | nil =>
    have htail : (s.scope e).enclosing = beyond := (List.cons.inj hchain).2
    exact htail ▸ ha
  | cons b rest =>
    have htail : (s.scope e).enclosing = rest ++ r :: beyond := (List.cons.inj hchain).2
    rw [htail]
    exact List.mem_append_right _ (List.mem_cons_of_mem _ ha)

/-- **A declaration shadows a value exactly if the chain of the scope hides one.**  In every store that
operations make, and for every scope: a declaration that succeeds finds no value for the name in the
scopes further out, unless one is hidden, and then it does.  If no scope of the chain holds a value
for the name, it succeeds.  And nothing is hidden under a name to which no operation writes
undefined. -/
theorem MadeBy.declare_shadows_iff {acts : List ScopeAct} {s : Store} (h : MadeBy acts s)
    (e : ScopeRef) (name : Text) (value : Value) :
    (((∃ t, s.declare? e name value = .ok t) →
        ∀ a v, TransGen s.Within e a → s.Binds a name v → v = .undefined) ↔ ¬ s.Hides e name) ∧
    ((∀ a v, ReflTransGen s.Within e a → s.Binds a name v → v = .undefined) →
      ∃ t, s.declare? e name value = .ok t) ∧
    ((∀ act ∈ acts, act.written? ≠ some (name, .undefined)) → ¬ s.Hides e name) := by
  have hnested := h.nested
  simp only [declare?_ok_iff]
  refine ⟨⟨?_, ?_⟩, ?_, ?_⟩
  · rintro hkept ⟨before, r, beyond, a, v, hchain, hbefore, hr, ha, hv, hne⟩
    have hfree : s.lookup e name = .undefined := lookup_of_nearest hchain hbefore hr
    have hout : TransGen s.Within e a :=
      hnested.mem_enclosing_iff.mp (mem_enclosing_of_beyond hchain ha)
    exact hne (hkept hfree a v hout hv)
  · intro hhides hfree a v hout hv
    rcases unbound_or_hides hfree with hunbound | hhidden
    · have ha : a ∈ s.chain e := List.mem_cons_of_mem _ (hnested.mem_enclosing_iff.mpr hout)
      exact hunbound a ha v hv
    · exact absurd hhidden hhides
  · intro hunbound
    refine lookup_of_unbound fun r hr v hv => ?_
    exact hunbound r v (hnested.mem_chain_iff.mp hr) hv
  · rintro hwrites ⟨before, r, beyond, a, v, -, -, hr, -⟩
    obtain ⟨act, hact, hwritten⟩ := h.written hr
    exact hwrites act hact hwritten

/-- A global scope holds a value for `x`.  Inside it is the scope of a call whose argument `x` is
undefined. -/
def vacantActs : List ScopeAct :=
  [.newScope none, .assign ⟨0⟩ "x" (.int 5), .newScope (some ⟨0⟩), .assign ⟨1⟩ "x" .undefined]

/-- The store that `vacantActs` makes. -/
def vacant : Store := vacantActs.foldl after {}

theorem madeBy_vacant : MadeBy vacantActs vacant := by
  have hglobal := MadeBy.nothing.step (show Allows _ (.newScope none) by decide)
  have hvalue := hglobal.step (show Allows _ (.assign ⟨0⟩ "x" (.int 5)) by decide)
  have hinner := hvalue.step (show Allows _ (.newScope (some ⟨0⟩)) by decide)
  exact hinner.step (show Allows _ (.assign ⟨1⟩ "x" .undefined) by decide)

/-- In `vacant` the value of `x` is hidden from the inner scope, where it is shadowed. -/
theorem declare_shadows_iff_vacant : vacant.Hides ⟨1⟩ "x" ∧
    ¬ ((∃ t, vacant.declare? ⟨1⟩ "x" (.int 7) = .ok t) →
      ∀ a v, TransGen vacant.Within ⟨1⟩ a → vacant.Binds a "x" v → v = .undefined) := by
  have hhides : vacant.Hides ⟨1⟩ "x" :=
    ⟨[], ⟨1⟩, [⟨0⟩], ⟨0⟩, .int 5, rfl, List.forall_mem_nil _, rfl, List.mem_singleton_self _, rfl,
      by decide⟩
  have hiff := (madeBy_vacant.declare_shadows_iff ⟨1⟩ "x" (.int 7)).1
  exact ⟨hhides, fun hkept => hiff.mp hkept hhides⟩

/-- A declaration can succeed although a scope further out holds a value for the name, which it then
shadows. -/
theorem declare_succeeds_over_value : ∃ acts s e a t, MadeBy acts s ∧ s.HasScope e ∧
    s.declare? e "x" (.int 7) = .ok t ∧ TransGen s.Within e a ∧ s.Binds a "x" (.int 5) ∧
    t.lookup a "x" = .int 5 ∧ t.lookup e "x" = .int 7 :=
  ⟨vacantActs, vacant, ⟨1⟩, ⟨0⟩, vacant.assign ⟨1⟩ "x" (.int 7), madeBy_vacant, by decide, by rfl,
    .single rfl, rfl, by rfl, by rfl⟩

end Store

end TreeScript
