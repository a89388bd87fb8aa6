import TreeScript.Proofs.Store.Scopes

/-!
# Scopes and the history of writes

What a name stands for in a scope can be read off the operations that made the scopes, without the
scopes themselves.  Each operation that makes a scope says which scope is around it, and so the
operations tell the way from a scope outwards.  Each write with an effect is one to a name in a scope:
assignments and writes to fields always have an effect, a declaration has one if the name stood for
nothing just before.  On the way outwards the first scope in which the name was ever written with an
effect decides, by the last such write.

## Main definitions

* `ScopeAct.parents`, `ScopeAct.Outwards` — the scope around each scope, and the way outwards.
* `Store.made` — the store that operations make.
* `Store.Writes` — an operation writes a value with an effect.
* `LastWrite` — the last write to a name in a scope.

## Main results

* `Store.MadeBy.outwards_iff` — the chain of a scope is the way outwards that the operations tell.
* `Store.MadeBy.get?_eq_some_iff` — **a scope binds a name to what was last written to it.**
* `Store.MadeBy.lookup_eq_iff_history` — **what a name stands for is told by the operations.**
-/

namespace TreeScript

open Relation (ReflTransGen TransGen)

/-! ### The way outwards -/

namespace ScopeAct

/-- The scope inside which an operation makes one, if it makes one. -/
def parent? : ScopeAct → Option (Option ScopeRef)
  | .newScope parent => some parent
  | _ => none

/-- The scopes inside which the operations make scopes, in order. -/
def parents (acts : List ScopeAct) : List (Option ScopeRef) := acts.filterMap parent?

/-- `Outwards acts e chain`: by the operations, the way from the scope `e` outwards is `chain`. -/
inductive Outwards (acts : List ScopeAct) : ScopeRef → List ScopeRef → Prop
  /-- The scope was made inside no other. -/
  | outermost {e} (h : (parents acts)[e.id]? = some none) : Outwards acts e [e]
  /-- The scope was made inside another, from which the way goes on. -/
  | inside {e parent chain} (h : (parents acts)[e.id]? = some (some parent))
      (hparent : Outwards acts parent chain) : Outwards acts e (e :: chain)

end ScopeAct

/-! ### Writes -/

namespace Store

/-- The store that operations make from nothing. -/
def made (acts : List ScopeAct) : Store := acts.foldl after {}

theorem made_snoc (acts : List ScopeAct) (act : ScopeAct) :
    made (acts ++ [act]) = (made acts).after act := by
  simp [made]

theorem MadeBy.eq_made {acts : List ScopeAct} {s : Store} (h : MadeBy acts s) : s = made acts := by
  induction h with
  | nothing => rfl
  | step _ _ ih => rw [made_snoc, ← ih]

/-- `Writes s act e name v`: in the store `s` the operation writes `v` to the name in the scope `e`,
with an effect. -/
inductive Writes (s : Store) : ScopeAct → ScopeRef → Text → Value → Prop
  /-- An assignment always has an effect. -/
  | assign {e name v} : Writes s (.assign e name v) e name v
  /-- So has a write to a field. -/
  | setField {e name v} : Writes s (.setField e name v) e name v
  /-- A declaration has an effect if the name stands for nothing. -/
  | declare {e name v} (hfree : s.lookup e name = .undefined) : Writes s (.declare e name v) e name v

end Store

/-- `LastWrite acts e name v`: of the writes to the name in the scope `e` that had an effect, the last
wrote `v`. -/
inductive LastWrite : List ScopeAct → ScopeRef → Text → Value → Prop
  /-- The last operation is such a write. -/
  | here {acts act e name v} (h : (Store.made acts).Writes act e name v) :
      LastWrite (acts ++ [act]) e name v
  /-- The last operation is not, and one before it was the last. -/
  | earlier {acts act e name v} (h : LastWrite acts e name v)
      (hnot : ∀ w, ¬ (Store.made acts).Writes act e name w) : LastWrite (acts ++ [act]) e name v

theorem not_lastWrite_nil {e : ScopeRef} {name : Text} {v : Value} : ¬ LastWrite [] e name v := by
  generalize hacts : ([] : List ScopeAct) = acts
  intro h
  cases h <;> simp at hacts

theorem lastWrite_snoc_iff {acts : List ScopeAct} {act : ScopeAct} {e : ScopeRef} {name : Text}
    {v : Value} : LastWrite (acts ++ [act]) e name v ↔
      (Store.made acts).Writes act e name v ∨
        LastWrite acts e name v ∧ ∀ w, ¬ (Store.made acts).Writes act e name w := by
  constructor
  · generalize hsnoc : acts ++ [act] = all
    intro h
    cases h with
    | here h =>
      obtain ⟨rfl, hact⟩ := List.append_inj' hsnoc rfl
      cases hact
      exact Or.inl h
    | earlier h hnot =>
      obtain ⟨rfl, hact⟩ := List.append_inj' hsnoc rfl
      cases hact
      exact Or.inr ⟨h, hnot⟩
  · rintro (h | ⟨h, hnot⟩)
    · exact .here h
    · exact .earlier h hnot

namespace Store

variable {s : Store}

/-! ### One operation -/

/-- A write with an effect assigns. -/
theorem Writes.after_eq {act : ScopeAct} {e : ScopeRef} {name : Text} {v : Value}
    (h : s.Writes act e name v) : s.after act = s.assign e name v := by
  cases h with
  | assign => rfl
  | setField => rfl
  | declare hfree => simp [after, declare?, hfree]

/-- It is one to a scope that is there, if the operation is allowed. -/
theorem Writes.hasScope {act : ScopeAct} {e : ScopeRef} {name : Text} {v : Value}
    (h : s.Writes act e name v) (hallowed : s.Allows act) : s.HasScope e := by
  cases h <;> exact hallowed

/-- An operation writes one value. -/
theorem Writes.unique {act : ScopeAct} {e : ScopeRef} {name : Text} {v w : Value}
    (h : s.Writes act e name v) (h' : s.Writes act e name w) : v = w := by
  cases h <;> cases h' <;> rfl

/-- An assignment to another name, or in another scope, leaves a binding alone. -/
theorem get?_assign_of_ne {e e' : ScopeRef} {n name : Text} (w : Value)
    (hother : e' = e → n ≠ name) :
    ((s.assign e' n w).scope e).bindings.get? name = (s.scope e).bindings.get? name := by
  rw [scope_assign]
  split
  · next hsame => exact Bindings.get?_set_of_ne w (hother hsame.1)
  · rfl

/-- An operation that does not write to a name in a scope leaves its binding alone. -/
theorem get?_after_of_not_writes {act : ScopeAct} {e : ScopeRef} {name : Text}
    (hnot : ∀ v, ¬ s.Writes act e name v) :
    ((s.after act).scope e).bindings.get? name = (s.scope e).bindings.get? name := by
  cases act with
  | newScope parent =>
    simp only [after]
    rw [scope_newScope]
    split
    · next hnew =>
      -- the place of the new scope was empty before
      have hempty : s.scope e = {} := by simp [hnew, scope, newScope]
      rw [hempty]
    · rfl
  | assign e' n w =>
    refine get?_assign_of_ne w ?_
    rintro rfl rfl
    exact hnot w .assign
  | setField e' n w =>
    refine get?_assign_of_ne w ?_
    rintro rfl rfl
    exact hnot w .setField
  | declare e' n w =>
    by_cases hfree : s.lookup e' n = .undefined
    · rw [(Writes.declare hfree).after_eq]
      refine get?_assign_of_ne w ?_
      rintro rfl rfl
      exact hnot w (.declare hfree)
    · simp [after, declare?, hfree]

/-! ### Histories -/

variable {acts : List ScopeAct}

/-- **A scope binds a name to what was last written to it**, with an effect. -/
theorem MadeBy.get?_eq_some_iff (h : MadeBy acts s) {e : ScopeRef} {name : Text} {v : Value} :
    (s.scope e).bindings.get? name = some v ↔ LastWrite acts e name v := by
  induction h with
  | nothing =>
    have hnone : (({} : Store).scope e).bindings.get? name = none := rfl
    simp [hnone, not_lastWrite_nil]
  | @step acts s act hacts hallowed ih =>
    rw [lastWrite_snoc_iff, ← hacts.eq_made]
    by_cases hwrites : ∃ w, s.Writes act e name w
    · obtain ⟨w, hw⟩ := hwrites
      rw [hw.after_eq, scope_assign, if_pos ⟨rfl, hw.hasScope hallowed⟩, Bindings.get?_set_self,
        Option.some.injEq]
      constructor
      · rintro rfl
        exact Or.inl hw
      · rintro (hv | ⟨-, hnot⟩)
        · exact hw.unique hv
        · exact absurd hw (hnot w)
    · have hnot : ∀ w, ¬ s.Writes act e name w := fun w hw => hwrites ⟨w, hw⟩
      rw [get?_after_of_not_writes hnot, ih]
      constructor
      · exact fun hlast => Or.inr ⟨hlast, hnot⟩
      · rintro (hv | ⟨hlast, -⟩)
        · exact absurd hv (hnot v)
        · exact hlast

/-- A scope does not bind a name that was never written to in it. -/
theorem MadeBy.get?_eq_none_iff (h : MadeBy acts s) {e : ScopeRef} {name : Text} :
    (s.scope e).bindings.get? name = none ↔ ∀ v, ¬ LastWrite acts e name v := by
  simp only [← h.get?_eq_some_iff]
  exact Option.eq_none_iff_forall_ne_some

/-- An operation that makes no scope leaves the scopes where they are. -/
theorem parents_after {act : ScopeAct} (hact : act.parent? = none) :
    (List.range (s.after act).scopes.size).map (fun i => (s.after act).parent? ⟨i⟩) =
      (List.range s.scopes.size).map fun i => s.parent? ⟨i⟩ := by
  rcases s.after_eq act with ⟨parent, rfl, -⟩ | heq | ⟨e, name, v, -, heq⟩
  · cases hact
  · rw [heq]
  · simp only [heq, size_scopes_assign, Store.parent?, enclosing_assign]

/-- **The operations tell how many scopes there are, and which is around each.** -/
theorem MadeBy.parents_eq (h : MadeBy acts s) :
    ScopeAct.parents acts = (List.range s.scopes.size).map fun i => s.parent? ⟨i⟩ := by
  induction h with
  | nothing => rfl
  | @step acts s act _ _ ih =>
    rw [ScopeAct.parents, List.filterMap_append, ← ScopeAct.parents, ih]
    cases hact : act.parent? with
    | none =>
      rw [parents_after hact]
      simp [hact]
    | some parent =>
      have hnew : act = .newScope parent := by
        cases act <;> simp [ScopeAct.parent?] at hact
        rw [hact]
      subst hnew
      have hsize : (s.after (.newScope parent)).scopes.size = s.scopes.size + 1 := by
        simp [after, newScope]
      rw [hsize, List.range_succ, List.map_append]
      congr 1
      · refine List.map_congr_left fun i hi => ?_
        have hne : ScopeRef.mk i ≠ (s.newScope parent).1 := by
          rintro ⟨⟩
          exact Nat.lt_irrefl _ (List.mem_range.mp hi)
        simp only [after, Store.parent?]
        rw [scope_newScope, if_neg hne]
      · have hself : ScopeRef.mk s.scopes.size = (s.newScope parent).1 := rfl
        simp only [after, Store.parent?, List.map_cons, List.map_nil]
        rw [scope_newScope, if_pos hself]
        cases parent <;> rfl

/-- The scope around a scope, by the operations and in the store. -/
theorem MadeBy.getElem?_parents (h : MadeBy acts s) {e : ScopeRef} {parent : Option ScopeRef} :
    (ScopeAct.parents acts)[e.id]? = some parent ↔ s.HasScope e ∧ s.parent? e = parent := by
  rw [h.parents_eq, List.getElem?_map]
  by_cases he : e.id < s.scopes.size
  · simp [HasScope, he]
  · simp [HasScope, he]

/-- **The chain of a scope is the way outwards that the operations tell.** -/
theorem MadeBy.outwards_iff (h : MadeBy acts s) {e : ScopeRef} (he : s.HasScope e)
    {chain : List ScopeRef} : ScopeAct.Outwards acts e chain ↔ chain = s.chain e := by
  have hnested := h.nested
  constructor
  · intro hout
    clear he
    induction hout with
    | @outermost e hparent =>
      have hnone : (s.scope e).enclosing = [] :=
        List.head?_eq_none_iff.mp (h.getElem?_parents.mp hparent).2
      rw [Store.chain, hnone]
    | @inside e parent chain hparent _ ih =>
      have hwithin : s.Within e parent := (h.getElem?_parents.mp hparent).2
      rw [Store.chain, (hnested.enclosing_eq hwithin).2, ih]
  · rintro rfl
    obtain ⟨n⟩ := e
    -- the links lead to older scopes
    induction n using Nat.strongRecOn with
    | _ n ih =>
      cases hparent : s.parent? ⟨n⟩ with
      | none =>
        have hnone : (s.scope ⟨n⟩).enclosing = [] := List.head?_eq_none_iff.mp hparent
        rw [Store.chain, hnone]
        exact .outermost (h.getElem?_parents.mpr ⟨he, hparent⟩)
      | some q =>
        obtain ⟨hlt, henclosing⟩ := hnested.enclosing_eq hparent
        rw [Store.chain, henclosing]
        exact .inside (h.getElem?_parents.mpr ⟨he, hparent⟩) (ih q.id hlt (Nat.lt_trans hlt he))

/-- A name stands for what the nearest scope of the chain that binds it says, or for nothing. -/
theorem lookup_eq_iff {e : ScopeRef} {name : Text} {v : Value} :
    s.lookup e name = v ↔
      (∃ nearer r beyond, s.chain e = nearer ++ r :: beyond ∧
        (∀ b ∈ nearer, (s.scope b).bindings.get? name = none) ∧ s.Binds r name v) ∨
      ((∀ r ∈ s.chain e, (s.scope r).bindings.get? name = none) ∧ v = .undefined) := by
  constructor
  · rintro rfl
    rcases s.unbound_or_nearest e name with hnone | ⟨nearer, r, beyond, v, hchain, hnearer, hr⟩
    · refine Or.inr ⟨hnone, ?_⟩
      rw [lookup, List.findSome?_eq_none_iff.mpr hnone]
      rfl
    · rw [lookup_of_nearest hchain hnearer hr]
      exact Or.inl ⟨nearer, r, beyond, hchain, hnearer, hr⟩
  · rintro (⟨nearer, r, beyond, hchain, hnearer, hr⟩ | ⟨hnone, rfl⟩)
    · exact lookup_of_nearest hchain hnearer hr
    · rw [lookup, List.findSome?_eq_none_iff.mpr hnone]
      rfl

/-- **What a name stands for is told by the operations that made the scopes.**  They tell the one way
from a scope outwards.  The name stands for `v` exactly if the first scope on it in which the name was
ever written, with an effect, was last written `v` there, or if there is none and `v` is undefined; and
the field of the scope holds the same.  A declaration has an effect, and succeeds, exactly if the name
stands for nothing; otherwise it fails and changes neither the store nor the history of any scope. -/
theorem MadeBy.lookup_eq_iff_history (h : MadeBy acts s) {e : ScopeRef} (he : s.HasScope e)
    (name : Text) :
    (∃ chain, (∀ c, ScopeAct.Outwards acts e c ↔ c = chain) ∧
      ∀ v, s.lookup e name = v ↔
        (∃ nearer r beyond, chain = nearer ++ r :: beyond ∧
          (∀ b ∈ nearer, ∀ w, ¬ LastWrite acts b name w) ∧ LastWrite acts r name v) ∨
        ((∀ r ∈ chain, ∀ w, ¬ LastWrite acts r name w) ∧ v = .undefined)) ∧
    s.field? (.scope e) name = some (s.lookup e name) ∧
    ∀ value,
      (s.lookup e name = .undefined →
        s.declare? e name value = .ok (s.after (.declare e name value)) ∧
        LastWrite (acts ++ [.declare e name value]) e name value) ∧
      (s.lookup e name ≠ .undefined →
        s.declare? e name value = .error ⟨.alreadyDefined, 0, name⟩ ∧
        s.after (.declare e name value) = s ∧
        ∀ e' n v, LastWrite (acts ++ [.declare e name value]) e' n v ↔ LastWrite acts e' n v) := by
  refine ⟨⟨s.chain e, fun c => h.outwards_iff he, fun v => ?_⟩, rfl, fun value => ⟨?_, ?_⟩⟩
  · simp only [lookup_eq_iff, Binds, h.get?_eq_some_iff, h.get?_eq_none_iff]
  · intro hfree
    refine ⟨by simp [after, declare?, hfree], .here ?_⟩
    rw [← h.eq_made]
    exact .declare hfree
  · intro hbound
    refine ⟨by simp [declare?, hbound], by simp [after, declare?, hbound], fun e' n v => ?_⟩
    have hnot : ∀ w, ¬ (made acts).Writes (.declare e name value) e' n w := by
      rw [← h.eq_made]
      rintro w ⟨⟩
      exact hbound ‹_›
    rw [lastWrite_snoc_iff]
    constructor
    · rintro (hv | ⟨hlast, -⟩)
      · exact absurd hv (hnot v)
      · exact hlast
    · exact fun hlast => Or.inr ⟨hlast, hnot⟩

/-- Three scopes, one inside another.  The name `x` is declared in the outermost, again in the next,
where that fails, and then written in both. -/
def layeredActs : List ScopeAct :=
  [.newScope none, .declare ⟨0⟩ "x" (.int 1), .newScope (some ⟨0⟩), .declare ⟨1⟩ "x" (.int 2),
    .assign ⟨1⟩ "x" (.int 3), .setField ⟨0⟩ "x" (.int 4), .newScope (some ⟨1⟩)]

theorem madeBy_layered : MadeBy layeredActs (made layeredActs) := by
  have hglobal := MadeBy.nothing.step (show Allows _ (.newScope none) by decide)
  have hfirst := hglobal.step (show Allows _ (.declare ⟨0⟩ "x" (.int 1)) by decide)
  have hnext := hfirst.step (show Allows _ (.newScope (some ⟨0⟩)) by decide)
  have hagain := hnext.step (show Allows _ (.declare ⟨1⟩ "x" (.int 2)) by decide)
  have hinner := hagain.step (show Allows _ (.assign ⟨1⟩ "x" (.int 3)) by decide)
  have houter := hinner.step (show Allows _ (.setField ⟨0⟩ "x" (.int 4)) by decide)
  exact houter.step (show Allows _ (.newScope (some ⟨1⟩)) by decide)

/-- In the innermost scope of `layeredActs` the name stands for what was last written in the scope
around it, and cannot be declared. -/
theorem lookup_eq_iff_history_layered :
    (made layeredActs).lookup ⟨2⟩ "x" = .int 3 ∧
    (∃ nearer r beyond, ScopeAct.Outwards layeredActs ⟨2⟩ (nearer ++ r :: beyond) ∧
      (∀ b ∈ nearer, ∀ w, ¬ LastWrite layeredActs b "x" w) ∧ LastWrite layeredActs r "x" (.int 3)) ∧
    (made layeredActs).declare? ⟨2⟩ "x" (.int 5) = .error ⟨.alreadyDefined, 0, "x"⟩ := by
  have hvalue : (made layeredActs).lookup ⟨2⟩ "x" = .int 3 := by rfl
  obtain ⟨⟨chain, hchain, hlookup⟩, -, hdeclare⟩ :=
    madeBy_layered.lookup_eq_iff_history (e := ⟨2⟩) (by decide) "x"
  refine ⟨hvalue, ?_, ((hdeclare (.int 5)).2 (by rw [hvalue]; decide)).1⟩
  rcases (hlookup _).mp hvalue with ⟨nearer, r, beyond, hsplit, hnearer, hr⟩ | ⟨-, hnone⟩
  · exact ⟨nearer, r, beyond, (hchain _).mpr hsplit.symm, hnearer, hr⟩
  · cases hnone

end Store

end TreeScript
