import Mathlib.Data.List.Chain
import TreeScript.Proofs.Store.Show
import TreeScript.Proofs.Syntax.Renaming

/-!
# Stores that differ by a renaming

When a parameter of a function has been renamed, a run keeps a store that differs from the one before
in two ways: the functions in it have other bodies, and the scopes of the calls of the renamed
function, and those made inside them, bind the new name for the old one.  Those scopes are marked.

A mark is inherited: what is made inside a marked scope is marked.  A marked scope in one that is not
is the scope of a call of the renamed function, and so binds the old name.  That is why a name is
found in the one store where it is found in the other, although the scopes around the marked ones
keep the old name: the old name is never looked for there.

The global scope is the only one that a program can hold as a value, and it is not marked; so reading
and writing the fields of a value is the same in both stores.

## Main definitions

* `Bindings.mapNames` — bindings with other names.
* `Store.Marked` — the marks of the scopes of a store are as described.
* `Store.Alike` — two stores that differ by a renaming in the marked scopes.

## Main results

* `Store.Alike.lookup` — **a name is found in the one store where its new name is in the other.**
* `Store.Alike.showValue?` — values have the same text.
* `Store.Alike.assign`, `Store.Alike.setField`, `Store.Alike.newObject`, `Store.Alike.newFunction`,
  `Store.Alike.openScope` — **every operation keeps two stores alike.**
* `Store.alike_initial` — the store with which a run starts is like itself.
-/

namespace TreeScript

/-! ### Bindings with other names -/

namespace Bindings

variable {bs : Bindings} {name : Text}

/-- The names that are bound. -/
def names (bs : Bindings) : List Text := bs.toList.map Prod.fst

/-- Bindings with every name mapped by `f`. -/
def mapNames (f : Text → Text) (bs : Bindings) : Bindings :=
  ⟨bs.toList.map fun b => (f b.1, b.2)⟩

theorem mapNames_id (bs : Bindings) : bs.mapNames id = bs := by
  obtain ⟨l⟩ := bs
  simp [mapNames]

theorem size_mapNames (f : Text → Text) (bs : Bindings) : (bs.mapNames f).size = bs.size := by
  simp [size, mapNames]

/-- What is read under the name that a name is mapped to, if no other name is mapped to it. -/
theorem get?_mapNames {f : Text → Text} (h : ∀ n ∈ bs.names, f n = f name → n = name) :
    (bs.mapNames f).get? (f name) = bs.get? name := by
  obtain ⟨l⟩ := bs
  simp only [get?, mapNames, names] at h ⊢
  induction l with
  | nil => rfl
  | cons b rest ih =>
    obtain ⟨n, v⟩ := b
    rw [List.map_cons, List.lookup_cons, List.lookup_cons]
    have hrest := ih fun m hm => h m (List.mem_cons_of_mem _ hm)
    by_cases hn : name = n
    · simp [hn]
    · have hf : f name ≠ f n := fun heq => hn (h n List.mem_cons_self heq.symm).symm
      rw [beq_false_of_ne hn, beq_false_of_ne hf]
      exact hrest

/-- Writing under the name that a name is mapped to, if no other name is mapped to it. -/
theorem mapNames_set {f : Text → Text} (h : ∀ n ∈ bs.names, f n = f name → n = name) (v : Value) :
    (bs.set name v).mapNames f = (bs.mapNames f).set (f name) v := by
  obtain ⟨l⟩ := bs
  simp only [set, mapNames, names, mk.injEq] at h ⊢
  induction l with
  | nil => rfl
  | cons b rest ih =>
    obtain ⟨n, w⟩ := b
    have hrest := ih fun m hm => h m (List.mem_cons_of_mem _ hm)
    rw [List.map_cons, write, write]
    by_cases hn : n = name
    · simp [hn]
    · have hf : f n ≠ f name := fun heq => hn (h n List.mem_cons_self heq)
      simp [hn, hf, hrest]

/-- The names after a write. -/
theorem mem_names_set {n : Text} {v : Value} :
    n ∈ (bs.set name v).names ↔ n = name ∨ n ∈ bs.names := by
  obtain ⟨l⟩ := bs
  simp only [set, names]
  induction l with
  | nil => simp [write]
  | cons b rest ih =>
    obtain ⟨m, w⟩ := b
    rw [write]
    by_cases hm : m = name
    · simp [hm]
    · simp only [hm, if_false, List.map_cons, List.mem_cons, ih]
      tauto

/-- A name without a value is not bound. -/
theorem not_mem_names_of_get? (h : bs.get? name = none) : name ∉ bs.names := by
  intro hmem
  obtain ⟨b, hb, rfl⟩ := List.mem_map.mp hmem
  have hne := List.lookup_eq_none_iff.mp h b hb
  simp at hne

end Bindings

/-! ### The scope of a call -/

namespace Store

section BindParams

variable (s : Store) (e e' : ScopeRef) (params : List Text) (args : List Value)

theorem enclosing_bindParams :
    ((bindParams s e params args).scope e').enclosing = (s.scope e').enclosing := by
  induction params generalizing s args with
  | nil => rfl
  | cons param params ih =>
    cases args with
    | nil => rfl
    | cons arg args => rw [bindParams, ih, enclosing_assign]

theorem size_scopes_bindParams :
    (bindParams s e params args).scopes.size = s.scopes.size := by
  induction params generalizing s args with
  | nil => rfl
  | cons param params ih =>
    cases args with
    | nil => rfl
    | cons arg args => rw [bindParams, ih, size_scopes_assign]

theorem scope_bindParams_of_ne (h : e ≠ e') :
    (bindParams s e params args).scope e' = s.scope e' := by
  induction params generalizing s args with
  | nil => rfl
  | cons param params ih =>
    cases args with
    | nil => rfl
    | cons arg args => rw [bindParams, ih, scope_assign_of_ne _ _ _ _ _ h]

end BindParams

/-- The names bound in a scope after a write. -/
theorem mem_names_assign {s : Store} {e e' : ScopeRef} {name n : Text} {v : Value} :
    n ∈ ((s.assign e name v).scope e').bindings.names ↔
      (n = name ∧ e = e' ∧ s.HasScope e) ∨ n ∈ (s.scope e').bindings.names := by
  rw [scope_assign]
  split
  · next h =>
    obtain ⟨rfl, he⟩ := h
    rw [Bindings.mem_names_set]
    simp [he]
  · next h => simp [h]

/-- Parameters that are bound to arguments are bound, and nothing else ceases to be. -/
theorem mem_names_bindParams {s : Store} {e : ScopeRef} (he : s.HasScope e) {params : List Text}
    {args : List Value} (hlen : args.length = params.length) {n : Text}
    (hn : n ∈ params ∨ n ∈ (s.scope e).bindings.names) :
    n ∈ ((bindParams s e params args).scope e).bindings.names := by
  induction params generalizing s args with
  | nil => exact hn.resolve_left List.not_mem_nil
  | cons param params ih =>
    cases args with
    | nil => cases hlen
    | cons arg args =>
      refine ih ((s.extends_assign e param arg).hasScope he) (Nat.succ.inj hlen) ?_
      rw [mem_names_assign]
      rcases hn with hn | hn
      · rcases List.mem_cons.mp hn with rfl | hn
        · exact Or.inr (Or.inl ⟨rfl, rfl, he⟩)
        · exact Or.inl hn
      · exact Or.inr (Or.inr hn)

section OpenScope

variable (s : Store) (closure : ScopeRef) (receiver : Value) (params : List Text)
  (args : List Value)

/-- The scope of a call is added behind all others. -/
theorem hasScope_openScope_iff {e : ScopeRef} :
    (openScope closure receiver params args s).2.HasScope e ↔
      s.HasScope e ∨ e = (openScope closure receiver params args s).1 := by
  obtain ⟨n⟩ := e
  have hsize : (openScope closure receiver params args s).2.scopes.size = s.scopes.size + 1 := by
    simp [openScope, size_scopes_bindParams, newScope]
  have hnew : (openScope closure receiver params args s).1 = ⟨s.scopes.size⟩ := rfl
  rw [HasScope, HasScope, hsize, hnew, ScopeRef.mk.injEq]
  show n < s.scopes.size + 1 ↔ n < s.scopes.size ∨ n = s.scopes.size
  omega

theorem scope_openScope_of_hasScope {e : ScopeRef} (he : s.HasScope e) :
    (openScope closure receiver params args s).2.scope e = s.scope e := by
  have hne : (s.newScope (some closure)).1 ≠ e := by
    rintro rfl
    exact Nat.lt_irrefl _ he
  simp only [openScope]
  rw [scope_bindParams_of_ne _ _ _ _ _ hne, scope_assign_of_ne _ _ _ _ _ hne, scope_newScope,
    if_neg hne.symm]

/-- It is made inside the scope of the function. -/
theorem chain_openScope :
    (openScope closure receiver params args s).2.chain (openScope closure receiver params args s).1 =
      (openScope closure receiver params args s).1 :: s.chain closure := by
  rw [chain]
  simp only [openScope]
  rw [enclosing_bindParams, enclosing_assign, scope_newScope, if_pos rfl]
  rfl

/-- The names of the parameters are bound in it. -/
theorem names_openScope (hlen : args.length = params.length) :
    params ⊆ ((openScope closure receiver params args s).2.scope
      (openScope closure receiver params args s).1).bindings.names := by
  intro n hn
  refine mem_names_bindParams ?_ hlen (Or.inl hn)
  exact (extends_assign ..).hasScope (s.hasScope_newScope (some closure))

end OpenScope

end Store

/-! ### Values that a program can hold -/

/-- A value that is no scope, or the global one. -/
def Value.GlobalOnly : Value → Prop
  | .scope e => e = globalScope
  | _ => True

theorem Store.Admits.globalOnly {s : Store} {v : Value} (h : s.Admits v) : v.GlobalOnly := by
  cases v with
  | scope e => exact h
  | _ => trivial

/-! ### Marked scopes -/

namespace Store

/-- How the marks of a scope and of the scope around it can differ. -/
def Inherits (g : Renaming) (inside : ScopeRef → Bool) (s : Store) (e parent : ScopeRef) : Prop :=
  g.Enters (inside parent) (inside e) (s.scope e).bindings.names

/-- The marks of the scopes are inherited, with the renamed function in between; and the global scope
is the only one that is held as a value, and is not marked. -/
structure Marked (g : Renaming) (inside : ScopeRef → Bool) (s : Store) : Prop where
  /-- The global scope is there. -/
  hasGlobal : s.HasScope globalScope
  /-- It is not marked. -/
  outermost : inside globalScope = false
  /-- The scopes around one that is there are there. -/
  present : ∀ e, s.HasScope e → ∀ r ∈ s.chain e, s.HasScope r
  /-- Marks are inherited from one to the next. -/
  chains : ∀ e, s.HasScope e → (s.chain e).IsChain (s.Inherits g inside)
  /-- The scope a function of the program was created in is there. -/
  closures : ∀ f params body e, (s.function f).code = .closure params body e → s.HasScope e
  /-- No function of the host is there, which could give any scope. -/
  hostFree : s.HostFree
  /-- Variables hold no other scope than the global one. -/
  bound : ∀ e, ∀ b ∈ (s.scope e).bindings.toList, b.2.GlobalOnly
  /-- Neither do fields. -/
  fields : ∀ o, ∀ b ∈ (s.fields o).values.toList, b.2.GlobalOnly

namespace Marked

variable {g : Renaming} {inside : ScopeRef → Bool} {s : Store}

/-- What a name stands for can be held. -/
theorem lookup (h : s.Marked g inside) (e : ScopeRef) (name : Text) :
    (s.lookup e name).GlobalOnly :=
  s.lookup_of_bound trivial h.bound e name

/-- So can what a field holds. -/
theorem field? (h : s.Marked g inside) {holder v : Value} {name : Text}
    (hv : s.field? holder name = some v) : v.GlobalOnly :=
  s.field?_of_bound trivial h.bound h.fields hv

/-- Marks stay inherited where scopes keep their places and their names. -/
theorem isChain_of_old {t : Store} {marks : ScopeRef → Bool} (h : s.Marked g inside)
    (hmarks : ∀ e, s.HasScope e → marks e = inside e)
    (hnames : ∀ e, s.HasScope e → (s.scope e).bindings.names ⊆ (t.scope e).bindings.names)
    {e : ScopeRef} (he : s.HasScope e) : (s.chain e).IsChain (t.Inherits g marks) := by
  refine (h.chains e he).imp_of_mem_imp fun a b ha hb hab => ?_
  have ha := h.present e he a ha
  have hb := h.present e he b hb
  rw [Inherits, hmarks a ha, hmarks b hb]
  exact ⟨hab.1, fun hinner => (hab.2 hinner).imp_right fun hold => hnames a ha hold⟩

theorem assign (h : s.Marked g inside) (e : ScopeRef) (name : Text) {v : Value}
    (hv : v.GlobalOnly) : (s.assign e name v).Marked g inside where
  hasGlobal := (s.extends_assign e name v).hasScope h.hasGlobal
  outermost := h.outermost
  present e' he' r hr := by
    rw [chain_assign] at hr
    refine (s.extends_assign e name v).hasScope (h.present e' ?_ r hr)
    simpa [HasScope] using he'
  chains e' he' := by
    rw [chain_assign]
    refine h.isChain_of_old (fun _ _ => rfl) (fun a _ n hn => ?_) (by simpa [HasScope] using he')
    exact mem_names_assign.mpr (Or.inr hn)
  closures f params body e' hcode :=
    (s.extends_assign e name v).hasScope (h.closures f params body e' hcode)
  hostFree := h.hostFree.of_functions (functions_assign ..)
  bound := bound_assign h.bound e name hv
  fields := h.fields

theorem setField (h : s.Marked g inside) (holder : Value) (name : Text) {v : Value}
    (hv : v.GlobalOnly) : (s.setField holder name v).Marked g inside := by
  cases holder with
  | object o =>
    exact
      { hasGlobal := h.hasGlobal
        outermost := h.outermost
        present := h.present
        chains := h.chains
        closures := h.closures
        hostFree := h.hostFree
        bound := h.bound
        fields := held_setField h.fields o name hv }
  | scope e => exact h.assign e name hv
  | _ => exact h

theorem newObject (h : s.Marked g inside) : s.newObject.2.Marked g inside where
  hasGlobal := h.hasGlobal
  outermost := h.outermost
  present := h.present
  chains := h.chains
  closures := h.closures
  hostFree := h.hostFree
  bound := h.bound
  fields := held_newObject h.fields

/-- A function of the program is made in a scope that is there. -/
theorem newClosure (h : s.Marked g inside) {e : ScopeRef} (he : s.HasScope e) (name : Text)
    (params : List Text) (body : Option Block) :
    (s.newFunction ⟨name, .closure params body e⟩).2.Marked g inside where
  hasGlobal := h.hasGlobal
  outermost := h.outermost
  present := h.present
  chains := h.chains
  closures r params' body' e' hcode := by
    rw [function_newFunction] at hcode
    split at hcode
    · cases hcode
      exact he
    · exact h.closures r params' body' e' hcode
  hostFree := by
    refine h.hostFree.newFunction fun arity body' hcode => ?_
    cases hcode
  bound := h.bound
  fields := h.fields

/-- The scope of a call is marked or not as the function says. -/
theorem openScope (h : s.Marked g inside) {closure : ScopeRef} (hclosure : s.HasScope closure)
    {receiver : Value} (hreceiver : receiver.GlobalOnly) {params : List Text} {args : List Value}
    (hargs : ∀ v ∈ args, v.GlobalOnly) (hlen : args.length = params.length) {inner : Bool}
    (hinner : g.Enters (inside closure) inner params) :
    (openScope closure receiver params args s).2.Marked g
      (Function.update inside (openScope closure receiver params args s).1 inner) := by
  have hscopes := fun e => s.hasScope_openScope_iff closure receiver params args (e := e)
  have hold := fun e => s.scope_openScope_of_hasScope closure receiver params args (e := e)
  have hchain := s.chain_openScope closure receiver params args
  have hnames := s.names_openScope closure receiver params args hlen
  have hbound := bound_openScope h.bound closure hreceiver params hargs
  have hfields := s.fields_openScope closure receiver params args
  have hfunctions := s.functions_openScope closure receiver params args
  have hfresh : ¬ s.HasScope (TreeScript.openScope closure receiver params args s).1 :=
    Nat.lt_irrefl _
  generalize TreeScript.openScope closure receiver params args s = opened at *
  obtain ⟨new, t⟩ := opened
  -- the marks of the scopes that were there stay, and so do their chains
  have hmarks : ∀ e, s.HasScope e → Function.update inside new inner e = inside e := by
    intro e he
    refine Function.update_of_ne ?_ _ _
    rintro rfl
    exact hfresh he
  have holdchain : ∀ e, s.HasScope e → t.chain e = s.chain e := by
    intro e he
    rw [chain, hold e he, chain]
  have hisChain : ∀ e, s.HasScope e →
      (s.chain e).IsChain (t.Inherits g (Function.update inside new inner)) := by
    intro e he
    refine h.isChain_of_old hmarks (fun a ha n hn => ?_) he
    rwa [hold a ha]
  exact
    { hasGlobal := (hscopes _).mpr (Or.inl h.hasGlobal)
      outermost := by rw [hmarks _ h.hasGlobal, h.outermost]
      present := fun e he r hr => by
        refine (hscopes r).mpr ?_
        rcases (hscopes e).mp he with he | rfl
        · rw [holdchain e he] at hr
          exact Or.inl (h.present e he r hr)
        · rw [hchain] at hr
          rcases List.mem_cons.mp hr with rfl | hr
          · exact Or.inr rfl
          · exact Or.inl (h.present closure hclosure r hr)
      chains := fun e he => by
        rcases (hscopes e).mp he with he | rfl
        · rw [holdchain e he]
          exact hisChain e he
        · rw [hchain, chain, List.isChain_cons_cons]
          refine ⟨?_, hisChain closure hclosure⟩
          rw [Inherits, hmarks closure hclosure, Function.update_self]
          exact ⟨hinner.1, fun hin => (hinner.2 hin).imp_right fun hmem => hnames hmem⟩
      closures := fun f params' body e hcode => by
        rw [function, hfunctions] at hcode
        exact (hscopes e).mpr (Or.inl (h.closures f params' body e hcode))
      hostFree := h.hostFree.of_functions hfunctions
      bound := hbound
      fields := fun o b hb => by
        rw [hfields] at hb
        exact h.fields o b hb }

end Marked

/-! ### Stores that are alike -/

end Store

/-- The codes of two functions of which one is the other renamed: a function of the language, or
functions of the program made in one scope, whose bodies are renamed with the flag that the mark of
that scope and the parameters allow. -/
inductive Code.Renamed (g : Renaming) (inside : ScopeRef → Bool) : Code → Code → Prop
  | native {arity p} : Code.Renamed g inside (.native arity p) (.native arity p)
  | closure {params body body' e inner} (hparams : g.new ∉ params)
      (henters : g.Enters (inside e) inner params) (hbody : OptionalRenamed g inner body body') :
      Code.Renamed g inside (.closure params body e) (.closure (params.map (g.name inner)) body' e)

/-- The store `t` is `s` with the names in marked scopes and the functions renamed. -/
structure Store.Alike (g : Renaming) (inside : ScopeRef → Bool) (s t : Store) : Prop where
  /-- The same objects. -/
  objects : t.objects = s.objects
  /-- As many scopes. -/
  size_scopes : t.scopes.size = s.scopes.size
  /-- As many functions. -/
  size_functions : t.functions.size = s.functions.size
  /-- Scopes are inside the same others. -/
  enclosing : ∀ e, (t.scope e).enclosing = (s.scope e).enclosing
  /-- They bind the same values, by new names if they are marked. -/
  bindings : ∀ e, (t.scope e).bindings = (s.scope e).bindings.mapNames (g.name (inside e))
  /-- The new name was not in use. -/
  fresh : ∀ e, g.new ∉ (s.scope e).bindings.names
  /-- Functions have the same names. -/
  names : ∀ f, (t.function f).name = (s.function f).name
  /-- Their bodies are renamed. -/
  code : ∀ f, (s.function f).code.Renamed g inside (t.function f).code

namespace Store.Alike

variable {g : Renaming} {inside : ScopeRef → Bool} {s t : Store}

theorem chain (h : s.Alike g inside t) (e : ScopeRef) : t.chain e = s.chain e := by
  rw [Store.chain, h.enclosing, Store.chain]

/-- No two names of a scope become one. -/
theorem eq_of_name_eq (h : s.Alike g inside t) {e : ScopeRef} {b : Bool} {name : Text}
    (hname : name ≠ g.new) :
    ∀ n ∈ (s.scope e).bindings.names, g.name b n = g.name b name → n = name := by
  intro n hn heq
  refine g.eq_of_name_eq (fun hnew => ?_) hname heq
  exact h.fresh e (hnew ▸ hn)

/-- What one scope binds a name to. -/
theorem get? (h : s.Alike g inside t) (e : ScopeRef) {name : Text} (hname : name ≠ g.new) :
    (t.scope e).bindings.get? (g.name (inside e) name) = (s.scope e).bindings.get? name := by
  rw [h.bindings, Bindings.get?_mapNames (h.eq_of_name_eq hname)]

/-- What a name stands for in scopes whose marks are inherited. -/
theorem findSome?_eq (h : s.Alike g inside t) {name : Text} (hname : name ≠ g.new) :
    ∀ (rest : List ScopeRef) (e : ScopeRef), (e :: rest).IsChain (s.Inherits g inside) →
      ((e :: rest).findSome? fun r => (t.scope r).bindings.get? (g.name (inside e) name)) =
        (e :: rest).findSome? fun r => (s.scope r).bindings.get? name
  | [], e, _ => by simp only [List.findSome?_cons, h.get? e hname, List.findSome?_nil]
  | parent :: rest, e, hchain => by
    rw [List.isChain_cons_cons] at hchain
    obtain ⟨hinherits, hchain⟩ := hchain
    have hcons : ∀ f : ScopeRef → Option Value,
        (e :: parent :: rest).findSome? f = (f e).or ((parent :: rest).findSome? f) := by
      intro f
      rw [List.findSome?_cons]
      cases f e <;> rfl
    rw [hcons, hcons, h.get? e hname]
    cases hget : (s.scope e).bindings.get? name with
    | some v => rfl
    | none =>
      -- the name is looked for further out, where it is the same name unless it is the old one,
      -- and then the scope of the renamed function has bound it
      have hsame : g.name (inside e) name = g.name (inside parent) name := by
        by_cases hold : name = g.old
        · have hunbound := Bindings.not_mem_names_of_get? hget
          rw [hold] at hunbound
          have hmarks : inside e = inside parent := by
            cases hparent : inside parent with
            | true => exact hinherits.1 hparent
            | false =>
              rw [Bool.eq_false_iff]
              intro he
              rcases hinherits.2 he with hmarked | hbound
              · rw [hparent] at hmarked
                cases hmarked
              · exact hunbound hbound
          rw [hmarks]
        · rw [g.name_of_ne _ hold, g.name_of_ne _ hold]
      rw [Option.none_or, Option.none_or, hsame]
      exact h.findSome?_eq hname rest parent hchain

/-- **A name is found in the one store where its new name is found in the other.** -/
theorem lookup (h : s.Alike g inside t) (hs : s.Marked g inside) {e : ScopeRef}
    (he : s.HasScope e) {name : Text} (hname : name ≠ g.new) :
    t.lookup e (g.name (inside e) name) = s.lookup e name := by
  rw [Store.lookup, h.chain, Store.chain,
    h.findSome?_eq hname _ e (hs.chains e he), ← Store.chain, ← Store.lookup]

/-- The fields of a value that a program can hold are the same. -/
theorem field? (h : s.Alike g inside t) (hs : s.Marked g inside) {holder : Value}
    (hholder : holder.GlobalOnly) {name : Text} (hname : name ≠ g.new) :
    t.field? holder name = s.field? holder name := by
  cases holder with
  | object o => simp only [Store.field?, Store.fields, h.objects]
  | scope e =>
    have he : e = globalScope := hholder
    have hlookup := h.lookup hs hs.hasGlobal hname
    rw [hs.outermost] at hlookup
    simp only [Store.field?, he]
    exact congrArg some hlookup
  | _ => rfl

/-- **Values have the same text.** -/
theorem showValue? (h : s.Alike g inside t) (v : Value) : t.showValue? v = s.showValue? v := by
  refine showValue?_eq_of_shallow h.objects (fun v => ?_) v
  cases v with
  | function f => simp only [showShallow, h.names]
  | scope e => simp only [showShallow, h.enclosing, h.bindings, Bindings.size_mapNames]
  | _ => rfl

/-- So have values in a row. -/
theorem showValues? (h : s.Alike g inside t) (vs : List Value) :
    t.showValues? vs = s.showValues? vs := by
  rw [Store.showValues?, Store.showValues?, mapM_congr fun v _ => h.showValue? v]

theorem hasScope_iff (h : s.Alike g inside t) {e : ScopeRef} : t.HasScope e ↔ s.HasScope e := by
  rw [HasScope, HasScope, h.size_scopes]

/-- The marks of scopes that are not there do not matter. -/
theorem of_marks (h : s.Alike g inside t) (hs : s.Marked g inside) {marks : ScopeRef → Bool}
    (hmarks : ∀ e, s.HasScope e → marks e = inside e) : s.Alike g marks t where
  objects := h.objects
  size_scopes := h.size_scopes
  size_functions := h.size_functions
  enclosing := h.enclosing
  bindings e := by
    by_cases he : s.HasScope e
    · rw [hmarks e he, h.bindings]
    · have hempty : (s.scope e).bindings = {} := by
        have hle : s.scopes.size ≤ e.id := Nat.le_of_not_lt he
        simp [scope, hle]
      rw [h.bindings, hempty]
      rfl
  fresh := h.fresh
  names := h.names
  code f := by
    have hcode := h.code f
    have hclosures := hs.closures f
    generalize (s.function f).code = code at hcode hclosures ⊢
    generalize (t.function f).code = code' at hcode ⊢
    cases hcode with
    | native => exact .native
    | closure hparams henters hbody =>
      rw [← hmarks _ (hclosures _ _ _ rfl)] at henters
      exact .closure hparams henters hbody

theorem assign (h : s.Alike g inside t) (e : ScopeRef) {name : Text} (hname : name ≠ g.new)
    (v : Value) : (s.assign e name v).Alike g inside (t.assign e (g.name (inside e) name) v) where
  objects := h.objects
  size_scopes := by rw [size_scopes_assign, size_scopes_assign, h.size_scopes]
  size_functions := h.size_functions
  enclosing e' := by rw [enclosing_assign, enclosing_assign, h.enclosing]
  bindings e' := by
    rw [scope_assign, scope_assign]
    by_cases hwritten : e = e' ∧ s.HasScope e
    · obtain ⟨rfl, he⟩ := hwritten
      rw [if_pos ⟨rfl, h.hasScope_iff.mpr he⟩, if_pos ⟨rfl, he⟩]
      show (t.scope e).bindings.set _ v = _
      rw [h.bindings, Bindings.mapNames_set (h.eq_of_name_eq hname)]
    · rw [if_neg hwritten, if_neg fun hw => hwritten ⟨hw.1, h.hasScope_iff.mp hw.2⟩, h.bindings]
  fresh e' hmem := by
    rcases mem_names_assign.mp hmem with ⟨hnew, -⟩ | hmem
    · exact hname hnew.symm
    · exact h.fresh e' hmem
  names := h.names
  code := h.code

/-- Fields of objects keep their names. -/
theorem setFieldObject (h : s.Alike g inside t) (o : ObjectRef) (name : Text) (v : Value) :
    (s.setField (.object o) name v).Alike g inside (t.setField (.object o) name v) := by
  have hobjects : (t.setField (.object o) name v).objects =
      (s.setField (.object o) name v).objects := by
    simp only [Store.setField, h.objects]
  exact { h with objects := hobjects }

theorem setField (h : s.Alike g inside t) (hs : s.Marked g inside) {holder : Value}
    (hholder : holder.GlobalOnly) {name : Text} (hname : name ≠ g.new) (v : Value) :
    (s.setField holder name v).Alike g inside (t.setField holder name v) := by
  cases holder with
  | object o => exact h.setFieldObject o name v
  | scope e =>
    have he : e = globalScope := hholder
    have hassign := h.assign e hname v
    rw [he, hs.outermost] at hassign
    rw [he]
    exact hassign
  | _ => exact h

theorem newObject (h : s.Alike g inside t) : s.newObject.2.Alike g inside t.newObject.2 := by
  have hobjects : t.newObject.2.objects = s.newObject.2.objects := by
    simp only [Store.newObject, h.objects]
  exact { h with objects := hobjects }

theorem newFunction (h : s.Alike g inside t) {f f' : Function} (hname : f'.name = f.name)
    (hcode : f.code.Renamed g inside f'.code) :
    (s.newFunction f).2.Alike g inside (t.newFunction f').2 where
  objects := h.objects
  size_scopes := h.size_scopes
  size_functions := by simp only [Store.newFunction, Array.size_push, h.size_functions]
  enclosing := h.enclosing
  bindings := h.bindings
  fresh := h.fresh
  names r := by
    have hplace : (t.newFunction f').1 = (s.newFunction f).1 :=
      congrArg FunctionRef.mk h.size_functions
    rw [function_newFunction, function_newFunction, hplace]
    split
    · exact hname
    · exact h.names r
  code r := by
    have hplace : (t.newFunction f').1 = (s.newFunction f).1 :=
      congrArg FunctionRef.mk h.size_functions
    rw [function_newFunction, function_newFunction, hplace]
    split
    · exact hcode
    · exact h.code r

theorem newScope (h : s.Alike g inside t) (parent : ScopeRef) :
    (s.newScope (some parent)).2.Alike g inside (t.newScope (some parent)).2 := by
  have hplace : (t.newScope (some parent)).1 = (s.newScope (some parent)).1 :=
    congrArg ScopeRef.mk h.size_scopes
  exact
    { objects := h.objects
      size_scopes := by simp only [Store.newScope, Array.size_push, h.size_scopes]
      size_functions := h.size_functions
      enclosing := fun e => by
        rw [scope_newScope, scope_newScope, hplace]
        split
        · simp only [Option.map_some, h.chain]
        · exact h.enclosing e
      bindings := fun e => by
        rw [scope_newScope, scope_newScope, hplace]
        split
        · rfl
        · exact h.bindings e
      fresh := fun e hmem => by
        rw [scope_newScope] at hmem
        split at hmem
        · cases hmem
        · exact h.fresh e hmem
      names := h.names
      code := h.code }

theorem bindParams (h : s.Alike g inside t) (e : ScopeRef) {params : List Text}
    (hparams : g.new ∉ params) (args : List Value) :
    (bindParams s e params args).Alike g inside
      (bindParams t e (params.map (g.name (inside e))) args) := by
  induction params generalizing s t args with
  | nil => exact h
  | cons param params ih =>
    cases args with
    | nil => exact h
    | cons arg args =>
      rw [List.mem_cons, not_or] at hparams
      exact ih (h.assign e (Ne.symm hparams.1) arg) hparams.2 args

/-- The scope of a call binds the parameters by their new names if it is marked. -/
theorem openScope (h : s.Alike g inside t) (hs : s.Marked g inside) (closure : ScopeRef)
    (receiver : Value) {params : List Text} (hparams : g.new ∉ params) (args : List Value)
    (inner : Bool) :
    (openScope closure receiver params args s).2.Alike g
      (Function.update inside (openScope closure receiver params args s).1 inner)
      (openScope closure receiver (params.map (g.name inner)) args t).2 := by
  have hmarks : ∀ e, s.HasScope e →
      Function.update inside (s.newScope (some closure)).1 inner e = inside e := by
    intro e he
    refine Function.update_of_ne ?_ _ _
    rintro rfl
    exact Nat.lt_irrefl _ he
  have hplace : (t.newScope (some closure)).1 = (s.newScope (some closure)).1 :=
    congrArg ScopeRef.mk h.size_scopes
  have hnew := (h.of_marks hs hmarks).newScope closure
  have hthis := hnew.assign (s.newScope (some closure)).1 g.new_ne_this.symm receiver
  have hbind := hthis.bindParams (s.newScope (some closure)).1 hparams args
  rw [g.name_this, Function.update_self] at hbind
  simp only [TreeScript.openScope]
  rw [hplace]
  exact hbind

end Store.Alike

/-! ### The store with which a run starts -/

/-- As long as no scope is marked, a sound store is as described. -/
theorem Store.Sound.marked {s : Store} (h : s.Sound) (g : Renaming) :
    s.Marked g fun _ => false where
  hasGlobal := h.hasGlobal
  outermost := rfl
  present _ he _ hr := h.hasScope_of_mem_chain he hr
  chains e _ := by
    generalize s.chain e = l
    induction l with
    | nil => exact .nil
    | cons a l ih => exact ih.cons fun _ _ => g.enters_self false _
  closures := h.closures
  hostFree := h.hostFree
  bound e b hb := (h.bound e b hb).globalOnly
  fields o b hb := (h.fields o b hb).globalOnly

/-- A store with native functions only in which the new name is not bound is like itself. -/
theorem Store.alike_self {s : Store} {g : Renaming}
    (hfresh : ∀ e, g.new ∉ (s.scope e).bindings.names)
    (hnative : ∀ f, ∃ arity p, (s.function f).code = .native arity p) :
    s.Alike g (fun _ => false) s where
  objects := rfl
  size_scopes := rfl
  size_functions := rfl
  enclosing _ := rfl
  bindings e := by rw [g.name_false, Bindings.mapNames_id]
  fresh := hfresh
  names _ := rfl
  code f := by
    obtain ⟨arity, p, hcode⟩ := hnative f
    rw [hcode]
    exact .native

/-- The store with which a run starts is like itself. -/
theorem Store.alike_initial (g : Renaming) :
    Store.initial.Alike g (fun _ => false) Store.initial := by
  have hinitial : (∀ e, g.new ∉ (Store.initial.scope e).bindings.names) ∧
      ∀ f, ∃ arity p, (Store.initial.function f).code = .native arity p := by
    refine initial_induction (P := fun s => (∀ e, g.new ∉ (s.scope e).bindings.names) ∧
      ∀ f, ∃ arity p, (s.function f).code = .native arity p) ?_ fun s name arity p hmem hs => ?_
    · refine ⟨fun e hnew => ?_, fun f => ⟨.variadic, .print, rfl⟩⟩
      rcases mem_names_assign.mp hnew with ⟨hglobal, -⟩ | hnew
      · exact g.new_ne_global hglobal
      · rw [scope_newScope] at hnew
        split at hnew <;> cases hnew
    · refine ⟨fun e hnew => ?_, fun f => ?_⟩
      · rcases mem_names_assign.mp hnew with ⟨hname, -⟩ | hnew
        · exact g.new_ne_of_mem_builtins hmem hname
        · exact hs.1 e hnew
      · have hcode := function_newFunction s ⟨name, .native arity p⟩ f
        split at hcode
        · exact ⟨arity, p, congrArg Function.code hcode⟩
        · obtain ⟨arity', p', hold⟩ := hs.2 f
          exact ⟨arity', p', (congrArg Function.code hcode).trans hold⟩
  exact alike_self hinitial.1 hinitial.2

end TreeScript
