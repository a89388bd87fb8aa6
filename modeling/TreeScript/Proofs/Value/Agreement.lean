import TreeScript.Proofs.Store.Sound
import TreeScript.Proofs.Text.Bytes
import TreeScript.Proofs.Value.Order

/-!
# Equality and order agree

Values are tested for equality in one way and compared in another.  Any two values can be tested:
integers, texts and undefined by what they are, functions, scopes and objects by which they are, so
that a new one differs from all others whatever it holds.  Only two integers, or two texts, can be
compared.  Where they can, the two ways agree: neither value comes before the other exactly if they
are the same.

## Main definitions

* `Value.Identical` — which values are the same.
* `Value.Compares` — which values are compared, and how.
* `Store.Contains` — what a value refers to is in a store.
* `AgreementLaws` — what a test for equality and a comparison have to do with each other.

## Main results

* `Value.same_iff_eq` — **the test for equality is equality.**
* `Value.same_iff_identical` — the test for equality tells whether values are the same.
* `Value.compare?_eq_ok_iff` — the comparison of values.
* `Store.Contains.ne_newObject`, `Store.Contains.ne_newFunction`, `Store.Contains.ne_newScope` —
  **what is made is the same as nothing that was there before.**
* `Value.equality_order_agree` — **equality and order agree.**
-/

namespace TreeScript

/-! ### Equality -/

/-- **The test for equality, kind by kind, is equality.** -/
theorem Value.same_iff_eq {a b : Value} : a.same b = true ↔ a = b := by
  cases a with
  | undefined => cases b <;> simp [same]
  | int m => cases b <;> simp [same]
  | str s => cases b <;> simp [same]
  | _ => simp [same]

theorem Value.same_eq_false_iff {a b : Value} : a.same b = false ↔ a ≠ b := by
  rw [← Bool.not_eq_true, same_iff_eq]

/-- Two values are the same: integers, texts and undefined by content, all others by their place. -/
inductive Value.Identical : Value → Value → Prop
  /-- There is one value that means no value. -/
  | undefined : Identical .undefined .undefined
  /-- Integers by their number. -/
  | int {m n : Int64} (h : m.toInt = n.toInt) : Identical (.int m) (.int n)
  /-- Texts by their bytes. -/
  | str {s t : String} (h : Text.bytes s = Text.bytes t) : Identical (.str s) (.str t)
  /-- A function is the same as itself only. -/
  | function (f : FunctionRef) : Identical (.function f) (.function f)
  /-- So is a scope. -/
  | scope (e : ScopeRef) : Identical (.scope e) (.scope e)
  /-- So is an object. -/
  | object (o : ObjectRef) : Identical (.object o) (.object o)

theorem Value.identical_iff_eq {a b : Value} : a.Identical b ↔ a = b := by
  constructor
  · intro h
    cases h with
    | int h => rw [Int64.toInt_inj.mp h]
    | str h => rw [Text.bytes_ofString_inj.mp h]
    | _ => rfl
  · rintro rfl
    cases a with
    | undefined => exact .undefined
    | int n => exact .int rfl
    | str s => exact .str rfl
    | function f => exact .function f
    | scope e => exact .scope e
    | object o => exact .object o

/-- The test for equality tells whether values are the same. -/
theorem Value.same_iff_identical {a b : Value} : a.same b = true ↔ a.Identical b := by
  rw [identical_iff_eq, same_iff_eq]

namespace Store

/-- What a value refers to is in the store. -/
def Contains (s : Store) : Value → Prop
  | .function f => s.HasFunction f
  | .scope e => s.HasScope e
  | .object o => s.HasObject o
  | _ => True

variable {s : Store} {v : Value}

/-- A new object is no value that was there before. -/
theorem Contains.ne_newObject (h : s.Contains v) : .object s.newObject.1 ≠ v := by
  rintro rfl
  exact Nat.lt_irrefl _ h

/-- A new function is no value that was there before. -/
theorem Contains.ne_newFunction (h : s.Contains v) (f : Function) :
    .function (s.newFunction f).1 ≠ v := by
  rintro rfl
  exact Nat.lt_irrefl _ h

/-- A new scope is no value that was there before. -/
theorem Contains.ne_newScope (h : s.Contains v) (parent : Option ScopeRef) :
    .scope (s.newScope parent).1 ≠ v := by
  rintro rfl
  exact Nat.lt_irrefl _ h

end Store

/-! ### Order -/

namespace Value

/-- `Compares a b o`: the values can be compared, and their order is `o`. -/
inductive Compares : Value → Value → Ordering → Prop
  /-- Integers by their number. -/
  | int (m n : Int64) : Compares (.int m) (.int n) (compare m.toInt n.toInt)
  /-- Texts by their bytes. -/
  | str (s t : String) : Compares (.str s) (.str t) (compare (Text.bytes s) (Text.bytes t))

/-- Only integers and texts are compared. -/
theorem compare?_eq_ok_iff {a b : Value} {o : Ordering} :
    a.compare? b = .ok o ↔ Compares a b o := by
  constructor
  · intro h
    cases a with
    | int m =>
      cases b with
      | int n =>
        cases h
        exact .int m n
      | _ => cases h
    | str s =>
      cases b with
      | str t =>
        cases h
        rw [Text.toUTF8_toList, Text.toUTF8_toList]
        exact .str s t
      | _ => cases h
    | _ => cases b <;> cases h
  · intro h
    cases h with
    | int m n => rfl
    | str s t => rw [compare?, order?, Text.toUTF8_toList, Text.toUTF8_toList]

/-- Values that cannot be compared are refused. -/
theorem compare?_eq_error {a b : Value} (hints : ¬ (a.kind = .int ∧ b.kind = .int))
    (htexts : ¬ (a.kind = .string ∧ b.kind = .string)) :
    a.compare? b =
      .error ⟨.type, 0, "cannot compare " ++ a.kind.text ++ " with " ++ b.kind.text⟩ := by
  rw [compare?, order?_eq_none_iff.mpr ⟨hints, htexts⟩]

namespace Compares

variable {a b c : Value} {o o' : Ordering}

/-- Two integers and two texts can be compared. -/
theorem exists_iff : (∃ o, Compares a b o) ↔
    a.kind = .int ∧ b.kind = .int ∨ a.kind = .string ∧ b.kind = .string := by
  constructor
  · rintro ⟨o, h⟩
    cases h with
    | int m n => exact Or.inl ⟨rfl, rfl⟩
    | str s t => exact Or.inr ⟨rfl, rfl⟩
  · intro h
    cases a <;> cases b <;> simp only [kind, reduceCtorEq, and_false, false_and, or_self] at h
    · exact ⟨_, .int _ _⟩
    · exact ⟨_, .str _ _⟩

/-- **Neither value comes before the other exactly if they are the same.** -/
theorem eq_iff (h : Compares a b o) : o = .eq ↔ a = b := by
  cases h with
  | int m n => rw [Std.compare_eq_iff_eq, Int64.toInt_inj, int.injEq]
  | str s t => rw [Std.compare_eq_iff_eq, Text.bytes_ofString_inj, str.injEq]

/-- Exchanging the values turns the order round. -/
theorem swap (h : Compares a b o) : Compares b a o.swap := by
  cases h with
  | int m n =>
    rw [← Std.OrientedOrd.eq_swap]
    exact .int n m
  | str s t =>
    rw [← Std.OrientedOrd.eq_swap]
    exact .str t s

/-- What does not come after a value does not come after what that does not come after. -/
theorem trans (h : Compares a b o) (h' : Compares b c o') (ho : o.isLE = true)
    (ho' : o'.isLE = true) : ∃ o'', Compares a c o'' ∧ o''.isLE = true := by
  cases h with
  | int m n =>
    cases h' with
    | int _ k => exact ⟨_, .int m k, Std.TransCmp.isLE_trans ho ho'⟩
  | str s t =>
    cases h' with
    | str _ u => exact ⟨_, .str s u, Std.TransCmp.isLE_trans ho ho'⟩

end Compares

end Value

/-! ### Laws -/

/-- What a test for equality and a comparison of values have to do with each other. -/
structure AgreementLaws (same : Value → Value → Bool)
    (compare? : Value → Value → Except Failure Ordering) : Prop where
  /-- Equality is an equivalence. -/
  equivalence : Equivalence fun a b => same a b = true
  /-- Integers, texts and undefined are equal by content, and all other values by identity. -/
  identical : ∀ a b, same a b = true ↔ a.Identical b
  /-- What is made is equal to nothing that was there before, whatever it holds. -/
  fresh : ∀ (s : Store) (v : Value), s.Contains v →
    same (.object s.newObject.1) v = false ∧
    (∀ f, same (.function (s.newFunction f).1) v = false) ∧
    ∀ parent, same (.scope (s.newScope parent).1) v = false
  /-- A comparison succeeds exactly on two integers and on two texts. -/
  comparable : ∀ a b, (∃ o, compare? a b = .ok o) ↔
    a.kind = .int ∧ b.kind = .int ∨ a.kind = .string ∧ b.kind = .string
  /-- Otherwise it fails, and says what it was given. -/
  refused : ∀ a b, ¬ (∃ o, compare? a b = .ok o) → compare? a b =
    .error ⟨.type, 0, "cannot compare " ++ a.kind.text ++ " with " ++ b.kind.text⟩
  /-- Values that can be compared are equal exactly if neither comes before the other. -/
  agree : ∀ a b o, compare? a b = .ok o → (o = .eq ↔ same a b = true)
  /-- Exchanging the values turns the order round. -/
  swap : ∀ a b o, compare? a b = .ok o → compare? b a = .ok o.swap
  /-- Not coming after is transitive. -/
  trans : ∀ a b c o o', compare? a b = .ok o → compare? b c = .ok o' → o.isLE = true →
    o'.isLE = true → ∃ o'', compare? a c = .ok o'' ∧ o''.isLE = true
  /-- Of two values that can be compared one does not come after the other. -/
  total : ∀ a b o, compare? a b = .ok o →
    o.isLE = true ∨ ∃ o', compare? b a = .ok o' ∧ o'.isLE = true
  /-- Integers come in the order of numbers. -/
  integers : ∀ m n : Int64, ∃ o, compare? (.int m) (.int n) = .ok o ∧
    (o = .lt ↔ m.toInt < n.toInt)
  /-- Texts come in the lexicographic order of their bytes, which is that of their code points. -/
  texts : ∀ s t : String, ∃ o, compare? (.str s) (.str t) = .ok o ∧
    (o = .lt ↔ Text.bytes s < Text.bytes t) ∧ (o = .lt ↔ Text.codePoints s < Text.codePoints t)

/-- **Equality and order agree.** -/
theorem Value.equality_order_agree : AgreementLaws Value.same Value.compare? where
  equivalence := by
    simp only [same_iff_eq]
    exact ⟨fun _ => rfl, Eq.symm, Eq.trans⟩
  identical a b := same_iff_identical
  fresh s v hv := by
    simp only [same_eq_false_iff]
    exact ⟨hv.ne_newObject, hv.ne_newFunction, hv.ne_newScope⟩
  comparable a b := by
    simp only [compare?_eq_ok_iff]
    exact Compares.exists_iff
  refused a b h := by
    simp only [compare?_eq_ok_iff, Compares.exists_iff, not_or] at h
    exact compare?_eq_error h.1 h.2
  agree a b o h := by
    rw [(compare?_eq_ok_iff.mp h).eq_iff, same_iff_eq]
  swap a b o h := compare?_eq_ok_iff.mpr (compare?_eq_ok_iff.mp h).swap
  trans a b c o o' h h' ho ho' := by
    simp only [compare?_eq_ok_iff] at h h' ⊢
    exact h.trans h' ho ho'
  total a b o h := by
    have hswap := compare?_eq_ok_iff.mpr (compare?_eq_ok_iff.mp h).swap
    cases o with
    | lt | eq => exact Or.inl rfl
    | gt => exact Or.inr ⟨_, hswap, rfl⟩
  integers m n := ⟨_, rfl, Std.compare_eq_lt⟩
  texts s t := by
    refine ⟨_, compare?_eq_ok_iff.mpr (.str s t), compare_bytes_eq_lt, ?_⟩
    rw [compare_bytes_eq_lt]
    exact Text.bytes_ofString_lt_iff s t

end TreeScript
