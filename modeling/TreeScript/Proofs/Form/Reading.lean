import TreeScript.Form.Reader
import TreeScript.Form.Program

/-!
# What a reading comes to

Four things are said of a computation on a reading.  It *yields* a value if it ends with it, and
notes no problem, whenever no problem was noted before and no alias was followed.  It *ensures* a
property if every value it ends with has it, whatever the reading was before.  It *passes* only what
has a property if every value has it that it ends with while no problem is noted.  And it *keeps* the
problems that were noted before it: then, if it *ends* without one, so did what went before.

## Main definitions

* `Reading.Quiet` — no problem was noted and no alias followed.
* `Read.Yields` — a computation ends with a value, without a problem.
* `Read.Ensures` — what a computation ends with has a property.
* `Read.Passes` — what a computation ends with has a property, if no problem is left.
* `Read.Keeps` — a computation takes back no problem.
* `Read.Ends` — a computation ends with a value, and no problem is left.

## Main results

* `Read.Yields.finish` — **a computation that yields a value is not rejected.**
* `Read.Passes.finish` — **what is not rejected has the property that a computation passes.**
-/

namespace TreeScript.Form

open Document (Node Entry)

/-- No problem was noted and no alias followed. -/
structure Reading.Quiet (r : Reading) : Prop where
  problems : r.problems = []
  aliased : r.aliased = 0
  inAlias : r.inAlias = false

namespace Read

variable {α β : Type}

/-! ### Yielding a value -/

/-- The computation ends with `a`, and no problem is noted, if none was before. -/
def Yields (x : Read α) (a : α) : Prop :=
  ∀ r : Reading, r.Quiet → ∃ r' : Reading, r'.Quiet ∧ x r = .ok (a, r')

theorem yields_pure (a : α) : (pure a : Read α).Yields a :=
  fun r hr => ⟨r, hr, rfl⟩

theorem Yields.bind {x : Read α} {k : α → Read β} {a : α} {b : β} (hx : x.Yields a)
    (hk : (k a).Yields b) : (x >>= k).Yields b := by
  intro r hr
  obtain ⟨r₁, hr₁, hx⟩ := hx r hr
  obtain ⟨r₂, hr₂, hk⟩ := hk r₁ hr₁
  refine ⟨r₂, hr₂, ?_⟩
  show (x r >>= fun p => k p.1 p.2) = _
  rw [hx]
  exact hk

/-- A computation that looks at the reading first. -/
theorem Yields.get {k : Reading → Read β} {b : β} (hk : ∀ r : Reading, r.Quiet → (k r).Yields b) :
    (get >>= k : Read β).Yields b :=
  fun r hr => hk r hr r hr

/-- What a computation yields is determined. -/
theorem Yields.unique {x : Read α} {a b : α} (ha : x.Yields a) (hb : x.Yields b) : a = b := by
  obtain ⟨r₁, -, h₁⟩ := ha {} ⟨rfl, rfl, rfl⟩
  obtain ⟨r₂, -, h₂⟩ := hb {} ⟨rfl, rfl, rfl⟩
  rw [h₁] at h₂
  cases h₂
  rfl

/-- Counting a node notes no problem. -/
theorem yields_visit : visit.Yields () := by
  intro r hr
  refine ⟨{ r with visits := r.visits + 1 }, ⟨hr.problems, hr.aliased, hr.inAlias⟩, ?_⟩
  obtain ⟨problems, visits, aliased, inAlias⟩ := r
  obtain ⟨rfl, rfl, rfl⟩ := hr
  rfl

/-- A computation with counts of its own. -/
theorem Yields.apart {x : Read α} {a : α} (hx : x.Yields a) : (Read.apart x).Yields a := by
  intro r hr
  obtain ⟨r', hr', hx⟩ := hx { r with visits := 0, aliased := 0, inAlias := false }
    ⟨hr.problems, rfl, rfl⟩
  refine ⟨{ r with problems := r'.problems }, ⟨hr'.problems, hr.aliased, hr.inAlias⟩, ?_⟩
  show (x { r with visits := 0, aliased := 0, inAlias := false } >>= fun p =>
    Except.ok (p.1, { r with problems := p.2.problems })) = _
  rw [hx]
  rfl

/-- **A computation that yields a value is not rejected.** -/
theorem Yields.finish {x : Read α} {a : α} (hx : x.Yields a) : x.finish = .ok a := by
  obtain ⟨r', hr', hx⟩ := hx {} ⟨rfl, rfl, rfl⟩
  have hrun : x.run {} = .ok (a, r') := hx
  simp only [Read.finish, hrun, hr'.problems, List.isEmpty_nil, if_true]

/-! ### Ensuring a property -/

/-- Every value that the computation ends with has the property `P`. -/
def Ensures (x : Read α) (P : α → Prop) : Prop :=
  ∀ (r r' : Reading) (a : α), x r = .ok (a, r') → P a

theorem ensures_pure {P : α → Prop} {a : α} (h : P a) : (pure a : Read α).Ensures P := by
  rintro r r' _ ⟨⟩
  exact h

theorem ensures_reject {P : α → Prop} (reason : Rejection) : (reject reason : Read α).Ensures P := by
  intro r r' a h
  cases h

theorem ensures_true (x : Read α) : x.Ensures fun _ => True :=
  fun _ _ _ _ => trivial

theorem Ensures.mono {x : Read α} {P Q : α → Prop} (hx : x.Ensures P) (h : ∀ a, P a → Q a) :
    x.Ensures Q :=
  fun r r' a ha => h a (hx r r' a ha)

/-- A computation after another one, which ended. -/
theorem bind_eq_ok {x : Read α} {k : α → Read β} {r r' : Reading} {b : β}
    (h : (x >>= k) r = .ok (b, r')) : ∃ a r₁, x r = .ok (a, r₁) ∧ k a r₁ = .ok (b, r') := by
  change (x r >>= fun p => k p.1 p.2) = _ at h
  cases hx : x r with
  | error reason =>
    rw [hx] at h
    cases h
  | ok p =>
    rw [hx] at h
    exact ⟨p.1, p.2, rfl, h⟩

theorem Ensures.bind {x : Read α} {k : α → Read β} {P : α → Prop} {Q : β → Prop}
    (hx : x.Ensures P) (hk : ∀ a, P a → (k a).Ensures Q) : (x >>= k).Ensures Q := by
  intro r r' b h
  obtain ⟨a, r₁, ha, hb⟩ := bind_eq_ok h
  exact hk a (hx r r₁ a ha) r₁ r' b hb

/-- A computation whose value says nothing, before another one. -/
theorem Ensures.after {k : α → Read β} {Q : β → Prop} (x : Read α) (hk : ∀ a, (k a).Ensures Q) :
    (x >>= k).Ensures Q :=
  (ensures_true x).bind fun a _ => hk a

theorem Ensures.ite {c : Prop} [Decidable c] {x y : Read α} {P : α → Prop}
    (hx : c → x.Ensures P) (hy : ¬ c → y.Ensures P) : (if c then x else y).Ensures P := by
  split
  · next h => exact hx h
  · next h => exact hy h

theorem ensures_meaning (tag text : String) :
    (meaning tag text).Ensures fun m => Document.meaning tag text = .ok m := by
  unfold meaning
  split
  · next m hm => exact ensures_pure hm
  · exact ensures_reject _

/-- What an alias stands for is read as such, and leaves the same problems. -/
theorem throughAlias_eq_ok {x : Read α} {r r' : Reading} {a : α}
    (h : Read.throughAlias x r = .ok (a, r')) :
    ∃ r₁, x { r with inAlias := true } = .ok (a, r₁) ∧ r₁.problems = r'.problems := by
  obtain ⟨_, _, ⟨⟩, h⟩ := bind_eq_ok h
  obtain ⟨_, _, ⟨⟩, h⟩ := bind_eq_ok h
  obtain ⟨a', r₁, hx, h⟩ := bind_eq_ok h
  cases h
  exact ⟨r₁, hx, rfl⟩

/-- What is read with counts of its own leaves the same problems. -/
theorem apart_eq_ok {x : Read α} {r r' : Reading} {a : α} (h : Read.apart x r = .ok (a, r')) :
    ∃ r₁, x { r with visits := 0, aliased := 0, inAlias := false } = .ok (a, r₁) ∧
      r₁.problems = r'.problems := by
  obtain ⟨_, _, ⟨⟩, h⟩ := bind_eq_ok h
  obtain ⟨_, _, ⟨⟩, h⟩ := bind_eq_ok h
  obtain ⟨a', r₁, hx, h⟩ := bind_eq_ok h
  cases h
  exact ⟨r₁, hx, rfl⟩

theorem Ensures.throughAlias {x : Read α} {P : α → Prop} (hx : x.Ensures P) :
    (Read.throughAlias x).Ensures P := by
  intro r r' a h
  obtain ⟨r₁, h, -⟩ := throughAlias_eq_ok h
  exact hx _ r₁ a h

theorem Ensures.apart {x : Read α} {P : α → Prop} (hx : x.Ensures P) :
    (Read.apart x).Ensures P := by
  intro r r' a h
  obtain ⟨r₁, h, -⟩ := apart_eq_ok h
  exact hx _ r₁ a h

/-! ### Ending without a problem -/

/-- A value that the computation ends with has the property `P`, if no problem is left then. -/
def Passes (x : Read α) (P : α → Prop) : Prop :=
  ∀ (r r' : Reading) (a : α), x r = .ok (a, r') → r'.problems = [] → P a

theorem Ensures.passes {x : Read α} {P : α → Prop} (hx : x.Ensures P) : x.Passes P :=
  fun r r' a h _ => hx r r' a h

/-- Only the last computation counts. -/
theorem Passes.after {k : α → Read β} {Q : β → Prop} (x : Read α) (hk : ∀ a, (k a).Passes Q) :
    (x >>= k).Passes Q := by
  intro r r' b h hproblems
  obtain ⟨a, r₁, -, hb⟩ := bind_eq_ok h
  exact hk a r₁ r' b hb hproblems

theorem Passes.ite {c : Prop} [Decidable c] {x y : Read α} {P : α → Prop}
    (hx : c → x.Passes P) (hy : ¬ c → y.Passes P) : (if c then x else y).Passes P := by
  split
  · next h => exact hx h
  · next h => exact hy h

/-- A problem that has been noted is left. -/
theorem passes_report {problems : List Problem} {a : α} {P : α → Prop} (h : problems ≠ []) :
    (report problems >>= fun _ => pure a).Passes P := by
  rintro r r' _ ⟨⟩ hproblems
  exact absurd (List.append_eq_nil_iff.mp hproblems).2 h

theorem Passes.throughAlias {x : Read α} {P : α → Prop} (hx : x.Passes P) :
    (Read.throughAlias x).Passes P := by
  intro r r' a h hproblems
  obtain ⟨r₁, h, heq⟩ := throughAlias_eq_ok h
  exact hx _ r₁ a h (heq.trans hproblems)

theorem Passes.apart {x : Read α} {P : α → Prop} (hx : x.Passes P) : (Read.apart x).Passes P := by
  intro r r' a h hproblems
  obtain ⟨r₁, h, heq⟩ := apart_eq_ok h
  exact hx _ r₁ a h (heq.trans hproblems)

/-! ### Keeping problems -/

/-- The computation keeps the problems that were noted before it: none is left only if there was
none. -/
def Keeps (x : Read α) : Prop :=
  ∀ (r r' : Reading) (a : α), x r = .ok (a, r') → r'.problems = [] → r.problems = []

theorem keeps_pure (a : α) : (pure a : Read α).Keeps := by
  rintro r r' _ ⟨⟩ hproblems
  exact hproblems

theorem keeps_reject (reason : Rejection) : (reject reason : Read α).Keeps := by
  intro r r' a h
  cases h

theorem keeps_get : (get : Read Reading).Keeps := by
  rintro r r' _ ⟨⟩ hproblems
  exact hproblems

theorem keeps_report (problems : List Problem) : (report problems).Keeps := by
  rintro r r' _ ⟨⟩ hproblems
  exact (List.append_eq_nil_iff.mp hproblems).1

theorem Keeps.bind {x : Read α} {k : α → Read β} (hx : x.Keeps) (hk : ∀ a, (k a).Keeps) :
    (x >>= k).Keeps := by
  intro r r' b h hproblems
  obtain ⟨a, r₁, ha, hb⟩ := bind_eq_ok h
  exact hx r r₁ a ha (hk a r₁ r' b hb hproblems)

theorem Keeps.ite {c : Prop} [Decidable c] {x y : Read α} (hx : x.Keeps) (hy : y.Keeps) :
    (if c then x else y).Keeps := by
  split
  · exact hx
  · exact hy

theorem keeps_visit : visit.Keeps := by
  intro r r' _ h hproblems
  -- the reading that is set differs from the one before in its counts only
  have hset : ∀ s : Reading, s.problems = r.problems →
      (if excessive s.visits s.aliased then do
          reject (.malformed .excessiveAliasing)
          set s
        else set s : Read Unit) r = .ok ((), r') → r.problems = [] := by
    intro s hs h
    split at h
    · cases h
    · cases h
      exact hs.symm.trans hproblems
  exact hset { r with
    visits := r.visits + 1
    aliased := if r.inAlias then r.aliased + 1 else r.aliased } rfl h

theorem keeps_meaning (tag text : String) : (meaning tag text).Keeps := by
  unfold meaning
  split
  · exact keeps_pure _
  · exact keeps_reject _

theorem Keeps.throughAlias {x : Read α} (hx : x.Keeps) : (Read.throughAlias x).Keeps := by
  intro r r' a h hproblems
  obtain ⟨r₁, h, heq⟩ := throughAlias_eq_ok h
  exact hx { r with inAlias := true } r₁ a h (heq.trans hproblems)

theorem Keeps.apart {x : Read α} (hx : x.Keeps) : (Read.apart x).Keeps := by
  intro r r' a h hproblems
  obtain ⟨r₁, h, heq⟩ := apart_eq_ok h
  exact hx { r with visits := 0, aliased := 0, inAlias := false } r₁ a h (heq.trans hproblems)

/-! ### How a computation ends -/

/-- The computation ends with `a` on some reading, and no problem is left then. -/
def Ends (x : Read α) (a : α) : Prop :=
  ∃ r r' : Reading, x r = .ok (a, r') ∧ r'.problems = []

theorem Passes.of_ends {x : Read α} {P : α → Prop} {a : α} (hx : x.Passes P) (h : x.Ends a) :
    P a := by
  obtain ⟨r, r', hrun, hproblems⟩ := h
  exact hx r r' a hrun hproblems

theorem ends_of_finish {x : Read α} {a : α} (h : x.finish = .ok a) : x.Ends a := by
  unfold Read.finish at h
  split at h
  · next b r hrun =>
    split at h
    · next hproblems =>
      cases h
      exact ⟨_, _, hrun, List.isEmpty_iff.mp hproblems⟩
    · cases h
  · cases h

theorem Ends.of_pure {a b : α} (h : (pure a : Read α).Ends b) : b = a := by
  obtain ⟨r, r', ⟨⟩, -⟩ := h
  rfl

theorem not_ends_reject {reason : Rejection} {a : α} : ¬ (reject reason : Read α).Ends a := by
  rintro ⟨r, r', h, -⟩
  cases h

/-- Of two computations both end, if the second keeps the problems of the first. -/
theorem Ends.of_bind {x : Read α} {k : α → Read β} {b : β} (h : (x >>= k).Ends b)
    (hk : ∀ a, (k a).Keeps) : ∃ a, x.Ends a ∧ (k a).Ends b := by
  obtain ⟨r, r', hrun, hproblems⟩ := h
  obtain ⟨a, r₁, ha, hb⟩ := bind_eq_ok hrun
  have hfirst : r₁.problems = [] := hk a r₁ r' b hb hproblems
  exact ⟨a, ⟨r, r₁, ha, hfirst⟩, ⟨r₁, r', hb, hproblems⟩⟩

/-- The last of two computations ends, after a value with a property that the first ensures. -/
theorem Ends.of_ensures {x : Read α} {k : α → Read β} {P : α → Prop} {b : β}
    (h : (x >>= k).Ends b) (hx : x.Ensures P) : ∃ a, P a ∧ (k a).Ends b := by
  obtain ⟨r, r', hrun, hproblems⟩ := h
  obtain ⟨a, r₁, ha, hb⟩ := bind_eq_ok hrun
  exact ⟨a, hx r r₁ a ha, ⟨r₁, r', hb, hproblems⟩⟩

/-- The last of two computations ends. -/
theorem Ends.after {x : Read α} {k : α → Read β} {b : β} (h : (x >>= k).Ends b) :
    ∃ a, (k a).Ends b := by
  obtain ⟨a, -, hb⟩ := h.of_ensures (ensures_true x)
  exact ⟨a, hb⟩

/-- A problem that has been noted is left by what keeps it. -/
theorem Keeps.not_ends_report {x : Read α} {a : α} {problems : List Problem} (hx : x.Keeps)
    (h : problems ≠ []) : ¬ (report problems >>= fun _ => x).Ends a := by
  rintro ⟨r, r', hrun, hproblems⟩
  obtain ⟨_, r₁, ⟨⟩, hx'⟩ := bind_eq_ok hrun
  have hnone := hx _ r' a hx' hproblems
  exact h (List.append_eq_nil_iff.mp hnone).2

theorem Ends.of_throughAlias {x : Read α} {a : α} (h : (Read.throughAlias x).Ends a) : x.Ends a := by
  obtain ⟨r, r', hrun, hproblems⟩ := h
  obtain ⟨r₁, hx, heq⟩ := throughAlias_eq_ok hrun
  exact ⟨_, r₁, hx, heq.trans hproblems⟩

theorem Ends.of_apart {x : Read α} {a : α} (h : (Read.apart x).Ends a) : x.Ends a := by
  obtain ⟨r, r', hrun, hproblems⟩ := h
  obtain ⟨r₁, hx, heq⟩ := apart_eq_ok hrun
  exact ⟨_, r₁, hx, heq.trans hproblems⟩

/-- What a computation that is not rejected ends with. -/
theorem Passes.finish {x : Read α} {P : α → Prop} {a : α} (hx : x.Passes P)
    (h : x.finish = .ok a) : P a :=
  hx.of_ends (ends_of_finish h)

end Read

/-- A mapping whose keys are all different is read. -/
theorem yields_unlessRepeated {α : Type} {entries : List Entry} {x : Read α} {otherwise a : α}
    (hkeys : duplicateKeys entries = []) (hx : x.Yields a) :
    (unlessRepeated entries otherwise x).Yields a := by
  simp only [unlessRepeated, hkeys, List.isEmpty_nil, if_true]
  exact hx

theorem ensures_unlessRepeated {α : Type} {entries : List Entry} {x : Read α} {otherwise : α}
    {P : α → Prop} (hotherwise : P otherwise) (hx : x.Ensures P) :
    (unlessRepeated entries otherwise x).Ensures P :=
  .ite (fun _ => hx) fun _ => .after _ fun _ => Read.ensures_pure hotherwise

theorem keeps_unlessRepeated {α : Type} {entries : List Entry} {x : Read α} {otherwise : α}
    (hx : x.Keeps) : (unlessRepeated entries otherwise x).Keeps :=
  .ite hx ((Read.keeps_report _).bind fun _ => Read.keeps_pure _)

/-- Keys that are written alike are a problem. -/
theorem passes_unlessRepeated {α : Type} {entries : List Entry} {x : Read α} {otherwise : α}
    {P : α → Prop} (hx : x.Passes P) : (unlessRepeated entries otherwise x).Passes P := by
  refine .ite (fun _ => hx) fun hkeys => Read.passes_report ?_
  simpa using hkeys

/-- A mapping that is read without a problem has no keys that are written alike. -/
theorem ends_of_unlessRepeated {α : Type} {entries : List Entry} {x : Read α} {otherwise a : α}
    (h : (unlessRepeated entries otherwise x).Ends a) : duplicateKeys entries = [] ∧ x.Ends a := by
  unfold unlessRepeated at h
  dsimp only at h
  split at h
  · next hkeys => exact ⟨List.isEmpty_iff.mp hkeys, h⟩
  · next hkeys =>
    refine absurd h ((Read.keeps_pure otherwise).not_ends_report ?_)
    simpa using hkeys

/-- A root that is no collection tagged as meaning nothing is read as a node of a program. -/
theorem readRoot_eq {node : Node} (hsequence : ∀ line items, node ≠ .sequence line "!!null" items)
    (hmapping : ∀ line entries, node ≠ .mapping line "!!null" entries) :
    readRoot node = do
      match ← readValue .program node with
      | some (.block b) => return { body := some b }
      | _ => return { body := none } := by
  unfold readRoot
  split
  · exact absurd rfl (hsequence _ _)
  · exact absurd rfl (hmapping _ _)
  · rfl

end TreeScript.Form
