import TreeScript.Proofs.Text.Unquoting

/-!
# Symbolic expressions

A symbolic expression is an atom or a list of symbolic expressions.  Atoms are words, integers and
strings.  The text of a list is that of its items, with spaces between them, in parentheses.

Words can be any texts that have nothing in them that could end a word or start something else, and
that are not the text of an integer.  Then a symbolic expression is known from its text, even if
more text comes after it, as long as that does not go on with a word.

## Main definitions

* `Sexp`, `Sexp.text` — symbolic expressions and their texts.
* `Text.Bare` — a text that ends only where a space or a closing parenthesis comes.
* `Sexp.Proper` — every word in a symbolic expression is bare, and is no number.

## Main results

* `Sexp.text_append_inj` — **a symbolic expression is known from its text.**
-/

namespace TreeScript

/-! ### Texts in a row -/

namespace Text

/-- Texts in a row are the first of them, and each of the others after a separator. -/
theorem join_cons (separator t : Text) (ts : List Text) :
    join separator (t :: ts) = t ++ ts.flatMap (separator ++ ·) := by
  induction ts generalizing t with
  | nil => simp [join]
  | cons u us ih =>
    have ih : List.intercalate separator (u :: us) = u ++ us.flatMap (separator ++ ·) := ih u
    rw [join, List.intercalate_cons_cons, ih, List.flatMap_cons, List.append_assoc,
      List.append_assoc]

theorem join_cons_of_ne_nil (separator t : Text) {ts : List Text} (h : ts ≠ []) :
    join separator (t :: ts) = t ++ (separator ++ join separator ts) := by
  obtain ⟨u, us, rfl⟩ := List.exists_cons_of_ne_nil h
  rw [join_cons, join_cons, List.flatMap_cons, List.append_assoc]

/-- The symbols that end a word or start what is no word. -/
def breaks : List Symbol := [.char ' ', .char '(', .char ')', .char '"']

/-- A text that could be a word: there is something in it, but nothing that would end it. -/
def Bare (t : Text) : Prop := t ≠ [] ∧ ∀ s ∈ breaks, s ∉ t

instance instDecidableBare (t : Text) : Decidable (Bare t) := inferInstanceAs (Decidable (_ ∧ _))

/-- What may come after an item: nothing, a space or a closing parenthesis. -/
def Ends (rest : Text) : Prop := ∀ s ∈ rest.head?, s = .char ' ' ∨ s = .char ')'

theorem ends_nil : Ends [] := fun _ h => nomatch h

theorem ends_space (t : Text) : Ends (.char ' ' :: t) := by
  rintro s ⟨⟩
  exact .inl rfl

theorem ends_close (t : Text) : Ends (.char ')' :: t) := by
  rintro s ⟨⟩
  exact .inr rfl

/-- A bare text begins with a symbol that is no break. -/
theorem Bare.exists_cons {t : Text} (h : Bare t) :
    ∃ s u, t = s :: u ∧ s ∉ breaks := by
  obtain ⟨s, u, rfl⟩ := List.exists_cons_of_ne_nil h.1
  exact ⟨s, u, rfl, fun hs => h.2 s hs List.mem_cons_self⟩

/-- What follows an item starts with a break, if there is anything. -/
theorem Ends.takeWhile_eq {rest : Text} (h : Ends rest) :
    rest.takeWhile (fun s => s ∉ breaks) = [] := by
  cases rest with
  | nil => rfl
  | cons s t => rcases h s rfl with rfl | rfl <;> rfl

/-- A bare text ends where the first break is. -/
theorem Bare.append_inj {t u rest rest' : Text} (ht : Bare t) (hu : Bare u) (hrest : Ends rest)
    (hrest' : Ends rest') (h : t ++ rest = u ++ rest') : t = u ∧ rest = rest' := by
  -- either text is what stands before the first break
  have hread : ∀ {t rest : Text}, Bare t → Ends rest →
      (t ++ rest).takeWhile (fun s => s ∉ breaks) = t := by
    intro t rest ht hrest
    have hall : ∀ s ∈ t, decide (s ∉ breaks) = true := by
      intro s hs
      exact decide_eq_true fun hbreak => ht.2 s hbreak hs
    rw [List.takeWhile_append_of_pos hall, hrest.takeWhile_eq, List.append_nil]
  have htu : t = u := by
    rw [← hread ht hrest, h, hread hu hrest']
  subst htu
  exact ⟨rfl, List.append_cancel_left h⟩

/-- The decimal text of an integer is bare. -/
theorem bare_decimal (n : Int64) : Bare (decimal n) := by
  have hbreaks : ∀ s ∈ breaks, isNumeric s = false := by decide
  refine ⟨decimal_ne_nil n, fun s hs hmem => ?_⟩
  exact ne_decimal_of_exists ⟨s, hmem, hbreaks s hs⟩ n rfl

end Text

/-! ### Symbolic expressions -/

/-- A symbolic expression without parts. -/
inductive Atom where
  /-- A word. -/
  | word (t : Text)
  /-- An integer. -/
  | int (n : Int64)
  /-- A string. -/
  | str (s : String)
  deriving DecidableEq, Repr

/-- A symbolic expression. -/
inductive Sexp where
  /-- An atom. -/
  | atom (a : Atom)
  /-- A list. -/
  | list (items : List Sexp)

/-- The text of an atom. -/
def Atom.text : Atom → Text
  | .word t => t
  | .int n => Text.decimal n
  | .str s => Text.quoted s

namespace Sexp

/-- A word as a symbolic expression. -/
def word (t : Text) : Sexp := .atom (.word t)

mutual

/-- The text of a symbolic expression. -/
def text : Sexp → Text
  | .atom a => a.text
  | .list items => "(" ++ Text.join " " (texts items) ++ ")"

/-- The texts of symbolic expressions, in order. -/
def texts : List Sexp → List Text
  | [] => []
  | x :: rest => x.text :: texts rest

end

theorem texts_eq (items : List Sexp) : texts items = items.map text := by
  induction items with
  | nil => rfl
  | cons x rest ih => rw [texts, ih, List.map_cons]

/-- The text of a list is that of its items in a row, in parentheses. -/
theorem text_list_eq_join (items : List Sexp) :
    text (.list items) = "(" ++ Text.join " " (items.map text) ++ ")" := by
  rw [text, texts_eq]

/-- What comes after an item of a list, up to the end of the list. -/
def tail : List Sexp → Text
  | [] => [.char ')']
  | x :: rest => .char ' ' :: (x.text ++ tail rest)

/-- The items of a list, up to the end of the list. -/
def row : List Sexp → Text
  | [] => [.char ')']
  | x :: rest => x.text ++ tail rest

theorem flatMap_append_eq_tail (items : List Sexp) :
    (items.map text).flatMap (.char ' ' :: ·) ++ [.char ')'] = tail items := by
  induction items with
  | nil => rfl
  | cons x rest ih => rw [List.map_cons, List.flatMap_cons, List.append_assoc, ih]; rfl

theorem text_list (items : List Sexp) : text (.list items) = .char '(' :: row items := by
  cases items with
  | nil => rfl
  | cons x rest =>
    rw [text_list_eq_join, List.map_cons, Text.join_cons, row, ← flatMap_append_eq_tail,
      List.append_assoc, List.append_assoc]
    rfl

theorem ends_tail (items : List Sexp) (rest : Text) : Text.Ends (tail items ++ rest) := by
  cases items with
  | nil => exact Text.ends_close _
  | cons x items => exact Text.ends_space _

/-- Rows with the same text after an item have the same text. -/
theorem row_append_eq {xs ys : List Sexp} {rest rest' : Text}
    (h : tail xs ++ rest = tail ys ++ rest') : row xs ++ rest = row ys ++ rest' := by
  cases xs with
  | nil =>
    cases ys with
    | nil => exact h
    | cons y ys => exact nomatch (List.cons.inj h).1
  | cons x xs =>
    cases ys with
    | nil => exact nomatch (List.cons.inj h).1
    | cons y ys => exact (List.cons.inj h).2

end Sexp

/-- A word that is not taken for anything else. -/
def Atom.Proper : Atom → Prop
  | .word t => t.Bare ∧ ∀ n, t ≠ Text.decimal n
  | .int _ | .str _ => True

/-- Every word in a symbolic expression is proper. -/
inductive Sexp.Proper : Sexp → Prop
  /-- An atom. -/
  | atom {a : Atom} (h : a.Proper) : Proper (.atom a)
  /-- A list. -/
  | list {items : List Sexp} (h : ∀ x ∈ items, x.Proper) : Proper (.list items)

namespace Atom

/-- The text of an atom is bare, unless it is a string. -/
theorem Proper.bare_or {a : Atom} (h : a.Proper) : a.text.Bare ∨ ∃ s, a = .str s := by
  cases a with
  | word t => exact .inl h.1
  | int n => exact .inl (Text.bare_decimal n)
  | str s => exact .inr ⟨s, rfl⟩

/-- A string is not taken for a bare text. -/
theorem bare_append_ne_str {t : Text} (ht : t.Bare) (s : String) (rest rest' : Text) :
    t ++ rest ≠ (str s).text ++ rest' := by
  obtain ⟨first, u, rfl, hfirst⟩ := ht.exists_cons
  intro h
  rw [text, Text.quoted_ofString] at h
  rw [(List.cons.inj h).1] at hfirst
  exact hfirst (by decide)

/-- Proper atoms with the same bare text are the same. -/
theorem Proper.eq_of_text {a b : Atom} (ha : a.Proper) (hb : b.Proper) (hbare : a.text.Bare)
    (h : a.text = b.text) : a = b := by
  cases b with
  | str s => exact absurd (congrArg (· ++ []) h) (bare_append_ne_str hbare s [] [])
  | word t =>
    cases a with
    | word u => exact congrArg word h
    | int n => exact absurd h.symm (hb.2 n)
    | str s => exact absurd (congrArg (· ++ []) h.symm) (bare_append_ne_str hb.1 s [] [])
  | int n =>
    cases a with
    | word u => exact absurd h (ha.2 n)
    | int m => exact congrArg int (Text.decimal_injective h)
    | str s =>
      exact absurd (congrArg (· ++ []) h.symm) (bare_append_ne_str (Text.bare_decimal n) s [] [])

/-- **An atom is known from its text**, whatever comes after it. -/
theorem text_append_inj {a b : Atom} (ha : a.Proper) (hb : b.Proper) {rest rest' : Text}
    (hrest : Text.Ends rest) (hrest' : Text.Ends rest') (h : a.text ++ rest = b.text ++ rest') :
    a = b ∧ rest = rest' := by
  rcases ha.bare_or with habare | ⟨s, rfl⟩ <;> rcases hb.bare_or with hbbare | ⟨t, rfl⟩
  · obtain ⟨htext, hend⟩ := habare.append_inj hbbare hrest hrest' h
    exact ⟨ha.eq_of_text hb habare htext, hend⟩
  · exact absurd h (bare_append_ne_str habare t _ _)
  · exact absurd h.symm (bare_append_ne_str hbbare s _ _)
  · obtain ⟨rfl, hend⟩ := Text.quoted_append_inj h
    exact ⟨rfl, hend⟩

/-- An atom begins with no parenthesis. -/
theorem Proper.exists_cons {a : Atom} (h : a.Proper) :
    ∃ s t, a.text = s :: t ∧ s ≠ .char '(' ∧ s ≠ .char ')' := by
  rcases h.bare_or with hbare | ⟨s, rfl⟩
  · obtain ⟨s, t, hst, hs⟩ := hbare.exists_cons
    refine ⟨s, t, hst, ?_, ?_⟩ <;>
    · rintro rfl
      exact hs (by decide)
  · exact ⟨_, _, Text.quoted_ofString s, by decide⟩

end Atom

namespace Sexp

/-- A symbolic expression begins with no closing parenthesis. -/
theorem Proper.exists_cons {x : Sexp} (h : x.Proper) :
    ∃ s t, x.text = s :: t ∧ s ≠ .char ')' := by
  cases h with
  | atom ha =>
    obtain ⟨s, t, hst, -, hclose⟩ := ha.exists_cons
    exact ⟨s, t, hst, hclose⟩
  | list _ =>
    exact ⟨_, _, text_list _, by decide⟩

theorem Proper.text_ne_nil {x : Sexp} (h : x.Proper) : x.text ≠ [] := by
  obtain ⟨s, t, hst, -⟩ := h.exists_cons
  exact hst ▸ List.cons_ne_nil s t

/-- An atom is not taken for a list. -/
theorem atom_append_ne_list {a : Atom} (ha : a.Proper) (items : List Sexp) (rest rest' : Text) :
    a.text ++ rest ≠ text (.list items) ++ rest' := by
  obtain ⟨s, t, hst, hopen, -⟩ := ha.exists_cons
  rw [hst, text_list]
  intro h
  exact hopen (List.cons.inj h).1

/-- A list that goes on is not taken for one that ends. -/
theorem row_cons_append_ne {x : Sexp} (hx : x.Proper) (xs : List Sexp) (rest rest' : Text) :
    row (x :: xs) ++ rest ≠ row [] ++ rest' := by
  obtain ⟨s, t, hst, hs⟩ := hx.exists_cons
  rw [row, row, hst]
  intro h
  exact hs (List.cons.inj h).1

mutual

/-- **A symbolic expression is known from its text**, whatever comes after it. -/
theorem text_append_inj : (x : Sexp) → x.Proper → ∀ {y : Sexp}, y.Proper → ∀ {rest rest' : Text},
    Text.Ends rest → Text.Ends rest' → x.text ++ rest = y.text ++ rest' → x = y ∧ rest = rest'
  | .atom _, .atom ha, _, .atom hb, _, _, hrest, hrest', h => by
    obtain ⟨rfl, hend⟩ := Atom.text_append_inj ha hb hrest hrest' h
    exact ⟨rfl, hend⟩
  | .atom _, .atom ha, _, .list _, _, _, _, _, h => absurd h (atom_append_ne_list ha _ _ _)
  | .list _, .list _, _, .atom hb, _, _, _, _, h => absurd h.symm (atom_append_ne_list hb _ _ _)
  | .list xs, .list hxs, .list ys, .list hys, rest, rest', _, _, h => by
    rw [text_list, text_list] at h
    obtain ⟨rfl, hend⟩ := row_append_inj xs hxs hys (List.cons.inj h).2
    exact ⟨rfl, hend⟩

/-- The items of a list are known from their texts. -/
theorem row_append_inj : (xs : List Sexp) → (∀ x ∈ xs, x.Proper) → ∀ {ys : List Sexp},
    (∀ y ∈ ys, y.Proper) → ∀ {rest rest' : Text}, row xs ++ rest = row ys ++ rest' →
    xs = ys ∧ rest = rest'
  | [], _, [], _, _, _, h => ⟨rfl, List.append_cancel_left h⟩
  | [], _, y :: _, hys, _, _, h =>
    absurd h.symm (row_cons_append_ne (hys y List.mem_cons_self) _ _ _)
  | x :: _, hxs, [], _, _, _, h =>
    absurd h (row_cons_append_ne (hxs x List.mem_cons_self) _ _ _)
  | x :: xs, hxs, y :: ys, hys, rest, rest', h => by
    obtain ⟨hx, hxrest⟩ := List.forall_mem_cons.mp hxs
    obtain ⟨hy, hyrest⟩ := List.forall_mem_cons.mp hys
    rw [row, row, List.append_assoc, List.append_assoc] at h
    -- after an item comes a space or the end of the list, so the first items are the same
    obtain ⟨rfl, htail⟩ :=
      text_append_inj x hx hy (ends_tail xs rest) (ends_tail ys rest') h
    obtain ⟨rfl, hend⟩ := row_append_inj xs hxrest hyrest (row_append_eq htail)
    exact ⟨rfl, hend⟩

end

/-- Proper symbolic expressions with the same text are the same. -/
theorem Proper.eq_of_text {x y : Sexp} (hx : x.Proper) (hy : y.Proper) (h : x.text = y.text) :
    x = y :=
  (text_append_inj x hx hy Text.ends_nil Text.ends_nil (congrArg (· ++ []) h)).1

end Sexp

end TreeScript
