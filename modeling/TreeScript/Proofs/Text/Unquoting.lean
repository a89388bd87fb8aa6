import TreeScript.Text.Quoted

/-!
# Reading constants back

A number is written in decimal, and a string between quotes.  Both can be read back.  What a quoted
string says is known before what comes after it is looked at: every character between the quotes is
written in a way that no other begins with, and none begins with a quote.

## Main definitions

* `Text.hexValue` — the number that hexadecimal digits stand for.
* `Text.readEscape?` — the first character that is written in a text between quotes.

## Main results

* `Text.decimal_injective` — the decimal text of an integer determines it.
* `Text.readEscape?_escape` — **a character is read back from the way it is written.**
* `Text.quoted_append_inj` — **a quoted string ends where it says, whatever comes after it.**
-/

namespace TreeScript.Text

/-! ### Texts of strings -/

@[simp] theorem shown_ofString (s : String) : Text.shown s = s := by
  simp [Text.shown, Text.ofString, Symbol.shown, Function.comp_def]

theorem ofString_injective {s t : String} (h : Text.ofString s = Text.ofString t) : s = t := by
  rw [← shown_ofString s, h, shown_ofString]

@[simp] theorem ofString_append (s t : String) : ofString (s ++ t) = ofString s ++ ofString t := by
  simp [ofString]

@[simp] theorem ofString_ofList (cs : List Char) : ofString (String.ofList cs) = cs.map .char := by
  simp [ofString]

/-! ### Decimal numbers -/

/-- The text of an integer, in decimal. -/
def decimal (n : Int64) : Text := toString n.toInt

/-- The symbols of decimal numbers. -/
def isNumeric : Symbol → Bool
  | .char c => c.isDigit || c == '-'
  | .stray _ => false

/-- A decimal text is the sign, if there is one, and the digits. -/
theorem decimal_eq (n : Int64) : decimal n =
    (if 0 ≤ n.toInt then [] else [.char '-']) ++ (Nat.toDigits 10 n.toInt.natAbs).map .char := by
  rw [decimal, Int.toString_eq_repr, Int.repr_eq_if]
  split
  · next h =>
    rw [Nat.repr_eq_ofList_toDigits, ofString_ofList, List.nil_append,
      show n.toInt.toNat = n.toInt.natAbs by omega]
  · next h =>
    rw [Nat.repr_eq_ofList_toDigits, ofString_append, ofString_ofList (Nat.toDigits _ _),
      show (-n.toInt).toNat = n.toInt.natAbs by omega]
    rfl

theorem decimal_ne_nil (n : Int64) : decimal n ≠ [] := by
  simp [decimal_eq, Nat.toDigits_ne_nil]

/-- A decimal text is made of digits and the sign. -/
theorem isNumeric_of_mem_decimal {n : Int64} {s : Symbol} (hs : s ∈ decimal n) : isNumeric s := by
  rw [decimal_eq, List.mem_append, List.mem_map] at hs
  rcases hs with hs | ⟨c, hc, rfl⟩
  · split at hs
    · cases hs
    · cases List.mem_singleton.mp hs
      rfl
  · rw [isNumeric, Nat.isDigit_of_mem_toDigits (by decide) (by decide) hc, Bool.true_or]

/-- A text with a symbol that no number has is not that of a number. -/
theorem ne_decimal_of_exists {t : Text} (h : ∃ s ∈ t, isNumeric s = false) (n : Int64) :
    t ≠ decimal n := by
  rintro rfl
  obtain ⟨s, hs, hnumeric⟩ := h
  rw [isNumeric_of_mem_decimal hs] at hnumeric
  cases hnumeric

/-- The digits of a number determine it. -/
theorem eq_of_digits {m n : Nat}
    (h : (Nat.toDigits 10 m).map Symbol.char = (Nat.toDigits 10 n).map Symbol.char) : m = n := by
  have hdigits := (List.map_inj_right fun _ _ => Symbol.char.inj).mp h
  rw [← @Nat.ofDigitChars_ten_toDigits m, hdigits, Nat.ofDigitChars_ten_toDigits]

/-- The sign is no digit. -/
theorem sign_cons_ne_digits (t : Text) (n : Nat) :
    .char '-' :: t ≠ (Nat.toDigits 10 n).map Symbol.char := by
  intro h
  obtain ⟨c, hc, hsign⟩ := List.mem_map.mp (h ▸ List.mem_cons_self)
  have hdigit := Nat.isDigit_of_mem_toDigits (by decide) (by decide) hc
  rw [Symbol.char.inj hsign] at hdigit
  cases hdigit

/-- **The decimal text of an integer determines it.** -/
theorem decimal_injective {m n : Int64} (h : decimal m = decimal n) : m = n := by
  rw [decimal_eq, decimal_eq] at h
  apply Int64.toInt_inj.mp
  -- texts with and without a sign differ in the first symbol
  by_cases hm : 0 ≤ m.toInt <;> by_cases hn : 0 ≤ n.toInt
  · rw [if_pos hm, if_pos hn] at h
    have habs := eq_of_digits h
    omega
  · rw [if_pos hm, if_neg hn] at h
    exact absurd h.symm (sign_cons_ne_digits _ _)
  · rw [if_neg hm, if_pos hn] at h
    exact absurd h (sign_cons_ne_digits _ _)
  · rw [if_neg hm, if_neg hn] at h
    have habs := eq_of_digits (List.append_cancel_left h)
    omega

/-! ### Hexadecimal numbers -/

/-- The value of a lower-case hexadecimal digit. -/
def digitValue : Symbol → Nat
  | .char c => if c.isDigit then c.toNat - '0'.toNat else c.toNat - 'a'.toNat + 10
  | .stray _ => 0

/-- The number that a row of hexadecimal digits stands for. -/
def hexValue (t : Text) : Nat :=
  t.foldl (fun value s => 16 * value + digitValue s) 0

theorem digitValue_digitChar : ∀ {d : Nat}, d < 16 → digitValue (.char d.digitChar) = d := by
  decide

/-- The digits of a number stand for it. -/
theorem hexValue_toDigits (n : Nat) : hexValue ((Nat.toDigits 16 n).map .char) = n := by
  induction n using Nat.strongRecOn with
  | _ n ih =>
    rw [Nat.toDigits_eq_if (by decide)]
    split
    · next h => simp [hexValue, digitValue_digitChar h]
    · next h =>
      have ih := ih (n / 16) (by omega)
      rw [hexValue] at ih ⊢
      rw [List.map_append, List.foldl_append, ih]
      have := Nat.mod_lt n (show 16 > 0 by decide)
      simp only [List.map_cons, List.map_nil, List.foldl_cons, List.foldl_nil,
        digitValue_digitChar this]
      omega

/-- A number that fits is written with the given width. -/
theorem length_hex {width n : Nat} (h : (Nat.toDigits 16 n).length ≤ width) :
    (ofString (hex width n)).length = width := by
  simp [hex]
  omega

/-- A number is read back from its hexadecimal text. -/
theorem hexValue_hex (width n : Nat) : hexValue (ofString (hex width n)) = n := by
  have hzeros : ∀ k, hexValue (List.replicate k (.char '0')) = 0 := by
    intro k
    induction k with
    | zero => rfl
    | succ k ih =>
      rw [hexValue] at ih ⊢
      rw [List.replicate_succ', List.foldl_append, ih]
      rfl
  rw [hex, ofString_ofList, List.map_append, List.map_replicate, hexValue, List.foldl_append,
    ← hexValue, hzeros, ← hexValue, hexValue_toDigits]

/-! ### Characters between quotes -/

/-- The character with the code that stands in the next `width` hexadecimal digits, and what comes
after them. -/
def readCode (width : Nat) (rest : Text) : Char × Text :=
  (Char.ofNat (hexValue (rest.take width)), rest.drop width)

/-- The first character that is written in a text between quotes, and what comes after it; there is
none at the quote that ends the text. -/
def readEscape? : Text → Option (Char × Text)
  | .char '"' :: _ => none
  | .char '\\' :: .char kind :: rest => some <| match kind with
    | 'a' => ('\x07', rest)
    | 'b' => ('\x08', rest)
    | 't' => ('\t', rest)
    | 'n' => ('\n', rest)
    | 'v' => ('\x0B', rest)
    | 'f' => ('\x0C', rest)
    | 'r' => ('\r', rest)
    | 'x' => readCode 2 rest
    | 'u' => readCode 4 rest
    | 'U' => readCode 8 rest
    | c => (c, rest)
  | .char c :: rest => some (c, rest)
  | _ => none

/-- A character that stands for itself is read as such. -/
theorem readEscape?_cons {c : Char} (hquote : c ≠ '"') (hslash : c ≠ '\\') (rest : Text) :
    readEscape? (.char c :: rest) = some (c, rest) := by
  unfold readEscape?
  split <;> simp_all

/-- A character is read back from its code. -/
theorem readCode_hex {width : Nat} {c : Char} (h : (Nat.toDigits 16 c.toNat).length ≤ width)
    (rest : Text) : readCode width (ofString (hex width c.toNat) ++ rest) = (c, rest) := by
  rw [readCode, List.take_left' (length_hex h), List.drop_left' (length_hex h), hexValue_hex,
    Char.ofNat_toNat]

/-- **A character is read back from the way it is written between quotes**, whatever comes after. -/
theorem readEscape?_escape (c : Char) (rest : Text) :
    readEscape? (ofString (escape c) ++ rest) = some (c, rest) := by
  have hcode : ∀ {n : Nat}, c.toNat = n → Char.ofNat n = c := by
    intro n hn
    rw [← hn, Char.ofNat_toNat]
  unfold escape
  split
  · next h => rcases h with rfl | rfl <;> rfl
  · next h =>
    obtain ⟨hquote, hslash⟩ := not_or.mp h
    split
    · rw [String.singleton_eq_ofList, ofString_ofList]
      exact readEscape?_cons hquote hslash rest
    · split
      iterate 7
        next hn =>
          rw [← hcode hn]
          rfl
      -- the width of a code is enough for it
      split
      · next hn =>
        rw [ofString_append]
        exact congrArg some (readCode_hex
          ((Nat.length_toDigits_le_iff (by decide) (by decide)).mpr (by omega)) rest)
      · split
        · next hn =>
          rw [ofString_append]
          exact congrArg some (readCode_hex
            ((Nat.length_toDigits_le_iff (by decide) (by decide)).mpr hn) rest)
        · have hlt : c.toNat < 4294967296 := c.val.toNat_lt
          rw [ofString_append]
          exact congrArg some (readCode_hex
            ((Nat.length_toDigits_le_iff (by decide) (by decide)).mpr (by omega)) rest)

/-! ### Quoted strings -/

/-- A quoted string is what is written for its characters, between quotes. -/
theorem quoted_ofString (s : String) : ofString (quoted s) =
    .char '"' :: (s.toList.flatMap fun c => ofString (escape c)) ++ [.char '"'] := by
  have hjoin : ofString (String.join ((ofString s).map escapeSymbol)) =
      s.toList.flatMap fun c => ofString (escape c) := by
    simp [ofString, String.toList_join, List.map_flatMap, List.flatMap_map, escapeSymbol]
  rw [quoted, ofString_append, ofString_append, hjoin]
  rfl

/-- Characters between quotes end where the quote is. -/
theorem escapes_append_inj {cs ds : List Char} {rest rest' : Text}
    (h : (cs.flatMap fun c => ofString (escape c)) ++ .char '"' :: rest =
      (ds.flatMap fun c => ofString (escape c)) ++ .char '"' :: rest') :
    cs = ds ∧ rest = rest' := by
  induction cs generalizing ds with
  | nil =>
    cases ds with
    | nil => exact ⟨rfl, (List.cons.inj h).2⟩
    | cons d ds =>
      -- nothing can be read at the quote, but the other text starts with a character
      have hread := congrArg readEscape? h
      rw [List.flatMap_cons, List.append_assoc, readEscape?_escape] at hread
      cases hread
  | cons c cs ih =>
    have hread := congrArg readEscape? h
    rw [List.flatMap_cons, List.append_assoc, readEscape?_escape] at hread
    cases ds with
    | nil => cases hread
    | cons d ds =>
      rw [List.flatMap_cons, List.append_assoc, readEscape?_escape] at hread
      obtain ⟨rfl, hrest⟩ := Prod.mk.inj (Option.some.inj hread)
      obtain ⟨rfl, hend⟩ := ih hrest
      exact ⟨rfl, hend⟩

/-- **A quoted string ends where it says**, whatever comes after it. -/
theorem quoted_append_inj {s t : String} {rest rest' : Text}
    (h : ofString (quoted s) ++ rest = ofString (quoted t) ++ rest') : s = t ∧ rest = rest' := by
  rw [quoted_ofString, quoted_ofString, List.append_assoc, List.append_assoc] at h
  obtain ⟨hchars, hrest⟩ := escapes_append_inj (List.cons.inj h).2
  exact ⟨String.toList_inj.mp hchars, hrest⟩

end TreeScript.Text
