import TreeScript.Text.Symbol

/-!
# Texts and their bytes

The bytes of a string are those of its characters in a row.  A character has one to four bytes, and
its first byte tells how many: the more bytes, the larger the first.  Among characters with equally
many bytes, the bytes hold the digits of the code point from the highest to the lowest.  So of two
characters the one with the smaller code point has the smaller bytes, and the first byte in which
they differ is there in both.  Therefore strings come in the same order whether they are compared by
their bytes or by the code points of their characters.

## Main definitions

* `Text.codePoints` — the code points of the characters of a string.

## Main results

* `Text.toUTF8_toList` — the bytes of a string are those of its characters.
* `Text.bytes_ofString_inj` — strings with the same bytes are the same.
* `Text.utf8EncodeChar_lt` — **the character with the smaller code point has the smaller bytes**,
  whatever comes after.
* `Text.bytes_ofString_lt_iff` — **the order of bytes is the order of code points.**
-/

namespace TreeScript.Text

/-- The code points of the characters of a string. -/
def codePoints (s : String) : List Nat :=
  s.toList.map Char.toNat

/-! ### The bytes of a string -/

/-- The bytes of an array from a place on, after those that were read before it. -/
theorem toList_loop_from (b : ByteArray) (i : Nat) (row : List UInt8) :
    ByteArray.toList.loop b i row = row.reverse ++ b.data.toList.drop i := by
  fun_induction ByteArray.toList.loop b i row with
  | case1 i row hi ih =>
    have hlt : i < b.data.toList.length := hi
    have hget : b.get! i = b.data.toList[i] := getElem!_pos b.data i hi
    rw [ih, List.drop_eq_getElem_cons hlt, hget, List.reverse_cons, List.append_assoc]
    rfl
  | case2 i row hi =>
    have hle : b.data.toList.length ≤ i := Nat.le_of_not_lt hi
    rw [List.drop_eq_nil_of_le hle, List.append_nil]

theorem bytes_ofString (s : String) :
    bytes (ofString s) = s.toList.flatMap String.utf8EncodeChar := by
  rw [bytes, ofString, List.flatMap_map]
  rfl

/-- The bytes of a string are those of its characters in a row. -/
theorem toUTF8_toList (s : String) : s.toUTF8.toList = bytes (ofString s) := by
  rw [ByteArray.toList, toList_loop_from, bytes_ofString, String.toUTF8_eq_toByteArray,
    ← String.utf8Encode_toList, List.utf8Encode, List.data_toByteArray]
  rfl

/-- Strings with the same bytes are the same. -/
theorem bytes_ofString_inj {s t : String} : bytes (ofString s) = bytes (ofString t) ↔ s = t := by
  rw [bytes_ofString, bytes_ofString, ← List.toByteArray_inj, ← List.utf8Encode, ← List.utf8Encode,
    String.utf8Encode_toList, String.utf8Encode_toList, String.toByteArray_inj]

/-! ### The order of bytes -/

/-- A row that begins with a smaller byte is smaller. -/
theorem ofNat_cons_lt_of_lt {a b : Nat} (h : a < b) (hb : b < 256) (l l' : List UInt8) :
    UInt8.ofNat a :: l < UInt8.ofNat b :: l' := by
  rw [List.cons_lt_cons_iff, UInt8.lt_iff_toNat_lt, UInt8.toNat_ofNat', UInt8.toNat_ofNat']
  left
  omega

/-- So is one whose first byte is not larger, if its rest is smaller in case the bytes are the
same. -/
theorem ofNat_cons_lt {a b : Nat} {l l' : List UInt8} (h : a ≤ b) (hb : b < 256)
    (hrest : a = b → l < l') : UInt8.ofNat a :: l < UInt8.ofNat b :: l' := by
  rcases Nat.lt_or_eq_of_le h with hlt | rfl
  · exact ofNat_cons_lt_of_lt hlt hb l l'
  · rw [List.cons_lt_cons_self]
    exact hrest rfl

theorem codePoint_lt (c : Char) : c.toNat < 0x110000 := by
  rcases c.valid with h | ⟨-, h⟩
  · exact Nat.lt_trans h (by decide)
  · exact h

/-- **The character with the smaller code point has the smaller bytes**, whatever comes after. -/
theorem utf8EncodeChar_lt {c d : Char} (h : c.toNat < d.toNat) (l l' : List UInt8) :
    String.utf8EncodeChar c ++ l < String.utf8EncodeChar d ++ l' := by
  have hd := codePoint_lt d
  simp only [Char.toNat] at h hd
  simp only [String.utf8EncodeChar]
  generalize c.val.toNat = m at *
  generalize d.val.toNat = n at *
  -- if `n` takes more bytes than `m`, the first bytes decide; otherwise the digits do, one by one
  split
  · -- one byte
    split
    · exact ofNat_cons_lt_of_lt (by omega) (by omega) _ _
    · split
      · exact ofNat_cons_lt_of_lt (by omega) (by omega) _ _
      · split <;> exact ofNat_cons_lt_of_lt (by omega) (by omega) _ _
  · rw [if_neg (show ¬ n ≤ 127 by omega)]
    split
    · -- two bytes
      split
      · refine ofNat_cons_lt (by omega) (by omega) fun _ => ?_
        exact ofNat_cons_lt_of_lt (by omega) (by omega) _ _
      · split <;> exact ofNat_cons_lt_of_lt (by omega) (by omega) _ _
    · rw [if_neg (show ¬ n ≤ 2047 by omega)]
      split
      · -- three bytes
        split
        · refine ofNat_cons_lt (by omega) (by omega) fun _ => ?_
          refine ofNat_cons_lt (by omega) (by omega) fun _ => ?_
          exact ofNat_cons_lt_of_lt (by omega) (by omega) _ _
        · exact ofNat_cons_lt_of_lt (by omega) (by omega) _ _
      · -- four bytes
        rw [if_neg (show ¬ n ≤ 65535 by omega)]
        refine ofNat_cons_lt (by omega) (by omega) fun _ => ?_
        refine ofNat_cons_lt (by omega) (by omega) fun _ => ?_
        refine ofNat_cons_lt (by omega) (by omega) fun _ => ?_
        exact ofNat_cons_lt_of_lt (by omega) (by omega) _ _

/-- Rows that begin alike are compared by the rest. -/
theorem append_lt_append_iff (common l l' : List UInt8) : common ++ l < common ++ l' ↔ l < l' := by
  induction common with
  | nil => rfl
  | cons b common ih => rw [List.cons_append, List.cons_append, List.cons_lt_cons_self, ih]

theorem flatMap_utf8EncodeChar_lt_iff (cs ds : List Char) :
    cs.flatMap String.utf8EncodeChar < ds.flatMap String.utf8EncodeChar ↔
      cs.map Char.toNat < ds.map Char.toNat := by
  induction cs generalizing ds with
  | nil =>
    cases ds with
    | nil => simp
    | cons d ds =>
      obtain ⟨b, bs, hbytes⟩ := List.exists_cons_of_ne_nil (String.utf8EncodeChar_ne_nil (c := d))
      simp [hbytes]
  | cons c cs ih =>
    cases ds with
    | nil => simp
    | cons d ds =>
      rw [List.flatMap_cons, List.flatMap_cons, List.map_cons, List.map_cons, List.cons_lt_cons_iff]
      rcases Nat.lt_trichotomy c.toNat d.toNat with hlt | heq | hgt
      · exact iff_of_true (utf8EncodeChar_lt hlt _ _) (Or.inl hlt)
      · rw [Char.toNat_inj.mp heq, append_lt_append_iff, ih]
        simp
      · refine iff_of_false (List.lt_asymm (utf8EncodeChar_lt hgt _ _)) ?_
        omega

/-- **Strings come in the same order by their bytes and by the code points of their characters.** -/
theorem bytes_ofString_lt_iff (s t : String) :
    bytes (ofString s) < bytes (ofString t) ↔ codePoints s < codePoints t := by
  rw [bytes_ofString, bytes_ofString, flatMap_utf8EncodeChar_lt_iff]
  rfl

end TreeScript.Text
