import TreeScript.Proofs.Form.Reading
import TreeScript.Proofs.Text.Unquoting

/-!
# Fields of a mapping

How the values of a record are written in a mapping, whose keys may stand in any order, and that
reading the mapping finds them.

## Main definitions

* `Node.value?` — what stands under a key of a mapping.
* `Node.ofString`, `Node.ofItems`, `Node.ofFields` — nodes that are written on one line.
* `Means`, `Unset`, `IsText`, `IsNumber`, `IsFlag`, `IsList` — how values are written.
* `IsRecord` — a mapping with given keys, in any order.
* `Gives` — what a record holds under a key, once what stands there has been read.
* `Record.Holds` — a record holds what a mapping gives to its fields.

## Main results

* `exists_record` — **a mapping whose values can be read is read into a record that holds them.**
-/

namespace TreeScript

open Document (Node Entry Meaning resolve)

/-! ### How values are written -/

/-- The entries of a mapping; other nodes have none. -/
def Document.Node.entries : Node → List Entry
  | .mapping _ _ entries => entries
  | _ => []

/-- What stands under a key, if it is there. -/
def Document.valueOf? (entries : List Entry) (key : String) : Option Node :=
  (entries.find? fun e => e.key.text == key).map Entry.value

/-- What stands under a key of a mapping, if it is there. -/
def Document.Node.value? (node : Node) (key : String) : Option Node := valueOf? node.entries key

namespace Document.Node

/-- A text, written on the first line of a document, as all nodes here are. -/
def ofString (s : String) : Node := .scalar 1 "!!str" s

/-- A number, written as `s`. -/
def ofNumeral (s : String) : Node := .scalar 1 "!!int" s

/-- A node that is there for nothing. -/
def nothing : Node := .scalar 1 "!!null" "~"

/-- A sequence of nodes. -/
def ofItems (items : List Node) : Node := .sequence 1 "!!seq" items

/-- A mapping with texts for keys. -/
def ofFields (fields : List (String × Node)) : Node :=
  .mapping 1 "!!map" (fields.map fun (key, value) => .mk (ofString key) value)

end Document.Node

namespace Form

open Document (valueOf?)

/-- A scalar is written that looks like what it should mean, and whose tag says the same. -/
def Means (m : Meaning) : Option Node → Prop
  | some (.scalar _ tag text) => tag = m.tag ∧ resolve text = m
  | _ => False

/-- Nothing is written: the key is left out, or what stands there means nothing. -/
def Unset (v : Option Node) : Prop := v = none ∨ Means .null v

/-- A text is written. -/
def IsText (s : Text) : Option Node → Prop
  | some (.scalar _ tag text) => tag = "!!str" ∧ s = text
  | _ => False

/-- An integer of 64 bits is written, where zero may be left out. -/
def IsNumber (n : Int) (v : Option Node) : Prop :=
  n < (Nat.pow 2 63 : Nat) ∧ (Means (.int n) v ∨ n = 0 ∧ Unset v)

/-- A truth value is written, where `false` may be left out. -/
def IsFlag (b : Bool) (v : Option Node) : Prop := Means (.bool b) v ∨ b = false ∧ Unset v

/-- A list of which `P` holds is written, where the empty one may be left out. -/
def IsList (P : List Node → Prop) : Option Node → Prop
  | some (.sequence _ _ items) => P items
  | v => P [] ∧ Unset v

/-- The node is a mapping, and its tag does not say that it means nothing. -/
def IsMapping : Node → Prop
  | .mapping _ tag _ => tag ≠ "!!null"
  | _ => False

/-- The node is a mapping in which each key is a text, no two are the same, and all are among
`keys`. -/
structure IsRecord (keys : List String) (node : Node) : Prop where
  mapping : IsMapping node
  text : ∀ e ∈ node.entries, IsText e.key.text (some e.key)
  nodup : (node.entries.map fun e => e.key.text).Nodup
  mem : ∀ e ∈ node.entries, e.key.text ∈ keys

instance (m : Meaning) : DecidablePred (Means m)
  | some (.scalar _ tag text) => inferInstanceAs (Decidable (tag = m.tag ∧ resolve text = m))
  | none | some (.sequence _ _ _) | some (.mapping _ _ _) | some (.alias _ _ _) =>
    inferInstanceAs (Decidable False)

instance : DecidablePred Unset := fun _ => inferInstanceAs (Decidable (_ ∨ _))

instance (s : Text) : DecidablePred (IsText s)
  | some (.scalar _ tag text) => inferInstanceAs (Decidable (tag = "!!str" ∧ s = text))
  | none | some (.sequence _ _ _) | some (.mapping _ _ _) | some (.alias _ _ _) =>
    inferInstanceAs (Decidable False)

instance (n : Int) : DecidablePred (IsNumber n) := fun _ => inferInstanceAs (Decidable (_ ∧ _))

instance (b : Bool) : DecidablePred (IsFlag b) := fun _ => inferInstanceAs (Decidable (_ ∨ _))

instance (P : List Node → Prop) [DecidablePred P] : DecidablePred (IsList P)
  | some (.sequence _ _ items) => inferInstanceAs (Decidable (P items))
  | none => inferInstanceAs (Decidable (P [] ∧ Unset none))
  | some (.scalar place tag text) =>
    inferInstanceAs (Decidable (P [] ∧ Unset (some (.scalar place tag text))))
  | some (.mapping place tag entries) =>
    inferInstanceAs (Decidable (P [] ∧ Unset (some (.mapping place tag entries))))
  | some (.alias place name target) =>
    inferInstanceAs (Decidable (P [] ∧ Unset (some (.alias place name target))))

instance : DecidablePred IsMapping
  | .mapping _ tag _ => inferInstanceAs (Decidable (tag ≠ "!!null"))
  | .scalar _ _ _ | .sequence _ _ _ | .alias _ _ _ => inferInstanceAs (Decidable False)

instance (keys : List String) (node : Node) : Decidable (IsRecord keys node) :=
  decidable_of_iff (IsMapping node ∧ (∀ e ∈ node.entries, IsText e.key.text (some e.key)) ∧
      (node.entries.map fun e => e.key.text).Nodup ∧ ∀ e ∈ node.entries, e.key.text ∈ keys)
    ⟨fun ⟨h₁, h₂, h₃, h₄⟩ => ⟨h₁, h₂, h₃, h₄⟩, fun ⟨h₁, h₂, h₃, h₄⟩ => ⟨h₁, h₂, h₃, h₄⟩⟩

/-! ### Reading scalars -/

/-- A scalar with the tag of a text means the text it is. -/
theorem meaning_str (text : String) : Document.meaning "!!str" text = .ok (.text text) := by
  simp [Document.meaning, Document.demandingTags]

/-- A scalar with the tag of what it looks like means that. -/
theorem meaning_of_resolve {text : String} {m : Meaning} (h : resolve text = m)
    (htag : m.tag ∈ Document.demandingTags) : Document.meaning m.tag text = .ok m := by
  have hbinary : m.tag ≠ "!!binary" := by
    cases m <;> exact of_decide_eq_true rfl
  simp [Document.meaning, hbinary, htag, h]

/-- A scalar that means nothing sets no field, but it leaves a gap in place of a node. -/
theorem yields_null {type : FieldType} {text : String} (hraw : type ≠ .raw) (place : Nat)
    (h : resolve text = .null) : (readValue type (.scalar place "!!null" text)).Yields
      (if type == .part || type == .gap then some .null else none) := by
  have hm : Document.meaning "!!null" text = .ok .null :=
    meaning_of_resolve h (of_decide_eq_true rfl)
  rw [readValue]
  refine Read.yields_visit.bind ?_
  simp only [readScalar, Read.meaning, hm, beq_eq_false_iff_ne.mpr hraw, pure_bind]
  simpa using Read.yields_pure _

/-- A scalar that means a value of the type of its field is read as that value. -/
theorem yields_scalar {type : FieldType} {tag text : String} {m : Meaning} {d : Data} (place : Nat)
    (hm : Document.meaning tag text = .ok m) (hnull : m ≠ .null)
    (hd : scalarData? type text m = some d) :
    (readValue type (.scalar place tag text)).Yields (some d) := by
  rw [readValue]
  refine Read.yields_visit.bind ?_
  cases type with
  | text | maybeText | number | flag =>
    simp only [readScalar, Read.meaning, hm, pure_bind]
    cases m with
    | null => exact absurd rfl hnull
    | _ => simpa [hd] using Read.yields_pure _
  | _ => cases hd

/-! ### Reading lists -/

theorem yields_readItems_nil (item : FieldType) : (readItems item []).Yields [] := by
  rw [readItems]
  exact Read.yields_pure _

theorem Read.Yields.items {item : FieldType} {node : Node} {nodes : List Node} {d : Data}
    {ds : List Data} (hnode : (readValue item node).Yields (some d))
    (hnodes : (readItems item nodes).Yields ds) :
    (readItems item (node :: nodes)).Yields (d :: ds) := by
  rw [readItems]
  exact hnode.bind (hnodes.bind (Read.yields_pure _))

/-! ### What a record holds -/

/-- Reading what stands under a key sets the field to `d`. -/
def Reads (type : FieldType) : Option Node → Option Data → Prop
  | none, d => d = none
  | some node, d => (readValue type node).Yields d

/-- What stands under a key can be read, and makes `P` true of a record and the key. -/
def Gives (type : FieldType) (v : Option Node) (P : Record → String → Prop) : Prop :=
  ∃ d, Reads type v d ∧ ∀ (r : Record) (key : String), r.lookup key = d → P r key

/-- A scalar that means something, and whose tag says so. -/
theorem Means.exists_scalar {m : Meaning} {v : Option Node} (h : Means m v) :
    ∃ place text, v = some (.scalar place m.tag text) ∧ resolve text = m :=
  match v, h with
  | some (.scalar place _ text), ⟨rfl, htext⟩ => ⟨place, text, rfl, htext⟩

theorem IsText.exists_scalar {s : Text} {v : Option Node} (h : IsText s v) :
    ∃ place text, v = some (.scalar place "!!str" text) ∧ s = text :=
  match v, h with
  | some (.scalar place _ text), ⟨rfl, hs⟩ => ⟨place, text, rfl, hs⟩

theorem IsMapping.exists_mapping {node : Node} (h : IsMapping node) :
    ∃ place tag, node = .mapping place tag node.entries ∧ tag ≠ "!!null" :=
  match node, h with
  | .mapping place tag _, htag => ⟨place, tag, rfl, htag⟩

/-- Where nothing is written, nothing is given to a field. -/
theorem Unset.gives {type : FieldType} {v : Option Node} {P : Record → String → Prop}
    (h : Unset v) (hraw : type ≠ .raw)
    (hP : ∀ (r : Record) key, r.lookup key = none ∨ r.lookup key = some .null → P r key) :
    Gives type v P := by
  rcases h with rfl | h
  · exact ⟨none, rfl, fun r key hr => hP r key (Or.inl hr)⟩
  · obtain ⟨place, text, rfl, htext⟩ := h.exists_scalar
    refine ⟨_, yields_null hraw place htext, fun r key hr => hP r key ?_⟩
    split at hr
    · exact Or.inr hr
    · exact Or.inl hr

theorem IsText.gives (type : FieldType) {s : Text} {v : Option Node} (h : IsText s v)
    (htype : type = .text ∨ type = .maybeText) :
    Gives type v fun r key => r.text? key = some s := by
  obtain ⟨place, text, rfl, rfl⟩ := h.exists_scalar
  refine ⟨some (.text text), ?_, fun r key hr => by simp only [Record.text?, hr]⟩
  rcases htype with rfl | rfl
  · exact yields_scalar place (meaning_str text) nofun rfl
  · exact yields_scalar place (meaning_str text) nofun rfl

theorem IsNumber.gives {n : Int} {v : Option Node} (h : IsNumber n v) :
    Gives .number v fun r key => r.number key = n := by
  obtain ⟨hn, h | ⟨rfl, hunset⟩⟩ := h
  · obtain ⟨place, text, rfl, htext⟩ := h.exists_scalar
    refine ⟨some (.number n), ?_, fun r key hr => by simp only [Record.number, hr]⟩
    have hm := meaning_of_resolve htext (of_decide_eq_true rfl)
    exact yields_scalar place hm nofun (if_pos hn)
  · refine hunset.gives nofun fun r key hr => ?_
    rcases hr with hr | hr <;> rw [Record.number, hr]

theorem IsFlag.gives {b : Bool} {v : Option Node} (h : IsFlag b v) :
    Gives .flag v fun r key => r.flag key = b := by
  rcases h with h | ⟨rfl, hunset⟩
  · obtain ⟨place, text, rfl, htext⟩ := h.exists_scalar
    refine ⟨some (.flag b), ?_, fun r key hr => by simp only [Record.flag, hr]⟩
    have hm := meaning_of_resolve htext (of_decide_eq_true rfl)
    exact yields_scalar place hm nofun rfl
  · refine hunset.gives nofun fun r key hr => ?_
    rcases hr with hr | hr <;> rw [Record.flag, hr]

theorem IsList.mono {P Q : List Node → Prop} {v : Option Node} (h : IsList P v)
    (hPQ : ∀ nodes, P nodes → Q nodes) : IsList Q v := by
  unfold IsList at h ⊢
  split at h
  · exact hPQ _ h
  · exact ⟨hPQ [] h.1, h.2⟩

/-- A list is read item by item. -/
theorem IsList.gives {P : List Node → Prop} {Q : List Data → Prop} {item : FieldType}
    {v : Option Node} (h : IsList P v)
    (hitems : ∀ items, P items → ∃ ds, (readItems item items).Yields ds ∧ Q ds) :
    Gives (.list item) v fun r key => Q (r.items key) := by
  unfold IsList at h
  split at h
  case h_1 place tag items =>
    obtain ⟨ds, hds, hQ⟩ := hitems items h
    refine ⟨some (.list ds), ?_, fun r key hr => by simpa only [Record.items, hr] using hQ⟩
    show (readValue (.list item) (.sequence place tag items)).Yields _
    rw [readValue]
    exact Read.yields_visit.bind (hds.bind (Read.yields_pure _))
  case h_2 =>
    obtain ⟨hP, hunset⟩ := h
    obtain ⟨ds, hds, hQ⟩ := hitems [] hP
    rw [hds.unique (yields_readItems_nil item)] at hQ
    refine hunset.gives nofun fun r key hr => ?_
    rcases hr with hr | hr <;> rw [Record.items, hr] <;> exact hQ

/-! ### Reading mappings -/

/-- Under the key of an entry stands its value, if no other entry has that key. -/
theorem valueOf?_of_mem {entries : List Entry} (hnodup : (entries.map fun e => e.key.text).Nodup)
    {e : Entry} (he : e ∈ entries) : valueOf? entries e.key.text = some e.value := by
  induction entries with
  | nil => cases he
  | cons f rest ih =>
    rw [List.map_cons, List.nodup_cons] at hnodup
    rcases List.mem_cons.mp he with rfl | he
    · simp [valueOf?]
    · have hne : f.key.text ≠ e.key.text := by
        intro heq
        rw [heq] at hnodup
        exact hnodup.1 (List.mem_map_of_mem he)
      rw [valueOf?, List.find?_cons, beq_eq_false_iff_ne.mpr hne]
      exact ih hnodup.2 he

/-- A key that is a text is a scalar. -/
theorem IsText.key {key : Node} (h : IsText key.text (some key)) :
    ∃ place, key = .scalar place "!!str" key.text := by
  obtain ⟨place, text, hkey, -⟩ := h.exists_scalar
  cases hkey
  exact ⟨place, rfl⟩

/-- Keys that are all different are not written alike. -/
theorem duplicateKeys_eq_nil {entries : List Entry}
    (htext : ∀ e ∈ entries, IsText e.key.text (some e.key))
    (hnodup : (entries.map fun e => e.key.text).Nodup) : duplicateKeys entries = [] := by
  induction entries with
  | nil => rfl
  | cons e rest ih =>
    rw [List.map_cons, List.nodup_cons] at hnodup
    have hrest : rest.filter (fun f => e.key.sameKey f.key) = [] := by
      rw [List.filter_eq_nil_iff]
      intro f hf hsame
      obtain ⟨place, he⟩ := (htext e List.mem_cons_self).key
      obtain ⟨place', hf'⟩ := (htext f (List.mem_cons_of_mem _ hf)).key
      rw [he, hf'] at hsame
      rw [eq_of_beq hsame] at hnodup
      exact hnodup.1 (List.mem_map_of_mem hf)
    rw [duplicateKeys, hrest, ih (fun f hf => htext f (List.mem_cons_of_mem _ hf)) hnodup.2]
    rfl

/-- The record holds what the mapping gives to its fields. -/
def Record.Holds (r : Record) (type : RecordType) (node : Node) : Prop :=
  ∀ key field d, type.field? key = some field → Reads field (node.value? key) d → r.lookup key = d

theorem Record.Holds.of_gives {r : Record} {type : RecordType} {node : Node} {key : String}
    {field : FieldType} {P : Record → String → Prop} (hr : r.Holds type node)
    (hfield : type.field? key = some field) (h : Gives field (node.value? key) P) : P r key := by
  obtain ⟨d, hd, hP⟩ := h
  exact hP r key (hr key field d hfield hd)

/-- An entry whose value can be read is added to the record. -/
theorem Read.Yields.entry {type : RecordType} {own : List Node} {p q : Progress} {place : Nat}
    {name : String} {value : Node} {rest : List Entry} {field : FieldType} {d : Option Data}
    (hfield : type.field? name = some field) (hgiven : Text.ofString name ∉ p.given)
    (htaken : p.taken = none) (hd : (readValue field value).Yields d)
    (hrest : (readEntries type own (p.set name d) rest).Yields q) :
    (readEntries type own p (.mk (.scalar place "!!str" name) value :: rest)).Yields q := by
  have hkey : isMergeKey (.scalar place "!!str" name) = false := by
    simp [isMergeKey, Document.mergeTag]
  rw [readEntries]
  simp only [hkey, Bool.false_eq_true, if_false]
  refine (yields_scalar place (meaning_str name) nofun rfl).bind ?_
  simp only [htaken, Option.getD_none, Bool.false_eq_true, if_false, Text.shown_ofString,
    hfield, List.contains_eq_mem, hgiven, decide_false]
  exact hd.bind hrest

/-- An entry changes no field but the one that its key is shown as. -/
theorem Progress.lookup_set_of_ne_shown (p : Progress) {name : Text} {key : String} {d : Option Data}
    (h : key ≠ Text.shown name) : (p.set name d).record.lookup key = p.record.lookup key := by
  cases d with
  | none => rfl
  | some d =>
    simp [Progress.set, List.lookup_append, List.lookup_cons, beq_eq_false_iff_ne.mpr h]

/-- An entry changes no field but its own. -/
theorem Progress.lookup_set_of_ne (p : Progress) {name key : String} {d : Option Data}
    (h : key ≠ name) : (p.set name d).record.lookup key = p.record.lookup key := by
  apply p.lookup_set_of_ne_shown
  rwa [Text.shown_ofString]

/-- An entry sets its field, if it was not set. -/
theorem Progress.lookup_set_self (p : Progress) {name : String} {d : Option Data}
    (h : p.record.lookup name = none) : (p.set name d).record.lookup name = d := by
  cases d with
  | none => exact h
  | some d => simp [Progress.set, List.lookup_append, h]

/-- Reading entries adds what they give to the fields, and leaves the other fields alone. -/
theorem exists_progress (type : RecordType) (own : List Node) {entries : List Entry} {p : Progress}
    (htext : ∀ e ∈ entries, IsText e.key.text (some e.key))
    (hnodup : (entries.map fun e => e.key.text).Nodup)
    (hvalues : ∀ e ∈ entries, ∃ field d, type.field? e.key.text = some field ∧
      (readValue field e.value).Yields d)
    (htaken : p.taken = none) (hgiven : ∀ e ∈ entries, Text.ofString e.key.text ∉ p.given)
    (hnew : ∀ e ∈ entries, p.record.lookup e.key.text = none) :
    ∃ q, (readEntries type own p entries).Yields q ∧
      (∀ key, (∀ e ∈ entries, e.key.text ≠ key) → q.record.lookup key = p.record.lookup key) ∧
      ∀ e ∈ entries, ∀ field d, type.field? e.key.text = some field →
        (readValue field e.value).Yields d → q.record.lookup e.key.text = d := by
  induction entries generalizing p with
  | nil =>
    refine ⟨p, ?_, fun _ _ => rfl, nofun⟩
    rw [readEntries]
    exact Read.yields_pure p
  | cons e rest ih =>
    rw [List.map_cons, List.nodup_cons] at hnodup
    rw [List.forall_mem_cons] at htext hvalues hgiven hnew
    obtain ⟨hkey, htext⟩ := htext
    obtain ⟨place, hkey⟩ := hkey.key
    obtain ⟨⟨field, d, hfield, hd⟩, hvalues⟩ := hvalues
    have hne : ∀ f ∈ rest, f.key.text ≠ e.key.text := by
      intro f hf heq
      exact hnodup.1 (heq ▸ List.mem_map_of_mem hf)
    -- the fields of the rest are still open once this one is set
    obtain ⟨q, hq, hothers, howns⟩ := ih (p := p.set e.key.text d) htext hnodup.2 hvalues
      (by simp [Progress.set, htaken])
      (by
        intro f hf hmem
        rcases List.mem_cons.mp hmem with heq | hmem
        · exact hne f hf (Text.ofString_injective heq)
        · exact hgiven.2 f hf hmem)
      (by
        intro f hf
        rw [p.lookup_set_of_ne (hne f hf)]
        exact hnew.2 f hf)
    refine ⟨q, ?_, ?_, ?_⟩
    · obtain ⟨key, value⟩ := e
      rw [show key = Node.scalar place "!!str" key.text from hkey]
      exact .entry hfield hgiven.1 htaken hd hq
    · intro key hkeys
      rw [List.forall_mem_cons] at hkeys
      rw [hothers key hkeys.2, p.lookup_set_of_ne (Ne.symm hkeys.1)]
    · rw [List.forall_mem_cons]
      refine ⟨?_, howns⟩
      intro field' d' hfield' hd'
      rw [hfield] at hfield'
      cases hfield'
      cases hd.unique hd'
      rw [hothers _ hne, p.lookup_set_self hnew.1]

/-- **A mapping whose values can be read is read into a record that holds them**, whatever the
order of its entries. -/
theorem exists_record (type : RecordType) (own : List Node) {keys : List String} {node : Node}
    (hnode : IsRecord keys node) (hgives : ∀ key ∈ keys, ∃ field P, type.field? key = some field ∧
      Gives field (node.value? key) P) :
    ∃ q, (readEntries type own {} node.entries).Yields q ∧ q.record.Holds type node := by
  have hvalues : ∀ e ∈ node.entries, ∃ field d, type.field? e.key.text = some field ∧
      (readValue field e.value).Yields d := by
    intro e he
    obtain ⟨field, P, hfield, d, hd, -⟩ := hgives _ (hnode.mem e he)
    rw [Node.value?, valueOf?_of_mem hnode.nodup he] at hd
    exact ⟨field, d, hfield, hd⟩
  obtain ⟨q, hq, hothers, howns⟩ := exists_progress type own (p := {}) hnode.text hnode.nodup
    hvalues rfl (fun _ _ => List.not_mem_nil) (fun _ _ => rfl)
  refine ⟨q, hq, ?_⟩
  intro key field d hfield hd
  cases hfind : node.entries.find? (fun e => e.key.text == key) with
  | none =>
    rw [Node.value?, valueOf?, hfind] at hd
    rw [hd, hothers key]
    · rfl
    · intro e he heq
      exact List.find?_eq_none.mp hfind e he (beq_iff_eq.mpr heq)
  | some e =>
    rw [Node.value?, valueOf?, hfind] at hd
    have hkey : e.key.text = key :=
      eq_of_beq (List.find?_some (p := fun e : Entry => e.key.text == key) hfind)
    rw [← hkey] at hfield ⊢
    exact howns e (List.mem_of_find?_eq_some hfind) field d hfield hd

end Form

end TreeScript
