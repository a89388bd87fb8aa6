import TreeScript.Proofs.Form.Fields

/-!
# What a mapping gives to a field

A key means what its alias stands for and what its tag makes of it, which is not always what it shows.
What the keys of a mapping do not give to a field may be merged into it from other mappings, of which
the first counts.  If the mapping is read without a problem, the node that is given to a field so is
read without one too, and what it is read as stands in the record.

## Main definitions

* `Node.asText?` — the text that a node stands for.
* `given?` — the node that a mapping gives to a field.
* `Takes` — how a field fares while a record is read.
* `EntryStep` — what an entry does to a record.

## Main results

* `keeps_readValue`, `keeps_readEntries` — reading takes back no problem.
* `takes_of_readEntries` — **a mapping that is read without a problem sets its fields to what it gives
  to them.**
-/

namespace TreeScript.Form

open Document (Node Entry Meaning)

/-! ### Reading takes back no problem -/

theorem keeps_mismatch (type : FieldType) (node : Node) : (mismatch type node).Keeps :=
  (Read.keeps_report _).bind fun _ => Read.keeps_pure _

theorem keeps_readScalar (type : FieldType) (line : Nat) (tag text : String) :
    (readScalar type line tag text).Keeps := by
  refine .ite (Read.keeps_pure _) (.ite (Read.keeps_reject _) ?_)
  refine (Read.keeps_meaning tag text).bind fun m => ?_
  split
  · exact Read.keeps_pure _
  · refine .ite (Read.keeps_reject _) ?_
    split
    · exact Read.keeps_pure _
    · exact keeps_mismatch _ _

theorem keeps_partData (type : FieldType) (before : Nat) (p : Part) :
    (partData type before p).Keeps := by
  refine .ite (Read.keeps_get.bind fun r => .ite (Read.keeps_pure _) ?_) (Read.keeps_pure _)
  split
  · exact Read.keeps_pure _
  · exact Read.keeps_reject _

theorem keeps_readNode {type : FieldType} {line : Nat} {entries : List Entry}
    {fields : Read Progress} (hfields : fields.Keeps) :
    (readNode type line entries fields).Keeps := by
  unfold readNode
  split
  · exact Read.keeps_reject _
  · refine Read.keeps_get.bind fun r => .apart (Read.keeps_visit.bind fun _ => ?_)
    exact keeps_unlessRepeated (hfields.bind fun p => keeps_partData _ _ _)

theorem keeps_keyText? (key : Node) : (keyText? key).Keeps := by
  unfold keyText?
  split
  · refine (Read.keeps_meaning _ _).bind fun m => ?_
    split
    · exact Read.keeps_pure _
    · exact Read.keeps_pure _
  · exact Read.keeps_reject _

theorem keeps_keyTexts (keys : List Node) : (keyTexts keys).Keeps := by
  fun_induction keyTexts keys with
  | case1 => exact Read.keeps_pure _
  | case2 line name target rest ih =>
    refine Read.keeps_visit.bind fun _ => ?_
    refine (Read.Keeps.throughAlias (Read.keeps_visit.bind fun _ => keeps_keyText? target)).bind ?_
    exact fun text => ih.bind fun _ => Read.keeps_pure _
  | case3 key rest halias ih =>
    refine Read.keeps_visit.bind fun _ => (keeps_keyText? key).bind ?_
    exact fun text => ih.bind fun _ => Read.keeps_pure _

theorem Progress.keeps_merging (p : Progress) (own : List Node) : (p.merging own).Keeps := by
  unfold merging
  split
  · exact Read.keeps_pure _
  · exact (keeps_keyTexts own).bind fun _ => Read.keeps_pure _

theorem keeps_mergeMapping {type : RecordType} {p : Progress} {line : Nat} {tag : String}
    {entries : List Entry} {node fields : Read Progress} (hnode : node.Keeps)
    (hfields : fields.Keeps) : (mergeMapping type p line tag entries node fields).Keeps := by
  refine Read.keeps_visit.bind fun _ => .ite ?_ (keeps_unlessRepeated hfields)
  exact (keeps_readNode hnode).bind fun _ => Read.keeps_pure _

mutual

theorem keeps_readValue (type : FieldType) : (node : Node) → (readValue type node).Keeps
  | .alias line name target => by
    rw [readValue]
    exact Read.keeps_visit.bind fun _ => .ite (Read.keeps_pure _)
      (keeps_readValue type target).throughAlias
  | .scalar line tag text => by
    rw [readValue]
    exact Read.keeps_visit.bind fun _ => keeps_readScalar _ _ _ _
  | .sequence line tag items => by
    cases type with
    | raw =>
      rw [readValue]
      exact Read.keeps_visit.bind fun _ => Read.keeps_pure _
    | list item =>
      rw [readValue]
      exact Read.keeps_visit.bind fun _ => (keeps_readItems item items).bind fun _ => Read.keeps_pure _
    | part | program =>
      rw [readValue]
      exact Read.keeps_visit.bind fun _ => .ite (keeps_mismatch _ _) (Read.keeps_reject _)
    | gap =>
      rw [readValue]
      exact Read.keeps_visit.bind fun _ => Read.keeps_reject _
    | text | maybeText | number | flag | init | block =>
      simp only [readValue]
      exact Read.keeps_visit.bind fun _ => keeps_mismatch _ _
  | .mapping line tag entries => by
    rw [readValue]
    refine Read.keeps_visit.bind fun _ => .ite (Read.keeps_pure _) (.ite ?_ ?_)
    · exact keeps_readNode (keeps_readEntries .node _ {} entries)
    · refine keeps_unlessRepeated (.ite ?_ (.ite ?_ (.ite (Read.keeps_reject _) ?_)))
      · exact (keeps_readEntries .init _ {} entries).bind fun _ => Read.keeps_pure _
      · exact (keeps_readEntries .block _ {} entries).bind fun _ => Read.keeps_pure _
      · exact keeps_mismatch _ _

theorem keeps_readItems (item : FieldType) : (nodes : List Node) → (readItems item nodes).Keeps
  | [] => by
    rw [readItems]
    exact Read.keeps_pure _
  | node :: rest => by
    rw [readItems]
    refine (keeps_readValue item node).bind fun d => ?_
    exact (keeps_readItems item rest).bind fun ds => Read.keeps_pure _

theorem keeps_readEntries (type : RecordType) (own : List Node) (p : Progress) :
    (entries : List Entry) → (readEntries type own p entries).Keeps
  | [] => by
    rw [readEntries]
    exact Read.keeps_pure _
  | .mk key value :: rest => by
    rw [readEntries]
    refine .ite ?_ ((keeps_readValue .text key).bind fun name => ?_)
    · refine (keeps_readEntries type own p rest).bind fun q => ?_
      exact (q.keeps_merging own).bind fun q' => keeps_readMerge type q' value
    · split
      · refine .ite (keeps_readEntries type own p rest) ?_
        split
        · refine .ite ((Read.keeps_report _).bind fun _ => ?_) ?_
          · exact keeps_readEntries type own _ rest
          · exact keeps_readEntries type own _ rest
        · refine .ite ((Read.keeps_report _).bind fun _ => keeps_readEntries type own p rest) ?_
          exact (keeps_readValue _ value).bind fun d => keeps_readEntries type own _ rest
      · exact keeps_readEntries type own p rest

theorem keeps_readMerge (type : RecordType) (p : Progress) :
    (node : Node) → (readMerge type p node).Keeps
  | .mapping line tag entries => by
    rw [readMerge]
    exact keeps_mergeMapping (keeps_readEntries .node [] {} entries)
      (keeps_readEntries type [] _ entries)
  | .alias _ _ (.mapping line tag entries) => by
    rw [readMerge]
    refine Read.keeps_visit.bind fun _ => .throughAlias ?_
    exact keeps_mergeMapping (keeps_readEntries .node [] {} entries)
      (keeps_readEntries type [] _ entries)
  | .sequence _ _ items => by
    rw [readMerge]
    exact keeps_readMergeItems type p items
  | .scalar _ _ _ | .alias _ _ (.scalar _ _ _) | .alias _ _ (.sequence _ _ _)
  | .alias _ _ (.alias _ _ _) => Read.keeps_reject (.malformed .badMerge)

theorem keeps_readMergeItems (type : RecordType) (p : Progress) :
    (nodes : List Node) → (readMergeItems type p nodes).Keeps
  | [] => by
    rw [readMergeItems]
    exact Read.keeps_pure _
  | .mapping line tag entries :: rest => by
    rw [readMergeItems]
    refine (keeps_mergeMapping (keeps_readEntries .node [] {} entries)
      (keeps_readEntries type [] _ entries)).bind fun q => ?_
    exact keeps_readMergeItems type q rest
  | .alias _ _ (.mapping line tag entries) :: rest => by
    rw [readMergeItems]
    refine Read.keeps_visit.bind fun _ => ?_
    refine (Read.Keeps.throughAlias (keeps_mergeMapping (keeps_readEntries .node [] {} entries)
      (keeps_readEntries type [] _ entries))).bind fun q => ?_
    exact keeps_readMergeItems type q rest
  | .scalar _ _ _ :: _ | .sequence _ _ _ :: _ | .alias _ _ (.scalar _ _ _) :: _
  | .alias _ _ (.sequence _ _ _) :: _ | .alias _ _ (.alias _ _ _) :: _ =>
    Read.keeps_reject (.malformed .badMerge)

end

end TreeScript.Form

namespace TreeScript

open Document (Node Entry Meaning)

/-! ### What nodes stand for -/

/-- The text that a node stands for where a text is asked for: any scalar that means something stands
for one, and an alias for what its node does. -/
def Document.Node.asText? : Node → Option Text
  | .alias _ _ target => target.asText?
  | .scalar _ tag text =>
    match meaning tag text with
    | .ok .null => none
    | .ok (.text s) => some s
    | .ok _ => some (Text.ofString text)
    | .error _ => none
  | .sequence _ _ _ | .mapping _ _ _ => none

namespace Form

/-- Where a text is asked for, a node is read as the text it stands for. -/
theorem ensures_readValue_text : (node : Node) →
    (readValue .text node).Ensures fun d => d = node.asText?.map Data.text
  | .alias line name target => by
    rw [readValue]
    exact .after _ fun _ => .ite nofun fun _ => (ensures_readValue_text target).throughAlias
  | .scalar line tag text => by
    rw [readValue]
    refine .after _ fun _ => (Read.ensures_meaning tag text).bind fun m hm => ?_
    rw [Node.asText?, hm]
    cases m <;> exact Read.ensures_pure rfl
  | .sequence line tag items => by
    simp only [readValue]
    exact .after _ fun _ => .after _ fun _ => Read.ensures_pure rfl
  | .mapping line tag entries => by
    rw [readValue]
    refine .after _ fun _ => .ite nofun fun _ => .ite nofun fun _ => ?_
    refine ensures_unlessRepeated rfl (.ite nofun fun _ => .ite nofun fun _ => .ite nofun fun _ => ?_)
    exact .after _ fun _ => Read.ensures_pure rfl

/-- The texts of keys are texts that keys stand for. -/
theorem ensures_keyText? (key : Node) :
    (keyText? key).Ensures fun text => ∀ t, text = some t → key.asText? = some t := by
  cases key with
  | scalar line tag text =>
    refine (Read.ensures_meaning tag text).bind fun m hm => ?_
    rw [Node.asText?, hm]
    split
    · exact Read.ensures_pure fun t => id
    · exact Read.ensures_pure nofun
  | _ => exact Read.ensures_reject _

theorem ensures_keyTexts (keys : List Node) :
    (keyTexts keys).Ensures fun texts => ∀ t ∈ texts, ∃ key ∈ keys, key.asText? = some t := by
  fun_induction keyTexts keys with
  | case1 => exact Read.ensures_pure (List.forall_mem_nil _)
  | case2 line name target rest ih =>
    refine .after _ fun _ => ?_
    refine (Read.Ensures.throughAlias (.after _ fun _ => ensures_keyText? target)).bind ?_
    intro text htext
    refine ih.bind fun texts htexts => Read.ensures_pure ?_
    rw [List.forall_mem_append]
    refine ⟨fun t ht => ⟨_, List.mem_cons_self, htext t (Option.mem_toList.mp ht)⟩, ?_⟩
    intro t ht
    obtain ⟨key, hkey, hmeans⟩ := htexts t ht
    exact ⟨key, List.mem_cons_of_mem _ hkey, hmeans⟩
  | case3 key rest halias ih =>
    refine .after _ fun _ => (ensures_keyText? key).bind ?_
    intro text htext
    refine ih.bind fun texts htexts => Read.ensures_pure ?_
    rw [List.forall_mem_append]
    refine ⟨fun t ht => ⟨_, List.mem_cons_self, htext t (Option.mem_toList.mp ht)⟩, ?_⟩
    intro t ht
    obtain ⟨key, hkey, hmeans⟩ := htexts t ht
    exact ⟨key, List.mem_cons_of_mem _ hkey, hmeans⟩

/-! ### The node that is given to a field -/

mutual

/-- The node that entries give to a field: the value of the first key that stands for its name, or else
what is merged for it. -/
def given? (name : String) : List Entry → Option Node
  | [] => none
  | .mk key value :: rest =>
    if isMergeKey key then (given? name rest).or (merged? name value)
    else if key.asText? = some (Text.ofString name) then some value
    else given? name rest

/-- The node that a merged mapping, or the first of several, gives to a field. -/
def merged? (name : String) : Node → Option Node
  | .mapping _ _ entries => given? name entries
  | .alias _ _ (.mapping _ _ entries) => given? name entries
  | .sequence _ _ items => mergedItems? name items
  | _ => none

/-- The node that the first of several merged mappings gives to a field. -/
def mergedItems? (name : String) : List Node → Option Node
  | [] => none
  | .mapping _ _ entries :: rest => (given? name entries).or (mergedItems? name rest)
  | .alias _ _ (.mapping _ _ entries) :: rest => (given? name entries).or (mergedItems? name rest)
  | _ :: _ => none

end

/-- What the first entry adds to the others. -/
theorem given?_cons (name : String) (e : Entry) (rest : List Entry) :
    given? name (e :: rest) =
      if isMergeKey e.key then (given? name rest).or (merged? name e.value)
      else if e.key.asText? = some (Text.ofString name) then some e.value
      else given? name rest := by
  obtain ⟨key, value⟩ := e
  rw [given?]
  rfl

/-- No key of the entries that does not merge stands for the name. -/
def Lacks (entries : List Entry) (name : String) : Prop :=
  ∀ e ∈ entries, isMergeKey e.key = false → e.key.asText? ≠ some (Text.ofString name)

/-- If nothing is given to a field, no key of the mapping itself stands for its name. -/
theorem lacks_of_given?_eq_none {name : String} {entries : List Entry}
    (h : given? name entries = none) : Lacks entries name := by
  induction entries with
  | nil => exact List.forall_mem_nil _
  | cons e rest ih =>
    rw [given?_cons] at h
    rw [Lacks, List.forall_mem_cons]
    split at h
    · next hmerge =>
      refine ⟨fun hkey => absurd hmerge (Bool.eq_false_iff.mp hkey), ih ?_⟩
      exact (Option.or_eq_none_iff.mp h).1
    · split at h
      · cases h
      · next hname => exact ⟨fun _ => hname, ih h⟩

/-! ### How a field fares -/

/-- A field can still be set: it is not, and its name is not taken. -/
structure Progress.Open (p : Progress) (name : String) : Prop where
  unset : p.record.lookup name = none
  free : ∀ names, p.taken = some names → Text.ofString name ∉ names

/-- Going from one progress to another, a field that was set stays as it is, and one that could still be
set is given a node, if there is one: the node is read without a problem, and the field is set to what
it is read as. -/
structure Takes (name : String) (field : FieldType) (given : Option Node) (p q : Progress) : Prop where
  keep : ∀ d, p.record.lookup name = some d → q.record.lookup name = some d
  read : p.Open name → ∀ node, given = some node → ∃ d, (readValue field node).Ends d ∧
    ∀ d', d = some d' → q.record.lookup name = some d'
  pass : p.Open name → given = none → q.Open name

namespace Takes

variable {name : String} {field : FieldType} {p q s : Progress}

/-- Where nothing is given, it is enough that the field and the names that are taken stay alike. -/
theorem of_lookup_eq (hrecord : q.record.lookup name = p.record.lookup name)
    (hfree : (∀ names, p.taken = some names → Text.ofString name ∉ names) →
      ∀ names, q.taken = some names → Text.ofString name ∉ names) :
    Takes name field none p q where
  keep _ hd := hrecord.trans hd
  read _ := nofun
  pass hp _ := ⟨hrecord.trans hp.unset, hfree hp.free⟩

theorem refl (p : Progress) : Takes name field none p p :=
  of_lookup_eq rfl id

/-- Another name that is taken is of no concern. -/
theorem of_taken_other {text : Text} (hne : text ≠ Text.ofString name)
    (hrecord : q.record.lookup name = p.record.lookup name)
    (htaken : q.taken = p.taken.map (text :: ·)) : Takes name field none p q := by
  refine of_lookup_eq hrecord fun hfree names hnames hmem => ?_
  rw [htaken] at hnames
  obtain ⟨names', hnames', rfl⟩ := Option.map_eq_some_iff.mp hnames
  rcases List.mem_cons.mp hmem with heq | hmem
  · exact hne heq.symm
  · exact hfree names' hnames' hmem

theorem clear (p : Progress) : Takes name field none p { p with given := [] } :=
  of_lookup_eq rfl id

/-- What comes first is taken. -/
theorem trans {first second : Option Node} (h : Takes name field first p q)
    (h' : Takes name field second q s) : Takes name field (first.or second) p s where
  keep d hd := h'.keep d (h.keep d hd)
  read hp node hnode := by
    cases first with
    | none =>
      rw [Option.none_or] at hnode
      exact h'.read (h.pass hp rfl) node hnode
    | some node' =>
      cases hnode
      obtain ⟨d, hread, hd⟩ := h.read hp node rfl
      exact ⟨d, hread, fun d' hd' => h'.keep d' (hd d' hd')⟩
  pass hp hnone := by
    rw [Option.or_eq_none_iff] at hnone
    exact h'.pass (h.pass hp hnone.1) hnone.2

/-- Once a node has been given, the field only has to stay as it is. -/
theorem keeping {node : Node} (h : Takes name field (some node) p q)
    (hkeep : ∀ d, q.record.lookup name = some d → s.record.lookup name = some d) :
    Takes name field (some node) p s where
  keep d hd := hkeep d (h.keep d hd)
  read hp node' hnode := by
    obtain ⟨d, hread, hd⟩ := h.read hp node' hnode
    exact ⟨d, hread, fun d' hd' => hkeep d' (hd d' hd')⟩
  pass _ := nofun

/-- A field whose name is taken is not given anything. -/
theorem of_taken {given second : Option Node} {names : List Text} (htaken : p.taken = some names)
    (hname : Text.ofString name ∈ names) (h : Takes name field second p q) :
    Takes name field given p q where
  keep := h.keep
  read hp := absurd hname (hp.free names htaken)
  pass hp := absurd hname (hp.free names htaken)

/-- The node that is given is read, and the field is set. -/
theorem set {node : Node} {d : Option Data} (hread : (readValue field node).Ends d) :
    Takes name field (some node) p (p.set name d) where
  keep d' hd' := by
    cases d with
    | none => exact hd'
    | some d => simp [Progress.set, List.lookup_append, hd']
  read hp _ hnode := by
    cases hnode
    exact ⟨d, hread, fun d' hd' => (p.lookup_set_self hp.unset).trans hd'⟩
  pass _ := nofun

end Takes

/-- A text that is shown as a string without the character for what cannot be shown is the text of that
string. -/
theorem eq_ofString_of_shown {t : Text} {s : String} (h : Text.shown t = s)
    (hs : '\ufffd' ∉ s.toList) : t = Text.ofString s := by
  subst h
  have hchars : ∀ x ∈ t, x = .char x.shown := by
    intro x hx
    cases x with
    | char c => rfl
    | stray b =>
      refine absurd ?_ hs
      rw [Text.shown, String.toList_ofList]
      exact List.mem_map.mpr ⟨_, hx, rfl⟩
  rw [Text.shown, Text.ofString, String.toList_ofList, List.map_map]
  exact (List.map_id t).symm.trans (List.map_congr_left hchars)

/-- Merging changes no field, and it takes only names that the keys of the mapping itself stand for. -/
theorem Progress.ensures_merging_free (p : Progress) (own : List Node) (name : String) :
    (p.merging own).Ensures fun q => q.record = p.record ∧
      ((∀ key ∈ own, key.asText? ≠ some (Text.ofString name)) →
        (∀ names, p.taken = some names → Text.ofString name ∉ names) →
        ∀ names, q.taken = some names → Text.ofString name ∉ names) := by
  unfold merging
  split
  · exact Read.ensures_pure ⟨rfl, fun _ => id⟩
  · refine (ensures_keyTexts own).bind fun texts htexts => Read.ensures_pure ⟨rfl, ?_⟩
    rintro hown - _ ⟨⟩ hmem
    obtain ⟨key, hkey, hmeans⟩ := htexts _ hmem
    exact hown key hkey hmeans

/-- A mapping that is merged into a record, and not into a program, is read field by field. -/
theorem ends_of_mergeMapping {type : RecordType} {p q : Progress} {line : Nat} {tag : String}
    {entries : List Entry} {node fields : Read Progress} (htype : type ≠ .program)
    (h : (mergeMapping type p line tag entries node fields).Ends q) : fields.Ends q := by
  obtain ⟨_, h⟩ := h.after
  rw [beq_eq_false_iff_ne.mpr htype, Bool.false_and, if_neg Bool.false_ne_true] at h
  exact (ends_of_unlessRepeated h).2

/-! ### Reading a mapping -/

/-- What an entry that merges nothing does to a record, if it leaves no problem. -/
inductive EntryStep (type : RecordType) (key value : Node) (p : Progress) : Progress → Prop
  /-- Its key stands for nothing. -/
  | nameless : key.asText? = none → EntryStep type key value p p
  /-- The name is taken. -/
  | taken {text names} : key.asText? = some text → p.taken = some names → text ∈ names →
      EntryStep type key value p p
  /-- There is no such field. -/
  | unknown {text} : key.asText? = some text → type.field? (Text.shown text) = none →
      EntryStep type key value p { p with taken := p.taken.map (text :: ·) }
  /-- The field is set to what the value is read as. -/
  | set {text field d} : key.asText? = some text → type.field? (Text.shown text) = some field →
      (readValue field value).Ends d → EntryStep type key value p (p.set text d)

/-- An entry that merges nothing has its key read and takes a step, and then the rest is read. -/
theorem exists_step_of_entry {type : RecordType} {own : List Node} {p q : Progress} {key value : Node}
    {rest : List Entry} (hkey : ¬ isMergeKey key)
    (h : (readEntries type own p (.mk key value :: rest)).Ends q) :
    (∃ r r' d, readValue .text key r = .ok (d, r')) ∧
      ∃ p₁, EntryStep type key value p p₁ ∧ (readEntries type own p₁ rest).Ends q := by
  have hread : (readValue .text key).Ensures fun d => d = key.asText?.map Data.text ∧
      ∃ r r' d, readValue .text key r = .ok (d, r') :=
    fun r r' d hd => ⟨ensures_readValue_text key r r' d hd, r, r', d, hd⟩
  rw [readEntries, if_neg hkey] at h
  obtain ⟨d, ⟨rfl, hread⟩, h⟩ := h.of_ensures hread
  refine ⟨hread, ?_⟩
  cases htext : key.asText? with
  | none =>
    rw [htext] at h
    exact ⟨p, .nameless htext, h⟩
  | some text =>
    rw [htext, Option.map_some] at h
    dsimp only at h
    split at h
    · next htaken =>
      cases hnames : p.taken with
      | none =>
        rw [hnames] at htaken
        cases htaken
      | some names =>
        rw [hnames, Option.getD_some, List.contains_iff_mem] at htaken
        exact ⟨p, .taken htext hnames htaken, h⟩
    · split at h
      · next hnone =>
        split at h
        · obtain ⟨_, h⟩ := h.after
          exact ⟨_, .unknown htext hnone, h⟩
        · exact ⟨_, .unknown htext hnone, h⟩
      · next field hfield =>
        split at h
        · -- the field is given a second time
          have hkeeps := keeps_readEntries type own p rest
          exact absurd h (hkeeps.not_ends_report (List.cons_ne_nil _ _))
        · obtain ⟨d, hd, h⟩ := h.of_bind fun d => keeps_readEntries type own (p.set text d) rest
          exact ⟨_, .set htext hfield hd, h⟩

/-- If the key of an entry stands for the name of a field, its value is given to the field. -/
theorem EntryStep.takes {type : RecordType} {key value : Node} {p q : Progress} {name : String}
    {field : FieldType} (h : EntryStep type key value p q) (hfield : type.field? name = some field)
    (hname : '\ufffd' ∉ name.toList) :
    Takes name field (if key.asText? = some (Text.ofString name) then some value else none) p q := by
  cases h with
  | nameless htext =>
    rw [htext, if_neg nofun]
    exact Takes.refl p
  | taken htext hnames hmem =>
    split
    · next hsame =>
      cases htext.symm.trans hsame
      exact Takes.of_taken hnames hmem (Takes.refl p)
    · exact Takes.refl p
  | @unknown text htext hnone =>
    have hne : text ≠ Text.ofString name := by
      rintro rfl
      rw [Text.shown_ofString, hfield] at hnone
      cases hnone
    rw [htext, if_neg (by simpa using hne)]
    exact Takes.of_taken_other hne rfl rfl
  | @set text field' d htext hfield' hread =>
    by_cases hsame : text = Text.ofString name
    · subst hsame
      rw [Text.shown_ofString, hfield] at hfield'
      cases hfield'
      rw [htext, if_pos rfl]
      exact Takes.set hread
    · have hshown : name ≠ Text.shown text :=
        fun heq => hsame (eq_ofString_of_shown heq.symm hname)
      rw [htext, if_neg (by simpa using hsame)]
      exact Takes.of_taken_other hsame (p.lookup_set_of_ne_shown hshown) rfl

mutual

/-- A mapping that is read without a problem gives to a field what `given?` says.  Names that its own
keys stand for are not merged, so these keys must be among its entries. -/
theorem takes_of_readEntries {type : RecordType} {name : String} {field : FieldType}
    (htype : type ≠ .program) (hfield : type.field? name = some field)
    (hname : '\ufffd' ∉ name.toList) (own : List Node) (p q : Progress) : (entries : List Entry) →
    (readEntries type own p entries).Ends q →
    (∀ d, p.record.lookup name = some d → q.record.lookup name = some d) ∧
    ((Lacks entries name → ∀ key ∈ own, key.asText? ≠ some (Text.ofString name)) →
      Takes name field (given? name entries) p q)
  | [], h => by
    rw [readEntries] at h
    cases h.of_pure
    exact ⟨fun _ => id, fun _ => Takes.refl p⟩
  | .mk key value :: rest, h => by
    rw [given?]
    by_cases hmerge : isMergeKey key
    · -- what is merged comes after the other entries
      rw [readEntries, if_pos hmerge] at h
      obtain ⟨p₁, h₁, h⟩ := h.of_bind fun p₁ => (p₁.keeps_merging own).bind fun p₂ =>
        keeps_readMerge type p₂ value
      obtain ⟨p₂, h₂, h⟩ := h.of_bind fun p₂ => keeps_readMerge type p₂ value
      obtain ⟨hkeep, htakes⟩ := takes_of_readEntries htype hfield hname own p p₁ rest h₁
      have hmerged := takes_of_readMerge htype hfield hname p₂ q value h
      obtain ⟨hrecord, hfree⟩ := (p₁.ensures_merging_free own name).passes.of_ends h₂
      have hafter : ∀ d, p₁.record.lookup name = some d → q.record.lookup name = some d :=
        fun d hd => hmerged.keep d (hrecord ▸ hd)
      refine ⟨fun d hd => hafter d (hkeep d hd), fun hown => ?_⟩
      have hown' : Lacks rest name → ∀ key ∈ own, key.asText? ≠ some (Text.ofString name) := by
        intro hkeys
        have hkey : isMergeKey key = false → key.asText? ≠ some (Text.ofString name) :=
          fun hkey => absurd hmerge (Bool.eq_false_iff.mp hkey)
        exact hown (List.forall_mem_cons.mpr ⟨hkey, hkeys⟩)
      specialize htakes hown'
      rw [if_pos hmerge]
      cases hgiven : given? name rest with
      | some node =>
        rw [hgiven] at htakes
        exact htakes.keeping hafter
      | none =>
        rw [hgiven] at htakes
        have hfree' := hfree (hown' (lacks_of_given?_eq_none hgiven))
        have hmerging : Takes name field none p₁ p₂ :=
          .of_lookup_eq (congrArg (List.lookup name) hrecord) hfree'
        exact htakes.trans (hmerging.trans hmerged)
    · obtain ⟨-, p₁, hstep, h⟩ := exists_step_of_entry hmerge h
      have hentry := hstep.takes hfield hname
      obtain ⟨hkeep, htakes⟩ := takes_of_readEntries htype hfield hname own p₁ q rest h
      refine ⟨fun d hd => hkeep d (hentry.keep d hd), fun hown => ?_⟩
      rw [if_neg hmerge]
      split
      · next hsame =>
        rw [if_pos hsame] at hentry
        exact hentry.keeping hkeep
      · next hother =>
        rw [if_neg hother] at hentry
        refine hentry.trans (htakes fun hkeys => hown ?_)
        exact List.forall_mem_cons.mpr ⟨fun _ => hother, hkeys⟩

/-- A mapping, or several, that are merged without a problem set fields to what they give to them. -/
theorem takes_of_readMerge {type : RecordType} {name : String} {field : FieldType}
    (htype : type ≠ .program) (hfield : type.field? name = some field)
    (hname : '\ufffd' ∉ name.toList) (p q : Progress) : (node : Node) →
    (readMerge type p node).Ends q → Takes name field (merged? name node) p q
  | .mapping line tag entries, h => by
    rw [readMerge] at h
    rw [merged?]
    exact (Takes.clear p).trans ((takes_of_readEntries htype hfield hname [] _ q entries
      (ends_of_mergeMapping htype h)).2 fun _ => List.forall_mem_nil _)
  | .alias _ _ (.mapping line tag entries), h => by
    rw [readMerge] at h
    rw [merged?]
    obtain ⟨_, h⟩ := h.after
    exact (Takes.clear p).trans ((takes_of_readEntries htype hfield hname [] _ q entries
      (ends_of_mergeMapping htype h.of_throughAlias)).2 fun _ => List.forall_mem_nil _)
  | .sequence _ _ items, h => by
    rw [readMerge] at h
    rw [merged?]
    exact takes_of_readMergeItems htype hfield hname p q items h
  | .scalar _ _ _, h | .alias _ _ (.scalar _ _ _), h | .alias _ _ (.sequence _ _ _), h
  | .alias _ _ (.alias _ _ _), h => absurd h Read.not_ends_reject

/-- Mappings that are merged without a problem set fields to what they give to them. -/
theorem takes_of_readMergeItems {type : RecordType} {name : String} {field : FieldType}
    (htype : type ≠ .program) (hfield : type.field? name = some field)
    (hname : '\ufffd' ∉ name.toList) (p q : Progress) : (nodes : List Node) →
    (readMergeItems type p nodes).Ends q → Takes name field (mergedItems? name nodes) p q
  | [], h => by
    rw [readMergeItems] at h
    cases h.of_pure
    exact Takes.refl p
  | .mapping line tag entries :: rest, h => by
    rw [readMergeItems] at h
    rw [mergedItems?]
    obtain ⟨p₁, h₁, h⟩ := h.of_bind fun p₁ => keeps_readMergeItems type p₁ rest
    have htakes := (takes_of_readEntries htype hfield hname [] _ p₁ entries
      (ends_of_mergeMapping htype h₁)).2 fun _ => List.forall_mem_nil _
    have htakes' := takes_of_readMergeItems htype hfield hname p₁ q rest h
    exact ((Takes.clear p).trans htakes).trans htakes'
  | .alias _ _ (.mapping line tag entries) :: rest, h => by
    rw [readMergeItems] at h
    rw [mergedItems?]
    obtain ⟨_, h⟩ := h.after
    obtain ⟨p₁, h₁, h⟩ := h.of_bind fun p₁ => keeps_readMergeItems type p₁ rest
    have htakes := (takes_of_readEntries htype hfield hname [] _ p₁ entries
      (ends_of_mergeMapping htype h₁.of_throughAlias)).2 fun _ => List.forall_mem_nil _
    have htakes' := takes_of_readMergeItems htype hfield hname p₁ q rest h
    exact ((Takes.clear p).trans htakes).trans htakes'
  | .scalar _ _ _ :: _, h | .sequence _ _ _ :: _, h | .alias _ _ (.scalar _ _ _) :: _, h
  | .alias _ _ (.sequence _ _ _) :: _, h | .alias _ _ (.alias _ _ _) :: _, h =>
    absurd h Read.not_ends_reject

end

/-- No field has a name that cannot be shown. -/
theorem not_mem_of_field? {type : RecordType} {name : String} {field : FieldType}
    (h : type.field? name = some field) : '\ufffd' ∉ name.toList := by
  unfold RecordType.field? at h
  split at h
  case h_1 =>
    unfold nodeField? at h
    split at h <;> first | decide | cases h
  all_goals first | decide | cases h

/-- A key that merges stands for its own text. -/
theorem asText?_of_isMergeKey {key : Node} (h : isMergeKey key) :
    key.asText? = some (Text.ofString Document.mergeText) := by
  cases key with
  | scalar line tag text =>
    rw [isMergeKey, Bool.and_eq_true, beq_iff_eq, beq_iff_eq] at h
    obtain ⟨rfl, rfl⟩ := h
    rfl
  | _ => cases h

/-- **The node that a mapping gives to a field is read without a problem, if the mapping is, and the
field is set to what it is read as.** -/
theorem exists_read_of_given? {type : RecordType} {name : String} {field : FieldType}
    {own : List Node} {entries : List Entry} {q : Progress} {node : Node} (htype : type ≠ .program)
    (hfield : type.field? name = some field) (hown : own = [] ∨ own = entries.map Entry.key)
    (h : (readEntries type own {} entries).Ends q) (hgiven : given? name entries = some node) :
    ∃ d, (readValue field node).Ends d ∧ ∀ d', d = some d' → q.record.lookup name = some d' := by
  have hname := not_mem_of_field? hfield
  have htakes := (takes_of_readEntries htype hfield hname own {} q entries h).2
  refine (htakes ?_).read ⟨rfl, nofun⟩ node hgiven
  intro hkeys
  rcases hown with rfl | rfl
  · exact List.forall_mem_nil _
  · rw [List.forall_mem_map]
    intro e he
    by_cases hmerge : isMergeKey e.key
    · -- no field has the name of a key that merges
      rw [asText?_of_isMergeKey hmerge]
      intro heq
      rw [← Text.ofString_injective (Option.some.inj heq)] at hfield
      cases type <;> cases hfield
    · exact hkeys e he (Bool.eq_false_iff.mpr hmerge)

end Form

end TreeScript
