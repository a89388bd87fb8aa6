import TreeScript.Proofs.Form.Nodes

/-!
# The keys of nodes

A mapping that stands for a node of a program may carry only the keys of its type.  The keys and the
type are checked as they are written, before aliases are followed, and then the node is built by what
they mean.  So an accepted mapping carries only keys of the type that it is built as, if no key is an
alias or binary data and its type is no alias; otherwise it may carry others.

## Main definitions

* `Mapping.Carries` — the keys of a mapping belong to a type.
* `Mapping.Plain` — the keys and the type of a mapping mean what is written.

## Main results

* `Mapping.Plain.carries` — a mapping that means what is written carries only keys of the type that it
  is read as.
* `Program.keys_belong` — **the keys of every node in an accepted document belong to its type**, as far
  as they mean what is written.
-/

namespace TreeScript.Form

open Document (Node Entry Meaning resolve)

namespace Mapping

/-- Every key of the mapping stands for one that nodes of the type may carry. -/
def Carries (m : Mapping) (kind : NodeKind) : Prop :=
  ∀ e ∈ m.entries, ∃ name, e.key.asText? = some name ∧ kind.allows (Text.shown name)

instance (m : Mapping) (kind : NodeKind) : Decidable (m.Carries kind) :=
  decidable_of_iff (∀ e ∈ m.entries, e.key.asText?.any fun name => kind.allows (Text.shown name)) <| by
    simp only [Carries, Option.any_eq_true]

/-- No key of the mapping is an alias or binary data, and its type is no alias. -/
structure Plain (m : Mapping) : Prop where
  key : ∀ e ∈ m.entries, ∃ line tag text, e.key = .scalar line tag text ∧ tag ≠ "!!binary"
  type : ∀ e ∈ m.entries, e.key.text = "type" → ∀ line name target, e.value ≠ .alias line name target

end Mapping

/-! ### Keys that mean what is written -/

/-- A key that nodes may carry looks like a text. -/
theorem resolve_of_nodeField? {key : String} {field : FieldType} (h : nodeField? key = some field) :
    resolve key = .text (Text.ofString key) := by
  unfold nodeField? at h
  split at h <;> first | decide +kernel | cases h

/-- The keys that nodes may carry are fields. -/
theorem exists_nodeField?_of_allows {kind : NodeKind} {key : String} (h : kind.allows key) :
    ∃ field, nodeField? key = some field := by
  have hmem : key ∈ "type" :: "line" :: kind.keys := by
    simpa [NodeKind.allows, or_assoc] using h
  have hfields : ∀ key ∈ "type" :: "line" :: kind.keys, (nodeField? key).isSome := by
    cases kind <;> decide
  exact Option.isSome_iff_exists.mp (hfields key hmem)

/-- A scalar that looks like a text, and has a meaning, means that text, unless it is binary data. -/
theorem eq_text_of_meaning {tag text : String} {m : Meaning}
    (hresolve : resolve text = .text (Text.ofString text)) (hbinary : tag ≠ "!!binary")
    (h : Document.meaning tag text = .ok m) : m = .text (Text.ofString text) := by
  unfold Document.meaning at h
  rw [if_neg (by simpa using hbinary), hresolve] at h
  split at h
  · cases h
    rfl
  · next hdemanding =>
    dsimp only at h
    split at h
    · next htag =>
      -- no tag that demands something is that of a text
      rw [eq_of_beq htag] at hdemanding
      exact absurd rfl hdemanding
    · cases h

/-- The name of a type of node means itself, whatever its tag: it is no binary data. -/
theorem eq_text_of_meaning_name {kind : NodeKind} {tag : String} {m : Meaning}
    (h : Document.meaning tag kind.name = .ok m) : m = .text (Text.ofString kind.name) := by
  have hresolve : resolve kind.name = .text (Text.ofString kind.name) := by
    cases kind <;> decide +kernel
  have hdecode : Text.decodeBase64 kind.name = none := by
    cases kind <;> decide +kernel
  by_cases hbinary : tag = "!!binary"
  · subst hbinary
    rw [Document.meaning, if_pos (beq_self_eq_true _), hdecode] at h
    cases h
  · exact eq_text_of_meaning hresolve hbinary h

theorem eq_name_of_ofName? {name : String} {kind : NodeKind} (h : NodeKind.ofName? name = some kind) :
    name = kind.name := by
  have hname := List.find?_some h
  exact (eq_of_beq hname).symm

/-- What the checks of a node come to. -/
theorem exists_written_of_checkNode {line : Nat} {entries : List Entry}
    (h : checkNode line entries = .ok ()) :
    ∃ kind, NodeKind.ofName? (writtenType entries) = some kind ∧
      ∀ e ∈ entries, kind.allows e.key.text := by
  unfold checkNode at h
  dsimp only at h
  split at h
  · cases h
  · next kind hkind =>
    split at h
    · cases h
    · next hfind =>
      refine ⟨kind, hkind, fun e he => ?_⟩
      simpa using List.find?_eq_none.mp hfind e he

/-- A node merges nothing. -/
theorem not_isMergeKey_of_allows {kind : NodeKind} {key : Node} (h : kind.allows key.text) :
    ¬ isMergeKey key := by
  intro hmerge
  obtain ⟨field, hfield⟩ := exists_nodeField?_of_allows h
  cases key with
  | scalar line tag text =>
    rw [isMergeKey, Bool.and_eq_true, beq_iff_eq, beq_iff_eq] at hmerge
    obtain ⟨-, rfl⟩ := hmerge
    cases hfield
  | _ => cases hmerge

/-- A scalar that is read as a text has a meaning. -/
theorem ensures_exists_meaning (line : Nat) (tag text : String) :
    (readValue .text (.scalar line tag text)).Ensures fun _ =>
      ∃ m, Document.meaning tag text = .ok m := by
  rw [readValue]
  refine .after _ fun _ => (Read.ensures_meaning tag text).bind fun m hm => ?_
  exact (Read.ensures_true _).mono fun _ _ => ⟨m, hm⟩

/-- Keys that are no aliases and no binary data stand for what is written, if they are read. -/
theorem asText?_of_readEntries {own : List Node} {p q : Progress} {entries : List Entry}
    (hallows : ∀ e ∈ entries, ∃ kind : NodeKind, kind.allows e.key.text)
    (hscalar : ∀ e ∈ entries, ∃ line tag text, e.key = .scalar line tag text ∧ tag ≠ "!!binary")
    (h : (readEntries .node own p entries).Ends q) :
    ∀ e ∈ entries, e.key.asText? = some (Text.ofString e.key.text) := by
  induction entries generalizing p with
  | nil => exact List.forall_mem_nil _
  | cons e rest ih =>
    obtain ⟨key, value⟩ := e
    rw [List.forall_mem_cons] at hallows hscalar ⊢
    obtain ⟨⟨kind, hkind⟩, hallows⟩ := hallows
    obtain ⟨⟨line, tag, text, rfl, hbinary⟩, hscalar⟩ := hscalar
    obtain ⟨⟨r, r', d, hread⟩, p₁, -, h₁⟩ := exists_step_of_entry (not_isMergeKey_of_allows hkind) h
    obtain ⟨m, hm⟩ := ensures_exists_meaning line tag text r r' d hread
    refine ⟨?_, ih hallows hscalar h₁⟩
    obtain ⟨field, hfield⟩ := exists_nodeField?_of_allows hkind
    have htext := eq_text_of_meaning (resolve_of_nodeField? hfield) hbinary hm
    show Node.asText? (.scalar line tag text) = some (Text.ofString text)
    rw [Node.asText?, hm, htext]
    rfl

/-- Scalars that are not written alike have different texts. -/
theorem nodup_of_duplicateKeys {entries : List Entry}
    (hscalar : ∀ e ∈ entries, ∃ line tag text, e.key = .scalar line tag text ∧ tag ≠ "!!binary")
    (h : duplicateKeys entries = []) : (entries.map fun e => e.key.text).Nodup := by
  induction entries with
  | nil => exact List.nodup_nil
  | cons e rest ih =>
    rw [duplicateKeys, List.append_eq_nil_iff, List.map_eq_nil_iff, List.filter_eq_nil_iff] at h
    rw [List.forall_mem_cons] at hscalar
    obtain ⟨⟨line, tag, text, hkey, -⟩, hscalar⟩ := hscalar
    rw [List.map_cons, List.nodup_cons]
    refine ⟨fun hmem => ?_, ih hscalar h.2⟩
    obtain ⟨f, hf, heq⟩ := List.mem_map.mp hmem
    obtain ⟨line', tag', text', hkey', -⟩ := hscalar f hf
    refine h.1 f hf ?_
    rw [hkey, hkey'] at heq ⊢
    exact beq_iff_eq.mpr heq.symm

/-! ### The type that is written -/

theorem foldl_type_of_ne {entries : List Entry} (h : ∀ e ∈ entries, e.key.text ≠ "type")
    (type : String) :
    entries.foldl (fun type e => if e.key.text == "type" then e.value.text else type) type = type := by
  induction entries with
  | nil => rfl
  | cons e rest ih =>
    rw [List.forall_mem_cons] at h
    rw [List.foldl_cons, if_neg (by simpa using h.1)]
    exact ih h.2

/-- The type that is written is that of the entry which gives the type, if keys stand for what is
written and no two are the same. -/
theorem exists_given_of_writtenType {entries : List Entry}
    (hmerge : ∀ e ∈ entries, ¬ isMergeKey e.key)
    (hkeys : ∀ e ∈ entries, e.key.asText? = some (Text.ofString e.key.text))
    (hnodup : (entries.map fun e => e.key.text).Nodup) (hne : writtenType entries ≠ "") :
    ∃ e ∈ entries, e.key.text = "type" ∧ given? "type" entries = some e.value ∧
      writtenType entries = e.value.text := by
  induction entries with
  | nil => exact absurd rfl hne
  | cons e rest ih =>
    rw [List.forall_mem_cons] at hmerge hkeys
    rw [List.map_cons, List.nodup_cons] at hnodup
    rw [given?_cons, if_neg hmerge.1, hkeys.1]
    rw [writtenType, List.foldl_cons] at hne ⊢
    by_cases htype : e.key.text = "type"
    · refine ⟨e, List.mem_cons_self, htype, if_pos (congrArg _ (congrArg _ htype)), ?_⟩
      rw [if_pos (beq_iff_eq.mpr htype)]
      refine foldl_type_of_ne (fun f hf heq => hnodup.1 ?_) _
      exact List.mem_map.mpr ⟨f, hf, heq.trans htype.symm⟩
    · have hother : some (Text.ofString e.key.text) ≠ some (Text.ofString "type") :=
        fun heq => htype (Text.ofString_injective (Option.some.inj heq))
      rw [beq_eq_false_iff_ne.mpr htype, if_neg Bool.false_ne_true] at hne ⊢
      rw [if_neg hother]
      obtain ⟨f, hf, hftype, hgiven, htext⟩ := ih hmerge.2 hkeys.2 hnodup.2 hne
      exact ⟨f, List.mem_cons_of_mem _ hf, hftype, hgiven, htext⟩

/-- The name of a type of node stands for itself, if it is read and no alias shows it. -/
theorem asText?_of_name {value : Node} {kind : NodeKind} {d : Option Data}
    (halias : ∀ line name target, value ≠ .alias line name target) (hname : kind.name = value.text)
    (h : (readValue .text value).Ends d) : value.asText? = some (Text.ofString kind.name) := by
  have hne : kind.name ≠ "" := by
    cases kind <;> decide
  cases value with
  | scalar line tag text =>
    obtain ⟨m, hm⟩ := (ensures_exists_meaning line tag text).passes.of_ends h
    rw [Node.asText?, hm]
    change kind.name = text at hname
    rw [← hname] at hm
    rw [eq_text_of_meaning_name hm]
  | «alias» line name target => exact absurd rfl (halias line name target)
  | sequence _ _ _ | mapping _ _ _ => exact absurd hname hne

/-- **A mapping whose keys and type mean what is written carries only keys of the type that it is read
as.** -/
theorem Mapping.Plain.carries {m : Mapping} {e : Expr} (hplain : m.Plain)
    (hcheck : checkNode m.line m.entries = .ok ()) (hdistinct : duplicateKeys m.entries = [])
    (hread : m.ReadAs e) : ∃ kind, kindOf? e = some kind ∧ m.Carries kind := by
  obtain ⟨own, p, hown, hp, hbuild⟩ := hread
  obtain ⟨written, hwritten, hallows⟩ := exists_written_of_checkNode hcheck
  have hkeys := asText?_of_readEntries (fun e he => ⟨written, hallows e he⟩) hplain.key hp
  have hname := eq_name_of_ofName? hwritten
  -- the type that is written is given to the record
  obtain ⟨x, hx, hxtype, hgiven, htext⟩ := exists_given_of_writtenType
    (fun e he => not_isMergeKey_of_allows (hallows e he)) hkeys
    (nodup_of_duplicateKeys hplain.key hdistinct)
    (by rw [hname]; cases written <;> decide)
  have hnode : RecordType.node ≠ .program := by decide
  obtain ⟨d, hd, hlookup⟩ := exists_read_of_given? hnode rfl hown hp hgiven
  rw [hname] at htext
  have hvalue := asText?_of_name (hplain.type x hx hxtype) htext hd
  have hd := (ensures_readValue_text x.value).passes.of_ends hd
  rw [hvalue] at hd
  -- so the type that is built is the one that is written
  obtain ⟨kind, hkind, hbuilt, -⟩ := exists_kind_of_build hbuild
  have htype : p.record.text "type" = Text.ofString written.name := by
    rw [Record.text, Record.text?, hlookup _ hd]
    rfl
  rw [htype, Text.shown_ofString, ← hname, hwritten] at hkind
  cases hkind
  refine ⟨written, hbuilt, fun y hy => ⟨_, hkeys y hy, ?_⟩⟩
  rw [Text.shown_ofString]
  exact hallows y hy

end TreeScript.Form

namespace TreeScript

open Document (Node Entry)
open Form

/-- **The keys of every node in an accepted document belong to its type, as far as they mean what is
written.**  Wherever the node stands, behind aliases or in what is merged, its mapping is read as an
expression, which is a node of the program unless the root is tagged as meaning nothing.  The keys, as
they are written, all belong to the type that is written.  And whatever the mapping is read as, its keys
belong to the type of that, if no key is an alias or binary data and the type is no alias. -/
theorem Program.keys_belong {node : Node} {p : Program} (h : Program.ofNode node = .ok p)
    {m : Mapping} (hm : node.HoldsNode m) :
    (∃ e, m.ReadAs e ∧ ((∃ line entries, node = .mapping line "!!null" entries) ∨
      ∃ b, p.body = some b ∧ e ∈ (Expr.block b).nodes)) ∧
    (∃ kind, NodeKind.ofName? (writtenType m.entries) = some kind ∧
      ∀ e ∈ m.entries, kind.allows e.key.text) ∧
    ∀ e, m.ReadAs e → ∃ kind, kindOf? e = some kind ∧ (m.Plain → m.Carries kind) := by
  obtain ⟨es, haccepted, hroot⟩ := exists_acceptedIn h hm
  refine ⟨?_, exists_written_of_checkNode haccepted.checked, ?_⟩
  · obtain ⟨e, he, part, hpart, hread⟩ := haccepted.read
    refine ⟨part, hread, ?_⟩
    rcases hroot with hnull | ⟨b, hb, rfl⟩
    · exact Or.inl hnull
    · cases List.mem_singleton.mp he
      exact Or.inr ⟨b, hb, hpart⟩
  · intro e hread
    obtain ⟨own, q, hown, hq, hbuild⟩ := hread
    obtain ⟨kind, -, hkind, -⟩ := exists_kind_of_build hbuild
    refine ⟨kind, hkind, fun hplain => ?_⟩
    obtain ⟨kind', hkind', hcarries⟩ :=
      hplain.carries haccepted.checked haccepted.distinct ⟨own, q, hown, hq, hbuild⟩
    rw [hkind] at hkind'
    cases hkind'
    exact hcarries

/-- The node that the document `shared` uses in several places. -/
def sharedAccess : Mapping :=
  ⟨1, [.mk (.ofString "type") (.ofString "LocalVarAccess"), .mk (.ofString "name") (.ofString "x")]⟩

/-- The document `shared` is accepted, so a node that is merged into an initialiser and stands behind an
alias there carries only keys of its type. -/
theorem keys_belong_shared : ∃ p b e kind, Program.ofNode shared = .ok p ∧
    shared.HoldsNode sharedAccess ∧ sharedAccess.Plain ∧ p.body = some b ∧
    e ∈ (Expr.block b).nodes ∧ sharedAccess.ReadAs e ∧ kindOf? e = some kind ∧
    sharedAccess.Carries kind := by
  have haccepted : (Program.ofNode shared).toOption.any (fun _ => true) = true := by decide +kernel
  obtain ⟨p, hp, -⟩ := exists_ok_of_any haccepted
  have hm : shared.HoldsNode sharedAccess := by
    have hblock : Mapping.kind? ⟨1, shared.entries⟩ = some .block := by decide +kernel
    refine Or.inl (.field (Or.inr rfl) (by decide) hblock List.mem_cons_self rfl rfl (.item
      (List.mem_cons_of_mem _ (List.mem_cons_of_mem _ List.mem_cons_self)) ?_))
    refine .field (Or.inl rfl) (by decide) (show _ = some NodeKind.object by decide +kernel)
      List.mem_cons_self rfl rfl (.item (List.mem_cons_of_mem _ List.mem_cons_self) ?_)
    exact .init rfl (.aliased (.self (Or.inl rfl) (by decide)))
  have hplain : sharedAccess.Plain := by
    constructor
    · show ∀ e ∈ [_, _], _
      rw [List.forall_mem_cons, List.forall_mem_singleton]
      exact ⟨⟨1, "!!str", "type", rfl, by decide⟩, ⟨1, "!!str", "name", rfl, by decide⟩⟩
    · show ∀ e ∈ [_, _], _
      rw [List.forall_mem_cons, List.forall_mem_singleton]
      exact ⟨fun _ _ _ _ => nofun, fun _ _ _ _ => nofun⟩
  obtain ⟨⟨e, hread, hroot⟩, -, hkeys⟩ := Program.keys_belong hp hm
  obtain ⟨kind, hkind, hcarries⟩ := hkeys e hread
  rcases hroot with ⟨line, entries, heq⟩ | ⟨b, hb, he⟩
  · have htag : "!!map" = "!!null" := congrArg Node.tag heq
    exact absurd htag (by decide)
  · exact ⟨p, b, e, kind, hp, hm, hplain, hb, he, hread, hkind, hcarries hplain⟩

/-- A document with a node, after one whose keys may be named. -/
def hosting (m : Mapping) : Node :=
  .ofFields [("type", .ofString "Block"), ("instrs", .ofItems
    [.ofFields [("type", .ofString "Literal"), ("value", .ofNumeral "5")],
      .mapping m.line "!!map" m.entries])]

/-- The document with the node is accepted, and the node is read as an expression of a type that does
not allow all its keys. -/
def Form.Mapping.IsStrange (m : Mapping) : Prop :=
  ∃ p e kind, Program.ofNode (hosting m) = .ok p ∧ (hosting m).HoldsNode m ∧ m.ReadAs e ∧
    kindOf? e = some kind ∧ ¬ m.Carries kind

theorem Form.Mapping.isStrange_of_any {m : Mapping}
    (haccepted : (Program.ofNode (hosting m)).toOption.any (fun _ => true) = true)
    (hread : (readEntries .node (m.entries.map Entry.key) {} m.entries {}).toOption.any (fun (p, r) =>
      r.problems.isEmpty && (build m.line p.record).toOption.any fun e =>
        (kindOf? e).any fun kind => ¬ m.Carries kind) = true) : m.IsStrange := by
  obtain ⟨p, hp, -⟩ := exists_ok_of_any haccepted
  obtain ⟨⟨q, r⟩, hq, htest⟩ := exists_ok_of_any hread
  rw [Bool.and_eq_true, List.isEmpty_iff] at htest
  obtain ⟨hproblems, hbuild⟩ := htest
  obtain ⟨e, he, hkind⟩ := exists_ok_of_any hbuild
  obtain ⟨kind, hkind, hcarries⟩ := (Option.any_eq_true _ _).mp hkind
  refine ⟨p, e, kind, hp, Or.inl ?_, ⟨_, q, Or.inr rfl, ⟨{}, r, hq, hproblems⟩, he⟩, hkind,
    of_decide_eq_true hcarries⟩
  refine .field (Or.inr rfl) (by decide) (show _ = some NodeKind.block from rfl) List.mem_cons_self
    rfl rfl (.item (List.mem_cons_of_mem _ List.mem_cons_self) ?_)
  exact .self (Or.inl rfl) (by decide)

/-- A block whose type is an alias, which shows the name of another type. -/
def aliasedType : Mapping :=
  ⟨1, [.mk (.ofString "type") (.alias 1 "Literal" (.ofString "Block")),
    .mk (.ofString "value") (.ofNumeral "5")]⟩

/-- A call with another key. -/
def callWith (key : Node) : Mapping :=
  let callee : Node := .ofFields [("type", .ofString "LocalVarAccess"), ("name", .ofString "f")]
  ⟨1, [.mk (.ofString "type") (.ofString "FunCall"), .mk (.ofString "callee") callee,
    .mk key (.ofNumeral "5")]⟩

/-- Nodes are accepted with keys that do not belong to their type, if the type is an alias, if a key is
an alias, and if a key is binary data. -/
theorem strange_keys_accepted : aliasedType.IsStrange ∧
    (callWith (.alias 1 "args" (.ofString "value"))).IsStrange ∧
    (callWith (.scalar 1 "!!binary" "args")).IsStrange := by
  refine ⟨?_, ?_, ?_⟩
  · exact Form.Mapping.isStrange_of_any (by decide +kernel) (by decide +kernel)
  · exact Form.Mapping.isStrange_of_any (by decide +kernel) (by decide +kernel)
  · exact Form.Mapping.isStrange_of_any (by decide +kernel) (by decide +kernel)

end TreeScript
