import TreeScript.Proofs.Form.Accepted
import TreeScript.Proofs.Form.Given

/-!
# Where nodes stand in a document

The mappings of a document that stand for nodes of the program are found by the types of the fields they
stand in, through aliases and merged mappings: a node has others in the fields that its type may carry,
which is the type that it has once aliases have been followed.  In an accepted document each of these
mappings has been checked, and is read as a node of the program.

## Main definitions

* `Mapping` — a mapping of a document.
* `Mapping.ReadAs` — the expression that a mapping is read as.
* `Mapping.AcceptedIn` — a mapping has been checked, and is read as a node of one of some expressions.
* `HasNode`, `MergesNode`, `Node.HoldsNode` — the mappings that stand for nodes.

## Main results

* `HasNode.acceptedIn`, `MergesNode.acceptedIn` — **every node in what is read without a problem is
  accepted.**
* `Program.exists_acceptedIn` — **every node of an accepted document is accepted.**
-/

namespace TreeScript.Form

open Document (Node Entry)

/-! ### Mappings -/

/-- A mapping of a document. -/
structure Mapping where
  /-- The line it starts on. -/
  line : Nat
  /-- Its entries. -/
  entries : List Entry

namespace Mapping

/-- The type that a mapping gives to its node, once aliases have been followed. -/
def kind? (m : Mapping) : Option NodeKind :=
  ((given? "type" m.entries).bind Node.asText?).bind fun name => NodeKind.ofName? (Text.shown name)

/-- The mapping is read as an expression: its entries are read as the fields of a node, no problem is
left, and the expression is built from them. -/
def ReadAs (m : Mapping) (e : Expr) : Prop :=
  ∃ own p, (own = [] ∨ own = m.entries.map Entry.key) ∧
    (readEntries .node own {} m.entries).Ends p ∧ build m.line p.record = .ok e

/-- The mapping has passed the checks, and is read as a node of one of the expressions. -/
structure AcceptedIn (m : Mapping) (es : List Expr) : Prop where
  checked : checkNode m.line m.entries = .ok ()
  distinct : duplicateKeys m.entries = []
  read : ∃ e ∈ es, ∃ node ∈ e.nodes, m.ReadAs node

/-- The nodes of its parts are nodes of an expression. -/
theorem AcceptedIn.of_parts {m : Mapping} {e : Expr} {es : List Expr} (h : m.AcceptedIn e.parts)
    (he : e ∈ es) : m.AcceptedIn es where
  checked := h.checked
  distinct := h.distinct
  read := by
    obtain ⟨part, hpart, node, hnode, hread⟩ := h.read
    refine ⟨e, he, node, ?_, hread⟩
    rw [Expr.nodes_eq]
    exact List.mem_cons_of_mem _ (List.mem_flatMap.mpr ⟨part, hpart, hnode⟩)

end Mapping

/-! ### Where nodes stand -/

/-- A mapping stands for a node of the program in what is written for a field of a type.  A node has
others in the fields that its type may carry, an initialiser has one in its expression. -/
inductive HasNode : FieldType → Node → Mapping → Prop
  /-- An alias has the nodes of what it stands for. -/
  | aliased {type line name target m} : HasNode type target m → HasNode type (.alias line name target) m
  /-- A mapping stands for a node where one is asked for. -/
  | self {type line tag entries} : type = .part ∨ type = .program → tag ≠ "!!null" →
      HasNode type (.mapping line tag entries) ⟨line, entries⟩
  /-- The nodes in a field of a node. -/
  | field {type line tag entries kind key field value m} : type = .part ∨ type = .program →
      tag ≠ "!!null" → Mapping.kind? ⟨line, entries⟩ = some kind → key ∈ kind.keys →
      nodeField? key = some field → given? key entries = some value → HasNode field value m →
      HasNode type (.mapping line tag entries) m
  /-- The nodes in an item of a list. -/
  | item {type line tag items node m} : node ∈ items → HasNode type node m →
      HasNode (.list type) (.sequence line tag items) m
  /-- The nodes in the expression of an initialiser. -/
  | init {line tag entries value m} : given? "expr" entries = some value → HasNode .part value m →
      HasNode .init (.mapping line tag entries) m

/-- A mapping stands for a node of the program in what is merged into one. -/
inductive MergesNode : Node → Mapping → Prop
  /-- A mapping is merged as a node. -/
  | node {line tag entries m} : tag ≠ "!!null" → HasNode .program (.mapping line tag entries) m →
      MergesNode (.mapping line tag entries) m
  /-- A mapping that is tagged as meaning nothing is merged field by field. -/
  | entry {line entries key value m} : Entry.mk key value ∈ entries → isMergeKey key →
      MergesNode value m → MergesNode (.mapping line "!!null" entries) m
  /-- An alias has the nodes of what it stands for. -/
  | aliased {line name target m} : MergesNode target m → MergesNode (.alias line name target) m
  /-- Several mappings are merged. -/
  | item {line tag items node m} : node ∈ items → MergesNode node m →
      MergesNode (.sequence line tag items) m

/-! ### Nodes that are read -/

theorem expr_of_rootBlock {p : Part} {b : Block} (h : rootBlock p = .ok b) :
    p.expr = .ok (.block b) := by
  obtain ⟨e, he, h⟩ := exists_ok_of_bind h
  cases e with
  | block b' =>
    cases h
    exact he
  | _ => cases h

/-- A program has the block of its root. -/
theorem ensures_partData_rootBlock (before : Nat) (p : Part) :
    (partData .program before p).Ensures fun d => ∀ b, d = some (.block b) → rootBlock p = .ok b := by
  refine .ite (fun _ => .after _ fun r => ?_) fun h => absurd rfl h
  refine .ite (fun _ => Read.ensures_pure nofun) fun _ => ?_
  split
  · next b hroot =>
    refine Read.ensures_pure ?_
    rintro _ ⟨⟩
    exact hroot
  · exact Read.ensures_reject _

/-- A node that is read without a problem gives a value, which holds its expression. -/
theorem ends_of_partData {type : FieldType} {before : Nat} {p : Part} {d : Option Data}
    {es : List Expr} (htype : type = .part ∨ type = .program) (h : (partData type before p).Ends d)
    (hd : ∀ d', d = some d' → d'.BuiltInto es type) : ∃ e ∈ es, p.expr = .ok e := by
  rcases htype with rfl | rfl
  · cases (show (pure (some (.part p)) : Read (Option Data)).Ends d from h).of_pure
    exact hd _ rfl
  · obtain ⟨b, rfl⟩ := (passes_partData before p).of_ends h
    have hroot := (ensures_partData_rootBlock before p).passes.of_ends h b rfl
    exact ⟨.block b, hd _ rfl, expr_of_rootBlock hroot⟩

/-- What it takes for a node to be read without a problem. -/
theorem ends_of_readNode {type : FieldType} {line : Nat} {entries : List Entry}
    {fields : Read Progress} {d : Option Data} {es : List Expr}
    (htype : type = .part ∨ type = .program) (h : (readNode type line entries fields).Ends d)
    (hd : ∀ d', d = some d' → d'.BuiltInto es type) :
    checkNode line entries = .ok () ∧ duplicateKeys entries = [] ∧
      ∃ p, fields.Ends p ∧ ∃ e ∈ es, build line p.record = .ok e := by
  unfold readNode at h
  split at h
  · exact absurd h Read.not_ends_reject
  · next hcheck =>
    obtain ⟨r, h⟩ := h.after
    obtain ⟨_, h⟩ := h.of_apart.after
    obtain ⟨hdistinct, h⟩ := ends_of_unlessRepeated h
    obtain ⟨p, hp, h⟩ := h.of_bind fun p => keeps_partData _ _ _
    exact ⟨hcheck, hdistinct, p, hp, ends_of_partData htype h hd⟩

/-- Where a node is asked for, a mapping is read as one. -/
theorem readNode_of_readValue {type : FieldType} {line : Nat} {tag : String} {entries : List Entry}
    {d : Option Data} (htype : type = .part ∨ type = .program) (htag : tag ≠ "!!null")
    (h : (readValue type (.mapping line tag entries)).Ends d) :
    (readNode type line entries (readEntries .node (entries.map Entry.key) {} entries)).Ends d := by
  rw [readValue] at h
  obtain ⟨_, h⟩ := h.after
  have hnode : ((type == .part || type == .program) && tag != "!!null") = true := by
    rcases htype with rfl | rfl <;> simpa using htag
  have hraw : ¬ (type == .raw) = true := by
    rcases htype with rfl | rfl <;> decide
  rw [if_neg hraw, if_pos hnode] at h
  exact h

/-- Each item of a list that is read without a problem is read without one. -/
theorem ends_of_readItems {item : FieldType} {nodes : List Node} {ds : List Data}
    (h : (readItems item nodes).Ends ds) :
    ∀ node ∈ nodes, ∃ d, (readValue item node).Ends d ∧ ∀ d', d = some d' → d' ∈ ds := by
  induction nodes generalizing ds with
  | nil => exact List.forall_mem_nil _
  | cons node rest ih =>
    rw [readItems] at h
    obtain ⟨d, hd, h⟩ := h.of_bind fun d => (keeps_readItems item rest).bind fun _ => Read.keeps_pure _
    obtain ⟨ds', hds', h⟩ := h.of_bind fun _ => Read.keeps_pure _
    cases h.of_pure
    rw [List.forall_mem_cons]
    constructor
    · exact ⟨d, hd, fun d' hd' => List.mem_append_left _ (Option.mem_toList.mpr hd')⟩
    · intro node' hnode'
      obtain ⟨d', hread, hmem⟩ := ih hds' node' hnode'
      exact ⟨d', hread, fun d'' hd'' => List.mem_append_right _ (hmem d'' hd'')⟩

/-! ### Nodes that are found -/

section Found

variable {type : FieldType} {line : Nat} {entries : List Entry} {own : List Node} {d : Option Data}
  {es : List Expr}

/-- A node that is read without a problem is accepted. -/
theorem acceptedIn_self (htype : type = .part ∨ type = .program)
    (hown : own = [] ∨ own = entries.map Entry.key)
    (h : (readNode type line entries (readEntries .node own {} entries)).Ends d)
    (hd : ∀ d', d = some d' → d'.BuiltInto es type) : Mapping.AcceptedIn ⟨line, entries⟩ es := by
  obtain ⟨hcheck, hdistinct, p, hp, e, he, hbuild⟩ := ends_of_readNode htype h hd
  refine ⟨hcheck, hdistinct, e, he, e, ?_, own, p, hown, hp, hbuild⟩
  rw [Expr.nodes_eq]
  exact List.mem_cons_self

/-- A mapping in a field that the type of a node may carry is accepted, if it is once the field is read
without a problem. -/
theorem acceptedIn_below {kind : NodeKind} {key : String} {field : FieldType} {value : Node}
    {m : Mapping} (htype : type = .part ∨ type = .program)
    (hown : own = [] ∨ own = entries.map Entry.key)
    (h : (readNode type line entries (readEntries .node own {} entries)).Ends d)
    (hd : ∀ d', d = some d' → d'.BuiltInto es type)
    (hkind : Mapping.kind? ⟨line, entries⟩ = some kind) (hkey : key ∈ kind.keys)
    (hfield : nodeField? key = some field) (hvalue : given? key entries = some value)
    (hfound : ∀ d es, (readValue field value).Ends d →
      (∀ d', d = some d' → d'.BuiltInto es field) → m.AcceptedIn es) : m.AcceptedIn es := by
  obtain ⟨-, -, p, hp, e, he, hbuild⟩ := ends_of_readNode htype h hd
  obtain ⟨kind', hname, -, hparts⟩ := exists_kind_of_build hbuild
  -- the record has the type that the mapping gives
  rw [Mapping.kind?, Option.bind_eq_some_iff] at hkind
  obtain ⟨name, hkind, hname'⟩ := hkind
  obtain ⟨node, hnode, htext⟩ := Option.bind_eq_some_iff.mp hkind
  have hnode' : RecordType.node ≠ .program := by decide
  obtain ⟨d₁, hd₁, hlookup⟩ := exists_read_of_given? hnode' rfl hown hp hnode
  have hd₁ := (ensures_readValue_text node).passes.of_ends hd₁
  rw [htext] at hd₁
  have htype : p.record.text "type" = name := by
    rw [Record.text, Record.text?, hlookup _ hd₁]
    rfl
  rw [htype, hname'] at hname
  cases hname
  -- and what is read for the field is a part of what is built
  obtain ⟨d₂, hd₂, hlookup⟩ := exists_read_of_given? hnode' hfield hown hp hvalue
  have haccepted : m.AcceptedIn e.parts :=
    hfound d₂ e.parts hd₂ fun d' hd' => hparts key hkey field d' hfield (hlookup d' hd')
  exact haccepted.of_parts he

end Found

theorem HasNode.ne_raw {type : FieldType} {node : Node} {m : Mapping} (h : HasNode type node m) :
    type ≠ .raw := by
  induction h with
  | aliased _ ih => exact ih
  | self htype _ | field htype _ _ _ _ _ _ _ => rcases htype with rfl | rfl <;> exact nofun
  | item _ _ _ | init _ _ _ => exact nofun

/-- **Every node in what is read without a problem is accepted**, if what it is read as is built. -/
theorem HasNode.acceptedIn {type : FieldType} {node : Node} {m : Mapping}
    (hnode : HasNode type node m) : ∀ (d : Option Data) (es : List Expr), (readValue type node).Ends d →
      (∀ d', d = some d' → d'.BuiltInto es type) → m.AcceptedIn es := by
  induction hnode with
  | aliased htarget ih =>
    intro d es h hd
    rw [readValue] at h
    obtain ⟨_, h⟩ := h.after
    rw [if_neg (by simpa using htarget.ne_raw)] at h
    exact ih d es h.of_throughAlias hd
  | self htype htag =>
    intro d es h hd
    exact acceptedIn_self htype (Or.inr rfl) (readNode_of_readValue htype htag h) hd
  | field htype htag hkind hkey hfield hvalue _ ih =>
    intro d es h hd
    have h := readNode_of_readValue htype htag h
    exact acceptedIn_below htype (Or.inr rfl) h hd hkind hkey hfield hvalue ih
  | item hmem _ ih =>
    intro d es h hd
    rw [readValue] at h
    obtain ⟨_, h⟩ := h.after
    obtain ⟨ds, hds, h⟩ := h.of_bind fun _ => Read.keeps_pure _
    cases h.of_pure
    obtain ⟨d', hread, hmem'⟩ := ends_of_readItems hds _ hmem
    exact ih d' es hread fun d'' hd'' => hd _ rfl d'' (hmem' d'' hd'')
  | @init line tag entries value m hvalue _ ih =>
    intro d es h hd
    rw [readValue] at h
    obtain ⟨_, h⟩ := h.after
    obtain ⟨-, h⟩ := ends_of_unlessRepeated h
    obtain ⟨p, hp, h⟩ := h.of_bind fun _ => Read.keeps_pure _
    cases h.of_pure
    have hinit : RecordType.init ≠ .program := by decide
    obtain ⟨d', hread, hlookup⟩ := exists_read_of_given? hinit rfl (Or.inr rfl) hp hvalue
    refine ih d' es hread fun d'' hd'' => ?_
    have hlookup := hlookup d'' hd''
    cases d'' with
    | part q =>
      have hbuilt := hd _ rfl
      rw [initData, Record.part?, hlookup] at hbuilt
      exact hbuilt
    | _ => trivial

/-! ### Nodes that are merged -/

/-- What the entries of a mapping merge is read without a problem, if they are. -/
theorem exists_merge_of_readEntries {type : RecordType} {own : List Node} {p q : Progress}
    {entries : List Entry} (h : (readEntries type own p entries).Ends q) {key value : Node}
    (hmem : Entry.mk key value ∈ entries) (hkey : isMergeKey key) :
    ∃ p₁ q₁, (readMerge type p₁ value).Ends q₁ := by
  induction entries generalizing p q with
  | nil => cases hmem
  | cons e rest ih =>
    obtain ⟨key', value'⟩ := e
    by_cases hmerge : isMergeKey key'
    · rw [readEntries, if_pos hmerge] at h
      obtain ⟨p₁, h₁, h⟩ := h.of_bind fun p₁ => (p₁.keeps_merging own).bind fun p₂ =>
        keeps_readMerge type p₂ value'
      obtain ⟨p₂, h⟩ := h.after
      rcases List.mem_cons.mp hmem with heq | hmem
      · cases heq
        exact ⟨p₂, q, h⟩
      · exact ih h₁ hmem
    · obtain ⟨-, p₁, -, h₁⟩ := exists_step_of_entry hmerge h
      rcases List.mem_cons.mp hmem with heq | hmem
      · cases heq
        exact absurd hkey hmerge
      · exact ih h₁ hmem

/-- Each of several mappings that are merged without a problem is merged without one. -/
theorem exists_merge_of_readMergeItems {type : RecordType} {p q : Progress} {nodes : List Node}
    (h : (readMergeItems type p nodes).Ends q) {node : Node} (hmem : node ∈ nodes) :
    ∃ p₁ q₁, (readMerge type p₁ node).Ends q₁ := by
  induction nodes generalizing p with
  | nil => cases hmem
  | cons first rest ih =>
    have hfirst : ∃ q₁, (readMerge type p first).Ends q₁ ∧ (readMergeItems type q₁ rest).Ends q := by
      match first with
      | .mapping line tag entries =>
        rw [readMergeItems] at h
        rw [readMerge]
        exact h.of_bind fun q₁ => keeps_readMergeItems type q₁ rest
      | .alias _ _ (.mapping line tag entries) =>
        rw [readMergeItems, ← bind_assoc] at h
        rw [readMerge]
        exact h.of_bind fun q₁ => keeps_readMergeItems type q₁ rest
      | .scalar _ _ _ | .sequence _ _ _ | .alias _ _ (.scalar _ _ _) | .alias _ _ (.sequence _ _ _)
      | .alias _ _ (.alias _ _ _) => exact absurd h Read.not_ends_reject
    obtain ⟨q₁, h₁, h⟩ := hfirst
    rcases List.mem_cons.mp hmem with rfl | hmem
    · exact ⟨p, q₁, h₁⟩
    · exact ih h hmem

/-- Every node in a mapping that is merged as one is accepted. -/
theorem exists_acceptedIn_of_mergeMapping {p q : Progress} {line : Nat} {tag : String}
    {entries : List Entry} {fields : Read Progress} {m : Mapping} (htag : tag ≠ "!!null")
    (hm : HasNode .program (.mapping line tag entries) m)
    (h : (mergeMapping .program p line tag entries (readEntries .node [] {} entries) fields).Ends q) :
    ∃ es, m.AcceptedIn es := by
  obtain ⟨_, h⟩ := h.after
  rw [if_pos (by simpa using htag)] at h
  obtain ⟨d, hd, -⟩ := h.of_bind fun _ => Read.keeps_pure _
  have hbuilt : ∃ es, ∀ d', d = some d' → d'.BuiltInto es .program := by
    obtain ⟨b, rfl⟩ := passes_readNode.of_ends hd
    refine ⟨[.block b], ?_⟩
    rintro _ ⟨⟩
    exact List.mem_cons_self
  obtain ⟨es, hes⟩ := hbuilt
  refine ⟨es, ?_⟩
  cases hm with
  | self htype _ => exact acceptedIn_self htype (Or.inl rfl) hd hes
  | field htype _ hkind hkey hfield hvalue hbelow =>
    exact acceptedIn_below htype (Or.inl rfl) hd hes hkind hkey hfield hvalue hbelow.acceptedIn

/-- **Every node in what is merged into a program without a problem is accepted.** -/
theorem MergesNode.acceptedIn {node : Node} {m : Mapping} (hnode : MergesNode node m) :
    ∀ p q : Progress, (readMerge .program p node).Ends q → ∃ es, m.AcceptedIn es := by
  induction hnode with
  | node htag hm =>
    intro p q h
    rw [readMerge] at h
    exact exists_acceptedIn_of_mergeMapping htag hm h
  | entry hmem hkey _ ih =>
    intro p q h
    rw [readMerge] at h
    obtain ⟨_, h⟩ := h.after
    obtain ⟨-, h⟩ := ends_of_unlessRepeated h
    obtain ⟨p₁, q₁, h₁⟩ := exists_merge_of_readEntries h hmem hkey
    exact ih p₁ q₁ h₁
  | @aliased line name target m htarget ih =>
    intro p q h
    cases target with
    | mapping line tag entries =>
      rw [readMerge] at h
      obtain ⟨_, h⟩ := h.after
      refine ih p q ?_
      rw [readMerge]
      exact h.of_throughAlias
    | _ => exact absurd h Read.not_ends_reject
  | item hmem _ ih =>
    intro p q h
    rw [readMerge] at h
    obtain ⟨p₁, q₁, h₁⟩ := exists_merge_of_readMergeItems h hmem
    exact ih p₁ q₁ h₁

end TreeScript.Form

namespace TreeScript

open Document (Node Entry)
open Form

/-! ### Accepted documents -/

/-- A mapping stands for a node of the program in a document.  A root that is tagged as meaning nothing
has only the nodes that are merged into it. -/
def Document.Node.HoldsNode (root : Node) (m : Mapping) : Prop :=
  HasNode .program root m ∨ ∃ line entries, root = .mapping line "!!null" entries ∧ MergesNode root m

/-- Every node of an accepted document has been checked and is read as a node of the program, or of a
block that was merged into it. -/
theorem Program.exists_acceptedIn {node : Node} {p : Program} (h : Program.ofNode node = .ok p)
    {m : Mapping} (hm : node.HoldsNode m) : ∃ es, m.AcceptedIn es ∧
      ((∃ line entries, node = .mapping line "!!null" entries) ∨
        ∃ b, p.body = some b ∧ es = [.block b]) := by
  have hread := Read.ends_of_finish h
  rcases hm with hm | ⟨line, entries, rfl, hm⟩
  · -- neither a list nor a mapping that means nothing has nodes
    have hsequence : ∀ line items, node ≠ .sequence line "!!null" items := by
      rintro line items rfl
      cases hm
    have hmapping : ∀ line entries, node ≠ .mapping line "!!null" entries := by
      rintro line entries rfl
      cases hm with
      | self _ htag => exact htag rfl
      | field _ htag _ _ _ _ _ => exact htag rfl
    rw [readRoot_eq hsequence hmapping] at hread
    obtain ⟨d, hd, hread⟩ := hread.of_bind fun d => by
      split
      · exact Read.keeps_pure _
      · exact Read.keeps_pure _
    split at hread
    · next b =>
      cases hread.of_pure
      refine ⟨[.block b], hm.acceptedIn _ _ hd ?_, Or.inr ⟨b, rfl, rfl⟩⟩
      rintro _ ⟨⟩
      exact List.mem_singleton_self _
    · next hblock =>
      -- the node would be one of no expressions at all
      have hnone : m.AcceptedIn [] := by
        refine hm.acceptedIn d [] hd fun d' hd' => ?_
        cases d' with
        | block b => exact absurd hd' (hblock b)
        | _ => trivial
      obtain ⟨e, he, -⟩ := hnone.read
      cases he
  · obtain ⟨r, hrecord, -⟩ := hread.of_bind fun _ => Read.keeps_pure _
    obtain ⟨_, hrecord⟩ := hrecord.after
    obtain ⟨_, hrecord⟩ := hrecord.after
    obtain ⟨-, hrecord⟩ := ends_of_unlessRepeated hrecord
    obtain ⟨q, hentries, -⟩ := hrecord.of_bind fun _ => Read.keeps_pure _
    cases hm with
    | node htag _ => exact absurd rfl htag
    | entry hmem hkey hvalue =>
      obtain ⟨p₁, q₁, hmerge⟩ := exists_merge_of_readEntries hentries hmem hkey
      obtain ⟨es, hes⟩ := hvalue.acceptedIn p₁ q₁ hmerge
      exact ⟨es, hes, Or.inl ⟨line, entries, rfl⟩⟩

end TreeScript
