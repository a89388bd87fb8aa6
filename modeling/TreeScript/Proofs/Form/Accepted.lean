import TreeScript.Proofs.Form.Building
import TreeScript.Proofs.Form.Fields

/-!
# Accepted documents

A document that is accepted stands for a program without gaps, whatever aliases and merged mappings
it is written with: nodes that are not there, have no name or are no blocks where blocks must stand
are found when the expressions around them are built.  There are two exceptions.  A document that
means nothing is a program without a body.  And a mapping that is tagged as meaning nothing is read
field by field, so that its body may be a block of gaps.

## Main definitions

* `Node.IsNull` — a node is there for nothing.
* `RootGives` — what the root of an accepted document gives.

## Main results

* `ensures_readValue`, `ensures_readEntries` — the nodes in what is read are whole.
* `passes_readValue` — a root that is read without a problem gives a block, or is there for nothing.
* `Program.accepted_whole_iff` — **every accepted document is a program without gaps**, and when it
  is not.
-/

namespace TreeScript.Form

open Document (Node Entry Meaning)

/-! ### What is read fits -/

/-- The value, if there is one, fits a field of the type. -/
def FitsIfSet (type : FieldType) (d : Option Data) : Prop := ∀ d', d = some d' → d'.Fits type

theorem fitsIfSet_none (type : FieldType) : FitsIfSet type none := nofun

theorem fitsIfSet_some {type : FieldType} {d : Data} (h : d.Fits type) : FitsIfSet type (some d) := by
  rintro _ ⟨⟩
  exact h

theorem Data.fits_null (type : FieldType) : Data.Fits type .null := by
  cases type <;> trivial

theorem Data.fits_raw (type : FieldType) (node : Node) : Data.Fits type (.raw node) := by
  cases type <;> trivial

/-- What fits a whole program fits the body of one. -/
theorem Data.Fits.body {d : Data} (h : d.Fits .program) : d.Fits .block := by
  cases d with
  | block b => exact Or.inl h
  | _ => trivial

theorem fits_of_scalarData? {type : FieldType} {text : String} {m : Meaning} {d : Data}
    (h : scalarData? type text m = some d) : d.Fits type := by
  cases type with
  | text | maybeText | number | flag => cases d <;> trivial
  | _ => cases h

theorem ensures_mismatch (type : FieldType) (node : Node) :
    (mismatch type node).Ensures (FitsIfSet type) :=
  .after _ fun _ => Read.ensures_pure (fitsIfSet_none type)

theorem ensures_readScalar (type : FieldType) (line : Nat) (tag text : String) :
    (readScalar type line tag text).Ensures (FitsIfSet type) := by
  refine .ite (fun _ => Read.ensures_pure (fitsIfSet_some (Data.fits_raw _ _))) fun _ => ?_
  refine .ite (fun _ => Read.ensures_reject _) fun _ => .after _ fun m => ?_
  split
  · refine Read.ensures_pure ?_
    split
    · exact fitsIfSet_some (Data.fits_null type)
    · exact fitsIfSet_none type
  · refine .ite (fun _ => Read.ensures_reject _) fun _ => ?_
    split
    · next d hd => exact Read.ensures_pure (fitsIfSet_some (fits_of_scalarData? hd))
    · exact ensures_mismatch _ _

theorem whole_of_rootBlock {p : Part} {b : Block} (hp : p.Whole) (h : rootBlock p = .ok b) :
    b.Whole := by
  obtain ⟨e, he, h⟩ := exists_ok_of_bind h
  cases e with
  | block b' =>
    cases h
    exact Expr.whole_block.mp (hp _ he)
  | _ => cases h

/-- A whole node of a program fits the field it stands in. -/
theorem ensures_partData {type : FieldType} {before : Nat} {p : Part} (hp : p.Whole) :
    (partData type before p).Ensures (FitsIfSet type) := by
  refine .ite (fun htype => .after _ fun r => ?_) fun _ => Read.ensures_pure ?_
  · rw [eq_of_beq htype]
    refine .ite (fun _ => Read.ensures_pure (fitsIfSet_none _)) fun _ => ?_
    split
    · next b hb => exact Read.ensures_pure (fitsIfSet_some (whole_of_rootBlock hp hb))
    · exact Read.ensures_reject _
  · refine fitsIfSet_some ?_
    cases type with
    | part => exact hp
    | _ => trivial

theorem ensures_readNode {type : FieldType} {line : Nat} {entries : List Entry}
    {fields : Read Progress} (h : fields.Ensures fun p => p.record.Fits .node) :
    (readNode type line entries fields).Ensures (FitsIfSet type) := by
  unfold readNode
  split
  · exact Read.ensures_reject _
  · refine .after _ fun r => .apart (.after _ fun _ => ?_)
    refine ensures_unlessRepeated (fitsIfSet_none type) (h.bind fun p hp => ?_)
    exact ensures_partData (Part.whole_ofRecord hp)

/-! ### Records that are read fit -/

theorem Record.fits_nil (type : RecordType) : Record.Fits type [] := nofun

theorem Progress.fits_set {type : RecordType} {p : Progress} {name : Text} {field : FieldType}
    {d : Option Data} (hp : p.record.Fits type) (hfield : type.field? (Text.shown name) = some field)
    (hd : FitsIfSet field d) : (p.set name d).record.Fits type := by
  cases d with
  | none => exact hp
  | some d =>
    intro key d' field' hmem hfield'
    rcases List.mem_append.mp hmem with hmem | hmem
    · exact hp key d' field' hmem hfield'
    · cases List.mem_singleton.mp hmem
      rw [hfield] at hfield'
      cases hfield'
      exact hd d rfl

theorem Progress.fits_withBody {p : Progress} {d : Option Data} (hp : p.record.Fits .program)
    (hd : FitsIfSet .program d) : (p.withBody d).record.Fits .program := by
  cases d with
  | none => exact hp
  | some d =>
    intro key d' field' hmem hfield'
    rcases List.mem_cons.mp hmem with heq | hmem
    · cases heq
      cases hfield'
      exact (hd d rfl).body
    · exact hp key d' field' hmem hfield'

theorem Progress.ensures_merging {type : RecordType} {p : Progress} (own : List Node)
    (hp : p.record.Fits type) : (p.merging own).Ensures fun q => q.record.Fits type := by
  unfold merging
  split
  · exact Read.ensures_pure hp
  · exact .after _ fun _ => Read.ensures_pure hp

theorem ensures_mergeMapping {type : RecordType} {p : Progress} {line : Nat} {tag : String}
    {entries : List Entry} {node fields : Read Progress} (hp : p.record.Fits type)
    (hnode : node.Ensures fun q => q.record.Fits .node)
    (hfields : fields.Ensures fun q => q.record.Fits type) :
    (mergeMapping type p line tag entries node fields).Ensures fun q => q.record.Fits type := by
  refine .after _ fun _ => .ite (fun htype => ?_) fun _ => ensures_unlessRepeated hp hfields
  rw [Bool.and_eq_true, beq_iff_eq] at htype
  obtain ⟨rfl, -⟩ := htype
  exact (ensures_readNode hnode).bind fun d hd => Read.ensures_pure (p.fits_withBody hp hd)

-- the induction follows the reader, which goes from a node to those below it and, at an alias, to
-- the node that it stands for

mutual

/-- What is read for a field fits it. -/
theorem ensures_readValue (type : FieldType) :
    (node : Node) → (readValue type node).Ensures (FitsIfSet type)
  | .alias line name target => by
    rw [readValue]
    refine .after _ fun _ => .ite (fun _ => ?_) fun _ => ?_
    · exact Read.ensures_pure (fitsIfSet_some (Data.fits_raw _ _))
    · exact (ensures_readValue type target).throughAlias
  | .scalar line tag text => by
    rw [readValue]
    exact .after _ fun _ => ensures_readScalar _ _ _ _
  | .sequence line tag items => by
    cases type with
    | raw =>
      rw [readValue]
      exact .after _ fun _ => Read.ensures_pure (fitsIfSet_some (Data.fits_raw _ _))
    | list item =>
      rw [readValue]
      exact .after _ fun _ => (ensures_readItems item items).bind fun ds hds =>
        Read.ensures_pure (fitsIfSet_some hds)
    | part | program =>
      rw [readValue]
      exact .after _ fun _ => .ite (fun _ => ensures_mismatch _ _) fun _ => Read.ensures_reject _
    | gap =>
      rw [readValue]
      exact .after _ fun _ => Read.ensures_reject _
    | text | maybeText | number | flag | init | block =>
      simp only [readValue]
      exact .after _ fun _ => ensures_mismatch _ _
  | .mapping line tag entries => by
    have hnode := ensures_readEntries .node (entries.map Entry.key) {} entries (Record.fits_nil _)
    have hinit := ensures_readEntries .init (entries.map Entry.key) {} entries (Record.fits_nil _)
    have hblock := ensures_readEntries .block (entries.map Entry.key) {} entries (Record.fits_nil _)
    rw [readValue]
    refine .after _ fun _ => .ite (fun _ => ?_) fun _ => .ite (fun _ => ?_) fun _ => ?_
    · exact Read.ensures_pure (fitsIfSet_some (Data.fits_raw _ _))
    · exact ensures_readNode hnode
    · refine ensures_unlessRepeated (fitsIfSet_none type) (.ite (fun htype => ?_) fun _ =>
        .ite (fun htype => ?_) fun _ => .ite (fun _ => Read.ensures_reject _) fun _ =>
          ensures_mismatch _ _)
      · rw [eq_of_beq htype]
        exact hinit.bind fun p hp => Read.ensures_pure (fitsIfSet_some fun q => hp.part rfl)
      · -- a block that is given field by field has nothing but gaps
        rw [Bool.and_eq_true, beq_iff_eq] at htype
        obtain ⟨rfl, -⟩ := htype
        refine .after _ fun p => Read.ensures_pure (fitsIfSet_some (Or.inr ?_))
        intro e he
        obtain ⟨d, -, rfl⟩ := List.mem_map.mp he
        rfl

/-- What is read for the items of a list fits them. -/
theorem ensures_readItems (item : FieldType) :
    (nodes : List Node) → (readItems item nodes).Ensures fun ds => ∀ d ∈ ds, d.Fits item
  | [] => by
    rw [readItems]
    exact Read.ensures_pure nofun
  | node :: rest => by
    rw [readItems]
    refine (ensures_readValue item node).bind fun d hd => ?_
    refine (ensures_readItems item rest).bind fun ds hds => Read.ensures_pure ?_
    rw [List.forall_mem_append]
    exact ⟨fun d' hd' => hd d' (Option.mem_toList.mp hd'), hds⟩

/-- A record that fits still does when entries have been read into it. -/
theorem ensures_readEntries (type : RecordType) (own : List Node) (p : Progress) :
    (entries : List Entry) → p.record.Fits type →
    (readEntries type own p entries).Ensures fun q => q.record.Fits type
  | [], hp => by
    rw [readEntries]
    exact Read.ensures_pure hp
  | .mk key value :: rest, hp => by
    rw [readEntries]
    refine .ite (fun _ => ?_) fun _ => .after _ fun name => ?_
    · refine (ensures_readEntries type own p rest hp).bind fun q hq => ?_
      exact (q.ensures_merging own hq).bind fun q' hq' => ensures_readMerge type q' value hq'
    · split
      · next name =>
        refine .ite (fun _ => ensures_readEntries type own p rest hp) fun _ => ?_
        split
        · refine .ite (fun _ => .after _ fun _ => ?_) fun _ => ?_
          · exact ensures_readEntries type own _ rest hp
          · exact ensures_readEntries type own _ rest hp
        · next field hfield =>
          refine .ite (fun _ => .after _ fun _ => ensures_readEntries type own p rest hp) fun _ => ?_
          refine (ensures_readValue field value).bind fun d hd => ?_
          exact ensures_readEntries type own _ rest (Progress.fits_set hp hfield hd)
      · exact ensures_readEntries type own p rest hp

/-- A record that fits still does when a mapping, or several, have been merged into it. -/
theorem ensures_readMerge (type : RecordType) (p : Progress) :
    (node : Node) → p.record.Fits type →
    (readMerge type p node).Ensures fun q => q.record.Fits type
  | .mapping line tag entries, hp => by
    rw [readMerge]
    exact ensures_mergeMapping hp (ensures_readEntries .node [] {} entries (Record.fits_nil _))
      (ensures_readEntries type [] { p with given := [] } entries hp)
  | .alias _ _ (.mapping line tag entries), hp => by
    rw [readMerge]
    refine .after _ fun _ => .throughAlias ?_
    exact ensures_mergeMapping hp (ensures_readEntries .node [] {} entries (Record.fits_nil _))
      (ensures_readEntries type [] { p with given := [] } entries hp)
  | .sequence _ _ items, hp => by
    rw [readMerge]
    exact ensures_readMergeItems type p items hp
  | .scalar _ _ _, _ | .alias _ _ (.scalar _ _ _), _ | .alias _ _ (.sequence _ _ _), _
  | .alias _ _ (.alias _ _ _), _ => Read.ensures_reject (.malformed .badMerge)

/-- A record that fits still does when mappings have been merged into it. -/
theorem ensures_readMergeItems (type : RecordType) (p : Progress) :
    (nodes : List Node) → p.record.Fits type →
    (readMergeItems type p nodes).Ensures fun q => q.record.Fits type
  | [], hp => by
    rw [readMergeItems]
    exact Read.ensures_pure hp
  | .mapping line tag entries :: rest, hp => by
    rw [readMergeItems]
    refine (ensures_mergeMapping hp (ensures_readEntries .node [] {} entries (Record.fits_nil _))
      (ensures_readEntries type [] { p with given := [] } entries hp)).bind fun q hq => ?_
    exact ensures_readMergeItems type q rest hq
  | .alias _ _ (.mapping line tag entries) :: rest, hp => by
    rw [readMergeItems]
    refine .after _ fun _ => ?_
    refine (Read.Ensures.throughAlias (ensures_mergeMapping hp
      (ensures_readEntries .node [] {} entries (Record.fits_nil _))
      (ensures_readEntries type [] { p with given := [] } entries hp))).bind fun q hq => ?_
    exact ensures_readMergeItems type q rest hq
  | .scalar _ _ _ :: _, _ | .sequence _ _ _ :: _, _ | .alias _ _ (.scalar _ _ _) :: _, _
  | .alias _ _ (.sequence _ _ _) :: _, _ | .alias _ _ (.alias _ _ _) :: _, _ =>
    Read.ensures_reject (.malformed .badMerge)

end

/-! ### Roots -/

/-- A scalar that is tagged as meaning nothing, and has a meaning, means nothing. -/
theorem resolve_eq_null {text : String} {m : Meaning}
    (h : Document.meaning "!!null" text = .ok m) : Document.resolve text = .null := by
  simp only [Document.meaning, Document.demandingTags] at h
  cases hresolve : Document.resolve text with
  | null => rfl
  | _ =>
    rw [hresolve] at h
    cases h

/-- A scalar is read as a whole program only if it means nothing. -/
theorem ensures_readScalar_program (line : Nat) (tag text : String) :
    (readScalar .program line tag text).Ensures fun _ =>
      tag = "!!null" ∧ Document.resolve text = .null := by
  intro r r' d h
  by_cases htag : tag = "!!null"
  · subst htag
    cases hm : Document.meaning "!!null" text with
    | error reason =>
      simp only [readScalar, Read.meaning, hm] at h
      cases h
    | ok m => exact ⟨rfl, resolve_eq_null hm⟩
  · simp [readScalar, htag] at h
    cases h

end TreeScript.Form

namespace TreeScript

open Document (Node Entry resolve)
open Form

/-- The node is there for nothing: it is a scalar that means nothing, a mapping that is tagged so, or
an alias of one of these. -/
def Document.Node.IsNull : Node → Prop
  | .scalar _ tag text => tag = "!!null" ∧ resolve text = .null
  | .mapping _ tag _ => tag = "!!null"
  | .alias _ _ target => target.IsNull
  | .sequence _ _ _ => False

namespace Form

theorem passes_mismatch {type : FieldType} {node : Node} {P : Option Data → Prop} :
    (mismatch type node).Passes P :=
  Read.passes_report (List.cons_ne_nil _ _)

/-- A program that is read without a problem has a block. -/
theorem passes_partData (before : Nat) (p : Part) :
    (partData .program before p).Passes fun d => ∃ b, d = some (.block b) := by
  intro r r' d h hproblems
  simp only [partData] at h
  obtain ⟨_, _, ⟨⟩, h⟩ := Read.bind_eq_ok h
  split at h
  · -- a problem that was noted before would be left
    next hbefore =>
    cases h
    rw [hproblems] at hbefore
    exact absurd hbefore (Nat.not_lt_zero before)
  · cases hroot : rootBlock p with
    | ok b =>
      simp only [hroot] at h
      cases h
      exact ⟨b, rfl⟩
    | error reason =>
      simp only [hroot] at h
      cases h

theorem passes_readNode {line : Nat} {entries : List Entry} {fields : Read Progress} :
    (readNode .program line entries fields).Passes fun d => ∃ b, d = some (.block b) := by
  unfold readNode
  split
  · exact (Read.ensures_reject _).passes
  · refine .after _ fun r => .apart (.after _ fun _ => passes_unlessRepeated ?_)
    exact .after _ fun p => passes_partData _ _

/-- A root that is read without a problem gives a block, or is there for nothing. -/
theorem passes_readValue : (node : Node) →
    (readValue .program node).Passes fun d => (∃ b, d = some (.block b)) ∨ node.IsNull
  | .alias line name target => by
    rw [readValue]
    exact .after _ fun _ => .ite nofun fun _ => (passes_readValue target).throughAlias
  | .scalar line tag text => by
    rw [readValue]
    refine .after _ fun _ => ?_
    exact ((ensures_readScalar_program line tag text).mono fun _ => Or.inr).passes
  | .sequence line tag items => by
    rw [readValue]
    exact .after _ fun _ => .ite (fun _ => passes_mismatch) fun _ => (Read.ensures_reject _).passes
  | .mapping line tag entries => by
    rw [readValue]
    refine .after _ fun _ => .ite nofun fun _ => .ite (fun _ => ?_) fun _ => ?_
    · intro r r' d hd hproblems
      exact Or.inl (passes_readNode r r' d hd hproblems)
    · -- the tag says that the mapping means nothing
      refine passes_unlessRepeated ?_
      exact .ite nofun fun _ => .ite nofun fun _ => .ite nofun fun _ => passes_mismatch

end Form

/-! ### Accepted documents -/

namespace Form

theorem ensures_readRecord (type : RecordType) (entries : List Entry) :
    (readRecord type entries).Ensures fun r => r.Fits type := by
  refine .after _ fun _ => .after _ fun _ => ensures_unlessRepeated (Record.fits_nil type) ?_
  exact (ensures_readEntries type _ {} entries (Record.fits_nil type)).bind fun p hp =>
    Read.ensures_pure hp

/-- What an accepted root gives: a whole block, or no block because the root is there for nothing.
A mapping that is tagged so may also give a block of gaps. -/
def RootGives (node : Node) (p : Program) : Prop :=
  (∃ b, p.body = some b ∧ b.Whole) ∨ (node.IsNull ∧ p.body = none) ∨
    ∃ line entries b, node = .mapping line "!!null" entries ∧ p.body = some b ∧ IsGaps b

theorem passes_readRoot (node : Node) : (readRoot node).Passes (RootGives node) := by
  by_cases hsequence : ∃ line items, node = .sequence line "!!null" items
  · obtain ⟨line, items, rfl⟩ := hsequence
    exact Read.passes_report (List.cons_ne_nil _ _)
  by_cases hmapping : ∃ line entries, node = .mapping line "!!null" entries
  · obtain ⟨line, entries, rfl⟩ := hmapping
    refine Read.Ensures.passes ((ensures_readRecord .program entries).bind fun r hr =>
      Read.ensures_pure ?_)
    cases hbody : r.block? "body" with
    | none => exact Or.inr (Or.inl ⟨rfl, rfl⟩)
    | some b =>
      rcases hr.block rfl hbody with hwhole | hgaps
      · exact Or.inl ⟨b, rfl, hwhole⟩
      · exact Or.inr (Or.inr ⟨line, entries, b, rfl, rfl, hgaps⟩)
  -- any other root is read as a node of a program
  rw [readRoot_eq (fun line items heq => hsequence ⟨line, items, heq⟩)
    fun line entries heq => hmapping ⟨line, entries, heq⟩]
  intro r r' p h hproblems
  obtain ⟨d, r₁, hd, h⟩ := Read.bind_eq_ok h
  have hfits := ensures_readValue .program node r r₁ d hd
  split at h
  · next b =>
    cases h
    exact Or.inl ⟨b, rfl, hfits _ rfl⟩
  · next hnone =>
    cases h
    rcases passes_readValue node r r' d hd hproblems with ⟨b, rfl⟩ | hnull
    · exact absurd rfl (hnone b)
    · exact Or.inr (Or.inl ⟨hnull, rfl⟩)

end Form

/-- The text of a document is accepted as the document is. -/
theorem Program.ofText_eq_ok {text : String} {node : Node} {p : Program}
    (hnode : Document.readDocument text = .ok (some node)) (h : Program.ofNode node = .ok p) :
    Program.ofText text = .ok p := by
  unfold ofText
  rw [hnode]
  show (Program.ofNode node).mapError DecodeError.rejected = .ok p
  rw [h]
  rfl

/-- **An accepted document is a program without gaps, unless its root is a mapping that is tagged as
meaning nothing and gives a block of gaps.**  The text of an accepted document is accepted.  Its
program has a whole block, so that it can be shown and its runs never come to a gap, whatever their
options, on a sink that gives no such failure itself; or the document is there for nothing and its
program has no body; and this fails only for such a mapping. -/
theorem Program.accepted_whole_iff {node : Node} {p : Program} (h : Program.ofNode node = .ok p) :
    (∀ text, Document.readDocument text = .ok (some node) → Program.ofText text = .ok p) ∧
    ((node.IsNull ∧ p.body = none ∨
        ∃ b, p.body = some b ∧ b.Whole ∧ (∃ text, p.render? = some text) ∧
          ∀ (fuel : Nat) (limit : DepthLimit) (sink : Sink) (f : Failure), sink.Spares .unknownNode →
            (p.runWith fuel limit sink).failure? = some f → f.kind ≠ .unknownNode) ↔
      ¬ ∃ line entries b, node = .mapping line "!!null" entries ∧ p.body = some b ∧
        b.instrs ≠ [] ∧ ∀ e ∈ b.instrs, e = .missing) := by
  refine ⟨fun text hnode => ofText_eq_ok hnode h, ?_⟩
  have hshown : ∀ b, p.body = some b → b.Whole → ∃ b, p.body = some b ∧ b.Whole ∧
      (∃ text, p.render? = some text) ∧
      ∀ (fuel : Nat) (limit : DepthLimit) (sink : Sink) (f : Failure), sink.Spares .unknownNode →
        (p.runWith fuel limit sink).failure? = some f → f.kind ≠ .unknownNode := by
    intro b hp hb
    exact ⟨b, hp, hb, p.exists_render? hp hb, fun fuel limit sink f hsink =>
      p.failure_kind_ne_unknownNode hp hb fuel limit hsink⟩
  constructor
  · rintro hmet ⟨line, entries, b, -, hp, hne, hgaps⟩
    rcases hmet with ⟨-, hnone⟩ | ⟨b', hp', hwhole, -⟩
    · rw [hp] at hnone
      cases hnone
    · -- the first of the gaps would be whole
      rw [hp] at hp'
      cases hp'
      obtain ⟨e, he⟩ := List.exists_mem_of_ne_nil _ hne
      have hmissing := Block.whole_iff.mp hwhole e he
      rw [hgaps e he, Expr.whole_iff] at hmissing
      exact hmissing.1
  · intro hroot
    rcases (passes_readRoot node).finish h with ⟨b, hp, hb⟩ | hnull | ⟨line, entries, b, rfl, hp, hgaps⟩
    · exact Or.inr (hshown b hp hb)
    · exact Or.inl hnull
    · by_cases hnil : b.instrs = []
      · refine Or.inr (hshown b hp (Block.whole_iff.mpr ?_))
        rw [hnil]
        exact nofun
      · exact absurd ⟨line, entries, b, rfl, hp, hnil, hgaps⟩ hroot

/-- A computation that ends with something that passes a test. -/
theorem Form.exists_ok_of_any {ε α : Type} {x : Except ε α} {test : α → Bool}
    (h : x.toOption.any test = true) : ∃ a, x = .ok a ∧ test a = true := by
  cases x with
  | error _ => cases h
  | ok a => exact ⟨a, rfl, h⟩

/-- A document that uses one node in several places: by aliases, and in a mapping that is merged into
another. -/
def shared : Node :=
  let access : Node := .ofFields [("type", .ofString "LocalVarAccess"), ("name", .ofString "x")]
  let field : Node := .ofFields [("name", .ofString "f"), ("expr", .alias 1 "access" access)]
  let merged : Node := .mapping 1 "!!map" [.mk (.scalar 1 "!!merge" "<<") (.alias 1 "field" field),
    .mk (.ofString "name") (.ofString "g")]
  .ofFields [("type", .ofString "Block"), ("instrs", .ofItems [access, .alias 1 "access" access,
    .ofFields [("type", .ofString "New"), ("fields", .ofItems [field, merged])]])]

/-- The document `shared` is accepted, so its program has no gaps, and no run of it comes to one, on a
sink that closes. -/
theorem accepted_whole_iff_shared : ∃ p b, Program.ofNode shared = .ok p ∧
    p.render? = some "x\nx\n(new (f x) (g x))\n" ∧ p.body = some b ∧ b.Whole ∧
    ∀ (fuel : Nat) (limit : DepthLimit) (room : Nat) (f : Failure),
      (p.runWith fuel limit (.closingAfter room)).failure? = some f → f.kind ≠ .unknownNode := by
  have haccepted : (Program.ofNode shared).toOption.any
      (fun p => decide (p.render? = some (Text.ofString "x\nx\n(new (f x) (g x))\n"))) = true := by
    decide +kernel
  obtain ⟨p, hp, htext⟩ := exists_ok_of_any haccepted
  have hroot : ¬ ∃ line entries b, shared = .mapping line "!!null" entries ∧ p.body = some b ∧
      b.instrs ≠ [] ∧ ∀ e ∈ b.instrs, e = .missing := by
    rintro ⟨line, entries, b, heq, -⟩
    have htag : "!!map" = "!!null" := congrArg Node.tag heq
    exact absurd htag (by decide)
  rcases (Program.accepted_whole_iff hp).2.mpr hroot with ⟨hnull, -⟩ | ⟨b, hb, hwhole, -, hrun⟩
  · have htag : "!!map" = "!!null" := hnull
    exact absurd htag (by decide)
  · exact ⟨p, b, hp, of_decide_eq_true htext, hb, hwhole, fun fuel limit room f =>
      hrun fuel limit _ f (Sink.spares_closingAfter room _)⟩

/-- A mapping that is tagged as meaning nothing, with a block of gaps for a body. -/
def nullMapping : Node :=
  .mapping 1 "!!null" [.mk (.ofString "body") (.ofFields
    [("instrs", .ofItems [.nothing, .nothing]), ("linenumber", .ofNumeral "0x11")])]

/-- The mapping `nullMapping` is accepted with a body that has gaps, and the run of its program comes
to one. -/
theorem gaps_accepted : ∃ p b, Program.ofNode nullMapping = .ok p ∧ p.body = some b ∧ ¬ b.Whole ∧
    (p.run ⟨4⟩ {}).failure? = some ⟨.unknownNode, 0, "nil expression"⟩ := by
  have haccepted : (Program.ofNode nullMapping).toOption.any (fun p =>
      p.body.any (fun b => ¬ b.Whole) &&
        (p.run ⟨4⟩ {}).failure? = some ⟨.unknownNode, 0, "nil expression"⟩) = true := by
    decide +kernel
  obtain ⟨p, hp, htest⟩ := exists_ok_of_any haccepted
  rw [Bool.and_eq_true, Option.any_eq_true, decide_eq_true_iff] at htest
  obtain ⟨⟨b, hb, hgap⟩, hrun⟩ := htest
  exact ⟨p, b, hp, hb, of_decide_eq_true hgap, hrun⟩

end TreeScript
