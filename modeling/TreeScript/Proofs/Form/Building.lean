import TreeScript.Form.Build
import TreeScript.Proofs.Syntax.Complete

/-!
# What is built is whole

The expression that a record stands for is built from parts that have been read before.  If these are
whole, so is the expression: what is missing, or has no name, is found when the expression is built.
And it is built from all of them, as far as its type may carry their keys.

## Main definitions

* `Part.Whole` — the expression of a node that has been read is whole, if there is one.
* `Data.Fits`, `Record.Fits` — the nodes in the value of a field, or in a record, are whole.
* `kindOf?` — the type of the node that an expression is.
* `Data.BuiltInto`, `Record.BuiltInto` — the nodes in the value of a field stand for expressions of a
  list.

## Main results

* `Part.whole_ofRecord` — **what is built from a record with whole nodes is whole.**
* `exists_kind_of_build` — **what is built has the type that its record names**, and the nodes that this
  type may carry for its parts.
-/

namespace TreeScript.Form

/-! ### Values with whole nodes -/

/-- The expression that the node stands for is whole, if it stands for one. -/
def Part.Whole (p : Part) : Prop := ∀ e, p.expr = .ok e → e.Whole

/-- The instructions of the block are all gaps. -/
def IsGaps (b : Block) : Prop := ∀ e ∈ b.instrs, e = .missing

/-- The nodes in the value of a field are whole.  A block that is given field by field may have gaps,
but then it has nothing else. -/
def Data.Fits : FieldType → Data → Prop
  | .part, .part p => p.Whole
  | .init, .init _ value => ∀ p, value = some p → p.Whole
  | .program, .block b => b.Whole
  | .block, .block b => b.Whole ∨ IsGaps b
  | .list item, .list ds => ∀ d ∈ ds, d.Fits item
  | _, _ => True

/-- The nodes in the fields of a record are whole. -/
def Record.Fits (type : RecordType) (r : Record) : Prop :=
  ∀ key d field, (key, d) ∈ r → type.field? key = some field → d.Fits field

namespace Record.Fits

variable {type : RecordType} {r : Record} {key : String}

theorem of_lookup {d : Data} {field : FieldType} (hr : r.Fits type) (h : r.lookup key = some d)
    (hfield : type.field? key = some field) : d.Fits field := by
  obtain ⟨before, after, rfl, -⟩ := List.lookup_eq_some_iff.mp h
  exact hr key d field (by simp) hfield

theorem part (hr : r.Fits type) (hfield : type.field? key = some .part) {p : Part}
    (h : r.part? key = some p) : p.Whole := by
  unfold Record.part? at h
  split at h
  · cases h
    exact hr.of_lookup ‹_› hfield
  · cases h

theorem block (hr : r.Fits type) (hfield : type.field? key = some .block) {b : Block}
    (h : r.block? key = some b) : b.Whole ∨ IsGaps b := by
  unfold Record.block? at h
  split at h
  · cases h
    exact hr.of_lookup ‹_› hfield
  · cases h

theorem items {item : FieldType} (hr : r.Fits type) (hfield : type.field? key = some (.list item)) :
    ∀ d ∈ r.items key, d.Fits item := by
  unfold Record.items
  split
  · exact hr.of_lookup ‹_› hfield
  · exact nofun

end Record.Fits

/-! ### Building -/

/-- Of two steps that end well, each does. -/
theorem exists_ok_of_bind {ε α β : Type} {x : Except ε α} {k : α → Except ε β} {b : β}
    (h : (x >>= k) = .ok b) : ∃ a, x = .ok a ∧ k a = .ok b := by
  cases x with
  | error _ => cases h
  | ok a => exact ⟨a, rfl, h⟩

/-- A constant that is read is one of the language. -/
theorem ne_absent_of_literalOf {line : Nat} {node : Option Document.Node} {value : Literal}
    (h : literalOf line node = .ok value) : value ≠ .absent := by
  rintro rfl
  unfold literalOf at h
  split at h
  · cases h
  · split at h
    · cases h
    · split at h
      · cases h
      · split at h
        · split at h
          · cases h
          · split at h <;> cases h
          · cases h
          · cases h
        · cases h
  · cases h

/-- A name that is found is not empty. -/
theorem ne_nil_of_nameOf {line : Nat} {type : String} {r : Record} {name : Text}
    (h : nameOf line type r = .ok name) : name ≠ [] := by
  unfold nameOf at h
  split at h
  · split at h
    · cases h
    · next hname =>
      cases h
      simpa using hname
  · cases h

/-- No function is bound to the empty name. -/
theorem functionName_ne (name : Text) : Expr.functionName name ≠ some [] := by
  unfold Expr.functionName
  split
  · exact nofun
  · next hname => simpa using hname

theorem whole_of_child {line : Nat} {type field : String} {part : Option Part} {e : Expr}
    (hpart : ∀ p, part = some p → p.Whole) (h : child line type field part = .ok e) :
    e.Whole := by
  cases part with
  | none => cases h
  | some p => exact hpart p rfl e h

theorem whole_of_childBlock {line : Nat} {type field : String} {part : Option Part} {b : Block}
    (hpart : ∀ p, part = some p → p.Whole) (h : childBlock line type field part = .ok b) :
    b.Whole := by
  cases part with
  | none => cases h
  | some p =>
    obtain ⟨e, he, h⟩ := exists_ok_of_bind h
    cases e with
    | block b' =>
      cases h
      exact Expr.whole_block.mp (hpart p rfl _ he)
    | _ => cases h

theorem whole_of_children {ds : List Data} {es : List Expr} (hds : ∀ d ∈ ds, d.Fits .part)
    (h : children ds = .ok es) : ∀ e ∈ es, e.Whole := by
  induction ds generalizing es with
  | nil =>
    cases h
    exact nofun
  | cons d rest ih =>
    rw [List.forall_mem_cons] at hds
    cases d with
    | part p =>
      obtain ⟨e, he, h⟩ := exists_ok_of_bind h
      obtain ⟨es', hes', h⟩ := exists_ok_of_bind h
      cases h
      rw [List.forall_mem_cons]
      exact ⟨hds.1 e he, ih hds.2 hes'⟩
    | _ => cases h

theorem whole_of_inits {line : Nat} {type : String} {ds : List Data} {fs : List Init}
    (hds : ∀ d ∈ ds, d.Fits .init) (h : inits line type ds = .ok fs) :
    ∀ f ∈ fs, f.name ≠ [] ∧ f.value.Whole := by
  induction ds generalizing fs with
  | nil =>
    cases h
    exact nofun
  | cons d rest ih =>
    rw [List.forall_mem_cons] at hds
    cases d with
    | init name value =>
      unfold inits at h
      split at h
      · cases h
      · next hname =>
        obtain ⟨e, he, h⟩ := exists_ok_of_bind h
        obtain ⟨fs', hfs', h⟩ := exists_ok_of_bind h
        cases h
        rw [List.forall_mem_cons]
        exact ⟨⟨by simpa [Init.name] using hname, whole_of_child hds.1 he⟩, ih hds.2 hfs'⟩
    | _ => exact ih hds.2 h

/-- What is built for a type of node is whole, if the nodes it is built from are. -/
theorem whole_of_buildKind {kind : NodeKind} {place : Nat} {r : Record} {e : Expr}
    (hr : r.Fits .node) (h : buildKind kind place r = .ok e) : e.Whole := by
  cases kind with
  | block =>
    obtain ⟨es, hes, h⟩ := exists_ok_of_bind h
    cases h
    exact (Expr.whole_iff _).mpr ⟨trivial, whole_of_children (hr.items rfl) hes⟩
  | literal =>
    obtain ⟨value, hvalue, h⟩ := exists_ok_of_bind h
    cases h
    exact (Expr.whole_iff _).mpr ⟨ne_absent_of_literalOf hvalue, nofun⟩
  | call =>
    obtain ⟨callee, hcallee, h⟩ := exists_ok_of_bind h
    obtain ⟨args, hargs, h⟩ := exists_ok_of_bind h
    cases h
    refine (Expr.whole_iff _).mpr ⟨trivial, ?_⟩
    rw [Expr.parts, List.forall_mem_cons]
    exact ⟨whole_of_child (fun _ => hr.part rfl) hcallee, whole_of_children (hr.items rfl) hargs⟩
  | «variable» =>
    obtain ⟨name, hname, h⟩ := exists_ok_of_bind h
    cases h
    exact (Expr.whole_iff _).mpr ⟨ne_nil_of_nameOf hname, nofun⟩
  | assignment =>
    obtain ⟨name, hname, h⟩ := exists_ok_of_bind h
    obtain ⟨value, hvalue, h⟩ := exists_ok_of_bind h
    cases h
    refine (Expr.whole_iff _).mpr ⟨ne_nil_of_nameOf hname, ?_⟩
    rw [Expr.parts, List.forall_mem_singleton]
    exact whole_of_child (fun _ => hr.part rfl) hvalue
  | function =>
    obtain ⟨b, hb, h⟩ := exists_ok_of_bind h
    cases h
    refine (Expr.whole_iff _).mpr ⟨⟨functionName_ne _, rfl⟩, ?_⟩
    rw [Expr.parts, Option.toList_some, List.map_singleton, List.forall_mem_singleton,
      Expr.whole_block]
    exact whole_of_childBlock (fun _ => hr.part rfl) hb
  | ret =>
    obtain ⟨value, hvalue, h⟩ := exists_ok_of_bind h
    cases h
    refine (Expr.whole_iff _).mpr ⟨trivial, ?_⟩
    rw [Expr.parts, List.forall_mem_singleton]
    exact whole_of_child (fun _ => hr.part rfl) hvalue
  | branch =>
    obtain ⟨condition, hcondition, h⟩ := exists_ok_of_bind h
    obtain ⟨b, hb, h⟩ := exists_ok_of_bind h
    have hcondition := whole_of_child (fun _ => hr.part rfl) hcondition
    have hb := whole_of_childBlock (fun _ => hr.part rfl) hb
    rw [Expr.whole_iff]
    split at h
    · cases h
      simpa [Expr.Complete, Expr.parts, Expr.whole_block] using ⟨hcondition, hb⟩
    · next p hp =>
      obtain ⟨b', hb', h⟩ := exists_ok_of_bind h
      cases h
      have hb' := whole_of_childBlock (fun q hq => hr.part rfl (hp.trans hq)) hb'
      simpa [Expr.Complete, Expr.parts, Expr.whole_block] using ⟨hcondition, hb, hb'⟩
  | object =>
    obtain ⟨fs, hfs, h⟩ := exists_ok_of_bind h
    cases h
    have hfs := whole_of_inits (hr.items rfl) hfs
    refine (Expr.whole_iff _).mpr ⟨fun f hf => (hfs f hf).1, ?_⟩
    rw [Expr.parts, List.forall_mem_map]
    exact fun f hf => (hfs f hf).2
  | field =>
    obtain ⟨receiver, hreceiver, h⟩ := exists_ok_of_bind h
    obtain ⟨name, hname, h⟩ := exists_ok_of_bind h
    cases h
    refine (Expr.whole_iff _).mpr ⟨ne_nil_of_nameOf hname, ?_⟩
    rw [Expr.parts, List.forall_mem_singleton]
    exact whole_of_child (fun _ => hr.part rfl) hreceiver
  | setField =>
    obtain ⟨receiver, hreceiver, h⟩ := exists_ok_of_bind h
    obtain ⟨name, hname, h⟩ := exists_ok_of_bind h
    obtain ⟨value, hvalue, h⟩ := exists_ok_of_bind h
    cases h
    refine (Expr.whole_iff _).mpr ⟨ne_nil_of_nameOf hname, ?_⟩
    rw [Expr.parts, List.forall_mem_cons, List.forall_mem_singleton]
    exact ⟨whole_of_child (fun _ => hr.part rfl) hreceiver,
      whole_of_child (fun _ => hr.part rfl) hvalue⟩
  | send =>
    obtain ⟨receiver, hreceiver, h⟩ := exists_ok_of_bind h
    obtain ⟨name, hname, h⟩ := exists_ok_of_bind h
    obtain ⟨args, hargs, h⟩ := exists_ok_of_bind h
    cases h
    refine (Expr.whole_iff _).mpr ⟨ne_nil_of_nameOf hname, ?_⟩
    rw [Expr.parts, List.forall_mem_cons]
    exact ⟨whole_of_child (fun _ => hr.part rfl) hreceiver,
      whole_of_children (hr.items rfl) hargs⟩

/-- **What is built from a record with whole nodes is whole.** -/
theorem Part.whole_ofRecord {line : Nat} {r : Record} (hr : r.Fits .node) :
    (Part.ofRecord line r).Whole := by
  intro e h
  change build line r = .ok e at h
  unfold build at h
  split at h
  · exact whole_of_buildKind hr h
  · cases h

/-! ### What is built has its parts -/

/-- The type of the node that an expression is. -/
def kindOf? : Expr → Option NodeKind
  | .block _ => some .block
  | .literal _ _ => some .literal
  | .call _ _ _ => some .call
  | .var _ _ => some .variable
  | .assign _ _ _ _ => some .assignment
  | .fn _ _ _ _ => some .function
  | .ret _ _ => some .ret
  | .branch _ _ _ _ => some .branch
  | .object _ _ => some .object
  | .field _ _ _ => some .field
  | .setField _ _ _ _ => some .setField
  | .send _ _ _ _ => some .send
  | .missing => none

/-- The nodes in the value of a field stand for expressions of a list. -/
def Data.BuiltInto (es : List Expr) : FieldType → Data → Prop
  | .part, .part p => ∃ e ∈ es, p.expr = .ok e
  | .init, .init _ (some p) => ∃ e ∈ es, p.expr = .ok e
  | .program, .block b => .block b ∈ es
  | .list item, .list ds => ∀ d ∈ ds, d.BuiltInto es item
  | _, _ => True

/-- The nodes in what a record of a node holds under a key stand for expressions of a list. -/
def Record.BuiltInto (r : Record) (es : List Expr) (key : String) : Prop :=
  ∀ field d, nodeField? key = some field → r.lookup key = some d → d.BuiltInto es field

namespace Record

variable {r : Record} {es : List Expr} {key : String}

theorem builtInto_part (hfield : nodeField? key = some .part)
    (h : ∀ p, r.part? key = some p → ∃ e ∈ es, p.expr = .ok e) : r.BuiltInto es key := by
  intro field d hfield' hd
  rw [hfield] at hfield'
  cases hfield'
  cases d with
  | part p => exact h p (by rw [part?, hd])
  | _ => trivial

theorem builtInto_items {item : FieldType} (hfield : nodeField? key = some (.list item))
    (h : ∀ d ∈ r.items key, d.BuiltInto es item) : r.BuiltInto es key := by
  intro field d hfield' hd
  rw [hfield] at hfield'
  cases hfield'
  cases d with
  | list ds =>
    rw [items, hd] at h
    exact h
  | _ => trivial

/-- A field without nodes. -/
theorem builtInto_plain {field : FieldType} (hfield : nodeField? key = some field)
    (h : field = .maybeText ∨ field = .flag ∨ field = .raw) : r.BuiltInto es key := by
  intro field' d hfield' _
  rw [hfield] at hfield'
  cases hfield'
  rcases h with rfl | rfl | rfl <;> cases d <;> trivial

end Record

theorem builtInto_of_child {line : Nat} {type field : String} {part : Option Part} {e : Expr}
    {es : List Expr} (h : child line type field part = .ok e) (he : e ∈ es) :
    ∀ p, part = some p → ∃ e ∈ es, p.expr = .ok e := by
  rintro p rfl
  exact ⟨e, he, h⟩

theorem builtInto_of_childBlock {line : Nat} {type field : String} {part : Option Part} {b : Block}
    {es : List Expr} (h : childBlock line type field part = .ok b) (hb : .block b ∈ es) :
    ∀ p, part = some p → ∃ e ∈ es, p.expr = .ok e := by
  rintro p rfl
  obtain ⟨e, he, h⟩ := exists_ok_of_bind h
  cases e with
  | block b' =>
    cases h
    exact ⟨_, hb, he⟩
  | _ => cases h

theorem builtInto_of_children {ds : List Data} {es all : List Expr} (h : children ds = .ok es)
    (hes : es ⊆ all) : ∀ d ∈ ds, d.BuiltInto all .part := by
  induction ds generalizing es with
  | nil => exact List.forall_mem_nil _
  | cons d rest ih =>
    cases d with
    | part p =>
      obtain ⟨e, he, h⟩ := exists_ok_of_bind h
      obtain ⟨es', hes', h⟩ := exists_ok_of_bind h
      cases h
      rw [List.cons_subset] at hes
      rw [List.forall_mem_cons]
      exact ⟨⟨e, hes.1, he⟩, ih hes' hes.2⟩
    | _ => cases h

theorem builtInto_of_inits {line : Nat} {type : String} {ds : List Data} {fs : List Init}
    {all : List Expr} (h : inits line type ds = .ok fs) (hfs : fs.map Init.value ⊆ all) :
    ∀ d ∈ ds, d.BuiltInto all .init := by
  induction ds generalizing fs with
  | nil => exact List.forall_mem_nil _
  | cons d rest ih =>
    rw [List.forall_mem_cons]
    cases d with
    | init name value =>
      unfold inits at h
      split at h
      · cases h
      · obtain ⟨e, he, h⟩ := exists_ok_of_bind h
        obtain ⟨fs', hfs', h⟩ := exists_ok_of_bind h
        cases h
        rw [List.map_cons, List.cons_subset] at hfs
        refine ⟨?_, ih hfs' hfs.2⟩
        cases value with
        | none => trivial
        | some p => exact ⟨e, hfs.1, he⟩
    | _ => exact ⟨trivial, ih h hfs⟩

/-- The nodes in the fields that a type of node may carry are parts of what is built. -/
theorem builtInto_of_buildKind {kind : NodeKind} {place : Nat} {r : Record} {e : Expr}
    (h : buildKind kind place r = .ok e) :
    kindOf? e = some kind ∧ ∀ key ∈ kind.keys, r.BuiltInto e.parts key := by
  cases kind with
  | block =>
    obtain ⟨es, hes, h⟩ := exists_ok_of_bind h
    cases h
    refine ⟨rfl, List.forall_mem_singleton.mpr ?_⟩
    exact Record.builtInto_items rfl (builtInto_of_children hes (List.Subset.refl es))
  | literal =>
    obtain ⟨value, -, h⟩ := exists_ok_of_bind h
    cases h
    exact ⟨rfl, List.forall_mem_singleton.mpr (Record.builtInto_plain rfl (by simp))⟩
  | call =>
    obtain ⟨callee, hcallee, h⟩ := exists_ok_of_bind h
    obtain ⟨args, hargs, h⟩ := exists_ok_of_bind h
    cases h
    refine ⟨rfl, ?_⟩
    rw [NodeKind.keys, List.forall_mem_cons, List.forall_mem_singleton]
    constructor
    · exact Record.builtInto_part rfl (builtInto_of_child hcallee List.mem_cons_self)
    · exact Record.builtInto_items rfl (builtInto_of_children hargs (List.subset_cons_self _ _))
  | «variable» =>
    obtain ⟨name, -, h⟩ := exists_ok_of_bind h
    cases h
    exact ⟨rfl, List.forall_mem_singleton.mpr (Record.builtInto_plain rfl (by simp))⟩
  | assignment =>
    obtain ⟨name, -, h⟩ := exists_ok_of_bind h
    obtain ⟨value, hvalue, h⟩ := exists_ok_of_bind h
    cases h
    refine ⟨rfl, ?_⟩
    rw [NodeKind.keys, List.forall_mem_cons, List.forall_mem_cons, List.forall_mem_singleton]
    refine ⟨Record.builtInto_plain rfl (by simp), ?_, Record.builtInto_plain rfl (by simp)⟩
    exact Record.builtInto_part rfl (builtInto_of_child hvalue List.mem_cons_self)
  | function =>
    obtain ⟨b, hb, h⟩ := exists_ok_of_bind h
    cases h
    refine ⟨rfl, ?_⟩
    rw [NodeKind.keys, List.forall_mem_cons, List.forall_mem_cons, List.forall_mem_singleton]
    refine ⟨Record.builtInto_plain rfl (by simp), Record.builtInto_items rfl ?_, ?_⟩
    · intro d _
      cases d <;> trivial
    · exact Record.builtInto_part rfl (builtInto_of_childBlock hb List.mem_cons_self)
  | ret =>
    obtain ⟨value, hvalue, h⟩ := exists_ok_of_bind h
    cases h
    refine ⟨rfl, List.forall_mem_singleton.mpr ?_⟩
    exact Record.builtInto_part rfl (builtInto_of_child hvalue List.mem_cons_self)
  | branch =>
    obtain ⟨condition, hcondition, h⟩ := exists_ok_of_bind h
    obtain ⟨b, hb, h⟩ := exists_ok_of_bind h
    rw [NodeKind.keys, List.forall_mem_cons, List.forall_mem_cons, List.forall_mem_singleton]
    split at h
    · next hnone =>
      cases h
      refine ⟨rfl, Record.builtInto_part rfl (builtInto_of_child hcondition (by simp [Expr.parts])),
        Record.builtInto_part rfl (builtInto_of_childBlock hb (by simp [Expr.parts])),
        Record.builtInto_part rfl ?_⟩
      rw [hnone]
      exact nofun
    · next p hp =>
      obtain ⟨b', hb', h⟩ := exists_ok_of_bind h
      cases h
      refine ⟨rfl, Record.builtInto_part rfl (builtInto_of_child hcondition (by simp [Expr.parts])),
        Record.builtInto_part rfl (builtInto_of_childBlock hb (by simp [Expr.parts])),
        Record.builtInto_part rfl ?_⟩
      rw [hp]
      exact builtInto_of_childBlock hb' (by simp [Expr.parts])
  | object =>
    obtain ⟨fs, hfs, h⟩ := exists_ok_of_bind h
    cases h
    refine ⟨rfl, List.forall_mem_singleton.mpr ?_⟩
    exact Record.builtInto_items rfl (builtInto_of_inits hfs (List.Subset.refl _))
  | field =>
    obtain ⟨receiver, hreceiver, h⟩ := exists_ok_of_bind h
    obtain ⟨name, -, h⟩ := exists_ok_of_bind h
    cases h
    refine ⟨rfl, ?_⟩
    rw [NodeKind.keys, List.forall_mem_cons, List.forall_mem_singleton]
    refine ⟨?_, Record.builtInto_plain rfl (by simp)⟩
    exact Record.builtInto_part rfl (builtInto_of_child hreceiver List.mem_cons_self)
  | setField =>
    obtain ⟨receiver, hreceiver, h⟩ := exists_ok_of_bind h
    obtain ⟨name, -, h⟩ := exists_ok_of_bind h
    obtain ⟨value, hvalue, h⟩ := exists_ok_of_bind h
    cases h
    refine ⟨rfl, ?_⟩
    rw [NodeKind.keys, List.forall_mem_cons, List.forall_mem_cons, List.forall_mem_singleton]
    refine ⟨?_, Record.builtInto_plain rfl (by simp), ?_⟩
    · exact Record.builtInto_part rfl (builtInto_of_child hreceiver List.mem_cons_self)
    · exact Record.builtInto_part rfl (builtInto_of_child hvalue (by simp [Expr.parts]))
  | send =>
    obtain ⟨receiver, hreceiver, h⟩ := exists_ok_of_bind h
    obtain ⟨name, -, h⟩ := exists_ok_of_bind h
    obtain ⟨args, hargs, h⟩ := exists_ok_of_bind h
    cases h
    refine ⟨rfl, ?_⟩
    rw [NodeKind.keys, List.forall_mem_cons, List.forall_mem_cons, List.forall_mem_singleton]
    refine ⟨?_, Record.builtInto_plain rfl (by simp), ?_⟩
    · exact Record.builtInto_part rfl (builtInto_of_child hreceiver List.mem_cons_self)
    · exact Record.builtInto_items rfl (builtInto_of_children hargs (List.subset_cons_self _ _))

/-- An expression that is built has the type that its record names. -/
theorem exists_kind_of_build {place : Nat} {r : Record} {e : Expr} (h : build place r = .ok e) :
    ∃ kind, NodeKind.ofName? (Text.shown (r.text "type")) = some kind ∧ kindOf? e = some kind ∧
      ∀ key ∈ kind.keys, r.BuiltInto e.parts key := by
  unfold build at h
  split at h
  · next kind hkind =>
    obtain ⟨hkind', hparts⟩ := builtInto_of_buildKind h
    exact ⟨kind, hkind, hkind', hparts⟩
  · cases h

end TreeScript.Form
