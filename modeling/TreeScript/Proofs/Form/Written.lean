import TreeScript.Proofs.Form.Fields
import TreeScript.Syntax.Expr

/-!
# How a program is written

A document writes a program as a tree of mappings, one for each node: the type of the node, its line
and its parts stand under keys, in any order.  What is empty, false, zero or not there may be left
out or written as nothing.

## Main definitions

* `IsNode` — a mapping that writes a node of some type on some line.
* `Expr.WrittenAs`, `Block.WrittenAs` — a node of a document writes an expression, or a block; this
  can be checked.
-/

namespace TreeScript

open Document (Node)
open Form

namespace Form

/-! ### How nodes are written -/

/-- The mapping writes a node of the given type on the given line. -/
structure IsNode (kind : NodeKind) (line : Int) (node : Node) : Prop
    extends IsRecord ("type" :: "line" :: kind.keys) node where
  isType : IsText kind.name (node.value? "type")
  onLine : IsNumber line (node.value? "line")

/-- Something of which `P` holds is written. -/
def Under (P : Node → Prop) : Option Node → Prop
  | some node => P node
  | none => False

/-- The constant is written, where `undefined` may be left out. -/
def IsLiteral : Literal → Option Node → Prop
  | .undefined, v => Unset v
  | .int n, v => Means (.int n.toInt) v
  | .str s, v => IsText s v
  | .absent, _ => False

/-- The name of a function is written, where no name may be left out. -/
def IsOwnName : Option Text → Option Node → Prop
  | none, v => Unset v
  | some name, v => IsText name v

/-- The texts are written, in order. -/
def AreTexts : List Text → List Node → Prop
  | [], [] => True
  | text :: texts, node :: nodes => IsText text (some node) ∧ AreTexts texts nodes
  | _, _ => False

end Form

mutual

/-- The node of a document writes the expression. -/
def Expr.WrittenAs : Expr → Node → Prop
  | .block b, node => b.WrittenAs node
  | .literal line value, node => IsNode .literal line node ∧ IsLiteral value (node.value? "value")
  | .call line callee args, node =>
    IsNode .call line node ∧ Under callee.WrittenAs (node.value? "callee") ∧
      IsList (AllWrittenAs args) (node.value? "args")
  | .var line name, node => IsNode .variable line node ∧ IsText name (node.value? "name")
  | .assign line declares name value, node =>
    IsNode .assignment line node ∧ IsText name (node.value? "name") ∧
      Under value.WrittenAs (node.value? "expr") ∧ IsFlag declares (node.value? "declaration")
  | .fn line name params body, node =>
    IsNode .function line node ∧ IsOwnName name (node.value? "name") ∧
      IsList (AreTexts params) (node.value? "params") ∧
      OptionalWrittenAs body (node.value? "body")
  | .ret line value, node => IsNode .ret line node ∧ Under value.WrittenAs (node.value? "expr")
  | .branch line condition onTrue onFalse, node =>
    IsNode .branch line node ∧ Under condition.WrittenAs (node.value? "condition") ∧
      OptionalWrittenAs onTrue (node.value? "then") ∧
      OptionalWrittenAs onFalse (node.value? "else")
  | .object line fields, node =>
    IsNode .object line node ∧ IsList (InitsWrittenAs fields) (node.value? "fields")
  | .field line receiver name, node =>
    IsNode .field line node ∧ Under receiver.WrittenAs (node.value? "receiver") ∧
      IsText name (node.value? "name")
  | .setField line receiver name value, node =>
    IsNode .setField line node ∧ Under receiver.WrittenAs (node.value? "receiver") ∧
      IsText name (node.value? "name") ∧ Under value.WrittenAs (node.value? "expr")
  | .send line receiver name args, node =>
    IsNode .send line node ∧ Under receiver.WrittenAs (node.value? "receiver") ∧
      IsText name (node.value? "name") ∧ IsList (AllWrittenAs args) (node.value? "args")
  | .missing, _ => False

/-- The node of a document writes the block. -/
def Block.WrittenAs : Block → Node → Prop
  | .mk line instrs, node =>
    IsNode .block line node ∧ IsList (AllWrittenAs instrs) (node.value? "instrs")

/-- The block is written, where one that is not there may be left out. -/
def OptionalWrittenAs : Option Block → Option Node → Prop
  | none, v => Unset v
  | some b, v => Under b.WrittenAs v

/-- The nodes of a document write the expressions, in order. -/
def AllWrittenAs : List Expr → List Node → Prop
  | [], [] => True
  | e :: rest, node :: nodes => e.WrittenAs node ∧ AllWrittenAs rest nodes
  | _, _ => False

/-- The nodes of a document write the initialisers, in order. -/
def InitsWrittenAs : List Init → List Node → Prop
  | [], [] => True
  | .mk name value :: rest, node :: nodes =>
    (IsRecord ["name", "expr"] node ∧ IsText name (node.value? "name") ∧
      Under value.WrittenAs (node.value? "expr")) ∧ InitsWrittenAs rest nodes
  | _, _ => False

end

/-! ### Checking what is written -/

namespace Form

instance (kind : NodeKind) (line : Int) (node : Node) : Decidable (IsNode kind line node) :=
  decidable_of_iff (IsRecord ("type" :: "line" :: kind.keys) node ∧
      IsText kind.name (node.value? "type") ∧ IsNumber line (node.value? "line"))
    ⟨fun ⟨h₁, h₂, h₃⟩ => ⟨h₁, h₂, h₃⟩, fun ⟨h₁, h₂, h₃⟩ => ⟨h₁, h₂, h₃⟩⟩

instance (P : Node → Prop) [DecidablePred P] : DecidablePred (Under P)
  | some node => inferInstanceAs (Decidable (P node))
  | none => inferInstanceAs (Decidable False)

instance : (value : Literal) → DecidablePred (IsLiteral value)
  | .undefined => inferInstanceAs (DecidablePred Unset)
  | .int n => inferInstanceAs (DecidablePred (Means (.int n.toInt)))
  | .str s => inferInstanceAs (DecidablePred (IsText s))
  | .absent => fun _ => inferInstanceAs (Decidable False)

instance : (name : Option Text) → DecidablePred (IsOwnName name)
  | none => inferInstanceAs (DecidablePred Unset)
  | some name => inferInstanceAs (DecidablePred (IsText name))

instance decidableAreTexts : (texts : List Text) → DecidablePred (AreTexts texts)
  | [], [] => inferInstanceAs (Decidable True)
  | text :: texts, node :: nodes =>
    have := decidableAreTexts texts nodes
    inferInstanceAs (Decidable (IsText text (some node) ∧ AreTexts texts nodes))
  | [], _ :: _ | _ :: _, [] => inferInstanceAs (Decidable False)

end Form

mutual

instance Expr.decidableWrittenAs : (e : Expr) → DecidablePred e.WrittenAs
  | .block b => b.decidableWrittenAs
  | .literal _ _ | .var _ _ => fun _ => inferInstanceAs (Decidable (_ ∧ _))
  | .call _ callee args | .send _ callee _ args =>
    have := callee.decidableWrittenAs
    have := decidableAllWrittenAs args
    fun _ => inferInstanceAs (Decidable (_ ∧ _))
  | .assign _ _ _ value | .ret _ value | .field _ value _ =>
    have := value.decidableWrittenAs
    fun _ => inferInstanceAs (Decidable (_ ∧ _))
  | .fn _ _ _ body =>
    have := decidableOptionalWrittenAs body
    fun _ => inferInstanceAs (Decidable (_ ∧ _))
  | .branch _ condition onTrue onFalse =>
    have := condition.decidableWrittenAs
    have := decidableOptionalWrittenAs onTrue
    have := decidableOptionalWrittenAs onFalse
    fun _ => inferInstanceAs (Decidable (_ ∧ _))
  | .object _ fields =>
    have := decidableInitsWrittenAs fields
    fun _ => inferInstanceAs (Decidable (_ ∧ _))
  | .setField _ receiver _ value =>
    have := receiver.decidableWrittenAs
    have := value.decidableWrittenAs
    fun _ => inferInstanceAs (Decidable (_ ∧ _))
  | .missing => fun _ => inferInstanceAs (Decidable False)

instance Block.decidableWrittenAs : (b : Block) → DecidablePred b.WrittenAs
  | .mk _ instrs =>
    have := decidableAllWrittenAs instrs
    fun _ => inferInstanceAs (Decidable (_ ∧ _))

instance decidableOptionalWrittenAs : (b : Option Block) → DecidablePred (OptionalWrittenAs b)
  | none => inferInstanceAs (DecidablePred Unset)
  | some b =>
    have := b.decidableWrittenAs
    inferInstanceAs (DecidablePred (Under b.WrittenAs))

instance decidableAllWrittenAs : (es : List Expr) → DecidablePred (AllWrittenAs es)
  | [], [] => inferInstanceAs (Decidable True)
  | e :: rest, node :: nodes =>
    have := e.decidableWrittenAs
    have := decidableAllWrittenAs rest
    inferInstanceAs (Decidable (e.WrittenAs node ∧ AllWrittenAs rest nodes))
  | [], _ :: _ | _ :: _, [] => inferInstanceAs (Decidable False)

instance decidableInitsWrittenAs : (fs : List Init) → DecidablePred (InitsWrittenAs fs)
  | [], [] => inferInstanceAs (Decidable True)
  | .mk _ value :: rest, _ :: nodes =>
    have := value.decidableWrittenAs
    have := decidableInitsWrittenAs rest
    inferInstanceAs (Decidable (_ ∧ InitsWrittenAs rest nodes))
  | [], _ :: _ | .mk _ _ :: _, [] => inferInstanceAs (Decidable False)

end

end TreeScript
