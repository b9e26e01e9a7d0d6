import Reckoner.Decimal.Layout
import Reckoner.Node
import Reckoner.Text.Quoted

/-!
# Outlines

The dump of a syntax tree shows every part of it on a line of its own, indented by its depth.
What stands on the lines is decided by turning the tree into an outline, and where the lines
break and how far they are indented by writing the outline.

## Main definitions

* `Outline` — a nested text, before it is broken into lines.
* `Outline.write` — the text of an outline.
* `Node.outline` — the outline of a syntax tree.
* `Node.dump` — the text of a syntax tree.
-/

namespace Reckoner

/-- A nested text, before it is broken into lines. -/
inductive Outline where
  /-- A text on one line. -/
  | atom (text : String)
  /-- An outline with a label in front. -/
  | labelled (label : String) (value : Outline)
  /-- Outlines on lines of their own, between an opening and a closing line. -/
  | block (opening : String) (items : List Outline) (closing : String)
  deriving Repr, Inhabited

namespace Outline

/-- The blanks in front of a line. -/
def indent (depth : Nat) : List Char := List.replicate (4 * depth) ' '

mutual

/-- The text of an outline whose first line has been indented already, in front of `tail`.  A
block ends each of its items with a comma and closes at the depth where it began. -/
def writeAt (depth : Nat) : Outline → List Char → List Char
  | atom text, tail => text.toList ++ tail
  | labelled label value, tail => label.toList ++ ':' :: ' ' :: writeAt depth value tail
  | block opening items closing, tail =>
    opening.toList ++ '\n' ::
      writeItems (depth + 1) items (indent depth ++ (closing.toList ++ tail))

/-- The lines of the items of a block, in front of `tail`. -/
def writeItems (depth : Nat) : List Outline → List Char → List Char
  | [], tail => tail
  | item :: items, tail =>
    indent depth ++ writeAt depth item (',' :: '\n' :: writeItems depth items tail)

end

/-- The text of an outline. -/
def write (o : Outline) : String := String.ofList (o.writeAt 0 [])

/-- Items in parentheses behind a name. -/
def tuple (name : String) (items : List Outline) : Outline := block (name ++ "(") items ")"

/-- Labelled items in braces behind a name. -/
def record (name : String) (fields : List (String × Outline)) : Outline :=
  block (name ++ " \x7b") (fields.map fun (label, value) => labelled label value) "\x7d"

/-- Items in brackets; an empty list stays on one line. -/
def list : List Outline → Outline
  | [] => atom "[]"
  | items => block "[" items "]"

end Outline

/-- The outline of a natural number. -/
def Outline.ofNat (n : Nat) : Outline := .atom (toString n)

/-- The outline of a text. -/
def Outline.ofString (s : String) : Outline := .atom (Text.quote s)

/-- The outline of a number. -/
def Outline.ofFloat (x : Float) : Outline := .atom (Decimal.Layout.literal.write x)

/-- The outline of a location. -/
def Location.outline (l : Location) : Outline :=
  .record "SourceLocation" [("line", .ofNat l.line), ("column", .ofNat l.column)]

/-- The outline of a signature. -/
def Signature.outline (s : Signature) : Outline :=
  .record "Prototype" [
    ("name", .ofString s.name),
    ("params", .list (s.params.map .ofString)),
    ("location", s.location.outline)]

namespace Node

mutual

/-- The outline of a syntax tree. -/
def outline : Node → Outline
  | number value location =>
    .tuple "NumberLiteral" [.ofFloat value, location.outline]
  | reference name location =>
    .tuple "VariableReference" [.ofString name, location.outline]
  | declaration name initial location =>
    .record "VariableDeclaration" [
      ("name", .ofString name),
      ("initializer", outline initial),
      ("location", location.outline)]
  | assignment name value location =>
    .record "VariableAssignment" [
      ("name", .ofString name),
      ("value", outline value),
      ("location", location.outline)]
  | binary op left right location =>
    .record "BinaryOp" [
      ("op", .atom op.name),
      ("left", outline left),
      ("right", outline right),
      ("location", location.outline)]
  | call callee args location =>
    .record "Call" [
      ("callee", .ofString callee),
      ("args", .list (outlines args)),
      ("location", location.outline)]
  | prototype signature =>
    .tuple "Prototype" [signature.outline]
  | function signature body location =>
    .record "Function" [
      ("prototype", signature.outline),
      ("body", outline body),
      ("location", location.outline)]

/-- The outlines of the arguments of a call. -/
def outlines : List Node → List Outline
  | [] => []
  | node :: nodes => outline node :: outlines nodes

end

/-- The outlines of the arguments are taken one by one. -/
theorem outlines_eq_map (nodes : List Node) : outlines nodes = nodes.map outline := by
  induction nodes with
  | nil => rfl
  | cons node nodes ih => rw [outlines, ih, List.map_cons]

/-- The dump of a syntax tree. -/
def dump (node : Node) : String := node.outline.write

end Node

end Reckoner
