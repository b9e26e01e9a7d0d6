import Reckoner.BinaryOperator
import Reckoner.Location

/-!
# Syntax trees

A statement is a tree.  Every node has the location of the token it was made from: a binary
operation that of its operator, a declaration or function that of its keyword, and any other
node that of its first token.

## Main definitions

* `Signature` — the name of a function and those of its parameters.
* `Node` — a node of a syntax tree, with all that is below it.
* `Shape`, `Node.shape` — the shape of a node.
* `Node.location` — the place of a node.
-/

namespace Reckoner

/-- The name of a function and those of its parameters. -/
structure Signature where
  /-- The name of the function, empty if it has none. -/
  name : String
  /-- The names of the parameters. -/
  params : List String
  /-- The place of the name, or of the parenthesis if there is no name. -/
  location : Location
  deriving DecidableEq, Repr, Inhabited

/-- A node of a syntax tree, with all that is below it. -/
inductive Node where
  /-- A number. -/
  | number (value : Float) (location : Location)
  /-- The value of a name. -/
  | reference (name : String) (location : Location)
  /-- A new name with its first value. -/
  | declaration (name : String) (initial : Node) (location : Location)
  /-- A new value for a name. -/
  | assignment (name : String) (value : Node) (location : Location)
  /-- Two values joined by an operator. -/
  | binary (op : BinaryOperator) (left right : Node) (location : Location)
  /-- The application of a function. -/
  | call (callee : String) (args : List Node) (location : Location)
  /-- A function that is announced but not defined. -/
  | prototype (signature : Signature)
  /-- A function with its body. -/
  | function (signature : Signature) (body : Node) (location : Location)
  deriving Repr, Inhabited

/-- The shape of a node; binary operations are told apart by their operator. -/
inductive Shape where
  /-- A number. -/
  | number
  /-- The value of a name. -/
  | reference
  /-- A new name. -/
  | declaration
  /-- A new value for a name. -/
  | assignment
  /-- An operation. -/
  | binary (op : BinaryOperator)
  /-- An application. -/
  | call
  /-- An announced function. -/
  | prototype
  /-- A defined function. -/
  | function
  deriving DecidableEq, Repr, Inhabited

/-- The name of a shape in the log. -/
def Shape.name : Shape → String
  | number => "Number"
  | reference => "Variable"
  | declaration => "VariableDeclaration"
  | assignment => "VariableAssignment"
  | binary .add => "Add"
  | binary .subtract => "Subtract"
  | binary .multiply => "Multiply"
  | binary .divide => "Divide"
  | binary .less => "LessThan"
  | binary .greater => "GreaterThan"
  | binary .equal => "Equal"
  | call => "Call"
  | prototype => "Prototype"
  | function => "Function"

namespace Node

/-- The shape of a node. -/
def shape : Node → Shape
  | number .. => .number
  | reference .. => .reference
  | declaration .. => .declaration
  | assignment .. => .assignment
  | binary op .. => .binary op
  | call .. => .call
  | prototype .. => .prototype
  | function .. => .function

/-- The place of a node. -/
def location : Node → Location
  | number _ l | reference _ l | declaration _ _ l | assignment _ _ l | binary _ _ _ l
  | call _ _ l | function _ _ l => l
  | prototype s => s.location

end Node

end Reckoner
