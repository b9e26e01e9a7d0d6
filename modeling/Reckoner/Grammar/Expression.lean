import Reckoner.Grammar.Parser
import Reckoner.Node

/-!
# Expressions

```text
expression ::= operand (operator operand)*
operand    ::= number
             | name
             | name '(' (expression (',' expression)*)? ')'
             | name '=' expression
             | '(' expression ')'
```

Operators that bind equally tightly are applied from left to right, and an operator that binds
tighter than the one before it takes the operand between them.  An equals sign is no operator of
that kind: it stands directly behind a name, and the whole rest of the expression is the value.

Each expression inside parentheses, an argument list or an assignment lies one level deeper than
the expression around it, and there is a limit to the levels.  The levels that are left are what
the reader of expressions recurs on.

## Main definitions

* `Grammar.operand inner` — reads an operand, whose expressions are read by `inner`.
* `Grammar.climb` — reads operators and operands behind an operand.
* `Grammar.expression levels` — reads an expression that may use `levels` levels.
* `Grammar.maxNesting` — the limit of nesting.
-/

namespace Reckoner.Grammar

open Reckoner.Parser

/-- The operator that an entry stands for, if it is one that joins two values. -/
def binaryOperator? : Entry → Option BinaryOperator
  | .token ⟨.operator text, _⟩ => BinaryOperator.ofText? text
  | _ => none

/-- Whether an entry is an operator that binds tighter than `op`. -/
def bindsTighter (op : BinaryOperator) (entry : Entry) : Bool :=
  match binaryOperator? entry with
  | some next => op.precedence < next.precedence
  | none => false

/-- Reads what follows a name: the arguments of a call, the value of an assignment, or nothing,
which leaves a plain reference. -/
def afterName (inner : Parser Node) (name : String) (location : Location) : Parser Node := do
  if ← accept "(" then
    return .call name (← listUntilClosed inner .argumentEnd) location
  else if ← accept "=" then
    return .assignment name (← inner) location
  else
    return .reference name location

/-- Reads an operand, whose expressions are read by `inner`. -/
def operand (inner : Parser Node) : Parser Node := do
  match ← current with
  | .token ⟨.identifier name, location⟩ =>
    advance
    afterName inner name location
  | .token ⟨.number value, location⟩ =>
    advance
    return .number value location
  | entry =>
    if entry.isOperator "(" then
      advance
      let node ← inner
      expectOperator ")" .closingParenthesis
      return node
    else
      reject .expression

/-- Reads operators that bind at least as tightly as `least`, each with the operand behind it,
and applies them to `left`.  If the operator behind an operand binds tighter than the one before
it, the operand first becomes the left side of that operator and of those that go with it.

At most `bound` operators are read in a row. -/
def climbUpTo (operand : Parser Node) : Nat → Nat → Node → Parser Node
  | 0, _, left => pure left
  | bound + 1, least, left => do
    let entry ← current
    match binaryOperator? entry with
    | none => return left
    | some op =>
      if op.precedence < least then
        return left
      else
        advance
        let right ← operand
        let right ←
          if bindsTighter op (← current) then
            climbUpTo operand bound (op.precedence + 1) right
          else pure right
        climbUpTo operand bound least (.binary op left right entry.location)

/-- Reads all operators that bind at least as tightly as `least`, with their operands, and
applies them to `left`.  There are no more operators than tokens ahead. -/
def climb (operand : Parser Node) (least : Nat) (left : Node) : Parser Node := do
  climbUpTo operand (← remaining) least left

/-- Reads an operand and all operators behind it. -/
def operation (operand : Parser Node) : Parser Node := do
  let left ← operand
  climb operand 0 left

/-- Fails because the expression that begins here is nested too deeply. -/
def tooDeep : Parser Node := fun s => .error (.nestedTooDeeply s.head.location) s

/-- Reads an expression that may use the given number of levels, its own among them. -/
def expression : Nat → Parser Node
  | 0 => tooDeep
  | levels + 1 => operation (operand (expression levels))

/-- The number of levels that an expression may use. -/
def maxNesting : Nat := 256

@[simp] theorem expression_zero : expression 0 = tooDeep := rfl

@[simp] theorem expression_succ (levels : Nat) :
    expression (levels + 1) = operation (operand (expression levels)) := rfl

end Reckoner.Grammar
