import Reckoner.Grammar.Statement

/-!
# Parsers put together

All parsers of the grammar are put together from a few steps and two loops.  A property that the
steps have, that two parsers have together if each has it, and that goes through the loops, is
therefore one of all parsers of the grammar.

A loop may go round as often as there are tokens ahead.  A property that does not mind the counting
of what is ahead goes through the loops because they have it for every bound.

## Main definitions

* `Parser.Steps` — a property that the steps have, and that two parsers have together.
* `Parser.Compositional` — such a property that goes through the loops.

## Main results

* `Parser.Steps.compositional` — a property that the counting has as well goes through the loops.
* `Parser.Compositional.expression`, `Parser.Compositional.statement` — the grammar has every such
  property.
-/

namespace Reckoner.Parser

/-- A property of parsers that the steps have, and that two parsers have one after the other. -/
structure Steps (P : (α : Type) → Parser α → Prop) : Prop where
  pure : ∀ {α : Type} (a : α), P α (pure a)
  bind : ∀ {α β : Type} {p : Parser α} {f : α → Parser β}, P α p → (∀ a, P β (f a)) →
    P β (p >>= f)
  current : P Entry current
  advance : P Unit advance
  reject : ∀ {α : Type} (expected : Expectation), P α (reject expected)
  tooDeep : P Node Grammar.tooDeep

/-- A property of parsers that goes from the steps to what is put together from them, through both
loops. -/
structure Compositional (P : (α : Type) → Parser α → Prop) : Prop extends Steps P where
  separated : ∀ {α : Type} {item : Parser α}, P α item → ∀ expected : Expectation,
    P (List α) (separated item expected)
  climb : ∀ {operand : Parser Node}, P Node operand → ∀ (least : Nat) (left : Node),
    P Node (Grammar.climb operand least left)

variable {P : (α : Type) → Parser α → Prop}

/-! ### Words and bounded loops -/

namespace Steps

variable (h : Steps P)

include h

theorem accept (text : String) : P Bool (accept text) := by
  refine h.bind h.current fun entry => ?_
  split
  · exact h.bind h.advance fun _ => h.pure _
  · exact h.pure _

theorem expectOperator (text : String) (expected : Expectation) :
    P Unit (expectOperator text expected) := by
  refine h.bind (h.accept text) fun found => ?_
  split
  · exact h.pure _
  · exact h.reject expected

theorem acceptName : P (Option String) acceptName := by
  refine h.bind h.current fun entry => ?_
  split
  · exact h.bind h.advance fun _ => h.pure _
  · exact h.pure _

theorem expectName (expected : Expectation) : P String (expectName expected) := by
  refine h.bind h.acceptName fun name => ?_
  split
  · exact h.pure _
  · exact h.reject expected

theorem separatedUpTo {α : Type} {item : Parser α} (hitem : P α item) (expected : Expectation)
    (bound : Nat) : P (List α) (separatedUpTo item expected bound) := by
  induction bound with
  | zero => exact h.bind hitem fun _ => h.bind (h.expectOperator ")" expected) fun _ => h.pure _
  | succ bound ih =>
    refine h.bind hitem fun a => h.bind (h.accept ")") fun closed => ?_
    split
    · exact h.pure _
    refine h.bind (h.accept ",") fun more => ?_
    split
    · exact h.bind ih fun _ => h.pure _
    · exact h.reject expected

theorem climbUpTo {operand : Parser Node} (hoperand : P Node operand) (bound least : Nat)
    (left : Node) : P Node (Grammar.climbUpTo operand bound least left) := by
  induction bound generalizing least left with
  | zero => exact h.pure _
  | succ bound ih =>
    refine h.bind h.current fun entry => ?_
    split
    · exact h.pure _
    split
    · exact h.pure _
    refine h.bind h.advance fun _ => h.bind hoperand fun right => h.bind h.current fun next => ?_
    split
    · exact h.bind (ih _ _) fun _ => ih _ _
    · exact h.bind (h.pure _) fun _ => ih _ _

/-- A property that the counting of what is ahead has as well goes through the loops. -/
theorem compositional (hremaining : P Nat remaining) : Compositional P where
  toSteps := h
  separated hitem expected := h.bind hremaining fun bound => h.separatedUpTo hitem expected bound
  climb hoperand least left := h.bind hremaining fun bound => h.climbUpTo hoperand bound least left

end Steps

namespace Compositional

variable (h : Compositional P)

include h

theorem listUntilClosed {α : Type} {item : Parser α} (hitem : P α item) (expected : Expectation) :
    P (List α) (listUntilClosed item expected) := by
  refine h.bind (h.accept ")") fun closed => ?_
  split
  · exact h.pure _
  · exact h.separated hitem expected

/-! ### Expressions -/

section Operands

variable {inner : Parser Node} (hinner : P Node inner)

include hinner

theorem afterName (name : String) (location : Location) :
    P Node (Grammar.afterName inner name location) := by
  refine h.bind (h.accept "(") fun isCall => ?_
  split
  · exact h.bind (h.listUntilClosed hinner .argumentEnd) fun _ => h.pure _
  refine h.bind (h.accept "=") fun isAssignment => ?_
  split
  · exact h.bind hinner fun _ => h.pure _
  · exact h.pure _

theorem operand : P Node (Grammar.operand inner) := by
  refine h.bind h.current fun entry => ?_
  split
  · exact h.bind h.advance fun _ => h.afterName hinner _ _
  · exact h.bind h.advance fun _ => h.pure _
  · split
    · exact h.bind h.advance fun _ => h.bind hinner fun _ =>
        h.bind (h.expectOperator ")" _) fun _ => h.pure _
    · exact h.reject _

end Operands

theorem expression (levels : Nat) : P Node (Grammar.expression levels) := by
  induction levels with
  | zero => exact h.tooDeep
  | succ levels ih => exact h.bind (h.operand ih) fun left => h.climb (h.operand ih) 0 left

/-! ### Statements -/

theorem signature : P Signature Grammar.signature :=
  h.bind h.current fun _ => h.bind h.acceptName fun _ => h.bind (h.expectOperator "(" _) fun _ =>
    h.bind (h.listUntilClosed (h.expectName _) _) fun _ => h.pure _

theorem declaration (location : Location) : P Node (Grammar.declaration location) := by
  refine h.bind h.current fun first => h.bind (h.expectName _) fun name => ?_
  refine h.bind (h.accept "=") fun hasValue => ?_
  split
  · exact h.bind (h.expression _) fun _ => h.pure _
  · exact h.pure _

theorem function (location : Location) : P Node (Grammar.function location) :=
  h.bind h.signature fun _ => h.bind (h.expectOperator "=>" _) fun _ =>
    h.bind (h.expression _) fun _ => h.pure _

theorem body : P Node Grammar.body := by
  refine h.bind h.current fun entry => ?_
  split
  · exact h.bind h.advance fun _ => h.declaration _
  · exact h.bind h.advance fun _ => h.function _
  · exact h.bind h.advance fun _ => h.bind h.signature fun _ => h.pure _
  · exact h.expression _

theorem terminator : P Unit Grammar.terminator := by
  refine h.bind (h.accept ";") fun closed => ?_
  split
  · exact h.pure _
  refine h.bind h.current fun entry => ?_
  split
  · exact h.pure _
  · exact h.reject _

theorem statement : P Node Grammar.statement :=
  h.bind h.body fun _ => h.bind h.terminator fun _ => h.pure _

end Compositional

end Reckoner.Parser
