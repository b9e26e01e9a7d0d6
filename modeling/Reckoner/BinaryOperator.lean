/-!
# Binary operators

The operators that join two values.  Arithmetic is that of double precision, in which a division
by zero is an infinity or no number, and a comparison gives one if it holds and zero if not.

## Main definitions

* `BinaryOperator` — the operators.
* `BinaryOperator.text`, `BinaryOperator.ofText?` — their spelling.
* `BinaryOperator.name` — what a dump calls them.
* `BinaryOperator.precedence` — how tightly they bind.
* `BinaryOperator.apply` — what they compute.

## Main results

* `BinaryOperator.ofText?_eq_some_iff` — an operator is known by its spelling.
-/

namespace Reckoner

/-- An operator that joins two values. -/
inductive BinaryOperator where
  /-- The sum. -/
  | add
  /-- The difference. -/
  | subtract
  /-- The product. -/
  | multiply
  /-- The quotient. -/
  | divide
  /-- Whether the left value is less than the right one. -/
  | less
  /-- Whether the left value is greater than the right one. -/
  | greater
  /-- Whether the values are equal. -/
  | equal
  deriving DecidableEq, Repr, Inhabited

namespace BinaryOperator

/-- The spelling of an operator. -/
def text : BinaryOperator → String
  | add => "+"
  | subtract => "-"
  | multiply => "*"
  | divide => "/"
  | less => "<"
  | greater => ">"
  | equal => "=="

/-- The name of an operator in a dump. -/
def name : BinaryOperator → String
  | add => "Add"
  | subtract => "Sub"
  | multiply => "Mul"
  | divide => "Div"
  | less => "Lt"
  | greater => "Gt"
  | equal => "Eq"

/-- The operator with a given spelling. -/
def ofText? (s : String) : Option BinaryOperator :=
  if s = "+" then some add
  else if s = "-" then some subtract
  else if s = "*" then some multiply
  else if s = "/" then some divide
  else if s = "<" then some less
  else if s = ">" then some greater
  else if s = "==" then some equal
  else none

/-- How tightly an operator binds; the greater number binds tighter. -/
def precedence : BinaryOperator → Nat
  | multiply | divide => 40
  | add | subtract => 20
  | less | greater => 10
  | equal => 5

/-- One for what holds and zero for what does not. -/
def truth (holds : Bool) : Float := if holds then 1 else 0

/-- What an operator makes of two values. -/
def apply (op : BinaryOperator) (left right : Float) : Float :=
  match op with
  | add => left + right
  | subtract => left - right
  | multiply => left * right
  | divide => left / right
  | less => truth (left < right)
  | greater => truth (left > right)
  | equal => truth (left == right)

@[simp] theorem ofText?_text (op : BinaryOperator) : ofText? op.text = some op := by
  cases op <;> rfl

/-- An operator is known by its spelling. -/
theorem ofText?_eq_some_iff {s : String} {op : BinaryOperator} :
    ofText? s = some op ↔ s = op.text := by
  constructor
  · unfold ofText?
    repeat' split
    all_goals first
      | (rintro ⟨⟩; assumption)
      | simp
  · rintro rfl
    exact ofText?_text op

end BinaryOperator

end Reckoner
