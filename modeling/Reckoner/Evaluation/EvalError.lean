import Reckoner.Location

/-!
# Evaluation errors

Why a statement has no value: it uses a name that is not declared, declares one that is, or is
of a form that is read but has no meaning.

## Main definitions

* `Construct` — a form without a meaning.
* `EvalError` — why a statement has no value.
* `EvalError.location`, `EvalError.message` — where and what.
-/

namespace Reckoner

/-- A form that is read but has no meaning. -/
inductive Construct where
  /-- The application of a function. -/
  | call (callee : String)
  /-- A function that is announced but not defined. -/
  | prototype (name : String)
  /-- The definition of a function, whose name may be empty. -/
  | function (name : String)
  deriving DecidableEq, Repr

/-- How a message names a form. -/
def Construct.describe : Construct → String
  | call callee => s!"Call to '{callee}'"
  | prototype name => s!"Prototype '{name}'"
  | function name => if name = "" then "Anonymous function" else s!"Function '{name}'"

/-- Why a statement has no value. -/
inductive EvalError where
  /-- A name is used or given a new value without having been declared. -/
  | undefinedVariable (name : String) (location : Location)
  /-- A name is declared again. -/
  | duplicateDeclaration (name : String) (location : Location)
  /-- A form without a meaning is evaluated. -/
  | notEvaluable (construct : Construct) (location : Location)
  deriving DecidableEq, Repr

namespace EvalError

/-- Where the error is. -/
def location : EvalError → Location
  | undefinedVariable _ l | duplicateDeclaration _ l | notEvaluable _ l => l

/-- What the error is about: a name, or a form. -/
def subject : EvalError → String
  | undefinedVariable name _ | duplicateDeclaration name _ => name
  | notEvaluable construct _ => construct.describe

/-- What is wrong, apart from the line. -/
def summary : EvalError → String
  | undefinedVariable name _ => s!"Undefined variable '{name}'"
  | duplicateDeclaration name _ => s!"Variable '{name}' is already declared"
  | notEvaluable construct _ => construct.describe ++ " cannot be evaluated"

/-- What is wrong, and on which line. -/
def message (e : EvalError) : String := s!"{e.summary} at line {e.location.line}"

end EvalError

end Reckoner
