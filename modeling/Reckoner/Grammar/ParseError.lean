import Reckoner.Source

/-!
# Parse errors

Why a line cannot be read.  Either one of its number literals is malformed, so that it has no
tokens at all; or a token stands where the grammar has no place for it; or an expression is
nested beyond the limit.

An error names what was expected and keeps what was found instead, the end of the input
included, so that its message and its location come from the same token.

## Main definitions

* `Expectation` — what the grammar has a place for.
* `ParseError` — why a line cannot be read.
* `ParseError.location`, `ParseError.message`, `ParseError.describe` — where, what, and both.
-/

namespace Reckoner

/-- What the grammar has a place for. -/
inductive Expectation where
  /-- The beginning of an expression. -/
  | expression
  /-- The end of an expression in parentheses. -/
  | closingParenthesis
  /-- What follows an argument of a call. -/
  | argumentEnd
  /-- The name that is declared. -/
  | declaredName
  /-- The beginning of a parameter list. -/
  | parameterList
  /-- The name of a parameter. -/
  | parameterName
  /-- What follows a parameter. -/
  | parameterEnd
  /-- The arrow in front of the body of a function. -/
  | arrow
  /-- What follows a statement. -/
  | statementEnd
  deriving DecidableEq, Repr

/-- How a message names what was expected. -/
def Expectation.describe : Expectation → String
  | expression => "expression"
  | closingParenthesis => "')' after expression"
  | argumentEnd => "')' or ',' in argument list"
  | declaredName => "identifier after 'let'"
  | parameterList => "'(' in prototype"
  | parameterName => "identifier in parameter list"
  | parameterEnd => "',' or ')' in prototype"
  | arrow => "'=>' after prototype"
  | statementEnd => "';' or end of input after statement"

/-- Why a line cannot be read. -/
inductive ParseError where
  /-- A number literal stands for no number. -/
  | malformedNumber (error : MalformedNumber)
  /-- An expression that starts at the given location is nested too deeply. -/
  | nestedTooDeeply (location : Location)
  /-- The grammar has no place for what was found. -/
  | unexpected (found : Entry) (expected : Expectation)
  deriving Repr

namespace ParseError

/-- Where the error is. -/
def location : ParseError → Location
  | malformedNumber e => e.location
  | nestedTooDeeply l => l
  | unexpected found _ => found.location

/-- What is wrong.  An operator in the place of an expression is named as such. -/
def message : ParseError → String
  | malformedNumber e => e.message
  | nestedTooDeeply _ => "Expression nested too deeply"
  | unexpected (.token ⟨.operator text, _⟩) .expression =>
    s!"Unexpected operator '{text}' when expecting an expression"
  | unexpected found expected => s!"Expected {expected.describe}, found {found.describe}"

/-- What is wrong and where. -/
def describe (e : ParseError) : String :=
  s!"Parse error at {e.location.describe}: {e.message}"

end ParseError

end Reckoner
