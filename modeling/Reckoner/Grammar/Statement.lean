import Reckoner.Grammar.Expression

/-!
# Statements

```text
statement ::= body (';' | end of input)
body      ::= 'let' name ('=' expression)?
            | 'function' signature '=>' expression
            | 'extern' signature
            | expression
signature ::= name? '(' (name (',' name)*)? ')'
```

## Main definitions

* `Grammar.signature` — reads the name and the parameters of a function.
* `Grammar.body` — reads a statement without what ends it.
* `Grammar.statement` — reads a statement and what ends it.
-/

namespace Reckoner.Grammar

open Reckoner.Parser

/-- Reads the name of a function, which may be missing, and its parameters. -/
def signature : Parser Signature := do
  let first ← current
  let name ← acceptName
  expectOperator "(" .parameterList
  let params ← listUntilClosed (expectName .parameterName) .parameterEnd
  return ⟨name.getD "", params, first.location⟩

/-- Reads a declaration behind its keyword, which stands at `location`.  A name that is given no
value starts at zero, and the zero stands where the name does. -/
def declaration (location : Location) : Parser Node := do
  let first ← current
  let name ← expectName .declaredName
  if ← accept "=" then
    return .declaration name (← expression maxNesting) location
  else
    return .declaration name (.number 0 first.location) location

/-- Reads a function behind its keyword, which stands at `location`. -/
def function (location : Location) : Parser Node := do
  let signature ← signature
  expectOperator "=>" .arrow
  return .function signature (← expression maxNesting) location

/-- Reads a statement without what ends it. -/
def body : Parser Node := do
  match ← current with
  | .token ⟨.keyword .letWord, location⟩ =>
    advance
    declaration location
  | .token ⟨.keyword .functionWord, location⟩ =>
    advance
    function location
  | .token ⟨.keyword .externWord, _⟩ =>
    advance
    return .prototype (← signature)
  | _ => expression maxNesting

/-- Reads what ends a statement: a semicolon, or the end of the input, which stays. -/
def terminator : Parser Unit := do
  unless ← accept ";" do
    unless (← current).isEnd do
      reject .statementEnd

/-- Reads a statement and what ends it. -/
def statement : Parser Node := do
  let node ← body
  terminator
  return node

end Reckoner.Grammar
