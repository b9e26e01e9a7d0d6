import Reckoner.Grammar.ParseError

/-!
# Parsers

A parser reads from the front of a token stream.  If it fails, it leaves the stream where it
failed: what it had read is read, and the token it could not use is the next one.

## Main definitions

* `Parser` — a computation over a token stream that may fail with a parse error.
* `Parser.current`, `Parser.advance` — looking at the next entry, and going past it.
* `Parser.accept`, `Parser.expectOperator`, `Parser.expectName` — reading what comes next if
  it is as wanted.
* `Parser.separated`, `Parser.listUntilClosed` — items between commas, and a list in
  parentheses.

## Main results

* `Parser.accept_of_isOperator`, `Parser.accept_of_not_isOperator` — what `accept` does.
-/

namespace Reckoner

/-- A computation over a token stream that may fail with a parse error. -/
abbrev Parser (α : Type) : Type := EStateM ParseError TokenStream α

namespace Parser

variable {α : Type}

/-- The next entry, which stays where it is. -/
def current : Parser Entry := fun s => .ok s.head s

/-- Goes past the next token; at the end of the input there is nothing to go past. -/
def advance : Parser Unit := fun s => .ok () s.tail

/-- The number of tokens ahead. -/
def remaining : Parser Nat := fun s => .ok s.length s

/-- Fails because the next entry is not what was expected. -/
def reject (expected : Expectation) : Parser α := fun s => .error (.unexpected s.head expected) s

/-- Reads the operator with the given spelling, if it comes next. -/
def accept (text : String) : Parser Bool := do
  if (← current).isOperator text then
    advance
    return true
  else
    return false

/-- Reads the operator with the given spelling, which has to come next. -/
def expectOperator (text : String) (expected : Expectation) : Parser Unit := do
  unless ← accept text do
    reject expected

/-- Reads a name, if one comes next. -/
def acceptName : Parser (Option String) := do
  match ← current with
  | .token ⟨.identifier name, _⟩ =>
    advance
    return some name
  | _ => return none

/-- Reads a name, which has to come next. -/
def expectName (expected : Expectation) : Parser String := do
  match ← acceptName with
  | some name => return name
  | none => reject expected

/-- Reads items separated by commas, up to and including the closing parenthesis.  At most
`bound` commas are read. -/
def separatedUpTo (item : Parser α) (expected : Expectation) : Nat → Parser (List α)
  | 0 => do
    let a ← item
    expectOperator ")" expected
    return [a]
  | bound + 1 => do
    let a ← item
    if ← accept ")" then
      return [a]
    else if ← accept "," then
      return a :: (← separatedUpTo item expected bound)
    else
      reject expected

/-- Reads items separated by commas, up to and including the closing parenthesis.  There are no
more commas than tokens ahead. -/
def separated (item : Parser α) (expected : Expectation) : Parser (List α) := do
  separatedUpTo item expected (← remaining)

/-- Reads what follows an opening parenthesis: items separated by commas, and the closing
parenthesis.  There may be no item, but no comma stands without an item on either side. -/
def listUntilClosed (item : Parser α) (expected : Expectation) : Parser (List α) := do
  if ← accept ")" then
    return []
  else
    separated item expected

/-! ### Looking and accepting -/

@[simp] theorem current_run (s : TokenStream) : current s = .ok s.head s := rfl

@[simp] theorem advance_run (s : TokenStream) : advance s = .ok () s.tail := rfl

@[simp] theorem remaining_run (s : TokenStream) : remaining s = .ok s.length s := rfl

@[simp] theorem reject_run (expected : Expectation) (s : TokenStream) :
    (reject expected : Parser α) s = .error (.unexpected s.head expected) s := rfl

/-- An operator that comes next is read. -/
theorem accept_of_isOperator {text : String} {s : TokenStream}
    (h : s.head.isOperator text = true) : accept text s = .ok true s.tail := by
  simp [accept, bind, EStateM.bind, pure, EStateM.pure, h]

/-- Nothing is read if anything else comes next. -/
theorem accept_of_not_isOperator {text : String} {s : TokenStream}
    (h : s.head.isOperator text = false) : accept text s = .ok false s := by
  simp [accept, bind, EStateM.bind, pure, EStateM.pure, h]

end Parser

end Reckoner
