import Reckoner.Decimal.Layout
import Reckoner.Location

/-!
# Tokens

The words of the language.  A token is a lexeme together with the location of its first
character; what the reader of a line finds next is a token or the end of the input, which has a
location too.

## Main definitions

* `Keyword`, `Lexeme`, `Token` — reserved words, words of every kind, and words in their place.
* `Entry` — what is found at a place of the input: a token or its end.
* `Entry.describe` — how an entry is named in a message.
-/

namespace Reckoner

/-- The reserved words. -/
inductive Keyword where
  /-- `let` opens a declaration. -/
  | letWord
  /-- `function` opens the definition of a function. -/
  | functionWord
  /-- `extern` opens the announcement of a function. -/
  | externWord
  deriving DecidableEq, Repr

namespace Keyword

/-- The spelling of a reserved word. -/
def text : Keyword → String
  | letWord => "let"
  | functionWord => "function"
  | externWord => "extern"

/-- The reserved word with a given spelling. -/
def ofText? (s : String) : Option Keyword :=
  if s = "let" then some letWord
  else if s = "function" then some functionWord
  else if s = "extern" then some externWord
  else none

@[simp] theorem ofText?_text (k : Keyword) : ofText? k.text = some k := by
  cases k <;> rfl

/-- Only the spelling of a reserved word is read as one. -/
theorem ofText?_eq_some_iff {s : String} {k : Keyword} : ofText? s = some k ↔ s = k.text := by
  constructor
  · unfold ofText?
    split
    · rintro ⟨⟩; assumption
    split
    · rintro ⟨⟩; assumption
    split
    · rintro ⟨⟩; assumption
    · simp
  · rintro rfl
    exact ofText?_text k

end Keyword

/-- A word of the language. -/
inductive Lexeme where
  /-- A name. -/
  | identifier (name : String)
  /-- A number, by its value. -/
  | number (value : Float)
  /-- An operator or a mark of punctuation, by its spelling. -/
  | operator (text : String)
  /-- A reserved word. -/
  | keyword (word : Keyword)
  deriving Repr, Inhabited

/-- How a lexeme is named in a message. -/
def Lexeme.describe : Lexeme → String
  | identifier name => s!"identifier '{name}'"
  | number value => "number " ++ Decimal.Layout.plain.write value
  | operator text => s!"operator '{text}'"
  | keyword word => s!"keyword '{word.text}'"

/-- A lexeme in its place. -/
structure Token where
  /-- The word itself. -/
  lexeme : Lexeme
  /-- The place of its first character. -/
  location : Location
  deriving Repr, Inhabited

/-- What is found at a place of the input. -/
inductive Entry where
  /-- A token. -/
  | token (t : Token)
  /-- The end of the input. -/
  | endOfInput (location : Location)
  deriving Repr, Inhabited

namespace Entry

/-- The place of an entry. -/
def location : Entry → Location
  | token t => t.location
  | endOfInput l => l

/-- The lexeme of an entry, which the end of the input has not. -/
def lexeme? : Entry → Option Lexeme
  | token t => some t.lexeme
  | endOfInput _ => none

/-- Whether the entry is the end of the input. -/
def isEnd : Entry → Bool
  | token _ => false
  | endOfInput _ => true

/-- Whether the entry is the operator with the given spelling. -/
def isOperator (e : Entry) (text : String) : Bool :=
  match e with
  | token ⟨.operator found, _⟩ => found = text
  | _ => false

/-- How an entry is named in a message. -/
def describe : Entry → String
  | token t => t.lexeme.describe
  | endOfInput _ => "end of input"

@[simp] theorem location_token (t : Token) : (token t).location = t.location := rfl

@[simp] theorem location_endOfInput (l : Location) : (endOfInput l).location = l := rfl

/-- An entry is an operator only as a token with that spelling. -/
theorem isOperator_iff {e : Entry} {text : String} :
    e.isOperator text = true ↔ ∃ l, e = token ⟨.operator text, l⟩ := by
  unfold isOperator
  split
  · simp
  · next h =>
    refine iff_of_false (by simp) ?_
    rintro ⟨l, rfl⟩
    exact h text l rfl

end Entry

end Reckoner
