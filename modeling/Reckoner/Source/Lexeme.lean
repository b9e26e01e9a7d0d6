import Reckoner.Decimal.Numeral
import Reckoner.Text.Alphabetic
import Reckoner.Text.Numeric
import Reckoner.Token

/-!
# Reading lexemes

How far a lexeme reaches is decided by its first character: a word goes on while characters
continue a word, a number literal while there are digits and points, an equals sign takes a
second equals sign or a greater sign along, and anything else stands alone.  What the text
means is a second question, and only a number literal can turn out to mean nothing.

## Main definitions

* `Lexeme.munch first rest` — the text of the lexeme that starts with `first`, and what is left.
* `Lexeme.ofText? first text` — the lexeme that a text stands for.

## Main results

* `Lexeme.munch_append` — the text and what is left make up the whole.
* `Lexeme.munch_head` — the text starts with its first character.
-/

namespace Reckoner

/-- Whether a character may start a word. -/
def startsWord (c : Char) : Bool := Text.isAlphabetic c || c = '_'

/-- Whether a character may continue a word. -/
def continuesWord (c : Char) : Bool := Text.isAlphabetic c || Text.isNumeric c || c = '_'

/-- Whether a character may continue a number literal. -/
def continuesNumeral (c : Char) : Bool := c.isDigit || c = '.'

namespace Lexeme

/-- The text of the lexeme that starts with `first`, and what is left. -/
def munch (first : Char) (rest : List Char) : List Char × List Char :=
  if startsWord first then
    (first :: rest.takeWhile continuesWord, rest.dropWhile continuesWord)
  else if first.isDigit then
    (first :: rest.takeWhile continuesNumeral, rest.dropWhile continuesNumeral)
  else
    match first, rest with
    | '=', '=' :: more => (['=', '='], more)
    | '=', '>' :: more => (['=', '>'], more)
    | _, _ => ([first], rest)

/-- The lexeme that a text stands for, given the first character of the text; a number literal
with two points stands for none. -/
def ofText? (first : Char) (text : List Char) : Option Lexeme :=
  if startsWord first then
    some <| match Keyword.ofText? (String.ofList text) with
      | some word => .keyword word
      | none => .identifier (String.ofList text)
  else if first.isDigit then
    (Numeral.read? text).map .number
  else
    some (.operator (String.ofList text))

/-- The text of a lexeme and what is left make up the whole. -/
theorem munch_append (first : Char) (rest : List Char) :
    (munch first rest).1 ++ (munch first rest).2 = first :: rest := by
  unfold munch
  split
  · simp
  split
  · simp
  split <;> simp

/-- The text of a lexeme starts with its first character. -/
theorem munch_head (first : Char) (rest : List Char) :
    (munch first rest).1.head? = some first := by
  unfold munch
  split
  · simp
  split
  · simp
  split <;> simp

/-- What is left is shorter than the whole. -/
theorem length_munch_le (first : Char) (rest : List Char) :
    (munch first rest).2.length ≤ rest.length := by
  have h := congrArg List.length (munch_append first rest)
  have hne : (munch first rest).1 ≠ [] := by
    intro h0
    simpa [h0] using munch_head first rest
  have := List.length_pos_iff.2 hne
  rw [List.length_append, List.length_cons] at h
  omega

end Lexeme

end Reckoner
