import Reckoner.Source.Lexeme
import Reckoner.Source.Trivia
import Reckoner.TokenStream

/-!
# Source text

The text of a line that has not been read yet, and the location of its first character.  Reading
takes one lexeme at a time off the front, together with the trivia before it.

A malformed number literal is a failure of its own lexeme only: the reading of the text can go
on behind it.  The tokens of a whole text exist only if none of its literals is malformed.

## Main definitions

* `Source` — the unread text and where it starts.
* `MalformedNumber` — a number literal that stands for no number.
* `Source.next` — the next entry of the text, and the text after it.
* `Source.tokenize` — all tokens of the text, or the first malformed literal.

## Main results

* `Source.length_next_lt` — a token uses up text.
* `Source.tokenize_eq` — the tokens of a text are its next token and the tokens behind it.
-/

namespace Reckoner

/-- A number literal that stands for no number. -/
structure MalformedNumber where
  /-- The literal as it is written. -/
  literal : String
  /-- The place of its first digit. -/
  location : Location
  deriving DecidableEq, Repr

namespace MalformedNumber

/-- What is wrong. -/
def message (e : MalformedNumber) : String := s!"Invalid number literal: {e.literal}"

/-- What is wrong and where. -/
def describe (e : MalformedNumber) : String :=
  s!"Lexer error at {e.location.describe}: {e.message}"

end MalformedNumber

/-- Text that has not been read yet. -/
structure Source where
  /-- The text. -/
  rest : List Char
  /-- The place of its first character. -/
  location : Location
  deriving DecidableEq, Repr

namespace Source

/-- The source that a whole text is. -/
def ofString (s : String) : Source := ⟨s.toList, .start⟩

/-- The next entry of the text and the text after it.  Behind the last token there is always
the end of the input. -/
def next (s : Source) : Except MalformedNumber Entry × Source :=
  let (trivia, rest) := Trivia.split false s.rest
  let here := s.location.advance trivia
  match rest with
  | [] => (.ok (.endOfInput here), ⟨[], here⟩)
  | first :: more =>
    let (text, rest) := Lexeme.munch first more
    let after : Source := ⟨rest, here.advance text⟩
    match Lexeme.ofText? first text with
    | some lexeme => (.ok (.token ⟨lexeme, here⟩), after)
    | none => (.error ⟨String.ofList text, here⟩, after)

/-- Unless the end of the input is reached, reading uses up text. -/
theorem length_next_lt {s : Source} (h : ∀ l, s.next.1 ≠ .ok (.endOfInput l)) :
    s.next.2.rest.length < s.rest.length := by
  have htrivia := Trivia.length_split_le false s.rest
  unfold next at h ⊢
  generalize Trivia.split false s.rest = parts at h htrivia ⊢
  obtain ⟨trivia, _ | ⟨first, more⟩⟩ := parts
  · exact absurd rfl (h _)
  · have hmunch := Lexeme.length_munch_le first more
    dsimp only at h htrivia ⊢
    split <;> simp_all <;> omega

/-- All tokens of the text and the location of its end, or the first malformed literal. -/
def tokenize (s : Source) : Except MalformedNumber TokenStream :=
  match _ : s.next with
  | (.error e, _) => .error e
  | (.ok (.endOfInput l), _) => .ok ⟨[], l⟩
  | (.ok (.token t), after) => after.tokenize.map (.cons t)
termination_by s.rest.length
decreasing_by
  next h =>
    have hlt := length_next_lt (s := s) (by simp [h])
    rwa [h] at hlt

/-- The tokens of a text are its next token and the tokens behind it. -/
theorem tokenize_eq (s : Source) :
    s.tokenize =
      match s.next with
      | (.error e, _) => .error e
      | (.ok (.endOfInput l), _) => .ok ⟨[], l⟩
      | (.ok (.token t), after) => after.tokenize.map (.cons t) := by
  rw [tokenize]
  split <;> simp_all

end Source

end Reckoner
