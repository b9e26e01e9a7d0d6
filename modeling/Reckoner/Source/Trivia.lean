import Reckoner.Text.Blank

/-!
# Trivia

What stands between two lexemes and means nothing: blanks, and comments from a number sign to
the end of the line.  A comment takes the line feed or carriage return that ends it along.

## Main definitions

* `Trivia.split inComment cs` — the trivia at the front of `cs`, and the rest.

## Main results

* `Trivia.split_append` — the two parts make up the whole.
* `Trivia.split_rest` — the rest is empty or begins with something that is no trivia.
-/

namespace Reckoner.Trivia

/-- Whether a character ends a comment. -/
def endsComment (c : Char) : Bool := c = '\n' || c = '\r'

/-- The trivia at the front of a text, and the rest.  Inside a comment everything is trivia up
to and including the character that ends it. -/
def split : Bool → List Char → List Char × List Char
  | _, [] => ([], [])
  | true, c :: cs =>
    let (trivia, rest) := split (!endsComment c) cs
    (c :: trivia, rest)
  | false, c :: cs =>
    if Text.isBlank c then
      let (trivia, rest) := split false cs
      (c :: trivia, rest)
    else if c = '#' then
      let (trivia, rest) := split true cs
      (c :: trivia, rest)
    else
      ([], c :: cs)

@[simp] theorem split_nil (inComment : Bool) : split inComment [] = ([], []) := by
  cases inComment <;> rfl

/-- A comment goes on until a character ends it. -/
theorem split_comment (c : Char) (cs : List Char) :
    split true (c :: cs) =
      (c :: (split (!endsComment c) cs).1, (split (!endsComment c) cs).2) := rfl

/-- A blank is trivia. -/
theorem split_blank {c : Char} (h : Text.isBlank c = true) (cs : List Char) :
    split false (c :: cs) = (c :: (split false cs).1, (split false cs).2) := by
  simp [split, h]

/-- A number sign opens a comment. -/
theorem split_numberSign (cs : List Char) :
    split false ('#' :: cs) = ('#' :: (split true cs).1, (split true cs).2) := rfl

/-- Anything else ends the trivia. -/
theorem split_of_ne {c : Char} (h : Text.isBlank c = false) (hc : c ≠ '#') (cs : List Char) :
    split false (c :: cs) = ([], c :: cs) := by
  simp [split, h, hc]

/-- The trivia and the rest make up the whole. -/
theorem split_append (inComment : Bool) (cs : List Char) :
    (split inComment cs).1 ++ (split inComment cs).2 = cs := by
  fun_induction split inComment cs <;> simp_all

/-- The rest is empty or begins with something that is neither a blank nor a number sign. -/
theorem split_rest (inComment : Bool) (cs : List Char) {c : Char} {rest : List Char}
    (h : (split inComment cs).2 = c :: rest) : Text.isBlank c = false ∧ c ≠ '#' := by
  fun_induction split inComment cs <;> simp_all

/-- The rest is no longer than the whole. -/
theorem length_split_le (inComment : Bool) (cs : List Char) :
    (split inComment cs).2.length ≤ cs.length := by
  have h := congrArg List.length (split_append inComment cs)
  rw [List.length_append] at h
  omega

end Reckoner.Trivia
