/-!
# Lines

A text is read line by line.  A line ends with its line feed, which belongs to it; the last line
may lack one.

## Main definitions

* `lines cs` — the lines of a text.
* `EndsLine cs` — what follows the text begins a line.

## Main results

* `flatten_lines` — the lines make up the text.
* `lines_append` — where a line has ended, a text can be cut.
-/

namespace Reckoner.Text

/-- The lines of a text, each with its line feed. -/
def lines : List Char → List (List Char)
  | [] => []
  | c :: cs =>
    if c = '\n' then [c] :: lines cs
    else
      match lines cs with
      | [] => [[c]]
      | line :: rest => (c :: line) :: rest

@[simp] theorem lines_nil : lines [] = [] := rfl

/-- A line feed ends a line. -/
@[simp] theorem lines_lineFeed (cs : List Char) : lines ('\n' :: cs) = ['\n'] :: lines cs := rfl

/-- The lines make up the text. -/
@[simp] theorem flatten_lines (cs : List Char) : (lines cs).flatten = cs := by
  fun_induction lines cs <;> simp_all

/-- What follows the text begins a line: the text is empty or ends with a line feed. -/
def EndsLine (cs : List Char) : Prop := ∀ c ∈ cs.getLast?, c = '\n'

theorem endsLine_nil : EndsLine [] := nofun

theorem endsLine_concat (cs : List Char) : EndsLine (cs ++ ['\n']) := by
  intro c hc
  rw [List.getLast?_concat] at hc
  exact (Option.some.inj hc).symm

/-- Whether a line has ended is decided by the end of the text. -/
theorem EndsLine.of_cons {c : Char} {cs : List Char} (h : EndsLine (c :: cs)) : EndsLine cs := by
  cases cs with
  | nil => exact endsLine_nil
  | cons d ds =>
    intro e he
    exact h e (by rwa [List.getLast?_cons_cons])

/-- Only an empty text has no lines. -/
theorem eq_nil_of_lines_eq_nil {cs : List Char} (h : lines cs = []) : cs = [] := by
  rw [← flatten_lines cs, h, List.flatten_nil]

/-- Where a line has ended, a text can be cut. -/
theorem lines_append {cs : List Char} (h : EndsLine cs) (ds : List Char) :
    lines (cs ++ ds) = lines cs ++ lines ds := by
  induction cs with
  | nil => rfl
  | cons c cs ih =>
    rw [List.cons_append, lines, lines, ih h.of_cons]
    by_cases hc : c = '\n'
    · rw [if_pos hc, if_pos hc, List.cons_append]
    · rw [if_neg hc, if_neg hc]
      cases hlines : lines cs with
      | nil =>
        -- a text of this one character would have to end with a line feed
        obtain rfl := eq_nil_of_lines_eq_nil hlines
        exact absurd (h c rfl) hc
      | cons line rest => rfl

end Reckoner.Text
