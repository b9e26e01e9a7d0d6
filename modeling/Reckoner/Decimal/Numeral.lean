/-!
# Number literals

A number literal is a run of decimal digits with at most one point among them.  It stands for
the double nearest to the decimal it spells.

## Main definitions

* `Numeral.read? text` — the double that a literal stands for.

## Main results

* `Numeral.read?_isSome_iff` — exactly the texts with at most one point are literals.
-/

namespace Reckoner.Numeral

/-- The digits in front of the point, or all of them if there is none. -/
def whole (text : List Char) : List Char := text.takeWhile (· ≠ '.')

/-- The digits behind the first point. -/
def fraction (text : List Char) : List Char := (text.dropWhile (· ≠ '.')).drop 1

/-- The double that a run of digits and points stands for: the one nearest to the decimal it
spells, and nothing if there is a second point. -/
def read? (text : List Char) : Option Float :=
  if '.' ∈ fraction text then none
  else
    let coefficient := Nat.ofDigitChars 10 (whole text ++ fraction text) 0
    some (Float.ofScientific coefficient true (fraction text).length)

/-- The number of points in a text, one of them in front of its fraction. -/
theorem count_point (text : List Char) :
    text.count '.' ≤ 1 ↔ '.' ∉ fraction text := by
  induction text with
  | nil => simp [fraction]
  | cons c cs ih =>
    by_cases h : c = '.'
    · subst h
      simp [fraction, List.count_eq_zero]
    · rw [List.count_cons_of_ne (by simpa using h), ih]
      simp [fraction, h]

/-- Exactly the runs with at most one point are literals. -/
theorem read?_isSome_iff (text : List Char) : (read? text).isSome ↔ text.count '.' ≤ 1 := by
  rw [count_point, read?]
  split <;> simp_all

end Reckoner.Numeral
