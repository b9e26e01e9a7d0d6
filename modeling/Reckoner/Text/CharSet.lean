/-!
# Sets of characters

A set of characters is kept as the ascending list of the code points at which membership
changes, beginning outside the set.  The properties of characters that the language asks
about are long runs of neighbours, so their lists are short next to the sets, and a code
point is looked up by walking over the changes that lie at or below it.

## Main definitions

* `CharSet` — a set of characters, by its points of change.
* `CharSet.contains s c` — whether the set holds a character.

## Main results

* `CharSet.inside_cons_of_lt`, `CharSet.inside_cons_of_le` — below the first change everything is
  outside, and behind it the changes after it are turned around.
-/

namespace Reckoner.Text

/-- A set of characters, by the ascending code points at which membership changes. -/
structure CharSet where
  /-- The first code point inside, the first outside again, and so on. -/
  bounds : List Nat

namespace CharSet

/-- Whether `n` lies inside, walking over the changes at or below it. -/
def inside : List Nat → Nat → Bool
  | [], _ => false
  | b :: bs, n => if n < b then false else !inside bs n

/-- Whether the set holds a character. -/
def contains (s : CharSet) (c : Char) : Bool := inside s.bounds c.toNat

@[simp] theorem inside_nil (n : Nat) : inside [] n = false := rfl

/-- Below the first change everything is outside. -/
theorem inside_cons_of_lt {b n : Nat} (bs : List Nat) (h : n < b) :
    inside (b :: bs) n = false := if_pos h

/-- A change at or below `n` turns the answer of the changes after it around. -/
theorem inside_cons_of_le {b n : Nat} (bs : List Nat) (h : b ≤ n) :
    inside (b :: bs) n = !inside bs n := if_neg (Nat.not_lt.2 h)

end CharSet

end Reckoner.Text
