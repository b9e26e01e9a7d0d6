import Reckoner.Text.CharSet

/-!
# Blank characters

The Unicode property *White_Space*: the characters that separate the words of a line and
carry no meaning of their own.

## Main definitions

* `blank` — the characters with the property, as a set of code points.
* `isBlank c` — whether `c` has the property.
-/

namespace Reckoner.Text

/-- The characters with the Unicode property White_Space, by the points at which it changes. -/
def blank : CharSet where
  bounds := [
    0x9, 0xE, 0x20, 0x21, 0x85, 0x86, 0xA0, 0xA1, 0x1680, 0x1681, 0x2000, 0x200B, 0x2028,
    0x202A, 0x202F, 0x2030, 0x205F, 0x2060, 0x3000, 0x3001]

/-- Whether a character has the Unicode property White_Space. -/
def isBlank (c : Char) : Bool := blank.contains c

end Reckoner.Text
