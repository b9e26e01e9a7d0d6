/-!
# Styles

What is written to the terminal comes in blocks, each in the colour of its role.  A colour is
switched on by an escape sequence in front of the text and reset by another one behind it; where
colours are not wanted, the text stands alone.

## Main definitions

* `Role` — what a text is for, and so in what colour it is shown.
* `paint` — a text in the colour of its role.
* `Block` — a text that takes up whole lines.
-/

namespace Reckoner

/-- What a text on the terminal is for. -/
inductive Role where
  /-- The invitation to enter a line. -/
  | prompt
  /-- What is said once at the beginning. -/
  | info
  /-- A value. -/
  | value
  /-- Why a statement has no value. -/
  | error
  /-- Why a line could not be read. -/
  | warning
  /-- Details that were asked for: trees and timings. -/
  | detail
  deriving DecidableEq, Repr

/-- The number of the colour of a role in the palette of the terminal. -/
def Role.colour : Role → Nat
  | prompt | info => 7
  | value => 3
  | error => 9
  | warning => 11
  | detail => 15

/-- The sequence that switches on the colour of a role. -/
def Role.switchOn (role : Role) : String := s!"\x1b[38;5;{role.colour}m"

/-- The sequence that resets the colour. -/
def resetColour : String := "\x1b[0m"

/-- A text in the colour of its role, if colours are wanted. -/
def paint (coloured : Bool) (role : Role) (text : String) : String :=
  if coloured then role.switchOn ++ text ++ resetColour else text

/-- A text that takes up whole lines. -/
structure Block where
  /-- What the text is for. -/
  role : Role
  /-- The text, without the line feed at its end. -/
  text : String
  deriving DecidableEq, Repr

/-- A block as it is written, with the line feed at its end. -/
def Block.write (coloured : Bool) (b : Block) : String := paint coloured b.role b.text ++ "\n"

end Reckoner
