import Reckoner.Text.DefaultIgnorable
import Reckoner.Text.GraphemeExtend
import Reckoner.Text.Printable

/-!
# Quoted text

A text in a dump stands between double quotes, with every character escaped that would end the
quotation, break the line or not show: the quote and the backslash, the controls that have a
letter of their own, and any other character that is unprintable, that a display may leave out,
or that would attach itself to its neighbour.

## Main definitions

* `showsAlone c` — whether a character can be read wherever it stands.
* `escape c` — the form of a character between quotes.
* `quote s` — a text between quotes.
-/

namespace Reckoner.Text

/-- The voiced and the semi-voiced sound mark of the halfwidth kana.  They extend the letter
before them by property, but are written in a cell of their own. -/
def isHalfwidthSoundMark (c : Char) : Bool := c = '\uff9e' || c = '\uff9f'

/-- Whether a character can be read wherever it stands: it leaves a mark, no display may leave
it out, and it does not merge with the character before it. -/
def showsAlone (c : Char) : Bool :=
  isPrintable c && !isDefaultIgnorable c && (!isGraphemeExtend c || isHalfwidthSoundMark c)

/-- The escape that names a character by the hexadecimal digits of its code point. -/
def codePointEscape (c : Char) : List Char :=
  ['\\', 'u', '\x7b'] ++ Nat.toDigits 16 c.toNat ++ ['\x7d']

/-- The form of a character between quotes. -/
def escape (c : Char) : List Char :=
  if c = '\x00' then ['\\', '0']
  else if c = '\t' then ['\\', 't']
  else if c = '\n' then ['\\', 'n']
  else if c = '\r' then ['\\', 'r']
  else if c = '"' ∨ c = '\\' then ['\\', c]
  else if showsAlone c then [c]
  else codePointEscape c

/-- The inside of a quotation. -/
def escapeAll (cs : List Char) : List Char := cs.flatMap escape

/-- A text between quotes. -/
def quote (s : String) : String := String.ofList ('"' :: (escapeAll s.toList ++ ['"']))

@[simp] theorem escapeAll_nil : escapeAll [] = [] := rfl

@[simp] theorem escapeAll_cons (c : Char) (cs : List Char) :
    escapeAll (c :: cs) = escape c ++ escapeAll cs := rfl

end Reckoner.Text
