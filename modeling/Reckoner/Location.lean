/-!
# Locations

A location is the line and the column of a character in a text, both counted from one.  A
column is one character wide whatever the character, and a line feed alone begins a new line.

## Main definitions

* `Location` — a line and a column.
* `Location.after c` — the location of what follows a character.
* `Location.advance cs` — the location of what follows a run of characters.

## Main results

* `Location.advance_append` — a run of characters may be walked over in parts.
-/

namespace Reckoner

/-- A place in a text. -/
structure Location where
  /-- The number of the line, from one. -/
  line : Nat
  /-- The number of the character in its line, from one. -/
  column : Nat
  deriving DecidableEq, Repr, Inhabited

namespace Location

/-- The location of the first character of a text. -/
def start : Location := ⟨1, 1⟩

/-- The location of what follows the character `c`: a line feed begins a new line, and any
other character takes up one column. -/
def after (l : Location) (c : Char) : Location :=
  if c = '\n' then ⟨l.line + 1, 1⟩ else ⟨l.line, l.column + 1⟩

/-- The location of what follows the characters `cs`. -/
def advance (l : Location) (cs : List Char) : Location := cs.foldl after l

/-- How a location is named in a message. -/
def describe (l : Location) : String := s!"line {l.line}, column {l.column}"

@[simp] theorem advance_nil (l : Location) : l.advance [] = l := rfl

@[simp] theorem advance_cons (l : Location) (c : Char) (cs : List Char) :
    l.advance (c :: cs) = (l.after c).advance cs := rfl

/-- A run of characters may be walked over in parts. -/
@[simp] theorem advance_append (l : Location) (cs ds : List Char) :
    l.advance (cs ++ ds) = (l.advance cs).advance ds := List.foldl_append

end Location

end Reckoner
