import Reckoner.Source

/-!
# Token tapes

A line of tokens that is kept whole while it is read, and the position it has been read up to.
The position stops at the end of the input: reading there gives the end again and moves nothing.

## Main definitions

* `TokenTape` — a token stream and the number of its tokens that have been read.
* `TokenTape.ofString?`, `TokenTape.ofEntries` — the tape of a text, and that of a list of entries.
* `TokenTape.unread` — what is left to read.
* `TokenTape.read`, `TokenTape.peek`, `TokenTape.discardRest` — moving and looking.
* `TokenTape.seek` — moving to where a rest of the line begins.

## Main results

* `TokenTape.unread_seek` — seeking a rest of what was left leaves that rest.
* `TokenTape.position_read` — reading moves on by one, but not beyond the end.
* `TokenTape.position_seek` — seeking moves on by the tokens that are gone past.
* `TokenTape.peek_eq` — what can be seen behind the position are the entries that are left.
-/

namespace Reckoner

/-- The stream that a list of entries makes.  Entries behind the first end are cut off; if there
is no end, one is put where the last token is, or at the location given if there is no token. -/
def TokenStream.ofEntries : List Entry → Location → TokenStream
  | [], l => ⟨[], l⟩
  | .endOfInput l :: _, _ => ⟨[], l⟩
  | .token t :: es, _ => (ofEntries es t.location).cons t

/-- A line of tokens and the position it has been read up to. -/
structure TokenTape where
  /-- The whole line. -/
  line : TokenStream
  /-- The number of tokens that have been read. -/
  position : Nat
  /-- The position does not go beyond the end. -/
  position_le : position ≤ line.length

namespace TokenTape

/-- A tape of which nothing has been read. -/
def ofStream (line : TokenStream) : TokenTape := ⟨line, 0, Nat.zero_le _⟩

/-- The tape of a text, unless a literal of the text is malformed. -/
def ofString? (text : String) : Except MalformedNumber TokenTape :=
  (Source.ofString text).tokenize.map ofStream

/-- The tape of a list of entries. -/
def ofEntries (es : List Entry) : TokenTape := ofStream (.ofEntries es .start)

/-- What is left to read. -/
def unread (tape : TokenTape) : TokenStream := ⟨tape.line.tokens.drop tape.position, tape.line.stop⟩

/-- The entry at the position. -/
def current (tape : TokenTape) : Entry := tape.unread.head

/-- Whether the end has been reached. -/
def atEnd (tape : TokenTape) : Bool := tape.unread.atEnd

/-- The number of entries, the end among them. -/
def size (tape : TokenTape) : Nat := tape.line.length + 1

/-- The entry `k` places behind the position, if the line reaches so far. -/
def peek (tape : TokenTape) (k : Nat) : Option Entry := tape.line.entries[tape.position + k]?

/-- Moves to where the stream `s`, a rest of the line, begins. -/
def seek (tape : TokenTape) (s : TokenStream) : TokenTape :=
  ⟨tape.line, tape.line.length - s.length, Nat.sub_le _ _⟩

/-- The entry at the position, and the tape moved on behind it. -/
def read (tape : TokenTape) : Entry × TokenTape := (tape.current, tape.seek tape.unread.tail)

/-- The tape after `n` entries have been read. -/
def skip (tape : TokenTape) : Nat → TokenTape
  | 0 => tape
  | n + 1 => tape.read.2.skip n

/-- Moves to the end. -/
def discardRest (tape : TokenTape) : TokenTape := ⟨tape.line, tape.line.length, Nat.le_refl _⟩

/-! ### The position and what is left -/

@[simp] theorem unread_ofStream (s : TokenStream) : (ofStream s).unread = s := rfl

/-- What is left and what has been read add up to the line. -/
theorem length_unread (tape : TokenTape) :
    tape.unread.length + tape.position = tape.line.length := by
  have := tape.position_le
  simp only [unread, TokenStream.length, List.length_drop] at this ⊢
  omega

@[simp] theorem line_seek (tape : TokenTape) (s : TokenStream) :
    (tape.seek s).line = tape.line := rfl

@[simp] theorem line_read (tape : TokenTape) : tape.read.2.line = tape.line := rfl

@[simp] theorem line_discardRest (tape : TokenTape) : tape.discardRest.line = tape.line := rfl

/-- Seeking moves on by the tokens that stand in front of what is sought. -/
theorem position_seek {tape : TokenTape} {s : TokenStream} {ts : List Token}
    (h : tape.unread.tokens = ts ++ s.tokens) :
    (tape.seek s).position = tape.position + ts.length := by
  have hline := tape.length_unread
  have hlength := congrArg List.length h
  rw [List.length_append] at hlength
  simp only [seek, TokenStream.length] at hline ⊢
  omega

/-- Reading moves on by one, but not beyond the end. -/
theorem position_read (tape : TokenTape) :
    tape.read.2.position = min (tape.position + 1) tape.line.length := by
  have := tape.length_unread
  simp only [read, seek, TokenStream.length_tail]
  omega

/-- What is left is a rest of the line. -/
theorem isRestOf_unread (tape : TokenTape) : tape.unread.IsRestOf tape.line :=
  ⟨rfl, List.drop_suffix _ _⟩

/-- Seeking a rest of what was left leaves that rest. -/
theorem unread_seek {tape : TokenTape} {s : TokenStream} (h : s.IsRestOf tape.unread) :
    (tape.seek s).unread = s := (h.trans tape.isRestOf_unread).eq_drop.symm

/-- What comes next is what comes next in the rest that was sought. -/
theorem current_seek {tape : TokenTape} {s : TokenStream} (h : s.IsRestOf tape.unread) :
    (tape.seek s).current = s.head := congrArg TokenStream.head (unread_seek h)

/-- The end is reached by seeking a rest without a token. -/
theorem atEnd_seek {tape : TokenTape} {s : TokenStream} (h : s.IsRestOf tape.unread) :
    (tape.seek s).atEnd = s.atEnd := congrArg TokenStream.atEnd (unread_seek h)

/-- Nothing is left after the rest has been discarded. -/
@[simp] theorem atEnd_discardRest (tape : TokenTape) : tape.discardRest.atEnd = true := by
  simp [discardRest, atEnd, unread, TokenStream.atEnd, TokenStream.length]

/-- What can be seen behind the position are the entries that are left. -/
theorem peek_eq (tape : TokenTape) (k : Nat) : tape.peek k = tape.unread.entries[k]? := by
  have h : tape.position ≤ (tape.line.tokens.map Entry.token).length := by
    rw [List.length_map]
    exact tape.position_le
  rw [peek, ← List.getElem?_drop, TokenStream.entries, List.drop_append_of_le_length h,
    ← List.map_drop]
  rfl

/-- The entry no places behind the position is the current one. -/
theorem peek_zero (tape : TokenTape) : tape.peek 0 = some tape.current := by
  rw [peek_eq, TokenStream.getElem?_entries_zero, current]

end TokenTape

end Reckoner
