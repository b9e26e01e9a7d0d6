import Reckoner.Grammar.Script
import Reckoner.TokenTape

/-!
# Line readers

A token tape that is read statement by statement, with a record of what could not be read.  A
statement may be read for its own sake, which reports a failure and leaves the tape at it, or be
handled, which records the failure and gives up the rest of the line.

## Main definitions

* `LineReader` — a token tape and the failures recorded so far.
* `LineReader.readStatement`, `LineReader.readAll` — reading one statement, or all.
* `LineReader.handle` — reading one statement and recording its failure.
* `LineReader.lastFailure` — the failure recorded last.

## Main results

* `LineReader.ofString?_of_tokenize` — the reader of a text has its tokens in front of it.
* `LineReader.readStatement_of_ok`, `LineReader.readStatement_of_error` — what reading a statement
  does.
-/

namespace Reckoner

/-- A token tape and the failures recorded while reading it. -/
structure LineReader where
  /-- The line and how far it has been read. -/
  tape : TokenTape
  /-- The failures, the oldest first. -/
  failures : List ParseError

namespace LineReader

/-- A reader that has not met a failure yet. -/
def ofTape (tape : TokenTape) : LineReader := ⟨tape, []⟩

/-- The reader of a text, unless a literal of the text is malformed. -/
def ofString? (text : String) : Except ParseError LineReader :=
  match TokenTape.ofString? text with
  | .ok tape => .ok (ofTape tape)
  | .error e => .error (.malformedNumber e)

/-- Whether only the end of the input is left. -/
def atEnd (r : LineReader) : Bool := r.tape.atEnd

/-- The failure recorded last. -/
def lastFailure (r : LineReader) : Option ParseError := r.failures.getLast?

/-- The reader moved to where the stream `s`, a rest of the line, begins. -/
def seek (r : LineReader) (s : TokenStream) : LineReader := ⟨r.tape.seek s, r.failures⟩

/-- Reads one statement.  After a failure the token that is to blame is the next one. -/
def readStatement (r : LineReader) : Except ParseError Node × LineReader :=
  match Grammar.statement r.tape.unread with
  | .ok node s => (.ok node, r.seek s)
  | .error e s => (.error e, r.seek s)

/-- Reads all statements that are left, up to the first failure. -/
def readAll (r : LineReader) : Except ParseError (List Node) × LineReader :=
  let (script, s) := Script.read r.tape.unread
  (script.toExcept, r.seek s)

/-- Reads one statement.  A failure is recorded, and the rest of the line is given up. -/
def handle (r : LineReader) : Option Node × LineReader :=
  match r.readStatement with
  | (.ok node, after) => (some node, after)
  | (.error e, after) => (none, ⟨after.tape.discardRest, after.failures ++ [e]⟩)

/-! ### What a reader does -/

/-- The reader of a text without malformed literals has the tokens of the text in front of it. -/
theorem ofString?_of_tokenize {text : String} {s : TokenStream}
    (h : (Source.ofString text).tokenize = .ok s) : ofString? text = .ok (ofTape (.ofStream s)) := by
  simp [ofString?, TokenTape.ofString?, h, Except.map]

/-- A text with a malformed literal has no reader. -/
theorem ofString?_of_malformed {text : String} {e : MalformedNumber}
    (h : (Source.ofString text).tokenize = .error e) :
    ofString? text = .error (.malformedNumber e) := by
  simp [ofString?, TokenTape.ofString?, h, Except.map]

theorem readStatement_of_ok {r : LineReader} {node : Node} {s : TokenStream}
    (h : Grammar.statement r.tape.unread = .ok node s) :
    r.readStatement = (.ok node, r.seek s) := by
  simp [readStatement, h]

theorem readStatement_of_error {r : LineReader} {e : ParseError} {s : TokenStream}
    (h : Grammar.statement r.tape.unread = .error e s) :
    r.readStatement = (.error e, r.seek s) := by
  simp [readStatement, h]

end LineReader

end Reckoner
