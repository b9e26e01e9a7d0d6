import Reckoner.Grammar.Statement
import Reckoner.Source

/-!
# Scripts

What a line says: its statements up to the first that cannot be read, and why that one cannot.
A line with a malformed number literal says nothing at all.

## Main definitions

* `Script` — statements, and what stopped the reading.
* `Script.read` — the script at the front of a token stream, and what is left.
* `Script.ofString` — the script that a line is.
* `Script.toExcept` — the statements, if all could be read.

## Main results

* `Script.read_of_atEnd` — the end of the input is an empty script.
-/

namespace Reckoner

/-- Statements, and what stopped the reading, if anything did. -/
structure Script where
  /-- The statements that were read. -/
  statements : List Node
  /-- Why there are not more of them; nothing, if the end of the input was reached. -/
  failure : Option ParseError
  deriving Repr

namespace Script

/-- The script without statements and without a failure. -/
def empty : Script := ⟨[], none⟩

/-- The script that ends in a failure at once. -/
def failed (e : ParseError) : Script := ⟨[], some e⟩

/-- The script with one more statement in front. -/
def cons (node : Node) (script : Script) : Script :=
  ⟨node :: script.statements, script.failure⟩

/-- The statements, if all could be read, and else what stopped the reading. -/
def toExcept (script : Script) : Except ParseError (List Node) :=
  match script.failure with
  | none => .ok script.statements
  | some e => .error e

/-- Reads at most `bound` statements, and gives what is left behind them.  As many statements as
there are tokens are always enough, because a statement has at least one token. -/
def readUpTo : Nat → TokenStream → Script × TokenStream
  | 0, s => (empty, s)
  | bound + 1, s =>
    if s.atEnd then (empty, s)
    else
      match Grammar.statement s with
      | .ok node rest =>
        let (script, rest) := readUpTo bound rest
        (cons node script, rest)
      | .error e rest => (failed e, rest)

/-- The script at the front of a token stream, and what is left: nothing, unless a statement
could not be read. -/
def read (s : TokenStream) : Script × TokenStream := readUpTo s.length s

/-- The script that a line is. -/
def ofString (line : String) : Script :=
  match (Source.ofString line).tokenize with
  | .ok s => (read s).1
  | .error e => failed (.malformedNumber e)

/-- The end of the input is an empty script. -/
theorem read_of_atEnd {s : TokenStream} (h : s.atEnd = true) : read s = (empty, s) := by
  cases hlen : s.length with
  | zero => simp [read, hlen, readUpTo]
  | succ n => simp [read, hlen, readUpTo, h]

/-- A line with tokens is the script that they are. -/
theorem ofString_of_tokenize {line : String} {s : TokenStream}
    (h : (Source.ofString line).tokenize = .ok s) : ofString line = (read s).1 := by
  rw [ofString, h]

end Script

end Reckoner
