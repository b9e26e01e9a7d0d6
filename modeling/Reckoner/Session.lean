import Reckoner.Evaluation.Evaluate
import Reckoner.Grammar.Script

/-!
# Sessions

A session reads lines and keeps what they declare.  Every statement of a line is evaluated in
the environment that the statements before it left; a statement that has no value does not keep
the others from being evaluated.  If a part of the line cannot be read, the statements in front
of it are evaluated all the same, and the failure comes last.

## Main definitions

* `Outcome` — what became of a statement.
* `Session` — what is kept from line to line.
* `Session.enter` — what a line does to a session.
-/

namespace Reckoner

/-- What became of a statement. -/
inductive Outcome where
  /-- The statement was read and evaluated. -/
  | evaluated (statement : Node) (result : Except EvalError Float)
  /-- The statement could not be read, and nothing behind it was looked at. -/
  | syntaxError (error : ParseError)

/-- What is kept from line to line. -/
structure Session where
  /-- The names declared so far. -/
  environment : Environment

namespace Session

/-- The session in which nothing has been declared. -/
def empty : Session := ⟨.empty⟩

/-- What a line has done. -/
structure Report where
  /-- What became of each statement. -/
  outcomes : List Outcome
  /-- What was logged. -/
  events : List Event
  /-- The session after the line. -/
  session : Session

/-- Evaluates statements one after the other. -/
def runStatements : List Node → Session → Report
  | [], session => ⟨[], [], session⟩
  | node :: nodes, session =>
    let result := evaluate node session.environment
    let report := runStatements nodes ⟨result.environment⟩
    ⟨.evaluated node result.outcome :: report.outcomes, result.events ++ report.events,
      report.session⟩

/-- Evaluates a script: its statements, and then the failure that stopped its reading. -/
def runScript (session : Session) (script : Script) : Report :=
  let report := runStatements script.statements session
  match script.failure with
  | none => report
  | some e =>
    { report with
      outcomes := report.outcomes ++ [.syntaxError e]
      events := report.events ++ [.unreadable e] }

/-- Reads and evaluates a line. -/
def enter (session : Session) (line : String) : Report :=
  session.runScript (.ofString line)

/-- Reads and evaluates lines, one after the other, and reports on each. -/
def enterAll : List String → Session → List Report
  | [], _ => []
  | line :: lines, session =>
    let report := session.enter line
    report :: enterAll lines report.session

end Session

end Reckoner
