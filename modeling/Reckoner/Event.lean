import Reckoner.Grammar.ParseError
import Reckoner.Node

/-!
# Events

What is written to the log while a line is read and evaluated: each node before it is
evaluated, each binding after it is made, and what could not be read.

## Main definitions

* `Event` — an entry of the log.
* `Event.level`, `Event.message`, `Event.fields` — how an entry is shown.
-/

namespace Reckoner

/-- An entry of the log. -/
inductive Event where
  /-- The evaluation of a node begins. -/
  | evaluate (shape : Shape)
  /-- A new name has been bound. -/
  | declare (name : String) (value : Float)
  /-- A name has been given a new value. -/
  | assign (name : String) (value : Float)
  /-- A line, or the rest of one, could not be read. -/
  | unreadable (error : ParseError)
  deriving Repr

/-- How much attention an entry of the log asks for. -/
inductive Level where
  /-- None, unless every step is of interest. -/
  | trace
  /-- None, unless something is looked for. -/
  | debug
  /-- That of the user. -/
  | warn
  deriving DecidableEq, Repr

/-- The name of a level. -/
def Level.name : Level → String
  | trace => "TRACE"
  | debug => "DEBUG"
  | warn => "WARN"

namespace Event

/-- How much attention an event asks for. -/
def level : Event → Level
  | evaluate _ => .trace
  | declare .. | assign .. => .debug
  | unreadable _ => .warn

/-- What has happened. -/
def message : Event → String
  | evaluate _ => "evaluate"
  | declare .. => "declare"
  | assign .. => "assign"
  | unreadable e => e.message

/-- The particulars, each with its name. -/
def fields : Event → List (String × String)
  | evaluate shape => [("kind", shape.name)]
  | declare name value | assign name value =>
    [("name", name), ("value", Decimal.Layout.plain.write value)]
  | unreadable e => [("line", toString e.location.line), ("column", toString e.location.column)]

end Event

end Reckoner
