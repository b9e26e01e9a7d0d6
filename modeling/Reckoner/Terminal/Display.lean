import Reckoner.Node.Outline
import Reckoner.Session
import Reckoner.Terminal.Duration
import Reckoner.Terminal.Style

/-!
# Displaying outcomes

What is shown for a statement: its tree and the time it took to read, if they are asked for, and
then its value or what is wrong with it.

## Main definitions

* `Display` — what is shown, and whether in colour.
* `Outcome.blocks` — the blocks shown for an outcome.
* `Outcome.render`, `Display.banner`, `Display.prompt` — what is written.
-/

namespace Reckoner

/-- What is shown, and whether in colour. -/
structure Display where
  /-- Whether the tree of every statement is shown. -/
  tree : Bool
  /-- Whether the time that reading took is shown. -/
  timing : Bool
  /-- Whether there are colours. -/
  coloured : Bool
  deriving DecidableEq, Repr

namespace Outcome

/-- The block that shows what a statement came to. -/
def resultBlock : Except EvalError Float → Block
  | .ok value => ⟨.value, Decimal.Layout.plain.write value⟩
  | .error e => ⟨.error, "Error: " ++ e.message⟩

/-- The blocks shown for an outcome whose reading took `parseTime` nanoseconds. -/
def blocks (display : Display) (parseTime : Nat) : Outcome → List Block
  | evaluated statement result =>
    let tree := if display.tree then [⟨.detail, statement.dump⟩] else []
    let timing :=
      if display.timing then [⟨.detail, "Parsed input in " ++ Duration.write parseTime⟩] else []
    tree ++ timing ++ [resultBlock result]
  | syntaxError e =>
    [⟨.warning, "Invalid syntax, no abstract syntax tree generated: " ++ e.describe⟩]

/-- What is written for an outcome whose reading took `parseTime` nanoseconds. -/
def render (display : Display) (parseTime : Nat) (outcome : Outcome) : String :=
  String.join ((outcome.blocks display parseTime).map (Block.write display.coloured))

end Outcome

namespace Display

/-- What is written once at the beginning. -/
def banner (display : Display) : String :=
  Block.write display.coloured
    ⟨.info, "kaleido - enter statements to evaluate (Ctrl+D to exit)"⟩

/-- What invites to enter a line. -/
def prompt (display : Display) : String := paint display.coloured .prompt "> "

end Display

end Reckoner
