import Reckoner.Terminal.Display
import Reckoner.Text.Lines

/-!
# The command line

The arguments say what is to be shown and, if there is a text among them that is no flag, which
line is to be evaluated.  Without such a line the program asks for lines until the input ends.

Arguments are taken from left to right, and the first that settles the matter does: a request
for the version or for help is granted, and an argument that makes no sense is refused, whatever
stands behind it.

## Main definitions

* `Argument` — what a single argument asks for.
* `Command`, `Command.ofArguments` — what all arguments together ask for.
* `Dialogue.opening`, `Dialogue.reply`, `Dialogue.closing` — the parts of a dialogue.
* `Command.run` — all that is written, given all that is entered.
-/

namespace Reckoner

/-- What a single argument asks for. -/
inductive Argument where
  /-- The tree of every statement is to be shown. -/
  | showTree
  /-- The time that reading took is to be shown. -/
  | showTiming
  /-- There are to be no colours. -/
  | noColours
  /-- The version of the program. -/
  | version
  /-- A description of the arguments. -/
  | help
  /-- No argument behind this one is a flag. -/
  | endOfFlags
  /-- A line to evaluate. -/
  | line (text : String)
  /-- Nothing that the program knows. -/
  | unknown
  deriving DecidableEq, Repr

namespace Argument

/-- What an argument asks for whose first two characters are hyphens. -/
def ofLongName (name : String) : Argument :=
  if name = "" then endOfFlags
  else if name = "show-ast" then showTree
  else if name = "debug-info" then showTiming
  else if name = "no-color" then noColours
  else if name = "version" then version
  else if name = "help" then help
  else unknown

/-- What an argument asks for.  A hyphen alone is no flag, and of several short flags behind one
hyphen the first decides. -/
def ofString (argument : String) : Argument :=
  match argument.toList with
  | '-' :: '-' :: name => ofLongName (String.ofList name)
  | '-' :: 'V' :: _ => version
  | '-' :: 'h' :: _ => help
  | '-' :: _ :: _ => unknown
  | _ => line argument

end Argument

/-- What all arguments together ask for. -/
inductive Command where
  /-- A line is to be evaluated. -/
  | evaluate (display : Display) (line : String)
  /-- Lines are to be asked for. -/
  | converse (display : Display)
  /-- The version is to be shown. -/
  | version
  /-- The arguments are to be described. -/
  | help
  /-- The arguments make no sense. -/
  | misuse
  deriving DecidableEq, Repr

/-- What the arguments so far ask for. -/
structure Request where
  /-- What is to be shown. -/
  display : Display
  /-- The line to evaluate, if there is one. -/
  line : Option String
  deriving DecidableEq, Repr

namespace Request

/-- Without arguments nothing but values is shown, in colour. -/
def default : Request := ⟨⟨false, false, true⟩, none⟩

/-- The command that a request amounts to. -/
def command (r : Request) : Command :=
  match r.line with
  | some line => .evaluate r.display line
  | none => .converse r.display

/-- The request with a line to evaluate, unless it has one. -/
def addLine (r : Request) (line : String) : Option Request :=
  match r.line with
  | some _ => none
  | none => some { r with line := some line }

/-- Takes in the arguments behind the end of the flags, each of which is a line. -/
def takeLines (r : Request) : List String → Command
  | [] => r.command
  | argument :: arguments =>
    match r.addLine argument with
    | some r => r.takeLines arguments
    | none => .misuse

/-- Takes in arguments, from left to right.  No flag may be given twice. -/
def take (r : Request) : List String → Command
  | [] => r.command
  | argument :: arguments =>
    match Argument.ofString argument with
    | .showTree =>
      if r.display.tree then .misuse
      else take { r with display := { r.display with tree := true } } arguments
    | .showTiming =>
      if r.display.timing then .misuse
      else take { r with display := { r.display with timing := true } } arguments
    | .noColours =>
      if r.display.coloured then
        take { r with display := { r.display with coloured := false } } arguments
      else .misuse
    | .version => .version
    | .help => .help
    | .endOfFlags => r.takeLines arguments
    | .line text =>
      match r.addLine text with
      | some r => take r arguments
      | none => .misuse
    | .unknown => .misuse

end Request

/-- What the arguments ask for. -/
def Command.ofArguments (arguments : List String) : Command := Request.default.take arguments

/-! ### Dialogues -/

namespace Dialogue

/-- What is written before the first line is entered. -/
def opening (display : Display) : String := display.banner ++ display.prompt

/-- What is written for the outcomes of a line whose reading took `parseTime` nanoseconds. -/
def answer (display : Display) (parseTime : Nat) (outcomes : List Outcome) : String :=
  String.join (outcomes.map (Outcome.render display parseTime))

/-- What is written after a line has been entered, and before the next one is. -/
def reply (display : Display) (parseTime : Nat) (outcomes : List Outcome) : String :=
  answer display parseTime outcomes ++ display.prompt

/-- What is written after the last line. -/
def closing : String := "\n"

/-- What is written while lines are entered; no time is spent on reading them. -/
def replies (display : Display) (lines : List String) (session : Session) : String :=
  String.join ((session.enterAll lines).map fun report => reply display 0 report.outcomes)

@[simp] theorem replies_nil (display : Display) (session : Session) :
    replies display [] session = "" := rfl

/-- A line is replied to before the next one is entered. -/
@[simp] theorem replies_cons (display : Display) (line : String) (lines : List String)
    (session : Session) : replies display (line :: lines) session =
      reply display 0 (session.enter line).outcomes ++
        replies display lines (session.enter line).session := String.join_cons

/-- All that is written in a dialogue in which the text `input` is entered. -/
def transcript (display : Display) (input : String) : String :=
  let lines := (Text.lines input.toList).map String.ofList
  opening display ++ replies display lines .empty ++ closing

end Dialogue

/-! ### Running a command -/

/-- What is left of a run of the program. -/
structure Reply where
  /-- All that was written. -/
  output : String
  /-- The exit code. -/
  code : Nat
  deriving DecidableEq, Repr

namespace Command

/-- The version of the program. -/
def versionText : String := "kaleido 0.1.0\n"

/-- The description of the arguments. -/
def helpText : String :=
  "Interactive expression evaluator\n\n" ++
  "Usage: kaleido [OPTIONS] [EXPRESSION]\n\n" ++
  "Arguments:\n" ++
  "  [EXPRESSION]  Evaluate this line and exit instead of starting the REPL\n\n" ++
  "Options:\n" ++
  "      --show-ast    Print the parsed syntax tree before each result\n" ++
  "      --debug-info  Print parse timing for each statement\n" ++
  "      --no-color    Disable colored output\n" ++
  "  -h, --help        Print help\n" ++
  "  -V, --version     Print version\n"

/-- The exit code of a misuse. -/
def misuseCode : Nat := 2

/-- What a command leaves behind if the text `input` is entered; no time is spent on reading. -/
def run (input : String) : Command → Reply
  | evaluate display line =>
    ⟨Dialogue.answer display 0 (Session.empty.enter line).outcomes, 0⟩
  | converse display => ⟨Dialogue.transcript display input, 0⟩
  | version => ⟨versionText, 0⟩
  | help => ⟨helpText, 0⟩
  | misuse => ⟨"", misuseCode⟩

end Command

end Reckoner
