import Reckoner.CommandLine

/-!
# The program

The outer layer: it reads lines, measures the time that reading them takes, and writes what the
library says is to be written.
-/

namespace Reckoner

/-- Writes a text at once. -/
def put (text : String) : IO Unit := do
  let out ← IO.getStdout
  out.putStr text
  out.flush

/-- Reads and evaluates a line, and gives the time that reading took, in nanoseconds, with what
the line has done. -/
def timedRun (session : Session) (line : String) : IO (Nat × Session.Report) := do
  let start ← IO.monoNanosNow
  let script ← IO.lazyPure fun _ => Script.ofString line
  let stop ← IO.monoNanosNow
  return (stop - start, session.runScript script)

/-- Answers lines until there are no more. -/
partial def converse (display : Display) (session : Session) : IO Unit := do
  let line ← (← IO.getStdin).getLine
  if line.isEmpty then
    put Dialogue.closing
  else
    let (parseTime, report) ← timedRun session line
    put (Dialogue.reply display parseTime report.outcomes)
    converse display report.session

end Reckoner

/-- Runs the program. -/
def main (arguments : List String) : IO UInt32 := do
  match Reckoner.Command.ofArguments arguments with
  | .evaluate display line =>
    let (parseTime, report) ← Reckoner.timedRun .empty line
    Reckoner.put (Reckoner.Dialogue.answer display parseTime report.outcomes)
    return 0
  | .converse display =>
    Reckoner.put (Reckoner.Dialogue.opening display)
    Reckoner.converse display .empty
    return 0
  | command =>
    let reply := command.run ""
    Reckoner.put reply.output
    return reply.code.toUInt32
