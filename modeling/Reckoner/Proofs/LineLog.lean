import Reckoner.Proofs.JoinedLines
import Reckoner.Proofs.LineMeaning

/-!
# The log of a line

A line is read and evaluated in turns, and both write to one log.  What is noted where a statement
is evaluated, and what is noted where one cannot be read, come from different places, and so does
what is noted of a line that has no tokens.  All the same the log tells exactly what became of the
line: the evaluations of its statements in order, and then its failure, if there is one, as the only
warning.

Turn by turn the log goes with the outcomes: a statement that has been read adds its evaluation to
both, and what cannot be read adds its failure to both, and is the last thing that happens.

## Main definitions

* `Evaluation.IsQuiet` — that an evaluation warns of nothing.
* `Progress`, `Progress.run` — what there is in the middle of a line, and what a turn does to it.
* `Session.enterLogging` — reading and evaluating a line in turns, with everything noted in the
  place where the log is written.

## Main results

* `evaluate_isQuiet` — evaluation warns of nothing, whatever it comes to.
* `Progress.run_report` — turn by turn a line comes to what its script comes to.
* `Session.enter_log` — **the log of a line tells exactly what became of it.**
-/

namespace Reckoner

/-! ### What evaluation logs -/

/-- Whether an event is a warning. -/
def Event.isWarning (event : Event) : Bool := event.level = .warn

namespace Evaluation

variable {α β : Type}

/-- An evaluation warns of nothing. -/
def IsQuiet (x : Evaluation α) : Prop :=
  ∀ env, ∀ event ∈ (x env).events, event.isWarning = false

/-- A step that logs nothing warns of nothing. -/
theorem IsQuiet.of_silent {x : Evaluation α} (h : ∀ env, (x env).events = []) : IsQuiet x := by
  intro env event hevent
  rw [h env] at hevent
  cases hevent

theorem IsQuiet.bind {x : Evaluation α} {f : α → Evaluation β} (h : IsQuiet x)
    (hnext : ∀ a, IsQuiet (f a)) : IsQuiet (x >>= f) := by
  intro env event hevent
  have hx := h env
  rcases hrun : x env with ⟨_ | a, between, events⟩
  · rw [hrun] at hx
    rw [bind_apply_of_error hrun] at hevent
    exact hx event hevent
  · rw [hrun] at hx
    rw [bind_apply_of_ok hrun] at hevent
    rcases List.mem_append.1 hevent with hfront | hbehind
    · exact hx event hfront
    · exact hnext a between event hbehind

theorem isQuiet_log {event : Event} (h : event.level ≠ .warn) : IsQuiet (log event) := by
  intro env found hfound
  obtain rfl : found = event := List.mem_singleton.1 hfound
  exact decide_eq_false h

end Evaluation

open Evaluation

/-- Evaluation warns of nothing, whatever it comes to. -/
theorem evaluate_isQuiet (node : Node) : IsQuiet (evaluate node) :=
  evaluate_of_goesWithSteps
    { pure := fun _ => .of_silent fun _ => rfl
      bind := .bind
      log := fun _ => isQuiet_log
      fail := fun _ => .of_silent fun _ => rfl
      lookup? := fun _ => .of_silent fun _ => rfl
      isDeclared := fun _ => .of_silent fun _ => rfl
      set := fun _ _ => .of_silent fun _ => rfl } node

/-! ### A line turn by turn -/

/-- What there is in the middle of a line. -/
structure Progress where
  /-- What is left of the line. -/
  reader : LineReader
  /-- The session as it is now. -/
  session : Session
  /-- What became of the statements so far. -/
  outcomes : List Outcome
  /-- What has been logged so far. -/
  log : List Event

namespace Progress

/-- What has been done so far. -/
def report (p : Progress) : Session.Report := ⟨p.outcomes, p.log, p.session⟩

/-- Reads one statement.  A failure is logged and recorded, and the rest of the line is given up. -/
def handle (p : Progress) : Option Node × Progress :=
  match p.reader.readStatement with
  | (.ok node, after) => (some node, { p with reader := after })
  | (.error e, after) =>
    (none, { p with
      reader := ⟨after.tape.discardRest, after.failures ++ [e]⟩
      log := p.log ++ [.unreadable e] })

/-- Evaluates a statement, which logs what it does. -/
def evaluate (p : Progress) (node : Node) : Progress :=
  let result := Reckoner.evaluate node p.session.environment
  { p with
    session := ⟨result.environment⟩
    outcomes := p.outcomes ++ [.evaluated node result.outcome]
    log := p.log ++ result.events }

/-- Adds the failure that was recorded last to the outcomes. -/
def giveUp (p : Progress) : Progress :=
  { p with outcomes := p.outcomes ++ p.reader.lastFailure.toList.map .syntaxError }

/-- Reads a statement, evaluates it and goes on, until the end of the line is reached or a statement
cannot be read. -/
def run : Nat → Progress → Progress
  | 0, p => p
  | bound + 1, p =>
    if p.reader.atEnd then p
    else
      match p.handle with
      | (some node, after) => run bound (after.evaluate node)
      | (none, after) => after.giveUp

variable {p : Progress} {node : Node} {e : ParseError} {rest : TokenStream}

theorem handle_of_ok (h : Grammar.statement p.reader.tape.unread = .ok node rest) :
    p.handle = (some node, { p with reader := p.reader.seek rest }) := by
  rw [handle, LineReader.readStatement_of_ok h]

/-- What is logged is the failure that is recorded last. -/
theorem handle_of_error (h : Grammar.statement p.reader.tape.unread = .error e rest) :
    ∃ after : Progress, p.handle = (none, after) ∧
      after.giveUp.report =
        ⟨p.outcomes ++ [.syntaxError e], p.log ++ [.unreadable e], p.session⟩ := by
  rw [handle, LineReader.readStatement_of_error h]
  refine ⟨_, rfl, ?_⟩
  rw [giveUp, LineReader.lastFailure, List.getLast?_concat]
  rfl

/-- **Turn by turn a line comes to what its script comes to**, and the log goes with it. -/
theorem run_report {bound : Nat} (h : p.reader.tape.unread.length ≤ bound) :
    (run bound p).report =
      p.report.append (p.session.runScript (Script.read p.reader.tape.unread).1) := by
  induction bound generalizing p with
  | zero =>
    have hempty : p.reader.tape.unread.atEnd = true :=
      List.isEmpty_iff.2 (List.eq_nil_of_length_eq_zero (Nat.le_zero.1 h))
    rw [Session.runScript_read_of_atEnd p.session hempty]
    simp [run, report, Session.Report.append]
  | succ bound ih =>
    by_cases hend : p.reader.atEnd = true
    · have hempty : p.reader.tape.unread.atEnd = true := hend
      rw [Session.runScript_read_of_atEnd p.session hempty, run, if_pos hend]
      simp [report, Session.Report.append]
    have hmore : ¬ p.reader.tape.unread.atEnd = true := hend
    rw [run, if_neg hend, Script.read_eq, if_neg hmore]
    cases hstatement : Grammar.statement p.reader.tape.unread with
    | ok node rest =>
      have hlt := Grammar.statement_progressive hstatement
      have hrest : (p.reader.seek rest).tape.unread = rest :=
        TokenTape.unread_seek (Grammar.statement_forward.of_ok hstatement)
      -- what the statement comes to is put behind what has been done
      have hturns := @ih ({ p with reader := p.reader.seek rest }.evaluate node)
        (by rw [evaluate, hrest]; omega)
      rw [handle_of_ok hstatement, Session.runScript_cons]
      dsimp only
      rw [hturns, evaluate, hrest]
      simp [report, Session.Report.append]
    | error e rest =>
      obtain ⟨after, hhandle, hreport⟩ := handle_of_error hstatement
      rw [hhandle]
      exact hreport

end Progress

namespace Session

/-- Reads and evaluates a line in turns.  A line with a malformed literal has no turns; its failure
is logged here. -/
def enterLogging (session : Session) (line : String) : Report :=
  match LineReader.ofString? line with
  | .ok r => (Progress.run r.tape.size ⟨r, session, [], []⟩).report
  | .error e => ⟨[.syntaxError e], [.unreadable e], session⟩

/-- Statements and what their evaluations end with, each in the environment that those in front of
it left. -/
def evaluations (nodes : List Node) (environment : Environment) :
    List (Node × Evaluation.Result Float) :=
  nodes.mapIdx fun k node => (node, evaluate node (environmentAfter (nodes.take k) environment))

theorem evaluations_cons (node : Node) (nodes : List Node) (environment : Environment) :
    evaluations (node :: nodes) environment = (node, evaluate node environment) ::
      evaluations nodes (evaluate node environment).environment := List.mapIdx_cons

/-- What statements come to and what they log is what their evaluations come to and log. -/
theorem runStatements_eq (nodes : List Node) (session : Session) :
    let done := evaluations nodes session.environment
    runStatements nodes session = ⟨done.map fun turn => .evaluated turn.1 turn.2.outcome,
      done.flatMap fun turn => turn.2.events, ⟨environmentAfter nodes session.environment⟩⟩ := by
  induction nodes generalizing session with
  | nil => rfl
  | cons node nodes ih =>
    rw [runStatements, ih, evaluations_cons]
    rfl

/-- Statements are evaluated without a warning. -/
theorem isWarning_runStatements (nodes : List Node) (session : Session) :
    ∀ event ∈ (runStatements nodes session).events, event.isWarning = false := by
  induction nodes generalizing session with
  | nil => exact List.forall_mem_nil _
  | cons node nodes ih =>
    rw [runStatements]
    exact List.forall_mem_append.2 ⟨evaluate_isQuiet node session.environment, ih _⟩

/-- The warnings among what was logged. -/
def Report.warnings (report : Report) : List Event := report.events.filter Event.isWarning

/-- A line comes to the same whether the log is written where it is read and evaluated or not. -/
theorem enterLogging_eq_enter (session : Session) (line : String) :
    session.enterLogging line = session.enter line := by
  rw [enter, Script.ofString, enterLogging]
  cases htokens : (Source.ofString line).tokenize with
  | error e =>
    rw [LineReader.ofString?_of_malformed htokens]
    rfl
  | ok s =>
    rw [LineReader.ofString?_of_tokenize htokens]
    have hbound : s.length ≤ (TokenTape.ofStream s).size := Nat.le_succ s.length
    exact Progress.run_report (p := ⟨.ofTape (.ofStream s), session, [], []⟩) hbound

/-- **The log of a line tells exactly what became of it.**  Whatever the session, the log that is
written while the line is read and evaluated in turns is this: if the outcomes are those of some
statements, each evaluated in the environment that those in front of it left, and nothing else, then
it has what these evaluations log, in order, and no warning; and if a failure to read comes behind
them, then what is logged last is one warning, with the message, the line and the column of that
failure, and there is no other. -/
theorem enter_log (session : Session) (line : String) :
    session.enterLogging line = session.enter line ∧
      ∃ (statements : List Node) (failure : Option ParseError),
        let done := evaluations statements session.environment
        (session.enter line).outcomes =
            done.map (fun turn => .evaluated turn.1 turn.2.outcome) ++
              failure.toList.map .syntaxError ∧
          match failure with
          | none =>
            (session.enter line).events = done.flatMap (fun turn => turn.2.events) ∧
              (session.enter line).warnings = []
          | some e => ∃ warning,
            (session.enter line).events = done.flatMap (fun turn => turn.2.events) ++ [warning] ∧
              (session.enter line).warnings = [warning] ∧ warning.message = e.message ∧
              warning.fields =
                [("line", toString e.location.line), ("column", toString e.location.column)] := by
  refine ⟨enterLogging_eq_enter session line, ?_⟩
  rcases hscript : Script.ofString line with ⟨statements, failure⟩
  have houtcomes := congrArg Report.outcomes (runStatements_eq statements session)
  have hevents := congrArg Report.events (runStatements_eq statements session)
  have hquiet : (runStatements statements session).warnings = [] :=
    List.filter_eq_nil_iff.2 fun event hevent =>
      Bool.eq_false_iff.1 (isWarning_runStatements statements session event hevent)
  rw [enter, hscript]
  refine ⟨statements, failure, ?_⟩
  cases failure with
  | none => exact ⟨houtcomes.trans (List.append_nil _).symm, hevents, hquiet⟩
  | some e =>
    have hwarnings := congrArg (· ++ [Event.unreadable e]) hquiet
    exact ⟨congrArg (· ++ [Outcome.syntaxError e]) houtcomes, .unreadable e,
      congrArg (· ++ [Event.unreadable e]) hevents, (List.filter_append _ _).trans hwarnings,
      rfl, rfl⟩

end Session

end Reckoner
