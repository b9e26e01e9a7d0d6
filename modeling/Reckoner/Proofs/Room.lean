import Reckoner.CommandLine
import Reckoner.Proofs.Descent

/-!
# Runs with so much room

A process evaluates the statements of a line, writes what became of them and disposes of their
trees.  For each of these it goes down trees, and there is so much room for calls within calls and
no more; reading is not among them, since its calls within calls are bounded whatever there is to
read.  Where the room ends, the process is killed: of a line whose evaluation takes too much nothing
is written, and no line behind it is asked for.

A run that finds room for everything is the run that there is without such a bound, and any other
one breaks off what that would write.  Every line that is short enough finds room, but no room is
enough for every line.

## Main definitions

* `Room` — the room that a process has.
* `Session.enterWithin`, `Session.answer` — what becomes of a line.
* `Command.runWithin room` — what a run leaves behind, and how it ends.
* `Room.Holds`, `Command.HeldBy` — that there is room for a line, and for all that is entered.

## Main results

* `Session.enterWithin_cases` — a line comes to nothing, or to what it would come to anyway.
* `Session.answer_of_holds` — a line that there is room for is answered.
* `Room.holds_of_length_le` — there is room for every line that is short enough.
* `Command.runWithin_of_heldBy` — **with room enough a run is what it would be without a bound.**
* `Command.exists_runWithin_append` — what is written is the beginning of that, whatever room there
  is.
* `Command.room_insufficient` — no room is enough for everything that may be entered.
-/

namespace Reckoner

open Grammar

/-- The room that a process has for calls within calls. -/
structure Room where
  /-- How many evaluations there is room for inside each other. -/
  evaluation : Nat
  /-- How many levels of a tree can be written out. -/
  dump : Nat
  /-- How many levels of a tree can be disposed of. -/
  disposal : Nat
  /-- Whether what has been read of a line can be disposed of if its reading fails.  How high that
  is depends on where the reading fails, so what this says of long lines is left open. -/
  discards : String → Bool
  /-- What has been read of a line is no higher than the line is long. -/
  discards_of_length_le : ∀ {line : String}, line.length ≤ disposal → discards line = true

/-- The room that there is if it is the same for everything. -/
def Room.uniform (levels : Nat) : Room where
  evaluation := levels
  dump := levels
  disposal := levels
  discards line := line.length ≤ levels
  discards_of_length_le h := decide_eq_true h

/-! ### Evaluating a line -/

namespace Session

/-- Evaluates statements one after the other, with room for `room` evaluations inside each other. -/
def runStatementsWithin (room : Nat) : List Node → Session → Option Report
  | [], session => some ⟨[], [], session⟩
  | node :: nodes, session =>
    match evaluateWithin room node session.environment with
    | none => none
    | some result =>
      (runStatementsWithin room nodes ⟨result.environment⟩).map fun report =>
        ⟨.evaluated node result.outcome :: report.outcomes, result.events ++ report.events,
          report.session⟩

/-- Reads and evaluates a line, if there is room for it.  When a part of it cannot be read, what has
been read of that part is disposed of. -/
def enterWithin (room : Room) (session : Session) (line : String) : Option Report :=
  let script := Script.ofString line
  match runStatementsWithin room.evaluation script.statements session with
  | none => none
  | some report =>
    match script.failure with
    | none => some report
    | some e =>
      if room.discards line then
        some { report with
          outcomes := report.outcomes ++ [.syntaxError e]
          events := report.events ++ [.unreadable e] }
      else none

variable {room : Room} {session : Session} {line : String} {nodes : List Node}

theorem runStatementsWithin_cases (room : Nat) (nodes : List Node) (session : Session) :
    runStatementsWithin room nodes session = none ∨
      runStatementsWithin room nodes session = some (runStatements nodes session) := by
  induction nodes generalizing session with
  | nil => exact .inr rfl
  | cons node nodes ih =>
    rw [runStatementsWithin, runStatements, evaluateWithin_eq]
    by_cases hdepth : node.depth session.environment ≤ room
    · rw [if_pos hdepth]
      rcases ih ⟨(evaluate node session.environment).environment⟩ with hrest | hrest
      · exact .inl (congrArg (Option.map _) hrest)
      · exact .inr (congrArg (Option.map _) hrest)
    · rw [if_neg hdepth]
      exact .inl rfl

theorem runStatementsWithin_of_height_le {room : Nat} (h : ∀ node ∈ nodes, node.height ≤ room)
    (session : Session) :
    runStatementsWithin room nodes session = some (runStatements nodes session) := by
  induction nodes generalizing session with
  | nil => rfl
  | cons node nodes ih =>
    obtain ⟨hnode, hnodes⟩ := List.forall_mem_cons.1 h
    have hdepth := Nat.le_trans (node.depth_le_height session.environment) hnode
    rw [runStatementsWithin, runStatements, evaluateWithin_eq, if_pos hdepth]
    exact congrArg (Option.map _) (ih hnodes ⟨(evaluate node session.environment).environment⟩)

/-- A line comes to nothing, or to what it comes to without a bound. -/
theorem enterWithin_cases (room : Room) (session : Session) (line : String) :
    session.enterWithin room line = none ∨
      session.enterWithin room line = some (session.enter line) := by
  rw [enterWithin, enter, runScript]
  rcases runStatementsWithin_cases room.evaluation (Script.ofString line).statements session with
    hrun | hrun
  · rw [hrun]
    exact .inl rfl
  · rw [hrun]
    dsimp only
    cases (Script.ofString line).failure with
    | none => exact .inr rfl
    | some e =>
      dsimp only
      split
      · exact .inr rfl
      · exact .inl rfl

end Session

/-! ### Answering a line -/

namespace Room

/-- Whether there is room for writing an outcome. -/
def writes (room : Room) (display : Display) : Outcome → Bool
  | .evaluated node _ => !display.tree || node.walksWithin room.dump
  | .syntaxError _ => true

/-- Whether there is room for disposing of an outcome. -/
def disposes (room : Room) : Outcome → Bool
  | .evaluated node _ => node.walksWithin room.disposal
  | .syntaxError _ => true

/-- Writes outcomes one after the other, and disposes of each when it has been written: the outcomes
that are written, and whether there is room for all of this. -/
def deliver (room : Room) (display : Display) : List Outcome → List Outcome × Bool
  | [] => ([], true)
  | outcome :: outcomes =>
    if room.writes display outcome then
      if room.disposes outcome then
        let (written, done) := room.deliver display outcomes
        (outcome :: written, done)
      else ([outcome], false)
    else ([], false)

variable {room : Room} {display : Display} {outcomes : List Outcome} {line : String}

/-- What is written are the first of the outcomes, in order. -/
theorem deliver_prefix (room : Room) (display : Display) (outcomes : List Outcome) :
    (room.deliver display outcomes).1 <+: outcomes := by
  induction outcomes with
  | nil => exact List.prefix_refl []
  | cons outcome outcomes ih =>
    rw [deliver]
    split
    · split
      · exact (List.prefix_cons_inj outcome).2 ih
      · exact (List.prefix_cons_inj outcome).2 List.nil_prefix
    · exact List.nil_prefix

/-- If there is room for everything, then all outcomes are written. -/
theorem deliver_eq_of_done (h : (room.deliver display outcomes).2 = true) :
    room.deliver display outcomes = (outcomes, true) := by
  induction outcomes with
  | nil => rfl
  | cons outcome outcomes ih =>
    rw [deliver] at h ⊢
    split at h
    · next hwrites =>
      split at h
      · next hdisposes =>
        rw [if_pos hwrites, if_pos hdisposes]
        dsimp only at h ⊢
        rw [ih h]
      · cases h
    · cases h

theorem deliver_of_forall (h : ∀ outcome ∈ outcomes,
    room.writes display outcome = true ∧ room.disposes outcome = true) :
    room.deliver display outcomes = (outcomes, true) := by
  induction outcomes with
  | nil => rfl
  | cons outcome outcomes ih =>
    obtain ⟨⟨hwrites, hdisposes⟩, hrest⟩ := List.forall_mem_cons.1 h
    rw [deliver, if_pos hwrites, if_pos hdisposes, ih hrest]

/-- There is room for a line: for evaluating its statements, for writing their trees out if these
are shown, and for disposing of all that is read of it. -/
structure Holds (room : Room) (display : Display) (line : String) : Prop where
  evaluation : ∀ node ∈ (Script.ofString line).statements, node.height ≤ room.evaluation
  dump : display.tree = true →
    ∀ node ∈ (Script.ofString line).statements, node.height ≤ room.dump
  disposal : ∀ node ∈ (Script.ofString line).statements, node.height ≤ room.disposal
  discards : (Script.ofString line).failure ≠ none → room.discards line = true

/-- There is room for every line that is short enough. -/
theorem holds_of_length_le (hevaluation : line.length ≤ room.evaluation)
    (hdump : line.length ≤ room.dump) (hdisposal : line.length ≤ room.disposal) :
    room.Holds display line where
  evaluation _ hnode := Nat.le_trans (Script.height_le_length hnode) hevaluation
  dump _ _ hnode := Nat.le_trans (Script.height_le_length hnode) hdump
  disposal _ hnode := Nat.le_trans (Script.height_le_length hnode) hdisposal
  discards _ := room.discards_of_length_le hdisposal

end Room

namespace Session

/-- What becomes of a line in a process. -/
structure Answer where
  /-- The outcomes that are written. -/
  outcomes : List Outcome
  /-- The session that is left, unless the process is killed. -/
  session : Option Session

/-- Reads and evaluates a line, writes what became of its statements and disposes of them. -/
def answer (room : Room) (display : Display) (session : Session) (line : String) : Answer :=
  match session.enterWithin room line with
  | none => ⟨[], none⟩
  | some report =>
    let (written, done) := room.deliver display report.outcomes
    ⟨written, if done then some report.session else none⟩

variable {room : Room} {display : Display} {session next : Session} {line : String}
  {outcomes : List Outcome}

/-- Whatever room there is, what is written for a line are the first of its outcomes, in order. -/
theorem answer_prefix (room : Room) (display : Display) (session : Session) (line : String) :
    (session.answer room display line).outcomes <+: (session.enter line).outcomes := by
  unfold answer
  rcases enterWithin_cases room session line with hrun | hrun
  · rw [hrun]
    exact List.nil_prefix
  · rw [hrun]
    exact room.deliver_prefix display _

/-- A line after which the process goes on has been answered to its end. -/
theorem eq_of_answer (h : session.answer room display line = ⟨outcomes, some next⟩) :
    outcomes = (session.enter line).outcomes ∧ next = (session.enter line).session := by
  unfold answer at h
  rcases enterWithin_cases room session line with hrun | hrun
  · rw [hrun] at h
    cases h
  · rw [hrun] at h
    dsimp only at h
    cases hdone : (room.deliver display (session.enter line).outcomes).2 with
    | false =>
      rw [hdone] at h
      cases h
    | true =>
      rw [Room.deliver_eq_of_done hdone] at h
      cases h
      exact ⟨rfl, rfl⟩

/-- A line that there is room for is evaluated. -/
theorem enterWithin_of_holds (h : room.Holds display line) (session : Session) :
    session.enterWithin room line = some (session.enter line) := by
  rw [enterWithin, enter, runScript, runStatementsWithin_of_height_le h.evaluation]
  dsimp only
  cases hfailure : (Script.ofString line).failure with
  | none => rfl
  | some e =>
    have hdiscards := h.discards (by rw [hfailure]; exact Option.some_ne_none e)
    dsimp only
    rw [if_pos hdiscards]

/-- With room for a line there is room for writing each of its outcomes and for disposing of it. -/
theorem writes_and_disposes_of_holds (h : room.Holds display line) {outcome : Outcome}
    (houtcome : outcome ∈ (session.enter line).outcomes) :
    room.writes display outcome = true ∧ room.disposes outcome = true := by
  rcases mem_outcomes_runScript houtcome with ⟨node, hnode, env, rfl⟩ | ⟨e, -, rfl⟩
  · refine ⟨?_, Node.walksWithin_iff.2 (h.disposal node hnode)⟩
    cases htree : display.tree with
    | false => simp [Room.writes, htree]
    | true => simp [Room.writes, Node.walksWithin_iff.2 (h.dump htree node hnode)]
  · exact ⟨rfl, rfl⟩

/-- A line that there is room for is answered to its end. -/
theorem answer_of_holds (h : room.Holds display line) (session : Session) :
    session.answer room display line =
      ⟨(session.enter line).outcomes, some (session.enter line).session⟩ := by
  have hdeliver : room.deliver display (session.enter line).outcomes =
      ((session.enter line).outcomes, true) :=
    Room.deliver_of_forall fun _ houtcome => writes_and_disposes_of_holds h houtcome
  rw [answer, enterWithin_of_holds h]
  dsimp only
  rw [hdeliver]
  rfl

/-- A line whose first statement is deeper than there is room for kills the process, and nothing is
written for it. -/
theorem answer_of_lt_depth {node : Node} {nodes : List Node}
    (hnodes : (Script.ofString line).statements = node :: nodes)
    (hdepth : room.evaluation < node.depth session.environment) :
    session.answer room display line = ⟨[], none⟩ := by
  rw [answer, enterWithin, hnodes, runStatementsWithin, evaluateWithin_of_lt_depth hdepth]

end Session

/-! ### Runs -/

/-- How a process ends. -/
inductive Ending where
  /-- It exits. -/
  | exit (code : Nat)
  /-- It is killed. -/
  | killed
  deriving DecidableEq, Repr

/-- What is left of a run of a process. -/
structure Run where
  /-- All that was written. -/
  output : String
  /-- How the process ended. -/
  ending : Ending
  deriving DecidableEq, Repr

/-- The run with something written before it. -/
def Run.behind (run : Run) (text : String) : Run := { run with output := text ++ run.output }

theorem Run.behind_behind (run : Run) (text more : String) :
    (run.behind more).behind text = run.behind (text ++ more) := by
  rw [behind, behind, behind, String.append_assoc]

/-- The lines of a text, as texts. -/
def Text.linesOf (cs : List Char) : List String := (lines cs).map String.ofList

namespace Dialogue

theorem answer_append (display : Display) (parseTime : Nat) (outcomes more : List Outcome) :
    answer display parseTime (outcomes ++ more) =
      answer display parseTime outcomes ++ answer display parseTime more := by
  rw [answer, List.map_append, String.join_append]
  rfl

/-- The rest of a dialogue, from where a line has been asked for; no time is spent on reading. -/
def goOn (room : Room) (display : Display) : List String → Session → Run
  | [], _ => ⟨closing, .exit 0⟩
  | line :: lines, session =>
    match session.answer room display line with
    | ⟨outcomes, some next⟩ => (goOn room display lines next).behind (reply display 0 outcomes)
    | ⟨outcomes, none⟩ => ⟨answer display 0 outcomes, .killed⟩

variable {room : Room} {display : Display} {lines : List String}

/-- Whatever room there is, what is written is the beginning of what would be written without a
bound. -/
theorem exists_goOn_append (room : Room) (display : Display) (lines : List String)
    (session : Session) :
    ∃ more, replies display lines session ++ closing =
      (goOn room display lines session).output ++ more := by
  induction lines generalizing session with
  | nil => exact ⟨"", by rw [replies_nil, String.empty_append, String.append_empty]; rfl⟩
  | cons line lines ih =>
    rw [goOn, replies_cons]
    rcases hanswer : session.answer room display line with ⟨outcomes, _ | next⟩
    · obtain ⟨others, houtcomes⟩ := session.answer_prefix room display line
      rw [hanswer] at houtcomes
      refine ⟨answer display 0 others ++ display.prompt ++
        (replies display lines (session.enter line).session ++ closing), ?_⟩
      rw [reply, ← houtcomes, answer_append]
      simp only [String.append_assoc]
    · obtain ⟨rfl, rfl⟩ := Session.eq_of_answer hanswer
      obtain ⟨more, hmore⟩ := ih (session.enter line).session
      refine ⟨more, ?_⟩
      rw [String.append_assoc, hmore, ← String.append_assoc]
      rfl

/-- Behind a line that kills the process nothing follows. -/
theorem goOn_append_of_killed {session : Session} {lines : List String}
    (h : (goOn room display lines session).ending = .killed) (more : List String) :
    goOn room display (lines ++ more) session = goOn room display lines session := by
  induction lines generalizing session with
  | nil => cases h
  | cons line lines ih =>
    rw [List.cons_append, goOn, goOn]
    rw [goOn] at h
    rcases hanswer : session.answer room display line with ⟨outcomes, _ | next⟩
    · rfl
    · rw [hanswer] at h
      exact congrArg (Run.behind · _) (ih h)

/-- With room for all lines, each is replied to, and then there is the end. -/
theorem goOn_of_holds (h : ∀ line ∈ lines, room.Holds display line) (session : Session) :
    goOn room display lines session = ⟨replies display lines session ++ closing, .exit 0⟩ := by
  induction lines generalizing session with
  | nil => rw [goOn, replies_nil, String.empty_append]
  | cons line lines ih =>
    obtain ⟨hline, hlines⟩ := List.forall_mem_cons.1 h
    rw [goOn, Session.answer_of_holds hline, replies_cons, String.append_assoc]
    dsimp only
    rw [ih hlines]
    rfl

end Dialogue

namespace Command

/-- What a command leaves behind in a process with so much room if the text `input` is entered, and
how the process ends; no time is spent on reading. -/
def runWithin (room : Room) (input : String) : Command → Run
  | evaluate display line =>
    match Session.empty.answer room display line with
    | ⟨outcomes, some _⟩ => ⟨Dialogue.answer display 0 outcomes, .exit 0⟩
    | ⟨outcomes, none⟩ => ⟨Dialogue.answer display 0 outcomes, .killed⟩
  | converse display =>
    (Dialogue.goOn room display (Text.linesOf input.toList) .empty).behind
      (Dialogue.opening display)
  | version => ⟨versionText, .exit 0⟩
  | help => ⟨helpText, .exit 0⟩
  | misuse => ⟨"", .exit misuseCode⟩

/-- There is room for all that a command evaluates if the text `input` is entered. -/
def HeldBy (room : Room) (input : String) : Command → Prop
  | evaluate display line => room.Holds display line
  | converse display => ∀ line ∈ Text.linesOf input.toList, room.Holds display line
  | version | help | misuse => True

/-- **With room enough a run is what it would be without a bound.** -/
theorem runWithin_of_heldBy {room : Room} {input : String} {command : Command}
    (h : command.HeldBy room input) : command.runWithin room input =
      ⟨(command.run input).output, .exit (command.run input).code⟩ := by
  cases command with
  | evaluate display line => rw [runWithin, Session.answer_of_holds h, run]
  | converse display =>
    rw [runWithin, Dialogue.goOn_of_holds h, run, Dialogue.transcript, String.append_assoc]
    rfl
  | version | help | misuse => rfl

/-- Whatever room there is, what is written is the beginning of what would be written without a
bound. -/
theorem exists_runWithin_append (room : Room) (input : String) (command : Command) :
    ∃ more, (command.run input).output = (command.runWithin room input).output ++ more := by
  cases command with
  | evaluate display line =>
    obtain ⟨others, houtcomes⟩ := Session.empty.answer_prefix room display line
    refine ⟨Dialogue.answer display 0 others, ?_⟩
    rw [run, runWithin, ← houtcomes, Dialogue.answer_append]
    split <;> next hanswer => rw [hanswer]
  | converse display =>
    obtain ⟨more, hmore⟩ :=
      Dialogue.exists_goOn_append room display (Text.linesOf input.toList) .empty
    refine ⟨more, ?_⟩
    rw [run, runWithin, Dialogue.transcript, Run.behind, String.append_assoc, String.append_assoc,
      ← hmore]
    rfl
  | version | help | misuse => exact ⟨"", String.append_empty.symm⟩

end Command

/-! ### No room is enough -/

/-- A character that is in none of some texts is not in them with blanks between them either. -/
theorem Text.notMem_intercalate {c : Char} (hblank : c ≠ ' ') {texts : List String}
    (h : ∀ text ∈ texts, c ∉ text.toList) : c ∉ (" ".intercalate texts).toList := by
  induction texts with
  | nil => exact List.not_mem_nil
  | cons text texts ih =>
    obtain ⟨htext, htexts⟩ := List.forall_mem_cons.1 h
    cases texts with
    | nil => rwa [String.intercalate_singleton]
    | cons next texts =>
      rw [String.intercalate_cons_cons, String.toList_append, String.toList_append, List.mem_append,
        List.mem_append]
      rintro ((hc | hc) | hc)
      · exact htext hc
      · exact hblank (List.mem_singleton.1 hc)
      · exact ih htexts hc

theorem Text.lines_of_notMem {cs : List Char} (h : '\n' ∉ cs) (hne : cs ≠ []) :
    lines cs = [cs] := by
  induction cs with
  | nil => exact absurd rfl hne
  | cons c cs ih =>
    obtain ⟨hc, hcs⟩ := not_or.1 (h ∘ List.mem_cons.2)
    rw [lines, if_neg (Ne.symm hc)]
    cases cs with
    | nil => rfl
    | cons d ds => rw [ih hcs (List.cons_ne_nil d ds)]

/-- A text without line feeds is a line, unless it is empty. -/
theorem Text.linesOf_of_notMem {line : String} (h : '\n' ∉ line.toList) (hne : line ≠ "") :
    linesOf line.toList = [line] := by
  rw [linesOf, lines_of_notMem h (mt String.toList_eq_nil_iff.1 hne), List.map_singleton,
    String.ofList_toList]

theorem Grammar.Bracketed.lineFeed_notMem_chainTexts (n : Nat) :
    ∀ text ∈ chainTexts n, '\n' ∉ text.toList := by
  induction n with
  | zero => exact List.forall_mem_singleton.2 (by decide)
  | succ n ih =>
    rw [chainTexts]
    exact List.forall_mem_append.2 ⟨ih, List.forall_mem_cons.2
      ⟨by decide, List.forall_mem_singleton.2 (by decide)⟩⟩

/-- Whatever room there is, some line kills the process, in whatever session it is entered: nothing
is written for it. -/
theorem Session.exists_deadly (room : Room) : ∃ line : String,
    '\n' ∉ line.toList ∧ line ≠ "" ∧
      ∀ (display : Display) (session : Session), session.answer room display line = ⟨[], none⟩ := by
  obtain ⟨node, hscript, htree⟩ := Script.ofString_chain room.evaluation
  generalize hline : " ".intercalate (Bracketed.chainTexts room.evaluation) = line at hscript
  have hdepth := Node.lt_depth_of_chain htree
  refine ⟨line, ?_, ?_, fun display session => ?_⟩
  · rw [← hline]
    exact Text.notMem_intercalate (by decide)
      (Bracketed.lineFeed_notMem_chainTexts room.evaluation)
  · -- there is no tree in an empty line
    rintro rfl
    have hnode : node ∈ (Script.ofString "").statements := by
      rw [hscript]
      exact List.mem_singleton_self node
    have hheight := Script.height_le_length hnode
    have hdeep := Nat.lt_of_lt_of_le (hdepth .empty) (node.depth_le_height .empty)
    rw [String.length_empty] at hheight
    omega
  · exact answer_of_lt_depth (congrArg Script.statements hscript) (hdepth session.environment)

namespace Command

/-- Whatever room there is, a dialogue is killed by some text: nothing has been written but that the
first line was asked for. -/
theorem exists_killed (room : Room) (display : Display) : ∃ input : String,
    (converse display).runWithin room input = ⟨Dialogue.opening display, .killed⟩ := by
  obtain ⟨line, hlineFeed, hne, hdeadly⟩ := Session.exists_deadly room
  refine ⟨line, ?_⟩
  rw [runWithin, Text.linesOf_of_notMem hlineFeed hne, Dialogue.goOn, hdeadly display .empty]
  exact congrArg (Run.mk · .killed) String.append_empty

/-- No room is enough for everything that may be entered. -/
theorem room_insufficient : ¬ ∃ (room : Room) (display : Display), ∀ input : String,
    ((converse display).runWithin room input).ending = .exit 0 := by
  rintro ⟨room, display, hexit⟩
  obtain ⟨input, hkilled⟩ := exists_killed room display
  have hcode := hexit input
  rw [hkilled] at hcode
  cases hcode

end Command

end Reckoner
