import Reckoner.Proofs.Retelling
import Reckoner.Proofs.Sentences
import Reckoner.Session

/-!
# What a line means

A session reads a statement, evaluates it, and goes on until the line is at its end or a statement
cannot be read.  What comes of it can be said without the loop: the line is cut at its semicolons,
each segment is read by itself, and the trees of the segments in front of the first bad one are
evaluated in order.

Cutting a line off behind a statement is a retelling, so a segment read by itself gives the tree
that it gives inside of its line; only a failure may name the end of the input where the line has
a semicolon, and it does so at the same place.

## Main definitions

* `Retelling.cutting` — cutting a stream off at its first semicolon.
* `Script.ofSegments` — segments, each read by itself.
* `Session.environmentAfter` — the environment that statements leave.
* `Session.enterStepwise` — reading and evaluating in turns.

## Main results

* `Script.read_segments` — a stream is read as its segments are.
* `Session.enter_eq_enterStepwise` — a line may be read before its statements are evaluated.
* `Session.enter_segments` — **a line means its segments, in order until the first bad one.**
-/

namespace Reckoner

/-! ### Cutting a stream off -/

/-- An entry of a stream that is cut off at its first semicolon. -/
def Entry.cut (e : Entry) : Entry := if e.isOperator ";" then .endOfInput e.location else e

theorem TokenStream.head_cut (s : TokenStream) : s.cut.head = s.head.cut := by
  cases s using cons_induction with
  | nil stop => rfl
  | cons t s =>
    by_cases h : t.isSemicolon = true
    · have hop : (Entry.token t).isOperator ";" = true := h
      rw [cut_cons_of_semicolon s h, head_cons, Entry.cut, if_pos hop]
      rfl
    · have hop : ¬ (Entry.token t).isOperator ";" = true := h
      rw [cut_cons s (Bool.eq_false_iff.2 h), head_cons, head_cons, Entry.cut, if_neg hop]

theorem TokenStream.tail_cut {s : TokenStream} (h : s.head.isOperator ";" = false) :
    s.cut.tail = s.tail.cut := by
  cases s using cons_induction with
  | nil stop => rfl
  | cons t s => rw [cut_cons s h, tail_cons, tail_cons]

/-- Cutting a stream off at its first semicolon. -/
def Retelling.cutting : Retelling where
  place := id
  name := id
  stream := TokenStream.cut
  entry := Entry.cut
  name_empty := rfl
  retells := by
    intro e
    by_cases h : e.isOperator ";" = true
    · obtain ⟨l, rfl⟩ := Entry.isOperator_iff.1 h
      exact .cut l
    · rw [Entry.cut, if_neg h]
      cases e with
      | endOfInput l => exact .endOfInput l
      | token t =>
        obtain ⟨lexeme, l⟩ := t
        have hlexeme : lexeme.rename id = lexeme := by cases lexeme <;> rfl
        have hretells : Entry.Retells id id (.token ⟨lexeme, l⟩) (.token ⟨lexeme.rename id, l⟩) :=
          .token lexeme l
        rwa [hlexeme] at hretells
  head_stream := TokenStream.head_cut
  tail_stream _ h := TokenStream.tail_cut h

/-! ### Statements read alone -/

namespace Grammar

theorem body_cut (s : TokenStream) :
    body s.cut = Retelling.cutting.result id (body s) := by
  have hnode : Retelling.cutting.node = id := funext Node.map_id
  have hcommutes := Retelling.commutesAt_body (m := Retelling.cutting) s
  rwa [hnode] at hcommutes

theorem isEnd_cut (e : Entry) : e.cut.isEnd = e.endsStatement := by
  unfold Entry.cut Entry.endsStatement
  by_cases h : e.isOperator ";" = true
  · rw [if_pos h, h]
    rfl
  · rw [if_neg h, Bool.eq_false_iff.2 h, Bool.false_or]

theorem location_cut (e : Entry) : e.cut.location = e.location := by
  unfold Entry.cut
  split <;> rfl

/-- A statement that is read in its line is read alone, and else it fails alone, at the same
place. -/
theorem statement_cut (s : TokenStream) :
    match statement s with
    | .ok node _ => ∃ v, statement s.cut = .ok node v
    | .error e _ => ∃ e' v, statement s.cut = .error e' v ∧ e'.location = e.location := by
  have hcut := body_cut s
  cases hbody : body s with
  | error e t =>
    rw [hbody] at hcut
    have hrun : statement s = .error e t := Parser.bind_run_error hbody
    have hcutRun : statement s.cut = .error (Retelling.cutting.error e) t.cut :=
      Parser.bind_run_error hcut
    rw [hrun]
    refine ⟨_, _, hcutRun, ?_⟩
    cases e with
    | malformedNumber e => rfl
    | nestedTooDeeply l => rfl
    | unexpected found expected => exact location_cut found
  | ok node t =>
    have hcutBody : body s.cut = .ok node t.cut := by
      rw [hcut, hbody]
      rfl
    have hhead : t.cut.head = t.head.cut := t.head_cut
    by_cases hends : t.head.endsStatement = true
    · have hrun : statement s = .ok node t.tail := statement_eq_ok_iff.2 ⟨t, hbody, hends, rfl⟩
      have hcutEnds : t.cut.head.endsStatement = true := by
        rw [hhead, Entry.endsStatement, isEnd_cut, hends, Bool.or_true]
      rw [hrun]
      exact ⟨t.cut.tail, statement_eq_ok_iff.2 ⟨t.cut, hcutBody, hcutEnds, rfl⟩⟩
    · -- the entry behind the statement is to blame, and is no semicolon
      have hgoesOn : t.head.endsStatement = false := Bool.eq_false_iff.2 hends
      have hop : ¬ t.head.isOperator ";" = true := by
        intro hop
        rw [Entry.endsStatement, hop, Bool.true_or] at hgoesOn
        cases hgoesOn
      have hkept : t.cut.head = t.head := by
        rw [hhead, Entry.cut, if_neg hop]
      have hcutGoesOn : t.cut.head.endsStatement = false := by
        rw [hkept]
        exact hgoesOn
      rw [statement_of_not_endsStatement hbody hgoesOn]
      exact ⟨_, _, statement_of_not_endsStatement hcutBody hcutGoesOn,
        congrArg Entry.location hkept⟩

end Grammar

namespace Script

/-- A segment read by itself. -/
def readAlone (segment : TokenStream) : Except ParseError Node :=
  match Grammar.statement segment with
  | .ok node _ => .ok node
  | .error e _ => .error e

/-- Segments, each read by itself, up to the first that cannot be read. -/
def ofSegments : List TokenStream → Script
  | [] => empty
  | segment :: segments =>
    match readAlone segment with
    | .ok node => cons node (ofSegments segments)
    | .error e => failed e

/-- A stream is read as its segments are; a failure is at the same place. -/
theorem read_segments (s : TokenStream) :
    (read s).1.statements = (ofSegments s.segments).statements ∧
      (read s).1.failure.map ParseError.location =
        (ofSegments s.segments).failure.map ParseError.location := by
  induction hlen : s.length using Nat.strongRecOn generalizing s with
  | _ n ih =>
    rw [read_eq, TokenStream.segments_eq]
    by_cases hend : s.atEnd = true
    · rw [if_pos hend, if_pos hend]
      exact ⟨rfl, rfl⟩
    rw [if_neg hend, if_neg hend, ofSegments]
    have hcut := Grammar.statement_cut s
    cases hrun : Grammar.statement s with
    | ok node rest =>
      rw [hrun] at hcut
      obtain ⟨v, hcut⟩ := hcut
      have halone : readAlone s.cut = .ok node := by
        rw [readAlone, hcut]
      have hlt := Grammar.statement_progressive hrun
      -- a statement is a whole sentence, so the rest begins with the next segment
      obtain ⟨-, rfl⟩ := Grammar.isStatement_of_statement hrun
      obtain ⟨hstatements, hfailure⟩ := ih s.afterSentence.tail.length (by omega) _ rfl
      rw [halone]
      exact ⟨congrArg (node :: ·) hstatements, hfailure⟩
    | error e rest =>
      rw [hrun] at hcut
      obtain ⟨e', v, hcut, hlocation⟩ := hcut
      have halone : readAlone s.cut = .error e' := by
        rw [readAlone, hcut]
      rw [halone]
      exact ⟨rfl, congrArg some hlocation.symm⟩

end Script

/-! ### Evaluating in turns -/

namespace Session

/-- The environment that statements leave when they are evaluated in order. -/
def environmentAfter (nodes : List Node) (environment : Environment) : Environment :=
  nodes.foldl (fun environment node => (evaluate node environment).environment) environment

/-- Each statement is evaluated in the environment that those in front of it left. -/
theorem outcomes_runStatements (nodes : List Node) (session : Session) :
    (runStatements nodes session).outcomes = nodes.mapIdx fun k node =>
      .evaluated node (evaluate node (environmentAfter (nodes.take k) session.environment)).outcome := by
  induction nodes generalizing session with
  | nil => rfl
  | cons node nodes ih =>
    rw [runStatements, List.mapIdx_cons, ih]
    rfl

theorem environment_runStatements (nodes : List Node) (session : Session) :
    (runStatements nodes session).session.environment =
      environmentAfter nodes session.environment := by
  induction nodes generalizing session with
  | nil => rfl
  | cons node nodes ih =>
    rw [runStatements]
    exact ih ⟨(evaluate node session.environment).environment⟩

/-- Reads a statement, evaluates it and goes on, until the end of the line is reached or a statement
cannot be read; then the failure recorded last is what became of it. -/
def runReader : Nat → LineReader → Session → Report
  | 0, _, session => ⟨[], [], session⟩
  | bound + 1, r, session =>
    if r.atEnd then ⟨[], [], session⟩
    else
      match r.handle with
      | (some node, after) =>
        let result := evaluate node session.environment
        let report := runReader bound after ⟨result.environment⟩
        ⟨.evaluated node result.outcome :: report.outcomes, result.events ++ report.events,
          report.session⟩
      | (none, after) =>
        match after.lastFailure with
        | some e => ⟨[.syntaxError e], [.unreadable e], session⟩
        | none => ⟨[], [], session⟩

/-- Reads and evaluates a line in turns; there are no more turns than entries. -/
def enterStepwise (session : Session) (line : String) : Report :=
  match LineReader.ofString? line with
  | .ok r => session.runReader r.tape.size r
  | .error e => ⟨[.syntaxError e], [.unreadable e], session⟩

theorem runScript_cons (session : Session) (node : Node) (script : Script) :
    session.runScript (.cons node script) =
      let result := evaluate node session.environment
      let report := runScript ⟨result.environment⟩ script
      ⟨.evaluated node result.outcome :: report.outcomes, result.events ++ report.events,
        report.session⟩ := by
  unfold runScript Script.cons
  cases script.failure with
  | none => rfl
  | some e => simp [runStatements]

theorem runScript_read_of_atEnd (session : Session) {s : TokenStream} (h : s.atEnd = true) :
    session.runScript (Script.read s).1 = ⟨[], [], session⟩ := by
  rw [Script.read_of_atEnd h]
  rfl

/-- Evaluating in turns is evaluating what was read before. -/
theorem runReader_eq_runScript {bound : Nat} {r : LineReader} (session : Session)
    (h : r.tape.unread.length ≤ bound) :
    session.runReader bound r = session.runScript (Script.read r.tape.unread).1 := by
  induction bound generalizing r session with
  | zero =>
    have hempty : r.tape.unread.atEnd = true :=
      List.isEmpty_iff.2 (List.eq_nil_of_length_eq_zero (Nat.le_zero.1 h))
    rw [runScript_read_of_atEnd session hempty]
    rfl
  | succ bound ih =>
    by_cases hs : r.atEnd = true
    · have hempty : r.tape.unread.atEnd = true := hs
      rw [runScript_read_of_atEnd session hempty, runReader, if_pos hs]
    have hmore : ¬ r.tape.unread.atEnd = true := hs
    rw [runReader, if_neg hs, Script.read_eq, if_neg hmore]
    cases hrun : Grammar.statement r.tape.unread with
    | ok node rest =>
      -- one turn: the statement is evaluated where the script evaluates its first one
      have hlt := Grammar.statement_progressive hrun
      have hrest : (r.seek rest).tape.unread = rest :=
        TokenTape.unread_seek (Grammar.statement_forward.of_ok hrun)
      have hhandle : r.handle = (some node, r.seek rest) := by
        rw [LineReader.handle, LineReader.readStatement_of_ok hrun]
      have hmeaning := ih ⟨(evaluate node session.environment).environment⟩ (r := r.seek rest)
        (by rw [hrest]; omega)
      rw [hrest] at hmeaning
      rw [hhandle, runScript_cons]
      dsimp only
      rw [hmeaning]
    | error e rest =>
      -- the failure is the one that was recorded last
      have hhandle : ∃ after : LineReader, r.handle = (none, after) ∧ after.lastFailure = some e := by
        rw [LineReader.handle, LineReader.readStatement_of_error hrun]
        exact ⟨_, rfl, List.getLast?_concat⟩
      obtain ⟨after, hhandle, hlast⟩ := hhandle
      rw [hhandle]
      dsimp only
      rw [hlast]
      rfl

/-- A line may be read before its statements are evaluated. -/
theorem enter_eq_enterStepwise (session : Session) (line : String) :
    session.enter line = session.enterStepwise line := by
  rw [enter, Script.ofString, enterStepwise]
  cases htokens : (Source.ofString line).tokenize with
  | error e =>
    rw [LineReader.ofString?_of_malformed htokens]
    rfl
  | ok s =>
    rw [LineReader.ofString?_of_tokenize htokens]
    have hbound : (LineReader.ofTape (.ofStream s)).tape.unread.length ≤
        (LineReader.ofTape (.ofStream s)).tape.size := Nat.le_succ s.length
    exact (runReader_eq_runScript session hbound).symm

/-- **A line means its segments, in order until the first bad one.**  A line that has no tokens
comes to the error of its malformed literal, and leaves the session as it was.  Else its segments
are read by themselves: the `k`-th outcome is the tree of the `k`-th segment with its result in the
environment that the trees in front of it left, and the first segment that cannot be read adds its
failure, at the place where it fails by itself, as the last outcome.  Reading the whole line at once
gives the same trees, or the same failure.  And whether the statements are evaluated in turns with
the reading or afterwards comes to the same. -/
theorem enter_segments (session : Session) (line : String) :
    session.enter line = session.enterStepwise line ∧
      match (Source.ofString line).tokenize with
      | .error e =>
        (session.enter line).outcomes = [.syntaxError (.malformedNumber e)] ∧
          (session.enter line).session = session ∧
          LineReader.ofString? line = .error (.malformedNumber e)
      | .ok s =>
        let alone := Script.ofSegments s.segments
        ∃ failure : Option ParseError,
          failure.map ParseError.location = alone.failure.map ParseError.location ∧
          (session.enter line).outcomes = (alone.statements.mapIdx fun k node =>
            .evaluated node (evaluate node
              (environmentAfter (alone.statements.take k) session.environment)).outcome) ++
            failure.toList.map .syntaxError ∧
          (session.enter line).session.environment =
            environmentAfter alone.statements session.environment ∧
          ∃ r, LineReader.ofString? line = .ok r ∧ r.readAll.1 =
            match failure with
            | none => .ok alone.statements
            | some e => .error e := by
  refine ⟨enter_eq_enterStepwise session line, ?_⟩
  have henter : session.enter line = session.runScript (.ofString line) := rfl
  rw [henter, Script.ofString]
  cases htokens : (Source.ofString line).tokenize with
  | error e => exact ⟨rfl, rfl, LineReader.ofString?_of_malformed htokens⟩
  | ok s =>
    obtain ⟨hstatements, hfailure⟩ := Script.read_segments s
    have hreader := LineReader.ofString?_of_tokenize htokens
    have hall : (LineReader.ofTape (.ofStream s)).readAll.1 = (Script.read s).1.toExcept := rfl
    refine ⟨(Script.read s).1.failure, hfailure, ?_, ?_, _, hreader, ?_⟩
    · rw [← hstatements, ← outcomes_runStatements, runScript]
      cases (Script.read s).1.failure with
      | none => simp
      | some e => rfl
    · rw [← hstatements, ← environment_runStatements, runScript]
      cases (Script.read s).1.failure with
      | none => rfl
      | some e => rfl
    · rw [hall, ← hstatements]
      rfl

end Session

end Reckoner
