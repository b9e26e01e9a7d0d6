import Reckoner.CommandLine
import Reckoner.Proofs.LineLog
import Reckoner.Proofs.SourceOrder

/-!
# A line by itself and in a dialogue

A line that is given as an argument lacks the line feed that it has when it is entered in a
dialogue.  All that this changes is where the line ends: there is no token in a line feed, none
changes for its sake, and none stands where the line ends.  So only an error about the end of the
line can tell, and it tells by its place: behind the last character of the line, or at the beginning
of the next one.  No tree, no value and no other error is any different, and so is nothing that is
written.

## Main definitions

* `Location.wrap` — the end of a line put at the beginning of the next one.
* `Outcome.SameButEnd` — the same outcome, unless it is an error about the end of the line.
* `Display.flags` — the flags that ask for a display.

## Main results

* `Source.before_end` — every token stands in front of the end of the text.
* `Script.ofString_lineFeed` — a line is read in the same way with a line feed behind it, but for an
  error about its end.
* `Command.ofArguments_flags_line` — any line may be given by itself, whatever is to be shown.
* `Command.run_line` — **a line by itself is answered as it is in a dialogue.**
-/

namespace Reckoner

/-! ### Where a text ends -/

/-- A text with a line feed at its end, and with no other, is a line. -/
theorem Text.lines_append_lineFeed {cs : List Char} (h : '\n' ∉ cs) :
    lines (cs ++ ['\n']) = [cs ++ ['\n']] := by
  induction cs with
  | nil => rfl
  | cons c cs ih =>
    obtain ⟨hc, hcs⟩ := not_or.1 (h ∘ List.mem_cons.2)
    rw [List.cons_append, lines, if_neg (Ne.symm hc), ih hcs]

/-- A text without line feeds ends behind its last character. -/
theorem Location.advance_start_of_notMem {cs : List Char} (h : '\n' ∉ cs) :
    start.advance cs = ⟨1, cs.length + 1⟩ := by
  have hall : cs.reverse.takeWhile (· ≠ '\n') = cs.reverse := by
    refine List.takeWhile_eq_self_iff.2 fun c hc => decide_eq_true ?_
    rintro rfl
    exact h (List.mem_reverse.1 hc)
  rw [advance_start, behind, List.count_eq_zero.2 h, hall, List.length_reverse,
    Nat.add_comm 1 cs.length]

namespace Source

/-- The place behind the text. -/
def last (src : Source) : Location := src.location.advance src.rest

/-- What is read next is in front of the end of the text, unless it is that. -/
theorem next_before (src : Source) :
    match src.next.1 with
    | .error e => e.location.Before src.last
    | .ok (.token t) => t.location.Before src.last
    | .ok (.endOfInput l) => l = src.last := by
  have htrivia := Trivia.split_append false src.rest
  unfold next last
  generalize Trivia.split false src.rest = parts at htrivia
  obtain ⟨trivia, _ | ⟨first, more⟩⟩ := parts
  · rw [← htrivia, Location.advance_append]
    rfl
  · have hbefore := (src.location.advance trivia).before_advance (List.cons_ne_nil first more)
    rw [← Location.advance_append, htrivia] at hbefore
    dsimp only
    cases Lexeme.ofText? first (Lexeme.munch first more).1 with
    | none => exact hbefore
    | some lexeme => exact hbefore

/-- The tokens of a text stand in front of its end, and so does a malformed literal. -/
theorem before_end (src : Source) :
    match src.tokenize with
    | .error e => e.location.Before src.last
    | .ok s => s.stop = src.last ∧ ∀ t ∈ s.tokens, t.location.Before src.last := by
  fun_induction tokenize src with
  | case1 src e after hnext =>
    have hbefore := src.next_before
    rw [hnext] at hbefore
    exact hbefore
  | case2 src l after hnext =>
    have hbefore := src.next_before
    rw [hnext] at hbefore
    exact ⟨hbefore, List.forall_mem_nil _⟩
  | case3 src t after hnext ih =>
    -- the text behind the token ends where the whole text does
    have hbefore := src.next_before
    have hlast : src.next.2.last = src.last := src.advance_next
    rw [hnext] at hbefore hlast
    dsimp only at hbefore hlast
    rw [hlast] at ih
    cases htokens : after.tokenize with
    | error e =>
      rw [htokens] at ih
      exact ih
    | ok s =>
      rw [htokens] at ih
      exact ⟨ih.1, List.forall_mem_cons.2 ⟨hbefore, ih.2⟩⟩

end Source

/-! ### A line feed at the end -/

/-- The place `last` is at the beginning of the next line, and any other where it was. -/
def Location.wrap (last l : Location) : Location := if l = last then last.after '\n' else l

theorem Location.Before.wrap_eq {last l : Location} (h : l.Before last) : wrap last l = l := by
  refine if_neg ?_
  rintro rfl
  unfold Before at h
  omega

/-- A line feed behind a text moves its end to the next line, and nothing else. -/
theorem Source.tokenize_lineFeed (line : String) :
    (ofString (line ++ "\n")).tokenize =
      (ofString line).tokenize.map (TokenStream.moved (.wrap (ofString line).last)) := by
  have hbefore := (ofString line).before_end
  have hbehind : ∀ l, (mk [] l).tokenize = .ok ⟨[], l⟩ := fun l => tokenize_of_endOfInput rfl
  have hread := tokenize_lineBreak line.toList [] .start
  rw [← ofString, hbehind] at hread
  rw [ofString, String.toList_append]
  refine hread.trans ?_
  cases htokens : (ofString line).tokenize with
  | error e => rfl
  | ok s =>
    rw [htokens] at hbefore
    obtain ⟨hstop, hbefore⟩ := hbefore
    have htokens : s.tokens.map (Token.moved (.wrap (ofString line).last)) = s.tokens :=
      (List.map_congr_left fun t ht => congrArg (Token.mk t.lexeme) (hbefore t ht).wrap_eq).trans
        (List.map_id s.tokens)
    refine congrArg Except.ok (TokenStream.ext ?_ ?_)
    · exact (List.append_nil s.tokens).trans htokens.symm
    · exact (if_pos hstop).symm

/-- An error stays what it is if it stays where it is. -/
theorem ParseError.moved_eq {place : Location → Location} {e : ParseError}
    (h : place e.location = e.location) : e.moved place = e := by
  cases e with
  | malformedNumber e => exact congrArg (fun l => malformedNumber ⟨e.literal, l⟩) h
  | nestedTooDeeply l => exact congrArg nestedTooDeeply h
  | unexpected found expected =>
    cases found with
    | token t => exact congrArg (fun l => unexpected (.token ⟨t.lexeme, l⟩) expected) h
    | endOfInput l => exact congrArg (fun l => unexpected (.endOfInput l) expected) h

namespace Script

/-- Statements stay what they are if the tokens stay where they are. -/
theorem statements_moved_eq {place : Location → Location} {s : TokenStream}
    (hplace : ∀ t ∈ s.tokens, place t.location = t.location) :
    (read s).1.statements.map (Node.moved place) = (read s).1.statements := by
  refine (List.map_congr_left fun node hnode => ?_).trans (List.map_id _)
  obtain ⟨t, u, ht, hrun⟩ := (read_rests s).1 node hnode
  exact Grammar.moved_eq_of_statement hrun fun x hx => hplace x (ht.2.subset hx)

/-- A line is read in the same way with a line feed behind it, but for an error about its end. -/
theorem ofString_lineFeed (line : String) :
    ofString (line ++ "\n") = ⟨(ofString line).statements,
      (ofString line).failure.map (ParseError.moved (.wrap (Source.ofString line).last))⟩ := by
  have hbefore := (Source.ofString line).before_end
  rw [ofString, ofString, Source.tokenize_lineFeed]
  cases htokens : (Source.ofString line).tokenize with
  | error e =>
    rw [htokens] at hbefore
    have hmoved : (ParseError.malformedNumber e).moved (.wrap (Source.ofString line).last) =
        .malformedNumber e := ParseError.moved_eq hbefore.wrap_eq
    dsimp only [Except.map, failed, Option.map_some]
    rw [hmoved]
  | ok s =>
    rw [htokens] at hbefore
    have hstatements := statements_moved_eq fun t ht => (hbefore.2 t ht).wrap_eq
    refine (congrArg Prod.fst (read_moved s)).trans ?_
    exact congrArg (Script.mk · _) hstatements

end Script

/-! ### Answers -/

/-- The same outcome, unless it is an error about the end of the line, which is at `last` or at the
beginning of the second line. -/
inductive Outcome.SameButEnd (last : Location) : Outcome → Outcome → Prop
  | same {outcome : Outcome} : (∀ e, outcome = .syntaxError e → e.location ≠ last) →
      SameButEnd last outcome outcome
  | atEnd {e e' : ParseError} : e.location = last → e'.location = ⟨2, 1⟩ → e'.message = e.message →
      SameButEnd last (.syntaxError e) (.syntaxError e')

/-- What comes of a line with a line feed behind it is what comes of the line, but for an error
about its end. -/
theorem Session.enter_lineFeed (session : Session) {line : String} (h : '\n' ∉ line.toList) :
    List.Forall₂ (Outcome.SameButEnd ⟨1, line.length + 1⟩) (session.enter line).outcomes
      (session.enter (line ++ "\n")).outcomes := by
  have hlast : (Source.ofString line).last = ⟨1, line.length + 1⟩ := by
    rw [← String.length_toList]
    exact Location.advance_start_of_notMem h
  have hsame : ∀ nodes : List Node, List.Forall₂ (Outcome.SameButEnd ⟨1, line.length + 1⟩)
      (runStatements nodes session).outcomes (runStatements nodes session).outcomes := by
    intro nodes
    rw [runStatements_eq]
    refine List.forall₂_same.2 fun outcome houtcome => .same ?_
    rintro e rfl
    obtain ⟨turn, -, hturn⟩ := List.mem_map.1 houtcome
    cases hturn
  rw [enter, enter, Script.ofString_lineFeed, runScript, runScript, hlast]
  cases (Script.ofString line).failure with
  | none => exact hsame _
  | some e =>
    refine List.rel_append (hsame _) (.cons ?_ .nil)
    by_cases he : e.location = ⟨1, line.length + 1⟩
    · refine .atEnd he ?_ e.message_moved
      rw [e.location_moved, he]
      exact if_pos rfl
    · have hmoved : e.moved (.wrap ⟨1, line.length + 1⟩) = e := ParseError.moved_eq (if_neg he)
      rw [hmoved]
      refine .same ?_
      rintro _ ⟨⟩
      exact he

/-- What is written for an error that keeps a line from being read. -/
def Display.unreadable (display : Display) (l : Location) (message : String) : String :=
  Block.write display.coloured ⟨.warning,
    s!"Invalid syntax, no abstract syntax tree generated: Parse error at {l.describe}: {message}"⟩

theorem Outcome.render_syntaxError (display : Display) (parseTime : Nat) (e : ParseError) :
    (syntaxError e).render display parseTime = display.unreadable e.location e.message :=
  String.empty_append

/-- Outcomes that are the same are written the same; else only the place is another one. -/
theorem Outcome.SameButEnd.render_eq {last : Location} {outcome outcome' : Outcome}
    (h : SameButEnd last outcome outcome') (display : Display) (parseTime : Nat) :
    outcome.render display parseTime = outcome'.render display parseTime ∨
      ∃ message, outcome.render display parseTime = display.unreadable last message ∧
        outcome'.render display parseTime = display.unreadable ⟨2, 1⟩ message := by
  cases h with
  | same => exact .inl rfl
  | @atEnd e e' he he' hmessage =>
    refine .inr ⟨e.message, ?_, ?_⟩
    · rw [render_syntaxError, he]
    · rw [render_syntaxError, he', hmessage]

/-- Without timings it does not show how long the reading took. -/
theorem Outcome.render_of_not_timing {display : Display} (h : display.timing = false)
    (parseTime : Nat) (outcome : Outcome) :
    outcome.render display parseTime = outcome.render display 0 := by
  have hblocks : outcome.blocks display parseTime = outcome.blocks display 0 := by
    cases outcome with
    | evaluated statement result => simp [blocks, h]
    | syntaxError e => rfl
  rw [render, hblocks, render]

namespace Dialogue

/-- Without timings it does not matter how long the reading takes. -/
theorem answer_of_not_timing {display : Display} (h : display.timing = false) (parseTime : Nat)
    (outcomes : List Outcome) : answer display parseTime outcomes = answer display 0 outcomes :=
  congrArg String.join
    (List.map_congr_left fun outcome _ => outcome.render_of_not_timing h parseTime)

/-- In a dialogue of one line there is its answer between two prompts. -/
theorem transcript_line (display : Display) {line : String} (h : '\n' ∉ line.toList) :
    transcript display (line ++ "\n") = display.banner ++ display.prompt ++
      answer display 0 (Session.empty.enter (line ++ "\n")).outcomes ++ display.prompt ++ "\n" := by
  have hlines : (Text.lines (line ++ "\n").toList).map String.ofList = [line ++ "\n"] := by
    rw [String.toList_append]
    refine (congrArg (List.map String.ofList) (Text.lines_append_lineFeed h)).trans ?_
    rw [List.map_singleton, String.ofList_append, String.ofList_toList]
  have hreplies : replies display [line ++ "\n"] .empty =
      reply display 0 (Session.empty.enter (line ++ "\n")).outcomes := by
    simp [replies, Session.enterAll, String.join]
  rw [transcript, hlines, hreplies, opening, reply, closing]
  simp [String.append_assoc]

end Dialogue

/-- The flags that ask for a display. -/
def Display.flags (display : Display) : List String :=
  (if display.tree then ["--show-ast"] else []) ++
    ((if display.timing then ["--debug-info"] else []) ++
      if display.coloured then [] else ["--no-color"])

/-- Flags ask for what they are the flags of. -/
theorem Request.take_flags (display : Display) (arguments : List String) :
    default.take (display.flags ++ arguments) = take ⟨display, none⟩ arguments := by
  have htree : Argument.ofString "--show-ast" = .showTree := by decide
  have htiming : Argument.ofString "--debug-info" = .showTiming := by decide
  have hcolours : Argument.ofString "--no-color" = .noColours := by decide
  obtain ⟨tree, timing, coloured⟩ := display
  cases tree <;> cases timing <;> cases coloured <;>
    simp [Display.flags, take, default, htree, htiming, hcolours]

namespace Command

/-- A dialogue may be asked for with any display. -/
theorem ofArguments_flags (display : Display) : ofArguments display.flags = .converse display := by
  have htake := Request.take_flags display []
  rw [List.append_nil] at htake
  exact htake

/-- Any line may be given by itself, with any display, also if it looks like a flag. -/
theorem ofArguments_flags_line (display : Display) (line : String) :
    ofArguments (display.flags ++ ["--", line]) = .evaluate display line := by
  have hend : Argument.ofString "--" = .endOfFlags := by decide
  rw [ofArguments, Request.take_flags, Request.take, hend]
  rfl

/-- **A line by itself is answered as it is in a dialogue.**  Let some arguments ask for a line
without line feeds to be evaluated, and let others ask for a dialogue with the same display, in
which no times are shown.  Then what is written for the line, however long reading it takes, is what
a dialogue in which the line is all that is entered has between its two prompts, outcome by outcome;
only an error that is located at the end of the line is located at the beginning of the next one
there, with the same message.  Both runs end with the exit code zero. -/
theorem run_line {arguments arguments' : List String} {display : Display} {line : String}
    (hline : ofArguments arguments = .evaluate display line)
    (hdialogue : ofArguments arguments' = .converse display)
    (htiming : display.timing = false) (hfeed : '\n' ∉ line.toList) (input : String)
    (parseTime : Nat) :
    let outcomes := (Session.empty.enter line).outcomes
    let outcomes' := (Session.empty.enter (line ++ "\n")).outcomes
    (ofArguments arguments).run input = ⟨Dialogue.answer display parseTime outcomes, 0⟩ ∧
      (ofArguments arguments').run (line ++ "\n") = ⟨display.banner ++ display.prompt ++
        Dialogue.answer display parseTime outcomes' ++ display.prompt ++ "\n", 0⟩ ∧
      List.Forall₂ (fun outcome outcome' =>
          outcome.SameButEnd ⟨1, line.length + 1⟩ outcome' ∧
            (outcome.render display parseTime = outcome'.render display parseTime ∨
              ∃ message, outcome.render display parseTime =
                  display.unreadable ⟨1, line.length + 1⟩ message ∧
                outcome'.render display parseTime = display.unreadable ⟨2, 1⟩ message))
        outcomes outcomes' := by
  have hanswer := Dialogue.answer_of_not_timing htiming parseTime
  dsimp only
  rw [hline, hdialogue, hanswer, hanswer]
  refine ⟨rfl, congrArg (Reply.mk · 0) (Dialogue.transcript_line display hfeed), ?_⟩
  exact (Session.empty.enter_lineFeed hfeed).imp fun _ _ h => ⟨h, h.render_eq display parseTime⟩

/-- A word with nothing behind it is reported at the end of its line, or at the beginning of the
next one. -/
theorem run_line_let :
    (ofArguments ["--no-color", "let"]).run "" =
        ⟨"Invalid syntax, no abstract syntax tree generated: Parse error at line 1, column 4: " ++
          "Expected identifier after 'let', found end of input\n", 0⟩ ∧
      (ofArguments ["--no-color"]).run "let\n" =
        ⟨"kaleido - enter statements to evaluate (Ctrl+D to exit)\n" ++
          "> Invalid syntax, no abstract syntax tree generated: Parse error at line 2, column 1: " ++
          "Expected identifier after 'let', found end of input\n> \n", 0⟩ := by
  have htokens : (Source.ofString "let").tokenize = .ok ⟨[⟨.keyword .letWord, ⟨1, 1⟩⟩], ⟨1, 4⟩⟩ :=
    Source.tokenize_word rfl
  have houtcomes : (Session.empty.enter "let").outcomes =
      [.syntaxError (.unexpected (.endOfInput ⟨1, 4⟩) .declaredName)] := by
    rw [Session.enter_of_tokenize htokens]
    rfl
  obtain ⟨hline, hdialogue, hall⟩ := @run_line ["--no-color", "let"] ["--no-color"]
    ⟨false, false, false⟩ "let" (by decide) (by decide) rfl (by decide) "" 0
  rw [houtcomes] at hline hall
  generalize (Session.empty.enter ("let" ++ "\n")).outcomes = outcomes' at hdialogue hall
  obtain _ | ⟨⟨hend, -⟩, hnone⟩ := hall
  cases hnone
  cases hend with
  | same hother => exact absurd rfl (hother _ rfl)
  | @atEnd _ e' _ he' hmessage =>
    refine ⟨hline.trans (by decide +kernel), hdialogue.trans ?_⟩
    rw [Dialogue.answer, List.map_singleton, Outcome.render_syntaxError, he', hmessage]
    decide +kernel

end Command

end Reckoner
