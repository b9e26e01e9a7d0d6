import Mathlib.Logic.Relation
import Reckoner.Proofs.LastLineFeed
import Reckoner.Proofs.Room

/-!
# Asking for lines

A dialogue goes on in turns.  In each of them a line is taken from what is entered, with its line
feed if it has one, and answered; then the next one is asked for.  A turn in which nothing is left
to be taken is the last one, and so is a turn with a line that there is no room for.

So what has been written when a line is asked for is settled by the lines in front of it: another
text behind them is answered in the session that they leave, and changes nothing of what has been
written.  No dialogue goes on for ever, and as long as there is room no line keeps it from going on,
whatever is wrong with it.

## Main definitions

* `Text.takeLine cs` — the first line of a text, and what is behind it.
* `Session.after` — the session that lines leave.
* `Passage`, `Talk` — a part of what is written, and a dialogue in progress.
* `Talk.Step`, `Talk.Reaches` — one turn of a dialogue, and turns one after the other.
* `Talk.OnTrack` — what a dialogue has written and will write is all that its run leaves behind.

## Main results

* `Talk.Step.onTrack` — a turn does not change what is written in all.
* `Talk.wellFounded_step` — no dialogue goes on for ever.
* `Talk.reaches_behind` — lines are answered in the same way whatever follows them.
* `Command.runWithin_causal` — **what has been written depends on the lines before alone.**
-/

namespace Reckoner

/-! ### Lines one at a time -/

namespace Text

/-- The first line of a text, with its line feed if it has one, and what is behind it. -/
def takeLine : List Char → List Char × List Char
  | [] => ([], [])
  | c :: cs => if c = '\n' then ([c], cs) else (c :: (takeLine cs).1, (takeLine cs).2)

/-- Nothing is taken only from an empty text. -/
theorem takeLine_ne_nil {cs : List Char} (h : cs ≠ []) : (takeLine cs).1 ≠ [] := by
  fun_cases takeLine cs with
  | case1 => exact absurd rfl h
  | case2 | case3 => exact List.cons_ne_nil _ _

theorem eq_nil_of_takeLine {cs rest : List Char} (h : takeLine cs = ([], rest)) : cs = [] := by
  by_contra hne
  exact takeLine_ne_nil hne (congrArg Prod.fst h)

theorem ne_nil_of_takeLine {cs line rest : List Char} (h : takeLine cs = (line, rest))
    (hne : line ≠ []) : cs ≠ [] := by
  rintro rfl
  exact hne (congrArg Prod.fst h).symm

/-- The first line of a text is taken first. -/
theorem lines_eq_takeLine {cs : List Char} (h : cs ≠ []) :
    lines cs = (takeLine cs).1 :: lines (takeLine cs).2 := by
  induction cs with
  | nil => exact absurd rfl h
  | cons c cs ih =>
    rw [lines, takeLine]
    by_cases hc : c = '\n'
    · rw [if_pos hc, if_pos hc]
    · rw [if_neg hc, if_neg hc]
      cases cs with
      | nil => rfl
      | cons d ds => rw [ih (List.cons_ne_nil d ds)]

/-- The first line of a text that ends a line does not go on behind it. -/
theorem takeLine_append {cs : List Char} (h : EndsLine cs) (hne : cs ≠ []) (ds : List Char) :
    takeLine (cs ++ ds) = ((takeLine cs).1, (takeLine cs).2 ++ ds) := by
  induction cs with
  | nil => exact absurd rfl hne
  | cons c cs ih =>
    rw [List.cons_append, takeLine, takeLine]
    by_cases hc : c = '\n'
    · rw [if_pos hc, if_pos hc]
    · have hcs : cs ≠ [] := by
        rintro rfl
        exact hc (h c rfl)
      rw [if_neg hc, if_neg hc, ih h.of_cons hcs]

/-- What is behind the first line ends a line if the text does. -/
theorem EndsLine.takeLine {cs : List Char} (h : EndsLine cs) : EndsLine (takeLine cs).2 := by
  induction cs with
  | nil => exact h
  | cons c cs ih =>
    rw [Text.takeLine]
    split
    · exact h.of_cons
    · exact ih h.of_cons

/-- Behind nothing and behind a line feed a line begins. -/
theorem endsLine_toList {x : String} (hx : x = "" ∨ ∃ front, x = front ++ "\n") :
    EndsLine x.toList := by
  rcases hx with rfl | ⟨front, rfl⟩
  · exact endsLine_nil
  · rw [String.toList_append]
    exact endsLine_concat front.toList

theorem linesOf_eq_takeLine {cs : List Char} (h : cs ≠ []) :
    linesOf cs = String.ofList (takeLine cs).1 :: linesOf (takeLine cs).2 := by
  rw [linesOf, lines_eq_takeLine h]
  rfl

theorem length_linesOf_takeLine {cs : List Char} (h : cs ≠ []) :
    (linesOf cs).length = (linesOf (takeLine cs).2).length + 1 := by
  rw [linesOf_eq_takeLine h, List.length_cons]

end Text

/-- The session that lines leave. -/
def Session.after (session : Session) (lines : List String) : Session :=
  lines.foldl (fun session line => (session.enter line).session) session

/-! ### Turns -/

/-- A part of what is written in a dialogue. -/
inductive Passage where
  /-- What is said once at the beginning. -/
  | banner
  /-- A line is asked for. -/
  | prompt
  /-- What became of a statement, and how long reading it took. -/
  | result (outcome : Outcome) (parseTime : Nat)
  /-- The end. -/
  | closing

namespace Passage

/-- Whether a line is asked for. -/
def isPrompt : Passage → Bool
  | prompt => true
  | _ => false

/-- What is written. -/
def write (display : Display) : Passage → String
  | banner => display.banner
  | prompt => display.prompt
  | result outcome parseTime => outcome.render display parseTime
  | closing => Dialogue.closing

/-- What is written for parts one after the other. -/
def writeAll (display : Display) (passages : List Passage) : String :=
  String.join (passages.map (write display))

theorem writeAll_append (display : Display) (passages more : List Passage) :
    writeAll display (passages ++ more) = writeAll display passages ++ writeAll display more := by
  rw [writeAll, List.map_append, String.join_append]
  rfl

theorem writeAll_singleton (display : Display) (passage : Passage) :
    writeAll display [passage] = passage.write display := String.empty_append

/-- What is written for outcomes, each with the time it took. -/
def results (outcomes : List Outcome) (times : List Nat) : List Passage :=
  List.zipWith result outcomes times

/-- What is replied to a line: its outcomes, and the next prompt. -/
def reply (outcomes : List Outcome) (times : List Nat) : List Passage :=
  results outcomes times ++ [prompt]

theorem map_write_results {display : Display} (htiming : display.timing = false)
    {outcomes : List Outcome} {times : List Nat} (h : times.length = outcomes.length) :
    (results outcomes times).map (write display) = outcomes.map (Outcome.render display 0) := by
  induction outcomes generalizing times with
  | nil => rfl
  | cons o outcomes ih =>
    obtain ⟨time, times, rfl⟩ := List.exists_cons_of_length_eq_add_one h
    rw [results, List.zipWith_cons_cons, List.map_cons, List.map_cons]
    exact congr (congrArg List.cons (o.render_of_not_timing htiming time)) (ih (Nat.succ.inj h))

/-- Without timings what is written for outcomes does not depend on the times. -/
theorem writeAll_results {display : Display} (htiming : display.timing = false)
    {outcomes : List Outcome} {times : List Nat} (h : times.length = outcomes.length) :
    writeAll display (results outcomes times) = Dialogue.answer display 0 outcomes := by
  rw [writeAll, map_write_results htiming h]
  rfl

theorem writeAll_reply {display : Display} (htiming : display.timing = false)
    {outcomes : List Outcome} {times : List Nat} (h : times.length = outcomes.length) :
    writeAll display (reply outcomes times) = Dialogue.reply display 0 outcomes := by
  rw [reply, writeAll_append, writeAll_singleton, writeAll_results htiming h]
  rfl

/-- In a reply one line is asked for. -/
theorem countP_isPrompt_reply (outcomes : List Outcome) (times : List Nat) :
    (reply outcomes times).countP isPrompt = 1 := by
  have hnone : (results outcomes times).countP isPrompt = 0 := by
    induction outcomes generalizing times with
    | nil => rfl
    | cons o outcomes ih =>
      cases times with
      | nil => rfl
      | cons time times => exact ih times
  rw [reply, List.countP_append, hnone]
  rfl

end Passage

/-- A dialogue in progress. -/
structure Talk where
  /-- What is entered and has not been read. -/
  unread : List Char
  /-- The session as it is now. -/
  session : Session
  /-- What has been written. -/
  passages : List Passage
  /-- How the process has ended, if it has. -/
  ending : Option Ending

namespace Talk

/-- The dialogue when the first line is asked for. -/
def start (input : String) : Talk := ⟨input.toList, .empty, [.banner, .prompt], none⟩

/-- One turn of a dialogue: a line is read, or nothing is if there is nothing left.  A line that
there is no room for kills the process, and is the last one.  How long reading the statements of the
line takes is not settled. -/
inductive Step (room : Room) (display : Display) : Talk → Talk → Prop
  | answer {unread line rest : List Char} {session next : Session} {passages : List Passage}
      {outcomes : List Outcome} {times : List Nat} :
      Text.takeLine unread = (line, rest) → line ≠ [] →
      session.answer room display (String.ofList line) = ⟨outcomes, some next⟩ →
      times.length = outcomes.length →
      Step room display ⟨unread, session, passages, none⟩
        ⟨rest, next, passages ++ Passage.reply outcomes times, none⟩
  | kill {unread line rest : List Char} {session : Session} {passages : List Passage}
      {outcomes : List Outcome} {times : List Nat} :
      Text.takeLine unread = (line, rest) → line ≠ [] →
      session.answer room display (String.ofList line) = ⟨outcomes, none⟩ →
      times.length = outcomes.length →
      Step room display ⟨unread, session, passages, none⟩
        ⟨rest, session, passages ++ Passage.results outcomes times, some .killed⟩
  | close {unread rest : List Char} {session : Session} {passages : List Passage} :
      Text.takeLine unread = ([], rest) →
      Step room display ⟨unread, session, passages, none⟩
        ⟨rest, session, passages ++ [.closing], some (.exit 0)⟩

/-- Turns one after the other. -/
def Reaches (room : Room) (display : Display) : Talk → Talk → Prop :=
  Relation.ReflTransGen (Step room display)

/-- What has been written. -/
def written (t : Talk) (display : Display) : String := Passage.writeAll display t.passages

/-- What is going to be written, and how the process is going to end. -/
def toCome (t : Talk) (room : Room) (display : Display) : Run :=
  match t.ending with
  | none => Dialogue.goOn room display (Text.linesOf t.unread) t.session
  | some ending => ⟨"", ending⟩

/-- How often a line has been asked for. -/
def prompts (t : Talk) : Nat := t.passages.countP Passage.isPrompt

/-- How many turns there can still be. -/
def turnsLeft (t : Talk) : Nat :=
  if t.ending.isSome then 0 else (Text.linesOf t.unread).length + 1

/-- What a dialogue has written and will write is all that its run leaves behind; and unless it has
been killed, it has asked for a line once for every line that it has read, and once more. -/
structure OnTrack (room : Room) (display : Display) (input : String) (t : Talk) : Prop where
  run : (t.toCome room display).behind (t.written display) =
    (Command.converse display).runWithin room input
  prompts : t.ending ≠ some .killed →
    t.prompts + (Text.linesOf t.unread).length = (Text.linesOf input.toList).length + 1
  ending : ∀ ending, t.ending = some ending →
    ending = .killed ∨ ending = .exit 0 ∧ t.unread = []

variable {room : Room} {t t' : Talk} {display : Display} {input : String}

theorem onTrack_start (room : Room) (display : Display) (input : String) :
    OnTrack room display input (start input) where
  run := by
    have hopening : (start input).written display = Dialogue.opening display :=
      congrArg (· ++ display.prompt) String.empty_append
    rw [hopening]
    rfl
  prompts _ := Nat.add_comm _ _
  ending := nofun

/-- A turn does not change what is written in all. -/
theorem Step.onTrack (h : Step room display t t') (htiming : display.timing = false)
    (ht : OnTrack room display input t) : OnTrack room display input t' := by
  obtain ⟨hrun, hprompts, -⟩ := ht
  have halive : (none : Option Ending) ≠ some .killed := (Option.some_ne_none _).symm
  cases h with
  | @answer unread line rest session next passages outcomes times hline hne hanswer htimes =>
    have hlines := Text.linesOf_eq_takeLine (Text.ne_nil_of_takeLine hline hne)
    rw [hline] at hlines
    refine ⟨?_, fun _ => ?_, ?_⟩
    · rw [← hrun]
      simp only [written, toCome, hlines, Dialogue.goOn, hanswer, Passage.writeAll_append,
        Passage.writeAll_reply htiming htimes, Run.behind_behind]
    · rw [← hprompts halive]
      simp only [prompts, hlines, List.countP_append, Passage.countP_isPrompt_reply,
        List.length_cons]
      omega
    · rintro ending ⟨⟩
  | @kill unread line rest session passages outcomes times hline hne hanswer htimes =>
    have hlines := Text.linesOf_eq_takeLine (Text.ne_nil_of_takeLine hline hne)
    rw [hline] at hlines
    refine ⟨?_, fun hother => absurd rfl hother, ?_⟩
    · rw [← hrun]
      simp only [written, toCome, hlines, Dialogue.goOn, hanswer, Passage.writeAll_append,
        Passage.writeAll_results htiming htimes, Run.behind, String.append_empty]
    · rintro ending ⟨⟩
      exact .inl rfl
  | @close unread rest session passages hline =>
    obtain rfl := Text.eq_nil_of_takeLine hline
    cases hline
    refine ⟨?_, fun _ => ?_, ?_⟩
    · rw [← hrun]
      simp only [written, toCome, Passage.writeAll_append, Passage.writeAll_singleton, Run.behind,
        String.append_empty]
      rfl
    · rw [← hprompts halive]
      exact congrArg (· + 0) (List.countP_append ..)
    · rintro ending ⟨⟩
      exact .inr ⟨rfl, rfl⟩

/-- At its end a dialogue has written all that its run leaves behind.  It has been killed, or it has
asked for every line and once more. -/
theorem OnTrack.of_ended (ht : OnTrack room display input t) {ending : Ending}
    (hending : t.ending = some ending) :
    (Command.converse display).runWithin room input = ⟨t.written display, ending⟩ ∧
      (ending = .killed ∨
        ending = .exit 0 ∧ t.prompts = (Text.linesOf input.toList).length + 1) := by
  have hrun := ht.run
  rw [toCome, hending] at hrun
  refine ⟨?_, ?_⟩
  · rw [← hrun, Run.behind, String.append_empty]
  · rcases ht.ending ending hending with rfl | ⟨rfl, hunread⟩
    · exact .inl rfl
    · have hprompts := ht.prompts (by simp [hending])
      rw [hunread] at hprompts
      exact .inr ⟨rfl, hprompts⟩

/-- Every turn is at least one turn less to be. -/
theorem Step.turnsLeft_lt (h : Step room display t t') : t'.turnsLeft < t.turnsLeft := by
  cases h with
  | @answer unread line rest session next passages outcomes times hline hne hanswer htimes =>
    have hlength := Text.length_linesOf_takeLine (Text.ne_nil_of_takeLine hline hne)
    rw [hline] at hlength
    exact Nat.succ_lt_succ (hlength ▸ Nat.lt_succ_self _)
  | kill | close => exact Nat.succ_pos _

/-- No dialogue goes on for ever. -/
theorem wellFounded_step (room : Room) (display : Display) :
    WellFounded fun t' t => Step room display t t' :=
  Subrelation.wf Step.turnsLeft_lt (measure turnsLeft).wf

/-- Whatever has been entered, a dialogue that is not over goes on. -/
theorem exists_step (room : Room) (display : Display) (h : t.ending = none) :
    ∃ t', Step room display t t' := by
  obtain ⟨unread, session, passages, ending⟩ := t
  cases h
  by_cases hline : (Text.takeLine unread).1 = []
  · exact ⟨_, .close (Prod.ext hline rfl)⟩
  · rcases hanswer : session.answer room display (String.ofList (Text.takeLine unread).1) with
      ⟨outcomes, _ | next⟩
    · exact ⟨_, .kill rfl hline hanswer (List.length_replicate (a := 0))⟩
    · exact ⟨_, .answer rfl hline hanswer (List.length_replicate (a := 0))⟩

/-- Every dialogue comes to an end. -/
theorem exists_ended (room : Room) (display : Display) (t : Talk) :
    ∃ t', Reaches room display t t' ∧ t'.ending ≠ none := by
  induction t using (wellFounded_step room display).induction with
  | _ t ih =>
    cases hending : t.ending with
    | some ending => exact ⟨t, .refl, by rw [hending]; exact Option.some_ne_none ending⟩
    | none =>
      obtain ⟨t', hstep⟩ := exists_step room display hending
      obtain ⟨last, hreaches, hlast⟩ := ih t' hstep
      exact ⟨last, .head hstep hreaches, hlast⟩

theorem Reaches.onTrack (h : Reaches room display (start input) t)
    (htiming : display.timing = false) : OnTrack room display input t := by
  induction h with
  | refl => exact onTrack_start room display input
  | tail _ hstep ih => exact hstep.onTrack htiming ih

/-- Lines that do not kill the process are answered in the same way whatever follows them. -/
theorem reaches_behind {cs : List Char} (h : Text.EndsLine cs) {session : Session}
    (halive : (Dialogue.goOn room display (Text.linesOf cs) session).ending ≠ .killed) :
    ∃ more, ∀ (behind : List Char) (passages : List Passage),
      Reaches room display ⟨cs ++ behind, session, passages, none⟩
        ⟨behind, session.after (Text.linesOf cs), passages ++ more, none⟩ := by
  induction hlen : (Text.linesOf cs).length generalizing cs session with
  | zero =>
    have hlines : Text.lines cs = [] := List.map_eq_nil_iff.1 (List.eq_nil_of_length_eq_zero hlen)
    obtain rfl := Text.eq_nil_of_lines_eq_nil hlines
    exact ⟨[], fun behind passages => by rw [List.append_nil]; exact .refl⟩
  | succ n ih =>
    have hne : cs ≠ [] := by
      rintro rfl
      cases hlen
    have hlength := Text.length_linesOf_takeLine hne
    have hlines := Text.linesOf_eq_takeLine hne
    rcases hanswer : session.answer room display (String.ofList (Text.takeLine cs).1) with
      ⟨outcomes, _ | next⟩
    · rw [hlines, Dialogue.goOn, hanswer] at halive
      exact absurd rfl halive
    -- the first line is answered, and the others after it
    · rw [hlines, Dialogue.goOn, hanswer] at halive
      obtain ⟨-, rfl⟩ := Session.eq_of_answer hanswer
      let first := Passage.reply outcomes (List.replicate outcomes.length 0)
      obtain ⟨more, hreaches⟩ := ih h.takeLine halive (by omega)
      refine ⟨first ++ more, fun behind passages => ?_⟩
      have hstep : Step room display ⟨cs ++ behind, session, passages, none⟩
          ⟨(Text.takeLine cs).2 ++ behind, _, passages ++ first, none⟩ :=
        .answer (Text.takeLine_append h hne behind) (Text.takeLine_ne_nil hne) hanswer
          List.length_replicate
      have hlater := hreaches behind (passages ++ first)
      rw [List.append_assoc] at hlater
      rw [hlines]
      exact .head hstep hlater

/-- A dialogue that a text does not kill comes to the end of it, if a line begins behind it, having
written the same whatever is entered there. -/
theorem exists_reaches_behind {x : String} (hx : Text.EndsLine x.toList)
    (halive : ((Command.converse display).runWithin room x).ending ≠ .killed) :
    ∃ passages, ∀ y : String, Reaches room display (start (x ++ y))
      ⟨y.toList, Session.empty.after (Text.linesOf x.toList), passages, none⟩ := by
  obtain ⟨more, hreaches⟩ := reaches_behind hx halive
  refine ⟨[.banner, .prompt] ++ more, fun y => ?_⟩
  rw [start, String.toList_append]
  exact hreaches y.toList [.banner, .prompt]

end Talk

/-- Flags that have not been given yet ask for what they ask for, in any order. -/
theorem Request.take_of_flags {arguments : List String}
    (hflags : ∀ a ∈ arguments, a ∈ ["--show-ast", "--debug-info", "--no-color"])
    (hnodup : arguments.Nodup) {r : Request} (hline : r.line = none)
    (htree : r.display.tree = true → "--show-ast" ∉ arguments)
    (htiming : r.display.timing = true → "--debug-info" ∉ arguments)
    (hcolours : r.display.coloured = false → "--no-color" ∉ arguments) :
    r.take arguments = .converse ⟨r.display.tree || "--show-ast" ∈ arguments,
      r.display.timing || "--debug-info" ∈ arguments,
      r.display.coloured && "--no-color" ∉ arguments⟩ := by
  have hshowTree : Argument.ofString "--show-ast" = .showTree := by decide
  have hshowTiming : Argument.ofString "--debug-info" = .showTiming := by decide
  have hnoColours : Argument.ofString "--no-color" = .noColours := by decide
  obtain ⟨⟨tree, timing, coloured⟩, line⟩ := r
  cases hline
  induction arguments generalizing tree timing coloured with
  | nil => simp [take, command]
  | cons a arguments ih =>
    obtain ⟨hfirst, hrest⟩ := List.forall_mem_cons.1 hflags
    obtain ⟨hnew, hapart⟩ := List.nodup_cons.1 hnodup
    simp only [List.mem_cons, not_or] at htree htiming hcolours
    simp only [List.mem_cons, List.not_mem_nil, or_false] at hfirst
    rcases hfirst with rfl | rfl | rfl
    · obtain rfl : tree = false := Bool.eq_false_iff.2 fun h => (htree h).1 rfl
      simp [take, hshowTree, ih hrest hapart true timing coloured (fun _ => hnew)
        (fun h => (htiming h).2) fun h => (hcolours h).2]
    · obtain rfl : timing = false := Bool.eq_false_iff.2 fun h => (htiming h).1 rfl
      simp [take, hshowTiming, ih hrest hapart tree true coloured (fun h => (htree h).2)
        (fun _ => hnew) fun h => (hcolours h).2]
    · obtain rfl : coloured = true := Bool.of_not_eq_false fun h => (hcolours h).1 rfl
      simp [take, hnoColours, ih hrest hapart tree timing false (fun h => (htree h).2)
        (fun h => (htiming h).2) fun _ => hnew]

namespace Command

/-- Flags may come in any order, but none of them twice. -/
theorem ofArguments_of_flags {arguments : List String}
    (hflags : ∀ a ∈ arguments, a ∈ ["--show-ast", "--debug-info", "--no-color"])
    (hnodup : arguments.Nodup) :
    ofArguments arguments = .converse
      ⟨"--show-ast" ∈ arguments, "--debug-info" ∈ arguments, "--no-color" ∉ arguments⟩ :=
  Request.take_of_flags hflags hnodup rfl nofun nofun nofun

/-- Without the flag that asks for timings there are none. -/
theorem ofArguments_of_untimed_flags {arguments : List String}
    (hflags : ∀ a ∈ arguments, a ∈ ["--show-ast", "--no-color"]) (hnodup : arguments.Nodup) :
    ofArguments arguments = .converse
      ⟨"--show-ast" ∈ arguments, false, "--no-color" ∉ arguments⟩ := by
  have htiming : "--debug-info" ∉ arguments := fun h => absurd (hflags _ h) (by decide)
  have hmore : ["--show-ast", "--no-color"] ⊆ ["--show-ast", "--debug-info", "--no-color"] := by
    decide
  rw [ofArguments_of_flags (fun a ha => hmore (hflags a ha)) hnodup, decide_eq_false htiming]

/-- What is entered behind a text that kills the process makes no difference. -/
theorem runWithin_append_of_killed {room : Room} {display : Display} {x : String}
    (hx : Text.EndsLine x.toList)
    (hkilled : ((converse display).runWithin room x).ending = .killed) (y : String) :
    (converse display).runWithin room (x ++ y) = (converse display).runWithin room x := by
  have hlines : Text.linesOf (x ++ y).toList = Text.linesOf x.toList ++ Text.linesOf y.toList := by
    rw [Text.linesOf, String.toList_append, Text.lines_append hx, List.map_append]
    rfl
  rw [runWithin, runWithin, hlines, Dialogue.goOn_append_of_killed hkilled]

/-- **What has been written depends on the lines before alone.**  Let there be any room, let trees
and colours be asked for or not, and let `x` be a text behind which a line begins.

If `x` kills the process, then what is entered behind it makes no difference.  Otherwise what is
written if `x` is entered is what has been written when all of `x` has been read, and a line feed;
and if `y` is entered behind `x`, the same has been written by then, and the dialogue goes on from
the session that `x` has left.  If there is room for the lines of `y`, what follows are the replies
to them in this session, each line's outcomes and a prompt, and a line feed.

Whatever is entered, what is written is the beginning of what would be written without a bound, and
all of it if there is room for every line.  The dialogue comes to an end, and then it has written
what is to be written.  Unless it has been killed, the exit code is zero, and there has been one
prompt for every line and one more. -/
theorem runWithin_causal (room : Room) {arguments : List String}
    (hflags : ∀ a ∈ arguments, a ∈ ["--show-ast", "--no-color"]) (hnodup : arguments.Nodup)
    {x : String} (hx : x = "" ∨ ∃ front, x = front ++ "\n") :
    let display : Display := ⟨"--show-ast" ∈ arguments, false, "--no-color" ∉ arguments⟩
    let left := Session.empty.after (Text.linesOf x.toList)
    let run := fun input : String => (ofArguments arguments).runWithin room input
    ((run x).ending = .killed ∧ (∀ y : String, run (x ++ y) = run x) ∨
      ∃ passages, run x = ⟨Passage.writeAll display passages ++ "\n", .exit 0⟩ ∧
        ∀ y : String,
          Talk.Reaches room display (.start (x ++ y)) ⟨y.toList, left, passages, none⟩ ∧
          run (x ++ y) = (Dialogue.goOn room display (Text.linesOf y.toList) left).behind
            (Passage.writeAll display passages) ∧
          ((∀ line ∈ Text.linesOf y.toList, room.Holds display line) →
            run (x ++ y) = ⟨Passage.writeAll display passages ++
              Dialogue.replies display (Text.linesOf y.toList) left ++ "\n", .exit 0⟩)) ∧
    ∀ input : String,
      ((∀ line ∈ Text.linesOf input.toList, room.Holds display line) →
        run input = ⟨((ofArguments arguments).run input).output, .exit 0⟩) ∧
      (∃ more, ((ofArguments arguments).run input).output = (run input).output ++ more) ∧
      (∃ t, Talk.Reaches room display (.start input) t ∧ t.ending ≠ none) ∧
      Acc (fun t' t => Talk.Step room display t t') (.start input) ∧
      ∀ t, Talk.Reaches room display (.start input) t →
        (t.ending = none → ∃ t', Talk.Step room display t t') ∧
        ∀ ending, t.ending = some ending → run input = ⟨t.written display, ending⟩ ∧
          (ending = .killed ∨
            ending = .exit 0 ∧ t.prompts = (Text.linesOf input.toList).length + 1) := by
  intro display left run
  have hcommand : ofArguments arguments = converse display :=
    ofArguments_of_untimed_flags hflags hnodup
  have hrun : ∀ input, run input = (converse display).runWithin room input :=
    fun input => congrArg (runWithin room input) hcommand
  have hends := Text.endsLine_toList hx
  refine ⟨?_, fun input => ⟨fun hroom => ?_, exists_runWithin_append room input _,
    Talk.exists_ended room display _, (Talk.wellFounded_step room display).apply _, fun t ht =>
      ⟨Talk.exists_step room display, fun ending hending => ?_⟩⟩⟩
  · by_cases hkilled : ((converse display).runWithin room x).ending = .killed
    · refine .inl ⟨by rw [hrun, hkilled], fun y => ?_⟩
      rw [hrun, hrun]
      exact runWithin_append_of_killed hends hkilled y
    · obtain ⟨passages, hreaches⟩ := Talk.exists_reaches_behind hends hkilled
      have hbehind : ∀ y : String, run (x ++ y) =
          (Dialogue.goOn room display (Text.linesOf y.toList) left).behind
            (Passage.writeAll display passages) := by
        intro y
        have htrack : Talk.OnTrack room display (x ++ y) _ := (hreaches y).onTrack rfl
        rw [hrun]
        exact htrack.run.symm
      refine .inr ⟨passages, ?_, fun y => ⟨hreaches y, hbehind y, fun hroom => ?_⟩⟩
      · -- nothing behind `x` is a text behind it as well
        rw [← String.append_empty (s := x)]
        exact hbehind ""
      · rw [hbehind, Dialogue.goOn_of_holds hroom, Run.behind, ← String.append_assoc]
        rfl
  · have hheld : (converse display).HeldBy room input := hroom
    rw [hrun, runWithin_of_heldBy hheld, hcommand]
    rfl
  · have htrack : Talk.OnTrack room display input t := ht.onTrack rfl
    rw [hrun]
    exact htrack.of_ended hending

/-- A name that is not declared is reported, and the next line is asked for.  Where there is room
for a single evaluation, a sum kills the process, and what is entered behind it is not read. -/
theorem runWithin_causal_names :
    let run := fun (levels : Nat) (input : String) =>
      (ofArguments ["--no-color"]).runWithin (.uniform levels) input
    let shown := "kaleido - enter statements to evaluate (Ctrl+D to exit)\n> 1\n> "
    (run 20 "let a = 1\n" = ⟨shown ++ "\n", .exit 0⟩ ∧
      run 20 ("let a = 1\n" ++ "a + 1; b") =
        ⟨shown ++ "2\nError: Undefined variable 'b' at line 1\n> " ++ "\n", .exit 0⟩) ∧
    (run 1 "1\n1 + 1\n" = ⟨shown, .killed⟩ ∧
      run 1 ("1\n1 + 1\n" ++ "a + 1; b") = ⟨shown, .killed⟩) := by
  intro run shown
  have hflags : ∀ a ∈ ["--no-color"], a ∈ ["--show-ast", "--no-color"] := by decide
  constructor
  · have hbefore : run 20 "let a = 1\n" = ⟨shown ++ "\n", .exit 0⟩ := by decide +kernel
    have hreplies : Dialogue.replies ⟨false, false, false⟩ (Text.linesOf "a + 1; b".toList)
        (Session.empty.after (Text.linesOf "let a = 1\n".toList)) =
          "2\nError: Undefined variable 'b' at line 1\n> " := by decide +kernel
    have hroom : ∀ line ∈ Text.linesOf "a + 1; b".toList,
        (Room.uniform 20).Holds ⟨false, false, false⟩ line := by
      have hlines : Text.linesOf "a + 1; b".toList = ["a + 1; b"] := by decide +kernel
      rw [hlines]
      refine List.forall_mem_singleton.2 (Room.holds_of_length_le ?_ ?_ ?_) <;> decide
    rcases (runWithin_causal (.uniform 20) hflags (by decide)
      (x := "let a = 1\n") (.inr ⟨"let a = 1", rfl⟩)).1 with ⟨hkilled, -⟩ | ⟨passages, hx, hy⟩
    · exact absurd ((congrArg Run.ending hbefore).symm.trans hkilled) nofun
    · have hshown := (String.append_left_inj "\n").1 (congrArg Run.output (hx.symm.trans hbefore))
      have hbehind := (hy "a + 1; b").2.2 hroom
      rw [hshown] at hbehind
      refine ⟨hbefore, hbehind.trans ?_⟩
      exact congrArg (fun replies => Run.mk (shown ++ replies ++ "\n") (.exit 0)) hreplies
  · have hbefore : run 1 "1\n1 + 1\n" = ⟨shown, .killed⟩ := by decide +kernel
    rcases (runWithin_causal (.uniform 1) hflags (by decide)
      (x := "1\n1 + 1\n") (.inr ⟨"1\n1 + 1", rfl⟩)).1 with ⟨-, hbehind⟩ | ⟨passages, hx, -⟩
    · exact ⟨hbefore, (hbehind "a + 1; b").trans hbefore⟩
    · exact absurd ((congrArg Run.ending hx).symm.trans (congrArg Run.ending hbefore)) nofun

end Command

end Reckoner
