import Reckoner.Proofs.Diagnostics
import Reckoner.Proofs.LastLineFeed
import Reckoner.Proofs.NumberText

/-!
# What is written for a line

Whatever is entered, a value or a message takes up one line of what is written, and so does a
timing.  Messages quote what was entered, but only words of it, and no blank stands in a word; so
there is no line feed in a message but the one behind it.  Only trees take up more lines, and they
stand in front of everything else.

The same is said of any control character, as long as none of the words quoted has it: the texts of
the program itself have none, and numbers have none.

## Main definitions

* `Text.Lacks s c`, `Row.Lacks r c` — a character stands nowhere in a text, or in no word of a row.
* `Text.IsLine s` — a text with one line feed, at its end.
* `Outcome.lineCount`, `Outcome.treeText` — how many lines an outcome takes up, and the tree in
  front of them.

## Main results

* `Outcome.PointsInto.lacks` — what is shown for an outcome has no control character that the words
  of the line lack.
* `Session.enter_framed` — **no line that is entered breaks the lines that are written.**
-/

namespace Reckoner

/-! ### Texts without a character -/

namespace Text

/-- The character stands nowhere in the text. -/
def Lacks (s : String) (c : Char) : Prop := c ∉ s.toList

/-- No control character stands in the text. -/
def IsPlain (s : String) : Prop := ∀ d ∈ s.toList, 0x20 ≤ d.toNat

instance (s : String) (c : Char) : Decidable (Lacks s c) :=
  inferInstanceAs (Decidable (c ∉ s.toList))

instance (s : String) : Decidable (IsPlain s) :=
  decidable_of_iff (s.toList.all fun d => 0x20 ≤ d.toNat) (by simp [IsPlain])

variable {c : Char} {s t front found behind : String}

theorem lacks_append : Lacks (s ++ t) c ↔ Lacks s c ∧ Lacks t c := by
  rw [Lacks, String.toList_append, List.mem_append, not_or]
  rfl

theorem lacks_ofList {cs : List Char} : Lacks (String.ofList cs) c ↔ c ∉ cs := by
  rw [Lacks, String.toList_ofList]

theorem isPlain_append : IsPlain (s ++ t) ↔ IsPlain s ∧ IsPlain t := by
  rw [IsPlain, String.toList_append]
  exact List.forall_mem_append

theorem isPlain_ofList {cs : List Char} : IsPlain (String.ofList cs) ↔ ∀ d ∈ cs, 0x20 ≤ d.toNat := by
  rw [IsPlain, String.toList_ofList]

theorem IsPlain.lacks (h : IsPlain s) (hc : c.toNat < 0x20) : Lacks s c :=
  fun hmem => absurd hc (Nat.not_lt.2 (h c hmem))

/-- What is quoted decides. -/
theorem Lacks.around (h : Lacks found c) (hc : c.toNat < 0x20) (hfront : IsPlain front)
    (hbehind : IsPlain behind) : Lacks (front ++ found ++ behind) c :=
  lacks_append.2 ⟨lacks_append.2 ⟨hfront.lacks hc, h⟩, hbehind.lacks hc⟩

theorem isPlain_of_isDigit {d : Char} (h : d.isDigit = true) : 0x20 ≤ d.toNat := by
  obtain ⟨hlower, -⟩ := toNat_of_isDigit h
  omega

theorem isPlain_toString (n : Nat) : IsPlain (toString n) := by
  rw [Nat.toString_eq_repr, IsPlain, Nat.toList_repr]
  exact fun d hd => isPlain_of_isDigit (Nat.isDigit_of_mem_toDigits (by decide) (by decide) hd)

/-- Number texts are plain. -/
theorem isPlain_write {l : Decimal.Layout} (hwhole : Decimal.AllNumberChars l.wholeTail) (x : Float) :
    IsPlain (l.write x) := by
  intro d hd
  have hchar := Decimal.Layout.allNumberChars_write hwhole x d hd
  rw [Decimal.isNumberChar, Bool.or_eq_true] at hchar
  rcases hchar with hdigit | hother
  · exact isPlain_of_isDigit hdigit
  · have hall := List.forall_iff_forall_mem.1
      (by decide : ['-', '.', 'e', 'i', 'n', 'f', 'N', 'a'].Forall fun d => 0x20 ≤ d.toNat)
    exact hall d (List.contains_iff_mem.1 hother)

end Text

open Text

theorem Location.isPlain_describe (l : Location) : IsPlain l.describe := by
  show IsPlain ("line " ++ toString l.line ++ ", column " ++ toString l.column)
  simp only [isPlain_append]
  exact ⟨⟨⟨by decide, isPlain_toString _⟩, by decide⟩, isPlain_toString _⟩

theorem Expectation.isPlain_describe (expected : Expectation) : IsPlain expected.describe := by
  cases expected <;> decide

namespace Duration

theorem isPlain_inUnit {unit : String} (hunit : IsPlain unit) (ns places : Nat) :
    IsPlain (inUnit ns places unit) := by
  have hfraction : ∀ d ∈ fraction (ns % Nat.pow 10 places) places, 0x20 ≤ d.toNat := by
    intro d hd
    have hd := (List.dropWhile_sublist _).subset (List.mem_reverse.1 hd)
    rcases List.mem_append.1 (List.mem_reverse.1 hd) with hzero | hdigit
    · rw [List.eq_of_mem_replicate hzero]
      decide
    · exact isPlain_of_isDigit (Nat.isDigit_of_mem_toDigits (by decide) (by decide) hdigit)
  unfold inUnit
  dsimp only
  split
  · exact isPlain_append.2 ⟨isPlain_toString _, hunit⟩
  · simp only [isPlain_append]
    exact ⟨⟨⟨isPlain_toString _, by decide⟩, isPlain_ofList.2 hfraction⟩, hunit⟩

theorem isPlain_write (ns : Nat) : IsPlain (write ns) := by
  unfold write
  repeat' split
  all_goals exact isPlain_inUnit (by decide) _ _

end Duration

/-! ### Messages -/

section Control

variable {c : Char} {r : Row}

/-- The word can be spelled without the character. -/
def Lexeme.Avoids (w : Lexeme) (c : Char) : Prop := ∃ text, Spells text w ∧ c ∉ text

/-- The character stands in no word of the row. -/
def Row.Lacks (r : Row) (c : Char) : Prop := ∀ p ∈ r.pieces, c ∉ p.text

/-- The words of a row can be spelled as they are in the row. -/
theorem Row.Lacks.avoids (h : r.Lacks c) {before after : List Lexeme} {w : Lexeme} {l : Location}
    (hplace : r.places before w after l) : w.Avoids c ∧ ∀ v ∈ after, v.Avoids c := by
  obtain ⟨front, fs, p, ps, behind, hpieces, -, hspells, hafter, -⟩ := hplace
  rw [Row.Lacks, hpieces] at h
  have hboth : List.Forall₂ (fun q v => c ∉ q.text ∧ Spells q.text v) ps after :=
    (List.forall₂_and_left _ _).2 ⟨fun q hq => h q (by simp [hq]), hafter⟩
  have havoids : List.Forall₂ (fun v (_ : Piece) => v.Avoids c ∧ True) after ps :=
    hboth.flip.imp fun v q hq => ⟨⟨q.text, hq.2, hq.1⟩, trivial⟩
  exact ⟨⟨p.text, hspells, h p (by simp)⟩, ((List.forall₂_and_left _ _).1 havoids).1⟩

namespace Lexeme.Avoids

theorem lacks_name {name : String} (h : (Lexeme.identifier name).Avoids c) : Lacks name c := by
  obtain ⟨text, hspells, htext⟩ := h
  cases hspells with
  | identifier => exact lacks_ofList.2 htext

theorem lacks_operator {text : String} (h : (Lexeme.operator text).Avoids c) : Lacks text c := by
  obtain ⟨spelling, hspells, hspelling⟩ := h
  cases hspells with
  | equals | doubleEquals | arrow => exact hspelling
  | mark => rwa [Lacks, String.toList_singleton]

/-- A description quotes a word as it is spelled, or is the text of a number. -/
theorem lacks_describe {w : Lexeme} (h : w.Avoids c) (hc : c.toNat < 0x20) : Lacks w.describe c := by
  cases w with
  | identifier name => exact h.lacks_name.around hc (by decide) (by decide)
  | number value =>
    exact lacks_append.2 ⟨IsPlain.lacks (by decide) hc,
      (isPlain_write Decimal.Layout.allNumberChars_wholeTail_plain value).lacks hc⟩
  | operator text => exact h.lacks_operator.around hc (by decide) (by decide)
  | keyword word => cases word <;> exact IsPlain.lacks (by decide) hc

end Lexeme.Avoids

/-- What an error is about are words of the row. -/
theorem EvalError.PointsInto.lacks {e : EvalError} (h : e.PointsInto r.places) (hr : r.Lacks c)
    (hc : c.toNat < 0x20) : Lacks e.message c := by
  have hsubject : ∀ construct : Construct, Lacks construct.describe c →
      Lacks (construct.describe ++ " cannot be evaluated") c :=
    fun construct h => lacks_append.2 ⟨h, IsPlain.lacks (by decide) hc⟩
  have hsummary : Lacks e.summary c := by
    cases e with
    | undefinedVariable name l =>
      exact (hr.avoids h).1.lacks_name.around hc (by decide) (by decide)
    | duplicateDeclaration name l =>
      exact ((hr.avoids h).2 _ List.mem_cons_self).lacks_name.around hc (by decide) (by decide)
    | notEvaluable construct l =>
      refine hsubject construct ?_
      cases construct with
      | call callee =>
        exact (hr.avoids h.2).1.lacks_name.around hc (by decide) (by decide)
      | prototype name =>
        refine Lacks.around ?_ hc (by decide) (by decide)
        rcases h.2 with ⟨-, hplace⟩ | ⟨rfl, -⟩
        · exact (hr.avoids hplace).1.lacks_name
        · exact IsPlain.lacks (by decide) hc
      | function name =>
        rcases h with ⟨hdescribe, hplace⟩ | ⟨hdescribe, -⟩
        · show Lacks (EvalError.subject (.notEvaluable (.function name) l)) c
          rw [hdescribe]
          exact ((hr.avoids hplace).2 _ List.mem_cons_self).lacks_name.around hc (by decide)
            (by decide)
        · show Lacks (EvalError.subject (.notEvaluable (.function name) l)) c
          rw [hdescribe]
          exact IsPlain.lacks (by decide) hc
  show Lacks (e.summary ++ " at line " ++ toString e.location.line) c
  simp only [lacks_append]
  exact ⟨⟨hsummary, IsPlain.lacks (by decide) hc⟩, (isPlain_toString _).lacks hc⟩

/-- What an error has found is a word of the row, if it is not the end of it. -/
theorem ParseError.PointsInto.lacks {e : ParseError} (h : e.PointsInto r) (hr : r.Lacks c)
    (hc : c.toNat < 0x20) : Lacks e.describe c := by
  have hmessage : Lacks e.message c := by
    cases e with
    | malformedNumber e =>
      obtain ⟨before, p, behind, hpieces, -, -, hmessage, -⟩ := h
      rw [hmessage]
      refine lacks_append.2 ⟨IsPlain.lacks (by decide) hc, lacks_ofList.2 (hr p ?_)⟩
      simp [hpieces]
    | nestedTooDeeply l =>
      have hplain : IsPlain "Expression nested too deeply" := by decide
      exact hplain.lacks hc
    | unexpected found expected =>
      rcases h with ⟨w, hplace, hmessage | ⟨text, rfl, hmessage⟩⟩ | ⟨hmessage, -⟩
      · rw [hmessage]
        exact lacks_append.2 ⟨(expected.isPlain_describe.lacks hc).around hc (by decide)
          (by decide), (hr.avoids hplace).1.lacks_describe hc⟩
      · rw [hmessage]
        exact (hr.avoids hplace).1.lacks_operator.around hc (by decide) (by decide)
      · rw [hmessage]
        exact (expected.isPlain_describe.lacks hc).around hc (by decide) (by decide)
  show Lacks ("Parse error at " ++ e.location.describe ++ ": " ++ e.message) c
  simp only [lacks_append]
  exact ⟨⟨⟨IsPlain.lacks (by decide) hc, e.location.isPlain_describe.lacks hc⟩,
    IsPlain.lacks (by decide) hc⟩, hmessage⟩

/-- What is shown for an outcome has no control character that the words of the line lack, if no
tree is shown. -/
theorem Outcome.PointsInto.lacks {outcome : Outcome} (h : outcome.PointsInto r) (hr : r.Lacks c)
    (hc : c.toNat < 0x20) {display : Display} (htree : display.tree = false) {parseTime : Nat} :
    ∀ b ∈ outcome.blocks display parseTime, Lacks b.text c := by
  cases outcome with
  | evaluated statement result =>
    have htiming : ∀ b ∈ (if display.timing then
        [⟨.detail, "Parsed input in " ++ Duration.write parseTime⟩] else [] : List Block),
        Lacks b.text c := by
      intro b hb
      split at hb
      · obtain rfl := List.mem_singleton.1 hb
        exact lacks_append.2 ⟨IsPlain.lacks (by decide) hc,
          (Duration.isPlain_write parseTime).lacks hc⟩
      · cases hb
    have hresult : Lacks (resultBlock result).text c := by
      cases result with
      | ok value =>
        exact (isPlain_write Decimal.Layout.allNumberChars_wholeTail_plain value).lacks hc
      | error e =>
        exact lacks_append.2 ⟨IsPlain.lacks (by decide) hc, EvalError.PointsInto.lacks h hr hc⟩
    rw [blocks, htree]
    exact List.forall_mem_append.2 ⟨htiming, List.forall_mem_singleton.2 hresult⟩
  | syntaxError e =>
    exact List.forall_mem_singleton.2
      (lacks_append.2 ⟨IsPlain.lacks (by decide) hc, ParseError.PointsInto.lacks h hr hc⟩)

end Control

/-- A blank goes on with no word, so it stands in none. -/
theorem IsLexemeText.notMem_of_isBlank {text : List Char} (h : IsLexemeText text) {c : Char}
    (hblank : Text.isBlank c = true) : c ∉ text := by
  have hfirst : ∀ first : Char, Text.isBlank first = false → c ≠ first := by
    rintro first hfirst rfl
    rw [hfirst] at hblank
    cases hblank
  have hmore : ∀ {first : Char} {more : List Char} {p : Char → Bool},
      Text.isBlank first = false → (∀ d ∈ more, p d = true) → p c = false →
        c ∉ first :: more := by
    intro first more p hfront hall hc hmem
    rcases List.mem_cons.1 hmem with rfl | hmem
    · rw [hfront] at hblank
      cases hblank
    · rw [hall c hmem] at hc
      cases hc
  cases h with
  | word hword =>
    obtain ⟨first, more, rfl, hstarts, hall⟩ := hword
    refine hmore (isBlank_eq_false_of_startsWord hstarts) hall ?_
    have hgoes := goesOn_of_isBlank hblank [first]
    rwa [goesOn, if_pos hstarts] at hgoes
  | numeral hnumeral =>
    obtain ⟨first, more, rfl, hdigit, hall⟩ := hnumeral
    refine hmore (isBlank_eq_false_of_isDigit hdigit) hall ?_
    have hgoes := goesOn_of_isBlank hblank [first]
    rwa [goesOn, if_neg (Bool.eq_false_iff.1 (startsWord_eq_false_of_isDigit hdigit)),
      if_pos hdigit] at hgoes
  | equals => simpa using hfirst '=' rfl
  | doubleEquals => simpa using hfirst '=' rfl
  | arrow => simpa using ⟨hfirst '=' rfl, hfirst '>' rfl⟩
  | mark hmark =>
    refine mt List.mem_singleton.1 (hfirst _ ?_)
    simp only [isMark, Bool.and_eq_true, Bool.not_eq_true'] at hmark
    exact hmark.1.1.1.1

/-- No line feed stands in a word, nor any other blank. -/
theorem Row.IsWellSpaced.lacks {r : Row} (h : r.IsWellSpaced) {c : Char}
    (hblank : Text.isBlank c = true) : r.Lacks c :=
  fun p hp => (h.text p hp).notMem_of_isBlank hblank

/-! ### Lines -/

namespace Text

/-- The text has one line feed, at its end. -/
def IsLine (s : String) : Prop := ∃ front, s = front ++ "\n" ∧ Lacks front '\n'

variable {ss : List String}

theorem IsLine.lines_eq {s : String} (h : IsLine s) : lines s.toList = [s.toList] := by
  obtain ⟨front, rfl, hfront⟩ := h
  rw [String.toList_append]
  exact lines_append_lineFeed hfront

theorem IsLine.endsLine {s : String} (h : IsLine s) : EndsLine s.toList := by
  obtain ⟨front, rfl, -⟩ := h
  rw [String.toList_append]
  exact endsLine_concat front.toList

theorem IsLine.count_eq {s : String} (h : IsLine s) : s.toList.count '\n' = 1 := by
  obtain ⟨front, rfl, hfront⟩ := h
  rw [String.toList_append, List.count_append, List.count_eq_zero.2 hfront]
  rfl

/-- Lines one after the other are the lines of the whole. -/
theorem lines_join (h : ∀ s ∈ ss, IsLine s) :
    lines (String.join ss).toList = ss.map String.toList := by
  induction ss with
  | nil => rfl
  | cons s ss ih =>
    obtain ⟨hs, hss⟩ := List.forall_mem_cons.1 h
    rw [String.join_cons, String.toList_append, lines_append hs.endsLine, hs.lines_eq, ih hss]
    rfl

theorem count_join (h : ∀ s ∈ ss, IsLine s) : (String.join ss).toList.count '\n' = ss.length := by
  induction ss with
  | nil => rfl
  | cons s ss ih =>
    obtain ⟨hs, hss⟩ := List.forall_mem_cons.1 h
    rw [String.join_cons, String.toList_append, List.count_append, hs.count_eq, ih hss,
      List.length_cons, Nat.add_comm]

/-- Lines one after the other end with a line feed, if there are any. -/
theorem getLast?_join (h : ∀ s ∈ ss, IsLine s) (hne : ss ≠ []) :
    (String.join ss).toList.getLast? = some '\n' := by
  obtain ⟨ss, s, rfl⟩ := (List.eq_nil_or_concat ss).resolve_left hne
  rw [List.concat_eq_append] at h ⊢
  obtain ⟨front, rfl, -⟩ := h s (by simp)
  have hjoin : (String.join (ss ++ [front ++ "\n"])).toList =
      (String.join ss).toList ++ front.toList ++ ['\n'] := by
    simp [String.join_append, String.join_cons]
  rw [hjoin, List.getLast?_concat]

end Text

/-- A block without a line feed in its text is written as a line. -/
theorem Block.isLine_write {b : Block} (h : Lacks b.text '\n') (coloured : Bool) :
    IsLine (b.write coloured) := by
  refine ⟨paint coloured b.role b.text, rfl, ?_⟩
  have hswitch : Lacks b.role.switchOn '\n' := by cases b.role <;> decide
  cases coloured with
  | false => exact h
  | true => exact lacks_append.2 ⟨lacks_append.2 ⟨hswitch, h⟩, by decide⟩

namespace Outcome

/-- How many lines an outcome takes up, apart from its tree: one for its value or message, and one
for the timing of a statement that was read. -/
def lineCount (timing : Bool) : Outcome → Nat
  | evaluated .. => if timing then 2 else 1
  | syntaxError _ => 1

/-- The tree as it is written in front of the rest, if there is one. -/
def treeText (coloured : Bool) : Outcome → String
  | evaluated statement _ => Block.write coloured ⟨.detail, statement.dump⟩
  | syntaxError _ => ""

theorem length_blocks (outcome : Outcome) (timing coloured : Bool) (parseTime : Nat) :
    (outcome.blocks ⟨false, timing, coloured⟩ parseTime).length = outcome.lineCount timing := by
  cases outcome with
  | evaluated statement result => cases timing <;> rfl
  | syntaxError e => rfl

/-- The tree stands in front of all else, and changes nothing of it. -/
theorem render_tree (outcome : Outcome) (timing coloured : Bool) (parseTime : Nat) :
    outcome.render ⟨true, timing, coloured⟩ parseTime =
      outcome.treeText coloured ++ outcome.render ⟨false, timing, coloured⟩ parseTime := by
  cases outcome with
  | evaluated statement result => exact String.join_cons
  | syntaxError e => exact String.empty_append.symm

end Outcome

namespace Session

/-- Without trees, the blocks shown for an outcome of a line are lines. -/
theorem isLine_of_mem_blocks {session : Session} {line : String} {outcome : Outcome}
    (h : outcome ∈ (session.enter line).outcomes) (timing coloured : Bool) (parseTime : Nat) :
    ∀ s ∈ (outcome.blocks ⟨false, timing, coloured⟩ parseTime).map (Block.write coloured),
      IsLine s := by
  obtain ⟨r, hwell, hchars⟩ := exists_row line.toList
  intro s hs
  obtain ⟨b, hb, rfl⟩ := List.mem_map.1 hs
  refine Block.isLine_write ?_ coloured
  exact (pointsInto_of_mem_outcomes hwell hchars h).lacks (hwell.lacks rfl) (by decide) rfl b hb

/-- If neither trees nor timings are shown, an outcome of a line is written as a line. -/
theorem isLine_render {session : Session} {line : String} {outcome : Outcome}
    (h : outcome ∈ (session.enter line).outcomes) (coloured : Bool) (parseTime : Nat) :
    IsLine (outcome.render ⟨false, false, coloured⟩ parseTime) := by
  have hlines := isLine_of_mem_blocks h false coloured parseTime
  have hlength : (outcome.blocks ⟨false, false, coloured⟩ parseTime).length = 1 := by
    rw [outcome.length_blocks]
    cases outcome <;> rfl
  obtain ⟨b, hb⟩ := List.length_eq_one_iff.1 hlength
  rw [hb] at hlines
  have hrender : outcome.render ⟨false, false, coloured⟩ parseTime = b.write coloured := by
    rw [Outcome.render, hb]
    exact String.empty_append
  rw [hrender]
  exact hlines _ List.mem_cons_self

theorem count_prompt (coloured : Bool) :
    (Display.prompt ⟨false, false, coloured⟩).toList.count '\n' = 0 := by
  cases coloured <;> decide

theorem count_banner (coloured : Bool) :
    (Display.banner ⟨false, false, coloured⟩).toList.count '\n' = 1 := by
  cases coloured <;> decide

/-- What is replied has a line for every outcome; the prompt behind them is on the next one. -/
theorem count_replies (coloured : Bool) (lines : List String) (session : Session) :
    (Dialogue.replies ⟨false, false, coloured⟩ lines session).toList.count '\n' =
      ((session.enterAll lines).flatMap Report.outcomes).length := by
  induction lines generalizing session with
  | nil => rfl
  | cons line lines ih =>
    have hanswer := count_join (List.forall_mem_map.2 fun outcome
      (houtcome : outcome ∈ (session.enter line).outcomes) => isLine_render houtcome coloured 0)
    rw [Dialogue.replies_cons, String.toList_append, List.count_append, ih, Dialogue.reply,
      String.toList_append, List.count_append, Dialogue.answer, hanswer, List.length_map,
      count_prompt, enterAll, List.flatMap_cons, List.length_append]
    rfl

/-- **No line that is entered breaks the lines that are written.**  Whatever is entered in whatever
session, an outcome is written without its tree as one line, or as two if it has a timing; and with
its tree as the same text, with the tree in front of it.  So if neither trees nor timings are shown,
the lines of an answer are its outcomes, and a dialogue has as many lines as there were statements,
besides the opening line and the one it ends on. -/
theorem enter_framed :
    (∀ (session : Session) (line : String), ∀ outcome ∈ (session.enter line).outcomes,
      ∀ (timing coloured : Bool) (parseTime : Nat),
        let text := outcome.render ⟨false, timing, coloured⟩ parseTime
        text.toList.count '\n' = outcome.lineCount timing ∧
          text.toList.getLast? = some '\n' ∧
          outcome.render ⟨true, timing, coloured⟩ parseTime = outcome.treeText coloured ++ text) ∧
    (∀ (session : Session) (line : String) (coloured : Bool) (parseTime : Nat),
      Text.lines (Dialogue.answer ⟨false, false, coloured⟩ parseTime
          (session.enter line).outcomes).toList =
        (session.enter line).outcomes.map fun outcome =>
          (outcome.render ⟨false, false, coloured⟩ parseTime).toList) ∧
    ∀ (coloured : Bool) (input : String),
      let reports := Session.empty.enterAll ((Text.lines input.toList).map String.ofList)
      (Dialogue.transcript ⟨false, false, coloured⟩ input).toList.count '\n' =
        1 + (reports.flatMap Report.outcomes).length + 1 := by
  refine ⟨fun session line outcome houtcome timing coloured parseTime => ?_,
    fun session line coloured parseTime => ?_, fun coloured input => ?_⟩
  · have hlines := isLine_of_mem_blocks houtcome timing coloured parseTime
    have hlength := outcome.length_blocks timing coloured parseTime
    rw [← List.length_map (Block.write coloured)] at hlength
    refine ⟨(count_join hlines).trans hlength, getLast?_join hlines ?_,
      outcome.render_tree timing coloured parseTime⟩
    refine List.ne_nil_of_length_pos (hlength ▸ ?_)
    cases outcome <;> cases timing <;> exact Nat.succ_pos _
  · rw [Dialogue.answer, lines_join, List.map_map]
    · rfl
    · exact List.forall_mem_map.2 fun outcome houtcome => isLine_render houtcome coloured parseTime
  · simp only [Dialogue.transcript, Dialogue.opening, String.toList_append, List.count_append,
      count_banner, count_prompt, count_replies]
    rfl

end Session

end Reckoner
