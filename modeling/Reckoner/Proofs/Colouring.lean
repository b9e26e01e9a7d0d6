import Reckoner.Proofs.Controls
import Reckoner.Proofs.Signs

/-!
# What colours add

The only escapes that are written for a line without escapes are those of the colours, and they can
be told from all else: taken out, they leave what is written where no colours are wanted.  Each
block is painted by itself, and none of them leaves its colour to the next.

## Main results

* `Session.enter_unpainted` — **colours change nothing but colours, and end where they should.**
* `Dialogue.unpaint_transcript` — neither do they in a whole dialogue.
-/

namespace Reckoner

open Text

namespace Outcome

/-- Colours do not change what is shown. -/
theorem blocks_coloured (outcome : Outcome) (tree timing : Bool) (parseTime : Nat) :
    outcome.blocks ⟨tree, timing, true⟩ parseTime = outcome.blocks ⟨tree, timing, false⟩ parseTime := by
  cases outcome <;> rfl

/-- Without its sequences, an outcome in colour is the outcome without colours, if the texts of its
blocks have no escapes. -/
theorem unpaints_render {outcome : Outcome} {tree timing : Bool} {parseTime : Nat}
    (h : ∀ b ∈ outcome.blocks ⟨tree, timing, true⟩ parseTime, Lacks b.text '\x1b') :
    Unpaints (outcome.render ⟨tree, timing, true⟩ parseTime)
      (outcome.render ⟨tree, timing, false⟩ parseTime) := by
  rw [render, render, ← blocks_coloured]
  exact .join fun b hb => Block.unpaints_write (h b hb)

end Outcome

namespace Session

variable {line : String} {outcome : Outcome} {tree timing coloured : Bool} {parseTime : Nat}

/-- For a line without escapes, no escapes are shown. -/
theorem lacks_escape {session : Session} (hline : Lacks line '\x1b')
    (houtcome : outcome ∈ (session.enter line).outcomes) :
    ∀ b ∈ outcome.blocks ⟨tree, timing, coloured⟩ parseTime, Lacks b.text '\x1b' :=
  lacks_of_mem_blocks hline (by decide) (by decide) houtcome

/-- **Colours change nothing but colours, and end where they should.**  Let a line without escapes
be entered in any session, and let trees and timings be shown or not.  Taking the sequences out of
what is written for an outcome in colour leaves what is written for it without colours.  What is
written is taken for its blocks one after the other: each has one sequence in front, which switches
on the colour of its role, and one behind its text, which resets it, before the line feed at the
end.  So on a terminal every text is shown in its own colour, and every line feed behind one in
none. -/
theorem enter_unpainted (session : Session) (hline : Lacks line '\x1b') :
    ∀ outcome ∈ (session.enter line).outcomes, ∀ (tree timing : Bool) (parseTime : Nat),
      let blocks := outcome.blocks ⟨tree, timing, true⟩ parseTime
      let text := outcome.render ⟨tree, timing, true⟩ parseTime
      unpaint text = outcome.render ⟨tree, timing, false⟩ parseTime ∧
        signs text.toList = blocks.flatMap Block.signs ∧
        (∀ b ∈ blocks, signs (b.write true).toList = b.signs) ∧
        Sign.styled none (signs text.toList) = blocks.flatMap Block.styled := by
  intro outcome houtcome tree timing parseTime blocks text
  have hlacks : ∀ b ∈ blocks, Lacks b.text '\x1b' := lacks_escape hline houtcome
  have hsigns : signs text.toList = blocks.flatMap Block.signs := Block.signs_join hlacks
  refine ⟨(Outcome.unpaints_render hlacks).unpaint_eq, hsigns, fun b hb => ?_, ?_⟩
  · have hblock := Block.signs_write (hlacks b hb) []
    rwa [List.append_nil, signs_nil, List.append_nil] at hblock
  · rw [hsigns, Block.styled_flatMap_signs]

/-- A tree, a timing and two messages lose their colours and nothing else. -/
theorem enter_unpainted_messages :
    let outcomes := (empty.enter "y; (").outcomes
    Lacks "y; (" '\x1b' ∧
      outcomes.map (fun outcome => unpaint (outcome.render ⟨true, true, true⟩ 1500)) =
        ["VariableReference(\n    \"y\",\n    SourceLocation \x7b\n        line: 1,\n" ++
            "        column: 1,\n    \x7d,\n)\nParsed input in 1.5µs\n" ++
            "Error: Undefined variable 'y' at line 1\n",
          "Invalid syntax, no abstract syntax tree generated: Parse error at line 1, column 5: " ++
            "Expected expression, found end of input\n"] := by
  intro outcomes
  have hline : Lacks "y; (" '\x1b' := by decide
  have hplain : outcomes.map (fun outcome => unpaint (outcome.render ⟨true, true, true⟩ 1500)) =
      outcomes.map fun outcome => outcome.render ⟨true, true, false⟩ 1500 :=
    List.map_congr_left fun outcome houtcome =>
      (enter_unpainted empty hline outcome houtcome true true 1500).1
  refine ⟨hline, hplain.trans ?_⟩
  decide +kernel

example : (empty.enter "1 / 2; 3").outcomes.map (Outcome.render ⟨false, false, true⟩ 0) =
    ["\x1b[38;5;3m0.5\x1b[0m\n", "\x1b[38;5;3m3\x1b[0m\n"] := by decide +kernel

end Session

/-! ### Dialogues -/

namespace Dialogue

variable {tree timing : Bool}

/-- For lines without escapes, the replies in colour are those without, in whatever session. -/
theorem unpaints_replies {lines : List String} (h : ∀ line ∈ lines, Lacks line '\x1b')
    (session : Session) : Unpaints (replies ⟨tree, timing, true⟩ lines session)
      (replies ⟨tree, timing, false⟩ lines session) := by
  induction lines generalizing session with
  | nil =>
    rw [replies_nil, replies_nil]
    exact unpaints_of_lacks (by decide)
  | cons line lines ih =>
    obtain ⟨hline, hlines⟩ := List.forall_mem_cons.1 h
    have hanswer : Unpaints (answer ⟨tree, timing, true⟩ 0 (session.enter line).outcomes)
        (answer ⟨tree, timing, false⟩ 0 (session.enter line).outcomes) :=
      .join fun outcome houtcome =>
        Outcome.unpaints_render (Session.lacks_escape hline houtcome)
    rw [replies_cons, replies_cons]
    exact (hanswer.append (unpaints_paint (by decide) .prompt)).append (ih hlines _)

/-- Taking the sequences out of a dialogue in colour leaves the dialogue without colours. -/
theorem unpaint_transcript (tree timing : Bool) {input : String} (h : Lacks input '\x1b') :
    unpaint (transcript ⟨tree, timing, true⟩ input) = transcript ⟨tree, timing, false⟩ input := by
  have hlines : ∀ line ∈ (Text.lines input.toList).map String.ofList, Lacks line '\x1b' := by
    refine List.forall_mem_map.2 fun line hline => lacks_ofList.2 fun hmem => h ?_
    rw [← flatten_lines input.toList]
    exact List.mem_flatten.2 ⟨line, hline, hmem⟩
  have hopening : Unpaints (opening ⟨tree, timing, true⟩) (opening ⟨tree, timing, false⟩) :=
    .append (Block.unpaints_write (by decide)) (unpaints_paint (by decide) .prompt)
  exact ((hopening.append (unpaints_replies hlines .empty)).append
    (unpaints_of_lacks (by decide))).unpaint_eq

end Dialogue

end Reckoner
