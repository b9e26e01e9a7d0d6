import Mathlib.Data.List.Chain
import Mathlib.Data.List.TakeWhile
import Reckoner.Proofs.Separators

/-!
# Rows of words

A text is a row of words, each with a separator in front of it, and a separator behind the last one.
A separator may be empty wherever the words next to it do not merge.  Whatever the text is, it is
such a row; a number literal with more than one point counts as a word here.

## Main definitions

* `IsLexemeText` — the texts of words.
* `Piece`, `Row` — words with what is in front of them, in a row.
* `Row.IsWellSpaced` — that no word of a row goes on with what is behind it.

## Main results

* `isLexemeText_munch` — what is cut off a text is a word that ends there.
* `Row.IsWellSpaced.rest`, `Row.IsWellSpaced.cons` — rows are well spaced word by word.
* `exists_row` — every text is a well spaced row.
-/

namespace Reckoner

/-! ### The texts of words -/

/-- The characters are the text of a word, or of a number literal with too many points. -/
inductive IsLexemeText : List Char → Prop
  | word {text : List Char} : IsWord text → IsLexemeText text
  | numeral {text : List Char} : IsNumeral text → IsLexemeText text
  | equals : IsLexemeText ['=']
  | doubleEquals : IsLexemeText ['=', '=']
  | arrow : IsLexemeText ['=', '>']
  | mark {c : Char} : isMark c = true → IsLexemeText [c]

/-- The text of a word has characters. -/
theorem IsLexemeText.ne_nil {text : List Char} (h : IsLexemeText text) : text ≠ [] := by
  cases h with
  | word h => obtain ⟨first, more, rfl, -⟩ := h; exact List.cons_ne_nil first more
  | numeral h => obtain ⟨first, more, rfl, -⟩ := h; exact List.cons_ne_nil first more
  | equals | doubleEquals | arrow | mark => exact List.cons_ne_nil _ _

/-- A run does not go on with what is behind it. -/
theorem dropWhile_head {p : Char → Bool} {cs : List Char} {c : Char}
    (h : (cs.dropWhile p).head? = some c) : p c = false := by
  have hstop := List.head?_dropWhile_not p cs
  rw [h] at hstop
  simpa using hstop

/-- What is cut off is the text of a word that does not go on with what is left. -/
theorem isLexemeText_munch {first : Char} {more : List Char} (hblank : Text.isBlank first = false)
    (hnumberSign : first ≠ '#') :
    IsLexemeText (Lexeme.munch first more).1 ∧
      ∀ c, (Lexeme.munch first more).2.head? = some c →
        goesOn (Lexeme.munch first more).1 c = false := by
  unfold Lexeme.munch
  split
  · next hword =>
    refine ⟨.word ⟨first, _, rfl, hword, fun c hc => List.mem_takeWhile_imp hc⟩, fun c hc => ?_⟩
    rw [goesOn, if_pos hword]
    exact dropWhile_head hc
  split
  · next hword hdigit =>
    refine ⟨.numeral ⟨first, _, rfl, hdigit, fun c hc => List.mem_takeWhile_imp hc⟩, fun c hc => ?_⟩
    rw [goesOn, if_neg hword, if_pos hdigit]
    exact dropWhile_head hc
  next hword hdigit =>
  split
  · exact ⟨.doubleEquals, fun c _ => rfl⟩
  · exact ⟨.arrow, fun c _ => rfl⟩
  · next hdouble harrow =>
    by_cases hequals : first = '='
    · subst hequals
      refine ⟨.equals, fun c hc => ?_⟩
      obtain ⟨more, rfl⟩ := List.head?_eq_some_iff.1 hc
      have hother : c ≠ '=' ∧ c ≠ '>' := by
        constructor
        · rintro rfl
          exact hdouble more rfl rfl
        · rintro rfl
          exact harrow more rfl rfl
      simp [goesOn, hother, hword, hdigit]
    · refine ⟨.mark ?_, fun c _ => ?_⟩
      · simp [isMark, hblank, hnumberSign, hword, hdigit, hequals]
      · simp [goesOn, hword, hdigit, hequals]

/-! ### Rows -/

/-- A word as it is written, with the separator in front of it. -/
structure Piece where
  /-- The separator. -/
  gap : List Char
  /-- The text of the word. -/
  text : List Char

/-- The characters of a piece. -/
def Piece.chars (p : Piece) : List Char := p.gap ++ p.text

/-- Pieces, and what is behind the last of them. -/
structure Row where
  /-- The words with what is in front of them. -/
  pieces : List Piece
  /-- What is behind the last word. -/
  tail : List Char

namespace Row

/-- The characters of a row. -/
def chars (r : Row) : List Char := r.pieces.flatMap Piece.chars ++ r.tail

/-- A row is well spaced if its gaps are separators, and none of them is missing: it may be empty
unless the word behind it begins with a character that the word in front of it goes on with. -/
structure IsWellSpaced (r : Row) : Prop where
  gap : ∀ p ∈ r.pieces, Trivia.IsSeparator false p.gap
  text : ∀ p ∈ r.pieces, IsLexemeText p.text
  apart : r.pieces.IsChain fun p q =>
    q.gap = [] → ∀ c, q.text.head? = some c → goesOn p.text c = false
  tail : Trivia.IsSeparator true r.tail

variable {p : Piece} {pieces : List Piece} {tail : List Char}

theorem chars_cons :
    (Row.mk (p :: pieces) tail).chars = p.gap ++ (p.text ++ (Row.mk pieces tail).chars) := by
  simp [chars, Piece.chars]

/-- In a well spaced row no word goes on with what is behind it, and the row behind it is well
spaced. -/
theorem IsWellSpaced.rest (h : (Row.mk (p :: pieces) tail).IsWellSpaced) :
    (∀ c, (Row.mk pieces tail).chars.head? = some c → goesOn p.text c = false) ∧
      (Row.mk pieces tail).IsWellSpaced := by
  obtain ⟨hgap, htext, hapart, htail⟩ := h
  rw [List.forall_mem_cons] at hgap htext
  refine ⟨fun c hc => ?_, hgap.2, htext.2, hapart.of_cons, htail⟩
  cases pieces with
  | nil => exact htail.goesOn_eq_false p.text hc
  | cons q pieces =>
    -- what is behind the word is a separator, or the next word if that is empty
    rw [chars_cons] at hc
    cases hq : q.gap with
    | nil =>
      have hnext := (List.isChain_cons_cons.1 hapart).1 hq
      have htextNext := (htext.2 q List.mem_cons_self).ne_nil
      rw [hq, List.nil_append, List.head?_append_of_ne_nil _ htextNext] at hc
      exact hnext c hc
    | cons d gap =>
      rw [hq] at hc
      have hhead : q.gap.head? = some d := by rw [hq]; rfl
      have hseparator := (hgap.2 q List.mem_cons_self).goesOn_eq_false p.text hhead
      cases hc
      exact hseparator

/-- A word in front of a well spaced row that it does not go on with makes a well spaced row. -/
theorem IsWellSpaced.cons (hgap : Trivia.IsSeparator false p.gap) (htext : IsLexemeText p.text)
    (hrest : ∀ c, (Row.mk pieces tail).chars.head? = some c → goesOn p.text c = false)
    (h : (Row.mk pieces tail).IsWellSpaced) : (Row.mk (p :: pieces) tail).IsWellSpaced := by
  obtain ⟨hgaps, htexts, hapart, htail⟩ := h
  refine ⟨List.forall_mem_cons.2 ⟨hgap, hgaps⟩, List.forall_mem_cons.2 ⟨htext, htexts⟩, ?_, htail⟩
  refine hapart.cons fun q hq hempty c hc => hrest c ?_
  obtain ⟨pieces, rfl⟩ := List.head?_eq_some_iff.1 hq
  rw [chars_cons, hempty, List.nil_append, List.head?_append_of_ne_nil _ ?_, hc]
  rintro hnil
  rw [hnil] at hc
  cases hc

end Row

/-- Every text is a well spaced row. -/
theorem exists_row (cs : List Char) : ∃ r : Row, r.IsWellSpaced ∧ r.chars = cs := by
  induction hlen : cs.length using Nat.strongRecOn generalizing cs with
  | _ n ih =>
    have hgap := Trivia.isSeparator_split false cs
    have hsplit := Trivia.split_append false cs
    have hrest := @Trivia.split_rest false cs
    generalize Trivia.split false cs = parts at hgap hsplit hrest
    obtain ⟨gap, _ | ⟨first, more⟩⟩ := parts
    · refine ⟨⟨[], gap⟩, ⟨by simp, by simp, .nil, hgap⟩, ?_⟩
      rw [← hsplit]
      exact (List.append_nil gap).symm
    · -- the word is cut off, and what is left is a row by induction
      obtain ⟨hblank, hnumberSign⟩ := hrest rfl
      obtain ⟨htext, hends⟩ := @isLexemeText_munch first more hblank hnumberSign
      have hmunch := Lexeme.munch_append first more
      have hlength := Lexeme.length_munch_le first more
      generalize Lexeme.munch first more = cutOff at htext hends hmunch hlength
      obtain ⟨text, rest⟩ := cutOff
      dsimp only at hgap hsplit htext hends hmunch hlength
      obtain ⟨⟨pieces, tail⟩, hwell, rfl⟩ := ih rest.length (by
        rw [← hlen, ← hsplit, List.length_append, List.length_cons]
        omega) rest rfl
      refine ⟨⟨⟨gap, text⟩ :: pieces, tail⟩, .cons hgap htext hends hwell, ?_⟩
      rw [Row.chars_cons, hmunch, hsplit]

/-- No row has more words than characters. -/
theorem Row.IsWellSpaced.length_le {r : Row} (h : r.IsWellSpaced) :
    r.pieces.length ≤ r.chars.length := by
  obtain ⟨pieces, tail⟩ := r
  induction pieces with
  | nil => exact Nat.zero_le _
  | cons p pieces ih =>
    have hrest := ih h.rest.2
    have htext := List.length_pos_iff.2 (h.text p List.mem_cons_self).ne_nil
    rw [Row.chars_cons, List.length_cons, List.length_append, List.length_append]
    dsimp only at hrest
    omega

end Reckoner
