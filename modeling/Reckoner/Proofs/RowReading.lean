import Mathlib.Data.List.Forall2
import Mathlib.Data.List.Induction
import Reckoner.Proofs.Rows

/-!
# Reading rows of words

Read again and again, a row comes to its words one after the other, and then to the end of the
input for ever.  A number literal with more than one point comes to an error, and the next reading
goes on behind it.  Read as a whole, the row comes to all its tokens, or to the first of its errors.

Since every text is a row, reading loses nothing and invents nothing; and since a row may be written
for any words, reading undoes spelling.

## Main definitions

* `Location.behind` — the location of what follows a text, counted out.
* `Reads`, `ReadsAll` — what words come to when they are read.
* `Source.after`, `Source.reading` — reading again and again.

## Main results

* `Row.IsWellSpaced.reading_eq`, `Row.IsWellSpaced.tokenize_eq` — what a row comes to, word by word
  and as a whole.
* `Source.readings_ofString` — **reading loses and invents nothing.**
* `Source.tokenize_row` — **reading undoes spelling.**
-/

namespace Reckoner

/-! ### Locations, counted out -/

/-- The location of what follows the characters `cs` at the beginning of a text: there is one more
line than there are line feeds, and one more column than there are characters since the last one. -/
def Location.behind (cs : List Char) : Location :=
  ⟨1 + cs.count '\n', 1 + (cs.reverse.takeWhile (· ≠ '\n')).length⟩

theorem Location.advance_start (cs : List Char) : start.advance cs = behind cs := by
  induction cs using List.reverseRecOn with
  | nil => rfl
  | append_singleton cs c ih =>
    rw [advance_append, ih, advance_cons, advance_nil, behind, after]
    by_cases hc : c = '\n'
    · subst hc
      simp [behind, Nat.add_assoc]
    · simp [behind, hc, Nat.add_assoc]

/-! ### What words come to -/

/-- The characters form a number literal that has more than one point. -/
def IsMalformed (text : List Char) : Prop := IsNumeral text ∧ 2 ≤ text.count '.'

theorem IsMalformed.read?_eq_none {text : List Char} (h : IsMalformed text) :
    Numeral.read? text = none := by
  have hsome := Numeral.read?_isSome_iff text
  rw [← Option.not_isSome_iff_eq_none, hsome]
  have := h.2
  omega

/-- A spelling is read back if it is a text by itself. -/
theorem Spells.readsBack_nil {text : List Char} {w : Lexeme} (h : Spells text w) :
    ∃ first more, ReadsBack text [] w first more := h.readsBack (by simp)

/-- A text is a spelling of one word only. -/
theorem Spells.unique {text : List Char} {v w : Lexeme} (hv : Spells text v) (hw : Spells text w) :
    v = w := by
  obtain ⟨first, more, hread⟩ := hv.readsBack_nil
  obtain ⟨first', more', hread'⟩ := hw.readsBack_nil
  obtain rfl : first = first' := (List.cons.inj (hread.eq_cons.symm.trans hread'.eq_cons)).1
  exact Option.some.inj (hread.ofText?_eq.symm.trans hread'.ofText?_eq)

theorem Spells.not_isMalformed {text : List Char} {w : Lexeme} (h : Spells text w) :
    ¬ IsMalformed text := by
  intro hmalformed
  obtain ⟨first, more, hread⟩ := h.readsBack_nil
  obtain ⟨⟨first', more', htext, hdigit, -⟩, -⟩ := id hmalformed
  obtain rfl : first = first' := (List.cons.inj (hread.eq_cons.symm.trans htext)).1
  have hmeaning := hread.ofText?_eq
  rw [ofText?_of_isDigit hdigit, hmalformed.read?_eq_none] at hmeaning
  cases hmeaning

/-- `Reads text l result`: a word that is written `text` and stands at `l` comes to `result`. -/
inductive Reads (text : List Char) (l : Location) : Except MalformedNumber Token → Prop
  | token {w : Lexeme} : Spells text w → Reads text l (.ok ⟨w, l⟩)
  | malformed : IsMalformed text → Reads text l (.error ⟨String.ofList text, l⟩)

/-- Every word comes to something. -/
theorem IsLexemeText.exists_reads {text : List Char} (h : IsLexemeText text) (l : Location) :
    ∃ result, Reads text l result := by
  have hspells : ∀ {w : Lexeme}, Spells text w → ∃ result, Reads text l result :=
    fun hw => ⟨_, .token hw⟩
  cases h with
  | word hword =>
    cases hkeyword : Keyword.ofText? (String.ofList text) with
    | none => exact hspells (.identifier hword hkeyword)
    | some word =>
      have htext : text = word.text.toList := by
        rw [← Keyword.ofText?_eq_some_iff.1 hkeyword, String.toList_ofList]
      rw [htext] at hspells ⊢
      exact hspells (.keyword word)
  | numeral hnumeral =>
    cases hvalue : Numeral.read? text with
    | some value => exact hspells (.number hnumeral hvalue)
    | none =>
      have hcount : ¬ text.count '.' ≤ 1 := by
        rw [← Numeral.read?_isSome_iff, hvalue]
        simp
      exact ⟨_, .malformed ⟨hnumeral, by omega⟩⟩
  | equals => exact hspells .equals
  | doubleEquals => exact hspells .doubleEquals
  | arrow => exact hspells .arrow
  | mark hmark => exact hspells (.mark hmark)

theorem Source.next_of_malformed {gap text rest : List Char} (hgap : Trivia.IsGap gap)
    (h : IsMalformed text) (hrest : ∀ c, rest.head? = some c → goesOn text c = false)
    (l : Location) :
    (Source.mk (gap ++ (text ++ rest)) l).next =
      (.error ⟨String.ofList text, l.advance gap⟩, ⟨rest, (l.advance gap).advance text⟩) := by
  have hvalue := h.read?_eq_none
  obtain ⟨⟨first, more, rfl, hdigit, hmore⟩, -⟩ := h
  have hsplit : Trivia.split false (gap ++ (first :: more ++ rest)) =
      (gap, first :: (more ++ rest)) := by
    rw [hgap, List.cons_append, Trivia.split_of_ne (isBlank_eq_false_of_isDigit hdigit)
      (ne_numberSign_of_isDigit hdigit), List.append_nil]
  unfold Source.next
  simp only [hsplit, munch_of_isDigit hdigit hmore hrest, ofText?_of_isDigit hdigit, hvalue,
    Option.map_none]

/-- A word behind a separator is what is read next. -/
theorem Source.next_of_reads {gap text rest : List Char} {result : Except MalformedNumber Token}
    {l : Location} (hgap : Trivia.IsSeparator false gap) (h : Reads text (l.advance gap) result)
    (hrest : ∀ c, rest.head? = some c → goesOn text c = false) :
    (Source.mk (gap ++ (text ++ rest)) l).next =
      (result.map .token, ⟨rest, (l.advance gap).advance text⟩) := by
  cases h with
  | token hspells => exact Source.next_of_spells hgap.isGap hspells hrest l
  | malformed hmalformed => exact Source.next_of_malformed hgap.isGap hmalformed hrest l

/-! ### What rows come to -/

/-- `ReadsAll l pieces results`: the words of the pieces, which are written from `l` on, come to
`results`. -/
inductive ReadsAll : Location → List Piece → List (Except MalformedNumber Token) → Prop
  | nil {l : Location} : ReadsAll l [] []
  | cons {l : Location} {p : Piece} {pieces : List Piece} {result : Except MalformedNumber Token}
      {results : List (Except MalformedNumber Token)} : Reads p.text (l.advance p.gap) result →
      ReadsAll (l.advance p.chars) pieces results → ReadsAll l (p :: pieces) (result :: results)

namespace Source

/-- The source that is left after a number of readings. -/
def after (s : Source) : Nat → Source
  | 0 => s
  | k + 1 => s.next.2.after k

/-- What is read after a number of readings. -/
def reading (s : Source) (k : Nat) : Except MalformedNumber Entry := (s.after k).next.1

theorem reading_succ (s : Source) (k : Nat) : s.reading (k + 1) = s.next.2.reading k := rfl

/-- An empty text is the end of the input, however often it is read. -/
theorem reading_nil (l : Location) (k : Nat) :
    (Source.mk [] l).reading k = .ok (.endOfInput l) := by
  induction k with
  | zero => rfl
  | succ k ih => exact ih

end Source

namespace Row.IsWellSpaced

variable {r : Row} {l : Location} {results : List (Except MalformedNumber Token)}

/-- Every well spaced row comes to something. -/
theorem exists_readsAll (h : r.IsWellSpaced) (l : Location) :
    ∃ results, ReadsAll l r.pieces results := by
  have htexts := h.text
  generalize r.pieces = pieces at htexts
  induction pieces generalizing l with
  | nil => exact ⟨[], .nil⟩
  | cons p pieces ih =>
    rw [List.forall_mem_cons] at htexts
    obtain ⟨result, hresult⟩ := htexts.1.exists_reads (l.advance p.gap)
    obtain ⟨results, hresults⟩ := ih (l.advance p.chars) htexts.2
    exact ⟨result :: results, .cons hresult hresults⟩

/-- The first word of a row is what is read next. -/
theorem next_eq {p : Piece} {pieces : List Piece} {tail : List Char}
    {result : Except MalformedNumber Token} (h : (Row.mk (p :: pieces) tail).IsWellSpaced)
    (hresult : Reads p.text (l.advance p.gap) result) :
    (Source.mk (Row.mk (p :: pieces) tail).chars l).next =
      (result.map .token, ⟨(Row.mk pieces tail).chars, l.advance p.chars⟩) := by
  rw [Row.chars_cons, Source.next_of_reads (h.gap p List.mem_cons_self) hresult h.rest.1,
    Piece.chars, Location.advance_append]

/-- Behind the last word there is the end of the input, and nothing else. -/
theorem next_of_nil {tail : List Char} (h : (Row.mk [] tail).IsWellSpaced) :
    (Source.mk (Row.mk [] tail).chars l).next =
      (.ok (.endOfInput (l.advance (Row.mk [] tail).chars)),
        ⟨[], l.advance (Row.mk [] tail).chars⟩) := by
  have hchars : (Row.mk [] tail).chars = tail := rfl
  unfold Source.next
  simp only [hchars, h.tail.split_eq]

theorem advance_chars_cons {p : Piece} {pieces : List Piece} {tail : List Char} :
    l.advance (Row.mk (p :: pieces) tail).chars =
      (l.advance p.chars).advance (Row.mk pieces tail).chars := by
  rw [Row.chars_cons, Piece.chars, Location.advance_append, Location.advance_append,
    Location.advance_append]

/-- The words of a row are read one after the other. -/
theorem reading_eq (h : r.IsWellSpaced) (hresults : ReadsAll l r.pieces results) {k : Nat}
    {result : Except MalformedNumber Token} (hk : results[k]? = some result) :
    (Source.mk r.chars l).reading k = result.map .token := by
  obtain ⟨pieces, tail⟩ := r
  induction pieces generalizing l results k with
  | nil =>
    cases hresults
    cases hk
  | cons p pieces ih =>
    obtain _ | ⟨hresult, hresults⟩ := hresults
    cases k with
    | zero =>
      cases hk
      rw [Source.reading, Source.after, h.next_eq hresult]
    | succ k =>
      rw [Source.reading_succ, h.next_eq hresult]
      exact ih hk h.rest.2 hresults

/-- Behind the last word of a row there is the end of the input, however often it is read. -/
theorem reading_eq_endOfInput (h : r.IsWellSpaced) (hresults : ReadsAll l r.pieces results)
    {k : Nat} (hk : r.pieces.length ≤ k) :
    (Source.mk r.chars l).reading k = .ok (.endOfInput (l.advance r.chars)) := by
  obtain ⟨pieces, tail⟩ := r
  induction pieces generalizing l results k with
  | nil =>
    cases k with
    | zero => rw [Source.reading, Source.after, h.next_of_nil]
    | succ k => rw [Source.reading_succ, h.next_of_nil, Source.reading_nil]
  | cons p pieces ih =>
    obtain _ | ⟨hresult, hresults⟩ := hresults
    obtain ⟨k, rfl⟩ := Nat.exists_eq_add_of_le' hk
    rw [List.length_cons, ← Nat.add_assoc, Source.reading_succ, h.next_eq hresult,
      advance_chars_cons]
    exact ih h.rest.2 hresults (Nat.le_add_left _ _)

/-- As a whole, a row comes to its tokens, or to the first of its errors. -/
theorem tokenize_eq (h : r.IsWellSpaced) (hresults : ReadsAll l r.pieces results) :
    (Source.mk r.chars l).tokenize =
      (results.mapM id).map fun tokens => ⟨tokens, l.advance r.chars⟩ := by
  obtain ⟨pieces, tail⟩ := r
  induction pieces generalizing l results with
  | nil =>
    cases hresults
    rw [Source.tokenize_eq, h.next_of_nil]
    rfl
  | @cons p pieces ih =>
    obtain _ | @⟨_, _, _, result, results, hresult, hresults⟩ := hresults
    rw [Source.tokenize_eq, h.next_eq hresult, List.mapM_cons, advance_chars_cons]
    cases result with
    | error e => rfl
    | ok t =>
      show (Source.tokenize _).map _ = _
      rw [ih h.rest.2 hresults]
      show _ = Except.map _ ((results.mapM id).bind fun tokens => .ok (t :: tokens))
      cases results.mapM id with
      | error e => rfl
      | ok tokens => rfl

end Row.IsWellSpaced

/-! ### Tokens and errors among the results -/

section Results

variable {α ε : Type}

/-- Either all results are values, or there is a first error. -/
theorem results_cases (results : List (Except ε α)) :
    (∃ as : List α, results = as.map .ok) ∨
      ∃ (as : List α) (e : ε) (rest : List (Except ε α)),
        results = as.map .ok ++ .error e :: rest := by
  induction results with
  | nil => exact .inl ⟨[], rfl⟩
  | cons result results ih =>
    cases result with
    | error e => exact .inr ⟨[], e, results, rfl⟩
    | ok a =>
      rcases ih with ⟨as, rfl⟩ | ⟨as, e, rest, rfl⟩
      · exact .inl ⟨a :: as, rfl⟩
      · exact .inr ⟨a :: as, e, rest, rfl⟩

theorem mapM_id_ok (as : List α) : (as.map .ok : List (Except ε α)).mapM id = .ok as := by
  induction as with
  | nil => rfl
  | cons a as ih =>
    rw [List.map_cons, List.mapM_cons, ih]
    rfl

theorem mapM_id_error (as : List α) (e : ε) (rest : List (Except ε α)) :
    (as.map Except.ok ++ Except.error e :: rest).mapM id = .error e := by
  induction as with
  | nil => rfl
  | cons a as ih =>
    rw [List.map_cons, List.cons_append, List.mapM_cons, ih]
    rfl

end Results

namespace ReadsAll

variable {l : Location} {p : Piece} {pieces before behind : List Piece}
  {results rest : List (Except MalformedNumber Token)} {tokens : List Token}

/-- A word behind a piece is as far behind it as in a row that begins there. -/
theorem advance_flatMap_cons (gap : List Char) :
    l.advance ((p :: before).flatMap Piece.chars ++ gap) =
      (l.advance p.chars).advance (before.flatMap Piece.chars ++ gap) := by
  rw [List.flatMap_cons, List.append_assoc, Location.advance_append]

/-- Each word comes to the result that is in its place. -/
theorem reads (h : ReadsAll l (before ++ p :: behind) results) :
    ∃ result, results[before.length]? = some result ∧
      Reads p.text (l.advance (before.flatMap Piece.chars ++ p.gap)) result := by
  induction before generalizing l results with
  | nil =>
    obtain _ | ⟨hresult, -⟩ := h
    exact ⟨_, rfl, hresult⟩
  | cons q before ih =>
    obtain _ | ⟨-, h⟩ := h
    obtain ⟨result, hplace, hresult⟩ := ih h
    exact ⟨result, hplace, by rwa [advance_flatMap_cons]⟩

theorem length_eq (h : ReadsAll l pieces results) : results.length = pieces.length := by
  induction h with
  | nil => rfl
  | cons _ _ ih => rw [List.length_cons, ih, List.length_cons]

/-- Words that are not malformed come to tokens. -/
theorem exists_tokens (h : ReadsAll l pieces results) (hfine : ∀ p ∈ pieces, ¬ IsMalformed p.text) :
    ∃ tokens : List Token, results = tokens.map .ok ∧
      List.Forall₂ (fun p t => Spells p.text t.lexeme) pieces tokens := by
  induction h with
  | nil => exact ⟨[], rfl, .nil⟩
  | cons hresult _ ih =>
    rw [List.forall_mem_cons] at hfine
    obtain ⟨tokens, rfl, htokens⟩ := ih hfine.2
    cases hresult with
    | token hspells => exact ⟨_ :: tokens, rfl, .cons hspells htokens⟩
    | malformed hmalformed => exact absurd hmalformed hfine.1

/-- The first malformed word comes to the first error. -/
theorem exists_error (h : ReadsAll l (before ++ p :: behind) results)
    (hfine : ∀ q ∈ before, ¬ IsMalformed q.text) (hp : IsMalformed p.text) :
    ∃ (tokens : List Token) (rest : List (Except MalformedNumber Token)),
      results = tokens.map .ok ++
        .error ⟨String.ofList p.text, l.advance (before.flatMap Piece.chars ++ p.gap)⟩ :: rest := by
  induction before generalizing l results with
  | nil =>
    obtain _ | ⟨hresult, -⟩ := h
    cases hresult with
    | token hspells => exact absurd hp hspells.not_isMalformed
    | malformed => exact ⟨[], _, rfl⟩
  | cons q before ih =>
    rw [List.forall_mem_cons] at hfine
    obtain _ | ⟨hresult, h⟩ := h
    obtain ⟨tokens, rest, rfl⟩ := ih h hfine.2
    cases hresult with
    | @token w hspells =>
      refine ⟨⟨w, l.advance q.gap⟩ :: tokens, rest, ?_⟩
      rw [advance_flatMap_cons]
      rfl
    | malformed hmalformed => exact absurd hmalformed hfine.1

end ReadsAll

/-! ### Whole texts -/

theorem Row.IsWellSpaced.drop {before pieces : List Piece} {tail : List Char}
    (h : (Row.mk (before ++ pieces) tail).IsWellSpaced) : (Row.mk pieces tail).IsWellSpaced := by
  induction before with
  | nil => exact h
  | cons p before ih => exact ih h.rest.2

namespace Source

/-- **Reading loses and invents nothing.**  Every text is a row of words with separators around
them: one reading after the other comes to the words in order, each at its location and as far as it
goes, a malformed number literal to an error; there are no more words than characters, and from then
on every reading comes to the end of the input, which is located behind the text.  Read as a whole,
the text comes to all these tokens, or to the first of the errors. -/
theorem readings_ofString (text : String) :
    let s := Source.ofString text
    ∃ (r : Row) (results : List (Except MalformedNumber Token)),
      r.IsWellSpaced ∧ r.chars = text.toList ∧ r.pieces.length ≤ text.length ∧
        results.length = r.pieces.length ∧
        (∀ before p behind, r.pieces = before ++ p :: behind →
          ∃ result, results[before.length]? = some result ∧
            s.reading before.length = result.map .token ∧
            Reads p.text (.behind (before.flatMap Piece.chars ++ p.gap)) result ∧
            ∀ c, (Row.mk behind r.tail).chars.head? = some c → goesOn p.text c = false) ∧
        (∀ k, r.pieces.length ≤ k → s.reading k = .ok (.endOfInput (.behind text.toList))) ∧
        s.tokenize = (results.mapM id).map fun tokens => ⟨tokens, .behind text.toList⟩ := by
  obtain ⟨⟨pieces, tail⟩, hwell, hchars⟩ := exists_row text.toList
  obtain ⟨results, hresults⟩ := hwell.exists_readsAll .start
  have hlength := hwell.length_le
  rw [hchars, String.length_toList] at hlength
  refine ⟨⟨pieces, tail⟩, results, hwell, hchars, hlength, hresults.length_eq, ?_, ?_, ?_⟩
  · rintro before p behind rfl
    obtain ⟨result, hplace, hresult⟩ := hresults.reads
    refine ⟨result, hplace, ?_, ?_, hwell.drop.rest.1⟩
    · rw [Source.ofString, ← hchars]
      exact hwell.reading_eq hresults hplace
    · rwa [← Location.advance_start]
  · intro k hk
    rw [Source.ofString, ← hchars, ← Location.advance_start]
    exact hwell.reading_eq_endOfInput hresults hk
  · rw [Source.ofString, ← hchars, ← Location.advance_start]
    exact hwell.tokenize_eq hresults

/-- **Reading undoes spelling.**  A well spaced row of words that are not malformed is read as these
words, one token for each, and then there is the end.  If some of its number literals are malformed,
the row is read as the error of the first of them, which is located where the literal begins and
quotes the whole of it. -/
theorem tokenize_row {r : Row} (h : r.IsWellSpaced) :
    let s := Source.ofString (String.ofList r.chars)
    ((∀ p ∈ r.pieces, ¬ IsMalformed p.text) →
      ∃ tokens : List Token, s.tokenize = .ok ⟨tokens, .behind r.chars⟩ ∧
        List.Forall₂ (fun p t => Spells p.text t.lexeme) r.pieces tokens) ∧
      ∀ before p behind, r.pieces = before ++ p :: behind →
        (∀ q ∈ before, ¬ IsMalformed q.text) → IsMalformed p.text →
        s.tokenize = .error
          ⟨String.ofList p.text, .behind (before.flatMap Piece.chars ++ p.gap)⟩ := by
  obtain ⟨results, hresults⟩ := h.exists_readsAll .start
  have htokenize : (Source.ofString (String.ofList r.chars)).tokenize =
      (results.mapM id).map fun tokens => ⟨tokens, .behind r.chars⟩ := by
    rw [Source.ofString, String.toList_ofList, h.tokenize_eq hresults, Location.advance_start]
  refine ⟨fun hfine => ?_, fun before p behind hpieces hfine hp => ?_⟩
  · obtain ⟨tokens, rfl, htokens⟩ := hresults.exists_tokens hfine
    refine ⟨tokens, htokenize.trans ?_, htokens⟩
    rw [mapM_id_ok]
    rfl
  · rw [hpieces] at hresults
    obtain ⟨tokens, rest, rfl⟩ := hresults.exists_error hfine hp
    refine htokenize.trans ?_
    rw [mapM_id_error, Location.advance_start]
    rfl

/-- Words side by side are told apart by their characters alone, and of two malformed literals it is
the first that counts. -/
theorem tokenize_row_unspaced :
    (∃ tokens : List Token, (Source.ofString "1x==>²#").tokenize = .ok ⟨tokens, ⟨1, 8⟩⟩ ∧
      tokens.map Token.lexeme = [.number (.ofScientific 1 true 0), .identifier "x",
        .operator "==", .operator ">", .operator "²"]) ∧
      (Source.ofString "x\n3..4 5.6.7").tokenize = .error ⟨"3..4", ⟨2, 1⟩⟩ := by
  have hx : IsWord ['x'] := ⟨'x', [], rfl, rfl, by simp⟩
  constructor
  · have h1 : IsNumeral ['1'] := ⟨'1', [], rfl, rfl, by simp⟩
    have hgreater : isMark '>' = true := rfl
    have hsquare : isMark '²' = true := rfl
    have hwell : (Row.mk [⟨[], ['1']⟩, ⟨[], ['x']⟩, ⟨[], ['=', '=']⟩, ⟨[], ['>']⟩, ⟨[], ['²']⟩]
        ['#']).IsWellSpaced := by
      refine ⟨?_, ?_, ?_, .lastComment rfl (by simp)⟩
      · simp [Trivia.IsSeparator.nil]
      · simp [IsLexemeText.numeral h1, IsLexemeText.word hx, IsLexemeText.doubleEquals,
          IsLexemeText.mark hgreater, IsLexemeText.mark hsquare]
      · simp only [List.isChain_cons_cons, List.head?_cons, Option.some.injEq, forall_const,
          forall_eq', List.IsChain.singleton, and_true]
        exact ⟨rfl, rfl, rfl, rfl⟩
    obtain ⟨tokens, htokens, hall⟩ := (tokenize_row hwell).1 (by simp [IsMalformed])
    refine ⟨tokens, htokens, ?_⟩
    have hunique : Relator.RightUnique fun (p : Piece) (w : Lexeme) => Spells p.text w :=
      fun _ _ _ => Spells.unique
    exact hunique.forall₂ (List.forall₂_map_right_iff.2 hall)
      (.cons (.number h1 rfl) (.cons (.identifier hx rfl) (.cons .doubleEquals
        (.cons (.mark hgreater) (.cons (.mark hsquare) .nil)))))
  · have h3 : IsNumeral ['3', '.', '.', '4'] :=
      ⟨'3', ['.', '.', '4'], rfl, rfl, List.all_eq_true.1 rfl⟩
    have h5 : IsNumeral ['5', '.', '6', '.', '7'] :=
      ⟨'5', ['.', '6', '.', '7'], rfl, rfl, List.all_eq_true.1 rfl⟩
    have hline : Trivia.IsSeparator false ['\n'] := .blank rfl .nil
    have hspace : Trivia.IsSeparator false [' '] := .blank rfl .nil
    have hwell : (Row.mk [⟨[], ['x']⟩, ⟨['\n'], ['3', '.', '.', '4']⟩,
        ⟨[' '], ['5', '.', '6', '.', '7']⟩] []).IsWellSpaced := by
      refine ⟨?_, ?_, ?_, .nil⟩
      · simp [Trivia.IsSeparator.nil, hline, hspace]
      · simp [IsLexemeText.word hx, IsLexemeText.numeral h3, IsLexemeText.numeral h5]
      · simp
    exact (tokenize_row hwell).2 [_] _ [_] rfl (by simp [IsMalformed]) ⟨h3, by decide⟩

end Source

end Reckoner
