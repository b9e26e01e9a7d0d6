import Reckoner.Proofs.Reading

/-!
# Segments of a line

A semicolon ends a statement, and nothing else is written with one.  So a line falls into segments
at its semicolons before anything is known about the statements in them.

## Main definitions

* `TokenStream.sentence` — the tokens in front of the first semicolon, or all if there is none.
* `TokenStream.afterSentence` — what is behind them: the semicolon and the rest, or the end.
* `TokenStream.segments` — the line cut at every semicolon, each part a stream of its own.

## Main results

* `TokenStream.spans_sentence` — the sentence stands in front of what is behind it.
* `TokenStream.eq_afterSentence_of_spans` — words without a semicolon that reach up to a semicolon
  or the end are the sentence.
* `TokenStream.segments_eq` — the first segment is the sentence, and then come the segments of what
  is behind it.
-/

namespace Reckoner

/-- Whether a token ends a statement. -/
def Token.isSemicolon (t : Token) : Bool := (Entry.token t).isOperator ";"

theorem Token.isSemicolon_iff {t : Token} : t.isSemicolon = true ↔ t.lexeme = .operator ";" := by
  rw [isSemicolon, Entry.isOperator_iff]
  constructor
  · rintro ⟨l, heq⟩
    cases heq
    rfl
  · intro hlexeme
    obtain ⟨lexeme, l⟩ := t
    obtain rfl : lexeme = .operator ";" := hlexeme
    exact ⟨l, rfl⟩

/-- Whether a statement ends in front of an entry: at a semicolon or at the end of the input. -/
def Entry.endsStatement (e : Entry) : Bool := e.isOperator ";" || e.isEnd

namespace TokenStream

/-- The tokens in front of the first semicolon, or all tokens if there is none. -/
def sentence (s : TokenStream) : List Token := s.tokens.takeWhile fun t => !t.isSemicolon

/-- What is behind the sentence: the first semicolon and the tokens after it, or only the end. -/
def afterSentence (s : TokenStream) : TokenStream :=
  ⟨s.tokens.dropWhile fun t => !t.isSemicolon, s.stop⟩

theorem sentence_cons_of_semicolon {t : Token} (s : TokenStream) (h : t.isSemicolon = true) :
    (s.cons t).sentence = [] := by
  simp [sentence, cons, h]

theorem sentence_cons {t : Token} (s : TokenStream) (h : t.isSemicolon = false) :
    (s.cons t).sentence = t :: s.sentence := by
  simp [sentence, cons, h]

theorem afterSentence_cons_of_semicolon {t : Token} (s : TokenStream) (h : t.isSemicolon = true) :
    (s.cons t).afterSentence = s.cons t := by
  simp [afterSentence, cons, h]

theorem afterSentence_cons {t : Token} (s : TokenStream) (h : t.isSemicolon = false) :
    (s.cons t).afterSentence = s.afterSentence := by
  simp [afterSentence, cons, h]

/-- The sentence stands in front of what is behind it. -/
theorem spans_sentence (s : TokenStream) :
    s.Spans (s.sentence.map Token.lexeme) s.afterSentence :=
  spans_iff.2 ⟨rfl, s.sentence, List.takeWhile_append_dropWhile.symm, rfl⟩

theorem endsStatement_afterSentence (s : TokenStream) :
    s.afterSentence.head.endsStatement = true := by
  induction s using cons_induction with
  | nil stop => rfl
  | cons t s ih =>
    by_cases h : t.isSemicolon = true
    · rw [afterSentence_cons_of_semicolon s h, head_cons, Entry.endsStatement, Bool.or_eq_true]
      exact .inl h
    · rw [afterSentence_cons s (Bool.eq_false_iff.2 h)]
      exact ih

theorem length_afterSentence (s : TokenStream) :
    s.sentence.length + s.afterSentence.length = s.length := by
  rw [sentence, afterSentence, length, length, ← List.length_append,
    List.takeWhile_append_dropWhile]

/-- Words without a semicolon that reach up to a semicolon or the end are the sentence. -/
theorem eq_afterSentence_of_spans {s t : TokenStream} {ws : List Lexeme} (h : s.Spans ws t)
    (hws : .operator ";" ∉ ws) (ht : t.head.endsStatement = true) :
    t = s.afterSentence ∧ ws = s.sentence.map Token.lexeme := by
  induction s using cons_induction generalizing ws with
  | nil stop =>
    cases ws with
    | nil =>
      obtain rfl := spans_nil.1 h
      exact ⟨rfl, rfl⟩
    | cons w ws =>
      obtain ⟨l, hhead, -⟩ := spans_cons.1 h
      cases hhead
  | cons a s ih =>
    cases ws with
    | nil =>
      -- nothing is in front of the token, so it is a semicolon
      obtain rfl := spans_nil.1 h
      have hsemicolon : a.isSemicolon = true := by
        rw [head_cons, Entry.endsStatement, Bool.or_eq_true] at ht
        rcases ht with ht | ht
        · exact ht
        · cases ht
      rw [afterSentence_cons_of_semicolon s hsemicolon, sentence_cons_of_semicolon s hsemicolon]
      exact ⟨rfl, rfl⟩
    | cons w ws =>
      obtain ⟨l, hhead, htail⟩ := spans_cons.1 h
      rw [List.mem_cons, not_or] at hws
      cases hhead
      have hother : (Token.mk w l).isSemicolon = false := by
        rw [Bool.eq_false_iff]
        intro hsemicolon
        exact hws.1 (Token.isSemicolon_iff.1 hsemicolon).symm
      obtain ⟨hrest, hsentence⟩ := ih htail hws.2
      rw [afterSentence_cons s hother, sentence_cons s hother, List.map_cons]
      exact ⟨hrest, congrArg (w :: ·) hsentence⟩

/-! ### Cutting a line up -/

/-- The sentence as a stream of its own, which ends where the semicolon or the end behind it is. -/
def cut (s : TokenStream) : TokenStream := ⟨s.sentence, s.afterSentence.head.location⟩

theorem cut_cons_of_semicolon {t : Token} (s : TokenStream) (h : t.isSemicolon = true) :
    (s.cons t).cut = ⟨[], t.location⟩ := by
  rw [cut, sentence_cons_of_semicolon s h, afterSentence_cons_of_semicolon s h]
  rfl

theorem cut_cons {t : Token} (s : TokenStream) (h : t.isSemicolon = false) :
    (s.cons t).cut = s.cut.cons t := by
  rw [cut, sentence_cons s h, afterSentence_cons s h]
  rfl

/-- The tokens cut at every semicolon, with `stop` as the location of the end.  Each piece ends
where the semicolon behind it is; the last one, which may be empty, ends where the line does. -/
def pieces (stop : Location) : List Token → List TokenStream
  | [] => [⟨[], stop⟩]
  | t :: ts =>
    if t.isSemicolon then ⟨[], t.location⟩ :: pieces stop ts
    else (pieces stop ts).modifyHead (cons t)

/-- The segments of a line: its pieces, but for the last one if that is empty. -/
def segments (s : TokenStream) : List TokenStream :=
  let ps := pieces s.stop s.tokens
  if ps.getLast?.any atEnd then ps.dropLast else ps

/-- The first piece is the sentence, and the others are the pieces of what is behind it. -/
theorem pieces_eq (s : TokenStream) :
    pieces s.stop s.tokens = s.cut ::
      if s.afterSentence.atEnd then [] else pieces s.stop s.afterSentence.tail.tokens := by
  induction s using cons_induction with
  | nil stop => rfl
  | cons t s ih =>
    show pieces s.stop (t :: s.tokens) = _
    by_cases h : t.isSemicolon = true
    · rw [pieces, if_pos h, cut_cons_of_semicolon s h, afterSentence_cons_of_semicolon s h]
      rfl
    · have hother : t.isSemicolon = false := Bool.eq_false_iff.2 h
      rw [pieces, if_neg h, ih, List.modifyHead_cons, cut_cons s hother,
        afterSentence_cons s hother]
      rfl

theorem pieces_ne_nil (stop : Location) (ts : List Token) : pieces stop ts ≠ [] := by
  have hpieces := pieces_eq ⟨ts, stop⟩
  intro hnil
  rw [hnil] at hpieces
  cases hpieces

/-- An empty line has no segments; else the first one is the sentence, and the others are the
segments of what is behind it. -/
theorem segments_eq (s : TokenStream) :
    s.segments = if s.atEnd then [] else s.cut :: s.afterSentence.tail.segments := by
  unfold segments
  simp only [pieces_eq s]
  by_cases hend : s.atEnd = true
  · obtain ⟨tokens, stop⟩ := s
    obtain rfl : tokens = [] := List.isEmpty_iff.1 hend
    rfl
  rw [if_neg hend]
  by_cases hafter : s.afterSentence.atEnd = true
  · -- nothing is behind the sentence, which is not empty
    have hnone : s.afterSentence.tokens = [] := List.isEmpty_iff.1 hafter
    have hcut : s.cut.tokens ≠ [] := by
      intro hempty
      have hsentence : s.sentence = [] := hempty
      have hlength := s.length_afterSentence
      rw [length, hnone, hsentence] at hlength
      exact hend (List.isEmpty_iff.2 (List.eq_nil_of_length_eq_zero hlength.symm))
    have htail : s.afterSentence.tail.tokens = [] := by
      rw [tail, hnone]
      rfl
    rw [if_pos hafter, htail]
    simp [hcut, pieces, atEnd]
  · -- the last piece is that of what is behind the sentence
    have hne := pieces_ne_nil s.stop s.afterSentence.tail.tokens
    rw [if_neg hafter, List.getLast?_cons_of_ne_nil hne, List.dropLast_cons_of_ne_nil hne]
    show _ = s.cut :: if _ then _ else _
    split
    · next hlast => exact congrArg (s.cut :: ·) (if_pos hlast).symm
    · next hlast => exact congrArg (s.cut :: ·) (if_neg hlast).symm

end TokenStream

end Reckoner
