import Reckoner.Grammar.LineReader
import Reckoner.Proofs.Statements

/-!
# The language that is read

The grammar of the language says which rows of words are sentences, without a word on
precedence: an expression is a row of operands with operators between them, the last of which may
be an assignment.  The reader of statements accepts exactly the sentences, up to the first
semicolon or the end of the line, in which no expression lies beyond the limit of nesting.

A flat row of operands becomes a bracketed expression by hanging each operand in front of it into
the left side of what it stands before, as deep as its operator binds; and a bracketed expression
becomes a flat row by forgetting how it is grouped.

## Main definitions

* `Grammar.Derives` — the rows of words that are operands or expressions at a level of nesting.
* `Grammar.IsSignature`, `Grammar.IsStatement` — the rows of words that are signatures, statements.

## Main results

* `Bracketed.Sufficient.derives` — the words of a bracketed expression are an expression.
* `Derives.exists_brackets` — every expression can be bracketed sufficiently.
* `LineReader.readStatement_accepts` — **the reader accepts exactly the language.**
-/

namespace Reckoner

namespace Grammar

open Reckoner.Parser

/-! ### The grammar -/

/-- The two kinds of phrases that contain each other. -/
inductive Phrase where
  /-- A number, a name, a call, or an expression in parentheses. -/
  | operand
  /-- Operands with operators between them. -/
  | expression
  deriving DecidableEq

/-- `Derives phrase level ws`: the words `ws` are a phrase of the given kind.  The level is that
of the expression itself, or of the expression that the operand belongs to; the outermost
expression has level one, and the expressions in parentheses, in arguments and behind an equals
sign lie one level deeper.  No level goes beyond the limit. -/
inductive Derives : Phrase → Nat → List Lexeme → Prop
  | number {level : Nat} (value : Float) : Derives .operand level [.number value]
  | reference {level : Nat} (name : String) : Derives .operand level [.identifier name]
  | call {level : Nat} (name : String) {args : List (List Lexeme)} :
      (∀ arg ∈ args, Derives .expression (level + 1) arg) →
      Derives .operand level
        (.identifier name :: .operator "(" :: (commaSeparated args ++ [.operator ")"]))
  | parenthesized {level : Nat} {ws : List Lexeme} : Derives .expression (level + 1) ws →
      Derives .operand level (.operator "(" :: (ws ++ [.operator ")"]))
  | alone {level : Nat} {ws : List Lexeme} : level ≤ maxNesting → Derives .operand level ws →
      Derives .expression level ws
  | assignment {level : Nat} (name : String) {ws : List Lexeme} : level ≤ maxNesting →
      Derives .expression (level + 1) ws →
      Derives .expression level (.identifier name :: .operator "=" :: ws)
  | operation {level : Nat} {v ws : List Lexeme} (op : BinaryOperator) :
      Derives .operand level v → Derives .expression level ws →
      Derives .expression level (v ++ .operator op.text :: ws)

/-- The words `ws` are the name of a function, which may be missing, and its parameters. -/
def IsSignature (ws : List Lexeme) : Prop := ∃ name params, ws = signatureWords name params

/-- The words `ws` are a statement, and no expression in it lies beyond the limit of nesting. -/
inductive IsStatement : List Lexeme → Prop
  | declaration (name : String) : IsStatement [.keyword .letWord, .identifier name]
  | initialized (name : String) {ws : List Lexeme} : Derives .expression 1 ws →
      IsStatement (.keyword .letWord :: .identifier name :: .operator "=" :: ws)
  | function {v ws : List Lexeme} : IsSignature v → Derives .expression 1 ws →
      IsStatement (.keyword .functionWord :: (v ++ .operator "=>" :: ws))
  | prototype {v : List Lexeme} : IsSignature v → IsStatement (.keyword .externWord :: v)
  | expression {ws : List Lexeme} : Derives .expression 1 ws → IsStatement ws

/-! ### From brackets to flat rows -/

/-- The words of a bracketed expression are an expression; and they may stand in front of an
operator and an expression, unless an assignment would swallow these. -/
theorem Bracketed.Sufficient.derives {t : Bracketed} (h : t.Sufficient) :
    ∀ level : Nat, level + t.levels ≤ maxNesting + 1 →
      Derives .expression level t.words ∧
        (t.isOpen = false → ∀ (op : BinaryOperator) {ws : List Lexeme},
          Derives .expression level ws →
          Derives .expression level (t.words ++ .operator op.text :: ws)) := by
  -- an operand may stand alone or in front
  have hoperand : ∀ {level : Nat} {v : List Lexeme}, Derives .operand level v → level ≤ maxNesting →
      Derives .expression level v ∧ ∀ (op : BinaryOperator) {ws : List Lexeme},
        Derives .expression level ws → Derives .expression level (v ++ .operator op.text :: ws) :=
    fun hv hlevel => ⟨.alone hlevel hv, fun op _ hws => .operation op hv hws⟩
  induction h with
  | number value =>
    intro level hlevels
    rw [levels] at hlevels
    rw [words]
    have hlevel : level ≤ maxNesting := by omega
    obtain ⟨halone, hfront⟩ := hoperand (.number value) hlevel
    exact ⟨halone, fun _ => hfront⟩
  | reference name =>
    intro level hlevels
    rw [levels] at hlevels
    rw [words]
    have hlevel : level ≤ maxNesting := by omega
    obtain ⟨halone, hfront⟩ := hoperand (.reference name) hlevel
    exact ⟨halone, fun _ => hfront⟩
  | @call callee args _ ih =>
    intro level hlevels
    have hargs : ∀ arg ∈ args.map words, Derives .expression (level + 1) arg := by
      intro ws hws
      obtain ⟨arg, harg, rfl⟩ := List.mem_map.1 hws
      have hlt : arg.levels < (Bracketed.call callee args).levels := levels_arg_lt harg
      exact (ih arg harg (level + 1) (by omega)).1
    have hpos := (Bracketed.call callee args).levels_pos
    rw [words]
    obtain ⟨halone, hfront⟩ := hoperand (.call callee hargs) (by omega)
    exact ⟨halone, fun _ => hfront⟩
  | @assignment name value _ ih =>
    intro level hlevels
    rw [levels] at hlevels
    rw [words]
    have hvalue := (ih (level + 1) (by omega)).1
    refine ⟨.assignment name (by omega) hvalue, fun hopen => ?_⟩
    rw [isOpen] at hopen
    cases hopen
  | @binary op left right _ _ hclosed _ _ ihleft ihright =>
    intro level hlevels
    rw [levels] at hlevels
    rw [words, isOpen]
    obtain ⟨-, hleft⟩ := ihleft level (by omega)
    obtain ⟨hright, hfront⟩ := ihright level (by omega)
    refine ⟨hleft hclosed op hright, fun hopen next ws hws => ?_⟩
    rw [List.append_assoc, List.cons_append]
    exact hleft hclosed op (hfront hopen next hws)
  | @parenthesized inner _ ih =>
    intro level hlevels
    rw [levels] at hlevels
    rw [words]
    obtain ⟨halone, hfront⟩ :=
      hoperand (.parenthesized (ih (level + 1) (by omega)).1) (by omega)
    exact ⟨halone, fun _ => hfront⟩

/-! ### From flat rows to brackets -/

/-- An operand in front of an operator and an expression goes into the left side of the expression,
down to where the operator binds looser than what stands there. -/
theorem Bracketed.Sufficient.exists_operation {first : Bracketed} (hfirst : first.Sufficient)
    (houter : first.outermost = none) (hclosed : first.isOpen = false) (op : BinaryOperator)
    {t : Bracketed} (h : t.Sufficient) :
    ∃ u : Bracketed, u.Sufficient ∧ u.words = first.words ++ .operator op.text :: t.words ∧
      u.levels = max first.levels t.levels ∧ u.isOpen = t.isOpen ∧
      ∀ least ≤ op.precedence, t.BindsAtLeast least → u.BindsAtLeast least := by
  have hbinds : ∀ least, first.BindsAtLeast least := by
    intro least outer hsome
    rw [houter] at hsome
    cases hsome
  -- if the operator binds looser than the whole expression, it is the outermost one
  have hroot : ∀ {t : Bracketed}, t.Sufficient → t.BindsAtLeast (op.precedence + 1) →
      ∃ u : Bracketed, u.Sufficient ∧ u.words = first.words ++ .operator op.text :: t.words ∧
        u.levels = max first.levels t.levels ∧ u.isOpen = t.isOpen ∧
        ∀ least ≤ op.precedence, t.BindsAtLeast least → u.BindsAtLeast least := by
    intro t ht htighter
    refine ⟨.binary op first t, .binary hfirst ht hclosed (hbinds _) htighter, ?_, ?_, ?_, ?_⟩
    · rw [words]
    · rw [levels]
    · rw [isOpen]
    · intro least hle _ outer hsome
      cases hsome
      exact hle
  have hnone : ∀ {t : Bracketed} {least : Nat}, t.outermost = none → t.BindsAtLeast least := by
    intro t least hnone outer hsome
    rw [hnone] at hsome
    cases hsome
  induction h with
  | number value => exact hroot (.number value) (hnone rfl)
  | reference name => exact hroot (.reference name) (hnone rfl)
  | call callee hargs _ => exact hroot (.call callee hargs) (hnone rfl)
  | assignment name hvalue _ => exact hroot (.assignment name hvalue) (hnone rfl)
  | parenthesized hinner _ => exact hroot (.parenthesized hinner) (hnone rfl)
  | @binary next left right hleft hright hclosed' hbindsl hbindsr ihleft _ =>
    rcases Nat.lt_or_ge op.precedence next.precedence with hlt | hge
    · refine hroot (.binary hleft hright hclosed' hbindsl hbindsr) fun outer hsome => ?_
      cases hsome
      exact hlt
    · obtain ⟨u, hu, hwords, hlevels, hopen, hleast⟩ := ihleft
      refine ⟨.binary next u right, .binary hu hright (hopen.trans hclosed')
        (hleast next.precedence hge hbindsl) hbindsr, ?_, ?_, ?_, ?_⟩
      · rw [words, hwords, words, List.append_assoc, List.cons_append]
      · rw [levels, hlevels, levels, Nat.max_assoc]
      · rw [isOpen, isOpen]
      · intro least _ hbinds outer hsome
        cases hsome
        exact hbinds next rfl

/-- What an operand or an expression at a level can be bracketed as. -/
def Phrase.Brackets : Phrase → Nat → Bracketed → Prop
  | .operand, level, t => t.Sufficient ∧ t.outermost = none ∧ t.isOpen = false ∧
    (level ≤ maxNesting → level + t.levels ≤ maxNesting + 1)
  | .expression, level, t => t.Sufficient ∧ level + t.levels ≤ maxNesting + 1

/-- Every operand and every expression can be bracketed sufficiently. -/
theorem Derives.exists_brackets {phrase : Phrase} {level : Nat} {ws : List Lexeme}
    (h : Derives phrase level ws) : ∃ t : Bracketed, phrase.Brackets level t ∧ t.words = ws := by
  induction h with
  | number value =>
    refine ⟨.number value, ⟨.number value, rfl, rfl, ?_⟩, by rw [Bracketed.words]⟩
    rw [Bracketed.levels]
    omega
  | reference name =>
    refine ⟨.reference name, ⟨.reference name, rfl, rfl, ?_⟩, by rw [Bracketed.words]⟩
    rw [Bracketed.levels]
    omega
  | @call level name args _ ih =>
    obtain ⟨ts, hts, hwords⟩ := exists_map_eq ih
    refine ⟨.call name ts, ⟨.call name fun t ht => (hts t ht).1, rfl, rfl,
      fun hlevel => ?_⟩, by rw [Bracketed.words, hwords]⟩
    have hle : (Bracketed.call name ts).levels ≤ maxNesting - level + 1 := by
      refine Bracketed.levels_call_le fun t ht => ?_
      have := (hts t ht).2
      omega
    omega
  | @parenthesized level ws _ ih =>
    obtain ⟨t, ⟨ht, hlevels⟩, rfl⟩ := ih
    refine ⟨.parenthesized t, ⟨.parenthesized ht, rfl, rfl, ?_⟩, by rw [Bracketed.words]⟩
    rw [Bracketed.levels]
    omega
  | alone hlevel _ ih =>
    obtain ⟨t, ⟨ht, -, -, hlevels⟩, hwords⟩ := ih
    exact ⟨t, ⟨ht, hlevels hlevel⟩, hwords⟩
  | assignment name hlevel _ ih =>
    obtain ⟨t, ⟨ht, hlevels⟩, rfl⟩ := ih
    refine ⟨.assignment name t, ⟨.assignment name ht, ?_⟩, by rw [Bracketed.words]⟩
    rw [Bracketed.levels]
    omega
  | operation op _ _ ihfirst ih =>
    obtain ⟨first, ⟨hfirst, houter, hclosed, hfirstLevels⟩, rfl⟩ := ihfirst
    obtain ⟨t, ⟨ht, hlevels⟩, rfl⟩ := ih
    obtain ⟨u, hu, hwords, huLevels, -⟩ := hfirst.exists_operation houter hclosed op ht
    have hpos := t.levels_pos
    refine ⟨u, ⟨hu, ?_⟩, hwords⟩
    have hle := hfirstLevels (by omega)
    omega

/-! ### Statements -/

/-- The rows of words that are statements are those that well written statements are written
with. -/
theorem isStatement_iff {ws : List Lexeme} :
    IsStatement ws ↔ ∃ st : BracketedStatement, st.WellWritten ∧ st.words = ws := by
  -- an expression at the outermost level has exactly the levels of the limit to use
  have hbrackets : ∀ {ws : List Lexeme}, Derives .expression 1 ws →
      ∃ t : Bracketed, (t.Sufficient ∧ t.levels ≤ maxNesting) ∧ t.words = ws := by
    intro ws h
    obtain ⟨t, ⟨ht, hlevels⟩, hwords⟩ := h.exists_brackets
    exact ⟨t, ⟨ht, by omega⟩, hwords⟩
  have hderives : ∀ {t : Bracketed}, t.Sufficient ∧ t.levels ≤ maxNesting →
      Derives .expression 1 t.words := fun ⟨ht, hlevels⟩ => (ht.derives 1 (by omega)).1
  constructor
  · intro h
    cases h with
    | declaration name =>
      exact ⟨.declaration name none, fun e he => absurd he (by simp [BracketedStatement.expression?]),
        rfl⟩
    | initialized name hinitial =>
      obtain ⟨t, ht, rfl⟩ := hbrackets hinitial
      refine ⟨.declaration name (some t), fun e he => ?_, rfl⟩
      cases he
      exact ht
    | function hsignature hbody =>
      obtain ⟨name, params, rfl⟩ := hsignature
      obtain ⟨t, ht, rfl⟩ := hbrackets hbody
      refine ⟨.function name params t, fun e he => ?_, rfl⟩
      cases he
      exact ht
    | prototype hsignature =>
      obtain ⟨name, params, rfl⟩ := hsignature
      exact ⟨.prototype name params, fun e he => absurd he (by simp [BracketedStatement.expression?]),
        rfl⟩
    | expression hexpression =>
      obtain ⟨t, ht, rfl⟩ := hbrackets hexpression
      refine ⟨.expression t, fun e he => ?_, rfl⟩
      cases he
      exact ht
  · rintro ⟨st, hst, rfl⟩
    cases st with
    | declaration name initial =>
      cases initial with
      | none => exact .declaration name
      | some e => exact .initialized name (hderives (hst e rfl))
    | function name params e => exact .function ⟨name, params, rfl⟩ (hderives (hst e rfl))
    | prototype name params => exact .prototype ⟨name, params, rfl⟩
    | expression e => exact .expression (hderives (hst e rfl))

/-- No phrase has a semicolon in it. -/
theorem Derives.semicolon_notMem {phrase : Phrase} {level : Nat} {ws : List Lexeme}
    (h : Derives phrase level ws) : .operator ";" ∉ ws := by
  induction h with
  | number value => simp
  | reference name => simp
  | call name _ ih =>
    intro hmem
    simp only [List.mem_cons, List.mem_append, reduceCtorEq, Lexeme.operator.injEq, String.reduceEq,
      List.not_mem_nil, or_false, false_or] at hmem
    rcases mem_commaSeparated hmem with heq | ⟨ws, hws, hw⟩
    · simp at heq
    · exact ih ws hws hw
  | parenthesized _ ih => simp [ih]
  | alone _ _ ih => exact ih
  | assignment name _ _ ih => simp [ih]
  | operation op _ _ ihfirst ih =>
    have hop : ";" ≠ op.text := by cases op <;> decide
    simp [ihfirst, ih, hop]

theorem IsSignature.semicolon_notMem {ws : List Lexeme} (h : IsSignature ws) :
    .operator ";" ∉ ws := by
  obtain ⟨name, params, rfl⟩ := h
  intro hmem
  rw [signatureWords, List.mem_append, List.mem_cons, List.mem_append, List.mem_singleton] at hmem
  rcases hmem with hname | hopen | hparams | hclose
  · obtain ⟨found, -, heq⟩ := List.mem_map.1 hname
    cases heq
  · simp at hopen
  · rcases mem_commaSeparated hparams with heq | ⟨ws, hws, hw⟩
    · simp at heq
    · obtain ⟨param, -, rfl⟩ := List.mem_map.1 hws
      simp at hw
  · simp at hclose

theorem IsStatement.semicolon_notMem {ws : List Lexeme} (h : IsStatement ws) :
    .operator ";" ∉ ws := by
  cases h with
  | declaration name => simp
  | initialized name hinitial => simp [hinitial.semicolon_notMem]
  | function hsignature hbody => simp [hsignature.semicolon_notMem, hbody.semicolon_notMem]
  | prototype hsignature => simp [hsignature.semicolon_notMem]
  | expression hexpression => exact hexpression.semicolon_notMem

/-- A statement is read exactly if the words up to the first semicolon or the end are one; then
the semicolon is read too. -/
theorem statement_eq_ok {s : TokenStream} (h : IsStatement (s.sentence.map Token.lexeme)) :
    ∃ node, statement s = .ok node s.afterSentence.tail := by
  obtain ⟨st, hst, hwords⟩ := isStatement_iff.1 h
  have hspans := s.spans_sentence
  have hends := s.endsStatement_afterSentence
  rw [← hwords] at hspans
  obtain ⟨node, hbody, -⟩ :=
    body_of_bracketed hst hspans (endsExpression_of_endsStatement hends)
  exact ⟨node, statement_eq_ok_iff.2 ⟨s.afterSentence, hbody, hends, rfl⟩⟩

/-- What is read as a statement is the sentence at the front of the stream. -/
theorem isStatement_of_statement {s u : TokenStream} {node : Node}
    (h : statement s = .ok node u) :
    IsStatement (s.sentence.map Token.lexeme) ∧ u = s.afterSentence.tail := by
  obtain ⟨t, hbody, hends, rfl⟩ := statement_eq_ok_iff.1 h
  obtain ⟨st, hst, hspans, -⟩ := bracketed_of_body hbody
  have hstatement : IsStatement st.words := isStatement_iff.2 ⟨st, hst, rfl⟩
  obtain ⟨rfl, hwords⟩ :=
    TokenStream.eq_afterSentence_of_spans hspans hstatement.semicolon_notMem hends
  rw [← hwords]
  exact ⟨hstatement, rfl⟩

end Grammar

namespace LineReader

open Grammar

/-- **The reader accepts exactly the language.**  From every position of every line, a statement is
read if the words up to the first semicolon or the end of the line are a statement, and then the
reader is just behind the semicolon, or at the end; and if they are none, the reading fails. -/
theorem readStatement_accepts (r : LineReader) :
    match r.readStatement with
    | (.ok _, after) =>
      IsStatement (r.tape.unread.sentence.map Token.lexeme) ∧ after.tape.line = r.tape.line ∧
        after.tape.position =
          min (r.tape.position + r.tape.unread.sentence.length + 1) r.tape.line.length
    | (.error _, _) => ¬ IsStatement (r.tape.unread.sentence.map Token.lexeme) := by
  rw [readStatement]
  cases hrun : statement r.tape.unread with
  | ok node u =>
    obtain ⟨hstatement, rfl⟩ := isStatement_of_statement hrun
    refine ⟨hstatement, rfl, ?_⟩
    have hunread := r.tape.length_unread
    have hafter := r.tape.unread.length_afterSentence
    show r.tape.line.length - r.tape.unread.afterSentence.tail.length = _
    rw [TokenStream.length_tail]
    omega
  | error e u =>
    intro hstatement
    obtain ⟨node, hok⟩ := statement_eq_ok hstatement
    rw [hrun] at hok
    cases hok

end LineReader

end Reckoner
