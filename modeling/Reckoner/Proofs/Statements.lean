import Reckoner.Proofs.BracketedReading
import Reckoner.Proofs.Segments

/-!
# Statements with their parentheses

What is known of expressions carries over to statements: a statement is read as a tree exactly if
it is written as a sufficiently bracketed statement with that tree, and no deeper nested than the
limit allows.

## Main definitions

* `Grammar.signatureWords` — the words of the name and the parameters of a function.
* `Grammar.BracketedStatement` — a statement with its parentheses.
* `BracketedStatement.words`, `BracketedStatement.tree` — its words and its tree.
* `BracketedStatement.WellWritten` — that its parentheses are sufficient, and not too many.
* `Grammar.ReadsBody` — the statements that are read, by what they begin with.

## Main results

* `Grammar.signature_eq_ok_iff` — a signature is read exactly from its words.
* `Grammar.statement_eq_ok_iff` — a statement is read with the semicolon or the end behind it.
* `Grammar.body_of_bracketed` — the words of a well written statement are read as its tree.
* `Grammar.bracketed_of_body` — what is read as a tree are the words of such a statement.
-/

namespace Reckoner.Grammar

open Reckoner.Parser

/-! ### Signatures -/

/-- The words of the name of a function, which may be missing, and of its parameters. -/
def signatureWords (name : Option String) (params : List String) : List Lexeme :=
  name.toList.map .identifier ++
    .operator "(" :: (commaSeparated (params.map fun p => [.identifier p]) ++ [.operator ")"])

/-- The parameters of a function are read exactly from their names with commas between them. -/
theorem params_eq_ok_iff {s u : TokenStream} {params : List String} :
    listUntilClosed (expectName .parameterName) .parameterEnd s = .ok params u ↔
      s.Spans (commaSeparated (params.map fun p => [.identifier p]) ++ [.operator ")"]) u := by
  constructor
  · intro hrun
    have hread : ∃ ps : List String, (∀ p ∈ ps, True) ∧
        s.Spans (commaSeparated (ps.map fun p => [.identifier p]) ++ [.operator ")"]) u ∧
        params.map id = ps.map id := by
      refine spans_of_listUntilClosed ?_ hrun
      intro s u name hname
      exact ⟨name, trivial, expectName_eq_ok_iff.1 hname, rfl⟩
    obtain ⟨ps, -, hspans, heq⟩ := hread
    rw [List.map_id, List.map_id] at heq
    rw [heq]
    exact hspans
  · intro hspans
    have hread : ∃ ps, listUntilClosed (expectName .parameterName) .parameterEnd s = .ok ps u ∧
        ps.map id = params.map id := by
      refine listUntilClosed_of_spans (.expectName _) ?_ ?_ hspans
      · intro name _ s u hs _
        exact ⟨name, expectName_eq_ok_iff.2 hs, rfl⟩
      · intro name _
        exact ⟨_, _, rfl, by simp⟩
    obtain ⟨ps, hrun, heq⟩ := hread
    rw [List.map_id, List.map_id] at heq
    rw [← heq]
    exact hrun

/-- A signature is read exactly from its words; it has the location of the first of them. -/
theorem signature_eq_ok_iff {s u : TokenStream} {result : Signature} :
    signature s = .ok result u ↔ ∃ name params, s.Spans (signatureWords name params) u ∧
      result = ⟨name.getD "", params, s.head.location⟩ := by
  rw [signature, bind_run_ok (current_run s)]
  constructor
  · intro hrun
    obtain ⟨name, t, hname, hrun⟩ := bind_eq_ok_iff.1 hrun
    obtain ⟨⟨⟩, v, hopen, hrun⟩ := bind_eq_ok_iff.1 hrun
    obtain ⟨params, w, hparams, hrun⟩ := bind_eq_ok_iff.1 hrun
    cases hrun
    obtain ⟨l, hhead, rfl⟩ := TokenStream.spans_singleton.1 (expectOperator_eq_ok_iff.1 hopen)
    refine ⟨name, params, TokenStream.spans_append.2 ⟨t, spans_of_acceptName hname, ?_⟩, rfl⟩
    exact ⟨l, hhead, params_eq_ok_iff.1 hparams⟩
  · rintro ⟨name, params, hspans, rfl⟩
    cases name with
    | some name =>
      obtain ⟨l, hhead, l', hopen, hrest⟩ := hspans
      rw [bind_run_ok (acceptName_run_of_head hhead),
        bind_run_ok (expectOperator_eq_ok_iff.2 ⟨l', hopen, rfl⟩),
        bind_run_ok (params_eq_ok_iff.2 hrest)]
      rfl
    | none =>
      obtain ⟨l, hopen, hrest⟩ := hspans
      have hne : ∀ name l, s.head ≠ .token ⟨.identifier name, l⟩ := by
        intro name l' hhead
        rw [hopen] at hhead
        cases hhead
      rw [bind_run_ok (acceptName_run_of_ne hne),
        bind_run_ok (expectOperator_eq_ok_iff.2 ⟨l, hopen, rfl⟩),
        bind_run_ok (params_eq_ok_iff.2 hrest)]
      rfl

/-! ### What ends a statement -/

/-- A statement ends at a semicolon, which is read, or at the end of the input. -/
theorem terminator_of_endsStatement {s : TokenStream} (h : s.head.endsStatement = true) :
    terminator s = .ok () s.tail := by
  rw [terminator, accept_bind_run]
  split
  · rfl
  · next hne =>
    obtain ⟨_ | ⟨a, tokens⟩, stop⟩ := s
    · rfl
    · rw [TokenStream.head_mk_cons, Entry.endsStatement, Bool.or_eq_true] at h
      rcases h with h | h
      · exact absurd h hne
      · cases h

/-- Nothing else ends a statement. -/
theorem terminator_of_not_endsStatement {s : TokenStream} (h : s.head.endsStatement = false) :
    terminator s = .error (.unexpected s.head .statementEnd) s := by
  rw [Entry.endsStatement, Bool.or_eq_false_iff] at h
  rw [terminator, accept_bind_run, h.1]
  simp only [Bool.false_eq_true, ↓reduceIte]
  rw [bind_run_ok (current_run s), h.2]
  rfl

/-- A statement is read with what ends it. -/
theorem statement_eq_ok_iff {s u : TokenStream} {node : Node} :
    statement s = .ok node u ↔
      ∃ t, body s = .ok node t ∧ t.head.endsStatement = true ∧ u = t.tail := by
  rw [statement]
  constructor
  · intro hrun
    obtain ⟨node', t, hbody, hrun⟩ := bind_eq_ok_iff.1 hrun
    obtain ⟨⟨⟩, v, hend, hrun⟩ := bind_eq_ok_iff.1 hrun
    cases hrun
    cases ht : t.head.endsStatement with
    | true =>
      rw [terminator_of_endsStatement ht] at hend
      cases hend
      exact ⟨t, hbody, ht, rfl⟩
    | false =>
      rw [terminator_of_not_endsStatement ht] at hend
      cases hend
  · rintro ⟨t, hbody, ht, rfl⟩
    rw [bind_run_ok hbody, bind_run_ok (terminator_of_endsStatement ht)]
    rfl

/-- What is behind a statement is to blame if it does not end it. -/
theorem statement_of_not_endsStatement {s t : TokenStream} {node : Node}
    (h : body s = .ok node t) (ht : t.head.endsStatement = false) :
    statement s = .error (.unexpected t.head .statementEnd) t := by
  rw [statement, bind_run_ok h]
  exact bind_run_error (terminator_of_not_endsStatement ht)

/-- What ends a statement ends an expression. -/
theorem endsExpression_of_endsStatement {e : Entry} (h : e.endsStatement = true) :
    EndsExpression e := by
  rw [Entry.endsStatement, Bool.or_eq_true] at h
  rcases h with h | h
  · exact endsExpression_of_isOperator h (by decide) (by decide) rfl
  · cases e with
    | token a => cases h
    | endOfInput l => exact endsExpression_endOfInput l

/-! ### Bracketed statements -/

/-- A statement with its parentheses. -/
inductive BracketedStatement where
  /-- A new name, with or without its first value. -/
  | declaration (name : String) (initial : Option Bracketed)
  /-- A function with its body. -/
  | function (name : Option String) (params : List String) (body : Bracketed)
  /-- A function that is announced but not defined. -/
  | prototype (name : Option String) (params : List String)
  /-- An expression. -/
  | expression (e : Bracketed)

namespace BracketedStatement

/-- The words a statement is written with. -/
def words : BracketedStatement → List Lexeme
  | declaration name none => [.keyword .letWord, .identifier name]
  | declaration name (some initial) =>
    .keyword .letWord :: .identifier name :: .operator "=" :: initial.words
  | function name params body =>
    .keyword .functionWord :: (signatureWords name params ++ .operator "=>" :: body.words)
  | prototype name params => .keyword .externWord :: signatureWords name params
  | expression e => e.words

/-- The tree a statement stands for. -/
def tree : BracketedStatement → Node
  | declaration name none => .declaration name (.number 0 .start) .start
  | declaration name (some initial) => .declaration name initial.tree .start
  | function name params body => .function ⟨name.getD "", params, .start⟩ body.tree .start
  | prototype name params => .prototype ⟨name.getD "", params, .start⟩
  | expression e => e.tree

/-- The expression in a statement, if there is one. -/
def expression? : BracketedStatement → Option Bracketed
  | declaration _ initial => initial
  | function _ _ body => some body
  | prototype _ _ => none
  | expression e => some e

/-- No necessary parenthesis is missing, and no expression lies beyond the limit of nesting. -/
def WellWritten (st : BracketedStatement) : Prop :=
  ∀ e, st.expression? = some e → e.Sufficient ∧ e.levels ≤ maxNesting

end BracketedStatement

/-- A statement that begins with no keyword is an expression. -/
theorem body_of_not_keyword {s : TokenStream}
    (h : ∀ word l, s.head ≠ .token ⟨.keyword word, l⟩) : body s = expression maxNesting s := by
  rw [body, bind_run_ok (current_run s)]
  cases hhead : s.head with
  | endOfInput l => rfl
  | token a =>
    obtain ⟨lexeme, l⟩ := a
    cases lexeme with
    | keyword word => exact absurd hhead (h word l)
    | identifier name => rfl
    | number value => rfl
    | operator text => rfl

theorem body_of_letWord {s : TokenStream} {l : Location}
    (h : s.head = .token ⟨.keyword .letWord, l⟩) : body s = declaration l s.tail := by
  rw [body, bind_run_ok (current_run s), h]
  rfl

theorem body_of_functionWord {s : TokenStream} {l : Location}
    (h : s.head = .token ⟨.keyword .functionWord, l⟩) : body s = function l s.tail := by
  rw [body, bind_run_ok (current_run s), h]
  rfl

theorem body_of_externWord {s : TokenStream} {l : Location}
    (h : s.head = .token ⟨.keyword .externWord, l⟩) :
    body s = (do return Node.prototype (← signature)) s.tail := by
  rw [body, bind_run_ok (current_run s), h]
  rfl

/-- The words of a well written statement are read as its tree, if nothing goes on with it. -/
theorem body_of_bracketed {st : BracketedStatement} (h : st.WellWritten) {s u : TokenStream}
    (hs : s.Spans st.words u) (hu : EndsExpression u.head) :
    ∃ node : Node, body s = .ok node u ∧ node.unplaced = st.tree := by
  cases st with
  | expression e =>
    obtain ⟨hsufficient, hlevels⟩ := h e rfl
    obtain ⟨node, hnode, htree⟩ := expression_of_bracketed hsufficient hlevels hs hu
    refine ⟨node, ?_, htree⟩
    rw [body_of_not_keyword, hnode]
    -- an expression does not begin with a keyword
    intro word l hhead
    obtain ⟨w, ws, hwords, hw⟩ := e.words_head
    rw [BracketedStatement.words, hwords] at hs
    obtain ⟨l', hhead', -⟩ := TokenStream.spans_cons.1 hs
    rw [hhead] at hhead'
    cases hhead'
    simp at hw
  | declaration name initial =>
    cases initial with
    | none =>
      obtain ⟨l, hlet, l', hname, rfl⟩ := hs
      have hread : expectName .declaredName s.tail = .ok name s.tail.tail :=
        expectName_eq_ok_iff.2 ⟨l', hname, rfl⟩
      refine ⟨.declaration name (.number 0 l') l, ?_, by
        rw [Node.unplaced, Node.unplaced, BracketedStatement.tree]⟩
      rw [body_of_letWord hlet, declaration, bind_run_ok (current_run _), bind_run_ok hread,
        accept_bind_run, hu.not_equals, hname]
      rfl
    | some initial =>
      obtain ⟨hsufficient, hlevels⟩ := h initial rfl
      obtain ⟨l, hlet, l', hname, l'', hequals, hs⟩ := hs
      obtain ⟨node, hnode, htree⟩ := expression_of_bracketed hsufficient hlevels hs hu
      have hread : expectName .declaredName s.tail = .ok name s.tail.tail :=
        expectName_eq_ok_iff.2 ⟨l', hname, rfl⟩
      refine ⟨.declaration name node l, ?_, by
        rw [Node.unplaced, htree, BracketedStatement.tree]⟩
      rw [body_of_letWord hlet, declaration, bind_run_ok (current_run _), bind_run_ok hread,
        accept_bind_run, if_pos (Entry.isOperator_iff.2 ⟨l'', hequals⟩)]
      simp only [↓reduceIte]
      rw [bind_run_ok hnode]
      rfl
  | function name params e =>
    obtain ⟨hsufficient, hlevels⟩ := h e rfl
    obtain ⟨l, hfunction, hs⟩ := hs
    obtain ⟨v, hsignature, l', harrow, hs⟩ := TokenStream.spans_append.1 hs
    obtain ⟨node, hnode, htree⟩ := expression_of_bracketed hsufficient hlevels hs hu
    refine ⟨.function ⟨name.getD "", params, s.tail.head.location⟩ node l, ?_, by
      rw [Node.unplaced, htree, BracketedStatement.tree, Signature.unplaced]⟩
    rw [body_of_functionWord hfunction, function,
      bind_run_ok (signature_eq_ok_iff.2 ⟨name, params, hsignature, rfl⟩),
      bind_run_ok (expectOperator_eq_ok_iff.2 ⟨l', harrow, rfl⟩), bind_run_ok hnode]
    rfl
  | prototype name params =>
    obtain ⟨l, hextern, hsignature⟩ := hs
    refine ⟨.prototype ⟨name.getD "", params, s.tail.head.location⟩, ?_, by
      rw [Node.unplaced, BracketedStatement.tree, Signature.unplaced]⟩
    rw [body_of_externWord hextern,
      bind_run_ok (signature_eq_ok_iff.2 ⟨name, params, hsignature, rfl⟩)]
    rfl

/-- The statements that are read with success, by what they begin with. -/
inductive ReadsBody : TokenStream → Node → TokenStream → Prop
  | declaration {s : TokenStream} {name : String} {l l' : Location} :
      s.head = .token ⟨.keyword .letWord, l⟩ → s.tail.head = .token ⟨.identifier name, l'⟩ →
      ReadsBody s (.declaration name (.number 0 l') l) s.tail.tail
  | initialized {s u : TokenStream} {name : String} {initial : Node} {l l' : Location} :
      s.head = .token ⟨.keyword .letWord, l⟩ → s.tail.head = .token ⟨.identifier name, l'⟩ →
      s.tail.tail.head.isOperator "=" = true →
      expression maxNesting s.tail.tail.tail = .ok initial u →
      ReadsBody s (.declaration name initial l) u
  | function {s t u : TokenStream} {name : Option String} {params : List String} {inside : Node}
      {l : Location} : s.head = .token ⟨.keyword .functionWord, l⟩ →
      s.tail.Spans (signatureWords name params) t → t.head.isOperator "=>" = true →
      expression maxNesting t.tail = .ok inside u →
      ReadsBody s (.function ⟨name.getD "", params, s.tail.head.location⟩ inside l) u
  | prototype {s u : TokenStream} {name : Option String} {params : List String} {l : Location} :
      s.head = .token ⟨.keyword .externWord, l⟩ → s.tail.Spans (signatureWords name params) u →
      ReadsBody s (.prototype ⟨name.getD "", params, s.tail.head.location⟩) u
  | expression {s u : TokenStream} {node : Node} : expression maxNesting s = .ok node u →
      ReadsBody s node u

/-- A statement that is read is one of these. -/
theorem readsBody_of_body {s u : TokenStream} {node : Node} (h : body s = .ok node u) :
    ReadsBody s node u := by
  by_cases hkeyword : ∃ word l, s.head = .token ⟨.keyword word, l⟩
  · obtain ⟨word, l, hhead⟩ := hkeyword
    cases word with
    | letWord =>
      rw [body_of_letWord hhead, Grammar.declaration, bind_run_ok (current_run _)] at h
      obtain ⟨name, t, hread, h⟩ := bind_eq_ok_iff.1 h
      obtain ⟨l', hname, rfl⟩ := TokenStream.spans_singleton.1 (expectName_eq_ok_iff.1 hread)
      rw [accept_bind_run] at h
      split at h
      · next hequals =>
        simp only [↓reduceIte] at h
        obtain ⟨initial, v, hinitial, h⟩ := bind_eq_ok_iff.1 h
        cases h
        exact .initialized hhead hname hequals hinitial
      · cases h
        rw [hname]
        exact .declaration hhead hname
    | functionWord =>
      rw [body_of_functionWord hhead, Grammar.function] at h
      obtain ⟨signature, t, hsignature, h⟩ := bind_eq_ok_iff.1 h
      obtain ⟨⟨⟩, v, hread, h⟩ := bind_eq_ok_iff.1 h
      obtain ⟨inside, w, hbody, h⟩ := bind_eq_ok_iff.1 h
      cases h
      obtain ⟨name, params, hspans, rfl⟩ := signature_eq_ok_iff.1 hsignature
      obtain ⟨l', harrow, rfl⟩ := TokenStream.spans_singleton.1 (expectOperator_eq_ok_iff.1 hread)
      exact .function hhead hspans (Entry.isOperator_iff.2 ⟨l', harrow⟩) hbody
    | externWord =>
      rw [body_of_externWord hhead] at h
      obtain ⟨signature, t, hsignature, h⟩ := bind_eq_ok_iff.1 h
      cases h
      obtain ⟨name, params, hspans, rfl⟩ := signature_eq_ok_iff.1 hsignature
      exact .prototype hhead hspans
  · rw [body_of_not_keyword fun word l hhead => hkeyword ⟨word, l, hhead⟩] at h
    exact .expression h

/-- What is read as a statement are the words of a well written statement with that tree. -/
theorem bracketed_of_body {s u : TokenStream} {node : Node} (h : body s = .ok node u) :
    ∃ st : BracketedStatement, st.WellWritten ∧ s.Spans st.words u ∧ node.unplaced = st.tree := by
  -- the expression inside of a statement is well written
  have hwritten : ∀ {t : Bracketed} {s u : TokenStream} {node : Node},
      t.Records maxNesting s node u →
      ∀ e, some t = some e → e.Sufficient ∧ e.levels ≤ maxNesting := by
    rintro t s u node ht e ⟨⟩
    exact ⟨ht.sufficient, ht.levels_le⟩
  have hnone : ∀ e : Bracketed, none = some e → e.Sufficient ∧ e.levels ≤ maxNesting := by
    rintro e ⟨⟩
  cases readsBody_of_body h with
  | @declaration name l l' hhead hname =>
    refine ⟨.declaration name none, hnone, ⟨l, hhead, l', hname, rfl⟩, ?_⟩
    rw [Node.unplaced, Node.unplaced, BracketedStatement.tree]
  | @initialized _ name initial l l' hhead hname hequals hinitial =>
    obtain ⟨l'', hequals, -⟩ := TokenStream.spans_singleton.1 (spans_operator hequals)
    obtain ⟨t, ht⟩ := bracketed_of_expression hinitial
    refine ⟨.declaration name (some t), hwritten ht,
      ⟨l, hhead, l', hname, l'', hequals, ht.spans⟩, ?_⟩
    rw [Node.unplaced, ht.tree_eq, BracketedStatement.tree]
  | @function t _ name params inside l hhead hspans harrow hinside =>
    obtain ⟨l', harrow, -⟩ := TokenStream.spans_singleton.1 (spans_operator harrow)
    obtain ⟨e, he⟩ := bracketed_of_expression hinside
    refine ⟨.function name params e, hwritten he, ⟨l, hhead, ?_⟩, ?_⟩
    · exact TokenStream.spans_append.2 ⟨t, hspans, l', harrow, he.spans⟩
    · rw [Node.unplaced, he.tree_eq, BracketedStatement.tree, Signature.unplaced]
  | @prototype _ name params l hhead hspans =>
    refine ⟨.prototype name params, hnone, ⟨l, hhead, hspans⟩, ?_⟩
    rw [Node.unplaced, BracketedStatement.tree, Signature.unplaced]
  | expression hexpression =>
    obtain ⟨e, he⟩ := bracketed_of_expression hexpression
    exact ⟨.expression e, hwritten he, he.spans, he.tree_eq⟩

end Reckoner.Grammar
