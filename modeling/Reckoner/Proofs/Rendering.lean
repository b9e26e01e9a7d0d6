import Reckoner.Grammar.LineReader
import Reckoner.Proofs.Spelling
import Reckoner.Proofs.Statements

/-!
# Writing trees down

A tree that a line can denote is written down by choosing parentheses, enough of them and perhaps
more, and a spelling of each word.  Whatever is chosen, reading undoes it: the line is read as the
tree it was written for, up to locations, and to its end.

## Main definitions

* `IsName` — the names that can be written.
* `Node.IsExpression`, `Node.IsStatement` — the trees that a line can denote.
* `Grammar.BracketedStatement.Renders` — that a text is a way to write a tree down.

## Main results

* `Node.IsStatement.exists_renders` — every such tree can be written down.
* `LineReader.readStatement_of_renders` — **reading undoes writing.**
-/

namespace Reckoner

/-! ### Trees that can be written -/

/-- A name that can be written: it has the shape of a word and is not reserved. -/
def IsName (name : String) : Prop := Spells name.toList (.identifier name)

/-- A signature that can be written; the name of the function may be missing. -/
structure Signature.IsWritable (signature : Signature) : Prop where
  name : signature.name = "" ∨ IsName signature.name
  params : ∀ p ∈ signature.params, IsName p

/-- The trees that an expression can denote. -/
inductive Node.IsExpression : Node → Prop
  | number {value : Float} {l : Location} {text : String} :
      Spells text.toList (.number value) → IsExpression (.number value l)
  | reference {name : String} {l : Location} : IsName name → IsExpression (.reference name l)
  | assignment {name : String} {value : Node} {l : Location} : IsName name →
      IsExpression value → IsExpression (.assignment name value l)
  | binary {op : BinaryOperator} {left right : Node} {l : Location} : IsExpression left →
      IsExpression right → IsExpression (.binary op left right l)
  | call {callee : String} {args : List Node} {l : Location} : IsName callee →
      (∀ arg ∈ args, IsExpression arg) → IsExpression (.call callee args l)

/-- The trees that a statement can denote. -/
inductive Node.IsStatement : Node → Prop
  | declaration {name : String} {initial : Node} {l : Location} : IsName name →
      IsExpression initial → IsStatement (.declaration name initial l)
  | function {signature : Signature} {body : Node} {l : Location} : signature.IsWritable →
      IsExpression body → IsStatement (.function signature body l)
  | prototype {signature : Signature} : signature.IsWritable → IsStatement (.prototype signature)
  | expression {node : Node} : IsExpression node → IsStatement node

/-- A word that has a spelling. -/
def IsSpelled (w : Lexeme) : Prop := ∃ text : String, Spells text.toList w

theorem IsName.isSpelled {name : String} (h : IsName name) : IsSpelled (.identifier name) :=
  ⟨name, h⟩

theorem isSpelled_keyword (word : Keyword) : IsSpelled (.keyword word) := ⟨word.text, .keyword word⟩

theorem isSpelled_operator (op : BinaryOperator) : IsSpelled (.operator op.text) := by
  cases op with
  | add => exact ⟨"+", .mark (c := '+') rfl⟩
  | subtract => exact ⟨"-", .mark (c := '-') rfl⟩
  | multiply => exact ⟨"*", .mark (c := '*') rfl⟩
  | divide => exact ⟨"/", .mark (c := '/') rfl⟩
  | less => exact ⟨"<", .mark (c := '<') rfl⟩
  | greater => exact ⟨">", .mark (c := '>') rfl⟩
  | equal => exact ⟨"==", .doubleEquals⟩

theorem spells_open : Spells "(".toList (.operator "(") :=
  .mark (c := '(') rfl

theorem spells_close : Spells ")".toList (.operator ")") :=
  .mark (c := ')') rfl

theorem spells_comma : Spells ",".toList (.operator ",") :=
  .mark (c := ',') rfl

/-- Words that have spellings can be spelled one after the other. -/
theorem exists_spellings {ws : List Lexeme} (h : ∀ w ∈ ws, IsSpelled w) :
    ∃ texts : List String, List.Forall₂ (fun text w => Spells text.toList w) texts ws := by
  induction ws with
  | nil => exact ⟨[], .nil⟩
  | cons w ws ih =>
    obtain ⟨text, htext⟩ := h w List.mem_cons_self
    obtain ⟨texts, htexts⟩ := ih fun v hv => h v (List.mem_cons_of_mem w hv)
    exact ⟨text :: texts, .cons htext htexts⟩

namespace Grammar

theorem isSpelled_commaSeparated {wss : List (List Lexeme)}
    (h : ∀ ws ∈ wss, ∀ w ∈ ws, IsSpelled w) : ∀ w ∈ Parser.commaSeparated wss, IsSpelled w := by
  intro w hw
  rcases Parser.mem_commaSeparated hw with rfl | ⟨ws, hws, hw⟩
  · exact ⟨",", spells_comma⟩
  · exact h ws hws w hw

/-- Every tree that an expression can denote can be bracketed: with parentheses around each
operand, none is missing. -/
theorem exists_bracketed {node : Node} (h : node.IsExpression) :
    ∃ t : Bracketed, (t.Sufficient ∧ ∀ w ∈ t.words, IsSpelled w) ∧ t.tree = node.unplaced := by
  induction h with
  | @number value l text htext =>
    refine ⟨.number value, ⟨.number value, ?_⟩, by rw [Node.unplaced, Bracketed.tree]⟩
    intro w hw
    rw [Bracketed.words, List.mem_singleton] at hw
    subst hw
    exact ⟨text, htext⟩
  | @reference name l hname =>
    refine ⟨.reference name, ⟨.reference name, ?_⟩, by rw [Node.unplaced, Bracketed.tree]⟩
    intro w hw
    rw [Bracketed.words, List.mem_singleton] at hw
    subst hw
    exact hname.isSpelled
  | @assignment name value l hname _ ih =>
    obtain ⟨t, ⟨ht, hwords⟩, htree⟩ := ih
    refine ⟨.assignment name t, ⟨.assignment name ht, ?_⟩, by
      rw [Node.unplaced, Bracketed.tree, htree]⟩
    intro w hw
    rw [Bracketed.words, List.mem_cons, List.mem_cons] at hw
    rcases hw with rfl | rfl | hw
    · exact hname.isSpelled
    · exact ⟨"=", .equals⟩
    · exact hwords w hw
  | @binary op left right l _ _ ihleft ihright =>
    obtain ⟨tl, ⟨htl, hwordsl⟩, htreel⟩ := ihleft
    obtain ⟨tr, ⟨htr, hwordsr⟩, htreer⟩ := ihright
    -- parentheses bind as tightly as can be
    have hbinds : ∀ (t : Bracketed) (least : Nat), (Bracketed.parenthesized t).BindsAtLeast least := by
      intro t least outer hsome
      cases hsome
    refine ⟨.binary op (.parenthesized tl) (.parenthesized tr), ⟨.binary (.parenthesized htl)
      (.parenthesized htr) rfl (hbinds tl _) (hbinds tr _), ?_⟩, by
      rw [Node.unplaced, Bracketed.tree, Bracketed.tree, Bracketed.tree, htreel, htreer]⟩
    intro w hw
    simp only [Bracketed.words, List.cons_append, List.append_assoc, List.mem_cons,
      List.mem_append, List.not_mem_nil, or_false, false_or] at hw
    rcases hw with rfl | hw | rfl | rfl | rfl | hw | rfl
    · exact ⟨"(", spells_open⟩
    · exact hwordsl w hw
    · exact ⟨")", spells_close⟩
    · exact isSpelled_operator op
    · exact ⟨"(", spells_open⟩
    · exact hwordsr w hw
    · exact ⟨")", spells_close⟩
  | @call callee args l hname _ ih =>
    obtain ⟨ts, hts, htrees⟩ := exists_map_eq (List.forall_mem_map.2 ih)
    refine ⟨.call callee ts, ⟨.call callee fun t ht => (hts t ht).1, ?_⟩, by
      rw [Node.unplaced, Bracketed.tree, htrees]⟩
    have hargs : ∀ ws ∈ ts.map Bracketed.words, ∀ w ∈ ws, IsSpelled w := by
      intro ws hws
      obtain ⟨t, ht, rfl⟩ := List.mem_map.1 hws
      exact (hts t ht).2
    intro w hw
    rw [Bracketed.words, List.mem_cons, List.mem_cons, List.mem_append, List.mem_singleton] at hw
    rcases hw with rfl | rfl | hw | rfl
    · exact hname.isSpelled
    · exact ⟨"(", spells_open⟩
    · exact isSpelled_commaSeparated hargs w hw
    · exact ⟨")", spells_close⟩

theorem exists_signatureWords {signature : Signature} (h : signature.IsWritable) :
    ∃ name : Option String, name.getD "" = signature.name ∧
      ∀ w ∈ signatureWords name signature.params, IsSpelled w := by
  have hparams : ∀ w ∈ Parser.commaSeparated (signature.params.map fun p => [.identifier p]),
      IsSpelled w := by
    refine isSpelled_commaSeparated ?_
    intro ws hws w hw
    obtain ⟨p, hp, rfl⟩ := List.mem_map.1 hws
    rw [List.mem_singleton] at hw
    subst hw
    exact (h.params p hp).isSpelled
  have hbehind : ∀ w ∈ Lexeme.operator "(" :: (Parser.commaSeparated
      (signature.params.map fun p => [.identifier p]) ++ [.operator ")"]), IsSpelled w := by
    intro w hw
    rw [List.mem_cons, List.mem_append, List.mem_singleton] at hw
    rcases hw with rfl | hw | rfl
    · exact ⟨"(", spells_open⟩
    · exact hparams w hw
    · exact ⟨")", spells_close⟩
  rcases h.name with hmissing | hname
  · exact ⟨none, hmissing.symm, hbehind⟩
  · refine ⟨some signature.name, rfl, ?_⟩
    intro w hw
    rcases List.mem_cons.1 hw with rfl | hw
    · exact hname.isSpelled
    · exact hbehind w hw

/-! ### Statements written down -/

/-- `st.Renders node text`: the text is the statement `st` with its words spelled in some way and
single spaces between them; it has the tree `node`, and no necessary parenthesis is missing. -/
structure BracketedStatement.Renders (st : BracketedStatement) (node : Node) (text : String) :
    Prop where
  tree_eq : st.tree = node.unplaced
  sufficient : ∀ e, st.expression? = some e → e.Sufficient
  spelled : ∃ texts : List String,
    List.Forall₂ (fun text w => Spells text.toList w) texts st.words ∧ text = " ".intercalate texts

end Grammar

open Grammar

/-- Every tree that a statement can denote can be written down. -/
theorem Node.IsStatement.exists_renders {node : Node} (h : node.IsStatement) :
    ∃ (st : BracketedStatement) (text : String), st.Renders node text := by
  have hstatement : ∃ st : BracketedStatement, st.tree = node.unplaced ∧
      (∀ e, st.expression? = some e → e.Sufficient) ∧ ∀ w ∈ st.words, IsSpelled w := by
    cases h with
    | @declaration name initial l hname hinitial =>
      obtain ⟨t, ⟨ht, hwords⟩, htree⟩ := exists_bracketed hinitial
      refine ⟨.declaration name (some t), ?_, ?_, ?_⟩
      · rw [BracketedStatement.tree, Node.unplaced, htree]
      · rintro e ⟨⟩
        exact ht
      · intro w hw
        rw [BracketedStatement.words, List.mem_cons, List.mem_cons, List.mem_cons] at hw
        rcases hw with rfl | rfl | rfl | hw
        · exact isSpelled_keyword .letWord
        · exact hname.isSpelled
        · exact ⟨"=", .equals⟩
        · exact hwords w hw
    | @function signature body l hsignature hbody =>
      obtain ⟨t, ⟨ht, hwords⟩, htree⟩ := exists_bracketed hbody
      obtain ⟨name, hname, hspelled⟩ := exists_signatureWords hsignature
      refine ⟨.function name signature.params t, ?_, ?_, ?_⟩
      · rw [BracketedStatement.tree, Node.unplaced, htree, Signature.unplaced, hname]
      · rintro e ⟨⟩
        exact ht
      · intro w hw
        rw [BracketedStatement.words, List.mem_cons, List.mem_append, List.mem_cons] at hw
        rcases hw with rfl | hw | rfl | hw
        · exact isSpelled_keyword .functionWord
        · exact hspelled w hw
        · exact ⟨"=>", .arrow⟩
        · exact hwords w hw
    | @prototype signature hsignature =>
      obtain ⟨name, hname, hspelled⟩ := exists_signatureWords hsignature
      refine ⟨.prototype name signature.params, ?_, ?_, ?_⟩
      · rw [BracketedStatement.tree, Node.unplaced, Signature.unplaced, hname]
      · rintro e ⟨⟩
      · intro w hw
        rw [BracketedStatement.words, List.mem_cons] at hw
        rcases hw with rfl | hw
        · exact isSpelled_keyword .externWord
        · exact hspelled w hw
    | expression hexpression =>
      obtain ⟨t, ⟨ht, hwords⟩, htree⟩ := exists_bracketed hexpression
      refine ⟨.expression t, htree, ?_, hwords⟩
      rintro e ⟨⟩
      exact ht
  obtain ⟨st, htree, hsufficient, hwords⟩ := hstatement
  obtain ⟨texts, htexts⟩ := exists_spellings hwords
  exact ⟨st, " ".intercalate texts, htree, hsufficient, texts, htexts, rfl⟩

/-- **Reading undoes writing.**  A tree that a statement can denote can be written down; and in
whatever way this is done, if no expression lies beyond the limit of nesting, then the reader of
the text reads a statement with this tree, up to locations, and is at the end of the text. -/
theorem LineReader.readStatement_of_renders {node : Node} (h : node.IsStatement) :
    (∃ (st : BracketedStatement) (text : String), st.Renders node text) ∧
      ∀ (st : BracketedStatement) (text : String), st.Renders node text →
        (∀ e, st.expression? = some e → e.levels ≤ maxNesting) →
        ∃ (r after : LineReader) (read : Node), LineReader.ofString? text = .ok r ∧
          r.readStatement = (.ok read, after) ∧ read.unplaced = node.unplaced ∧
          after.atEnd = true := by
  refine ⟨h.exists_renders, ?_⟩
  rintro st text ⟨htree, hsufficient, texts, htexts, rfl⟩ hlevels
  obtain ⟨s, htokens, hlexemes⟩ := (spellsAll_intercalate htexts).tokenize .start
  have hspans : s.Spans st.words ⟨[], s.stop⟩ := by
    rw [← hlexemes]
    exact s.spans_lexemes
  have hwritten : st.WellWritten := fun e he => ⟨hsufficient e he, hlevels e he⟩
  obtain ⟨read, hbody, hread⟩ :=
    body_of_bracketed hwritten hspans (endsExpression_endOfInput s.stop)
  have hstatement : statement s = .ok read ⟨[], s.stop⟩ :=
    statement_eq_ok_iff.2 ⟨⟨[], s.stop⟩, hbody, rfl, rfl⟩
  have hrest : (⟨[], s.stop⟩ : TokenStream).IsRestOf (TokenTape.ofStream s).unread := by
    rw [TokenTape.unread_ofStream]
    exact ⟨rfl, List.nil_suffix⟩
  refine ⟨.ofTape (.ofStream s), _, read, LineReader.ofString?_of_tokenize htokens,
    LineReader.readStatement_of_ok hstatement, hread.trans htree, ?_⟩
  show ((TokenTape.ofStream s).seek ⟨[], s.stop⟩).unread.atEnd = true
  rw [TokenTape.unread_seek hrest]
  rfl

/-- An assignment that is the left operand of a sum needs its parentheses, and is read with them. -/
theorem LineReader.readStatement_sum :
    ∃ (r after : LineReader) (read : Node), LineReader.ofString? "( x = 2 ) + 3" = .ok r ∧
      r.readStatement = (.ok read, after) ∧ read.unplaced =
        .binary .add (.assignment "x" (.number (.ofScientific 2 true 0) .start) .start)
          (.number (.ofScientific 3 true 0) .start) .start ∧
      after.atEnd = true := by
  have hx : IsName "x" := .identifier ⟨'x', [], rfl, rfl, by simp⟩ rfl
  have htwo : Spells "2".toList (.number (.ofScientific 2 true 0)) :=
    .number ⟨'2', [], rfl, rfl, by simp⟩ rfl
  have hthree : Spells "3".toList (.number (.ofScientific 3 true 0)) :=
    .number ⟨'3', [], rfl, rfl, by simp⟩ rfl
  have hplus : Spells "+".toList (.operator "+") :=
    .mark (c := '+') rfl
  have hnode : (Node.binary .add
      (.assignment "x" (.number (.ofScientific 2 true 0) .start) .start)
      (.number (.ofScientific 3 true 0) .start) .start).IsStatement :=
    .expression (.binary (.assignment hx (.number htwo)) (.number hthree))
  have hread := (readStatement_of_renders hnode).2
    (.expression (.binary .add
      (.parenthesized (.assignment "x" (.number (.ofScientific 2 true 0))))
      (.number (.ofScientific 3 true 0)))) "( x = 2 ) + 3"
  simp only [Node.unplaced] at hread
  refine hread ⟨?_, ?_, ["(", "x", "=", "2", ")", "+", "3"], ?_, rfl⟩ ?_
  · simp [BracketedStatement.tree, Bracketed.tree, Node.unplaced]
  · rintro e ⟨⟩
    refine .binary (.parenthesized (.assignment "x" (.number _))) (.number _) rfl ?_ ?_
    · rintro op ⟨⟩
    · rintro op ⟨⟩
  · simp only [BracketedStatement.words, Bracketed.words]
    exact .cons spells_open (.cons hx (.cons .equals (.cons htwo (.cons spells_close
      (.cons hplus (.cons hthree .nil))))))
  · rintro e ⟨⟩
    simp [Bracketed.levels, maxNesting]

end Reckoner
