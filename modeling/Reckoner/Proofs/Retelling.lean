import Reckoner.Proofs.Statements

/-!
# Retelling what is read

The grammar looks at the kinds of the words ahead, at the spelling of operators and at nothing
else: not at the names, not at the locations, and not at what is behind the semicolon that ends a
statement.  So whoever moves the words to other places, gives other names or cuts the line off at
the semicolon gets the same trees, with the same changes made to them, and the same failures.

Such a change is a retelling.  Every parser of the grammar but the one that reads the semicolon
commutes with every retelling, and the proof is a walk along the parsers, one lemma each.  Where
nothing is cut off, whole statements and whole lines commute as well.

## Main definitions

* `Node.map`, `ParseError.map` — the changes made to trees and to errors.
* `Retelling` — a change to token streams that the grammar cannot see.
* `Retelling.CommutesAt view p q s` — on the retold stream `q` does what `p` does on the stream
  `s`, retold.
* `Retelling.CutsNothing` — that a retelling keeps whole lines.

## Main results

* `Retelling.CommutesAt.bind` — steps that commute do so one after the other.
* `Retelling.commutesAt_expression`, `Retelling.commutesAt_body` — the grammar commutes with
  retellings.
* `Retelling.read_stream` — a whole line that is retold is read as the same script, retold.
-/

namespace Reckoner

/-! ### Changes to words, trees and errors -/

/-- A word with another name, if it is a name. -/
def Lexeme.rename (name : String → String) : Lexeme → Lexeme
  | identifier found => identifier (name found)
  | w => w

def Signature.map (place : Location → Location) (name : String → String) (signature : Signature) :
    Signature :=
  ⟨name signature.name, signature.params.map name, place signature.location⟩

/-- A tree with other places and names. -/
def Node.map (place : Location → Location) (name : String → String) : Node → Node
  | .number value l => .number value (place l)
  | .reference found l => .reference (name found) (place l)
  | .declaration found initial l => .declaration (name found) (initial.map place name) (place l)
  | .assignment found value l => .assignment (name found) (value.map place name) (place l)
  | .binary op left right l => .binary op (left.map place name) (right.map place name) (place l)
  | .call callee args l => .call (name callee) (args.map (Node.map place name)) (place l)
  | .prototype signature => .prototype (signature.map place name)
  | .function signature body l => .function (signature.map place name) (body.map place name) (place l)

theorem Node.map_id (node : Node) : node.map id id = node := by
  fun_induction Node.map id id node with
  | case1 value l => rfl
  | case2 found l => rfl
  | case3 found initial l ih => rw [ih]; rfl
  | case4 found value l ih => rw [ih]; rfl
  | case5 op left right l ihleft ihright => rw [ihleft, ihright]; rfl
  | case6 callee args l ih =>
    have hargs : args.map (Node.map id id) = args := by
      refine (List.map_congr_left ?_).trans (List.map_id args)
      intro arg harg
      exact ih arg harg
    rw [hargs]
    rfl
  | case7 signature => simp [Signature.map]
  | case8 signature body l ih => simp [Signature.map, ih]

/-- An error with other places, and with another entry as the one that is to blame. -/
def ParseError.map (place : Location → Location) (entry : Entry → Entry) : ParseError → ParseError
  | malformedNumber e => malformedNumber { e with location := place e.location }
  | nestedTooDeeply l => nestedTooDeeply (place l)
  | unexpected found expected => unexpected (entry found) expected

/-- What may become of an entry: a word stays the same word up to names, and a semicolon may become
the end of the stream. -/
inductive Entry.Retells (place : Location → Location) (name : String → String) :
    Entry → Entry → Prop
  | token (lexeme : Lexeme) (l : Location) : Retells place name (.token ⟨lexeme, l⟩)
      (.token ⟨lexeme.rename name, place l⟩)
  | cut (l : Location) :
      Retells place name (.token ⟨.operator ";", l⟩) (.endOfInput (place l))
  | endOfInput (l : Location) : Retells place name (.endOfInput l) (.endOfInput (place l))

namespace Entry.Retells

variable {place : Location → Location} {name : String → String} {e e' : Entry}

theorem location_eq (h : Entry.Retells place name e e') : e'.location = place e.location := by
  cases h <;> rfl

/-- Operators other than the semicolon stay what they are, and nothing becomes one. -/
theorem isOperator_eq (h : Entry.Retells place name e e') {text : String} (htext : text ≠ ";") :
    e'.isOperator text = e.isOperator text := by
  cases h with
  | token lexeme l => cases lexeme <;> rfl
  | cut l => exact (decide_eq_false htext.symm).symm
  | endOfInput l => rfl

theorem binaryOperator?_eq (h : Entry.Retells place name e e') :
    Grammar.binaryOperator? e' = Grammar.binaryOperator? e := by
  cases h with
  | token lexeme l => cases lexeme <;> rfl
  | cut l => rfl
  | endOfInput l => rfl

/-- What becomes a token was one, with the same word up to names. -/
theorem eq_token (h : Entry.Retells place name e e') {lexeme' : Lexeme} {l' : Location}
    (he' : e' = .token ⟨lexeme', l'⟩) :
    ∃ lexeme l, e = .token ⟨lexeme, l⟩ ∧ lexeme' = lexeme.rename name := by
  cases h with
  | token lexeme l =>
    cases he'
    exact ⟨lexeme, l, rfl, rfl⟩
  | cut l => cases he'
  | endOfInput l => cases he'

/-- A word that is no operator stays one. -/
theorem eq_of_token (h : Entry.Retells place name e e') {lexeme : Lexeme} {l : Location}
    (he : e = .token ⟨lexeme, l⟩) (hlexeme : ∀ text, lexeme ≠ .operator text) :
    e' = .token ⟨lexeme.rename name, place l⟩ := by
  cases h with
  | token lexeme l =>
    cases he
    rfl
  | cut l =>
    cases he
    exact absurd rfl (hlexeme ";")
  | endOfInput l => cases he

end Entry.Retells

/-! ### Retellings -/

/-- A change to token streams that the grammar cannot see: tokens get other places, names get other
names, and a semicolon may become the end of the stream. -/
structure Retelling where
  /-- Where something is afterwards. -/
  place : Location → Location
  /-- What a name is afterwards. -/
  name : String → String
  /-- What a stream is afterwards. -/
  stream : TokenStream → TokenStream
  /-- What an entry is afterwards. -/
  entry : Entry → Entry
  /-- The name that a function without a name has stays. -/
  name_empty : name "" = ""
  /-- An entry becomes one that the grammar takes for the same. -/
  retells : ∀ e, Entry.Retells place name e (entry e)
  /-- The entry that comes next is retold. -/
  head_stream : ∀ s, (stream s).head = entry s.head
  /-- So is what comes after it, unless it is a semicolon. -/
  tail_stream : ∀ s, s.head.isOperator ";" = false → (stream s).tail = stream s.tail

namespace Retelling

variable (m : Retelling) {α β γ δ : Type}

/-- What a tree is afterwards. -/
def node : Node → Node := Node.map m.place m.name

/-- What an error is afterwards. -/
def error : ParseError → ParseError := ParseError.map m.place m.entry

/-- What the end of a run is afterwards. -/
def result (view : α → β) :
    EStateM.Result ParseError TokenStream α → EStateM.Result ParseError TokenStream β
  | .ok a s => .ok (view a) (m.stream s)
  | .error e s => .error (m.error e) (m.stream s)

/-- On the retold stream, `q` does what `p` does on the stream `s`, retold. -/
def CommutesAt (view : α → β) (p : Parser α) (q : Parser β) (s : TokenStream) : Prop :=
  q (m.stream s) = m.result view (p s)

variable {m}

/-- Steps that commute do so one after the other. -/
theorem CommutesAt.bind {view : α → β} {view' : γ → δ} {p : Parser α} {q : Parser β}
    {f : α → Parser γ} {g : β → Parser δ} {s : TokenStream} (h : m.CommutesAt view p q s)
    (hnext : ∀ a t, p s = .ok a t → m.CommutesAt view' (f a) (g (view a)) t) :
    m.CommutesAt view' (p >>= f) (q >>= g) s := by
  unfold CommutesAt at h ⊢
  cases hrun : p s with
  | error e t =>
    rw [hrun] at h
    rw [Parser.bind_run_error hrun, Parser.bind_run_error h]
    rfl
  | ok a t =>
    rw [hrun] at h
    rw [Parser.bind_run_ok hrun, Parser.bind_run_ok h]
    exact hnext a t hrun

theorem CommutesAt.pure {view : α → β} {a : α} {b : β} (h : view a = b) (s : TokenStream) :
    m.CommutesAt view (pure a) (pure b) s := by
  subst h
  rfl

theorem commutesAt_reject (view : α → β) (expected : Expectation) (s : TokenStream) :
    m.CommutesAt view (Parser.reject expected) (Parser.reject expected) s := by
  show Parser.reject expected (m.stream s) = _
  rw [Parser.reject_run, m.head_stream]
  rfl

theorem isOperator_head {text : String} (htext : text ≠ ";") (s : TokenStream) :
    (m.stream s).head.isOperator text = s.head.isOperator text := by
  rw [m.head_stream, (m.retells s.head).isOperator_eq htext]

/-- What is no semicolon is gone past in the same way. -/
theorem tail_of_isOperator {text : String} (htext : text ≠ ";") {s : TokenStream}
    (h : s.head.isOperator text = true) : (m.stream s).tail = m.stream s.tail := by
  obtain ⟨l, hhead⟩ := Entry.isOperator_iff.1 h
  refine m.tail_stream s ?_
  rw [hhead, Entry.isOperator_operator]
  exact decide_eq_false htext

theorem commutesAt_accept {text : String} (htext : text ≠ ";") (s : TokenStream) :
    m.CommutesAt id (Parser.accept text) (Parser.accept text) s := by
  unfold CommutesAt
  rw [Parser.accept_run, Parser.accept_run, isOperator_head htext]
  by_cases h : s.head.isOperator text = true
  · rw [if_pos h, if_pos h, tail_of_isOperator htext h]
    rfl
  · rw [if_neg h, if_neg h]
    rfl

theorem commutesAt_expectOperator {text : String} (htext : text ≠ ";") (expected : Expectation)
    (s : TokenStream) :
    m.CommutesAt id (Parser.expectOperator text expected) (Parser.expectOperator text expected)
      s := by
  refine (commutesAt_accept htext s).bind ?_
  intro found t _
  cases found with
  | true => exact .pure rfl t
  | false => exact commutesAt_reject id expected t

/-- A token that comes next afterwards has come next before. -/
theorem head_eq_token {s : TokenStream} {lexeme : Lexeme} {l : Location}
    (h : (m.stream s).head = .token ⟨lexeme, l⟩) :
    ∃ lexeme' l', s.head = .token ⟨lexeme', l'⟩ ∧ lexeme = lexeme'.rename m.name := by
  rw [m.head_stream] at h
  exact (m.retells s.head).eq_token h

theorem head_ne_identifier {s : TokenStream}
    (h : ∀ name l, s.head ≠ .token ⟨.identifier name, l⟩) (name : String) (l : Location) :
    (m.stream s).head ≠ .token ⟨.identifier name, l⟩ := by
  intro hhead
  obtain ⟨lexeme, l', hbefore, hlexeme⟩ := head_eq_token hhead
  cases lexeme <;> cases hlexeme
  exact h _ l' hbefore

theorem head_ne_number {s : TokenStream}
    (h : ∀ value l, s.head ≠ .token ⟨.number value, l⟩) (value : Float) (l : Location) :
    (m.stream s).head ≠ .token ⟨.number value, l⟩ := by
  intro hhead
  obtain ⟨lexeme, l', hbefore, hlexeme⟩ := head_eq_token hhead
  cases lexeme <;> cases hlexeme
  exact h _ l' hbefore

theorem head_ne_keyword {s : TokenStream}
    (h : ∀ word l, s.head ≠ .token ⟨.keyword word, l⟩) (word : Keyword) (l : Location) :
    (m.stream s).head ≠ .token ⟨.keyword word, l⟩ := by
  intro hhead
  obtain ⟨lexeme, l', hbefore, hlexeme⟩ := head_eq_token hhead
  cases lexeme <;> cases hlexeme
  exact h _ l' hbefore

/-- A word that is no operator is retold with what is behind it. -/
theorem stream_of_head {s : TokenStream} {lexeme : Lexeme} {l : Location}
    (hhead : s.head = .token ⟨lexeme, l⟩) (hlexeme : ∀ text, lexeme ≠ .operator text) :
    (m.stream s).head = .token ⟨lexeme.rename m.name, m.place l⟩ ∧
      (m.stream s).tail = m.stream s.tail := by
  refine ⟨(m.head_stream s).trans ((m.retells s.head).eq_of_token hhead hlexeme), ?_⟩
  refine m.tail_stream s (Bool.eq_false_iff.2 fun hsemicolon => ?_)
  obtain ⟨l', hhead'⟩ := Entry.isOperator_iff.1 hsemicolon
  rw [hhead] at hhead'
  cases hhead'
  exact hlexeme ";" rfl

theorem commutesAt_acceptName (s : TokenStream) :
    m.CommutesAt (Option.map m.name) Parser.acceptName Parser.acceptName s := by
  unfold CommutesAt
  by_cases h : ∃ name l, s.head = .token ⟨.identifier name, l⟩
  · obtain ⟨name, l, hhead⟩ := h
    obtain ⟨hhead', htail⟩ := m.stream_of_head hhead (by simp)
    rw [Parser.acceptName_run_of_head hhead, Parser.acceptName_run_of_head hhead', htail]
    rfl
  · have hne : ∀ name l, s.head ≠ .token ⟨.identifier name, l⟩ :=
      fun name l hhead => h ⟨name, l, hhead⟩
    rw [Parser.acceptName_run_of_ne hne, Parser.acceptName_run_of_ne (head_ne_identifier hne)]
    rfl

theorem commutesAt_expectName (expected : Expectation) (s : TokenStream) :
    m.CommutesAt m.name (Parser.expectName expected) (Parser.expectName expected) s := by
  refine (commutesAt_acceptName s).bind ?_
  intro found t _
  cases found with
  | none => exact commutesAt_reject m.name expected t
  | some name => exact .pure rfl t

/-! ### Lists -/

section Lists

variable {view : α → β} {p : Parser α} {q : Parser β} {expected : Expectation}

theorem commutesAt_separated (hp : p.Forward) (hq : q.Forward)
    (h : ∀ s, m.CommutesAt view p q s) (s : TokenStream) :
    m.CommutesAt (List.map view) (Parser.separated p expected) (Parser.separated q expected) s := by
  induction hlen : s.length using Nat.strongRecOn generalizing s with
  | _ n ih =>
    rw [Parser.separated_eq hp, Parser.separated_eq hq]
    refine (h s).bind ?_
    intro a t hrun
    refine (commutesAt_accept (by decide) t).bind ?_
    intro closed u hclosed
    cases closed with
    | true => exact .pure rfl u
    | false =>
      refine (commutesAt_accept (by decide) u).bind ?_
      intro more v hmore
      cases more with
      | false => exact commutesAt_reject _ expected v
      | true =>
        -- the comma is used up, so fewer tokens are ahead of the items behind it
        have ht := (hp.of_ok hrun).length_le
        have hu := ((Parser.Forward.accept ")").of_ok hclosed).length_le
        have hv : v.length < u.length := Parser.length_lt_of_accept hmore
        refine (ih v.length (by omega) v rfl).bind ?_
        intro as w _
        exact .pure rfl w

theorem commutesAt_listUntilClosed (hp : p.Forward) (hq : q.Forward)
    (h : ∀ s, m.CommutesAt view p q s) (s : TokenStream) :
    m.CommutesAt (List.map view) (Parser.listUntilClosed p expected)
      (Parser.listUntilClosed q expected) s := by
  refine (commutesAt_accept (by decide) s).bind ?_
  intro closed t _
  cases closed with
  | true => exact .pure rfl t
  | false => exact commutesAt_separated hp hq h t

end Lists

/-! ### Expressions -/

section Expressions

variable {inner inner' : Parser Node}

theorem commutesAt_afterName (hinner : inner.Forward) (hinner' : inner'.Forward)
    (h : ∀ s, m.CommutesAt m.node inner inner' s) (name : String) (l : Location)
    (s : TokenStream) :
    m.CommutesAt m.node (Grammar.afterName inner name l)
      (Grammar.afterName inner' (m.name name) (m.place l)) s := by
  refine (commutesAt_accept (by decide) s).bind ?_
  intro isCall t _
  cases isCall with
  | true =>
    refine (commutesAt_listUntilClosed hinner hinner' h t).bind ?_
    intro args u _
    exact .pure (by rw [node, Node.map]) u
  | false =>
    refine (commutesAt_accept (by decide) t).bind ?_
    intro isAssignment u _
    cases isAssignment with
    | true =>
      refine (h u).bind ?_
      intro value v _
      exact .pure (by rw [node, Node.map]) v
    | false => exact .pure (by rw [node, Node.map]) u

theorem commutesAt_operand (hinner : inner.Forward) (hinner' : inner'.Forward)
    (h : ∀ s, m.CommutesAt m.node inner inner' s) (s : TokenStream) :
    m.CommutesAt m.node (Grammar.operand inner) (Grammar.operand inner') s := by
  by_cases hname : ∃ name l, s.head = .token ⟨.identifier name, l⟩
  · obtain ⟨name, l, hhead⟩ := hname
    obtain ⟨hhead', htail⟩ := m.stream_of_head hhead (by simp)
    unfold CommutesAt
    rw [Grammar.operand_of_name hhead, Grammar.operand_of_name hhead', htail]
    exact commutesAt_afterName hinner hinner' h name l s.tail
  by_cases hnumber : ∃ value l, s.head = .token ⟨.number value, l⟩
  · obtain ⟨value, l, hhead⟩ := hnumber
    obtain ⟨hhead', htail⟩ := m.stream_of_head hhead (by simp)
    unfold CommutesAt
    rw [Grammar.operand_of_number hhead, Grammar.operand_of_number hhead', htail]
    exact CommutesAt.pure (by rw [node, Node.map]) s.tail
  by_cases hopen : s.head.isOperator "(" = true
  · obtain ⟨l, hhead⟩ := Entry.isOperator_iff.1 hopen
    have hopen' : (m.stream s).head.isOperator "(" = true := by
      rw [isOperator_head (by decide)]
      exact hopen
    obtain ⟨l', hhead'⟩ := Entry.isOperator_iff.1 hopen'
    unfold CommutesAt
    rw [Grammar.operand_of_open hhead, Grammar.operand_of_open hhead',
      tail_of_isOperator (by decide) hopen]
    refine (h s.tail).bind ?_
    intro value t _
    refine (commutesAt_expectOperator (by decide) _ t).bind ?_
    intro _ u _
    exact .pure rfl u
  · have hname' : ∀ name l, s.head ≠ .token ⟨.identifier name, l⟩ :=
      fun name l hhead => hname ⟨name, l, hhead⟩
    have hnumber' : ∀ value l, s.head ≠ .token ⟨.number value, l⟩ :=
      fun value l hhead => hnumber ⟨value, l, hhead⟩
    have hother : s.head.isOperator "(" = false := Bool.eq_false_iff.2 hopen
    have hother' : (m.stream s).head.isOperator "(" = false := by
      rw [isOperator_head (by decide)]
      exact hother
    unfold CommutesAt
    rw [Grammar.operand_of_other hname' hnumber' hother,
      Grammar.operand_of_other (head_ne_identifier hname') (head_ne_number hnumber') hother']
    exact commutesAt_reject m.node _ s

theorem continues_head (least : Nat) (s : TokenStream) :
    Grammar.Continues least (m.stream s).head ↔ Grammar.Continues least s.head := by
  unfold Grammar.Continues
  rw [m.head_stream, (m.retells s.head).binaryOperator?_eq]

theorem commutesAt_climb {operand operand' : Parser Node} (hoperand : operand.Forward)
    (hoperand' : operand'.Forward) (h : ∀ s, m.CommutesAt m.node operand operand' s)
    (least : Nat) (left : Node) (s : TokenStream) :
    m.CommutesAt m.node (Grammar.climb operand least left)
      (Grammar.climb operand' least (m.node left)) s := by
  induction hlen : s.length using Nat.strongRecOn generalizing least left s with
  | _ n ih =>
    by_cases hnext : Grammar.Continues least s.head
    · obtain ⟨op, hop, hle⟩ := hnext
      have hop' : Grammar.binaryOperator? (m.stream s).head = some op := by
        rw [m.head_stream, (m.retells s.head).binaryOperator?_eq]
        exact hop
      have htail : (m.stream s).tail = m.stream s.tail := by
        have hhead := Entry.isOperator_iff.2 (Grammar.binaryOperator?_eq_some_iff.1 hop)
        have hne : op.text ≠ ";" := by cases op <;> decide
        exact tail_of_isOperator hne hhead
      have hlocation : (m.stream s).head.location = m.place s.head.location := by
        rw [m.head_stream, (m.retells s.head).location_eq]
      have hlt := Grammar.length_tail_lt_of_binaryOperator hop
      unfold CommutesAt
      rw [Grammar.climb_of_continues hoperand hop hle,
        Grammar.climb_of_continues hoperand' hop' hle, htail, hlocation]
      -- the right side, and then the climb behind it
      have hright : m.CommutesAt m.node (Grammar.operationAtLeast operand (op.precedence + 1))
          (Grammar.operationAtLeast operand' (op.precedence + 1)) s.tail := by
        refine (h s.tail).bind ?_
        intro first t hfirst
        have ht := (hoperand.of_ok hfirst).length_le
        exact ih t.length (by omega) _ first t rfl
      refine hright.bind ?_
      intro right t hrun
      have ht := ((Grammar.operationAtLeast_forward hoperand _).of_ok hrun).length_le
      have hclimb := ih t.length (by omega) least (.binary op left right s.head.location) t rfl
      rw [node, Node.map] at hclimb
      exact hclimb
    · have hnext' : ¬ Grammar.Continues least (m.stream s).head := by
        rw [continues_head]
        exact hnext
      unfold CommutesAt
      rw [Grammar.climb_of_not_continues hoperand hnext,
        Grammar.climb_of_not_continues hoperand' hnext']
      rfl

theorem commutesAt_expression (levels : Nat) (s : TokenStream) :
    m.CommutesAt m.node (Grammar.expression levels) (Grammar.expression levels) s := by
  induction levels generalizing s with
  | zero =>
    unfold CommutesAt
    rw [Grammar.expression_zero, Grammar.tooDeep, m.head_stream, (m.retells s.head).location_eq]
    rfl
  | succ levels ih =>
    have hinner := Grammar.expression_forward levels
    have hoperand := Grammar.operand_forward hinner
    rw [Grammar.expression_succ, Grammar.operation]
    refine (commutesAt_operand hinner hinner ih s).bind ?_
    intro left t _
    exact commutesAt_climb hoperand hoperand (commutesAt_operand hinner hinner ih) 0 left t

end Expressions

/-! ### Statements -/

theorem commutesAt_current (s : TokenStream) :
    m.CommutesAt m.entry Parser.current Parser.current s := by
  unfold CommutesAt
  rw [Parser.current_run, Parser.current_run, m.head_stream]
  rfl

theorem commutesAt_signature (s : TokenStream) :
    m.CommutesAt (Signature.map m.place m.name) Grammar.signature Grammar.signature s := by
  refine (commutesAt_current s).bind ?_
  intro first s hfirst
  refine (commutesAt_acceptName s).bind ?_
  intro name t _
  refine (commutesAt_expectOperator (by decide) _ t).bind ?_
  intro _ u _
  refine (commutesAt_listUntilClosed (.expectName _) (.expectName _)
    (commutesAt_expectName _) u).bind ?_
  intro params v _
  refine .pure ?_ v
  rw [Signature.map, (m.retells first).location_eq]
  cases name with
  | none => simp [m.name_empty]
  | some name => simp

theorem commutesAt_declaration (l : Location) (s : TokenStream) :
    m.CommutesAt m.node (Grammar.declaration l) (Grammar.declaration (m.place l)) s := by
  refine (commutesAt_current s).bind ?_
  intro first s hfirst
  refine (commutesAt_expectName _ s).bind ?_
  intro name t _
  refine (commutesAt_accept (by decide) t).bind ?_
  intro hasValue u _
  cases hasValue with
  | true =>
    refine (commutesAt_expression _ u).bind ?_
    intro initial v _
    exact .pure (by rw [node, Node.map]) v
  | false =>
    refine .pure ?_ u
    rw [(m.retells first).location_eq, node, Node.map, Node.map]

theorem commutesAt_function (l : Location) (s : TokenStream) :
    m.CommutesAt m.node (Grammar.function l) (Grammar.function (m.place l)) s := by
  refine (commutesAt_signature s).bind ?_
  intro signature t _
  refine (commutesAt_expectOperator (by decide) _ t).bind ?_
  intro _ u _
  refine (commutesAt_expression _ u).bind ?_
  intro inside v _
  exact .pure (by rw [node, Node.map]) v

/-- What a statement is but for what ends it commutes with every retelling. -/
theorem commutesAt_body (s : TokenStream) :
    m.CommutesAt m.node Grammar.body Grammar.body s := by
  by_cases hkeyword : ∃ word l, s.head = .token ⟨.keyword word, l⟩
  · obtain ⟨word, l, hhead⟩ := hkeyword
    obtain ⟨hhead', htail⟩ := m.stream_of_head hhead (by simp)
    unfold CommutesAt
    cases word with
    | letWord =>
      rw [Grammar.body_of_letWord hhead, Grammar.body_of_letWord hhead', htail]
      exact commutesAt_declaration l s.tail
    | functionWord =>
      rw [Grammar.body_of_functionWord hhead, Grammar.body_of_functionWord hhead', htail]
      exact commutesAt_function l s.tail
    | externWord =>
      rw [Grammar.body_of_externWord hhead, Grammar.body_of_externWord hhead', htail]
      refine (commutesAt_signature s.tail).bind ?_
      intro signature t _
      exact .pure (by rw [node, Node.map]) t
  · have hne : ∀ word l, s.head ≠ .token ⟨.keyword word, l⟩ :=
      fun word l hhead => hkeyword ⟨word, l, hhead⟩
    unfold CommutesAt
    rw [Grammar.body_of_not_keyword hne, Grammar.body_of_not_keyword (head_ne_keyword hne)]
    exact commutesAt_expression _ s

/-! ### Whole lines -/

/-- The retelling cuts nothing off: where there is more it stays so, and what is behind a semicolon
is retold too. -/
structure CutsNothing (m : Retelling) : Prop where
  atEnd_stream : ∀ s, (m.stream s).atEnd = s.atEnd
  tail_stream : ∀ s, (m.stream s).tail = m.stream s.tail

/-- What a script is afterwards. -/
def script (m : Retelling) (script : Script) : Script :=
  ⟨script.statements.map m.node, script.failure.map m.error⟩

/-- Whether a statement ends is seen in what becomes of a semicolon as well. -/
theorem endsStatement_head (s : TokenStream) :
    (m.stream s).head.endsStatement = s.head.endsStatement := by
  rw [m.head_stream]
  have hretells := m.retells s.head
  generalize s.head = e at hretells
  generalize m.entry e = e' at hretells
  cases hretells with
  | token lexeme l => cases lexeme <;> rfl
  | cut l => rfl
  | endOfInput l => rfl

theorem commutesAt_terminator (hm : m.CutsNothing) (s : TokenStream) :
    m.CommutesAt id Grammar.terminator Grammar.terminator s := by
  have hends := m.endsStatement_head s
  unfold CommutesAt
  cases h : s.head.endsStatement with
  | true =>
    rw [Grammar.terminator_of_endsStatement (hends.trans h),
      Grammar.terminator_of_endsStatement h, hm.tail_stream]
    rfl
  | false =>
    rw [Grammar.terminator_of_not_endsStatement (hends.trans h),
      Grammar.terminator_of_not_endsStatement h, m.head_stream]
    rfl

/-- A statement with what ends it commutes with every retelling that cuts nothing off. -/
theorem commutesAt_statement (hm : m.CutsNothing) (s : TokenStream) :
    m.CommutesAt m.node Grammar.statement Grammar.statement s := by
  refine (commutesAt_body s).bind ?_
  intro node t _
  refine (commutesAt_terminator hm t).bind ?_
  intro _ u _
  exact .pure rfl u

/-- What is retold is read as the same script, retold. -/
theorem read_stream (hm : m.CutsNothing) (s : TokenStream) :
    Script.read (m.stream s) = (m.script (Script.read s).1, m.stream (Script.read s).2) := by
  induction hlen : s.length using Nat.strongRecOn generalizing s with
  | _ n ih =>
    have hcommutes : Grammar.statement (m.stream s) = _ := commutesAt_statement hm s
    rw [Script.read_eq, Script.read_eq s, hm.atEnd_stream]
    by_cases hend : s.atEnd = true
    · rw [if_pos hend, if_pos hend]
      rfl
    rw [if_neg hend, if_neg hend, hcommutes]
    cases hrun : Grammar.statement s with
    | error e t => rfl
    | ok node t =>
      have hlt := Grammar.statement_progressive hrun
      dsimp only [result]
      rw [ih t.length (by omega) t rfl]
      rfl

end Retelling

end Reckoner
