import Reckoner.Grammar.Composition
import Reckoner.Grammar.Script

/-!
# Reading forward

A parser reads forward if it does nothing to a token stream but take tokens off its front.  All
parsers of the grammar do, and so the bounds in their loops are never felt: a loop that may go
round as often as there are tokens ahead may as well go round for ever.

## Main definitions

* `Parser.rest` — what a parser leaves of a stream, whether it fails or not.
* `Parser.Forward` — that a parser reads forward.

## Main results

* `Grammar.expression_forward`, `Grammar.statement_forward` — the grammar reads forward.
* `Parser.separated_eq`, `Grammar.climb_eq`, `Script.read_eq` — the loops, without their bounds.
* `Grammar.statement_progressive` — a statement has at least one token.
-/

namespace Reckoner

namespace Parser

variable {α β : Type}

/-- What a parser leaves of a stream, whether it fails or not. -/
def rest (p : Parser α) (s : TokenStream) : TokenStream :=
  match p s with
  | .ok _ t => t
  | .error _ t => t

/-- A parser reads forward if it does nothing to a stream but take tokens off its front. -/
def Forward (p : Parser α) : Prop := ∀ s, (p.rest s).IsRestOf s

/-! ### Parsers that read forward -/

namespace Forward

theorem pure (a : α) : Forward (pure a : Parser α) := .refl

/-- Two parsers that read forward do so one after the other. -/
theorem bind {p : Parser α} {f : α → Parser β} (hp : p.Forward) (hf : ∀ a, (f a).Forward) :
    (p >>= f).Forward := by
  intro s
  have hrest := hp s
  simp only [rest, Bind.bind, EStateM.bind] at hrest ⊢
  split at hrest
  · next a t hrun =>
    have hnext := hf a t
    simp only [rest] at hnext
    simp only [hrun]
    exact hnext.trans hrest
  · next hrun => simpa only [hrun] using hrest

theorem current : Forward current := .refl

theorem advance : Forward advance := .tail

theorem remaining : Forward remaining := .refl

theorem reject (expected : Expectation) : Forward (reject expected : Parser α) := .refl

/-- All parsers of the grammar read forward, because its steps do. -/
theorem compositional : Compositional fun _ => Forward :=
  Steps.compositional
    { pure := pure
      bind := bind
      current := current
      advance := advance
      reject := reject
      tooDeep := .refl }
    remaining

theorem accept (text : String) : Forward (accept text) := compositional.accept text

theorem expectOperator (text : String) (expected : Expectation) :
    Forward (expectOperator text expected) := compositional.expectOperator text expected

theorem expectName (expected : Expectation) : Forward (expectName expected) :=
  compositional.expectName expected

end Forward

/-! ### How a step moves a stream -/

/-- What follows a step runs on what the step leaves. -/
theorem bind_run_ok {p : Parser α} {f : α → Parser β} {s t : TokenStream} {a : α}
    (h : p s = .ok a t) : (p >>= f) s = f a t := by
  simp [Bind.bind, EStateM.bind, h]

/-- Nothing follows a step that fails. -/
theorem bind_run_error {p : Parser α} {f : α → Parser β} {s t : TokenStream} {e : ParseError}
    (h : p s = .error e t) : (p >>= f) s = .error e t := by
  simp [Bind.bind, EStateM.bind, h]

/-- What a successful run leaves is a rest. -/
theorem Forward.of_ok {p : Parser α} (h : p.Forward) {s t : TokenStream} {a : α}
    (hrun : p s = .ok a t) : t.IsRestOf s := by
  simpa [rest, hrun] using h s

/-- What a failed run leaves is a rest. -/
theorem Forward.of_error {p : Parser α} (h : p.Forward) {s t : TokenStream} {e : ParseError}
    (hrun : p s = .error e t) : t.IsRestOf s := by
  simpa [rest, hrun] using h s

/-- The end of the input is no operator. -/
theorem isOperator_head_of_length_eq_zero {s : TokenStream} (h : s.length = 0) (text : String) :
    s.head.isOperator text = false := by
  obtain ⟨_ | ⟨token, tokens⟩, stop⟩ := s
  · rfl
  · cases h

/-- An operator that comes next is a token that can be used up. -/
theorem length_tail_lt {text : String} {s : TokenStream} (h : s.head.isOperator text = true) :
    s.tail.length < s.length := by
  obtain ⟨_ | ⟨token, tokens⟩, stop⟩ := s
  · cases h
  · exact Nat.lt_succ_self _

/-! ### Lists without a bound -/

/-- A bound that is as large as the number of tokens ahead may be raised. -/
theorem separatedUpTo_succ {item : Parser α} (h : item.Forward) (expected : Expectation)
    {bound : Nat} {s : TokenStream} (hs : s.length ≤ bound) :
    separatedUpTo item expected bound s = separatedUpTo item expected (bound + 1) s := by
  induction bound generalizing s with
  | zero =>
    cases hitem : item s with
    | error e t => rw [separatedUpTo, separatedUpTo, bind_run_error hitem, bind_run_error hitem]
    | ok a t =>
      -- nothing is ahead, so neither a parenthesis nor a comma follows the item
      have ht := (h.of_ok hitem).length_le
      have hend := isOperator_head_of_length_eq_zero (s := t) (by omega)
      rw [separatedUpTo, separatedUpTo, bind_run_ok hitem, bind_run_ok hitem, expectOperator]
      simp [Bind.bind, EStateM.bind, accept_of_not_isOperator, hend]
  | succ bound ih =>
    cases hitem : item s with
    | error e t => rw [separatedUpTo, separatedUpTo, bind_run_error hitem, bind_run_error hitem]
    | ok a t =>
      have ht := (h.of_ok hitem).length_le
      rw [separatedUpTo, separatedUpTo, bind_run_ok hitem, bind_run_ok hitem]
      cases hclosed : t.head.isOperator ")" with
      | true => simp [Bind.bind, EStateM.bind, accept_of_isOperator hclosed]
      | false =>
        cases hmore : t.head.isOperator "," with
        | false =>
          simp [Bind.bind, EStateM.bind, accept_of_not_isOperator hclosed,
            accept_of_not_isOperator hmore]
        | true =>
          -- the comma is used up, so the bound still suffices for what follows it
          have htail := length_tail_lt hmore
          simp only [Bind.bind, EStateM.bind, accept_of_not_isOperator hclosed,
            accept_of_isOperator hmore, Bool.false_eq_true, ↓reduceIte]
          rw [ih (by omega)]

/-- A bound that is at least the number of tokens ahead might as well be that number. -/
theorem separatedUpTo_eq_separated {item : Parser α} (h : item.Forward) (expected : Expectation)
    {bound : Nat} {s : TokenStream} (hs : s.length ≤ bound) :
    separatedUpTo item expected bound s = separated item expected s := by
  induction hs with
  | refl => rfl
  | step hle ih => rw [← separatedUpTo_succ h expected hle, ih]

/-- Items separated by commas, read without a bound. -/
theorem separated_eq {item : Parser α} (h : item.Forward) (expected : Expectation) :
    separated item expected = (do
      let a ← item
      if ← accept ")" then
        return [a]
      else if ← accept "," then
        return a :: (← separated item expected)
      else
        reject expected) := by
  funext s
  rw [← separatedUpTo_eq_separated h expected (Nat.le_succ s.length)]
  cases hitem : item s with
  | error e t => rw [separatedUpTo, bind_run_error hitem, bind_run_error hitem]
  | ok a t =>
    have ht := (h.of_ok hitem).length_le
    rw [separatedUpTo, bind_run_ok hitem, bind_run_ok hitem]
    cases hclosed : t.head.isOperator ")" with
    | true => simp [Bind.bind, EStateM.bind, accept_of_isOperator hclosed]
    | false =>
      cases hmore : t.head.isOperator "," with
      | false =>
        simp [Bind.bind, EStateM.bind, accept_of_not_isOperator hclosed,
          accept_of_not_isOperator hmore]
      | true =>
        have htail := length_tail_lt hmore
        simp only [Bind.bind, EStateM.bind, accept_of_not_isOperator hclosed,
          accept_of_isOperator hmore, Bool.false_eq_true, ↓reduceIte]
        rw [separatedUpTo_eq_separated h expected (by omega)]

/-! ### Parsers that use something up -/

/-- A parser makes progress if it uses up a token whenever it succeeds. -/
def Progressive (p : Parser α) : Prop :=
  ∀ ⦃s a t⦄, p s = .ok a t → t.length < s.length

/-- A step that makes progress does so whatever follows it. -/
theorem Progressive.bind {p : Parser α} {f : α → Parser β} (hp : p.Progressive)
    (hf : ∀ a, (f a).Forward) : (p >>= f).Progressive := by
  intro s b u hrun
  cases hfirst : p s with
  | error e t =>
    rw [bind_run_error hfirst] at hrun
    cases hrun
  | ok a t =>
    rw [bind_run_ok hfirst] at hrun
    exact Nat.lt_of_le_of_lt ((hf a).of_ok hrun).length_le (hp hfirst)

/-- A parser that fails at the end of the input, and else goes past a token first, makes
progress. -/
theorem progressive_of_head {p : Parser α}
    (h : ∀ s, (∃ e t, p s = .error e t) ∨
      s.atEnd = false ∧ ∃ q : Parser α, q.Forward ∧ p s = q s.tail) : p.Progressive := by
  intro s a t hrun
  rcases h s with ⟨e, u, herr⟩ | ⟨hend, q, hq, heq⟩
  · rw [herr] at hrun
    cases hrun
  · rw [heq] at hrun
    have hle := (hq.of_ok hrun).length_le
    obtain ⟨_ | ⟨token, tokens⟩, stop⟩ := s
    · cases hend
    · exact Nat.lt_succ_of_le hle

end Parser

/-! ### The grammar -/

namespace Grammar

open Reckoner.Parser

theorem afterName_forward {inner : Parser Node} (h : inner.Forward) (name : String)
    (location : Location) : (afterName inner name location).Forward :=
  Forward.compositional.afterName h name location

theorem operand_forward {inner : Parser Node} (h : inner.Forward) : (operand inner).Forward :=
  Forward.compositional.operand h

theorem climbUpTo_forward {operand : Parser Node} (h : operand.Forward) (bound least : Nat)
    (left : Node) : (climbUpTo operand bound least left).Forward :=
  Forward.compositional.climbUpTo h bound least left

theorem climb_forward {operand : Parser Node} (h : operand.Forward) (least : Nat) (left : Node) :
    (climb operand least left).Forward := Forward.compositional.climb h least left

theorem expression_forward (levels : Nat) : (expression levels).Forward :=
  Forward.compositional.expression levels

theorem signature_forward : signature.Forward := Forward.compositional.signature

theorem declaration_forward (location : Location) : (declaration location).Forward :=
  Forward.compositional.declaration location

theorem function_forward (location : Location) : (function location).Forward :=
  Forward.compositional.function location

theorem terminator_forward : terminator.Forward := Forward.compositional.terminator

theorem statement_forward : statement.Forward := Forward.compositional.statement

/-! ### Operators without a bound -/

/-- An entry that is an operator is not the end of the input. -/
theorem length_tail_lt_of_binaryOperator {s : TokenStream} {op : BinaryOperator}
    (h : binaryOperator? s.head = some op) : s.tail.length < s.length := by
  obtain ⟨_ | ⟨token, tokens⟩, stop⟩ := s
  · cases h
  · exact Nat.lt_succ_self _

/-- A bound that is as large as the number of tokens ahead may be raised. -/
theorem climbUpTo_succ {operand : Parser Node} (h : operand.Forward) {bound : Nat}
    (least : Nat) (left : Node) {s : TokenStream} (hs : s.length ≤ bound) :
    climbUpTo operand bound least left s = climbUpTo operand (bound + 1) least left s := by
  induction bound generalizing least left s with
  | zero =>
    obtain ⟨_ | ⟨token, tokens⟩, stop⟩ := s
    · rfl
    · cases hs
  | succ bound ih =>
    rw [climbUpTo, climbUpTo, bind_run_ok (current_run s), bind_run_ok (current_run s)]
    cases hop : binaryOperator? s.head with
    | none => rfl
    | some op =>
      have htail := length_tail_lt_of_binaryOperator hop
      dsimp only
      split
      · rfl
      rw [bind_run_ok (advance_run s), bind_run_ok (advance_run s)]
      cases hright : operand s.tail with
      | error e t => rw [bind_run_error hright, bind_run_error hright]
      | ok right t =>
        have ht := (h.of_ok hright).length_le
        rw [bind_run_ok hright, bind_run_ok hright, bind_run_ok (current_run t),
          bind_run_ok (current_run t)]
        split
        -- a tighter operator follows: first the inner climb, then the outer one
        · have hinner := ih (op.precedence + 1) right (s := t) (by omega)
          cases hrun : climbUpTo operand bound (op.precedence + 1) right t with
          | error e u =>
            rw [bind_run_error hrun, bind_run_error (hinner ▸ hrun)]
          | ok right u =>
            have hu := ((climbUpTo_forward h _ _ _).of_ok hrun).length_le
            rw [bind_run_ok hrun, bind_run_ok (hinner ▸ hrun)]
            exact ih _ _ (by omega)
        · exact ih _ _ (by omega)

/-- A bound that is at least the number of tokens ahead might as well be that number. -/
theorem climbUpTo_eq_climb {operand : Parser Node} (h : operand.Forward) {bound : Nat}
    (least : Nat) (left : Node) {s : TokenStream} (hs : s.length ≤ bound) :
    climbUpTo operand bound least left s = climb operand least left s := by
  induction hs with
  | refl => rfl
  | step hle ih => rw [← climbUpTo_succ h least left hle, ih]

/-- Operators and operands behind an operand, read without a bound. -/
theorem climb_eq {operand : Parser Node} (h : operand.Forward) (least : Nat) (left : Node) :
    climb operand least left = (do
      let entry ← current
      match binaryOperator? entry with
      | none => return left
      | some op =>
        if op.precedence < least then
          return left
        else
          advance
          let right ← operand
          let right ←
            if bindsTighter op (← current) then climb operand (op.precedence + 1) right
            else pure right
          climb operand least (.binary op left right entry.location)) := by
  funext s
  rw [← climbUpTo_eq_climb h least left (Nat.le_succ s.length), climbUpTo,
    bind_run_ok (current_run s), bind_run_ok (current_run s)]
  cases hop : binaryOperator? s.head with
  | none => rfl
  | some op =>
    have htail := length_tail_lt_of_binaryOperator hop
    dsimp only
    split
    · rfl
    rw [bind_run_ok (advance_run s), bind_run_ok (advance_run s)]
    cases hright : operand s.tail with
    | error e t => rw [bind_run_error hright, bind_run_error hright]
    | ok right t =>
      have ht := (h.of_ok hright).length_le
      rw [bind_run_ok hright, bind_run_ok hright, bind_run_ok (current_run t),
        bind_run_ok (current_run t)]
      split
      -- a tighter operator follows: first the inner climb, then the outer one
      · have hinner : climbUpTo operand s.length (op.precedence + 1) right t =
            climb operand (op.precedence + 1) right t := climbUpTo_eq_climb h _ right (by omega)
        cases hrun : climb operand (op.precedence + 1) right t with
        | error e u => rw [bind_run_error hrun, bind_run_error (hinner.trans hrun)]
        | ok right u =>
          have hu := ((climb_forward h _ _).of_ok hrun).length_le
          rw [bind_run_ok hrun, bind_run_ok (hinner.trans hrun)]
          exact climbUpTo_eq_climb h _ _ (by omega)
      · exact climbUpTo_eq_climb h _ _ (by omega)

/-! ### Progress -/

/-- An operand has at least one token. -/
theorem operand_progressive {inner : Parser Node} (h : inner.Forward) :
    (operand inner).Progressive := by
  refine progressive_of_head fun s => ?_
  obtain ⟨_ | ⟨⟨lexeme, location⟩, tokens⟩, stop⟩ := s
  · exact .inl ⟨_, _, rfl⟩
  cases lexeme with
  | identifier name => exact .inr ⟨rfl, _, afterName_forward h name location, rfl⟩
  | number value => exact .inr ⟨rfl, _, .pure (.number value location), rfl⟩
  | keyword word => exact .inl ⟨_, _, rfl⟩
  | operator text =>
    by_cases hopen : text = "("
    · subst hopen
      exact .inr ⟨rfl, _, .bind h fun node =>
        .bind (.expectOperator ")" .closingParenthesis) fun _ => .pure node, rfl⟩
    · refine .inl ⟨.unexpected (.token ⟨.operator text, location⟩) .expression,
        ⟨⟨.operator text, location⟩ :: tokens, stop⟩, ?_⟩
      rw [operand, bind_run_ok (current_run _)]
      simp [Entry.isOperator, hopen]

/-- An expression has at least one token. -/
theorem expression_progressive (levels : Nat) : (expression levels).Progressive := by
  cases levels with
  | zero =>
    intro s a t hrun
    cases hrun
  | succ levels =>
    have hinner := expression_forward levels
    exact (operand_progressive hinner).bind fun left =>
      climb_forward (operand_forward hinner) 0 left

/-- A statement has at least one token, besides what ends it. -/
theorem body_progressive : body.Progressive := by
  intro s a t hrun
  obtain ⟨_ | ⟨⟨lexeme, location⟩, tokens⟩, stop⟩ := s
  · exact expression_progressive _ hrun
  -- behind a keyword, reading forward is enough
  have hstep : ∀ {q : Parser Node}, q.Forward → q ⟨tokens, stop⟩ = .ok a t →
      t.length < (TokenStream.mk (⟨lexeme, location⟩ :: tokens) stop).length :=
    fun hq hrun => Nat.lt_succ_of_le (hq.of_ok hrun).length_le
  cases lexeme with
  | keyword word =>
    cases word with
    | letWord => exact hstep (declaration_forward location) hrun
    | functionWord => exact hstep (function_forward location) hrun
    | externWord =>
      exact hstep (q := signature >>= fun s => pure (.prototype s))
        (.bind signature_forward fun _ => .pure _) hrun
  | identifier name => exact expression_progressive _ hrun
  | number value => exact expression_progressive _ hrun
  | operator text => exact expression_progressive _ hrun

/-- A statement has at least one token. -/
theorem statement_progressive : statement.Progressive :=
  body_progressive.bind fun _ => .bind terminator_forward fun _ => .pure _

end Grammar

/-! ### Scripts without a bound -/

namespace Script

/-- A bound that is as large as the number of tokens ahead may be raised. -/
theorem readUpTo_succ {bound : Nat} {s : TokenStream} (hs : s.length ≤ bound) :
    readUpTo bound s = readUpTo (bound + 1) s := by
  induction bound generalizing s with
  | zero =>
    obtain ⟨_ | ⟨token, tokens⟩, stop⟩ := s
    · rfl
    · cases hs
  | succ bound ih =>
    rw [readUpTo, readUpTo]
    split
    · rfl
    split
    · next node rest hrun =>
      have hrest := Grammar.statement_progressive hrun
      rw [ih (by omega)]
    · rfl

/-- A bound that is at least the number of tokens ahead might as well be that number. -/
theorem readUpTo_eq_read {bound : Nat} {s : TokenStream} (hs : s.length ≤ bound) :
    readUpTo bound s = read s := by
  induction hs with
  | refl => rfl
  | step hle ih => rw [← readUpTo_succ hle, ih]

/-- A script is read statement by statement, up to the end or the first failure. -/
theorem read_eq (s : TokenStream) :
    read s =
      if s.atEnd then (empty, s)
      else
        match Grammar.statement s with
        | .ok node rest => (cons node (read rest).1, (read rest).2)
        | .error e rest => (failed e, rest) := by
  rw [← readUpTo_eq_read (Nat.le_succ s.length), readUpTo]
  split
  · rfl
  cases hrun : Grammar.statement s with
  | error e rest => rfl
  | ok node rest =>
    have hrest := Grammar.statement_progressive hrun
    dsimp only
    rw [readUpTo_eq_read (by omega)]

end Script

end Reckoner
