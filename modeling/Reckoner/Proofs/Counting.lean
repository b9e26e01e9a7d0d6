import Reckoner.Proofs.Statements

/-!
# Reading with a counter and a budget

The grammar says how many levels an expression may still use where it says what an expression is.  A
machine does it otherwise.  It keeps one counter for the levels that are open, which an expression
raises when it begins and lowers when it ends, whether it could be read or not; and its procedures
call each other, which is possible only as long as there is room for one more call.

Both are memories that an expression could leave behind for what comes after it: a counter that is
not lowered on the way out of a failure, or calls that pile up with the input.  The counter is where
it was after every step, on every way out, and so a loop does what the grammar's loop does if its
steps do.

## Main definitions

* `Counter`, `Counted` — the counter, and computations that use it.
* `Counted.nested` — one level of nesting.
* `Counted.expression budget`, … — the grammar as procedures that call each other, with a budget for
  calls within calls; the rounds of a loop cost nothing.
* `Counted.TracksAt level q p s` — that `q` does, at a level, what `p` does on the stream `s`, and
  comes back to the level.

## Main results

* `Counted.TracksAt.nested` — the counter is lowered on every way out.
* `Counted.tracksAt_climbUpTo` — a climb does what the grammar's does if its steps do.
* `Counted.climbs_lt` — a climb inside another one has fewer climbs inside.
-/

namespace Reckoner

open Grammar Reckoner.Parser

/-- What a counting reader works on. -/
structure Counter where
  /-- What is left to read. -/
  stream : TokenStream
  /-- The number of levels that are open. -/
  level : Nat

/-- Why a counting reader comes to no result. -/
inductive Halt where
  /-- The line cannot be read. -/
  | failure (error : ParseError)
  /-- There is no room for another call. -/
  | exhausted

/-- A computation that reads and counts. -/
abbrev Counted (α : Type) : Type := EStateM Halt Counter α

namespace Counted

variable {α β : Type}

/-- A parser does not touch the counter. -/
def ofParser (p : Parser α) : Counted α := fun c =>
  match p c.stream with
  | .ok a s => .ok a { c with stream := s }
  | .error e s => .error (.failure e) { c with stream := s }

instance : MonadLift Parser Counted := ⟨ofParser⟩

/-- Stops because there is no room for another call. -/
def exhausted : Counted α := fun c => .error .exhausted c

/-- Reads an expression one level deeper, if the limit allows for another level.  The counter is
lowered whether the expression can be read or not. -/
def nested (p : Counted Node) : Counted Node := fun c =>
  if maxNesting ≤ c.level then
    .error (.failure (.nestedTooDeeply c.stream.head.location)) c
  else
    match p { c with level := c.level + 1 } with
    | .ok node c => .ok node { c with level := c.level - 1 }
    | .error e c => .error e { c with level := c.level - 1 }

/-- Sets the counter back. -/
def reset : Counted Unit := fun c => .ok () { c with level := 0 }

/-- Reads items separated by commas, up to and including the closing parenthesis, at most `bound`
commas. -/
def separatedUpTo (item : Counted α) (expected : Expectation) : Nat → Counted (List α)
  | 0 => do
    let a ← item
    Parser.expectOperator ")" expected
    return [a]
  | bound + 1 => do
    let a ← item
    if ← Parser.accept ")" then
      return [a]
    else if ← Parser.accept "," then
      return a :: (← separatedUpTo item expected bound)
    else
      Parser.reject expected

/-- Reads operators that bind at least as tightly as `least`, each with its operand, and applies
them to `left`; what binds tighter than the operator in front of it goes to another climb.  At most
`bound` operators are read. -/
def climbUpTo (operand : Counted Node) (climb : Nat → Node → Counted Node) (least : Nat) :
    Nat → Node → Counted Node
  | 0, left => pure left
  | bound + 1, left => do
    let entry ← Parser.current
    match binaryOperator? entry with
    | none => return left
    | some op =>
      if op.precedence < least then
        return left
      else
        Parser.advance
        let right ← operand
        let right ←
          if bindsTighter op (← Parser.current) then climb (op.precedence + 1) right
          else pure right
        climbUpTo operand climb least bound (.binary op left right entry.location)

mutual

/-- Reads an expression. -/
def expression : Nat → Counted Node
  | 0 => exhausted
  | budget + 1 => nested do
    let left ← operand budget
    climb budget 0 left

/-- Reads operators and operands behind an operand. -/
def climb : Nat → Nat → Node → Counted Node
  | 0, _, _ => exhausted
  | budget + 1, least, left => do
    climbUpTo (operand budget) (climb budget) least (← Parser.remaining) left

/-- Reads an operand. -/
def operand : Nat → Counted Node
  | 0 => exhausted
  | budget + 1 => do
    match ← Parser.current with
    | .token ⟨.identifier name, location⟩ =>
      Parser.advance
      afterName budget name location
    | .token ⟨.number value, location⟩ =>
      Parser.advance
      return .number value location
    | entry =>
      if entry.isOperator "(" then
        Parser.advance
        let node ← expression budget
        Parser.expectOperator ")" .closingParenthesis
        return node
      else
        Parser.reject .expression

/-- Reads what follows a name. -/
def afterName : Nat → String → Location → Counted Node
  | 0, _, _ => exhausted
  | budget + 1, name, location => do
    if ← Parser.accept "(" then
      return .call name (← arguments budget) location
    else if ← Parser.accept "=" then
      return .assignment name (← expression budget) location
    else
      return .reference name location

/-- Reads the arguments of a call. -/
def arguments : Nat → Counted (List Node)
  | 0 => exhausted
  | budget + 1 => do
    if ← Parser.accept ")" then
      return []
    else
      separatedUpTo (expression budget) .argumentEnd (← Parser.remaining)

end

/-- Reads a declaration behind its keyword. -/
def declaration (budget : Nat) (location : Location) : Counted Node := do
  let first ← Parser.current
  let name ← Parser.expectName .declaredName
  if ← Parser.accept "=" then
    return .declaration name (← expression budget) location
  else
    return .declaration name (.number 0 first.location) location

/-- Reads a function behind its keyword. -/
def function (budget : Nat) (location : Location) : Counted Node := do
  let signature ← Grammar.signature
  Parser.expectOperator "=>" .arrow
  return .function signature (← expression budget) location

/-- Reads a statement without what ends it. -/
def body (budget : Nat) : Counted Node := do
  match ← Parser.current with
  | .token ⟨.keyword .letWord, location⟩ =>
    Parser.advance
    declaration budget location
  | .token ⟨.keyword .functionWord, location⟩ =>
    Parser.advance
    function budget location
  | .token ⟨.keyword .externWord, _⟩ =>
    Parser.advance
    return .prototype (← Grammar.signature)
  | _ => expression budget

/-- Reads a statement and what ends it, with the counter set back first. -/
def statement (budget : Nat) : Counted Node := do
  reset
  let node ← body budget
  Grammar.terminator
  return node

/-! ### What a reader without a counter does -/

/-- The end of a run of a parser, with the counter at a level. -/
def report (level : Nat) :
    EStateM.Result ParseError TokenStream α → EStateM.Result Halt Counter α
  | .ok a s => .ok a ⟨s, level⟩
  | .error e s => .error (.failure e) ⟨s, level⟩

/-- At a level, `q` does on the stream `s` what `p` does, and comes back to the level. -/
def TracksAt (level : Nat) (q : Counted α) (p : Parser α) (s : TokenStream) : Prop :=
  q ⟨s, level⟩ = report level (p s)

variable {level : Nat} {q : Counted α} {p : Parser α} {s : TokenStream}

theorem tracksAt_ofParser (level : Nat) (p : Parser α) (s : TokenStream) :
    TracksAt level (ofParser p) p s := by
  unfold TracksAt ofParser
  cases p s <;> rfl

theorem tracksAt_pure (level : Nat) (a : α) (s : TokenStream) :
    TracksAt level (pure a) (pure a) s := rfl

/-- Steps that track do so one after the other. -/
theorem TracksAt.bind {g : α → Counted β} {f : α → Parser β} (h : TracksAt level q p s)
    (hnext : ∀ a t, p s = .ok a t → TracksAt level (g a) (f a) t) :
    TracksAt level (q >>= g) (p >>= f) s := by
  unfold TracksAt at h ⊢
  cases hrun : p s with
  | error e t =>
    rw [hrun] at h
    rw [bind_run_error hrun]
    simp [Bind.bind, EStateM.bind, h, report]
  | ok a t =>
    rw [hrun] at h
    rw [bind_run_ok hrun, ← hnext a t hrun]
    simp [Bind.bind, EStateM.bind, h, report]

/-- Below the limit, the counter is raised and, on every way out, lowered again. -/
theorem TracksAt.nested {q : Counted Node} {p : Parser Node} (h : TracksAt (level + 1) q p s)
    (hlevel : level < maxNesting) : TracksAt level (nested q) p s := by
  unfold TracksAt Counted.nested at *
  rw [if_neg (Nat.not_le.2 hlevel)]
  dsimp only
  rw [h]
  cases p s <;> rfl

/-- At the limit, nothing is read. -/
theorem tracksAt_tooDeep (q : Counted Node) (s : TokenStream) :
    TracksAt maxNesting (nested q) tooDeep s := by
  unfold TracksAt nested
  rw [if_pos (Nat.le_refl _)]
  rfl

/-! ### Loops -/

theorem tracksAt_separatedUpTo (h : ∀ s, TracksAt level q p s) (expected : Expectation)
    (bound : Nat) (s : TokenStream) :
    TracksAt level (separatedUpTo q expected bound) (Parser.separatedUpTo p expected bound) s := by
  induction bound generalizing s with
  | zero =>
    refine (h s).bind fun a t _ => ?_
    exact (tracksAt_ofParser level (expectOperator ")" expected) t).bind fun _ u _ =>
      tracksAt_pure level [a] u
  | succ bound ih =>
    refine (h s).bind fun a t _ => ?_
    refine (tracksAt_ofParser level (accept ")") t).bind fun closed u _ => ?_
    cases closed with
    | true => exact tracksAt_pure level [a] u
    | false =>
      refine (tracksAt_ofParser level (accept ",") u).bind fun more v _ => ?_
      cases more with
      | false => exact tracksAt_ofParser level (reject expected) v
      | true => exact (ih v).bind fun as w _ => tracksAt_pure level (a :: as) w

/-- Only an operator binds tighter than another one. -/
theorem exists_of_bindsTighter {op : BinaryOperator} {entry : Entry}
    (h : bindsTighter op entry = true) :
    ∃ next : BinaryOperator, op.precedence < next.precedence := by
  unfold bindsTighter at h
  split at h
  · next next _ => exact ⟨next, of_decide_eq_true h⟩
  · cases h

/-- A climb goes on as long as there are operators, with other climbs for those that bind tighter
than the one in front of them. -/
theorem tracksAt_climbUpTo {q : Counted Node} {p : Parser Node} {climb : Nat → Node → Counted Node}
    {least : Nat} (hforward : p.Forward) (h : ∀ s, TracksAt level q p s)
    (hclimb : ∀ op next : BinaryOperator, least ≤ op.precedence → op.precedence < next.precedence →
      ∀ right s, TracksAt level (climb (op.precedence + 1) right)
        (Grammar.climb p (op.precedence + 1) right) s)
    {bound : Nat} (left : Node) {s : TokenStream} (hs : s.length ≤ bound) :
    TracksAt level (climbUpTo q climb least bound left) (Grammar.climb p least left) s := by
  induction bound generalizing left s with
  | zero =>
    obtain ⟨_ | ⟨token, tokens⟩, stop⟩ := s
    · rfl
    · cases hs
  | succ bound ih =>
    rw [climb_eq hforward]
    refine (tracksAt_ofParser level Parser.current s).bind fun entry t hcurrent => ?_
    cases hcurrent
    cases hop : binaryOperator? s.head with
    | none => exact tracksAt_pure level left s
    | some op =>
      dsimp only
      by_cases hloose : op.precedence < least
      · rw [if_pos hloose, if_pos hloose]
        exact tracksAt_pure level left s
      rw [if_neg hloose, if_neg hloose]
      have htail := length_tail_lt_of_binaryOperator hop
      refine (tracksAt_ofParser level Parser.advance s).bind fun _ t hadvance => ?_
      cases hadvance
      refine (h s.tail).bind fun right t hright => ?_
      have ht := (hforward.of_ok hright).length_le
      refine (tracksAt_ofParser level Parser.current t).bind fun entry u hcurrent => ?_
      cases hcurrent
      by_cases htighter : bindsTighter op t.head = true
      · rw [if_pos htighter, if_pos htighter]
        -- there is an operator that binds tighter, so this is not the tightest climb
        obtain ⟨next, hnext⟩ := exists_of_bindsTighter htighter
        refine (hclimb op next (Nat.not_lt.1 hloose) hnext right t).bind fun right u hinner => ?_
        have hu := ((climb_forward hforward _ _).of_ok hinner).length_le
        exact ih _ (by omega)
      · rw [if_neg htighter, if_neg htighter]
        refine (tracksAt_pure level right t).bind fun right u hpure => ?_
        cases hpure
        exact ih _ (by omega)

/-! ### Climbs -/

/-- How many climbs can be open at the same time if the outermost one reads operators that bind at
least as tightly as `least`: one for each of the precedences from there on. -/
def climbs (least : Nat) : Nat :=
  if least ≤ 5 then 4 else if least ≤ 10 then 3 else if least ≤ 20 then 2 else 1

@[simp] theorem climbs_zero : climbs 0 = 4 := rfl

theorem climbs_pos (least : Nat) : 0 < climbs least := by
  unfold climbs
  grind

/-- A climb inside another one reads operators of fewer precedences. -/
theorem climbs_lt {least : Nat} {op next : BinaryOperator} (hleast : least ≤ op.precedence)
    (hnext : op.precedence < next.precedence) : climbs (op.precedence + 1) < climbs least := by
  have htightest : next.precedence ≤ 40 := by
    cases next <;> decide
  have hlt : op.precedence < 40 := by omega
  cases op <;> simp only [BinaryOperator.precedence, climbs] at hleast hlt ⊢ <;> grind

end Counted

end Reckoner
