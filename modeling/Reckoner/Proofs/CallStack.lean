import Reckoner.Proofs.Counting
import Reckoner.TokenTape

/-!
# Calls within calls

The procedures that read expressions call each other, and a call needs room as long as it is open.
Only one of them looks at the counter of levels: an expression fails at once when too many are open.
That the others do not call each other without end either is a matter of their order.  Between one
expression and the next one inside it there is at most a list of arguments, in what follows a name,
in an operand, in climbs; and of climbs there are at most four, since each of them reads operators
that bind tighter than those of the one around it.

So with a number of levels left each procedure has a measure that falls with every call: eight for
each level, and one more for each step of the order.

## Main definitions

* `Counted.Procedure`, `Counted.Call` — the procedures, and calls of them.
* `Counted.Call.body` — what a call does, given what the calls inside it do.
* `Counted.run guard budget calls` — carrying out calls inside the open calls `calls`, with a budget
  and a guard that may refuse a call.
* `Counted.limits` — the guard that refuses more open calls than there may be.
* `Counted.Call.need` — the budget that a call needs.

## Main results

* `Counted.withBudget_eq_run` — with no guard, only the budget counts.
* `Counted.tracks_run` — a call that has what it needs does what the grammar does.
* `Counted.statement_eq` — **the counter and the budget do not show.**
* `Counted.body_bounded` — **calls within calls are bounded, whatever there is to read.**
-/

namespace Reckoner

open Grammar Reckoner.Parser

namespace Counted

/-! ### Calls -/

/-- The procedures that call each other. -/
inductive Procedure where
  | expression
  | climb
  | operand
  | afterName
  | arguments
  deriving DecidableEq, Repr

/-- A call of a procedure, with what it is given. -/
inductive Call where
  | expression
  | climb (least : Nat) (left : Node)
  | operand
  | afterName (name : String) (location : Location)
  | arguments

namespace Call

/-- The procedure that is called. -/
def procedure : Call → Procedure
  | expression => .expression
  | climb _ _ => .climb
  | operand => .operand
  | afterName _ _ => .afterName
  | arguments => .arguments

/-- What is read: a list of arguments, or a tree. -/
abbrev Result : Call → Type
  | arguments => List Node
  | expression | climb _ _ | operand | afterName _ _ => Node

/-- What a call does, given what the calls inside it do. -/
def body (invoke : (call : Call) → Counted call.Result) : (call : Call) → Counted call.Result
  | expression => nested do
    let left ← invoke operand
    invoke (climb 0 left)
  | climb least left => do
    climbUpTo (invoke operand) (fun least left => invoke (climb least left)) least
      (← Parser.remaining) left
  | operand => do
    match ← Parser.current with
    | .token ⟨.identifier name, location⟩ =>
      Parser.advance
      invoke (afterName name location)
    | .token ⟨.number value, location⟩ =>
      Parser.advance
      return .number value location
    | entry =>
      if entry.isOperator "(" then
        Parser.advance
        let node ← invoke expression
        Parser.expectOperator ")" .closingParenthesis
        return node
      else
        Parser.reject .expression
  | afterName name location => do
    if ← Parser.accept "(" then
      return .call name (← invoke arguments) location
    else if ← Parser.accept "=" then
      return .assignment name (← invoke expression) location
    else
      return .reference name location
  | arguments => do
    if ← Parser.accept ")" then
      return []
    else
      separatedUpTo (invoke expression) .argumentEnd (← Parser.remaining)

/-- A call with nothing but a budget. -/
def withBudget (budget : Nat) : (call : Call) → Counted call.Result
  | expression => Counted.expression budget
  | climb least left => Counted.climb budget least left
  | operand => Counted.operand budget
  | afterName name location => Counted.afterName budget name location
  | arguments => Counted.arguments budget

/-- What the grammar reads where there is a call, with a number of levels left. -/
def parser (levels : Nat) : (call : Call) → Parser call.Result
  | expression => Grammar.expression levels
  | climb least left => Grammar.climb (Grammar.operand (Grammar.expression levels)) least left
  | operand => Grammar.operand (Grammar.expression levels)
  | afterName name location => Grammar.afterName (Grammar.expression levels) name location
  | arguments => listUntilClosed (Grammar.expression levels) .argumentEnd

end Call

/-- The calls that are open, the innermost one first. -/
abbrev CallStack : Type := List Procedure

namespace CallStack

/-- How many expressions are open. -/
def expressions (calls : CallStack) : Nat := calls.count .expression

/-- How many climbs are open inside the innermost expression. -/
def climbs (calls : CallStack) : Nat := (calls.takeWhile (· ≠ .expression)).count .climb

@[simp] theorem expressions_nil : expressions [] = 0 := rfl

@[simp] theorem expressions_cons_expression (calls : CallStack) :
    expressions (.expression :: calls) = expressions calls + 1 := List.count_cons_self

@[simp] theorem climbs_cons_expression (calls : CallStack) :
    climbs (.expression :: calls) = 0 := rfl

@[simp] theorem climbs_cons_climb (calls : CallStack) :
    climbs (.climb :: calls) = climbs calls + 1 := List.count_cons_self

theorem expressions_cons {procedure : Procedure} (h : procedure ≠ .expression) (calls : CallStack) :
    expressions (procedure :: calls) = expressions calls := List.count_cons_of_ne h

end CallStack

/-- What may refuse a call: it sees what the reader works on, the calls that are open, and the
procedure. -/
abbrev Guard : Type := Counter → CallStack → Procedure → Bool

/-- Carries out a call inside of open calls.  Each call uses up one unit of the budget for the calls
inside it, and has to get past the guard. -/
def run (guard : Guard) : Nat → CallStack → (call : Call) → Counted call.Result
  | 0, _, _ => exhausted
  | budget + 1, calls, call => fun c =>
    if guard c calls call.procedure then
      call.body (run guard budget (call.procedure :: calls)) c
    else
      exhausted c

/-- The guard that lets everything pass. -/
def unguarded : Guard := fun _ _ _ => true

/-- The guard that lets no more calls be open than there may be.  The counter has to say how many
expressions are open; no call may be made inside of more of them than there are levels; and no more
than four climbs may be open inside of one expression. -/
def limits : Guard := fun c calls procedure =>
  calls.expressions = c.level ∧ calls.expressions ≤ maxNesting ∧
    (procedure = .climb → calls.climbs < 4)

/-- The procedures are what their bodies make of them, called with one unit less. -/
theorem withBudget_succ (budget : Nat) (call : Call) :
    call.withBudget (budget + 1) = call.body (Call.withBudget budget) := by
  cases call <;> rfl

/-- With no guard, only the budget counts. -/
theorem withBudget_eq_run (budget : Nat) (calls : CallStack) (call : Call) :
    call.withBudget budget = run unguarded budget calls call := by
  induction budget generalizing calls call with
  | zero => cases call <;> rfl
  | succ budget ih =>
    have hinner : Call.withBudget budget = run unguarded budget (call.procedure :: calls) :=
      funext fun inner => ih _ inner
    rw [withBudget_succ, hinner]
    rfl

/-! ### One call -/

section

variable {level levels : Nat} {invoke : (call : Call) → Counted call.Result}

/-- At a level, a call does what the grammar does with so many levels left, wherever it begins. -/
def Tracks (invoke : (call : Call) → Counted call.Result) (level levels : Nat) (call : Call) :
    Prop :=
  ∀ s, TracksAt level (invoke call) (call.parser levels) s

theorem tracks_arguments (h : Tracks invoke level levels .expression) :
    Tracks (Call.body invoke) level levels .arguments := by
  intro s
  refine (tracksAt_ofParser level (accept ")") s).bind fun closed t _ => ?_
  cases closed with
  | true => exact tracksAt_pure level [] t
  | false =>
    refine (tracksAt_ofParser level remaining t).bind fun bound u _ => ?_
    exact tracksAt_separatedUpTo h _ bound u

theorem tracks_afterName (harguments : Tracks invoke level levels .arguments)
    (hexpression : Tracks invoke level levels .expression) (name : String) (location : Location) :
    Tracks (Call.body invoke) level levels (.afterName name location) := by
  intro s
  refine (tracksAt_ofParser level (accept "(") s).bind fun opened t _ => ?_
  cases opened with
  | true =>
    refine (harguments t).bind fun args u _ => ?_
    exact tracksAt_pure level (Node.call name args location) u
  | false =>
    refine (tracksAt_ofParser level (accept "=") t).bind fun assigned u _ => ?_
    cases assigned with
    | true =>
      refine (hexpression u).bind fun value v _ => ?_
      exact tracksAt_pure level (Node.assignment name value location) v
    | false => exact tracksAt_pure level (Node.reference name location) u

/-- An operand that is neither a name nor a number is an expression in parentheses. -/
theorem tracksAt_parenthesized (h : Tracks invoke level levels .expression) (entry : Entry)
    (s : TokenStream) :
    TracksAt level
      (if entry.isOperator "(" then do
        advance
        let node ← invoke .expression
        expectOperator ")" .closingParenthesis
        return node
      else reject .expression)
      (if entry.isOperator "(" then do
        advance
        let node ← Grammar.expression levels
        expectOperator ")" .closingParenthesis
        return node
      else reject .expression) s := by
  by_cases hopen : entry.isOperator "(" = true
  · rw [if_pos hopen, if_pos hopen]
    refine (tracksAt_ofParser level advance s).bind fun _ t _ => ?_
    refine (h t).bind fun node u _ => ?_
    refine (tracksAt_ofParser level _ u).bind fun _ v _ => ?_
    exact tracksAt_pure level node v
  · rw [if_neg hopen, if_neg hopen]
    exact tracksAt_ofParser level (reject .expression) s

theorem tracks_operand
    (hafterName : ∀ name location, Tracks invoke level levels (.afterName name location))
    (hexpression : Tracks invoke level levels .expression) :
    Tracks (Call.body invoke) level levels .operand := by
  intro s
  have hother := tracksAt_parenthesized hexpression
  refine (tracksAt_ofParser level Parser.current s).bind fun entry t _ => ?_
  rcases entry with ⟨lexeme, location⟩ | stop
  · cases lexeme with
    | identifier name =>
      refine (tracksAt_ofParser level Parser.advance t).bind fun _ u _ => ?_
      exact hafterName name location u
    | number value =>
      refine (tracksAt_ofParser level Parser.advance t).bind fun _ u _ => ?_
      exact tracksAt_pure level (Node.number value location) u
    | keyword word => exact hother _ t
    | operator text => exact hother _ t
  · exact hother _ t

theorem tracks_climb {least : Nat} (hoperand : Tracks invoke level levels .operand)
    (hclimb : ∀ op next : BinaryOperator, least ≤ op.precedence → op.precedence < next.precedence →
      ∀ right, Tracks invoke level levels (.climb (op.precedence + 1) right)) (left : Node) :
    Tracks (Call.body invoke) level levels (.climb least left) := by
  intro s
  refine (tracksAt_ofParser level remaining s).bind fun bound t hremaining => ?_
  cases hremaining
  exact tracksAt_climbUpTo (operand_forward (expression_forward levels)) hoperand hclimb left
    (Nat.le_refl _)

/-- An expression is read one level deeper, with one level less to go. -/
theorem tracks_expression (hoperand : Tracks invoke (level + 1) levels .operand)
    (hclimb : ∀ left, Tracks invoke (level + 1) levels (.climb 0 left))
    (hlevel : level < maxNesting) :
    Tracks (Call.body invoke) level (levels + 1) .expression := by
  intro s
  refine TracksAt.nested ?_ hlevel
  exact (hoperand s).bind fun left t _ => hclimb left t

end

/-! ### Calls within calls -/

/-- The budget that a call needs, with a number of levels left: eight for each level, and one for
each procedure that may be open inside the call before the next level begins. -/
def Call.need (levels : Nat) : Call → Nat
  | expression => 8 * levels + 1
  | arguments => 8 * levels + 2
  | afterName _ _ => 8 * levels + 3
  | operand => 8 * levels + 4
  | climb least _ => 8 * levels + 4 + Counted.climbs least

/-- The climbs that a call opens come to no more than four, with those that are open. -/
def Call.ClimbsWithin (calls : CallStack) : Call → Prop
  | climb least _ => calls.climbs + Counted.climbs least ≤ 4
  | expression | operand | afterName _ _ | arguments => True

/-- A call is within the limits if the calls that are open leave room for its climbs, and the
counter says how many expressions are open. -/
theorem limits_eq_true {calls : CallStack} {call : Call} (hlevel : calls.expressions ≤ maxNesting)
    (hclimbs : call.ClimbsWithin calls) (s : TokenStream) :
    limits ⟨s, calls.expressions⟩ calls call.procedure = true := by
  refine decide_eq_true ⟨rfl, hlevel, fun hcall => ?_⟩
  cases call with
  | climb least left =>
    have hpos := climbs_pos least
    rw [Call.ClimbsWithin] at hclimbs
    omega
  | expression | operand | afterName | arguments => cases hcall

/-- A call that gets past the guard is tracked if what it does is. -/
theorem Tracks.guarded {guard : Guard} {budget level levels : Nat} {calls : CallStack} {call : Call}
    (hpass : ∀ s, guard ⟨s, level⟩ calls call.procedure = true)
    (h : Tracks (Call.body (run guard budget (call.procedure :: calls))) level levels call) :
    Tracks (run guard (budget + 1) calls) level levels call := by
  intro s
  unfold TracksAt run
  rw [if_pos (hpass s)]
  exact h s

/-- **A call that has what it needs does what the grammar does**, and the guard does not show as
long as it refuses nothing that is within the limits. -/
theorem tracks_run {guard : Guard}
    (hguard : ∀ c calls procedure, limits c calls procedure = true → guard c calls procedure = true)
    {budget : Nat} {calls : CallStack} {call : Call} (hlevel : calls.expressions ≤ maxNesting)
    (hneed : call.need (maxNesting - calls.expressions) ≤ budget)
    (hclimbs : call.ClimbsWithin calls) :
    Tracks (run guard budget calls) calls.expressions (maxNesting - calls.expressions) call := by
  induction budget generalizing calls call with
  | zero => cases call <;> simp [Call.need] at hneed
  | succ budget ih =>
    have hpass : ∀ s, guard ⟨s, calls.expressions⟩ calls call.procedure = true :=
      fun s => hguard _ _ _ (limits_eq_true hlevel hclimbs s)
    -- calls inside any procedure but an expression are on the same level
    have hinner : ∀ {inner : Call}, call.procedure ≠ .expression →
        inner.need (maxNesting - calls.expressions) ≤ budget →
        inner.ClimbsWithin (call.procedure :: calls) →
        Tracks (run guard budget (call.procedure :: calls)) calls.expressions
          (maxNesting - calls.expressions) inner := by
      intro inner hcall hneed hclimbs
      have hexpressions := CallStack.expressions_cons hcall calls
      have htracks := @ih (call.procedure :: calls) inner
      rw [hexpressions] at htracks
      exact htracks hlevel hneed hclimbs
    refine .guarded hpass ?_
    cases call with
    | expression =>
      obtain hlast | hmore := Nat.eq_or_lt_of_le hlevel
      · -- too many are open, and nothing is called
        rw [hlast, Nat.sub_self]
        exact tracksAt_tooDeep _
      obtain ⟨levels, hlevels⟩ : ∃ levels, maxNesting - calls.expressions = levels + 1 :=
        ⟨maxNesting - calls.expressions - 1, by omega⟩
      have hless : maxNesting - (calls.expressions + 1) = levels := by omega
      have hdeeper : ∀ {inner : Call}, inner.need levels ≤ budget →
          inner.ClimbsWithin (.expression :: calls) →
          Tracks (run guard budget (.expression :: calls)) (calls.expressions + 1) levels inner := by
        intro inner hneed hclimbs
        have htracks := @ih (.expression :: calls) inner
        rw [CallStack.expressions_cons_expression, hless] at htracks
        exact htracks hmore hneed hclimbs
      rw [hlevels, Call.need] at hneed
      rw [hlevels]
      refine tracks_expression (hdeeper ?_ trivial) (fun left => hdeeper ?_ ?_) hmore
      · rw [Call.need]
        omega
      · rw [Call.need, climbs_zero]
        omega
      · simp [Call.ClimbsWithin]
    | climb least left =>
      have hpos := climbs_pos least
      rw [Call.need] at hneed
      refine tracks_climb (hinner nofun (by rw [Call.need]; omega) trivial) ?_ left
      intro op next hleast hnext right
      have hfewer := climbs_lt hleast hnext
      refine hinner nofun (by rw [Call.need]; omega) ?_
      rw [Call.ClimbsWithin] at hclimbs ⊢
      rw [Call.procedure, CallStack.climbs_cons_climb]
      omega
    | operand =>
      rw [Call.need] at hneed
      exact tracks_operand (fun name location => hinner nofun (by rw [Call.need]; omega) trivial)
        (hinner nofun (by rw [Call.need]; omega) trivial)
    | afterName name location =>
      rw [Call.need] at hneed
      exact tracks_afterName (hinner nofun (by rw [Call.need]; omega) trivial)
        (hinner nofun (by rw [Call.need]; omega) trivial) name location
    | arguments =>
      rw [Call.need] at hneed
      exact tracks_arguments (hinner nofun (by rw [Call.need]; omega) trivial)

/-! ### Statements -/

/-- Room for the expressions of a statement. -/
def enough : Nat := 8 * maxNesting + 8

/-- Reads a declaration behind its keyword, its first value with the given reader. -/
def declarationWith (expression : Counted Node) (location : Location) : Counted Node := do
  let first ← Parser.current
  let name ← Parser.expectName .declaredName
  if ← Parser.accept "=" then
    return .declaration name (← expression) location
  else
    return .declaration name (.number 0 first.location) location

/-- Reads a function behind its keyword, its body with the given reader. -/
def functionWith (expression : Counted Node) (location : Location) : Counted Node := do
  let signature ← Grammar.signature
  Parser.expectOperator "=>" .arrow
  return .function signature (← expression) location

/-- Reads a statement without what ends it, its expression with the given reader. -/
def bodyWith (expression : Counted Node) : Counted Node := do
  match ← Parser.current with
  | .token ⟨.keyword .letWord, location⟩ =>
    Parser.advance
    declarationWith expression location
  | .token ⟨.keyword .functionWord, location⟩ =>
    Parser.advance
    functionWith expression location
  | .token ⟨.keyword .externWord, _⟩ =>
    Parser.advance
    return .prototype (← Grammar.signature)
  | _ => expression

theorem body_eq_bodyWith (budget : Nat) : body budget = bodyWith (expression budget) := rfl

section

variable {reader : Counted Node}

theorem tracksAt_declarationWith (h : ∀ s, TracksAt 0 reader (Grammar.expression maxNesting) s)
    (location : Location) (s : TokenStream) :
    TracksAt 0 (declarationWith reader location) (Grammar.declaration location) s := by
  refine (tracksAt_ofParser 0 Parser.current s).bind fun first t _ => ?_
  refine (tracksAt_ofParser 0 (expectName .declaredName) t).bind fun name u _ => ?_
  refine (tracksAt_ofParser 0 (accept "=") u).bind fun assigned v _ => ?_
  cases assigned with
  | true =>
    refine (h v).bind fun value w _ => ?_
    exact tracksAt_pure 0 (Node.declaration name value location) w
  | false =>
    exact tracksAt_pure 0 (Node.declaration name (.number 0 first.location) location) v

theorem tracksAt_functionWith (h : ∀ s, TracksAt 0 reader (Grammar.expression maxNesting) s)
    (location : Location) (s : TokenStream) :
    TracksAt 0 (functionWith reader location) (Grammar.function location) s := by
  refine (tracksAt_ofParser 0 Grammar.signature s).bind fun signature t _ => ?_
  refine (tracksAt_ofParser 0 (expectOperator "=>" .arrow) t).bind fun _ u _ => ?_
  refine (h u).bind fun body v _ => ?_
  exact tracksAt_pure 0 (Node.function signature body location) v

/-- Statements are read as the grammar reads them if expressions are. -/
theorem tracksAt_bodyWith (h : ∀ s, TracksAt 0 reader (Grammar.expression maxNesting) s)
    (s : TokenStream) : TracksAt 0 (bodyWith reader) Grammar.body s := by
  refine (tracksAt_ofParser 0 Parser.current s).bind fun entry t _ => ?_
  rcases entry with ⟨lexeme, location⟩ | stop
  · cases lexeme with
    | keyword word =>
      cases word with
      | letWord =>
        refine (tracksAt_ofParser 0 Parser.advance t).bind fun _ u _ => ?_
        exact tracksAt_declarationWith h location u
      | functionWord =>
        refine (tracksAt_ofParser 0 Parser.advance t).bind fun _ u _ => ?_
        exact tracksAt_functionWith h location u
      | externWord =>
        refine (tracksAt_ofParser 0 Parser.advance t).bind fun _ u _ => ?_
        refine (tracksAt_ofParser 0 Grammar.signature u).bind fun signature v _ => ?_
        exact tracksAt_pure 0 (Node.prototype signature) v
    | identifier name => exact h t
    | number value => exact h t
    | operator text => exact h t
  · exact h t

end

/-- The expression of a statement is not inside of any call. -/
theorem tracksAt_outermost {guard : Guard}
    (hguard : ∀ c calls procedure, limits c calls procedure = true → guard c calls procedure = true)
    {budget : Nat} (hbudget : enough ≤ budget) (s : TokenStream) :
    TracksAt 0 (run guard budget [] .expression) (Grammar.expression maxNesting) s := by
  have hneed : Call.expression.need (maxNesting - CallStack.expressions []) ≤ budget := by
    unfold enough at hbudget
    rw [CallStack.expressions_nil, Call.need]
    omega
  exact tracks_run hguard (Nat.zero_le _) hneed trivial s

theorem tracksAt_body {budget : Nat} (hbudget : enough ≤ budget) (s : TokenStream) :
    TracksAt 0 (body budget) Grammar.body s := by
  have hexpression : expression budget = run unguarded budget [] .expression :=
    withBudget_eq_run budget [] .expression
  rw [body_eq_bodyWith, hexpression]
  exact tracksAt_bodyWith (tracksAt_outermost (fun _ _ _ _ => rfl) hbudget) s

/-- **The counter and the budget do not show.**  With room for eight calls a level, a statement is
read as the grammar reads it, whatever the counter was before, and the counter ends at zero. -/
theorem statement_eq {budget : Nat} (hbudget : enough ≤ budget) (s : TokenStream) (level : Nat) :
    statement budget ⟨s, level⟩ = report 0 (Grammar.statement s) := by
  have h : TracksAt 0 (body budget >>= fun node => do
      Grammar.terminator
      return node) Grammar.statement s := by
    refine (tracksAt_body hbudget s).bind fun node t _ => ?_
    refine (tracksAt_ofParser 0 Grammar.terminator t).bind fun _ u _ => ?_
    exact tracksAt_pure 0 node u
  exact h

/-- **Calls within calls are bounded, whatever there is to read.**  From any place on a line, a
budget of eight for each level and eight more does not run out while a statement is read: it is read
as the grammar reads it.  The calls that are open at the same time are within the limits: with a
guard that refuses any other call, the same procedures read the same.  So no call is ever made
inside of more than 256 expressions, and if so many are open the next one fails at once, without
another call; and no more than four climbs are open inside of one expression. -/
theorem body_bounded (tape : TokenTape) :
    let stop := report 0 (Grammar.body tape.unread)
    (∀ c, stop ≠ .error .exhausted c) ∧
      body enough ⟨tape.unread, 0⟩ = stop ∧
      body enough = bodyWith (run unguarded enough [] .expression) ∧
      bodyWith (run limits enough [] .expression) ⟨tape.unread, 0⟩ = stop ∧
      ∀ (calls : CallStack) (s : TokenStream), calls.expressions = maxNesting →
        run limits 1 calls .expression ⟨s, maxNesting⟩ =
          .error (.failure (.nestedTooDeeply s.head.location)) ⟨s, maxNesting⟩ := by
  refine ⟨fun c => ?_, tracksAt_body (Nat.le_refl _) tape.unread, ?_, ?_, fun calls s hlast => ?_⟩
  · cases Grammar.body tape.unread <;> nofun
  · rw [body_eq_bodyWith]
    exact congrArg bodyWith (withBudget_eq_run enough [] .expression)
  · exact tracksAt_bodyWith (tracksAt_outermost (fun _ _ _ h => h) (Nat.le_refl _)) tape.unread
  · have htracks := @tracks_run limits (fun _ _ _ h => h) 1 calls .expression (Nat.le_of_eq hlast)
    rw [hlast, Nat.sub_self] at htracks
    exact htracks (Nat.le_refl 1) trivial s

end Counted

end Reckoner
