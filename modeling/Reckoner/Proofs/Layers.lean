import Reckoner.Proofs.BracketedReading

/-!
# Operators in layers

The textbook reads operators in layers: one loop for each tier of operators that bind equally
tightly, which applies them from left to right, and whose operands are read by the loop of the
next tighter tier.  Climbing from operator to operator reads the same expressions as the same
trees, fails at the same places for the same reasons, and leaves the same tokens behind.

## Main definitions

* `Grammar.tiers` — the operators, the loosest first, those that bind equally tightly together.
* `Grammar.chain` — the loop of one tier.
* `Grammar.layers` — the loops of some tiers, one inside of the other.
* `Grammar.layeredExpression` — the reader of expressions with a loop for each tier.
* `Grammar.Tabulates` — that tiers are in the order of precedence.

## Main results

* `Grammar.chain_eq` — the loop, without its bound.
* `Grammar.climb_bind_chain` — a climb from a tier goes on as its loop.
* `Grammar.layers_eq_operationAtLeast` — layers are a climb, for any tiers in order.
* `Grammar.expression_eq_layeredExpression` — **climbing is reading in layers.**
-/

namespace Reckoner.Grammar

open Reckoner.Parser

/-! ### The layered reader -/

/-- The operators in tiers, the loosest first. -/
def tiers : List (List BinaryOperator) :=
  [[.equal], [.less, .greater], [.add, .subtract], [.multiply, .divide]]

/-- The operator of the tier that an entry spells, if it spells one. -/
def tierOperator? (tier : List BinaryOperator) (entry : Entry) : Option BinaryOperator :=
  tier.find? fun op => entry.isOperator op.text

/-- Reads operators of one tier, each with the operand behind it, and applies them to `left` from
left to right.  At most `bound` operators are read. -/
def chainUpTo (tier : List BinaryOperator) (tighter : Parser Node) : Nat → Node → Parser Node
  | 0, left => pure left
  | bound + 1, left => do
    let entry ← current
    match tierOperator? tier entry with
    | none => return left
    | some op =>
      advance
      let right ← tighter
      chainUpTo tier tighter bound (.binary op left right entry.location)

/-- Reads all operators of one tier that follow, each with the operand behind it.  There are no
more operators than tokens ahead. -/
def chain (tier : List BinaryOperator) (tighter : Parser Node) (left : Node) : Parser Node := do
  chainUpTo tier tighter (← remaining) left

/-- Reads an operation with one loop for each tier, the loosest outermost. -/
def layers (operand : Parser Node) : List (List BinaryOperator) → Parser Node
  | [] => operand
  | tier :: tighter => do
    let left ← layers operand tighter
    chain tier (layers operand tighter) left

/-- Reads an expression that may use the given number of levels, with one loop for each tier of
operators. -/
def layeredExpression : Nat → Parser Node
  | 0 => tooDeep
  | levels + 1 => layers (operand (layeredExpression levels)) tiers

variable {operand tighter : Parser Node} {tier : List BinaryOperator} {s : TokenStream}

/-- No two operators are spelled alike, so it does not matter where an operator stands in its tier.
-/
theorem tierOperator?_eq_some_iff {e : Entry} {op : BinaryOperator} :
    tierOperator? tier e = some op ↔ binaryOperator? e = some op ∧ op ∈ tier := by
  have hfound : ∀ {op}, tierOperator? tier e = some op → binaryOperator? e = some op := by
    intro op h
    rw [tierOperator?] at h
    have hspelled := List.find?_some h
    exact binaryOperator?_eq_some_iff.2 (Entry.isOperator_iff.1 hspelled)
  refine ⟨fun h => ⟨hfound h, List.mem_of_find?_eq_some h⟩, fun ⟨hop, hmem⟩ => ?_⟩
  obtain ⟨l, rfl⟩ := binaryOperator?_eq_some_iff.1 hop
  have hsome : (tierOperator? tier (.token ⟨.operator op.text, l⟩)).isSome = true :=
    List.find?_isSome.2 ⟨op, hmem, Entry.isOperator_iff.2 ⟨l, rfl⟩⟩
  obtain ⟨other, hother⟩ := Option.isSome_iff_exists.1 hsome
  rw [hother, ← hop, hfound hother]

/-- The end of the input spells no operator. -/
theorem tierOperator?_endOfInput (tier : List BinaryOperator) (l : Location) :
    tierOperator? tier (.endOfInput l) = none :=
  List.find?_eq_none.2 fun _ _ => Bool.false_ne_true

/-! ### The loop without its bound -/

theorem chainUpTo_succ (h : tighter.Forward) {bound : Nat} (left : Node)
    (hs : s.length ≤ bound) :
    chainUpTo tier tighter bound left s = chainUpTo tier tighter (bound + 1) left s := by
  induction bound generalizing left s with
  | zero =>
    obtain ⟨_ | ⟨token, tokens⟩, stop⟩ := s
    · rw [chainUpTo, chainUpTo, bind_run_ok (current_run _), TokenStream.head_mk_nil,
        tierOperator?_endOfInput]
    · cases hs
  | succ bound ih =>
    rw [chainUpTo, chainUpTo, bind_run_ok (current_run s), bind_run_ok (current_run s)]
    cases hop : tierOperator? tier s.head with
    | none => rfl
    | some op =>
      have htail := length_tail_lt_of_binaryOperator (tierOperator?_eq_some_iff.1 hop).1
      dsimp only
      rw [bind_run_ok (advance_run s), bind_run_ok (advance_run s)]
      cases hright : tighter s.tail with
      | error e t => rw [bind_run_error hright, bind_run_error hright]
      | ok right t =>
        have ht := (h.of_ok hright).length_le
        rw [bind_run_ok hright, bind_run_ok hright]
        exact ih _ (by omega)

theorem chainUpTo_eq_chain (h : tighter.Forward) {bound : Nat} (left : Node)
    (hs : s.length ≤ bound) :
    chainUpTo tier tighter bound left s = chain tier tighter left s := by
  induction hs with
  | refl => rfl
  | step hle ih => rw [← chainUpTo_succ h left hle, ih]

theorem chain_eq (h : tighter.Forward) (left : Node) :
    chain tier tighter left = (do
      let entry ← current
      match tierOperator? tier entry with
      | none => return left
      | some op =>
        advance
        let right ← tighter
        chain tier tighter (.binary op left right entry.location)) := by
  funext s
  rw [← chainUpTo_eq_chain h left (Nat.le_succ s.length), chainUpTo,
    bind_run_ok (current_run s), bind_run_ok (current_run s)]
  cases hop : tierOperator? tier s.head with
  | none => rfl
  | some op =>
    have htail := length_tail_lt_of_binaryOperator (tierOperator?_eq_some_iff.1 hop).1
    dsimp only
    rw [bind_run_ok (advance_run s), bind_run_ok (advance_run s)]
    cases hright : tighter s.tail with
    | error e t => rw [bind_run_error hright, bind_run_error hright]
    | ok right t =>
      have ht := (h.of_ok hright).length_le
      rw [bind_run_ok hright, bind_run_ok hright]
      exact chainUpTo_eq_chain h _ (by omega)

/-- The loop ends at anything but an operator of its tier. -/
theorem chain_of_ne (h : tighter.Forward) {left : Node}
    (hnext : ∀ op, binaryOperator? s.head = some op → op ∉ tier) :
    chain tier tighter left s = .ok left s := by
  rw [chain_eq h, bind_run_ok (current_run s)]
  cases hop : tierOperator? tier s.head with
  | none => rfl
  | some op =>
    obtain ⟨hbinary, hmem⟩ := tierOperator?_eq_some_iff.1 hop
    exact absurd hmem (hnext op hbinary)

/-- The loop reads an operator of its tier and the operand behind it, and goes on. -/
theorem chain_of_mem (h : tighter.Forward) {left : Node} {op : BinaryOperator}
    (hop : binaryOperator? s.head = some op) (hmem : op ∈ tier) :
    chain tier tighter left s = (do
      let right ← tighter
      chain tier tighter (.binary op left right s.head.location)) s.tail := by
  rw [chain_eq h, bind_run_ok (current_run s), tierOperator?_eq_some_iff.2 ⟨hop, hmem⟩]
  rfl

/-! ### Layers are a climb -/

/-- Tiers that hold the operators that bind at least as tightly as `least`: first those that bind
loosest among them, all with the same precedence, and then tiers of those that bind tighter. -/
inductive Tabulates : List (List BinaryOperator) → Nat → Prop
  /-- No operator binds so tightly. -/
  | nil {least : Nat} : (∀ op : BinaryOperator, op.precedence < least) → Tabulates [] least
  /-- The first tier holds all operators of the loosest precedence. -/
  | cons {tier : List BinaryOperator} {tighter : List (List BinaryOperator)} {least : Nat}
      (precedence : Nat) : least ≤ precedence →
      (∀ op : BinaryOperator, op ∈ tier ↔ op.precedence = precedence) →
      (∀ op : BinaryOperator, least ≤ op.precedence → precedence ≤ op.precedence) →
      Tabulates tighter (precedence + 1) → Tabulates (tier :: tighter) least

/-- The tiers hold all operators, in the order of their precedence. -/
theorem tabulates_tiers : Tabulates tiers 0 := by
  refine .cons 5 ?_ ?_ ?_ <| .cons 10 ?_ ?_ ?_ <| .cons 20 ?_ ?_ ?_ <| .cons 40 ?_ ?_ ?_ <| .nil ?_
  all_goals
    first
      | decide
      | intro op; cases op <;> decide

/-- A climb from a tier is a climb from the next tier, gone on with by the loop of the tier. -/
theorem climb_bind_chain (h : operand.Forward) {least precedence : Nat}
    (hle : least ≤ precedence) (htier : ∀ op : BinaryOperator, op ∈ tier ↔ op.precedence = precedence)
    (hleast : ∀ op : BinaryOperator, least ≤ op.precedence → precedence ≤ op.precedence)
    (left : Node) :
    (climb operand (precedence + 1) left >>= chain tier (operationAtLeast operand (precedence + 1)))
      = climb operand least left := by
  have htighter := operationAtLeast_forward h (precedence + 1)
  funext s
  induction hlen : s.length using Nat.strongRecOn generalizing left s with
  | _ n ih =>
    by_cases hnext : Continues least s.head
    · obtain ⟨op, hop, hlop⟩ := hnext
      have htail := length_tail_lt_of_binaryOperator hop
      rw [climb_of_continues h hop hlop]
      rcases Nat.eq_or_lt_of_le (hleast op hlop) with heq | hlt
      · -- an operator of the tier: the loop reads it, and then there is nothing for the climb
        have hstop : ¬ Continues (precedence + 1) s.head := by
          rintro ⟨next, hn, hlt⟩
          rw [hop] at hn
          cases hn
          omega
        rw [bind_run_ok (climb_of_not_continues h hstop),
          chain_of_mem htighter hop ((htier op).2 heq.symm), ← heq]
        cases hright : operationAtLeast operand (precedence + 1) s.tail with
        | error e t => rw [bind_run_error hright, bind_run_error hright]
        | ok right t =>
          have ht := (htighter.of_ok hright).length_le
          obtain ⟨first, u, hfirst, hclimb⟩ := bind_eq_ok_iff.1 hright
          have hstop' := (climbs_of_climb h hclimb).stops
          rw [bind_run_ok hright, bind_run_ok hright, ← ih t.length (by omega) _ t rfl,
            bind_run_ok (climb_of_not_continues h hstop')]
      · -- a tighter operator: both climbs read it, and go on in the same way
        have hright := operationAtLeast_forward h (op.precedence + 1)
        rw [bind_run_congr _ (climb_of_continues h hop hlt), bind_assoc]
        cases hrun : operationAtLeast operand (op.precedence + 1) s.tail with
        | error e t => rw [bind_run_error hrun, bind_run_error hrun]
        | ok right t =>
          have ht := (hright.of_ok hrun).length_le
          rw [bind_run_ok hrun, bind_run_ok hrun]
          exact ih t.length (by omega) _ t rfl
    · -- neither the climbs nor the loop go on
      have hstop : ¬ Continues (precedence + 1) s.head := by
        rintro ⟨next, hn, hlt⟩
        exact hnext ⟨next, hn, by omega⟩
      have hends : ∀ op, binaryOperator? s.head = some op → op ∉ tier := by
        intro op hop hmem
        have heq := (htier op).1 hmem
        exact hnext ⟨op, hop, by omega⟩
      rw [bind_run_ok (climb_of_not_continues h hstop), chain_of_ne htighter hends,
        climb_of_not_continues h hnext]

/-- The layers of tiers in order are a climb. -/
theorem layers_eq_operationAtLeast (h : operand.Forward) {ts : List (List BinaryOperator)}
    {least : Nat} (hts : Tabulates ts least) :
    layers operand ts = operationAtLeast operand least := by
  induction hts with
  | @nil least hall =>
    funext s
    rw [layers, operationAtLeast]
    cases hrun : operand s with
    | error e t => rw [bind_run_error hrun]
    | ok left t =>
      have hstop : ¬ Continues least t.head := by
        rintro ⟨op, -, hle⟩
        exact absurd (hall op) (Nat.not_lt.2 hle)
      rw [bind_run_ok hrun, climb_of_not_continues h hstop]
  | cons precedence hle htier hleast _ ih =>
    rw [layers, ih, operationAtLeast, bind_assoc]
    exact bind_congr fun left => climb_bind_chain h hle htier hleast left

theorem expression_eq_layers (levels : Nat) : expression levels = layeredExpression levels := by
  induction levels with
  | zero => rfl
  | succ levels ih =>
    rw [expression_succ, layeredExpression, ← ih,
      layers_eq_operationAtLeast (operand_forward (expression_forward levels)) tabulates_tiers]
    rfl

/-- **Climbing is reading in layers**, at every level: on every stream the result is the same tree
or the same error, and the same tokens are left.  So an operator nests inside of those that bind
looser, and on the left of those that bind equally tightly: the tree that is read is one of an
expression in which every other nesting stands in parentheses. -/
theorem expression_eq_layeredExpression (levels : Nat) :
    expression levels = layeredExpression levels ∧
      ∀ s : TokenStream, (∃ e u, expression levels s = .error e u) ∨
        ∃ node u, expression levels s = .ok node u ∧
          ∃ t : Bracketed, t.Sufficient ∧ s.Spans t.words u ∧ node.unplaced = t.tree := by
  refine ⟨expression_eq_layers levels, fun s => ?_⟩
  cases hrun : expression levels s with
  | error e u => exact .inl ⟨e, u, rfl⟩
  | ok node u =>
    obtain ⟨t, ht⟩ := bracketed_of_expression hrun
    exact .inr ⟨node, u, rfl, t, ht.sufficient, ht.spans, ht.tree_eq⟩

end Reckoner.Grammar
