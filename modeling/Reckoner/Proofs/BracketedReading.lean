import Reckoner.Proofs.Bracketing

/-!
# Reading what is bracketed

The reader of expressions is the inverse of writing sufficiently bracketed expressions down: it
succeeds exactly on their words, and gives their tree.  In one direction, the words of an
expression are read as its tree with the climb still to be gone on with, which is what the words
of an operand need inside of a longer operation.  In the other, a climb turns a record of its left
side into a record of what it gives back.

## Main definitions

* `Grammar.EndsExpression`, `Grammar.MayFollow` — what may stand behind an expression.
* `Bracketed.StaysWhole` — that an operator behind an expression takes the whole of it.
* `Bracketed.IsReadAsTree` — that the words of an expression are read as its tree.
* `Bracketed.Records` — that an expression is what was read somewhere.

## Main results

* `Grammar.expression_of_bracketed` — the words of a sufficiently bracketed expression are read as
  its tree.
* `Grammar.bracketed_of_expression` — what is read as a tree are the words of such an expression.
-/

namespace Reckoner.Grammar

open Reckoner.Parser

/-! ### What is written is read -/

/-- What may follow an expression of its own level: nothing that goes on with it. -/
structure EndsExpression (e : Entry) : Prop where
  not_open : e.isOperator "(" = false
  not_equals : e.isOperator "=" = false
  not_operator : binaryOperator? e = none

/-- `t.StaysWhole e`: if `e` is an operator behind `t`, then it takes the whole of `t` as its left
operand.  It must not bind tighter than `t` does, and no assignment at the end of `t` may swallow
it. -/
def Bracketed.StaysWhole (t : Bracketed) (e : Entry) : Prop :=
  ∀ op, binaryOperator? e = some op → t.isOpen = false ∧ t.BindsAtLeast op.precedence

/-- What may follow an expression so that it is read as it is bracketed. -/
structure MayFollow (e : Entry) (t : Bracketed) : Prop where
  not_open : e.isOperator "(" = false
  not_equals : e.isOperator "=" = false
  staysWhole : t.StaysWhole e

theorem EndsExpression.mayFollow {e : Entry} (h : EndsExpression e) (t : Bracketed) :
    MayFollow e t := by
  refine ⟨h.not_open, h.not_equals, fun op hop => ?_⟩
  rw [h.not_operator] at hop
  cases hop

/-- Operators other than those that join two values end an expression, but for two of them. -/
theorem endsExpression_of_isOperator {e : Entry} {text : String} (h : e.isOperator text = true)
    (hopen : text ≠ "(") (hequals : text ≠ "=") (hop : BinaryOperator.ofText? text = none) :
    EndsExpression e := by
  obtain ⟨l, rfl⟩ := Entry.isOperator_iff.1 h
  exact ⟨decide_eq_false hopen, decide_eq_false hequals, hop⟩

theorem endsExpression_endOfInput (l : Location) : EndsExpression (.endOfInput l) := ⟨rfl, rfl, rfl⟩

theorem mayFollow_operator {t : Bracketed} {op : BinaryOperator} {l : Location}
    (hopen : t.isOpen = false) (hbinds : t.BindsAtLeast op.precedence) :
    MayFollow (.token ⟨.operator op.text, l⟩) t := by
  refine ⟨?_, ?_, ?_⟩
  · cases op <;> rfl
  · cases op <;> rfl
  · intro next hnext
    rw [binaryOperator?, BinaryOperator.ofText?_text] at hnext
    cases hnext
    exact ⟨hopen, hbinds⟩

/-- The words of `t` are read as its tree, and then the climb goes on behind them. -/
def Bracketed.IsReadAsTree (t : Bracketed) : Prop :=
  ∀ ⦃levels least : Nat⦄ ⦃s u : TokenStream⦄, t.levels ≤ levels + 1 → t.BindsAtLeast least →
    s.Spans t.words u → MayFollow u.head t →
    ∃ node : Node, node.unplaced = t.tree ∧
      operationAtLeast (operand (expression levels)) least s =
        climb (operand (expression levels)) least node u

/-- If nothing goes on with it, an expression is all that is read. -/
theorem Bracketed.IsReadAsTree.expression {t : Bracketed} (h : t.IsReadAsTree) {levels : Nat}
    {s u : TokenStream} (hlevels : t.levels ≤ levels) (hs : s.Spans t.words u)
    (hu : EndsExpression u.head) :
    ∃ node : Node, expression levels s = .ok node u ∧ node.unplaced = t.tree := by
  cases levels with
  | zero =>
    have hpos := t.levels_pos
    omega
  | succ levels =>
    obtain ⟨node, htree, hrun⟩ :=
      h hlevels (fun op _ => Nat.zero_le op.precedence) hs (hu.mayFollow t)
    refine ⟨node, ?_, htree⟩
    have hstop : ¬ Continues 0 u.head := by
      rintro ⟨op, hop, -⟩
      rw [hu.not_operator] at hop
      cases hop
    rw [← climb_of_not_continues (operand_forward (expression_forward levels)) hstop, ← hrun]
    rfl

theorem operationAtLeast_of_operand {operand : Parser Node} {least : Nat} {s u : TokenStream}
    {node : Node} (h : operand s = .ok node u) :
    operationAtLeast operand least s = climb operand least node u := by
  rw [operationAtLeast, bind_run_ok h]

/-- The words of a sufficiently bracketed expression are read as its tree. -/
theorem Bracketed.Sufficient.isReadAsTree {t : Bracketed} (h : t.Sufficient) : t.IsReadAsTree := by
  induction h with
  | number value =>
    intro levels least s u _ _ hs _
    rw [words] at hs
    obtain ⟨l, hhead, rfl⟩ := TokenStream.spans_singleton.1 hs
    refine ⟨.number value l, by rw [Node.unplaced, tree], operationAtLeast_of_operand ?_⟩
    exact operand_of_number hhead
  | reference name =>
    intro levels least s u _ _ hs hu
    rw [words] at hs
    obtain ⟨l, hhead, rfl⟩ := TokenStream.spans_singleton.1 hs
    refine ⟨.reference name l, by rw [Node.unplaced, tree], operationAtLeast_of_operand ?_⟩
    rw [operand_of_name hhead, afterName_of_neither hu.not_open hu.not_equals]
  | @call callee args _ ih =>
    intro levels least s u hlevels _ hs _
    rw [words] at hs
    obtain ⟨l, hhead, l', hopen, hs⟩ := hs
    have hargs : ∃ nodes, listUntilClosed (expression levels) .argumentEnd s.tail.tail = .ok nodes u ∧
        nodes.map Node.unplaced = args.map tree := by
      refine listUntilClosed_of_spans (expression_forward levels) ?_ ?_ hs
      · intro arg harg s u hs hu
        have hlt := Nat.lt_of_lt_of_le (levels_arg_lt harg) hlevels
        refine (ih arg harg).expression (Nat.le_of_lt_succ hlt) hs ?_
        rcases hu with hu | hu
        · exact endsExpression_of_isOperator hu (by decide) (by decide) rfl
        · exact endsExpression_of_isOperator hu (by decide) (by decide) rfl
      · intro arg _
        obtain ⟨w, ws, hwords, hw⟩ := arg.words_head
        refine ⟨w, ws, hwords, ?_⟩
        rintro rfl
        simp at hw
    obtain ⟨nodes, hnodes, htrees⟩ := hargs
    refine ⟨.call callee nodes l, by rw [Node.unplaced, htrees, tree],
      operationAtLeast_of_operand ?_⟩
    rw [operand_of_name hhead, afterName_of_open (Entry.isOperator_iff.2 ⟨l', hopen⟩),
      bind_run_ok hnodes]
    rfl
  | @assignment name value _ ih =>
    intro levels least s u hlevels _ hs hu
    rw [words] at hs
    rw [Bracketed.levels] at hlevels
    obtain ⟨l, hhead, l', hequals, hs⟩ := hs
    -- the assignment is open, so no operator follows its value
    have hends : EndsExpression u.head := by
      refine ⟨hu.not_open, hu.not_equals, ?_⟩
      cases hop : binaryOperator? u.head with
      | none => rfl
      | some op => exact absurd (hu.staysWhole op hop).1 (by simp [isOpen])
    obtain ⟨node, hnode, htree⟩ := ih.expression (Nat.le_of_succ_le_succ hlevels) hs hends
    refine ⟨.assignment name node l, by rw [Node.unplaced, htree, tree],
      operationAtLeast_of_operand ?_⟩
    rw [operand_of_name hhead, afterName_of_equals (Entry.isOperator_iff.2 ⟨l', hequals⟩),
      bind_run_ok hnode]
    rfl
  | @binary op left right _ _ hclosed hleft hright ihleft ihright =>
    intro levels least s u hlevels hbinds hs hu
    have hforward := operand_forward (expression_forward levels)
    have hleast : least ≤ op.precedence := hbinds op rfl
    rw [Bracketed.levels, Nat.max_le] at hlevels
    rw [words] at hs
    obtain ⟨v, hs, l, hop, hs'⟩ := TokenStream.spans_append.1 hs
    -- the left operand is read, and the operator after it is for this climb
    have hv : MayFollow v.head left := by
      rw [hop]
      exact mayFollow_operator hclosed hleft
    have hbinary : binaryOperator? v.head = some op := binaryOperator?_eq_some_iff.2 ⟨l, hop⟩
    obtain ⟨leftNode, hleftTree, hleftRun⟩ :=
      ihleft hlevels.1 (fun o ho => Nat.le_trans hleast (hleft o ho)) hs hv
    -- the right operand is read, and what comes after it is not for the climb behind it
    have hnext : ∀ next, binaryOperator? u.head = some next →
        right.isOpen = false ∧ next.precedence ≤ op.precedence := by
      intro next hnext
      obtain ⟨hopen, hle⟩ := hu.staysWhole next hnext
      exact ⟨hopen, hle op rfl⟩
    have hu' : MayFollow u.head right :=
      ⟨hu.not_open, hu.not_equals, fun next hn => ⟨(hnext next hn).1, fun o ho =>
        Nat.le_trans (hnext next hn).2 (Nat.le_of_succ_le (hright o ho))⟩⟩
    have hstop : ¬ Continues (op.precedence + 1) u.head := by
      rintro ⟨next, hn, hlt⟩
      have hle := (hnext next hn).2
      omega
    obtain ⟨rightNode, hrightTree, hrightRun⟩ := ihright hlevels.2 hright hs' hu'
    rw [climb_of_not_continues hforward hstop] at hrightRun
    refine ⟨.binary op leftNode rightNode v.head.location, ?_, ?_⟩
    · rw [Node.unplaced, hleftTree, hrightTree, tree]
    · rw [hleftRun, climb_of_continues hforward hbinary hleast, bind_run_ok hrightRun]
  | @parenthesized inner _ ih =>
    intro levels least s u hlevels _ hs _
    rw [words] at hs
    rw [Bracketed.levels] at hlevels
    obtain ⟨l, hhead, hs⟩ := hs
    obtain ⟨v, hs, hclose⟩ := TokenStream.spans_append.1 hs
    obtain ⟨l', hclosed, -⟩ := TokenStream.spans_singleton.1 hclose
    have hends : EndsExpression v.head := endsExpression_of_isOperator
      (Entry.isOperator_iff.2 ⟨l', hclosed⟩) (by decide) (by decide) rfl
    obtain ⟨node, hnode, htree⟩ := ih.expression (Nat.le_of_succ_le_succ hlevels) hs hends
    refine ⟨node, by rw [htree, tree], operationAtLeast_of_operand ?_⟩
    rw [operand_of_open hhead, bind_run_ok hnode,
      bind_run_ok (expectOperator_eq_ok_iff.2 hclose)]
    rfl

/-- The words of a sufficiently bracketed expression are read as its tree, if there are levels
enough and nothing goes on with the expression. -/
theorem expression_of_bracketed {t : Bracketed} (h : t.Sufficient) {levels : Nat}
    {s u : TokenStream} (hlevels : t.levels ≤ levels) (hs : s.Spans t.words u)
    (hu : EndsExpression u.head) :
    ∃ node : Node, expression levels s = .ok node u ∧ node.unplaced = t.tree :=
  h.isReadAsTree.expression hlevels hs hu

/-! ### What is read was written -/

/-- `t.Records levels s node u`: what stands between `s` and `u`, and is read as `node` there, is
`t` with all its parentheses. -/
structure Bracketed.Records (t : Bracketed) (levels : Nat) (s : TokenStream) (node : Node)
    (u : TokenStream) : Prop where
  sufficient : t.Sufficient
  levels_le : t.levels ≤ levels
  spans : s.Spans t.words u
  tree_eq : node.unplaced = t.tree

/-- A reader of nested expressions that leaves no operator behind and has a record of what it
read. -/
def Recorded (levels : Nat) (inner : Parser Node) : Prop :=
  ∀ {s u : TokenStream} {node : Node}, inner s = .ok node u →
    (∃ t : Bracketed, t.Records levels s node u) ∧ binaryOperator? u.head = none

/-- An operand has a record, and an operator behind it takes all of it. -/
theorem ReadsOperand.record {levels : Nat} {inner : Parser Node} (hinner : Recorded levels inner)
    {s u : TokenStream} {node : Node} (h : ReadsOperand inner s node u) :
    ∃ t : Bracketed, t.Records (levels + 1) s node u ∧ t.outermost = none ∧
      t.StaysWhole u.head := by
  -- an operand that is not open is left whole by any operator
  have hwhole : ∀ {t : Bracketed} {e : Entry}, t.outermost = none → t.isOpen = false →
      t.StaysWhole e := by
    intro t e houter hopen op _
    refine ⟨hopen, fun outer hsome => ?_⟩
    rw [houter] at hsome
    cases hsome
  cases h with
  | @number value l hhead =>
    refine ⟨.number value, ⟨.number value, ?_, ?_, ?_⟩, rfl, hwhole rfl rfl⟩
    · simp [Bracketed.levels]
    · rw [Bracketed.words]
      exact ⟨l, hhead, rfl⟩
    · rw [Node.unplaced, Bracketed.tree]
  | @reference name l hhead _ _ =>
    refine ⟨.reference name, ⟨.reference name, ?_, ?_, ?_⟩, rfl,
      hwhole rfl rfl⟩
    · simp [Bracketed.levels]
    · rw [Bracketed.words]
      exact ⟨l, hhead, rfl⟩
    · rw [Node.unplaced, Bracketed.tree]
  | @call _ name l args hhead hopen hargs =>
    obtain ⟨l', hopen, -⟩ := TokenStream.spans_singleton.1 (spans_operator hopen)
    have hrecords : ∃ ts : List Bracketed, (∀ t ∈ ts, t.Sufficient ∧ t.levels ≤ levels) ∧
        s.tail.tail.Spans (commaSeparated (ts.map Bracketed.words) ++ [.operator ")"]) u ∧
        args.map Node.unplaced = ts.map Bracketed.tree := by
      refine spans_of_listUntilClosed ?_ hargs
      intro s u node hrun
      obtain ⟨⟨t, ht⟩, -⟩ := hinner hrun
      exact ⟨t, ⟨ht.sufficient, ht.levels_le⟩, ht.spans, ht.tree_eq⟩
    obtain ⟨ts, hts, hspans, htrees⟩ := hrecords
    refine ⟨.call name ts, ⟨.call name fun t ht => (hts t ht).1, ?_, ?_, ?_⟩, rfl,
      hwhole rfl rfl⟩
    · exact Bracketed.levels_call_le fun t ht => (hts t ht).2
    · rw [Bracketed.words]
      exact ⟨l, hhead, l', hopen, hspans⟩
    · rw [Node.unplaced, Bracketed.tree, htrees]
  | @assignment _ name l value hhead hequals hvalue =>
    obtain ⟨l', hequals, -⟩ := TokenStream.spans_singleton.1 (spans_operator hequals)
    obtain ⟨⟨t, ht⟩, hnext⟩ := hinner hvalue
    refine ⟨.assignment name t, ⟨.assignment name ht.sufficient, ?_, ?_, ?_⟩, rfl, ?_⟩
    · rw [Bracketed.levels]
      exact Nat.succ_le_succ ht.levels_le
    · rw [Bracketed.words]
      exact ⟨l, hhead, l', hequals, ht.spans⟩
    · rw [Node.unplaced, Bracketed.tree, ht.tree_eq]
    · -- its value has read all operators that follow
      intro op hop
      rw [hnext] at hop
      cases hop
  | @parenthesized v _ _ l hhead hinside hclose =>
    obtain ⟨⟨t, ht⟩, -⟩ := hinner hinside
    refine ⟨.parenthesized t, ⟨.parenthesized ht.sufficient, ?_, ?_, ?_⟩, rfl,
      hwhole rfl rfl⟩
    · rw [Bracketed.levels]
      exact Nat.succ_le_succ ht.levels_le
    · rw [Bracketed.words]
      exact ⟨l, hhead, TokenStream.spans_append.2 ⟨v, ht.spans, hclose⟩⟩
    · rw [ht.tree_eq, Bracketed.tree]

/-- A climb turns a record of its left side into a record of the whole. -/
theorem Climbs.record {levels least : Nat} {inner : Parser Node} (hinner : Recorded levels inner)
    {left node : Node} {s u : TokenStream} (h : Climbs (operand inner) least left s node u) :
    ∀ {t₀ : Bracketed} {s₀ : TokenStream}, t₀.Records (levels + 1) s₀ left s →
      t₀.StaysWhole s.head → ∃ t : Bracketed, t.Records (levels + 1) s₀ node u ∧
        t.StaysWhole u.head ∧ (t₀.BindsAtLeast least → t.BindsAtLeast least) := by
  induction h with
  | stop _ =>
    intro t₀ s₀ ht₀ hwhole
    exact ⟨t₀, ht₀, hwhole, id⟩
  | @step least left first right node s t u v op hop hle hfirst hright _ ihright ih =>
    intro t₀ s₀ ht₀ hwhole
    obtain ⟨l, hhead⟩ := binaryOperator?_eq_some_iff.1 hop
    obtain ⟨hclosed, hbinds⟩ := hwhole op hop
    -- the right side begins with an operand, so all of it binds tighter than the operator
    obtain ⟨t₁, ht₁, houter, hwhole₁⟩ := (readsOperand_of_operand hfirst).record hinner
    obtain ⟨t₂, ht₂, hwhole₂, htighter⟩ := ihright ht₁ hwhole₁
    have hbinds₂ : t₂.BindsAtLeast (op.precedence + 1) := by
      refine htighter fun outer hsome => ?_
      rw [houter] at hsome
      cases hsome
    -- what follows the right side is for this climb
    have hstops := hright.stops
    have hrecord : (Bracketed.binary op t₀ t₂).Records (levels + 1) s₀
        (.binary op left right s.head.location) u := by
      refine ⟨.binary ht₀.sufficient ht₂.sufficient hclosed hbinds hbinds₂, ?_, ?_, ?_⟩
      · rw [Bracketed.levels, Nat.max_le]
        exact ⟨ht₀.levels_le, ht₂.levels_le⟩
      · rw [Bracketed.words]
        exact TokenStream.spans_append.2 ⟨s, ht₀.spans, l, hhead, ht₂.spans⟩
      · rw [Node.unplaced, Bracketed.tree, ht₀.tree_eq, ht₂.tree_eq]
    have hwhole' : (Bracketed.binary op t₀ t₂).StaysWhole u.head := by
      intro next hnext
      refine ⟨by rw [Bracketed.isOpen]; exact (hwhole₂ next hnext).1, fun outer hsome => ?_⟩
      cases hsome
      exact Nat.le_of_not_lt fun hlt => hstops ⟨next, hnext, hlt⟩
    obtain ⟨t, ht, hwholet, hbindst⟩ := ih hrecord hwhole'
    refine ⟨t, ht, hwholet, fun _ => hbindst fun outer hsome => ?_⟩
    cases hsome
    exact hle

/-- What is read as an expression has a record, and no operator follows it. -/
theorem recorded_expression (levels : Nat) : Recorded levels (expression levels) := by
  induction levels with
  | zero =>
    intro s u node hrun
    cases hrun
  | succ levels ih =>
    intro s u node hrun
    obtain ⟨left, v, hleft, hclimb⟩ := bind_eq_ok_iff.1 hrun
    have hclimbs := climbs_of_climb (operand_forward (expression_forward levels)) hclimb
    obtain ⟨t₀, ht₀, -, hwhole⟩ := (readsOperand_of_operand hleft).record ih
    obtain ⟨t, ht, -⟩ := hclimbs.record ih ht₀ hwhole
    refine ⟨⟨t, ht⟩, ?_⟩
    cases hop : binaryOperator? u.head with
    | none => rfl
    | some op => exact absurd ⟨op, hop, Nat.zero_le _⟩ hclimbs.stops

/-- What is read as an expression are the words of a sufficiently bracketed expression with that
tree. -/
theorem bracketed_of_expression {levels : Nat} {s u : TokenStream} {node : Node}
    (h : expression levels s = .ok node u) : ∃ t : Bracketed, t.Records levels s node u :=
  (recorded_expression levels h).1

end Reckoner.Grammar
