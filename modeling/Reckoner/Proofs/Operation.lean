import Reckoner.Proofs.Reading

/-!
# How an operation is read

An operand is told by its first word, and behind a name by the word after it.  Behind an operand,
`Grammar.climb` goes on while operators bind at least as tightly as it was told, and goes off for
the right side of an operator before it goes on.  Its definition looks ahead to save a call;
without that it is two rules, and every fact about it is an induction on them.

## Main definitions

* `Grammar.ReadsOperand` — the operands that are read with success, as a relation.
* `Grammar.Continues least e` — the entry `e` is an operator for a climb from `least`.
* `Grammar.operationAtLeast` — an operand and the climb behind it.
* `Grammar.Climbs` — the climbs that succeed, as a relation.

## Main results

* `Grammar.operand_of_number`, `Grammar.operand_of_name`, `Grammar.operand_of_open` — the operands
  by their first word.
* `Grammar.readsOperand_of_operand` — there are no other operands than these.
* `Grammar.climb_of_not_continues`, `Grammar.climb_of_continues` — the two rules.
* `Grammar.climbs_of_climb` — a climb that succeeds is along `Climbs`.
* `Grammar.Climbs.stops` — what follows a climb binds too loosely for it.
-/

namespace Reckoner.Grammar

open Reckoner.Parser

/-- Only the spelling of an operator stands for it. -/
theorem binaryOperator?_eq_some_iff {e : Entry} {op : BinaryOperator} :
    binaryOperator? e = some op ↔ ∃ l, e = .token ⟨.operator op.text, l⟩ := by
  constructor
  · intro h
    unfold binaryOperator? at h
    split at h
    · next text l =>
      rw [BinaryOperator.ofText?_eq_some_iff] at h
      exact ⟨l, by rw [h]⟩
    · cases h
  · rintro ⟨l, rfl⟩
    exact BinaryOperator.ofText?_text op

/-! ### Operands -/

section Operands

variable {inner : Parser Node} {s : TokenStream} {l : Location}

theorem operand_of_number {value : Float} (h : s.head = .token ⟨.number value, l⟩) :
    operand inner s = .ok (.number value l) s.tail := by
  rw [operand, bind_run_ok (current_run s), h]
  rfl

theorem operand_of_name {name : String} (h : s.head = .token ⟨.identifier name, l⟩) :
    operand inner s = afterName inner name l s.tail := by
  rw [operand, bind_run_ok (current_run s), h]
  rfl

theorem operand_of_open (h : s.head = .token ⟨.operator "(", l⟩) :
    operand inner s = (do
      let node ← inner
      expectOperator ")" .closingParenthesis
      return node) s.tail := by
  rw [operand, bind_run_ok (current_run s), h]
  rfl

/-- Nothing else is an operand. -/
theorem operand_of_other (hname : ∀ name l, s.head ≠ .token ⟨.identifier name, l⟩)
    (hnumber : ∀ value l, s.head ≠ .token ⟨.number value, l⟩)
    (hopen : s.head.isOperator "(" = false) : operand inner s = reject .expression s := by
  rw [operand, bind_run_ok (current_run s)]
  cases hhead : s.head with
  | endOfInput stop => rfl
  | token a =>
    obtain ⟨lexeme, l⟩ := a
    rw [hhead] at hopen
    cases lexeme with
    | identifier name => exact absurd hhead (hname name l)
    | number value => exact absurd hhead (hnumber value l)
    | keyword word => rfl
    | operator text =>
      dsimp only
      rw [if_neg (Bool.eq_false_iff.1 hopen)]

theorem afterName_of_open {name : String} (h : s.head.isOperator "(" = true) :
    afterName inner name l s = (do
      let args ← listUntilClosed inner .argumentEnd
      return Node.call name args l) s.tail := by
  rw [afterName, accept_bind_run, if_pos h]
  rfl

theorem afterName_of_equals {name : String} (h : s.head.isOperator "=" = true) :
    afterName inner name l s = (do
      let value ← inner
      return Node.assignment name value l) s.tail := by
  obtain ⟨l', hhead⟩ := Entry.isOperator_iff.1 h
  have hcall : ¬ s.head.isOperator "(" = true := by
    rw [hhead, Entry.isOperator_operator]
    decide
  rw [afterName, accept_bind_run, if_neg hcall]
  simp only [Bool.false_eq_true, ↓reduceIte]
  rw [accept_bind_run, if_pos h]
  rfl

theorem afterName_of_neither {name : String} (hcall : s.head.isOperator "(" = false)
    (hequals : s.head.isOperator "=" = false) :
    afterName inner name l s = .ok (.reference name l) s := by
  rw [afterName, accept_bind_run, if_neg (Bool.eq_false_iff.1 hcall)]
  simp only [Bool.false_eq_true, ↓reduceIte]
  rw [accept_bind_run, if_neg (Bool.eq_false_iff.1 hequals)]
  rfl

/-- The operands that are read with success, by what they begin with. -/
inductive ReadsOperand (inner : Parser Node) : TokenStream → Node → TokenStream → Prop
  | number {s : TokenStream} {value : Float} {l : Location} :
      s.head = .token ⟨.number value, l⟩ → ReadsOperand inner s (.number value l) s.tail
  | call {s t : TokenStream} {name : String} {l : Location} {args : List Node} :
      s.head = .token ⟨.identifier name, l⟩ → s.tail.head.isOperator "(" = true →
      listUntilClosed inner .argumentEnd s.tail.tail = .ok args t →
      ReadsOperand inner s (.call name args l) t
  | assignment {s t : TokenStream} {name : String} {l : Location} {value : Node} :
      s.head = .token ⟨.identifier name, l⟩ → s.tail.head.isOperator "=" = true →
      inner s.tail.tail = .ok value t → ReadsOperand inner s (.assignment name value l) t
  | reference {s : TokenStream} {name : String} {l : Location} :
      s.head = .token ⟨.identifier name, l⟩ → s.tail.head.isOperator "(" = false →
      s.tail.head.isOperator "=" = false → ReadsOperand inner s (.reference name l) s.tail
  | parenthesized {s t u : TokenStream} {node : Node} {l : Location} :
      s.head = .token ⟨.operator "(", l⟩ → inner s.tail = .ok node t →
      t.Spans [.operator ")"] u → ReadsOperand inner s node u

/-- An operand that is read is one of these. -/
theorem readsOperand_of_operand {node : Node} {t : TokenStream}
    (hrun : operand inner s = .ok node t) : ReadsOperand inner s node t := by
  cases hhead : s.head with
  | endOfInput stop =>
    rw [operand_of_other (by simp [hhead]) (by simp [hhead]) (by rw [hhead]; rfl)] at hrun
    cases hrun
  | token a =>
    obtain ⟨lexeme, l⟩ := a
    cases lexeme with
    | number value =>
      rw [operand_of_number hhead] at hrun
      cases hrun
      exact .number hhead
    | keyword word =>
      rw [operand_of_other (by simp [hhead]) (by simp [hhead]) (by rw [hhead]; rfl)] at hrun
      cases hrun
    | operator text =>
      by_cases htext : text = "("
      · subst htext
        rw [operand_of_open hhead] at hrun
        obtain ⟨inside, u, hinside, hrun⟩ := bind_eq_ok_iff.1 hrun
        obtain ⟨⟨⟩, v, hclose, hrun⟩ := bind_eq_ok_iff.1 hrun
        cases hrun
        exact .parenthesized hhead hinside (expectOperator_eq_ok_iff.1 hclose)
      · rw [operand_of_other (by simp [hhead]) (by simp [hhead]) (by simp [hhead, htext])] at hrun
        cases hrun
    | identifier name =>
      rw [operand_of_name hhead] at hrun
      cases hcall : s.tail.head.isOperator "(" with
      | true =>
        rw [afterName_of_open hcall] at hrun
        obtain ⟨args, u, hargs, hrun⟩ := bind_eq_ok_iff.1 hrun
        cases hrun
        exact .call hhead hcall hargs
      | false =>
        cases hequals : s.tail.head.isOperator "=" with
        | true =>
          rw [afterName_of_equals hequals] at hrun
          obtain ⟨value, u, hvalue, hrun⟩ := bind_eq_ok_iff.1 hrun
          cases hrun
          exact .assignment hhead hequals hvalue
        | false =>
          rw [afterName_of_neither hcall hequals] at hrun
          cases hrun
          exact .reference hhead hcall hequals

end Operands

/-! ### Climbing -/

variable {operand : Parser Node} {least : Nat} {left node : Node} {s t : TokenStream}

/-- Whether the entry is an operator for a climb from `least`: one that binds at least as tightly.
-/
def Continues (least : Nat) (entry : Entry) : Prop :=
  ∃ op, binaryOperator? entry = some op ∧ least ≤ op.precedence

/-- Climbing goes on no further if what comes next binds too loosely, or is no operator. -/
theorem climb_of_not_continues (h : operand.Forward) (hnext : ¬ Continues least s.head) :
    climb operand least left s = .ok left s := by
  rw [climb_eq h, bind_run_ok (current_run s)]
  cases hop : binaryOperator? s.head with
  | none => rfl
  | some op =>
    have hloose : op.precedence < least := Nat.not_le.1 fun hle => hnext ⟨op, hop, hle⟩
    dsimp only
    rw [if_pos hloose]
    rfl

/-- Reads an operand and all operators behind it that bind at least as tightly as `least`. -/
def operationAtLeast (operand : Parser Node) (least : Nat) : Parser Node := do
  let left ← operand
  climb operand least left

theorem operationAtLeast_forward (h : operand.Forward) (least : Nat) :
    (operationAtLeast operand least).Forward := .bind h fun left => climb_forward h least left

/-- Climbing reads an operator and its right side, which goes on while operators bind tighter, and
then climbs on. -/
theorem climb_of_continues (h : operand.Forward) {op : BinaryOperator}
    (hop : binaryOperator? s.head = some op) (hle : least ≤ op.precedence) :
    climb operand least left s = (do
      let right ← operationAtLeast operand (op.precedence + 1)
      climb operand least (.binary op left right s.head.location)) s.tail := by
  rw [climb_eq h, bind_run_ok (current_run s), hop]
  dsimp only
  rw [if_neg (Nat.not_lt.2 hle), bind_run_ok (advance_run s), operationAtLeast, bind_assoc]
  cases hright : operand s.tail with
  | error e t => rw [bind_run_error hright, bind_run_error hright]
  | ok right t =>
    rw [bind_run_ok hright, bind_run_ok hright, bind_run_ok (current_run t)]
    split
    · rfl
    · next htighter =>
      -- nothing tighter comes next, so climbing on would not read anything
      have hstop : ¬ Continues (op.precedence + 1) t.head := by
        rintro ⟨next, hnext, hlt⟩
        refine htighter ?_
        rw [bindsTighter, hnext]
        exact decide_eq_true hlt
      rw [bind_run_ok (climb_of_not_continues h hstop), bind_run_ok (pure_run right t)]

/-- The climbs that succeed, as a relation between what is given and what is left: either what
comes next binds too loosely, or it is an operator whose right side is an operand with all that
binds tighter, and the climb goes on behind that. -/
inductive Climbs (operand : Parser Node) :
    Nat → Node → TokenStream → Node → TokenStream → Prop
  | stop {least : Nat} {left : Node} {s : TokenStream} :
      ¬ Continues least s.head → Climbs operand least left s left s
  | step {least : Nat} {left first right node : Node} {s t u v : TokenStream}
      {op : BinaryOperator} : binaryOperator? s.head = some op →
      least ≤ op.precedence → operand s.tail = .ok first t →
      Climbs operand (op.precedence + 1) first t right u →
      Climbs operand least (.binary op left right s.head.location) u node v →
      Climbs operand least left s node v

theorem climbs_of_climb (h : operand.Forward) (hrun : climb operand least left s = .ok node t) :
    Climbs operand least left s node t := by
  induction hlen : s.length using Nat.strongRecOn generalizing least left s node t with
  | _ n ih =>
    by_cases hnext : Continues least s.head
    · obtain ⟨op, hop, hle⟩ := hnext
      rw [climb_of_continues h hop hle] at hrun
      obtain ⟨right, t₂, hside, hrun⟩ := bind_eq_ok_iff.1 hrun
      obtain ⟨first, t₁, hfirst, hright⟩ := bind_eq_ok_iff.1 hside
      have h₀ := length_tail_lt_of_binaryOperator hop
      have h₁ := (h.of_ok hfirst).length_le
      have h₂ := ((climb_forward h _ _).of_ok hright).length_le
      exact .step hop hle hfirst (ih _ (by omega) hright rfl) (ih _ (by omega) hrun rfl)
    · rw [climb_of_not_continues h hnext] at hrun
      cases hrun
      exact .stop hnext

/-- A climb reads forward. -/
theorem Climbs.isRestOf (hclimb : Climbs operand least left s node t) (h : operand.Forward) :
    t.IsRestOf s := by
  induction hclimb with
  | stop _ => exact .refl _
  | @step _ _ _ _ _ s _ _ _ _ _ _ hfirst _ _ ihright ih =>
    exact ((ih.trans ihright).trans (h.of_ok hfirst)).trans (.tail s)

/-- What follows a climb binds too loosely for it. -/
theorem Climbs.stops (h : Climbs operand least left s node t) : ¬ Continues least t.head := by
  induction h with
  | stop hnext => exact hnext
  | step _ _ _ _ _ _ ih => exact ih

end Reckoner.Grammar
