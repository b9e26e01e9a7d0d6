import Reckoner.Proofs.Operation

/-!
# Expressions with their parentheses

A syntax tree does not say which parentheses it was written with.  This module keeps them: a
bracketed expression is a tree with parentheses as nodes, and the words it is written with can be
read off it.  Its parentheses are sufficient if no operand is torn apart by the operators around
it and no assignment swallows what follows it.

## Main definitions

* `Node.unplaced` — a tree without its locations.
* `Grammar.Bracketed` — an expression with its parentheses.
* `Bracketed.words`, `Bracketed.tree`, `Bracketed.levels` — its words, its tree, and the number of
  levels it is nested.
* `Bracketed.Sufficient` — that no necessary parenthesis is missing.
-/

namespace Reckoner

/-! ### Trees without locations -/

/-- A signature without its location. -/
def Signature.unplaced (signature : Signature) : Signature := { signature with location := .start }

/-- A tree without its locations. -/
def Node.unplaced : Node → Node
  | .number value _ => .number value .start
  | .reference name _ => .reference name .start
  | .declaration name initial _ => .declaration name initial.unplaced .start
  | .assignment name value _ => .assignment name value.unplaced .start
  | .binary op left right _ => .binary op left.unplaced right.unplaced .start
  | .call callee args _ => .call callee (args.map Node.unplaced) .start
  | .prototype signature => .prototype signature.unplaced
  | .function signature body _ => .function signature.unplaced body.unplaced .start

namespace Grammar

open Reckoner.Parser

/-! ### Bracketed expressions -/

/-- An expression with its parentheses. -/
inductive Bracketed where
  /-- A number. -/
  | number (value : Float)
  /-- A name. -/
  | reference (name : String)
  /-- A name with its arguments. -/
  | call (callee : String) (args : List Bracketed)
  /-- A name with its new value. -/
  | assignment (name : String) (value : Bracketed)
  /-- Two operands with an operator between them. -/
  | binary (op : BinaryOperator) (left right : Bracketed)
  /-- An expression in parentheses. -/
  | parenthesized (inner : Bracketed)
  deriving Inhabited

/-- The greatest of some numbers is bounded by what bounds all of them. -/
theorem foldr_max_le {ns : List Nat} {n : Nat} :
    ns.foldr max 0 ≤ n ↔ ∀ k ∈ ns, k ≤ n := by
  induction ns with
  | nil => simp
  | cons k ns ih => rw [List.foldr_cons, Nat.max_le, ih, List.forall_mem_cons]

/-- Things that are each made from a part are made from a list of parts. -/
theorem exists_map_eq {α β : Type} {P : α → Prop} {f : α → β} {bs : List β}
    (h : ∀ b ∈ bs, ∃ a, P a ∧ f a = b) : ∃ as : List α, (∀ a ∈ as, P a) ∧ as.map f = bs := by
  induction bs with
  | nil => exact ⟨[], by simp, rfl⟩
  | cons b bs ih =>
    obtain ⟨a, ha, hb⟩ := h b List.mem_cons_self
    obtain ⟨as, has, hbs⟩ := ih fun c hc => h c (List.mem_cons_of_mem b hc)
    refine ⟨a :: as, ?_, by rw [List.map_cons, hb, hbs]⟩
    intro c hc
    rcases List.mem_cons.1 hc with rfl | hc
    · exact ha
    · exact has c hc

namespace Bracketed

/-- The words an expression is written with. -/
def words : Bracketed → List Lexeme
  | number value => [.number value]
  | reference name => [.identifier name]
  | call callee args =>
    .identifier callee :: .operator "(" :: (commaSeparated (args.map words) ++ [.operator ")"])
  | assignment name value => .identifier name :: .operator "=" :: value.words
  | binary op left right => left.words ++ .operator op.text :: right.words
  | parenthesized inner => .operator "(" :: (inner.words ++ [.operator ")"])

/-- The tree an expression stands for. -/
def tree : Bracketed → Node
  | number value => .number value .start
  | reference name => .reference name .start
  | call callee args => .call callee (args.map tree) .start
  | assignment name value => .assignment name value.tree .start
  | binary op left right => .binary op left.tree right.tree .start
  | parenthesized inner => inner.tree

/-- The number of levels of an expression: one for itself, and one more for what is nested in its
arguments, its parentheses and the values it assigns. -/
def levels : Bracketed → Nat
  | number _ | reference _ => 1
  | call _ args => (args.map levels).foldr max 0 + 1
  | assignment _ value => value.levels + 1
  | binary _ left right => max left.levels right.levels
  | parenthesized inner => inner.levels + 1

/-- The operator that is applied last, unless it stands inside of something. -/
def outermost : Bracketed → Option BinaryOperator
  | binary op .. => some op
  | _ => none

/-- Whether the expression ends with the value of an assignment. -/
def isOpen : Bracketed → Bool
  | assignment .. => true
  | binary _ _ right => right.isOpen
  | _ => false

/-- `t.BindsAtLeast least`: the operator that is applied last, if any, binds at least as tightly
as `least`. -/
def BindsAtLeast (least : Nat) (t : Bracketed) : Prop :=
  ∀ op, t.outermost = some op → least ≤ op.precedence

/-- No necessary parenthesis is missing: a left operand binds at least as tightly as the operator
behind it and does not end with an assignment, and a right operand binds tighter than the operator
in front of it. -/
inductive Sufficient : Bracketed → Prop
  | number (value : Float) : Sufficient (number value)
  | reference (name : String) : Sufficient (reference name)
  | call (callee : String) {args : List Bracketed} :
      (∀ arg ∈ args, Sufficient arg) → Sufficient (call callee args)
  | assignment (name : String) {value : Bracketed} :
      Sufficient value → Sufficient (assignment name value)
  | binary {op : BinaryOperator} {left right : Bracketed} :
      Sufficient left → Sufficient right → left.isOpen = false →
      left.BindsAtLeast op.precedence → right.BindsAtLeast (op.precedence + 1) →
      Sufficient (binary op left right)
  | parenthesized {inner : Bracketed} : Sufficient inner → Sufficient (parenthesized inner)

theorem levels_arg_lt {callee : String} {args : List Bracketed} {arg : Bracketed}
    (h : arg ∈ args) : arg.levels < (call callee args).levels := by
  rw [levels, Nat.lt_succ_iff]
  exact foldr_max_le.1 (Nat.le_refl _) _ (List.mem_map_of_mem h)

theorem levels_call_le {callee : String} {args : List Bracketed} {n : Nat}
    (h : ∀ arg ∈ args, arg.levels ≤ n) : (call callee args).levels ≤ n + 1 := by
  rw [levels, Nat.succ_le_succ_iff]
  exact foldr_max_le.2 (List.forall_mem_map.2 h)

theorem levels_pos (t : Bracketed) : 0 < t.levels := by
  fun_induction levels t <;> omega

/-- An expression begins with a number, a name or an opening parenthesis. -/
theorem words_head (t : Bracketed) : ∃ w ws, t.words = w :: ws ∧
    ((∃ value, w = .number value) ∨ (∃ name, w = .identifier name) ∨ w = .operator "(") := by
  fun_induction words t with
  | case1 value => exact ⟨_, _, rfl, .inl ⟨value, rfl⟩⟩
  | case2 name => exact ⟨_, _, rfl, .inr (.inl ⟨name, rfl⟩)⟩
  | case3 callee args _ => exact ⟨_, _, rfl, .inr (.inl ⟨callee, rfl⟩)⟩
  | case4 name value _ => exact ⟨_, _, rfl, .inr (.inl ⟨name, rfl⟩)⟩
  | case5 op left right ihleft _ =>
    obtain ⟨w, ws, hwords, hw⟩ := ihleft
    exact ⟨w, ws ++ .operator op.text :: right.words, by rw [hwords, List.cons_append], hw⟩
  | case6 inner _ => exact ⟨_, _, rfl, .inr (.inr rfl)⟩

end Bracketed

end Grammar

end Reckoner
