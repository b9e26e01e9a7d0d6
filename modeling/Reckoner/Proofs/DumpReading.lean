import Reckoner.Proofs.NumberReading
import Reckoner.Proofs.OutlineReading

/-!
# Reading dumps back

The dump of a tree tells the tree.  The line that it opens with tells what kind of node it is, and
so which parts there are to be read; and each part is read off what is left, from the first to the
last.  So trees with the same dump are the same, with all their names, numbers, operators and
locations, their parameters and their arguments in order, however the names are spelled.

That goes for number literals of every kind.  The two zeros and the two infinities are told apart by
their signs, and a float that is no number is always the same float here.

## Main results

* `Location.determines_outline`, `Signature.determines_outline` — locations and signatures are told
  by their outlines.
* `determines_float` — so are numbers, by the text of a literal.
* `Node.determines_outline` — a tree is told by its outline, whatever stands behind it.
* `Node.dump_injective` — **the dump of a tree determines the tree.**
-/

namespace Reckoner

open Outline

/-- The number of a literal is told by its text, in which there is no comma. -/
theorem determines_float (x : Float) : Determines ofFloat x := by
  refine determines_atom (fun x hcomma => ?_) fun y h => Decimal.Layout.write_literal_injective h
  have hchar := Decimal.Layout.allNumberChars_write
    Decimal.Layout.allNumberChars_wholeTail_literal x ',' hcomma
  exact absurd hchar (by decide)

theorem BinaryOperator.determines_name (op : BinaryOperator) :
    Determines (fun op : BinaryOperator => .atom op.name) op := by
  refine determines_atom (fun op => ?_) fun op' h => ?_
  · cases op <;> decide
  · revert h
    cases op <;> cases op' <;> decide

theorem Location.determines_outline (l : Location) : Determines Location.outline l := by
  intro l' depth tail tail' _ _ h
  obtain ⟨-, h⟩ := block_inj (by decide) (by decide) h
  obtain ⟨hline, h⟩ := (determines_nat l.line).field h
  obtain ⟨hcolumn, h⟩ := (determines_nat l.column).field h
  exact ⟨by cases l; cases l'; cases hline; cases hcolumn; rfl, closing_inj h⟩

theorem Signature.determines_outline (s : Signature) : Determines Signature.outline s := by
  intro s' depth tail tail' _ _ h
  obtain ⟨-, h⟩ := block_inj (by decide) (by decide) h
  obtain ⟨hname, h⟩ := (determines_quoted s.name).field h
  obtain ⟨hparams, h⟩ := (Determines.list fun param _ => determines_quoted param).field h
  obtain ⟨hlocation, h⟩ := s.location.determines_outline.field h
  exact ⟨by cases s; cases s'; cases hname; cases hparams; cases hlocation; rfl, closing_inj h⟩

namespace Node

/-! ### One kind of node after the other -/

section Kinds

variable (name : String) (l : Location) (signature : Signature)

theorem determines_number (value : Float) : Determines outline (number value l) := by
  intro node' depth tail tail' _ _ h
  cases node' with
  | number value' l' =>
    obtain ⟨-, h⟩ := block_inj (by decide) (by decide) h
    obtain ⟨hvalue, h⟩ := (determines_float value).item h
    obtain ⟨hl, h⟩ := l.determines_outline.item h
    exact ⟨by rw [hvalue, hl], closing_inj h⟩
  | _ => cases (block_inj (by decide) (by decide) h).1

theorem determines_reference : Determines outline (reference name l) := by
  intro node' depth tail tail' _ _ h
  cases node' with
  | reference name' l' =>
    obtain ⟨-, h⟩ := block_inj (by decide) (by decide) h
    obtain ⟨hname, h⟩ := (determines_quoted name).item h
    obtain ⟨hl, h⟩ := l.determines_outline.item h
    exact ⟨by rw [hname, hl], closing_inj h⟩
  | _ => cases (block_inj (by decide) (by decide) h).1

theorem determines_declaration {initial : Node} (hinitial : Determines outline initial) :
    Determines outline (declaration name initial l) := by
  intro node' depth tail tail' _ _ h
  cases node' with
  | declaration name' initial' l' =>
    obtain ⟨-, h⟩ := block_inj (by decide) (by decide) h
    obtain ⟨hname, h⟩ := (determines_quoted name).field h
    obtain ⟨hsame, h⟩ := hinitial.field h
    obtain ⟨hl, h⟩ := l.determines_outline.field h
    exact ⟨by rw [hname, hsame, hl], closing_inj h⟩
  | _ => cases (block_inj (by decide) (by decide) h).1

theorem determines_assignment {value : Node} (hvalue : Determines outline value) :
    Determines outline (assignment name value l) := by
  intro node' depth tail tail' _ _ h
  cases node' with
  | assignment name' value' l' =>
    obtain ⟨-, h⟩ := block_inj (by decide) (by decide) h
    obtain ⟨hname, h⟩ := (determines_quoted name).field h
    obtain ⟨hsame, h⟩ := hvalue.field h
    obtain ⟨hl, h⟩ := l.determines_outline.field h
    exact ⟨by rw [hname, hsame, hl], closing_inj h⟩
  | _ => cases (block_inj (by decide) (by decide) h).1

theorem determines_binary (op : BinaryOperator) {left right : Node}
    (hleft : Determines outline left) (hright : Determines outline right) :
    Determines outline (binary op left right l) := by
  intro node' depth tail tail' _ _ h
  cases node' with
  | binary op' left' right' l' =>
    obtain ⟨-, h⟩ := block_inj (by decide) (by decide) h
    obtain ⟨hop, h⟩ := op.determines_name.field h
    obtain ⟨hsameLeft, h⟩ := hleft.field h
    obtain ⟨hsameRight, h⟩ := hright.field h
    obtain ⟨hl, h⟩ := l.determines_outline.field h
    exact ⟨by rw [hop, hsameLeft, hsameRight, hl], closing_inj h⟩
  | _ => cases (block_inj (by decide) (by decide) h).1

theorem determines_call {args : List Node} (hargs : ∀ arg ∈ args, Determines outline arg) :
    Determines outline (call name args l) := by
  intro node' depth tail tail' _ _ h
  cases node' with
  | call name' args' l' =>
    rw [outline, outline, outlines_eq_map, outlines_eq_map] at h
    obtain ⟨-, h⟩ := block_inj (by decide) (by decide) h
    obtain ⟨hname, h⟩ := (determines_quoted name).field h
    obtain ⟨hsame, h⟩ := (Determines.list hargs).field h
    obtain ⟨hl, h⟩ := l.determines_outline.field h
    exact ⟨by rw [hname, hsame, hl], closing_inj h⟩
  | _ => cases (block_inj (by decide) (by decide) h).1

theorem determines_prototype : Determines outline (prototype signature) := by
  intro node' depth tail tail' _ _ h
  cases node' with
  | prototype signature' =>
    obtain ⟨-, h⟩ := block_inj (by decide) (by decide) h
    obtain ⟨hsignature, h⟩ := signature.determines_outline.item h
    exact ⟨by rw [hsignature], closing_inj h⟩
  | _ => cases (block_inj (by decide) (by decide) h).1

theorem determines_function {body : Node} (hbody : Determines outline body) :
    Determines outline (function signature body l) := by
  intro node' depth tail tail' _ _ h
  cases node' with
  | function signature' body' l' =>
    obtain ⟨-, h⟩ := block_inj (by decide) (by decide) h
    obtain ⟨hsignature, h⟩ := signature.determines_outline.field h
    obtain ⟨hsame, h⟩ := hbody.field h
    obtain ⟨hl, h⟩ := l.determines_outline.field h
    exact ⟨by rw [hsignature, hsame, hl], closing_inj h⟩
  | _ => cases (block_inj (by decide) (by decide) h).1

end Kinds

/-! ### Trees -/

mutual

/-- A tree is told by its outline, whatever stands behind it. -/
theorem determines_outline (node : Node) : Determines outline node := by
  cases node with
  | number value l => exact determines_number l value
  | reference name l => exact determines_reference name l
  | declaration name initial l => exact determines_declaration name l (determines_outline initial)
  | assignment name value l => exact determines_assignment name l (determines_outline value)
  | binary op left right l =>
    exact determines_binary l op (determines_outline left) (determines_outline right)
  | call callee args l => exact determines_call callee l (determines_outlines args)
  | prototype signature => exact determines_prototype signature
  | function signature body l => exact determines_function l signature (determines_outline body)

/-- So are the arguments of a call, one by one. -/
theorem determines_outlines (nodes : List Node) : ∀ node ∈ nodes, Determines outline node := by
  cases nodes with
  | nil => exact List.forall_mem_nil _
  | cons node nodes =>
    exact List.forall_mem_cons.2 ⟨determines_outline node, determines_outlines nodes⟩

end

/-- **The dump of a tree determines the tree.** -/
theorem dump_injective : Function.Injective dump := by
  intro a b h
  exact (a.determines_outline ends_nil ends_nil (String.ofList_inj.1 h)).1

end Node

end Reckoner
