import Reckoner.Proofs.Framing

/-!
# What a terminal takes a text for

A terminal shows the characters of a text, except where it comes upon an escape and a bracket:
these, and all up to the next `m`, are one sequence, which is not shown but sets the style of what
is behind it.  So a text is a row of signs, characters and sequences; the characters alone are what
there is to read in it, and the sequences tell the style of each.

A text without escapes has no sequences.  A text that is painted has two, one in front of it and one
behind; where it ends and what colour it is in does not depend on what else is written.

## Main definitions

* `Sign`, `Text.signs cs` — what a terminal takes a text for.
* `Text.unpaint s` — a text without its sequences.
* `Text.Unpaints s t` — without its sequences, `s` is `t`, whatever stands behind it.
* `Sign.styled style signs` — the characters of a text, each in its style.
* `Block.signs`, `Block.styled` — what a block should be taken for.

## Main results

* `Text.signs_append`, `Text.signs_sequence` — a text is taken apart from the front.
* `Block.signs_write` — a block is opened by the colour of its role and closed by a reset.
* `Block.styled_signs` — it leaves no colour behind, whatever it finds.
* `Text.Unpaints.append`, `Text.Unpaints.join` — sequences are taken out part by part.
-/

namespace Reckoner

/-! ### Signs -/

/-- What a terminal takes a part of a text for. -/
inductive Sign where
  /-- A character to show. -/
  | shown (c : Char)
  /-- A sequence, with what stands between its bracket and its `m`. -/
  | sequence (parameters : List Char)
  deriving DecidableEq, Repr

namespace Text

/-- What is in front of the next `m`, and what is behind it. -/
def takeParameters : List Char → Option (List Char × List Char)
  | [] => none
  | c :: cs =>
    if c = 'm' then some ([], cs)
    else (takeParameters cs).map fun (parameters, rest) => (c :: parameters, rest)

/-- The parameters of the sequence that a text begins with, and what is behind the sequence.  An
escape and a bracket without an `m` behind them are none. -/
def takeSequence : List Char → Option (List Char × List Char)
  | '\x1b' :: '[' :: cs => takeParameters cs
  | _ => none

variable {c : Char} {cs text parameters rest : List Char}

theorem takeParameters_append (h : 'm' ∉ parameters) (rest : List Char) :
    takeParameters (parameters ++ 'm' :: rest) = some (parameters, rest) := by
  induction parameters with
  | nil => rfl
  | cons c parameters ih =>
    rw [List.mem_cons, not_or] at h
    rw [List.cons_append, takeParameters, if_neg (Ne.symm h.1), ih h.2]
    rfl

theorem eq_of_takeParameters (h : takeParameters cs = some (parameters, rest)) :
    cs = parameters ++ 'm' :: rest := by
  induction cs generalizing parameters with
  | nil => cases h
  | cons c cs ih =>
    rw [takeParameters] at h
    split at h
    · next hm =>
      cases h
      rw [hm, List.nil_append]
    · obtain ⟨⟨parameters, rest⟩, htake, ⟨⟩⟩ := Option.map_eq_some_iff.1 h
      rw [ih htake, List.cons_append]

/-- What a sequence is taken for stands there. -/
theorem eq_of_takeSequence (h : takeSequence cs = some (parameters, rest)) :
    cs = '\x1b' :: '[' :: (parameters ++ 'm' :: rest) := by
  fun_cases takeSequence cs with
  | case1 cs => rw [eq_of_takeParameters h]
  | case2 cs hother =>
    rw [takeSequence.eq_2 cs hother] at h
    cases h

/-- What a terminal takes a text for, one sign after the other. -/
def signs (cs : List Char) : List Sign :=
  match h : takeSequence cs with
  | some (parameters, rest) =>
    have : rest.length < cs.length := by
      rw [eq_of_takeSequence h]
      simp only [List.length_cons, List.length_append]
      omega
    .sequence parameters :: signs rest
  | none =>
    match cs with
    | [] => []
    | c :: cs => .shown c :: signs cs
termination_by cs.length

theorem signs_of_takeSequence (h : takeSequence cs = some (parameters, rest)) :
    signs cs = .sequence parameters :: signs rest := by
  rw [signs]
  split
  · next htake =>
    cases h.symm.trans htake
    rfl
  · next htake => cases h.symm.trans htake

@[simp] theorem signs_nil : signs [] = [] := by
  rw [signs]
  rfl

/-- A sequence is one sign. -/
theorem signs_sequence (h : 'm' ∉ parameters) (rest : List Char) :
    signs ('\x1b' :: '[' :: (parameters ++ 'm' :: rest)) = .sequence parameters :: signs rest :=
  signs_of_takeSequence (takeParameters_append h rest)

/-- A character that is no escape is shown. -/
theorem signs_cons (h : c ≠ '\x1b') (cs : List Char) : signs (c :: cs) = .shown c :: signs cs := by
  rw [signs]
  split
  · next htake =>
    cases eq_of_takeSequence htake
    exact absurd rfl h
  · rfl

/-- A text without escapes is shown as it is. -/
theorem signs_append (h : '\x1b' ∉ text) (rest : List Char) :
    signs (text ++ rest) = text.map .shown ++ signs rest := by
  induction text with
  | nil => rfl
  | cons c text ih =>
    rw [List.mem_cons, not_or] at h
    rw [List.cons_append, signs_cons (Ne.symm h.1), ih h.2]
    rfl

end Text

/-! ### What is shown -/

/-- The character that a sign shows, if it does. -/
def Sign.character? : Sign → Option Char
  | shown c => some c
  | sequence _ => none

theorem Sign.filterMap_shown (text : List Char) (signs : List Sign) :
    (text.map shown ++ signs).filterMap character? = text ++ signs.filterMap character? := by
  rw [List.filterMap_append, List.filterMap_map]
  exact congrArg (· ++ signs.filterMap character?) List.filterMap_some

namespace Text

/-- The characters that a terminal shows of a text. -/
def characters (cs : List Char) : List Char := (signs cs).filterMap Sign.character?

/-- A text without its sequences. -/
def unpaint (s : String) : String := String.ofList (characters s.toList)

/-- Without its sequences, `s` is `t`, whatever stands behind it. -/
def Unpaints (s t : String) : Prop :=
  ∀ rest : List Char, characters (s.toList ++ rest) = t.toList ++ characters rest

variable {s s' t t' : String}

theorem characters_append {text : List Char} (h : '\x1b' ∉ text) (rest : List Char) :
    characters (text ++ rest) = text ++ characters rest := by
  rw [characters, signs_append h, Sign.filterMap_shown]
  rfl

/-- What is taken out of a text without escapes is nothing. -/
theorem unpaints_of_lacks (h : Lacks s '\x1b') : Unpaints s s := characters_append h

theorem Unpaints.append (h : Unpaints s t) (h' : Unpaints s' t') :
    Unpaints (s ++ s') (t ++ t') := by
  intro rest
  rw [String.toList_append, String.toList_append, List.append_assoc, List.append_assoc, h, h']

/-- Texts one after the other lose their sequences one by one. -/
theorem Unpaints.join {α : Type} {xs : List α} {f g : α → String}
    (h : ∀ x ∈ xs, Unpaints (f x) (g x)) :
    Unpaints (String.join (xs.map f)) (String.join (xs.map g)) := by
  induction xs with
  | nil => exact fun rest => rfl
  | cons x xs ih =>
    obtain ⟨hx, hxs⟩ := List.forall_mem_cons.1 h
    rw [List.map_cons, List.map_cons, String.join_cons, String.join_cons]
    exact hx.append (ih hxs)

theorem Unpaints.unpaint_eq (h : Unpaints s t) : unpaint s = t := by
  have hall := h []
  have hnothing : characters [] = [] := by
    rw [characters, signs_nil]
    rfl
  rw [hnothing, List.append_nil, List.append_nil] at hall
  rw [unpaint, hall, String.ofList_toList]

end Text

/-! ### Styles -/

/-- The sequence that resets the style. -/
def Sign.reset : Sign := .sequence ['0']

/-- The characters that signs show, each with the style that it is shown in.  A sequence sets the
style of what is behind it to its parameters, and a reset to none. -/
def Sign.styled : Option (List Char) → List Sign → List (Char × Option (List Char))
  | _, [] => []
  | style, shown c :: signs => (c, style) :: styled style signs
  | _, sequence parameters :: signs =>
    styled (if sequence parameters = reset then none else some parameters) signs

/-- Characters do not change the style. -/
theorem Sign.styled_shown (style : Option (List Char)) (text : List Char) (signs : List Sign) :
    styled style (text.map shown ++ signs) = text.map (·, style) ++ styled style signs := by
  induction text with
  | nil => rfl
  | cons c text ih => exact congrArg ((c, style) :: ·) ih

/-! ### Painted texts -/

/-- The parameters of the sequence that switches on the colour of a role. -/
def Role.parameters (role : Role) : List Char :=
  ['3', '8', ';', '5', ';'] ++ Nat.toDigits 10 role.colour

theorem Role.toList_switchOn (role : Role) :
    role.switchOn.toList = '\x1b' :: '[' :: (role.parameters ++ ['m']) := by
  cases role <;> decide

theorem Role.m_notMem_parameters (role : Role) : 'm' ∉ role.parameters := by
  cases role <;> decide

theorem toList_resetColour : resetColour.toList = '\x1b' :: '[' :: (['0'] ++ ['m']) := by decide

theorem toList_paint (role : Role) (text : String) (rest : List Char) :
    (paint true role text).toList ++ rest = '\x1b' :: '[' :: (role.parameters ++ 'm' ::
      (text.toList ++ '\x1b' :: '[' :: (['0'] ++ 'm' :: rest))) := by
  simp [paint, Role.toList_switchOn, toList_resetColour]

/-- A painted text is opened by the colour of its role and closed by a reset. -/
theorem signs_paint {text : String} (h : Text.Lacks text '\x1b') (role : Role) (rest : List Char) :
    Text.signs ((paint true role text).toList ++ rest) = .sequence role.parameters ::
      (text.toList.map .shown ++ .reset :: Text.signs rest) := by
  rw [toList_paint, Text.signs_sequence role.m_notMem_parameters, Text.signs_append h,
    Text.signs_sequence (by decide)]
  rfl

/-- Without its sequences, a painted text is the text. -/
theorem unpaints_paint {text : String} (h : Text.Lacks text '\x1b') (role : Role) :
    Text.Unpaints (paint true role text) (paint false role text) := by
  intro rest
  rw [Text.characters, signs_paint h, List.filterMap_cons_none rfl, Sign.filterMap_shown,
    List.filterMap_cons_none rfl]
  rfl

/-! ### Blocks -/

namespace Block

/-- What a block in colour should be taken for: one sequence that switches on the colour of its
role, its text, one reset, and a line feed. -/
def signs (b : Block) : List Sign :=
  .sequence b.role.parameters :: (b.text.toList.map .shown ++ [.reset, .shown '\n'])

/-- How a block in colour should be shown: its text in the colour of its role, and the line feed
behind it in none. -/
def styled (b : Block) : List (Char × Option (List Char)) :=
  b.text.toList.map (·, some b.role.parameters) ++ [('\n', none)]

theorem signs_write {b : Block} (h : Text.Lacks b.text '\x1b') (rest : List Char) :
    Text.signs ((b.write true).toList ++ rest) = b.signs ++ Text.signs rest := by
  rw [write, String.toList_append, List.append_assoc, signs_paint h]
  have hfeed : Text.signs ("\n".toList ++ rest) = .shown '\n' :: Text.signs rest :=
    Text.signs_cons (by decide) rest
  rw [hfeed, signs, List.cons_append, List.append_assoc]
  rfl

/-- Blocks one after the other are taken for what each of them is. -/
theorem signs_join {blocks : List Block} (h : ∀ b ∈ blocks, Text.Lacks b.text '\x1b') :
    Text.signs (String.join (blocks.map (write true))).toList = blocks.flatMap signs := by
  induction blocks with
  | nil => exact Text.signs_nil
  | cons b blocks ih =>
    obtain ⟨hb, hblocks⟩ := List.forall_mem_cons.1 h
    rw [List.map_cons, String.join_cons, String.toList_append, signs_write hb, ih hblocks,
      List.flatMap_cons]

/-- A block is shown in its colour and leaves none behind, whatever style it finds. -/
theorem styled_signs (b : Block) (style : Option (List Char)) (signs : List Sign) :
    Sign.styled style (b.signs ++ signs) = b.styled ++ Sign.styled none signs := by
  have hcolour : Sign.sequence b.role.parameters ≠ .reset := by cases b.role <;> decide
  rw [Block.signs, List.cons_append, Sign.styled, if_neg hcolour, List.append_assoc,
    Sign.styled_shown, styled, List.append_assoc]
  rfl

theorem styled_flatMap_signs (blocks : List Block) :
    Sign.styled none (blocks.flatMap signs) = blocks.flatMap styled := by
  induction blocks with
  | nil => rfl
  | cons b blocks ih => rw [List.flatMap_cons, styled_signs, ih, List.flatMap_cons]

theorem unpaints_write {b : Block} (h : Text.Lacks b.text '\x1b') :
    Text.Unpaints (b.write true) (b.write false) :=
  (unpaints_paint h b.role).append (Text.unpaints_of_lacks (by decide))

end Block

end Reckoner
