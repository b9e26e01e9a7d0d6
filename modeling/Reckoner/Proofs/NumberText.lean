import Reckoner.Decimal.Layout

/-!
# What the text of a number is made of

Whatever layout a number is written in, its text has digits in it, a sign, a point and an exponent,
or else the letters of what is no number at all.  So it ends in front of any blank, comma or
bracket, and stays on its line.

## Main definitions

* `Decimal.isNumberChar c` — the character `c` may stand in the text of a number.

## Main results

* `Decimal.Layout.allNumberChars_write` — no other character stands in the text of a number.
-/

namespace Reckoner.Decimal

/-- A natural number is read back from its digits. -/
theorem toDigits_injective : Function.Injective (Nat.toDigits 10) := by
  intro m n h
  have hread := congrArg (fun digits => Nat.ofDigitChars 10 digits 0) h
  simpa only [Nat.ofDigitChars_toDigits (by decide : 1 < 10) (by decide : 10 ≤ 10)] using hread

/-- Whether a character may stand in the text of a number. -/
def isNumberChar (c : Char) : Bool := c.isDigit || ['-', '.', 'e', 'i', 'n', 'f', 'N', 'a'].contains c

/-- The characters are all characters of numbers. -/
def AllNumberChars (cs : List Char) : Prop := ∀ c ∈ cs, isNumberChar c = true

theorem allNumberChars_append {cs ds : List Char} :
    AllNumberChars (cs ++ ds) ↔ AllNumberChars cs ∧ AllNumberChars ds := List.forall_mem_append

theorem allNumberChars_cons {c : Char} {cs : List Char} :
    AllNumberChars (c :: cs) ↔ isNumberChar c = true ∧ AllNumberChars cs := List.forall_mem_cons

theorem allNumberChars_nil : AllNumberChars [] := List.forall_mem_nil _

theorem allNumberChars_zeros (n : Nat) : AllNumberChars (List.replicate n '0') := by
  intro c hc
  rw [List.eq_of_mem_replicate hc]
  rfl

theorem allNumberChars_toDigits (n : Nat) : AllNumberChars (Nat.toDigits 10 n) := by
  intro c hc
  rw [isNumberChar, Nat.isDigit_of_mem_toDigits (by decide) (by decide) hc, Bool.true_or]

namespace Layout

variable {digits : List Char}

theorem allNumberChars_writePositional {l : Layout} (hwhole : AllNumberChars l.wholeTail)
    (hdigits : AllNumberChars digits) (scale : Int) :
    AllNumberChars (l.writePositional digits scale) := by
  unfold writePositional
  dsimp only
  split
  · exact allNumberChars_append.2
      ⟨allNumberChars_append.2 ⟨hdigits, allNumberChars_zeros _⟩, hwhole⟩
  split
  · refine allNumberChars_append.2
      ⟨fun c hc => hdigits c (List.mem_of_mem_take hc), allNumberChars_cons.2 ⟨rfl, ?_⟩⟩
    exact fun c hc => hdigits c (List.mem_of_mem_drop hc)
  · exact allNumberChars_cons.2 ⟨rfl, allNumberChars_cons.2 ⟨rfl,
      allNumberChars_append.2 ⟨allNumberChars_zeros _, hdigits⟩⟩⟩

theorem allNumberChars_writeMantissa (hdigits : AllNumberChars digits) :
    AllNumberChars (writeMantissa digits) := by
  fun_cases writeMantissa digits with
  | case1 | case2 => exact hdigits
  | case3 d e ds =>
    obtain ⟨hd, hrest⟩ := allNumberChars_cons.1 hdigits
    exact allNumberChars_cons.2 ⟨hd, allNumberChars_cons.2 ⟨rfl, hrest⟩⟩

theorem allNumberChars_writeInt (n : Int) : AllNumberChars (writeInt n) := by
  unfold writeInt
  split
  · exact allNumberChars_cons.2 ⟨rfl, allNumberChars_toDigits _⟩
  · exact allNumberChars_toDigits _

theorem allNumberChars_signed {negative : Bool} {text : List Char} (h : AllNumberChars text) :
    AllNumberChars (signed negative text) := by
  cases negative with
  | false => exact h
  | true => exact allNumberChars_cons.2 ⟨rfl, h⟩

theorem allNumberChars_writeDecimal {l : Layout} (hwhole : AllNumberChars l.wholeTail)
    (d : Decimal) : AllNumberChars (l.writeDecimal d) := by
  unfold writeDecimal
  dsimp only
  split
  · exact allNumberChars_writePositional hwhole (allNumberChars_toDigits _) _
  · exact allNumberChars_append.2 ⟨allNumberChars_writeMantissa (allNumberChars_toDigits _),
      allNumberChars_cons.2 ⟨rfl, allNumberChars_writeInt _⟩⟩

/-- Nothing but the characters of numbers stands in the text of a number. -/
theorem allNumberChars_write {l : Layout} (hwhole : AllNumberChars l.wholeTail) (x : Float) :
    AllNumberChars (l.write x).toList := by
  rw [write, String.toList_ofList]
  fun_cases writeBinary l (.ofFloat x) with
  | case1 => exact List.all_eq_true.1 rfl
  | case2 negative => exact allNumberChars_signed (List.all_eq_true.1 rfl)
  | case3 negative => exact allNumberChars_signed (allNumberChars_cons.2 ⟨rfl, hwhole⟩)
  | case4 negative m q => exact allNumberChars_signed (allNumberChars_writeDecimal hwhole _)

theorem allNumberChars_wholeTail_plain : AllNumberChars plain.wholeTail := allNumberChars_nil

theorem allNumberChars_wholeTail_literal : AllNumberChars literal.wholeTail :=
  List.all_eq_true.1 rfl

end Layout

end Reckoner.Decimal
