import Reckoner.Proofs.Rounding

/-!
# What a double tells of its float

A double is read off the bits of a float, and tells them: its sign, its exponent and its significand
are those of one pattern of bits only.  There are many patterns that are no number, but a float that
is no number always has the same one; so even then the double tells the float.

## Main definitions

* `Decimal.Binary64.Held x` — the double `x` has a significand and an exponent that bits can stand
  for.

## Main results

* `Decimal.Binary64.held_ofFloat` — what a float holds can be held.
* `Decimal.Binary64.ofFloat_injective` — the double tells the float.
-/

namespace Reckoner.Decimal.Binary64

open Float.Model Float.Model.UnpackedFloat

/-- The double has a significand and an exponent that bits can stand for. -/
def Held : Binary64 → Prop
  | .nan | .infinite _ => True
  | .finite _ m q => Fits m q

variable {negative negative' : Bool} {biased biased' fraction fraction' : Nat}

theorem held_ofFields (hfraction : fraction < minNormal) :
    (ofFields negative biased fraction).Held := by
  unfold ofFields
  split
  · split <;> trivial
  split
  · exact ⟨le_refl _, by omega, fun h => absurd h (lt_irrefl _)⟩
  · exact ⟨by omega, by omega, fun _ => Nat.le_add_right _ _⟩

/-- The fields are read back from the double, unless it is no number. -/
theorem ofFields_inj (hfraction : fraction < minNormal) (hfraction' : fraction' < minNormal)
    (h : ofFields negative biased fraction = ofFields negative' biased' fraction') :
    (negative = negative' ∧ biased = biased' ∧ fraction = fraction') ∨
      ((biased = 2047 ∧ fraction ≠ 0) ∧ biased' = 2047 ∧ fraction' ≠ 0) := by
  -- doubles from different branches differ: in kind, or else one of them has full precision
  unfold ofFields at h
  split_ifs at h <;> grind

/-! ### The bits of a float -/

/-- Bits that have the same three fields are the same. -/
theorem bits_ext {a b : UInt64} (hsign : a.toNat.testBit 63 = b.toNat.testBit 63)
    (hbiased : a.toNat / minNormal % 2048 = b.toNat / minNormal % 2048)
    (hfraction : a.toNat % minNormal = b.toNat % minNormal) : a = b := by
  have ha := a.toNat_lt
  have hb := b.toNat_lt
  have hminNormal : minNormal = 2 ^ 52 := rfl
  rw [Nat.testBit_eq_decide_div_mod_eq, Nat.testBit_eq_decide_div_mod_eq, decide_eq_decide] at hsign
  rw [hminNormal] at hbiased hfraction
  exact UInt64.toNat_inj.1 (by omega)

/-- The bits of a float tell the float. -/
theorem toBits_injective : Function.Injective Float.toBits := by
  intro x y h
  obtain ⟨⟨a, ha⟩⟩ := x
  obtain ⟨⟨b, hb⟩⟩ := y
  cases h
  rfl

/-- A float that is no number has one pattern of bits only. -/
theorem toBits_of_nan {x : Float} (hbiased : x.toBits.toNat / minNormal % 2048 = 2047)
    (hfraction : x.toBits.toNat % minNormal ≠ 0) :
    x.toBits.toBitVec = packedNaN Format.binary64 := by
  have hexponent : (@unpackExponent Format.binary64 x.toBits.toBitVec).toNat = 2047 := by
    rw [← hbiased, unpackExponent, BitVec.toNat_cast, BitVec.extractLsb_toNat,
      Nat.shiftRight_eq_div_pow]
    rfl
  have hmantissa : (@unpackMantissa Format.binary64 x.toBits.toBitVec).toNat =
      x.toBits.toNat % minNormal := by
    rw [unpackMantissa, BitVec.toNat_cast, BitVec.extractLsb_toNat]
    rfl
  refine x.toModel.valid.eq_packedNaN (BitVec.eq_of_toNat_eq hexponent) fun hzero => ?_
  exact hfraction (hmantissa.symm.trans (congrArg BitVec.toNat hzero))

/-! ### Floats -/

/-- What a float holds can be held. -/
theorem held_ofFloat (x : Float) : (ofFloat x).Held := held_ofFields (Nat.mod_lt _ (by decide))

/-- The double tells the float. -/
theorem ofFloat_injective : Function.Injective ofFloat := by
  intro x y h
  refine toBits_injective ?_
  rcases ofFields_inj (Nat.mod_lt _ (by decide)) (Nat.mod_lt _ (by decide)) h with
    ⟨hsign, hbiased, hfraction⟩ | ⟨hx, hy⟩
  · exact bits_ext hsign hbiased hfraction
  · have hsame := (toBits_of_nan hx.1 hx.2).trans (toBits_of_nan hy.1 hy.2).symm
    exact UInt64.toBitVec_inj.1 hsame

end Reckoner.Decimal.Binary64
