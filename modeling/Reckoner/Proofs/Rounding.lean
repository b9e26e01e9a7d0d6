import Mathlib.Algebra.Order.Field.Power
import Mathlib.Data.Rat.Cast.Order
import Mathlib.Tactic.Linarith
import Mathlib.Tactic.Positivity
import Mathlib.Tactic.Ring
import Reckoner.Decimal.Shortest

/-!
# Which double a decimal rounds to

The rational numbers that round to a double make up an interval around it.  The intervals of two
doubles have at most an end in common, and then it belongs to one of them only: of neighbouring
doubles one has an odd significand, and its interval is open.  So a decimal that rounds to a double
rounds to no other one, and the decimal that is shown for a double tells the double.

## Main definitions

* `Decimal.value d` — the rational number that a decimal is.
* `Decimal.Interval.Contains i x` — the rational number `x` is in the interval.
* `Decimal.Fits m q` — the double `m * 2 ^ q` is held with as many digits as possible.

## Main results

* `Decimal.Interval.contains_of_holds` — weighing by naturals decides what is in the interval.
* `Decimal.contains_shortest` — the decimal that is shown for a double is in its interval.
* `Decimal.not_contains_both` — no number is in the intervals of two doubles.
* `Decimal.shortest_value_inj` — the decimal that is shown for a double tells the double.
-/

namespace Reckoner.Decimal

/-- The rational number that a decimal is. -/
def value (d : Decimal) : ℚ := d.coefficient * 10 ^ d.scale

/-- A power with a natural exponent and one with an integer exponent differ by a power that does not
depend on the sign. -/
theorem pow_toNat {b : ℚ} (hb : 0 < b) (n : Int) : b ^ n.toNat = b ^ n * b ^ (-n).toNat := by
  have htoNat : (n.toNat : Int) = n + (-n).toNat := by omega
  rw [← zpow_natCast, htoNat, zpow_add₀ hb.ne', zpow_natCast]

namespace Interval

/-- The number is in the interval, whose ends belong to it if it is closed. -/
structure Contains (i : Interval) (x : ℚ) : Prop where
  low_le : i.low * 2 ^ i.unit ≤ x
  le_high : x ≤ i.high * 2 ^ i.unit
  inside : i.closed = false → i.low * 2 ^ i.unit < x ∧ x < i.high * 2 ^ i.unit

/-- What a unit and a step are multiplied by to make them naturals. -/
def weight (i : Interval) (place : Int) : ℚ := 2 ^ (-i.unit).toNat * 10 ^ (-place).toNat

theorem weight_pos (i : Interval) (place : Int) : 0 < i.weight place := by
  unfold weight
  positivity

theorem cast_unitWeight (i : Interval) (place : Int) :
    (i.unitWeight place : ℚ) = 2 ^ i.unit * i.weight place := by
  have hunit := pow_toNat (b := 2) (by norm_num) i.unit
  rw [unitWeight, weight, Nat.pow_eq, Nat.pow_eq]
  push_cast
  rw [hunit]
  ring

theorem cast_stepWeight (i : Interval) (place : Int) :
    (i.stepWeight place : ℚ) = 10 ^ place * i.weight place := by
  have hplace := pow_toNat (b := 10) (by norm_num) place
  rw [stepWeight, weight, Nat.pow_eq, Nat.pow_eq]
  push_cast
  rw [hplace]
  ring

/-- Weighing by naturals decides what is in the interval. -/
theorem contains_of_holds {i : Interval} {place : Int} {d : Nat} (h : i.holds place d = true) :
    i.Contains (value ⟨d, place⟩) := by
  have hpos := i.weight_pos place
  have hunit : ∀ a : Nat, ((a * i.unitWeight place : Nat) : ℚ) = a * 2 ^ i.unit * i.weight place := by
    intro a
    rw [Nat.cast_mul, cast_unitWeight, mul_assoc]
  have hstep : ((d * i.stepWeight place : Nat) : ℚ) = value ⟨d, place⟩ * i.weight place := by
    rw [Nat.cast_mul, cast_stepWeight, value, mul_assoc]
  have hle : ∀ {x y : ℚ} {a b : Nat}, (a : ℚ) = x * i.weight place → (b : ℚ) = y * i.weight place →
      (a ≤ b ↔ x ≤ y) ∧ (a < b ↔ x < y) := by
    intro x y a b ha hb
    rw [← @Nat.cast_le ℚ, ← @Nat.cast_lt ℚ, ha, hb]
    exact ⟨mul_le_mul_iff_left₀ hpos, mul_lt_mul_iff_left₀ hpos⟩
  unfold holds at h
  cases hclosed : i.closed with
  | true =>
    simp only [hclosed, if_true, decide_eq_true_eq] at h
    exact ⟨(hle (hunit _) hstep).1.1 h.1, (hle hstep (hunit _)).1.1 h.2, by simp [hclosed]⟩
  | false =>
    simp only [hclosed, Bool.false_eq_true, if_false, decide_eq_true_eq] at h
    have hlow := (hle (hunit _) hstep).2.1 h.1
    have hhigh := (hle hstep (hunit _)).2.1 h.2
    exact ⟨hlow.le, hhigh.le, fun _ => ⟨hlow, hhigh⟩⟩

/-- Strictly between its ends, the interval contains everything. -/
theorem contains_of_lt {i : Interval} {x : ℚ} (hlow : i.low * 2 ^ i.unit < x)
    (hhigh : x < i.high * 2 ^ i.unit) : i.Contains x :=
  ⟨hlow.le, hhigh.le, fun _ => ⟨hlow, hhigh⟩⟩

/-- Where one interval is below another, a number in both is an end of both, and both are closed.
The upper one is counted in units that are `p` times as large. -/
theorem Contains.touch {i i' : Interval} {x : ℚ} (hx : i.Contains x) (hx' : i'.Contains x) {p : Nat}
    (hunit : (2 : ℚ) ^ i'.unit = p * 2 ^ i.unit) (h : i.high ≤ i'.low * p) :
    i.high = i'.low * p ∧ i.closed = true ∧ i'.closed = true := by
  have hpos : (0 : ℚ) < 2 ^ i.unit := by positivity
  have hlow : (i'.low : ℚ) * 2 ^ i'.unit = (i'.low * p : Nat) * 2 ^ i.unit := by
    rw [hunit, Nat.cast_mul, mul_assoc]
  have hends : (i.high : ℚ) * 2 ^ i.unit ≤ i'.low * 2 ^ i'.unit := by
    rw [hlow, mul_le_mul_iff_left₀ hpos, Nat.cast_le]
    exact h
  refine ⟨?_, ?_, ?_⟩
  · have hsame := hends.antisymm (hx'.low_le.trans hx.le_high)
    rw [hlow] at hsame
    exact Nat.cast_injective (mul_right_cancel₀ hpos.ne' hsame)
  · by_contra hopen
    have hinside := hx.inside (Bool.not_eq_true _ ▸ hopen)
    exact lt_irrefl x (hinside.2.trans_le (hends.trans hx'.low_le))
  · by_contra hopen
    have hinside := hx'.inside (Bool.not_eq_true _ ▸ hopen)
    exact lt_irrefl _ (hinside.1.trans_le (hx.le_high.trans hends))

end Interval

/-! ### The shortest decimal -/

/-- The number with every digit it has is the double itself. -/
theorem value_exact (m : Nat) (q : Int) : (exact m q).value = m * 2 ^ q := by
  unfold exact
  split
  · next hq =>
    rw [value, zpow_zero, mul_one, Nat.pow_eq, Nat.cast_mul, Nat.cast_pow, ← zpow_natCast,
      Int.toNat_of_nonneg hq]
    rfl
  · next hq =>
    have hten : (10 : ℚ) ^ q = 5 ^ q * 2 ^ q := by rw [← mul_zpow]; norm_num
    have hfive : ((5 : ℚ) ^ (-q).toNat) * 5 ^ q = 1 := by
      rw [← zpow_natCast, Int.toNat_of_nonneg (by omega), ← zpow_add₀ (by norm_num), neg_add_cancel,
        zpow_zero]
    rw [value, Nat.pow_eq, Nat.cast_mul, Nat.cast_pow, hten]
    calc (m : ℚ) * (5 : Nat) ^ (-q).toNat * (5 ^ q * 2 ^ q)
        = m * (5 ^ (-q).toNat * 5 ^ q) * 2 ^ q := by push_cast; ring
      _ = m * 2 ^ q := by rw [hfive, mul_one]

/-- The double itself is strictly between the ends of its interval. -/
theorem contains_exact {m : Nat} (hm : 0 < m) (q : Int) :
    (Interval.around m q).Contains (exact m q).value := by
  have hunit : (0 : ℚ) < 2 ^ (Interval.around m q).unit := by positivity
  have hmiddle : (exact m q).value =
      (Interval.around m q).middle * 2 ^ (Interval.around m q).unit := by
    have hfour : (2 : ℚ) ^ q = 4 * 2 ^ (q - 2) := by
      rw [zpow_sub₀ (by norm_num)]
      norm_num
      ring
    rw [value_exact, hfour]
    show (m : ℚ) * (4 * 2 ^ (q - 2)) = ((4 * m : Nat) : ℚ) * 2 ^ (q - 2)
    push_cast
    ring
  rw [hmiddle]
  refine Interval.contains_of_lt ?_ ?_
  · exact mul_lt_mul_of_pos_right (Nat.cast_lt.2 (Interval.around_low_lt hm q)) hunit
  · exact mul_lt_mul_of_pos_right (Nat.cast_lt.2 (Interval.around_lt_high m q)) hunit

/-- The decimal that is shown for a double is in its interval. -/
theorem contains_shortest {m : Nat} (hm : 0 < m) (q : Int) :
    (Interval.around m q).Contains (shortest m q).value := by
  rcases shortest_coarsest hm q with ⟨n, -, -, hholds, -⟩ | ⟨hexact, -⟩
  · exact Interval.contains_of_holds hholds
  · rw [hexact]
    exact contains_exact hm q

/-- The double `m * 2 ^ q` is held with as many digits as possible: it has full precision unless
there is no smaller exponent. -/
structure Fits (m : Nat) (q : Int) : Prop where
  minExponent_le : Binary64.minExponent ≤ q
  lt : m < 2 * Binary64.minNormal
  minNormal_le : Binary64.minExponent < q → Binary64.minNormal ≤ m

/-- Nothing is lost of zero with the least exponent. -/
theorem Fits.eq_minExponent {m : Nat} {q : Int} (h : Fits m q) (hm : m = 0) :
    q = Binary64.minExponent := by
  by_contra hne
  have hfull := h.minNormal_le (lt_of_le_of_ne h.minExponent_le (Ne.symm hne))
  rw [hm] at hfull
  exact absurd hfull (by decide)

theorem closed_around {m : Nat} {q : Int} (h : (Interval.around m q).closed = true) : m % 2 = 0 :=
  of_decide_eq_true h

/-- No number is in the intervals of two doubles. -/
theorem not_contains_both {m m' : Nat} {q q' : Int} (h : Fits m q) (h' : Fits m' q')
    (hlt : q < q' ∨ q = q' ∧ m < m') {x : ℚ} (hx : (Interval.around m q).Contains x) :
    ¬ (Interval.around m' q').Contains x := by
  intro hx'
  obtain ⟨hq, hm, hnormal⟩ := h
  obtain ⟨-, -, hnormal'⟩ := h'
  have hpositive : 0 < Binary64.minNormal := by decide
  have hhigh : (Interval.around m q).high = 4 * m + 2 := rfl
  rcases hlt with hlt | ⟨rfl, hlt⟩
  · -- the units of the upper interval are at least twice as large
    obtain ⟨k, hk⟩ := Int.eq_ofNat_of_zero_le (Int.sub_nonneg_of_le (Int.add_one_le_of_lt hlt))
    have hunit : (2 : ℚ) ^ (q' - 2) = (2 * 2 ^ k : Nat) * 2 ^ (q - 2) := by
      have hexponent : q' - 2 = (q - 2) + 1 + k := by omega
      rw [hexponent, zpow_add₀ (by norm_num), zpow_add₀ (by norm_num), zpow_natCast]
      push_cast
      ring
    have hlow : 4 * Binary64.minNormal - 1 ≤ (Interval.around m' q').low := by
      have hfull := hnormal' (lt_of_le_of_lt hq hlt)
      unfold Interval.around
      dsimp only
      split <;> omega
    have hk := Nat.one_le_two_pow (n := k)
    have htwice : (Interval.around m' q').low * 2 ≤ (Interval.around m' q').low * (2 * 2 ^ k) :=
      Nat.mul_le_mul_left _ (by omega)
    obtain ⟨hsame, hclosed, -⟩ := hx.touch hx' hunit (by omega)
    have := closed_around hclosed
    omega
  · have hlow : (Interval.around m' q).low = 4 * m' - 2 := by
      refine if_neg ?_
      rintro ⟨rfl, hmore⟩
      exact absurd (hnormal hmore) (by omega)
    obtain ⟨hsame, hclosed, hclosed'⟩ := hx.touch hx' (p := 1) (by simp [Interval.around]) (by omega)
    have := closed_around hclosed
    have := closed_around hclosed'
    omega

/-- The decimal that is shown for a double tells the double. -/
theorem shortest_value_inj {m m' : Nat} {q q' : Int} (hm : 0 < m) (hm' : 0 < m') (h : Fits m q)
    (h' : Fits m' q') (hvalue : (shortest m q).value = (shortest m' q').value) : m = m' ∧ q = q' := by
  have hx := contains_shortest hm q
  have hx' := contains_shortest hm' q'
  rw [← hvalue] at hx'
  rcases lt_trichotomy q q' with hlt | rfl | hgt
  · exact absurd hx' (not_contains_both h h' (.inl hlt) hx)
  · rcases lt_trichotomy m m' with hlt | rfl | hgt
    · exact absurd hx' (not_contains_both h h' (.inr ⟨rfl, hlt⟩) hx)
    · exact ⟨rfl, rfl⟩
    · exact absurd hx (not_contains_both h' h (.inr ⟨rfl, hgt⟩) hx')
  · exact absurd hx (not_contains_both h' h (.inl hgt) hx')

/-- The decimal that is shown for a positive double is positive. -/
theorem shortest_value_pos {m : Nat} (hm : 0 < m) (q : Int) : 0 < (shortest m q).value := by
  have hlow : 0 < (Interval.around m q).low := by
    unfold Interval.around
    dsimp only
    split <;> omega
  refine lt_of_lt_of_le ?_ (contains_shortest hm q).low_le
  have := Nat.cast_pos (α := ℚ).2 hlow
  positivity

end Reckoner.Decimal
