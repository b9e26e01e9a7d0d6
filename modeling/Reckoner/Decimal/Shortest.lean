import Reckoner.Decimal.Binary64

/-!
# The shortest decimal that reads back

Among the decimals that round to a given double the text of the double shows the one with the
fewest digits, of those the nearest, and of two equally near the larger.

The reals that round to `m * 2 ^ q` form an interval around it: half a step up, half a step
down, where below a power of two the steps are half as long.  Its ends belong to it exactly if
`m` is even, because a tie goes to the even significand.  Counted in quarters of `2 ^ q` the
number and both ends are naturals, so whether a decimal lies in the interval is one comparison
of naturals.

The decimals with a given last place form a grid.  If a grid has a point in the interval, then
one of the two points next to the number lies in it; so the search goes from coarse grids to
fine ones and looks at two points of each.  The first grid that answers gives the fewest digits,
and no trailing zero, for a point that ends in zero lies on the grid before.

## Main definitions

* `Decimal` — a natural number times a power of ten.
* `Interval` — the reals that round to a positive double, in quarters of its last place.
* `Interval.onGrid` — the decimal that a grid offers, if any.
* `shortest m q` — the shortest decimal that rounds to `m * 2 ^ q`.

## Main results

* `Interval.holds_of_onGrid` — what a grid offers rounds to the double.
* `Interval.onGrid_isSome` — a grid offers something if any of its points rounds to the double.
* `shortest_coarsest` — no coarser grid that is tried has a decimal that rounds to the double.
-/

namespace Reckoner

/-- The number `coefficient * 10 ^ scale`. -/
structure Decimal where
  /-- The digits, as one number. -/
  coefficient : Nat
  /-- The power of ten that the last digit counts. -/
  scale : Int
  deriving DecidableEq, Repr

namespace Decimal

/-- The reals that round to a positive double: from `low` to `high` around `middle`, all three
counted in units of `2 ^ unit`. -/
structure Interval where
  /-- The lower end. -/
  low : Nat
  /-- The double itself. -/
  middle : Nat
  /-- The upper end. -/
  high : Nat
  /-- The power of two that is counted. -/
  unit : Int
  /-- Whether the ends round to the double too. -/
  closed : Bool
  deriving DecidableEq, Repr

namespace Interval

/-- The interval of `m * 2 ^ q`.  The step below the least significand of full precision is
half as long as the others, unless there is no smaller exponent. -/
def around (m : Nat) (q : Int) : Interval where
  low := if m = Binary64.minNormal ∧ Binary64.minExponent < q then 4 * m - 1 else 4 * m - 2
  middle := 4 * m
  high := 4 * m + 2
  unit := q - 2
  closed := m % 2 = 0

/-- How much a unit of the interval weighs against a step of the grid `10 ^ place`: the ratio
of the two is the ratio of the naturals `unitWeight` and `stepWeight`. -/
def unitWeight (i : Interval) (place : Int) : Nat :=
  Nat.pow 2 i.unit.toNat * Nat.pow 10 (-place).toNat

/-- How much a step of the grid `10 ^ place` weighs against a unit of the interval. -/
def stepWeight (i : Interval) (place : Int) : Nat :=
  Nat.pow 10 place.toNat * Nat.pow 2 (-i.unit).toNat

/-- Whether the decimal `d * 10 ^ place` rounds to the double. -/
def holds (i : Interval) (place : Int) (d : Nat) : Bool :=
  let point := d * i.stepWeight place
  let low := i.low * i.unitWeight place
  let high := i.high * i.unitWeight place
  if i.closed then low ≤ point ∧ point ≤ high else low < point ∧ point < high

/-- The decimal that the grid `10 ^ place` offers: of the two points next to the double the one
in the interval; if both are, the nearer; if they are equally near, the upper. -/
def onGrid (i : Interval) (place : Int) : Option Decimal :=
  let step := i.stepWeight place
  let value := i.middle * i.unitWeight place
  let below := value / step
  let upperIsNearer : Bool := step ≤ 2 * (value % step)
  match i.holds place below, i.holds place (below + 1) with
  | false, false => none
  | true, false => some ⟨below, place⟩
  | false, true => some ⟨below + 1, place⟩
  | true, true => some ⟨if upperIsNearer then below + 1 else below, place⟩

/-! ### What a grid offers -/

/-- What a grid offers is a point of the grid that rounds to the double. -/
theorem holds_of_onGrid {i : Interval} {place : Int} {d : Decimal}
    (h : i.onGrid place = some d) : i.holds place d.coefficient = true ∧ d.scale = place := by
  unfold onGrid at h
  dsimp only at h
  split at h
  · cases h
  · cases h
    exact ⟨by assumption, rfl⟩
  · cases h
    exact ⟨by assumption, rfl⟩
  · cases h
    refine ⟨?_, rfl⟩
    dsimp only
    split <;> assumption

theorem unitWeight_pos (i : Interval) (place : Int) : 0 < i.unitWeight place :=
  Nat.mul_pos (Nat.pow_pos (by decide)) (Nat.pow_pos (by decide))

theorem stepWeight_pos (i : Interval) (place : Int) : 0 < i.stepWeight place :=
  Nat.mul_pos (Nat.pow_pos (by decide)) (Nat.pow_pos (by decide))

/-- A point between the double and a point below it that rounds to the double does so too. -/
theorem holds_of_le_middle {i : Interval} {place : Int} {x y : Nat} (hhigh : i.middle < i.high)
    (hx : i.holds place x = true) (hxy : x ≤ y)
    (hy : y * i.stepWeight place ≤ i.middle * i.unitWeight place) :
    i.holds place y = true := by
  have hstep := Nat.mul_le_mul_right (i.stepWeight place) hxy
  have hunit := Nat.mul_lt_mul_of_pos_right hhigh (i.unitWeight_pos place)
  unfold holds at hx ⊢
  cases hclosed : i.closed <;> simp only [hclosed, Bool.false_eq_true, ↓reduceIte,
    Bool.decide_and, Bool.and_eq_true, decide_eq_true_eq] at hx ⊢ <;> omega

/-- A point between the double and a point above it that rounds to the double does so too. -/
theorem holds_of_middle_le {i : Interval} {place : Int} {x y : Nat} (hlow : i.low < i.middle)
    (hx : i.holds place x = true) (hyx : y ≤ x)
    (hy : i.middle * i.unitWeight place ≤ y * i.stepWeight place) :
    i.holds place y = true := by
  have hstep := Nat.mul_le_mul_right (i.stepWeight place) hyx
  have hunit := Nat.mul_lt_mul_of_pos_right hlow (i.unitWeight_pos place)
  unfold holds at hx ⊢
  cases hclosed : i.closed <;> simp only [hclosed, Bool.false_eq_true, ↓reduceIte,
    Bool.decide_and, Bool.and_eq_true, decide_eq_true_eq] at hx ⊢ <;> omega

/-- A grid offers something if one of its points rounds to the double: it is enough to look at
the two points next to the double. -/
theorem onGrid_isSome {i : Interval} {place : Int} {x : Nat} (hlow : i.low < i.middle)
    (hhigh : i.middle < i.high) (hx : i.holds place x = true) :
    (i.onGrid place).isSome = true := by
  have hbelow := Nat.div_mul_le_self (i.middle * i.unitWeight place) (i.stepWeight place)
  have habove := Nat.lt_mul_of_div_lt (Nat.lt_succ_self
    (i.middle * i.unitWeight place / i.stepWeight place)) (i.stepWeight_pos place)
  -- a point on either side of the double is no nearer to it than the neighbour on that side
  have hnext : i.holds place (i.middle * i.unitWeight place / i.stepWeight place) = true ∨
      i.holds place (i.middle * i.unitWeight place / i.stepWeight place + 1) = true := by
    rcases Nat.lt_or_ge (i.middle * i.unitWeight place / i.stepWeight place) x with hlt | hge
    · refine .inr (holds_of_middle_le hlow hx hlt (Nat.le_of_lt habove))
    · exact .inl (holds_of_le_middle hhigh hx hge hbelow)
  unfold onGrid
  dsimp only
  split <;> simp_all

/-- Around a positive double the interval has room on both sides. -/
theorem around_low_lt {m : Nat} (hm : 0 < m) (q : Int) :
    (around m q).low < (around m q).middle := by
  unfold around
  dsimp only
  split <;> omega

theorem around_lt_high (m : Nat) (q : Int) : (around m q).middle < (around m q).high := by
  unfold around
  dsimp only
  omega

end Interval

/-- A power of ten above `m * 2 ^ q`, at most four places too high.  The logarithm of two lies
just below 0.30103, and the two places added make up for the rounding. -/
def ceilingPlace (m : Nat) (q : Int) : Int :=
  (m.log2 + q + 1) * 30103 / 100000 + 2

/-- The number of grids to try.  Seventeen digits always suffice to tell a double from its
neighbours, and the first few grids lie above the number. -/
def gridCount : Nat := 20

/-- The number `m * 2 ^ q` with every digit it has. -/
def exact (m : Nat) (q : Int) : Decimal :=
  if 0 ≤ q then ⟨m * Nat.pow 2 q.toNat, 0⟩ else ⟨m * Nat.pow 5 (-q).toNat, q⟩

/-- The shortest decimal that rounds to the positive double `m * 2 ^ q`. -/
def shortest (m : Nat) (q : Int) : Decimal :=
  let top := ceilingPlace m q
  let grids := (List.range gridCount).map fun (n : Nat) => top - n
  (grids.findSome? (Interval.around m q).onGrid).getD (exact m q)

/-- A grid that offers nothing has no point that rounds to the double. -/
theorem Interval.holds_eq_false_of_onGrid {m : Nat} (hm : 0 < m) {q place : Int}
    (h : (around m q).onGrid place = none) (x : Nat) : (around m q).holds place x = false := by
  rw [Bool.eq_false_iff]
  intro hx
  have hsome := onGrid_isSome (around_low_lt hm q) (around_lt_high m q) hx
  rw [h] at hsome
  cases hsome

/-- The numbers in front of a number in a range are those that are less. -/
theorem mem_of_range_eq {n k bound : Nat} {before behind : List Nat}
    (h : List.range bound = before ++ n :: behind) (hk : k < n) : k ∈ before := by
  have hsorted : (before ++ n :: behind).Pairwise (· < ·) := by
    rw [← h]
    exact List.pairwise_lt_range
  have hleast : ∀ j ∈ behind, n < j := fun j =>
    List.rel_of_pairwise_cons (List.pairwise_append.1 hsorted).2.1
  have hmem : k ∈ before ++ n :: behind := by
    have hn : n ∈ List.range bound := by
      rw [h]
      exact List.mem_append_right before List.mem_cons_self
    rw [← h]
    exact List.mem_range.2 (Nat.lt_trans hk (List.mem_range.1 hn))
  rcases List.mem_append.1 hmem with hk' | hk'
  · exact hk'
  · rcases List.mem_cons.1 hk' with rfl | hk'
    · exact absurd hk (Nat.lt_irrefl k)
    · exact absurd hk (Nat.lt_asymm (hleast k hk'))

/-- The shortest decimal is a point, rounding to the double, of the coarsest of the grids to try
that has such a point; the number with every digit it has is fallen back on only if none of them
has. -/
theorem shortest_coarsest {m : Nat} (hm : 0 < m) (q : Int) :
    (∃ n < gridCount, (shortest m q).scale = ceilingPlace m q - n ∧
      (Interval.around m q).holds (shortest m q).scale (shortest m q).coefficient = true ∧
      ∀ k < n, ∀ x, (Interval.around m q).holds (ceilingPlace m q - k) x = false) ∨
    shortest m q = exact m q ∧
      ∀ k < gridCount, ∀ x, (Interval.around m q).holds (ceilingPlace m q - k) x = false := by
  have hshortest : shortest m q = ((List.range gridCount).findSome? fun (n : Nat) =>
      (Interval.around m q).onGrid (ceilingPlace m q - n)).getD (exact m q) := by
    rw [shortest, List.findSome?_map]
    rfl
  cases hfind : (List.range gridCount).findSome? fun (n : Nat) =>
      (Interval.around m q).onGrid (ceilingPlace m q - n) with
  | none =>
    rw [hfind] at hshortest
    refine .inr ⟨hshortest, fun k hk x => ?_⟩
    have hnone := List.findSome?_eq_none_iff.1 hfind k (List.mem_range.2 hk)
    exact Interval.holds_eq_false_of_onGrid hm hnone x
  | some d =>
    rw [hfind] at hshortest
    obtain ⟨before, n, behind, hrange, hgrid, hbefore⟩ := List.findSome?_eq_some_iff.1 hfind
    obtain ⟨hholds, hscale⟩ := Interval.holds_of_onGrid hgrid
    have hn : n < gridCount := List.mem_range.1 (by rw [hrange]; simp)
    obtain rfl : shortest m q = d := hshortest
    refine .inl ⟨n, hn, hscale, by rwa [hscale], fun k hk x => ?_⟩
    exact Interval.holds_eq_false_of_onGrid hm (hbefore k (mem_of_range_eq hrange hk)) x

end Decimal

end Reckoner
