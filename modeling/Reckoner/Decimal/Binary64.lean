/-!
# The numbers that double precision holds

A value of the calculator is a double-precision float.  Its text depends on the number that
the bits stand for, so this module reads the bits: a finite double is a sign and a natural
number times a power of two, and everything after that is exact arithmetic on naturals.

## Main definitions

* `Binary64` — what the bits of a double stand for.
* `Binary64.ofFloat x` — the reading of a float.
* `Binary64.minNormal`, `Binary64.minExponent` — the least significand of full precision, and
  the exponent of the numbers that have less.
-/

namespace Reckoner.Decimal

/-- What the bits of a double stand for. -/
inductive Binary64 where
  /-- Not a number; it has no sign. -/
  | nan
  /-- An infinity. -/
  | infinite (negative : Bool)
  /-- The number `significand * 2 ^ exponent`, negated if `negative`; zero keeps its sign. -/
  | finite (negative : Bool) (significand : Nat) (exponent : Int)
  deriving DecidableEq, Repr

namespace Binary64

/-- The least significand of a number held with full precision; it takes 53 bits. -/
def minNormal : Nat := Nat.pow 2 52

/-- The exponent of the subnormal numbers and of the least normal ones. -/
def minExponent : Int := -1074

/-- The reading of the three fields of a double: its sign, its biased exponent and the bits
of its fraction. -/
def ofFields (negative : Bool) (biased fraction : Nat) : Binary64 :=
  if biased = 2047 then
    if fraction = 0 then .infinite negative else .nan
  else if biased = 0 then
    .finite negative fraction minExponent
  else
    .finite negative (minNormal + fraction) (minExponent + (biased - 1 : Nat))

/-- The number that a float holds. -/
def ofFloat (x : Float) : Binary64 :=
  let bits := x.toBits.toNat
  ofFields (bits.testBit 63) (bits / minNormal % 2048) (bits % minNormal)

end Binary64

end Reckoner.Decimal
