import Reckoner.Decimal.Shortest

/-!
# The text of a number

A number is written with the digits of its shortest decimal.  What is left to decide is where
the point goes: a layout says which numbers are written positionally, the others getting an
exponent, and whether a whole number shows that it could have had a fraction.

## Main definitions

* `Layout` — the decisions about the text of a number.
* `Layout.plain` — the layout of values: always positional, whole numbers without a point.
* `Layout.literal` — the layout of number literals in a dump: always a point or an exponent, and
  very large and very small numbers with an exponent.
* `Layout.write l x` — the text of the float `x`.
-/

namespace Reckoner.Decimal

/-- The decisions about the text of a number. -/
structure Layout where
  /-- Whether a number whose first digit counts the given power of ten is written positionally. -/
  positional : Int → Bool
  /-- What follows a whole number that is written positionally. -/
  wholeTail : List Char

namespace Layout

/-- Values are always written positionally, and whole numbers without a point. -/
def plain : Layout := ⟨fun _ => true, []⟩

/-- Literals in a dump are written positionally from 0.0001 up to, and not including, 10 ^ 16;
a whole number keeps a point and one zero. -/
def literal : Layout := ⟨fun place => -4 ≤ place ∧ place < 16, ['.', '0']⟩

/-- The power of ten that the first digit of a decimal counts. -/
def leadingPlace (digits : List Char) (scale : Int) : Int :=
  scale + digits.length - 1

/-- The text of a decimal with the given digits, written positionally. -/
def writePositional (l : Layout) (digits : List Char) (scale : Int) : List Char :=
  let places := (-scale).toNat
  if places = 0 then
    digits ++ List.replicate scale.toNat '0' ++ l.wholeTail
  else if places < digits.length then
    let whole := digits.length - places
    digits.take whole ++ '.' :: digits.drop whole
  else
    '0' :: '.' :: (List.replicate (places - digits.length) '0' ++ digits)

/-- The digits of a decimal with a point after the first, if there are more. -/
def writeMantissa : List Char → List Char
  | [] => []
  | [d] => [d]
  | d :: e :: ds => d :: '.' :: e :: ds

/-- The text of an integer: its digits, after a minus sign if it is negative. -/
def writeInt (n : Int) : List Char :=
  if n < 0 then '-' :: Nat.toDigits 10 n.natAbs else Nat.toDigits 10 n.natAbs

/-- The text of a decimal with the given digits, written with an exponent. -/
def writeScientific (digits : List Char) (scale : Int) : List Char :=
  writeMantissa digits ++ 'e' :: writeInt (leadingPlace digits scale)

/-- The text of a decimal. -/
def writeDecimal (l : Layout) (d : Decimal) : List Char :=
  let digits := Nat.toDigits 10 d.coefficient
  if l.positional (leadingPlace digits d.scale) then
    l.writePositional digits d.scale
  else
    writeScientific digits d.scale

/-- A minus sign in front of a text that is to be negated. -/
def signed (negative : Bool) (text : List Char) : List Char :=
  if negative then '-' :: text else text

/-- The text of a double.  Zero keeps its sign. -/
def writeBinary (l : Layout) : Binary64 → List Char
  | .nan => ['N', 'a', 'N']
  | .infinite negative => signed negative ['i', 'n', 'f']
  | .finite negative 0 _ => signed negative ('0' :: l.wholeTail)
  | .finite negative (m + 1) q => signed negative (l.writeDecimal (shortest (m + 1) q))

/-- The text of a float. -/
def write (l : Layout) (x : Float) : String := String.ofList (l.writeBinary (.ofFloat x))

end Layout

end Reckoner.Decimal
