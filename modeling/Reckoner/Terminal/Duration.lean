/-!
# Durations

A duration is shown in the largest of four units that it fills, exactly, and without zeros at the
end of its fraction.

## Main definitions

* `Duration.write ns` — the text of a duration of `ns` nanoseconds.
-/

namespace Reckoner.Duration

/-- The digits behind the point: those of `part` as so many of `10 ^ places`, without the zeros
at their end. -/
def fraction (part places : Nat) : List Char :=
  let digits := Nat.toDigits 10 part
  let padded := List.replicate (places - digits.length) '0' ++ digits
  (padded.reverse.dropWhile (· = '0')).reverse

/-- A number of nanoseconds in a unit of `10 ^ places` of them. -/
def inUnit (ns places : Nat) (unit : String) : String :=
  let whole := toString (ns / Nat.pow 10 places)
  match fraction (ns % Nat.pow 10 places) places with
  | [] => whole ++ unit
  | digits => whole ++ "." ++ String.ofList digits ++ unit

/-- The text of a duration of `ns` nanoseconds. -/
def write (ns : Nat) : String :=
  if 1000000000 ≤ ns then inUnit ns 9 "s"
  else if 1000000 ≤ ns then inUnit ns 6 "ms"
  else if 1000 ≤ ns then inUnit ns 3 "µs"
  else inUnit ns 0 "ns"

end Reckoner.Duration
