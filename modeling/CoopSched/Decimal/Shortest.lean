/-!
# The shortest decimal that reads back

A finite double is a number `m · 2^q`. All reals that round to it form an interval around it; the
ends belong to it if and only if `m` is even, because a tie goes to the even neighbour. Of the
decimals in that interval one is written: one with the fewest digits, and of those the nearest.

For a given number of digits the decimals form a grid, and if any point of the grid lies in the
interval, then one of the two neighbours of the double does. So for 1, 2, 3, … digits the two
neighbours are tried in exact arithmetic; 17 digits always suffice.
-/

namespace CoopSched
namespace Decimal

/-- The number `digits · 10^exponent`. -/
structure Scientific where
  digits : Nat
  exponent : Int
deriving DecidableEq, Repr, Inhabited

/-- A positive binary number `mantissa · 2^exponent`; `narrow` says that the next smaller double
    is only half as far away as the next larger one. -/
structure Binary where
  mantissa : Nat
  exponent : Int
  narrow : Bool
deriving DecidableEq, Repr, Inhabited

/-- The interval of the reals that round to a double, over a common denominator. -/
structure Interval where
  low : Nat
  value : Nat
  high : Nat
  denominator : Nat
  /-- Do the ends belong to it? -/
  isClosed : Bool
deriving DecidableEq, Repr, Inhabited

/-- The interval of a double: half-way to its neighbours, in quarters of its last place. -/
def Binary.interval (b : Binary) : Interval :=
  let scale := Nat.pow 2 (b.exponent - 2).toNat
  { low := (4 * b.mantissa - if b.narrow then 1 else 2) * scale
    value := 4 * b.mantissa * scale
    high := (4 * b.mantissa + 2) * scale
    denominator := Nat.pow 2 (2 - b.exponent).toNat
    isClosed := b.mantissa % 2 == 0 }

/-- Does the interval hold a decimal? -/
def Interval.contains (i : Interval) (d : Scientific) : Bool :=
  let unit := i.denominator * Nat.pow 10 d.exponent.toNat
  let scale := Nat.pow 10 (-d.exponent).toNat
  let x := d.digits * unit
  if i.isClosed then i.low * scale ≤ x && x ≤ i.high * scale
  else i.low * scale < x && x < i.high * scale

/-- The exponent of the leading decimal digit of a positive fraction above `10^-400`. -/
def leadingExponent (numerator denominator : Nat) : Int :=
  ((Nat.toDigits 10 (numerator * Nat.pow 10 400 / denominator)).length : Int) - 401

/-- Of the two neighbours of the value on the grid of `10^exponent`, the nearest that lies in the
    interval; a tie goes to the even one. -/
def Interval.onGrid (i : Interval) (exponent : Int) : Option Scientific :=
  let unit := i.denominator * Nat.pow 10 exponent.toNat
  let value := i.value * Nat.pow 10 (-exponent).toNat
  let below : Scientific := ⟨value / unit, exponent⟩
  let above : Scientific := ⟨value / unit + 1, exponent⟩
  let rest := 2 * (value % unit)
  let preferBelow := rest < unit || (rest == unit && below.digits % 2 == 0)
  match i.contains below, i.contains above with
  | true, true => some (if preferBelow then below else above)
  | true, false => some below
  | false, true => some above
  | false, false => none

/-- The shortest decimal of a double. -/
def Binary.shortest (b : Binary) : Scientific :=
  let i := b.interval
  let lead := leadingExponent i.value i.denominator
  let grids := (List.range 17).map fun (n : Nat) => lead - (n : Int)
  (grids.findSome? i.onGrid).getD ⟨i.value / i.denominator, 0⟩

/-- The parts of a positive finite double, read off its 64 bits. -/
def Binary.ofBits (bits : Nat) : Binary :=
  let fraction : Nat := bits % Nat.pow 2 52
  let biased : Nat := bits / Nat.pow 2 52 % Nat.pow 2 11
  if biased = 0 then ⟨fraction, -1074, false⟩
  else ⟨Nat.pow 2 52 + fraction, (biased : Int) - 1075, fraction == 0 && biased > 1⟩

end Decimal
end CoopSched
