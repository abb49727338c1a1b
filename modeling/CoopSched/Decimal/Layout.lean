import CoopSched.Decimal.Shortest

/-!
# The layout of decimals

How a decimal is written is a handful of decisions, gathered in one record: between which places
of the decimal point it is written in full, and that it is never written without a point or an
exponent, so that it can not be taken for an integer.
-/

namespace CoopSched
namespace Decimal

/-- Where the decimal point may stand, counted from in front of the first digit, for a number to
    be written without an exponent. -/
structure Layout where
  leastPoint : Int
  greatestPoint : Int
deriving DecidableEq, Repr, Inhabited

/-- The digits of a decimal without zeros at the end, and the place of its point. -/
def Scientific.significant (d : Scientific) : List Char × Int :=
  let digits := Nat.toDigits 10 d.digits
  ((digits.reverse.dropWhile (· == '0')).reverse, d.exponent + digits.length)

/-- An exponent with its sign. -/
def writeExponent (e : Int) : List Char :=
  'e' :: (if e < 0 then '-' else '+') :: Nat.toDigits 10 e.natAbs

/-- A positive decimal, laid out. -/
def Layout.write (layout : Layout) (d : Scientific) : List Char :=
  let (digits, point) := d.significant
  if layout.leastPoint ≤ point ∧ point ≤ layout.greatestPoint then
    if point ≤ 0 then '0' :: '.' :: List.replicate (-point).toNat '0' ++ digits
    else if (digits.length : Int) ≤ point then
      digits ++ List.replicate (point.toNat - digits.length) '0' ++ ['.', '0']
    else digits.take point.toNat ++ '.' :: digits.drop point.toNat
  else
    match digits with
    | [] => ['0', '.', '0']
    | [c] => c :: writeExponent (point - 1)
    | c :: rest => c :: '.' :: rest ++ writeExponent (point - 1)

/-- The finite double with these 64 bits, laid out. -/
def Layout.writeBits (layout : Layout) (bits : UInt64) : String :=
  let sign := if bits.toNat < Nat.pow 2 63 then [] else ['-']
  let size := bits.toNat % Nat.pow 2 63
  String.ofList (sign ++ if size = 0 then ['0', '.', '0']
    else layout.write (Binary.ofBits size).shortest)

end Decimal
end CoopSched
