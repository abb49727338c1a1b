import CoopSched.Config.Fault

/-!
# Numbers in the text of a configuration

An integer that fits 64 bits is read exactly. Everything else, a fraction, an exponent, an
integer that is too large, minus zero, is a double; none of these is a count, but the message
about it shows its value, so the value matters. It is the leading digits, as many as fit 64 bits,
scaled by one power of ten; digits beyond them only move the point.
-/

namespace CoopSched
namespace Config

/-- A number as it was written. -/
inductive Number where
  | natural (n : Nat)
  | negative (i : Int)
  /-- A double, by its 64 bits. -/
  | float (bits : UInt64)
deriving DecidableEq, Repr, Inhabited

/-- The leading digits of a number. -/
structure Leading where
  significand : Nat
  /-- How many digits were taken. -/
  count : Nat
  rest : List Char
  /-- It was one more digit that stopped it: that one would not have fitted. -/
  isFull : Bool
deriving DecidableEq, Repr, Inhabited

/-- The value of a decimal digit. -/
def digitValue (c : Char) : Nat := c.toNat - '0'.toNat

/-- Takes digits behind a significand for as long as they fit 64 bits. -/
def leading (significand count : Nat) : List Char → Leading
  | [] => ⟨significand, count, [], false⟩
  | c :: cs =>
      if c.isDigit then
        let n := significand * 10 + digitValue c
        if n < Nat.pow 2 64 then leading n (count + 1) cs else ⟨significand, count, c :: cs, true⟩
      else ⟨significand, count, c :: cs, false⟩

/-- The double nearest to a power of ten. -/
def powerOfTen (k : Nat) : Float := Float.ofScientific 1 false k

/-- Divides by a power of ten, by at most `10^308` at a time. Two such steps bring any number of
    64 bits to zero, so the recursion needs few of them. -/
def scaleDown : Nat → Float → Nat → Float
  | 0, f, _ => f
  | steps + 1, f, k =>
      if k ≤ 308 then f / powerOfTen k
      else if f == 0.0 then f
      else scaleDown steps (f / powerOfTen 308) (k - 308)

/-- The double for a significand and a power of ten; it is at fault if there is none that
    large. -/
def toDouble (isPositive : Bool) (significand : Nat) (exponent : Int) :
    Except ReadFault Number :=
  let f := significand.toUInt64.toFloat
  let signed := fun (f : Float) => Number.float (if isPositive then f else -f).toBits
  if exponent < 0 then .ok (signed (scaleDown 4 f exponent.natAbs))
  else if exponent ≤ 308 then
    let scaled := f * powerOfTen exponent.toNat
    if scaled.isInf then .error .malformed else .ok (signed scaled)
  else if f == 0.0 then .ok (signed f)
  else .error .malformed

/-- Reads the digits of an exponent, its letter being read. -/
def readExponent (isPositive : Bool) (significand : Nat) (start : Int) (cs : List Char) :
    Except ReadFault (Number × List Char) :=
  let (up, cs) :=
    match cs with
    | '+' :: rest => (true, rest)
    | '-' :: rest => (false, rest)
    | _ => (true, cs)
  match cs with
  | [] => .error .truncated
  | c :: _ =>
      if c.isDigit then
        let size : Nat := (cs.takeWhile Char.isDigit).foldl (fun n d => n * 10 + digitValue d) 0
        let exponent := if up then start + (size : Int) else start - (size : Int)
        (toDouble isPositive significand exponent).map (·, cs.dropWhile Char.isDigit)
      else .error .malformed

/-- Reads what may follow the digits of a double: an exponent, or nothing. -/
def readScaled (isPositive : Bool) (significand : Nat) (exponent : Int) (cs : List Char) :
    Except ReadFault (Number × List Char) :=
  match cs with
  | 'e' :: rest | 'E' :: rest => readExponent isPositive significand exponent rest
  | _ => (toDouble isPositive significand exponent).map (·, cs)

/-- Reads the digits behind a point, the point being read. -/
def readFraction (isPositive : Bool) (significand : Nat) (exponent : Int) (cs : List Char) :
    Except ReadFault (Number × List Char) :=
  let d := leading significand 0 cs
  let exponent := exponent - (d.count : Int)
  if d.isFull then readScaled isPositive d.significand exponent (d.rest.dropWhile Char.isDigit)
  else if d.count = 0 then .error (if d.rest.isEmpty then .truncated else .malformed)
  else readScaled isPositive d.significand exponent d.rest

/-- The number that an integer without point and exponent is. -/
def Number.ofInteger (isPositive : Bool) (n : Nat) : Number :=
  if isPositive then .natural n
  else if n = 0 ∨ Nat.pow 2 63 < n then .float (-n.toUInt64.toFloat).toBits
  else .negative (-(n : Int))

/-- Reads what may follow the digits of an integer that fits 64 bits. -/
def readTail (isPositive : Bool) (significand : Nat) (cs : List Char) :
    Except ReadFault (Number × List Char) :=
  match cs with
  | '.' :: rest => readFraction isPositive significand 0 rest
  | 'e' :: rest | 'E' :: rest => readExponent isPositive significand 0 rest
  | _ => .ok (.ofInteger isPositive significand, cs)

/-- Reads the rest of an integer that does not fit 64 bits. -/
def readLong (isPositive : Bool) (significand : Nat) (cs : List Char) :
    Except ReadFault (Number × List Char) :=
  let exponent : Int := (cs.takeWhile Char.isDigit).length
  match cs.dropWhile Char.isDigit with
  | '.' :: rest => readFraction isPositive significand exponent rest
  | rest => readScaled isPositive significand exponent rest

/-- Reads a number, its sign being read. A leading zero stands alone. -/
def readNumber (isPositive : Bool) (cs : List Char) : Except ReadFault (Number × List Char) :=
  match cs with
  | [] => .error .truncated
  | '0' :: rest =>
      match rest with
      | c :: _ => if c.isDigit then .error .malformed else readTail isPositive 0 rest
      | [] => readTail isPositive 0 rest
  | c :: rest =>
      if c.isDigit then
        let d := leading (digitValue c) 1 rest
        if d.isFull then readLong isPositive d.significand d.rest
        else readTail isPositive d.significand d.rest
      else .error .malformed

end Config
end CoopSched
