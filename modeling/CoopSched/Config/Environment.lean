import CoopSched.Config.Basic
import CoopSched.Text.Blank

/-!
# Configurations from the environment

One variable of the environment, `STRAND_WORKERS`, can set the number of workers. A value that is
no positive count is passed over, and the default stays.
-/

namespace CoopSched
namespace Config

/-- The count that some digits write, if it fits 64 bits. -/
def countOfDigits? (cs : List Char) : Option Nat :=
  if cs.isEmpty || !cs.all Char.isDigit then none
  else
    let n := cs.foldl (fun n d => n * 10 + (d.toNat - '0'.toNat)) 0
    if n < Nat.pow 2 64 then some n else none

/-- The count that a text writes: digits, perhaps behind one plus sign. -/
def countOfText? (cs : List Char) : Option Nat :=
  match cs with
  | '+' :: digits => countOfDigits? digits
  | digits => countOfDigits? digits

/-- The number of workers that a value asks for. Blanks around it do not matter, and none at all
    is not a number of workers. -/
def workersOfText? (value : String) : Option Nat :=
  match countOfText? (Text.trimBlank value.toList) with
  | some 0 | none => none
  | some n => some n

/-- The default configuration, with the number of workers that the value of the variable asks
    for. The variable may be unset, and its bytes need not be text. -/
def fromEnvironment (value : Option ByteArray) : Config :=
  match (value.bind String.fromUTF8?).bind workersOfText? with
  | some n => { workers := n }
  | none => {}

end Config
end CoopSched
