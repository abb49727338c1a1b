import CoopSched.Config.Basic
import CoopSched.Decimal.Layout
import CoopSched.Text.Quoted

/-!
# What can be wrong with the text of a configuration

A text is read from left to right, and the first thing wrong with it is its fault. There are
three classes: the text is not JSON at this point; it ends too early; or it is JSON here, but not
what a configuration holds. Only the last class says more.
-/

namespace CoopSched
namespace Config

/-- What was found in the wrong place. -/
inductive Found where
  | null
  | boolean (b : Bool)
  | integer (i : Int)
  /-- A double, by its 64 bits. -/
  | float (bits : UInt64)
  | string (s : String)
  | sequence
  | map
deriving DecidableEq, Repr, Inhabited

/-- What was wanted there. -/
inductive Wanted where
  /-- A count that fits a machine word. -/
  | count
  /-- A whole configuration. -/
  | config
deriving DecidableEq, Repr, Inhabited

/-- JSON that is no configuration. -/
inductive Mismatch where
  | unknownField (name : String)
  | duplicateField (field : Field)
  /-- A value of another type. -/
  | wrongType (found : Found) (wanted : Wanted)
  /-- A negative number for a count. -/
  | negative (i : Int)
deriving DecidableEq, Repr, Inhabited

/-- Why a text could not be read. -/
inductive ReadFault where
  | malformed
  | truncated
  | mismatch (m : Mismatch)
deriving DecidableEq, Repr, Inhabited

/-- Why a text gives no configuration to start with. -/
inductive Fault where
  | unreadable (fault : ReadFault)
  | invalid (cause : Invalid)
deriving DecidableEq, Repr, Inhabited

/-- Numbers with a fraction are written in full while the point stands at most four places in
    front of the first digit and at most sixteen behind it. -/
def numberLayout : Decimal.Layout := ⟨-4, 16⟩

/-- The words for what was found. -/
def Found.text : Found → String
  | .null => "null"
  | .boolean b => "boolean `" ++ toString b ++ "`"
  | .integer i => "integer `" ++ toString i ++ "`"
  | .float bits => "floating point `" ++ numberLayout.writeBits bits ++ "`"
  | .string s => "string " ++ Text.quoted s
  | .sequence => "sequence"
  | .map => "map"

/-- The words for what was wanted. -/
def Wanted.text : Wanted → String
  | .count => "usize"
  | .config => "struct SchedulerConfig"

/-- The wording of a mismatch. -/
def Mismatch.message : Mismatch → String
  | .unknownField name =>
      "unknown field `" ++ name ++ "`, expected one of " ++
        String.intercalate ", " (Field.all.map fun f => "`" ++ f.name ++ "`")
  | .duplicateField field => "duplicate field `" ++ field.name ++ "`"
  | .wrongType found wanted => "invalid type: " ++ found.text ++ ", expected " ++ wanted.text
  | .negative i =>
      "invalid value: " ++ (Found.integer i).text ++ ", expected " ++ Wanted.count.text

/-- The class of a fault. -/
def ReadFault.category : ReadFault → String
  | .malformed => "Syntax"
  | .truncated => "Eof"
  | .mismatch _ => "Data"

end Config
end CoopSched
