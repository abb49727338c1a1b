import CoopSched.Config.Basic

/-!
# Configurations as text
-/

namespace CoopSched
namespace Config

/-- A limit as JSON; no limit is `null`. -/
def limitText : Option Nat → String
  | some n => toString n
  | none => "null"

/-- The value of a field as JSON. -/
def fieldText (c : Config) : Field → String
  | .workers => toString c.workers
  | .maxPending => limitText c.maxPending
  | .eventCapacity => toString c.eventCapacity

/-- A configuration as compact JSON, with its fields in declaration order. -/
def toJson (c : Config) : String :=
  "\x7b" ++
    String.intercalate "," (Field.all.map fun f => "\"" ++ f.name ++ "\":" ++ c.fieldText f) ++
    "\x7d"

end Config
end CoopSched
