import CoopSched.Wakeup

/-!
# Payload values

Scripts hand values about without looking into them, and build one only where a body finishes
with what it was told. The shapes are those of JSON, with integers for numbers.
-/

namespace CoopSched
namespace Script

/-- A payload. -/
inductive Value where
  | null
  | bool (b : Bool)
  | int (i : Int)
  | str (s : String)
  | arr (items : List Value)
  | obj (fields : List (String × Value))
deriving Repr, Inhabited

namespace Value

/-- An outcome as a value. -/
def ofOutcome : Outcome Value → Value
  | .ok v => .obj [("ok", v)]
  | .err e => .obj [("err", .obj [("kind", .str e.kind.name), ("message", .str e.message)])]

/-- A settled child as a value: its number and its outcome. -/
def ofChild (c : ChildOutcome Value) : Value :=
  .arr [.int c.id.number, ofOutcome c.outcome]

/-- What a body was told, as an outcome to finish with. -/
def ofWakeup : Wakeup Value → Outcome Value
  | .start => .ok (.str "start")
  | .yielded => .ok (.str "yielded")
  | .completed r => r
  | .mapped r => r.map .arr
  | .children r => r.map fun cs => .arr (cs.map ofChild)

end Value

end Script
end CoopSched
