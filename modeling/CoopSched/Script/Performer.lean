import CoopSched.Script.Syntax

/-!
# Performers — a body and how far it has got

The scheduler keeps a performer for each strand of a script: what is left of its body, and the
input that it was launched for.
-/

namespace CoopSched
namespace Script

/-- What is left of a body. -/
inductive Part where
  | call (e : Ending) (twice : Bool)
  | crash (p : Panic)
  /-- A call that was made already. -/
  | called
  | segments (list : List Passage)

/-- A body under way. -/
structure Performer where
  part : Part
  arg : Option Value := none
  index : Option Nat := none

/-- A body that has not begun. -/
def Body.performer (b : Body) (arg : Option Value) (index : Option Nat) : Performer :=
  let part := match b with
    | .call e twice => Part.call e twice
    | .crash p => .crash p
    | .segments list => .segments list
  ⟨part, arg, index⟩

/-- The outcome that a performer finishes with, having been told `w`. -/
def Performer.ending (p : Performer) (w : Wakeup Value) : Ending → Outcome Value
  | .result r => r
  | .arg => .ok (p.arg.getD .null)
  | .index => .ok ((p.index.map fun (n : Nat) => Value.int n).getD .null)
  | .wakeup => Value.ofWakeup w

/-- What a performer wants after a segment. -/
def Performer.step (p : Performer) (w : Wakeup Value) : Move → Step Value
  | .yield => .yield
  | .park => .park
  | .await mode => .await mode
  | .done e => .done (p.ending w e)

/-- The segment to be run next, and those that are left after it. -/
def nextPassage : List Passage → Option (List Deed × Move × List Passage)
  | [] => none
  | .mk _ _ 0 :: rest => nextPassage rest
  | .mk deeds move 1 :: rest => some (deeds, move, rest)
  | .mk deeds move (n + 1) :: rest => some (deeds, move, .mk deeds move n :: rest)

/-- The body for an input of an iterative invocation. -/
def Callable.call (c : Callable) (index : Nat) (arg : Value) : Except Panic Performer :=
  match c with
  | .mk body special panicAt indexed =>
      if panicAt = some index then .error (.text "callable")
      else
        .ok (((special.lookup index).getD body).performer (some arg)
          (if indexed then some index else none))

end Script
end CoopSched
