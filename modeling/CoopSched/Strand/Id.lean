/-!
# Strand numbers

Strands are numbered 1, 2, 3, … in the order in which they are allocated. A strand that admission
refuses has used up its number, so the numbers of admitted strands may have gaps, but a later
strand always has the larger one.
-/

namespace CoopSched

/-- The number of a strand. -/
structure StrandId where
  number : Nat
deriving DecidableEq, Repr, Inhabited

namespace StrandId

/-- The short form that messages use, `#3`. -/
def label (id : StrandId) : String := "#" ++ toString id.number

/-- The long form that descriptions use, `StrandId(3)`. -/
def describe (id : StrandId) : String := "StrandId(" ++ toString id.number ++ ")"

end StrandId

end CoopSched
