/-!
# Ranges of code points
-/

namespace CoopSched
namespace Text

/-- Does a number lie in one of the ranges, ends included? -/
def inRanges (ranges : Array (Nat × Nat)) (n : Nat) : Bool :=
  ranges.any fun (low, high) => low ≤ n && n ≤ high

end Text
end CoopSched
