/-!
# Ranges of code points

A property of characters that the Unicode tables give is held as a list of ranges of code
points, both ends included, in increasing order. A code point has the property when a range
holds it.
-/

namespace StageTree.Text.Unicode

/-- Whether one of the ranges holds a code point. -/
def inRanges (ranges : List (Nat × Nat)) (n : Nat) : Bool :=
  ranges.any fun (lo, hi) => lo ≤ n && n ≤ hi

/-- A range holds its own first code point. -/
theorem inRanges_first (lo hi : Nat) (rest : List (Nat × Nat)) (h : lo ≤ hi) :
    inRanges ((lo, hi) :: rest) lo = true := by
  simp [inRanges, h]

end StageTree.Text.Unicode
