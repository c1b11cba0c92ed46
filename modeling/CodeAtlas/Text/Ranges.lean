/-!
# Sets of code points given by ranges

The character classes of the Unicode standard are listed as ranges of code points. A range holds
both of its ends, and a class is the union of its ranges. Where letters of two classes alternate, a
class is listed as runs: a run holds every so many code points from its first to its last.
-/

namespace CodeAtlas.Text

/-- A list of ranges of code points, both ends included. -/
abbrev Ranges := List (Nat × Nat)

/-- The code point lies in one of the ranges. -/
def Ranges.contains (ranges : Ranges) (code : Nat) : Bool :=
  ranges.any fun range => decide (range.1 ≤ code) && decide (code ≤ range.2)

/-- A list of runs of code points: first, last, and the step from one member to the next. -/
abbrev Runs := List (Nat × Nat × Nat)

/-- The code point is a member of one of the runs. -/
def Runs.contains (runs : Runs) (code : Nat) : Bool :=
  runs.any fun (first, last, step) =>
    decide (first ≤ code) && decide (code ≤ last) && (code - first) % step == 0

/-- Ranges as runs, which leave nothing out. -/
def Ranges.toRuns (ranges : Ranges) : Runs :=
  ranges.map fun (first, last) => (first, last, 1)

end CodeAtlas.Text
