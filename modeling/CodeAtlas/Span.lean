/-!
# Spans

A span is a half-open range of byte offsets into the text of a file. Positions of a span can be
taken away by subtracting holes, which leaves the segments between the holes.
-/

namespace CodeAtlas

/-- The byte offsets from `start` up to, and not including, `stop`. -/
structure Span where
  start : Nat
  stop : Nat
deriving DecidableEq, Repr, Inhabited

namespace Span

/-- Number of positions; a span that stops before it starts has none. -/
def length (s : Span) : Nat :=
  s.stop - s.start

/-- The span has no position. -/
def isEmpty (s : Span) : Bool :=
  s.length == 0

/-- The position lies in the span. -/
def Contains (s : Span) (position : Nat) : Prop :=
  s.start ≤ position ∧ position < s.stop

instance (s : Span) (position : Nat) : Decidable (s.Contains position) :=
  inferInstanceAs (Decidable (_ ∧ _))

/-- Order by start, then by stop. -/
def precedes (s t : Span) : Bool :=
  decide (s.start < t.start) || (s.start == t.start && decide (s.stop ≤ t.stop))

/-- The spans in the order of their starts, then of their stops. -/
def sort (spans : List Span) : List Span :=
  spans.mergeSort precedes

/-- The segments of `s` from `cursor` on that the holes leave. Holes are clipped to the span, and
those that have no position in it are passed over. -/
def subtractFrom (s : Span) (cursor : Nat) : List Span → List Span
  | [] => if cursor < s.stop then [⟨cursor, s.stop⟩] else []
  | hole :: holes =>
    let start := max hole.start s.start
    let stop := min hole.stop s.stop
    if stop ≤ start then
      subtractFrom s cursor holes
    else if cursor < start then
      ⟨cursor, start⟩ :: subtractFrom s (max cursor stop) holes
    else
      subtractFrom s (max cursor stop) holes

/-- The segments of a span outside of the holes, which are taken in the order given. -/
def subtract (s : Span) (holes : List Span) : List Span :=
  subtractFrom s s.start holes

end Span

end CodeAtlas
