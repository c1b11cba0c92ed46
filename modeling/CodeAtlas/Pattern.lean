import CodeAtlas.Pattern.CodeSet

/-!
# Patterns

Regular patterns over sequences of codes, and where they match. A pattern moves a set of positions
forward: from each position it leads to the positions at which a match that starts there can end.
All matches are followed at once, so the work is bounded by a power of the length of the text.
-/

namespace CodeAtlas

/-- A condition on a position. -/
inductive Assertion where
  | textStart
  | textEnd
  /-- After a newline, or at the start. -/
  | lineStart
  /-- Before a newline, or at the end. -/
  | lineEnd
  /-- After a line end of one or two characters, or at the start. -/
  | anyLineStart
  /-- Before a line end of one or two characters, or at the end. -/
  | anyLineEnd
  | wordBoundary
  | notWordBoundary
  | wordStart
  | wordEnd
  | wordStartHalf
  | wordEndHalf
deriving DecidableEq, Repr, Inhabited

/-- A regular pattern. -/
inductive Pattern where
  | empty
  | one (set : CodeSet)
  /-- A condition, where words are made of the given codes. -/
  | assertion (condition : Assertion) (letters : CodeSet)
  | sequence (first second : Pattern)
  | either (first second : Pattern)
  /-- The body at least `least` and, if there is a limit, at most `most` times. -/
  | repeated (body : Pattern) (least : Nat) (most : Option Nat)
deriving DecidableEq, Repr, Inhabited

namespace Assertion

/-- The condition holds between the codes `before` and `after`. -/
def holds (condition : Assertion) (letters : CodeSet) (before after : Option Nat) : Bool :=
  let inWord (code : Option Nat) : Bool := (code.map letters.mem).getD false
  let newline : Option Nat := some 10
  let carriage : Option Nat := some 13
  match condition with
  | textStart => before.isNone
  | textEnd => after.isNone
  | lineStart => before.isNone || before == newline
  | lineEnd => after.isNone || after == newline
  | anyLineStart =>
    before.isNone || before == newline || (before == carriage && after != newline)
  | anyLineEnd =>
    after.isNone || after == carriage || (after == newline && before != carriage)
  | wordBoundary => inWord before != inWord after
  | notWordBoundary => inWord before == inWord after
  | wordStart => !inWord before && inWord after
  | wordEnd => inWord before && !inWord after
  | wordStartHalf => !inWord before
  | wordEndHalf => !inWord after

end Assertion

namespace Pattern

/-! ## Sets of positions -/

/-- Insert a position into an increasing list. -/
def insertPosition (position : Nat) : List Nat → List Nat
  | [] => [position]
  | p :: rest =>
    if position < p then position :: p :: rest
    else if position = p then p :: rest
    else p :: insertPosition position rest

/-- The union of two increasing lists of positions. -/
def mergePositions (a b : List Nat) : List Nat :=
  a.foldl (fun set position => insertPosition position set) b

/-- Apply a step a number of times, stopping when no position is left. -/
def iterate (step : List Nat → List Nat) : Nat → List Nat → List Nat
  | 0, set => set
  | n + 1, set => if set.isEmpty then [] else iterate step n (step set)

/-- The positions reached by applying a step at most a number of times. -/
def reach (step : List Nat → List Nat) : Nat → List Nat → List Nat
  | 0, set => set
  | n + 1, set => if set.isEmpty then [] else mergePositions set (reach step n (step set))

/-! ## Matching -/

/-- The code before a position. -/
def codeBefore (codes : Array Nat) : Nat → Option Nat
  | 0 => none
  | position + 1 => codes[position]?

/-- The positions where matches end that start at one of the given positions. Beyond one more than
the length of the text, repeating the body leads to no other position. -/
def advance (codes : Array Nat) : Pattern → List Nat → List Nat
  | empty, set => set
  | one accepted, set =>
    set.filterMap fun position =>
      match codes[position]? with
      | some code => if accepted.mem code then some (position + 1) else none
      | none => none
  | assertion condition letters, set =>
    set.filter fun position =>
      condition.holds letters (codeBefore codes position) codes[position]?
  | sequence first second, set => second.advance codes (first.advance codes set)
  | either first second, set =>
    mergePositions (first.advance codes set) (second.advance codes set)
  | repeated body least most, set =>
    let bound := codes.size + 1
    let begun := iterate (body.advance codes) (min least bound) set
    let more :=
      match most with
      | some most => min (most - least) bound
      | none => bound
    reach (body.advance codes) more begun

/-- The codes of a text's characters. -/
def codesOf (s : String) : Array Nat :=
  (s.toList.map Char.toNat).toArray

/-- The codes of a text's bytes. -/
def bytesOf (s : String) : Array Nat :=
  (s.toUTF8.toList.map UInt8.toNat).toArray

/-- The pattern matches somewhere in the codes. -/
def matchesWithin (pattern : Pattern) (codes : Array Nat) : Bool :=
  !(pattern.advance codes (List.range (codes.size + 1))).isEmpty

/-- The pattern matches all of the codes. -/
def matchesAll (pattern : Pattern) (codes : Array Nat) : Bool :=
  (pattern.advance codes [0]).contains codes.size

/-- The pattern matches somewhere in a text. -/
def isMatch (pattern : Pattern) (s : String) : Bool :=
  pattern.matchesWithin (codesOf s)

/-! ## Building patterns -/

/-- Patterns one after the other. -/
def sequenceAll : List Pattern → Pattern
  | [] => empty
  | [p] => p
  | p :: rest => sequence p (sequenceAll rest)

/-- One of several patterns; of none, a pattern that never matches. -/
def eitherAll : List Pattern → Pattern
  | [] => one .none
  | [p] => p
  | p :: rest => either p (eitherAll rest)

/-- Any number of codes from a set. -/
def anyOf (set : CodeSet) : Pattern :=
  repeated (one set) 0 none

/-- About how many bytes a machine for the pattern takes. -/
def weight : Pattern → Nat
  | empty => 32
  | one set => if set.rangeCount = 1 then 32 else 64 * set.rangeCount
  | assertion .. => 32
  | sequence first second => first.weight + second.weight
  | either first second => first.weight + second.weight + 32
  | repeated body least most => body.weight * max 1 (max least (most.getD 0)) + 32

end Pattern

end CodeAtlas
