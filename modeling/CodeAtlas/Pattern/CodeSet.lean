import CodeAtlas.Text.Blank
import CodeAtlas.Text.LetterCase
import CodeAtlas.Text.Word

/-!
# Sets of codes

The sets that one place of a pattern can accept. A code is the number of a character, or of a byte
where a pattern is matched against bytes. Sets are described, not listed, so that complements and
Unicode properties cost nothing.
-/

namespace CodeAtlas

/-- A description of a set of codes. -/
inductive CodeSet where
  | range (first last : Nat)
  /-- The members of a table. -/
  | listed (runs : Text.Runs)
  /-- The word characters of Unicode. -/
  | word
  /-- The decimal digits of Unicode. -/
  | digit
  /-- The white space of Unicode. -/
  | blank
  | union (a b : CodeSet)
  | intersection (a b : CodeSet)
  | complement (a : CodeSet)
  /-- The codes that have a variant in letter case in the set. -/
  | caseless (a : CodeSet)
  /-- The same for the letters of ASCII only. -/
  | caselessAscii (a : CodeSet)
deriving DecidableEq, Repr, Inhabited

namespace CodeSet

/-- The code and its counterpart in the other case, for a letter of ASCII. -/
def asciiVariants (code : Nat) : List Nat :=
  if 0x41 ≤ code ∧ code ≤ 0x5a then [code, code + 32]
  else if 0x61 ≤ code ∧ code ≤ 0x7a then [code, code - 32]
  else [code]

/-- The code is in the set. -/
def mem : CodeSet → Nat → Bool
  | range first last, code => decide (first ≤ code) && decide (code ≤ last)
  | listed runs, code => runs.contains code
  | word, code => Text.isWord (Char.ofNat code)
  | digit, code => Text.isDecimalDigit (Char.ofNat code)
  | blank, code => Text.isBlank (Char.ofNat code)
  | union a b, code => a.mem code || b.mem code
  | intersection a b, code => a.mem code && b.mem code
  | complement a, code => !a.mem code
  | caseless a, code => (Text.caseVariants code).any a.mem
  | caselessAscii a, code => (asciiVariants code).any a.mem

/-- No code. -/
def none : CodeSet :=
  .range 1 0

/-- Every code. -/
def all : CodeSet :=
  .complement none

/-- One code. -/
def single (code : Nat) : CodeSet :=
  .range code code

/-- The codes of one of several sets. -/
def unionAll : List CodeSet → CodeSet
  | [] => none
  | [a] => a
  | a :: rest => .union a (unionAll rest)

/-- The codes from `ranges`. -/
def ofRanges (ranges : List (Char × Char)) : CodeSet :=
  unionAll (ranges.map fun (first, last) => .range first.toNat last.toNat)

/-- The codes of ASCII. -/
def ascii : CodeSet :=
  .range 0 0x7f

/-- The codes of the first set that are not in the second. -/
def difference (a b : CodeSet) : CodeSet :=
  .intersection a (.complement b)

/-- The codes of exactly one of two sets. -/
def symmetricDifference (a b : CodeSet) : CodeSet :=
  .intersection (.union a b) (.complement (.intersection a b))

/-- No byte from 128 on is in the set. -/
def isAscii (a : CodeSet) : Bool :=
  (List.range 128).all fun code => !a.mem (128 + code)

/-- About how many ranges the set needs. -/
def rangeCount : CodeSet → Nat
  | range .. => 1
  | listed runs => (runs.map fun (first, last, step) => if step = 1 then 1 else last - first).sum
  | word => 750
  | digit => 60
  | blank => 10
  | union a b => a.rangeCount + b.rangeCount
  | intersection a b => a.rangeCount + b.rangeCount
  | complement a => a.rangeCount
  | caseless a => 2 * a.rangeCount
  | caselessAscii a => 2 * a.rangeCount

end CodeSet

end CodeAtlas
