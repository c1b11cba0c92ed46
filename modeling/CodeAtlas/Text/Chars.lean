import CodeAtlas.Text.Blank

/-!
# Cutting and replacing text

Text is taken apart as a list of characters: split at separators, trimmed at its ends, rewritten at
pairs of characters, and cut at byte offsets of its UTF-8 form. A cut that would fall inside of a
character, or beyond the end, does not exist.
-/

namespace CodeAtlas.Text

/-! ## Splitting -/

/-- The fields between the characters that satisfy `sep`; there is always at least one. -/
def splitChars (sep : Char → Bool) : List Char → List (List Char)
  | [] => [[]]
  | c :: rest =>
    if sep c then
      [] :: splitChars sep rest
    else
      match splitChars sep rest with
      | [] => [[c]]
      | field :: fields => (c :: field) :: fields

/-- The fields of a text between occurrences of one character. -/
def split (sep : Char) (s : String) : List String :=
  (splitChars (· == sep) s.toList).map String.ofList

/-- What stands before the first and after the first occurrence of a character. -/
def cutFirst? (sep : Char) : List Char → Option (List Char × List Char)
  | [] => none
  | c :: rest =>
    if c == sep then
      some ([], rest)
    else
      (cutFirst? sep rest).map fun (before, after) => (c :: before, after)

/-- What stands before the last and after the last occurrence of a character. -/
def cutLast? (sep : Char) (cs : List Char) : Option (List Char × List Char) :=
  (cutFirst? sep cs.reverse).map fun (after, before) => (before.reverse, after.reverse)

/-- The part of a text after the last occurrence of a character, or the whole text. -/
def afterLast (sep : Char) (s : String) : String :=
  match cutLast? sep s.toList with
  | some (_, after) => String.ofList after
  | none => s

/-! ## Trimming -/

/-- Drop the characters that satisfy `p` from the end. -/
def dropEndWhile (p : Char → Bool) (cs : List Char) : List Char :=
  (cs.reverse.dropWhile p).reverse

/-- Drop the characters that satisfy `p` from both ends. -/
def trimWhile (p : Char → Bool) (cs : List Char) : List Char :=
  dropEndWhile p (cs.dropWhile p)

/-- The text without the characters satisfying `p` at both ends. -/
def trimMatches (p : Char → Bool) (s : String) : String :=
  String.ofList (trimWhile p s.toList)

/-- The text without blanks at both ends. -/
def trim (s : String) : String :=
  trimMatches isBlank s

/-- The text without blanks at its end. -/
def trimEnd (s : String) : String :=
  String.ofList (dropEndWhile isBlank s.toList)

/-- Remove a suffix as often as it occurs at the end. The list is given reversed, and so is the
suffix; an empty suffix is never removed. -/
def dropReversedSuffixes (suffix : List Char) : Nat → List Char → List Char
  | 0, cs => cs
  | fuel + 1, cs =>
    match suffix.isPrefixOf? cs with
    | some rest => if suffix.isEmpty then cs else dropReversedSuffixes suffix fuel rest
    | none => cs

/-- Remove a suffix from a text as often as it occurs at its end. -/
def dropSuffixes (suffix : String) (s : String) : String :=
  String.ofList
    (dropReversedSuffixes suffix.toList.reverse s.length s.toList.reverse).reverse

/-- What follows a given beginning of the text, if the text begins so. -/
def afterStart? (start : String) (s : String) : Option String :=
  (start.toList.isPrefixOf? s.toList).map String.ofList

/-- The text ends with the given one. -/
def endsWith (ending : String) (s : String) : Bool :=
  ending.toList.isSuffixOf s.toList

/-- The text begins with the given one. -/
def startsWith (start : String) (s : String) : Bool :=
  start.toList.isPrefixOf s.toList

/-- The characters occur one after the other somewhere. -/
def occursIn (part : List Char) : List Char → Bool
  | [] => part.isEmpty
  | c :: rest => part.isPrefixOf (c :: rest) || occursIn part rest

/-- The text occurs in another. -/
def contains (part : String) (s : String) : Bool :=
  occursIn part.toList s.toList

/-! ## Replacing -/

/-- Replace each occurrence of the pair `a`, `b`, from left to right, by `new`. -/
def replacePair (a b : Char) (new : List Char) : List Char → List Char
  | [] => []
  | [c] => [c]
  | c :: d :: rest =>
    if c = a ∧ d = b then
      new ++ replacePair a b new rest
    else
      c :: replacePair a b new (d :: rest)

/-- Replace every occurrence of one character by another. -/
def replaceChar (old new : Char) (s : String) : String :=
  s.map fun c => if c = old then new else c

/-- Line ends become a single newline: a carriage return followed by a newline is dropped. -/
def normalizeLines (s : String) : String :=
  String.ofList (replacePair '\r' '\n' ['\n'] s.toList)

/-! ## Byte offsets -/

/-- Number of bytes of the UTF-8 form. -/
def byteLength : List Char → Nat
  | [] => 0
  | c :: rest => c.utf8Size + byteLength rest

/-- What is left after the first `n` bytes, when they end with a character. -/
def dropBytes? : Nat → List Char → Option (List Char)
  | 0, cs => some cs
  | _ + 1, [] => none
  | n + 1, c :: cs =>
    if c.utf8Size ≤ n + 1 then dropBytes? (n + 1 - c.utf8Size) cs else none

/-- The first `n` bytes, when they end with a character. -/
def takeBytes? : Nat → List Char → Option (List Char)
  | 0, _ => some []
  | _ + 1, [] => none
  | n + 1, c :: cs =>
    if c.utf8Size ≤ n + 1 then (takeBytes? (n + 1 - c.utf8Size) cs).map (c :: ·) else none

/-- The characters between two byte offsets, when both lie between characters and in order. -/
def sliceChars? (cs : List Char) (start stop : Nat) : Option (List Char) :=
  if start ≤ stop then (dropBytes? start cs).bind (takeBytes? (stop - start)) else none

/-- The text between two byte offsets, when both lie between characters and in order. -/
def slice? (s : String) (start stop : Nat) : Option String :=
  (sliceChars? s.toList start stop).map String.ofList

/-! ## Joining -/

/-- The texts one after the other with a separator between. -/
def join (sep : String) (parts : List String) : String :=
  sep.intercalate parts

end CodeAtlas.Text
