import CodeAtlas.Text.Chars
import CodeAtlas.Text.Number

/-!
# Symbol names

Code spells the name of a symbol in many ways: `a::b`, `a->b`, `a?.b`, with type arguments or with
blanks. All of them have one canonical form, the segments of the name joined by dots. Text that is
no plain name has none.
-/

namespace CodeAtlas.Symbol

/-- Two names joined by a dot; an empty name adds nothing. -/
def qualify (outer inner : String) : String :=
  if outer = "" then inner
  else if inner = "" then outer
  else outer ++ "." ++ inner

/-- Drop bracketed type arguments and blanks; `depth` is the number of open brackets. A closing
bracket without an opening one is dropped too. -/
def dropArguments : Nat → List Char → List Char
  | _, [] => []
  | depth, c :: rest =>
    if c = '<' then dropArguments (depth + 1) rest
    else if c = '>' then dropArguments (depth - 1) rest
    else if 0 < depth ∨ Text.isBlank c then dropArguments depth rest
    else c :: dropArguments depth rest

/-- Write all separators as dots and drop type arguments and blanks. -/
def withDots (raw : List Char) : List Char :=
  let arrows := Text.replacePair '-' '>' ['.'] raw
  let chains := Text.replacePair '?' '.' ['.'] arrows
  Text.replacePair ':' ':' ['.'] (dropArguments 0 chains)

/-- A mark that may stand before a name without being part of it. -/
def isSigil (c : Char) : Bool :=
  c == '&' || c == '*' || c == '@'

/-- The characters of which the segments of a name consist. -/
def isNameChar (c : Char) : Bool :=
  Text.isAlphanumeric c || c == '_' || c == '$' || c == '~'

/-- The segments of a symbol's text, after the marks before it. -/
def segments (raw : String) : List (List Char) :=
  let bare := (withDots raw.toList).dropWhile isSigil
  (Text.splitChars (· == '.') bare).filter (!·.isEmpty)

/-- The canonical name of a symbol's text, unless the text is no plain name. The word `super` alone
names nothing. -/
def normalize? (raw : String) : Option String :=
  let found := segments raw
  if found.isEmpty then none
  else if !found.all (·.all isNameChar) then none
  else if found = ["super".toList] then none
  else some (Text.join "." (found.map String.ofList))

end CodeAtlas.Symbol
