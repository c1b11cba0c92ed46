import CodeAtlas.Text.Chars
import CodeAtlas.Toml

/-!
# Writing TOML

A string is written in the plainest of four forms that holds it without escapes: on one line or on
several, in double quotes or in single quotes. If none does, it is written with escapes. A document
is written section by section, with a blank line between two of them.
-/

namespace CodeAtlas.Toml

/-- A control character that no form without escapes can hold. -/
def isControl (c : Char) : Bool :=
  (c.toNat < 0x20 && c != '\t' && c != '\n') || c == '\x7f'

/-- The longest run of one character. -/
def longestRun (c : Char) : List Char → Nat :=
  go 0 0
where
  /-- `current` is the run that ends here, `longest` the longest one so far. -/
  go (current longest : Nat) : List Char → Nat
    | [] => longest
    | d :: rest =>
      if d = c then go (current + 1) (max longest (current + 1)) rest else go 0 longest rest

/-- A way of writing a string. -/
structure StringForm where
  /-- Single quotes hold no escapes. -/
  isLiteral : Bool
  /-- Three quotes hold line ends. -/
  isLong : Bool
deriving DecidableEq, Repr, Inhabited

namespace StringForm

/-- The quotes at both ends. -/
def quotes (form : StringForm) : List Char :=
  List.replicate (if form.isLong then 3 else 1) (if form.isLiteral then '\'' else '"')

/-- The form holds the characters without escapes. -/
def holds (form : StringForm) (cs : List Char) : Bool :=
  !cs.any isControl
  && (form.isLong || !cs.contains '\n')
  && (form.isLiteral || !cs.contains '\\')
  && decide (longestRun (if form.isLiteral then '\'' else '"') cs < if form.isLong then 3 else 1)

/-- The forms from the plainest on. -/
def all : List StringForm :=
  [⟨false, false⟩, ⟨true, false⟩, ⟨false, true⟩, ⟨true, true⟩]

/-- The form in which some characters are written. -/
def choose (cs : List Char) : StringForm :=
  (all.find? (·.holds cs)).getD ⟨false, cs.contains '\n'⟩

end StringForm

/-- An uppercase hexadecimal digit. -/
def hexDigit (n : Nat) : Char :=
  Char.ofNat (if n < 10 then 48 + n else 55 + n)

/-- The escape of a character, if it has to be escaped whatever is around it. -/
def escape? (c : Char) : Option (List Char) :=
  if c = '\x08' then some ['\\', 'b']
  else if c = '\t' then some ['\\', 't']
  else if c = '\x0c' then some ['\\', 'f']
  else if c = '\r' then some ['\\', 'r']
  else if c = '\\' then some ['\\', '\\']
  else if c ≠ '\n' ∧ isControl c then
    some ['\\', 'u', '0', '0', hexDigit (c.toNat / 16), hexDigit (c.toNat % 16)]
  else none

/-- The characters between double quotes. On several lines a newline stays, and of a run of quotes
every third is escaped; `run` counts those before it that were not. -/
def escapeAll (isLong : Bool) (run : Nat) : List Char → List Char
  | [] => []
  | c :: rest =>
    if c = '"' then
      if isLong ∧ run < 2 then '"' :: escapeAll isLong (run + 1) rest
      else '\\' :: '"' :: escapeAll isLong 0 rest
    else if c = '\n' ∧ !isLong then '\\' :: 'n' :: escapeAll isLong 0 rest
    else (escape? c).getD [c] ++ escapeAll isLong 0 rest

/-- A string. In a form on several lines, one with a newline in it starts on a line of its own. -/
def quote (s : String) : String :=
  let cs := s.toList
  let form := StringForm.choose cs
  let lead : List Char := if form.isLong && cs.contains '\n' then ['\n'] else []
  let body := if form.isLiteral then cs else escapeAll form.isLong 0 cs
  String.ofList (form.quotes ++ lead ++ body ++ form.quotes)

/-- A key, in quotes if it does not go without. -/
def renderKey (key : String) : String :=
  let cs := key.toList
  if !cs.isEmpty && cs.all isKeyChar then key
  else String.ofList (['"'] ++ escapeAll false 0 cs ++ ['"'])

/-- The texts of the items of an array: none or one on the same line, more on a line each. -/
def bracketed (items : List String) : String :=
  match items with
  | [] => "[]"
  | [item] => "[" ++ item ++ "]"
  | items => "[\n" ++ String.join (items.map fun item => "    " ++ item ++ ",\n") ++ "]"

mutual

/-- A value on the right of an equals sign. -/
def render : Toml → String
  | .string text => quote text
  | .integer value => toString value
  | .float literal => literal
  | .boolean value => if value then "true" else "false"
  | .datetime literal => literal
  | .array items => bracketed (renderItems items)
  | .table _ entries => renderInline entries
  | .tables elements => bracketed (renderElements elements)

/-- The values of a list. -/
def renderItems : List Toml → List String
  | [] => []
  | item :: rest => render item :: renderItems rest

/-- The keys of an inline table with their values. -/
def renderEntries : List (String × Toml) → List String
  | [] => []
  | (key, value) :: rest => (renderKey key ++ " = " ++ render value) :: renderEntries rest

/-- An inline table. -/
def renderInline : List (String × Toml) → String
  | [] => "\x7b\x7d"
  | entry :: rest =>
    "\x7b " ++ Text.join ", " (renderEntries (entry :: rest)) ++ " \x7d"

/-- The elements of a list of tables. -/
def renderElements : List (List (String × Toml)) → List String
  | [] => []
  | entries :: rest => renderInline entries :: renderElements rest

end

/-- A section: its header and a line for each of its keys. -/
def renderSection (name : String) (entries : Entries) : String :=
  "[" ++ renderKey name ++ "]\n"
    ++ String.join (entries.map fun (key, value) => renderKey key ++ " = " ++ render value ++ "\n")

/-- A document of sections. -/
def renderSections (sections : List (String × Entries)) : String :=
  Text.join "\n" (sections.map fun (name, entries) => renderSection name entries)

end CodeAtlas.Toml
