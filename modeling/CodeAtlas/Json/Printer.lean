import CodeAtlas.Digest.Sha256
import CodeAtlas.Json
import CodeAtlas.Text.Chars
import CodeAtlas.Text.Sorted

/-!
# Writing JSON

Two layouts: on one line without blanks, and with one item per line, indented by two spaces, where
an empty array or object stays on its line. Characters beyond ASCII are written as they are; only
quotes, backslashes and controls are escaped.
-/

namespace CodeAtlas.Json

/-- The escape of a character, if it has to be escaped. -/
def escape? (c : Char) : Option (List Char) :=
  if c = '"' then some ['\\', '"']
  else if c = '\\' then some ['\\', '\\']
  else if c = '\n' then some ['\\', 'n']
  else if c = '\r' then some ['\\', 'r']
  else if c = '\t' then some ['\\', 't']
  else if c = '\x08' then some ['\\', 'b']
  else if c = '\x0c' then some ['\\', 'f']
  else if c.toNat < 0x20 then
    some ['\\', 'u', '0', '0', Digest.Sha256.hexDigit (c.toNat / 16),
      Digest.Sha256.hexDigit (c.toNat % 16)]
  else none

/-- A text in quotes. -/
def quote (s : String) : String :=
  "\"" ++ String.ofList (s.toList.flatMap fun c => (escape? c).getD [c]) ++ "\""

mutual

/-- The value on one line. -/
def compact : Json → String
  | .null => "null"
  | .bool b => if b then "true" else "false"
  | .number literal => literal
  | .string s => quote s
  | .unpairedString => "null"
  | .array items => "[" ++ Text.join "," (compactItems items) ++ "]"
  | .object members => "\x7b" ++ Text.join "," (compactMembers members) ++ "\x7d"

/-- The items, each on one line. -/
def compactItems : List Json → List String
  | [] => []
  | item :: rest => compact item :: compactItems rest

/-- The members, each on one line. -/
def compactMembers : List (String × Json) → List String
  | [] => []
  | (name, value) :: rest => (quote name ++ ":" ++ compact value) :: compactMembers rest

end

/-- Lines at a depth of indentation between brackets. -/
def bracketed (opening closing : String) (depth : Nat) (lines : List String) : String :=
  let indent (n : Nat) : String := "\n" ++ String.ofList (List.replicate (2 * n) ' ')
  if lines.isEmpty then opening ++ closing
  else
    opening ++ Text.join "," (lines.map fun line => indent (depth + 1) ++ line)
      ++ indent depth ++ closing

mutual

/-- The value with one item per line, inside of `depth` brackets. -/
def prettyAt (depth : Nat) : Json → String
  | .array items => bracketed "[" "]" depth (prettyItems (depth + 1) items)
  | .object members => bracketed "\x7b" "\x7d" depth (prettyMembers (depth + 1) members)
  | .null => "null"
  | .bool b => if b then "true" else "false"
  | .number literal => literal
  | .string s => quote s
  | .unpairedString => "null"

/-- The items inside of `depth` brackets. -/
def prettyItems (depth : Nat) : List Json → List String
  | [] => []
  | item :: rest => prettyAt depth item :: prettyItems depth rest

/-- The members inside of `depth` brackets. -/
def prettyMembers (depth : Nat) : List (String × Json) → List String
  | [] => []
  | (name, value) :: rest =>
    (quote name ++ ": " ++ prettyAt depth value) :: prettyMembers depth rest

end

/-- The value with one item per line. -/
def pretty (value : Json) : String :=
  prettyAt 0 value

mutual

/-- The value with the members of all its objects sorted by name; of repeated ones the last
counts. -/
def sortMembers : Json → Json
  | .array items => .array (sortItems items)
  | .object members =>
    let sorted := sortEach members
    .object ((Text.sortedSet (sorted.map (·.1))).filterMap fun name =>
      sorted.reverse.find? (·.1 == name))
  | value => value

/-- The items with the members of all their objects sorted. -/
def sortItems : List Json → List Json
  | [] => []
  | item :: rest => sortMembers item :: sortItems rest

/-- The members in their order, with the members of all objects in their values sorted. -/
def sortEach : List (String × Json) → List (String × Json)
  | [] => []
  | (name, value) :: rest => (name, sortMembers value) :: sortEach rest

end

end CodeAtlas.Json
