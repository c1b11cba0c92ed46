import CodeAtlas.Json

/-!
# Reading JSON

A text is read as one value between blanks. Blanks are spaces, tabs and line ends; strings hold no
raw controls; numbers have no leading zeros. The readers take the characters that are left and give
back what they did not use; nested values use up `fuel`, of which the length of the text is enough.
-/

namespace CodeAtlas.Json

/-- A blank between the tokens of JSON. -/
def isSpace (c : Char) : Bool :=
  c == ' ' || c == '\n' || c == '\t' || c == '\r'

/-- Pass over blanks. -/
def skipSpace (cs : List Char) : List Char :=
  cs.dropWhile isSpace

/-- The value of a hexadecimal digit. -/
def hexValue? (c : Char) : Option Nat :=
  if '0' ≤ c ∧ c ≤ '9' then some (c.toNat - 48)
  else if 'a' ≤ c ∧ c ≤ 'f' then some (c.toNat - 87)
  else if 'A' ≤ c ∧ c ≤ 'F' then some (c.toNat - 55)
  else none

/-- A unit of a string: a character, or the half of a surrogate pair. -/
inductive StringUnit where
  | char (c : Char)
  | half (code : Nat)
deriving DecidableEq, Repr, Inhabited

/-- The unit of a four-digit escape. -/
def unitOfCode (code : Nat) : StringUnit :=
  if 0xd800 ≤ code ∧ code < 0xe000 then .half code else .char (Char.ofNat code)

/-- Join surrogate halves to characters; there is no text if one has no partner. -/
def textOfUnits : List StringUnit → Option (List Char)
  | [] => some []
  | .char c :: rest => (textOfUnits rest).map (c :: ·)
  | .half high :: .half low :: rest =>
    if high < 0xdc00 ∧ 0xdc00 ≤ low then
      (textOfUnits rest).map (Char.ofNat (0x10000 + (high - 0xd800) * 0x400 + (low - 0xdc00)) :: ·)
    else
      none
  | .half _ :: _ => none

/-- The character a one-letter escape stands for. -/
def shortEscape? (c : Char) : Option Char :=
  if c = '"' ∨ c = '\\' ∨ c = '/' then some c
  else if c = 'b' then some '\x08'
  else if c = 'f' then some '\x0c'
  else if c = 'n' then some '\n'
  else if c = 'r' then some '\r'
  else if c = 't' then some '\t'
  else none

/-- Read the units of a string up to its closing quote; `units` holds those read, the last first. -/
def readUnits (units : List StringUnit) : List Char → Option (List StringUnit × List Char)
  | [] => none
  | '"' :: rest => some (units.reverse, rest)
  | '\\' :: 'u' :: a :: b :: c :: d :: rest =>
    match hexValue? a, hexValue? b, hexValue? c, hexValue? d with
    | some a, some b, some c, some d =>
      readUnits (unitOfCode (((a * 16 + b) * 16 + c) * 16 + d) :: units) rest
    | _, _, _, _ => none
  | '\\' :: c :: rest =>
    match shortEscape? c with
    | some c => readUnits (.char c :: units) rest
    | none => none
  | c :: rest =>
    if c.toNat < 0x20 ∨ c = '\\' then none else readUnits (.char c :: units) rest

/-- The string of some units. -/
def ofUnits (units : List StringUnit) : Json :=
  match textOfUnits units with
  | some cs => .string (String.ofList cs)
  | none => .unpairedString

/-- The digits at the beginning, of which there must be one. -/
def readDigits (cs : List Char) : Option (List Char × List Char) :=
  let digits := cs.takeWhile Char.isDigit
  if digits.isEmpty then none else some (digits, cs.dropWhile Char.isDigit)

/-- The whole part of a number: zero, or digits that do not start with it. -/
def readWhole : List Char → Option (List Char × List Char)
  | '0' :: rest => some (['0'], rest)
  | cs => readDigits cs

/-- The fraction of a number, which may be absent. -/
def readFraction : List Char → Option (List Char × List Char)
  | '.' :: rest => (readDigits rest).map fun (digits, rest) => ('.' :: digits, rest)
  | cs => some ([], cs)

/-- The sign of an exponent, which may be absent. -/
def readSign : List Char → List Char × List Char
  | '+' :: rest => (['+'], rest)
  | '-' :: rest => (['-'], rest)
  | cs => ([], cs)

/-- The exponent of a number, which may be absent. -/
def readExponent : List Char → Option (List Char × List Char)
  | [] => some ([], [])
  | c :: rest =>
    if c = 'e' ∨ c = 'E' then
      let (sign, rest) := readSign rest
      (readDigits rest).map fun (digits, rest) => (c :: sign ++ digits, rest)
    else
      some ([], c :: rest)

/-- A number without its sign. -/
def readMagnitude (cs : List Char) : Option (List Char × List Char) := do
  let (whole, cs) ← readWhole cs
  let (fraction, cs) ← readFraction cs
  let (exponent, cs) ← readExponent cs
  -- A digit after a leading zero is not part of any number.
  if (cs.head?.map Char.isDigit).getD false then none else
  return (whole ++ fraction ++ exponent, cs)

/-- A number. -/
def readNumber : List Char → Option (Json × List Char)
  | '-' :: rest =>
    (readMagnitude rest).map fun (literal, rest) => (.number (String.ofList ('-' :: literal)), rest)
  | cs => (readMagnitude cs).map fun (literal, rest) => (.number (String.ofList literal), rest)

/-- A word that stands for a value. -/
def readWord (word : String) (value : Json) (cs : List Char) : Option (Json × List Char) :=
  (word.toList.isPrefixOf? cs).map fun rest => (value, rest)

mutual

/-- A value, after blanks. -/
def readValue : Nat → List Char → Option (Json × List Char)
  | 0, _ => none
  | fuel + 1, cs =>
    match skipSpace cs with
    | [] => none
    | '"' :: rest => (readUnits [] rest).map fun (units, rest) => (ofUnits units, rest)
    | '[' :: rest =>
      match skipSpace rest with
      | ']' :: rest => some (.array [], rest)
      | rest => (readItems fuel rest).map fun (items, rest) => (.array items, rest)
    | '\x7b' :: rest =>
      match skipSpace rest with
      | '\x7d' :: rest => some (.object [], rest)
      | rest => (readMembers fuel rest).map fun (members, rest) => (.object members, rest)
    | 't' :: rest => readWord "rue" (.bool true) rest
    | 'f' :: rest => readWord "alse" (.bool false) rest
    | 'n' :: rest => readWord "ull" .null rest
    | cs => readNumber cs

/-- The items of an array, of which there is at least one, and the closing bracket. -/
def readItems : Nat → List Char → Option (List Json × List Char)
  | 0, _ => none
  | fuel + 1, cs =>
    match readValue fuel cs with
    | none => none
    | some (item, rest) =>
      match skipSpace rest with
      | ',' :: rest => (readItems fuel rest).map fun (items, rest) => (item :: items, rest)
      | ']' :: rest => some ([item], rest)
      | _ => none

/-- The members of an object, of which there is at least one, and the closing brace. -/
def readMembers : Nat → List Char → Option (List (String × Json) × List Char)
  | 0, _ => none
  | fuel + 1, cs =>
    match skipSpace cs with
    | '"' :: rest =>
      match readUnits [] rest with
      | none => none
      | some (units, rest) =>
        match textOfUnits units, skipSpace rest with
        | some name, ':' :: rest =>
          match readValue fuel rest with
          | none => none
          | some (value, rest) =>
            let entry := (String.ofList name, value)
            match skipSpace rest with
            | ',' :: rest =>
              (readMembers fuel rest).map fun (members, rest) => (entry :: members, rest)
            | '\x7d' :: rest => some ([entry], rest)
            | _ => none
        | _, _ => none
    | _ => none

end

/-- The value of a text, if the text is JSON. -/
def parse? (s : String) : Option Json :=
  match readValue (s.length + 1) s.toList with
  | some (value, rest) => if (skipSpace rest).isEmpty then some value else none
  | none => none

end CodeAtlas.Json
