import CodeAtlas.Json.Parser
import CodeAtlas.Toml

/-!
# Reading TOML

A document is a sequence of lines: headers, keys with their values, comments and blank lines. The
readers take the characters that are left and give back what they did not use. Values nest less than
80 deep, and a dotted key has less than 80 parts; nested values use up `fuel`, of which the length
of the text is enough.
-/

namespace CodeAtlas.Toml

/-! ## Blanks and comments -/

/-- A blank inside of a line. -/
def isWs (c : Char) : Bool :=
  c == ' ' || c == '\t'

/-- Pass over blanks inside of a line. -/
def skipWs (cs : List Char) : List Char :=
  cs.dropWhile isWs

/-- A character that may stand in a comment or a string as it is. -/
def isPlain (c : Char) : Bool :=
  c == '\t' || (0x20 ≤ c.toNat && c != '\x7f')

/-- Pass over a line end. -/
def newline? : List Char → Option (List Char)
  | '\n' :: rest => some rest
  | '\r' :: '\n' :: rest => some rest
  | _ => none

/-- Pass over a comment, which ends before the line end. -/
def skipComment : List Char → List Char
  | '#' :: rest => rest.dropWhile isPlain
  | cs => cs

/-- Pass over the rest of a line: blanks, a comment and the line end. -/
def endLine? (cs : List Char) : Option (List Char) :=
  match skipComment (skipWs cs) with
  | [] => some []
  | rest => newline? rest

/-- Pass over blanks, line ends and comments. -/
def skipLines : Nat → List Char → List Char
  | 0, cs => cs
  | fuel + 1, cs =>
    let rest := skipComment (skipWs cs)
    match newline? rest with
    | some rest => skipLines fuel rest
    | none => rest

/-! ## Strings -/

/-- The number that some hexadecimal digits stand for. -/
def hexNumber? (digits : List Char) : Option Nat :=
  digits.foldlM (fun n c => (Json.hexValue? c).map (16 * n + ·)) 0

/-- The character with a code that is written in hexadecimal digits. -/
def hexChar? (digits : List Char) : Option Char :=
  (hexNumber? digits).bind fun code =>
    if code.isValidChar then some (Char.ofNat code) else none

/-- The character that a one-letter escape stands for. -/
def letterEscape? (c : Char) : Option Char :=
  if c = 'b' then some '\x08'
  else if c = 't' then some '\t'
  else if c = 'n' then some '\n'
  else if c = 'f' then some '\x0c'
  else if c = 'r' then some '\r'
  else if c = '"' ∨ c = '\\' then some c
  else none

/-- The character of an escape, after its backslash. -/
def readEscape : List Char → Option (Char × List Char)
  | 'u' :: a :: b :: c :: d :: rest => (hexChar? [a, b, c, d]).map (·, rest)
  | 'U' :: a :: b :: c :: d :: e :: f :: g :: h :: rest =>
    (hexChar? [a, b, c, d, e, f, g, h]).map (·, rest)
  | c :: rest => (letterEscape? c).map (·, rest)
  | [] => none

/-- The characters of a string on one line up to its closing quote, after the opening one. -/
def readBasic : Nat → List Char → Option (List Char × List Char)
  | 0, _ => none
  | _, [] => none
  | _ + 1, '"' :: rest => some ([], rest)
  | fuel + 1, '\\' :: rest =>
    match readEscape rest with
    | some (c, rest) => (readBasic fuel rest).map fun (cs, rest) => (c :: cs, rest)
    | none => none
  | fuel + 1, c :: rest =>
    if isPlain c then (readBasic fuel rest).map fun (cs, rest) => (c :: cs, rest) else none

/-- The characters of a string without escapes on one line, after the opening quote. -/
def readLiteral : List Char → Option (List Char × List Char)
  | [] => none
  | c :: rest =>
    if c = '\'' then some ([], rest)
    else if isPlain c then (readLiteral rest).map fun (cs, rest) => (c :: cs, rest)
    else none

/-- A run of quotes inside of a string on several lines. Less than three belong to the string; of
more, at most two do, and three close it. -/
def closingRun (quote : Char) (cs : List Char) : List Char × Option (List Char) :=
  let count := (cs.takeWhile (· == quote)).length
  if count < 3 then
    (List.replicate count quote, none)
  else
    let inner := min (count - 3) 2
    (List.replicate inner quote, some (cs.drop (inner + 3)))

/-- Pass over blanks and line ends. -/
def skipBlankLines : List Char → List Char
  | ' ' :: rest => skipBlankLines rest
  | '\t' :: rest => skipBlankLines rest
  | '\n' :: rest => skipBlankLines rest
  | '\r' :: '\n' :: rest => skipBlankLines rest
  | cs => cs

/-- Pass over a folded line end: a backslash at the end of a line, which is read already, and all
blanks and line ends after it. -/
def skipFold? (cs : List Char) : Option (List Char) :=
  (newline? (skipWs cs)).map skipBlankLines

/-- The characters of a string on several lines up to its closing quotes. Line ends become newlines;
escapes are read if `escapes` is set. -/
def readLong (quote : Char) (escapes : Bool) : Nat → List Char → Option (List Char × List Char)
  | 0, _ => none
  | _, [] => none
  | fuel + 1, c :: rest =>
    if c = quote then
      match closingRun quote (c :: rest) with
      | (quotes, some rest) => some (quotes, rest)
      | (quotes, none) =>
        (readLong quote escapes fuel ((c :: rest).drop quotes.length)).map
          fun (cs, rest) => (quotes ++ cs, rest)
    else if escapes ∧ c = '\\' then
      match skipFold? rest with
      | some rest => readLong quote escapes fuel rest
      | none =>
        match readEscape rest with
        | some (c, rest) => (readLong quote escapes fuel rest).map fun (cs, rest) => (c :: cs, rest)
        | none => none
    else
      match newline? (c :: rest) with
      | some rest => (readLong quote escapes fuel rest).map fun (cs, rest) => ('\n' :: cs, rest)
      | none =>
        if isPlain c then
          (readLong quote escapes fuel rest).map fun (cs, rest) => (c :: cs, rest)
        else
          none

/-- A string on several lines, after its opening quotes; a line end right after them is dropped. -/
def readLongBody (quote : Char) (escapes : Bool) (cs : List Char) :
    Option (List Char × List Char) :=
  readLong quote escapes (cs.length + 1) ((newline? cs).getD cs)

/-- A string, if one begins here. -/
def readString? : List Char → Option (Option (String × List Char))
  | '"' :: '"' :: '"' :: rest => some (named (readLongBody '"' true rest))
  | '"' :: rest => some (named (readBasic (rest.length + 1) rest))
  | '\'' :: '\'' :: '\'' :: rest => some (named (readLongBody '\'' false rest))
  | '\'' :: rest => some (named (readLiteral rest))
  | _ => none
where
  /-- The text of the characters that were read. -/
  named (found : Option (List Char × List Char)) : Option (String × List Char) :=
    found.map fun (cs, rest) => (String.ofList cs, rest)

/-! ## Keys -/

/-- One part of a key. -/
def readKeyPart : List Char → Option (String × List Char)
  | '"' :: rest =>
    (readBasic (rest.length + 1) rest).map fun (cs, rest) => (String.ofList cs, rest)
  | '\'' :: rest => (readLiteral rest).map fun (cs, rest) => (String.ofList cs, rest)
  | cs =>
    let name := cs.takeWhile isKeyChar
    if name.isEmpty then none else some (String.ofList name, cs.dropWhile isKeyChar)

/-- The parts of a key between dots, with blanks around each. -/
def readKeyParts : Nat → List Char → Option (List String × List Char)
  | 0, _ => none
  | fuel + 1, cs =>
    match readKeyPart (skipWs cs) with
    | none => none
    | some (part, rest) =>
      match skipWs rest with
      | '.' :: rest =>
        (readKeyParts fuel rest).map fun (parts, rest) => (part :: parts, rest)
      | rest => some ([part], rest)

/-- The greatest number of parts of a key, and of values inside of each other, plus one. -/
def depthLimit : Nat := 80

/-- A key: its parts but the last, its last part, and the rest. -/
def readKey (cs : List Char) : Option ((List String × String) × List Char) :=
  match readKeyParts (cs.length + 1) cs with
  | none => none
  | some (parts, rest) =>
    if depthLimit ≤ parts.length then none
    else parts.getLast?.map fun key => ((parts.dropLast, key), rest)

/-! ## Numbers and dates -/

/-- The digits at the beginning, with single underscores between them. The underscores are left
out. -/
def readGrouped (isDigit : Char → Bool) : List Char → Option (List Char × List Char)
  | [] => none
  | c :: rest => if isDigit c then some (more [c] rest) else none
where
  /-- Further digits, each of which may follow an underscore; those read are given last first. -/
  more (read : List Char) : List Char → List Char × List Char
    | '_' :: c :: rest =>
      if isDigit c then more (c :: read) rest else (read.reverse, '_' :: c :: rest)
    | c :: rest => if isDigit c then more (c :: read) rest else (read.reverse, c :: rest)
    | [] => (read.reverse, [])

/-- The whole part of a decimal number: zero, or digits that do not start with it. -/
def readDecimal : List Char → Option (List Char × List Char)
  | '0' :: rest => some (['0'], rest)
  | cs => readGrouped Char.isDigit cs

/-- The value of digits in a base. -/
def valueOf (base : Nat) (digits : List Char) : Nat :=
  digits.foldl (fun n c => base * n + (Json.hexValue? c).getD 0) 0

/-- An integer, when it fits into 64 bits with a sign. -/
def ofInt? (value : Int) : Option Toml :=
  if -0x8000000000000000 ≤ value ∧ value < 0x8000000000000000 then some (.integer value) else none

/-- A sign, which may be absent, and the rest; the truth value tells whether it is a minus. -/
def readSign : List Char → Bool × List Char
  | '+' :: rest => (false, rest)
  | '-' :: rest => (true, rest)
  | cs => (false, cs)

/-- An integer in a base that is a power of two. -/
def readBased (base : Nat) (cs : List Char) : Option (Toml × List Char) :=
  let isDigit (c : Char) : Bool := ((Json.hexValue? c).map fun n => decide (n < base)).getD false
  match readGrouped isDigit cs with
  | none => none
  | some (digits, rest) => (ofInt? (valueOf base digits)).map (·, rest)

/-- An integer. -/
def readInteger : List Char → Option (Toml × List Char)
  | '0' :: 'x' :: rest => readBased 16 rest
  | '0' :: 'o' :: rest => readBased 8 rest
  | '0' :: 'b' :: rest => readBased 2 rest
  | cs =>
    let (negative, rest) := readSign cs
    match readDecimal rest with
    | none => none
    | some (digits, rest) =>
      let value : Int := valueOf 10 digits
      (ofInt? (if negative then -value else value)).map (·, rest)

/-- The digits of a fraction, after the point. -/
def readFraction : List Char → Option (List Char × List Char)
  | '.' :: rest => readGrouped Char.isDigit rest
  | _ => none

/-- An exponent. -/
def readExponent : List Char → Option (Int × List Char)
  | c :: rest =>
    if c = 'e' ∨ c = 'E' then
      let (negative, rest) := readSign rest
      (readGrouped Char.isDigit rest).map fun (digits, rest) =>
        let value : Int := valueOf 10 digits
        (if negative then -value else value, rest)
    else
      none
  | [] => none

/-- The least number that is too large for a float of 64 bits: the greatest one plus half of its
last place. -/
def floatBound : Nat := Nat.pow 2 1024 - Nat.pow 2 970

/-- The decimal number `digits · 10 ^ exponent` is too large for a float of 64 bits. -/
def exceedsFloat (digits : List Char) (exponent : Int) : Bool :=
  let digits := digits.dropWhile (· == '0')
  let magnitude := (digits.length : Int) + exponent
  if digits.isEmpty ∨ magnitude < 300 then false
  else if 320 < magnitude then true
  else if 0 ≤ exponent then floatBound ≤ valueOf 10 digits * Nat.pow 10 exponent.toNat
  else floatBound * Nat.pow 10 (-exponent).toNat ≤ valueOf 10 digits

/-- A number with a fraction or an exponent. A positive one must not be too large. -/
def readFloat (cs : List Char) : Option (Option (Toml × List Char)) :=
  let (negative, rest) := readSign cs
  match readDecimal rest with
  | none => none
  | some (whole, rest) =>
    let fraction := readFraction rest
    let rest := (fraction.map (·.2)).getD rest
    let exponent := readExponent rest
    let rest := (exponent.map (·.2)).getD rest
    if fraction.isNone ∧ exponent.isNone then none
    else
      let places := (fraction.map (·.1)).getD []
      let scale := (exponent.map (·.1)).getD 0 - places.length
      if !negative && exceedsFloat (whole ++ places) scale then some none
      else some (some (.float (String.ofList (cs.take (cs.length - rest.length))), rest))

/-- One of the words for a number that is not finite, after its sign. -/
def readNotFinite (cs : List Char) : Option (Toml × List Char) :=
  match (readSign cs).2 with
  | 'i' :: 'n' :: 'f' :: rest => some (.float "inf", rest)
  | 'n' :: 'a' :: 'n' :: rest => some (.float "nan", rest)
  | _ => none

/-- A number of exactly `count` digits between two bounds. -/
def readField (count low high : Nat) (cs : List Char) : Option (Nat × List Char) :=
  let digits := cs.take count
  let value := valueOf 10 digits
  if digits.length = count ∧ digits.all Char.isDigit ∧ low ≤ value ∧ value ≤ high then
    some (value, cs.drop count)
  else
    none

/-- A given character. -/
def expect (c : Char) : List Char → Option (List Char)
  | d :: rest => if d = c then some rest else none
  | [] => none

/-- The number of days of a month. -/
def daysIn (year month : Nat) : Nat :=
  if month = 2 then
    if year % 4 = 0 ∧ (year % 100 ≠ 0 ∨ year % 400 = 0) then 29 else 28
  else if month = 4 ∨ month = 6 ∨ month = 9 ∨ month = 11 then 30
  else 31

/-- Pass over a date. -/
def skipDate? (cs : List Char) : Option (List Char) := do
  let (year, cs) ← readField 4 0 9999 cs
  let cs ← expect '-' cs
  let (month, cs) ← readField 2 1 12 cs
  let cs ← expect '-' cs
  let (_, cs) ← readField 2 1 (daysIn year month) cs
  return cs

/-- Pass over a fraction of a second, which may be absent. -/
def skipSecondFraction : List Char → List Char
  | '.' :: c :: rest => if c.isDigit then rest.dropWhile Char.isDigit else '.' :: c :: rest
  | cs => cs

/-- Pass over a time of day. -/
def skipTime? (cs : List Char) : Option (List Char) := do
  let (_, cs) ← readField 2 0 23 cs
  let cs ← expect ':' cs
  let (_, cs) ← readField 2 0 59 cs
  let cs ← expect ':' cs
  let (_, cs) ← readField 2 0 60 cs
  return skipSecondFraction cs

/-- Pass over the distance to universal time, which may be absent. -/
def skipOffset? : List Char → Option (List Char)
  | [] => some []
  | c :: rest =>
    if c = 'Z' ∨ c = 'z' then some rest
    else if c = '+' ∨ c = '-' then do
      let (_, cs) ← readField 2 0 23 rest
      let cs ← expect ':' cs
      let (_, cs) ← readField 2 0 59 cs
      return cs
    else some (c :: rest)

/-- Pass over a time of day after a date, which may be absent. -/
def skipTimeAfterDate? : List Char → Option (List Char)
  | [] => some []
  | c :: rest =>
    if c = 'T' ∨ c = 't' ∨ c = ' ' then
      match skipTime? rest with
      | some rest => skipOffset? rest
      | none => some (c :: rest)
    else
      some (c :: rest)

/-- A date, a time, or both. -/
def readDatetime (cs : List Char) : Option (Toml × List Char) := do
  let rest ←
    match skipDate? cs with
    | some rest => skipTimeAfterDate? rest
    | none => skipTime? cs
  return (.datetime (String.ofList (cs.take (cs.length - rest.length))), rest)

/-- A number or a date. -/
def readNumber (cs : List Char) : Option (Toml × List Char) :=
  match readDatetime cs with
  | some found => some found
  | none =>
    match readFloat cs with
    | some found => found
    | none => (readNotFinite cs).or (readInteger cs)

/-! ## Values -/

mutual

/-- A value inside of `depth` others. -/
def readValue (depth : Nat) : Nat → List Char → Option (Toml × List Char)
  | 0, _ => none
  | fuel + 1, cs =>
    match readString? cs with
    | some found => found.map fun (text, rest) => (.string text, rest)
    | none =>
      match cs with
      | '[' :: rest =>
        if depthLimit ≤ depth + 1 then none
        else (readItems (depth + 1) fuel rest).map fun (items, rest) => (.array items, rest)
      | '\x7b' :: rest =>
        if depthLimit ≤ depth + 1 then none
        else
          match skipWs rest with
          | '\x7d' :: rest => some (.table .inline [], rest)
          | rest => readMembers (depth + 1) [] fuel rest
      | 't' :: 'r' :: 'u' :: 'e' :: rest => some (.boolean true, rest)
      | 'f' :: 'a' :: 'l' :: 's' :: 'e' :: rest => some (.boolean false, rest)
      | cs => readNumber cs

/-- The items of an array and its closing bracket; a comma may follow the last. -/
def readItems (depth : Nat) : Nat → List Char → Option (List Toml × List Char)
  | 0, _ => none
  | fuel + 1, cs =>
    match skipLines cs.length cs with
    | ']' :: rest => some ([], rest)
    | cs =>
      match readValue depth fuel cs with
      | none => none
      | some (item, rest) =>
        match skipLines rest.length rest with
        | ',' :: rest => (readItems depth fuel rest).map fun (items, rest) => (item :: items, rest)
        | ']' :: rest => some ([item], rest)
        | _ => none

/-- The members of an inline table, of which there is at least one, and its closing brace. -/
def readMembers (depth : Nat) (entries : Entries) : Nat → List Char → Option (Toml × List Char)
  | 0, _ => none
  | fuel + 1, cs =>
    match readKey cs with
    | some ((path, key), '=' :: rest) =>
      match readValue depth fuel (skipWs rest) with
      | none => none
      | some (value, rest) =>
        match addKey path key value entries with
        | none => none
        | some entries =>
          match skipWs rest with
          | ',' :: rest => readMembers depth entries fuel rest
          | '\x7d' :: rest => some (.table .inline entries, rest)
          | _ => none
    | _ => none

end

/-! ## Documents -/

/-- What has been read of a document: its entries, and the header under which keys are added. -/
structure Reading where
  entries : Entries
  header : List String
deriving Repr, Inhabited

/-- A header up to the end of its line. -/
def readHeader (reading : Reading) : List Char → Option (Reading × List Char)
  | '[' :: '[' :: rest =>
    match readKey rest with
    | some ((path, key), ']' :: ']' :: rest) => do
      let entries ← openElement path key reading.entries
      return (⟨entries, path ++ [key]⟩, ← endLine? rest)
    | _ => none
  | '[' :: rest =>
    match readKey rest with
    | some ((path, key), ']' :: rest) => do
      let entries ← openTable path key reading.entries
      return (⟨entries, path ++ [key]⟩, ← endLine? rest)
    | _ => none
  | _ => none

/-- A key with its value up to the end of the line. -/
def readEntry (reading : Reading) (cs : List Char) : Option (Reading × List Char) :=
  match readKey cs with
  | some ((path, key), '=' :: rest) => do
    let (value, rest) ← readValue 0 (rest.length + 1) (skipWs rest)
    let rest ← endLine? rest
    let entries ← followHeader (addKey path key value) reading.header reading.entries
    return (⟨entries, reading.header⟩, rest)
  | _ => none

/-- The lines of a document. -/
def readLines : Nat → Reading → List Char → Option Entries
  | 0, _, _ => none
  | fuel + 1, reading, cs =>
    match skipWs cs with
    | [] => some reading.entries
    | '[' :: rest =>
      match readHeader reading ('[' :: rest) with
      | some (reading, rest) => readLines fuel reading rest
      | none => none
    | c :: rest =>
      if c = '#' ∨ c = '\n' ∨ c = '\r' then
        match endLine? (c :: rest) with
        | some rest => readLines fuel reading rest
        | none => none
      else
        match readEntry reading (c :: rest) with
        | some (reading, rest) => readLines fuel reading rest
        | none => none

/-- The entries of a document, if the text is TOML. A byte order mark at the beginning is passed
over. -/
def parse? (s : String) : Option Entries :=
  let cs :=
    match s.toList with
    | '\ufeff' :: rest => rest
    | cs => cs
  readLines (cs.length + 1) ⟨[], []⟩ cs

end CodeAtlas.Toml
