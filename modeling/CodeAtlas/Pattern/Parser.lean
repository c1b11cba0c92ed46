import CodeAtlas.Pattern
import CodeAtlas.Pattern.Property

/-!
# Reading patterns

The notation of regular patterns: literals, classes with set operations, groups, alternatives,
repetitions, assertions, escapes, and flags that hold up to the end of their group. A text that does
not follow the notation, nests too deeply or describes too large a pattern is refused.

The readers work on a cursor that holds what is left of the text, the flags in force, and the names
of the groups seen so far. Nested readers use up `fuel`, of which the length of the text is enough.
-/

namespace CodeAtlas.Pattern

/-! ## The cursor -/

/-- The flags in force. -/
structure Flags where
  /-- Letters match in either case. -/
  caseless : Bool := false
  /-- Line assertions hold at every line. -/
  multiline : Bool := false
  /-- The dot also matches line ends. -/
  dotAll : Bool := false
  /-- Carriage returns count as line ends. -/
  anyLineEnd : Bool := false
  /-- Classes and boundaries follow Unicode. -/
  unicode : Bool := true
  /-- Blanks and comments are passed over. -/
  verbose : Bool := false
deriving DecidableEq, Repr, Inhabited

/-- What is left to read, and what has been noted on the way. -/
structure Cursor where
  rest : List Char
  flags : Flags
  names : List String
deriving DecidableEq, Repr, Inhabited

/-- A reader moves the cursor, or refuses the text. -/
abbrev Reader := StateT Cursor Option

/-- Refuse the text. -/
def refuse {α : Type} : Reader α :=
  StateT.lift none

/-- The next character, if there is one. -/
def peek : Reader (Option Char) :=
  return (← get).rest.head?

/-- Move past one character. -/
def bump : Reader Unit :=
  modify fun cursor => { cursor with rest := cursor.rest.tail }

/-- Pass over blanks and comments; a comment ends with its line. -/
def dropIgnored : Bool → List Char → List Char
  | _, [] => []
  | true, c :: rest => dropIgnored (c != '\n') rest
  | false, c :: rest =>
    if Text.isBlank c then dropIgnored false rest
    else if c = '#' then dropIgnored true rest
    else c :: rest

/-- Pass over what is ignored, if anything is. -/
def skipIgnored : Reader Unit :=
  modify fun cursor =>
    if cursor.flags.verbose then { cursor with rest := dropIgnored false cursor.rest } else cursor

/-- Move past one character and what is ignored after it. -/
def advanceOne : Reader Unit := do
  bump
  skipIgnored

/-- The next character, which must be there. -/
def current : Reader Char := do
  match ← peek with
  | some c => return c
  | none => refuse

/-- Move past a text if it comes next. -/
def bumpIf (s : String) : Reader Bool := do
  let cursor ← get
  match s.toList.isPrefixOf? cursor.rest with
  | some rest =>
    set { cursor with rest := rest }
    return true
  | none => return false

/-- Take the characters that satisfy a predicate, passing over what is ignored after each. -/
def takeSpaced (accept : Char → Bool) : Nat → Reader (List Char)
  | 0 => return []
  | fuel + 1 => do
    match ← peek with
    | some c =>
      if accept c then
        advanceOne
        return c :: (← takeSpaced accept fuel)
      else
        return []
    | none => return []

/-- Pass over blanks. -/
def skipBlanks : Reader Unit :=
  modify fun cursor => { cursor with rest := cursor.rest.dropWhile Text.isBlank }

/-! ## Atoms -/

/-- What a single character or an escape stands for. -/
inductive Atom where
  /-- A character; a byte if it was written as two hexadecimal digits. -/
  | literal (code : Nat) (isByte : Bool)
  | set (set : CodeSet)
  | condition (condition : Assertion)
deriving DecidableEq, Repr, Inhabited

/-- The characters with a meaning of their own. -/
def isMeta (c : Char) : Bool :=
  "\\.+*?()|[]\x7b\x7d^$#&-~".toList.contains c

/-- The character may follow a backslash and then stands for itself. -/
def isEscapable (c : Char) : Bool :=
  isMeta c || (decide (c.toNat < 0x80) && !c.isAlphanum && c != '<' && c != '>')

/-- The value of a hexadecimal digit. -/
def hexDigit? (c : Char) : Option Nat :=
  if '0' ≤ c ∧ c ≤ '9' then some (c.toNat - 48)
  else if 'a' ≤ c ∧ c ≤ 'f' then some (c.toNat - 87)
  else if 'A' ≤ c ∧ c ≤ 'F' then some (c.toNat - 55)
  else none

/-- The value of hexadecimal digits that name a character. -/
def codeOfHex (digits : List Char) : Reader Nat := do
  let some values := digits.mapM hexDigit? | refuse
  let code := values.foldl (fun n d => 16 * n + d) 0
  if digits.isEmpty || !(code < 0xd800 || (0xe000 ≤ code && code < 0x110000)) then refuse
  return code

/-- A fixed number of hexadecimal digits. -/
def readHexDigits : Nat → Reader (List Char)
  | 0 => return []
  | n + 1 => do
    let c ← current
    if (hexDigit? c).isNone then refuse
    advanceOne
    return c :: (← readHexDigits n)

/-- The digits of an escape by number, after its letter. -/
def readHex (width : Nat) : Reader Atom := do
  if (← current) = '\x7b' then
    advanceOne
    let digits ← takeSpaced (fun c => (hexDigit? c).isSome) (← get).rest.length
    if (← current) ≠ '\x7d' then refuse
    advanceOne
    return .literal (← codeOfHex digits) false
  else
    return .literal (← codeOfHex (← readHexDigits width)) (width == 2)

/-- The digits of a class, as the flags have it. -/
def digitSet (flags : Flags) : CodeSet :=
  if flags.unicode then .digit else .ofRanges [('0', '9')]

/-- The white space of a class, as the flags have it. -/
def blankSet (flags : Flags) : CodeSet :=
  if flags.unicode then .blank else .ofRanges [('\t', '\r'), (' ', ' ')]

/-- The word characters, as the flags have it. -/
def wordSet (flags : Flags) : CodeSet :=
  if flags.unicode then .word else .ofRanges [('0', '9'), ('A', 'Z'), ('_', '_'), ('a', 'z')]

/-- The set a letter escape stands for. -/
def letterSet? (flags : Flags) (c : Char) : Option CodeSet :=
  if c = 'd' then some (digitSet flags)
  else if c = 'D' then some (.complement (digitSet flags))
  else if c = 's' then some (blankSet flags)
  else if c = 'S' then some (.complement (blankSet flags))
  else if c = 'w' then some (wordSet flags)
  else if c = 'W' then some (.complement (wordSet flags))
  else none

/-- The control a letter escape stands for. -/
def controlOf? (c : Char) : Option Nat :=
  if c = 'a' then some 0x07
  else if c = 'f' then some 0x0c
  else if c = 't' then some 0x09
  else if c = 'n' then some 0x0a
  else if c = 'r' then some 0x0d
  else if c = 'v' then some 0x0b
  else none

/-- The condition a letter escape stands for. -/
def conditionOf? (c : Char) : Option Assertion :=
  if c = 'A' then some .textStart
  else if c = 'z' then some .textEnd
  else if c = 'b' then some .wordBoundary
  else if c = 'B' then some .notWordBoundary
  else if c = '<' then some .wordStart
  else if c = '>' then some .wordEnd
  else none

/-- The condition with a name in braces after a word boundary. -/
def boundaryOf? (name : String) : Option Assertion :=
  if name = "start" then some .wordStart
  else if name = "end" then some .wordEnd
  else if name = "start-half" then some .wordStartHalf
  else if name = "end-half" then some .wordEndHalf
  else none

/-- The name in braces after a word boundary. Braces that do not start with a letter or a hyphen
are left for a repetition. -/
def readBoundary : Reader Assertion := do
  let isNameChar (c : Char) : Bool := c.isAlpha || c == '-'
  if (← peek) ≠ some '\x7b' then return .wordBoundary
  let start ← get
  advanceOne
  if !isNameChar (← current) then
    set start
    return .wordBoundary
  let name ← takeSpaced isNameChar (← get).rest.length
  if (← current) ≠ '\x7d' then refuse
  bump
  match boundaryOf? (String.ofList name) with
  | some condition => return condition
  | none => refuse

/-- The set with the variants in letter case of its members, if the flags ask for them. -/
def foldSet (flags : Flags) (set : CodeSet) : CodeSet :=
  if !flags.caseless then set
  else if flags.unicode then .caseless set
  else .caselessAscii set

/-- What stands before and after the first sign for inequality. -/
def cutUnequal? : List Char → Option (List Char × List Char)
  | [] => none
  | '!' :: '=' :: rest => some ([], rest)
  | c :: rest => (cutUnequal? rest).map fun (before, after) => (c :: before, after)

/-- The set of a property given by the text between braces: a name, or a name and a value with a
sign between them. The sign for inequality turns the set around. -/
def propertyOfText? (text : List Char) : Option (CodeSet × Bool) :=
  match cutUnequal? text with
  | some (name, value) => (CodeSet.propertyValue? name value).map (·, true)
  | none =>
    match (Text.cutFirst? ':' text).or (Text.cutFirst? '=' text) with
    | some (name, value) => (CodeSet.propertyValue? name value).map (·, false)
    | none => (CodeSet.property? text).map (·, false)

/-- A property after its letter: one more letter, or a text in braces. -/
def readProperty (negated : Bool) : Reader CodeSet := do
  skipIgnored
  let c ← current
  let text ←
    if c = '\x7b' then
      advanceOne
      let text ← takeSpaced (· != '\x7d') (← get).rest.length
      pure text
    else pure [c]
  if c = '\\' ∨ (← peek).isNone then refuse
  bump
  let flags := (← get).flags
  if !flags.unicode then refuse
  match propertyOfText? text with
  | some (set, turned) =>
    let folded := foldSet flags set
    return if negated != turned then .complement folded else folded
  | none => refuse

/-- An escape, at its backslash. -/
def readEscape : Reader Atom := do
  bump
  let c ← current
  if c = 'x' ∨ c = 'u' ∨ c = 'U' then
    advanceOne
    return ← readHex (if c = 'x' then 2 else if c = 'u' then 4 else 8)
  bump
  if c = 'p' ∨ c = 'P' then return .set (← readProperty (c == 'P'))
  if let some set := letterSet? (← get).flags c then return .set set
  if isEscapable c then return .literal c.toNat false
  if let some code := controlOf? c then return .literal code false
  if c = 'b' then return .condition (← readBoundary)
  match conditionOf? c with
  | some condition => return .condition condition
  | none => refuse

/-! ## Classes -/

/-- The codes of a named class of ASCII. -/
def asciiClass? (name : String) : Option CodeSet :=
  let ranges : Option (List (Char × Char)) :=
    match name with
    | "alnum" => some [('0', '9'), ('A', 'Z'), ('a', 'z')]
    | "alpha" => some [('A', 'Z'), ('a', 'z')]
    | "ascii" => some [('\x00', '\x7f')]
    | "blank" => some [('\t', '\t'), (' ', ' ')]
    | "cntrl" => some [('\x00', '\x1f'), ('\x7f', '\x7f')]
    | "digit" => some [('0', '9')]
    | "graph" => some [('!', '~')]
    | "lower" => some [('a', 'z')]
    | "print" => some [(' ', '~')]
    | "punct" => some [('!', '/'), (':', '@'), ('[', '`'), ('\x7b', '~')]
    | "space" => some [('\t', '\r'), (' ', ' ')]
    | "upper" => some [('A', 'Z')]
    | "word" => some [('0', '9'), ('A', 'Z'), ('_', '_'), ('a', 'z')]
    | "xdigit" => some [('0', '9'), ('A', 'F'), ('a', 'f')]
    | _ => none
  ranges.map CodeSet.ofRanges

/-- A named class between colons and brackets, if one comes next. -/
def readAsciiClass : Reader (Option CodeSet) := do
  let cursor ← get
  match "[:".toList.isPrefixOf? cursor.rest with
  | none => return none
  | some rest =>
    let negated := rest.head? == some '^'
    let rest := if negated then rest.tail else rest
    let name := rest.takeWhile (· != ':')
    match ":]".toList.isPrefixOf? (rest.drop name.length), asciiClass? (String.ofList name) with
    | some after, some set =>
      StateT.set { cursor with rest := after }
      return some (if negated then .complement set else set)
    | _, _ => return none

/-- The code of a literal in a class. Without Unicode it has to be of ASCII. -/
def classCode : Atom → Reader Nat
  | .literal code _ => do
    if !(← get).flags.unicode && 0x80 ≤ code then refuse
    return code
  | _ => refuse

/-- One character or escape in a class. -/
def readClassAtom : Reader Atom := do
  let c ← current
  if c = '\\' then readEscape
  else
    bump
    return .literal c.toNat false

/-- A character, a range or an escape in a class. -/
def readClassItem : Reader CodeSet := do
  let first ← readClassAtom
  skipIgnored
  let c ← current
  -- A hyphen before the closing bracket is a literal, and two are an operator.
  let follows : Option Char ← do
    let start ← get
    advanceOne
    let next ← peek
    set start
    pure next
  if c ≠ '-' ∨ follows = some ']' ∨ follows = some '-' then
    match first with
    | .set set => return set
    | atom => return .single (← classCode atom)
  else
    advanceOne
    let last ← readClassAtom
    let first ← classCode first
    let last ← classCode last
    if last < first then refuse
    return .range first last

/-- The operators between the operands of a class. -/
inductive SetOperator where
  | intersection
  | difference
  | symmetricDifference
deriving DecidableEq, Repr, Inhabited

/-- Apply an operator. -/
def SetOperator.apply : SetOperator → CodeSet → CodeSet → CodeSet
  | intersection, a, b => .intersection a b
  | difference, a, b => .difference a b
  | symmetricDifference, a, b => .symmetricDifference a b

/-- A set read so far, with the depth of nesting in it. -/
structure Operand where
  set : CodeSet
  depth : Nat
deriving DecidableEq, Repr, Inhabited

/-- The items of an operand as one set. -/
def Operand.ofItems (items : List Operand) : Operand where
  set := .unionAll (items.map (·.set))
  depth := (items.map (·.depth)).foldl max 0 + (if items.length > 1 then 1 else 0)

/-- Complete an operator whose left side was read before. -/
def Operand.complete (flags : Flags) (left : Option (SetOperator × Operand)) (right : Operand) :
    Operand :=
  match left with
  | none => right
  | some (operator, left) =>
    { set := operator.apply (foldSet flags left.set) (foldSet flags right.set)
      depth := max left.depth right.depth + 1 }

/-- The hyphens at the beginning of a class. -/
def readHyphens : Nat → Reader (List Operand)
  | 0 => return []
  | fuel + 1 => do
    if (← current) = '-' then
      advanceOne
      return ⟨.single '-'.toNat, 0⟩ :: (← readHyphens fuel)
    else
      return []

/-- The operator that comes next, if one does. -/
def readOperator : Reader (Option SetOperator) := do
  if ← bumpIf "&&" then return some .intersection
  if ← bumpIf "--" then return some .difference
  if ← bumpIf "~~" then return some .symmetricDifference
  return none

mutual

/-- A class in brackets, at the opening bracket. -/
def readClass : Nat → Reader Operand
  | 0 => refuse
  | fuel + 1 => do
    advanceOne
    let negated := (← current) == '^'
    if negated then advanceOne
    let hyphens ← readHyphens (← get).rest.length
    let start ←
      if hyphens.isEmpty && (← current) == ']' then
        advanceOne
        pure [Operand.mk (.single ']'.toNat) 0]
      else pure hyphens
    let operand ← readClassItems fuel none start
    let flags := (← get).flags
    let folded := foldSet flags operand.set
    return { set := if negated then .complement folded else folded, depth := operand.depth + 1 }

/-- The items of a class up to its closing bracket. `left` is the operand before the last operator,
and `items` are those read since. -/
def readClassItems : Nat → Option (SetOperator × Operand) → List Operand → Reader Operand
  | 0, _, _ => refuse
  | fuel + 1, left, items => do
    skipIgnored
    let c ← current
    let flags := (← get).flags
    if c = ']' then
      bump
      return Operand.complete flags left (.ofItems items)
    if c = '[' then
      if let some set ← readAsciiClass then
        return ← readClassItems fuel left (items ++ [⟨set, 0⟩])
      let nested ← readClass fuel
      return ← readClassItems fuel left (items ++ [nested])
    if let some operator ← readOperator then
      return ← readClassItems fuel
        (some (operator, Operand.complete flags left (.ofItems items))) []
    let item ← readClassItem
    readClassItems fuel left (items ++ [⟨item, 0⟩])

end

/-! ## Pieces -/

/-- A part of a pattern that was read, with the depth of nesting in it. -/
structure Piece where
  pattern : Pattern
  depth : Nat
  /-- The piece can be repeated; a change of flags cannot. -/
  isRepeatable : Bool := true
deriving DecidableEq, Repr, Inhabited

/-- A set as a pattern. Without Unicode only sets of ASCII are allowed. -/
def pieceOfSet (set : CodeSet) (depth : Nat) : Reader Piece := do
  if (← get).flags.unicode then
    return { pattern := .one set, depth := depth }
  else if set.isAscii then
    return { pattern := .one (.intersection set .ascii), depth := depth }
  else
    refuse

/-- An atom as a pattern. -/
def pieceOfAtom (atom : Atom) : Reader Piece := do
  let flags := (← get).flags
  match atom with
  | .literal code isByte =>
    if isByte && !flags.unicode && 0x80 ≤ code then refuse
    return { pattern := .one (foldSet flags (.single code)), depth := 0 }
  | .set set => pieceOfSet set 0
  | .condition condition =>
    return { pattern := .assertion condition (wordSet flags), depth := 0 }

/-- What the dot stands for. -/
def pieceOfDot : Reader Piece := do
  let flags := (← get).flags
  if !flags.unicode then refuse
  let excluded : CodeSet :=
    if flags.dotAll then .none
    else if flags.anyLineEnd then .union (.single 10) (.single 13)
    else .single 10
  return { pattern := .one (.complement excluded), depth := 0 }

/-- The condition of an anchor at the start or the end of a line. -/
def anchor (flags : Flags) (isStart : Bool) : Assertion :=
  if !flags.multiline then (if isStart then .textStart else .textEnd)
  else if flags.anyLineEnd then (if isStart then .anyLineStart else .anyLineEnd)
  else (if isStart then .lineStart else .lineEnd)

/-- One character, escape, dot or anchor. -/
def readPrimitive : Reader Piece := do
  let c ← current
  let flags := (← get).flags
  if c = '\\' then
    pieceOfAtom (← readEscape)
  else
    bump
    if c = '.' then pieceOfDot
    else if c = '^' ∨ c = '$' then
      return { pattern := .assertion (anchor flags (c == '^')) (wordSet flags), depth := 0 }
    else pieceOfAtom (.literal c.toNat false)

/-! ## Repetitions -/

/-- Repeat the last piece. -/
def repeatLast (pieces : List Piece) (least : Nat) (most : Option Nat) : Reader (List Piece) := do
  match pieces with
  | [] => refuse
  | last :: before =>
    if !last.isRepeatable then refuse
    if (most.map fun most => decide (most < least)).getD false then refuse
    let repetition : Piece :=
      { pattern := .repeated last.pattern least most, depth := last.depth + 1 }
    return repetition :: before

/-- Pass over the question mark after a repetition, which does not change what matches. -/
def skipLaziness : Reader Unit := do
  if (← peek) = some '?' then bump

/-- A count of a repetition. -/
def readCount : Reader Nat := do
  skipBlanks
  let digits ← takeSpaced (fun c => decide ('0' ≤ c) && decide (c ≤ '9')) (← get).rest.length
  skipBlanks
  skipIgnored
  let count := digits.foldl (fun n c => 10 * n + (c.toNat - 48)) 0
  if digits.isEmpty || 0x100000000 ≤ count then refuse
  return count

/-- A repetition in braces, at its opening brace. -/
def readCounted (pieces : List Piece) : Reader (List Piece) := do
  if pieces.isEmpty then refuse
  advanceOne
  let least ← readCount
  let most ←
    if (← current) = ',' then
      advanceOne
      if (← current) = '\x7d' then pure none
      else pure (some (← readCount))
    else
      pure (some least)
  if (← current) ≠ '\x7d' then refuse
  advanceOne
  skipLaziness
  repeatLast pieces least most

/-! ## Groups -/

/-- Set one flag. -/
def Flags.assign? (flags : Flags) (name : Char) (value : Bool) : Option Flags :=
  if name = 'i' then some { flags with caseless := value }
  else if name = 'm' then some { flags with multiline := value }
  else if name = 's' then some { flags with dotAll := value }
  else if name = 'R' then some { flags with anyLineEnd := value }
  else if name = 'u' then some { flags with unicode := value }
  else if name = 'x' then some { flags with verbose := value }
  else if name = 'U' then some flags
  else none

/-- Set flags by letters; those after a hyphen are cleared. No letter and no hyphen is repeated, and
a hyphen is followed by a letter. -/
def assignFlags (seen : List Char) (value : Bool) (flags : Flags) : List Char → Option Flags
  | [] => if seen.head? = some '-' then none else some flags
  | c :: rest =>
    if seen.contains c then none
    else if c = '-' then assignFlags (c :: seen) false flags rest
    else (flags.assign? c value).bind fun flags => assignFlags (c :: seen) value flags rest

/-- How a group begins. -/
inductive GroupStart where
  /-- A group with the given flags in it. -/
  | group (flags : Flags)
  /-- New flags for the rest of the group around. -/
  | change (flags : Flags)
deriving DecidableEq, Repr, Inhabited

/-- The character can stand in the name of a group. -/
def isNameChar (isFirst : Bool) (c : Char) : Bool :=
  if isFirst then c == '_' || Text.isAlphabetic c
  else c == '_' || c == '.' || c == '[' || c == ']' || Text.isAlphanumeric c

/-- The name of a group, up to its closing bracket; no two groups share one. -/
def readGroupName : Reader Unit := do
  let cursor ← get
  match cursor.rest.takeWhile (· != '>') with
  | [] => refuse
  | first :: others =>
    let name := String.ofList (first :: others)
    if !isNameChar true first || !others.all (isNameChar false) then refuse
    if cursor.names.contains name then refuse
    match cursor.rest.drop (others.length + 1) with
    | [] => refuse
    | _ :: rest => set { cursor with rest := rest, names := name :: cursor.names }

/-- The beginning of a group, at its parenthesis. -/
def readGroupStart : Reader GroupStart := do
  advanceOne
  for lookaround in ["?=", "?!", "?<=", "?<!"] do
    if ← bumpIf lookaround then refuse
  let flags := (← get).flags
  if (← bumpIf "?P<") || (← bumpIf "?<") then
    readGroupName
    return .group flags
  if ← bumpIf "?" then
    let letters := (← get).rest.takeWhile fun c => c != ':' && c != ')'
    let some assigned := assignFlags [] true flags letters | refuse
    modify fun cursor => { cursor with rest := cursor.rest.drop letters.length }
    let c ← current
    bump
    if c = ':' then return .group assigned
    if letters.isEmpty then refuse
    return .change assigned
  return .group flags

/-- Pieces one after the other; the last piece comes first. -/
def joinPieces (pieces : List Piece) : Piece where
  pattern := .sequenceAll (pieces.reverse.map (·.pattern))
  depth := (pieces.map (·.depth)).foldl max 0 + (if pieces.length > 1 then 1 else 0)

/-- Alternatives; the last comes first. -/
def joinBranches (branches : List Piece) : Piece where
  pattern := .eitherAll (branches.reverse.map (·.pattern))
  depth := (branches.map (·.depth)).foldl max 0 + (if branches.length > 1 then 1 else 0)

/-- Read alternatives up to the end of the group or of the text. `pieces` are those of the present
alternative, the last first, and `branches` the alternatives before it. -/
def readBranches : Nat → Bool → List Piece → List Piece → Reader Piece
  | 0, _, _, _ => refuse
  | fuel + 1, inGroup, pieces, branches => do
    skipIgnored
    match ← peek with
    | none => if inGroup then refuse else return joinBranches (joinPieces pieces :: branches)
    | some c =>
      if c = ')' then
        if !inGroup then refuse
        bump
        return joinBranches (joinPieces pieces :: branches)
      else if c = '(' then
        let outer := (← get).flags
        match ← readGroupStart with
        | .change flags =>
          modify fun cursor => { cursor with flags := flags }
          let change : Piece := { pattern := .empty, depth := 0, isRepeatable := false }
          readBranches fuel inGroup (change :: pieces) branches
        | .group flags =>
          modify fun cursor => { cursor with flags := flags }
          let inner ← readBranches fuel true [] []
          modify fun cursor => { cursor with flags := outer }
          let group : Piece := { pattern := inner.pattern, depth := inner.depth + 1 }
          readBranches fuel inGroup (group :: pieces) branches
      else if c = '|' then
        bump
        readBranches fuel inGroup [] (joinPieces pieces :: branches)
      else if c = '[' then
        let operand ← readClass fuel
        readBranches fuel inGroup ((← pieceOfSet operand.set operand.depth) :: pieces) branches
      else if c = '?' ∨ c = '*' ∨ c = '+' then
        bump
        skipLaziness
        let least := if c = '+' then 1 else 0
        let most := if c = '?' then some 1 else none
        readBranches fuel inGroup (← repeatLast pieces least most) branches
      else if c = '\x7b' then
        readBranches fuel inGroup (← readCounted pieces) branches
      else
        readBranches fuel inGroup ((← readPrimitive) :: pieces) branches

/-- How deeply a pattern may nest. -/
def nestLimit : Nat := 250

/-- How many bytes a machine for a pattern may take. -/
def weightLimit : Nat := 10 * 0x100000

/-- The pattern a text describes, if it describes one. -/
def parse? (s : String) : Option Pattern :=
  let cursor : Cursor := { rest := s.toList, flags := {}, names := [] }
  match (readBranches (2 * s.length + 2) false [] []).run cursor with
  | some (piece, _) =>
    if piece.depth ≤ nestLimit ∧ piece.pattern.weight ≤ weightLimit then some piece.pattern
    else none
  | none => none

end CodeAtlas.Pattern
