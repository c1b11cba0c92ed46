import CodeAtlas.Pattern
import CodeAtlas.Text.Chars

/-!
# Globs

Patterns for paths: a question mark stands for one byte, a star for any number of them, brackets for
a set of bytes, braces for alternatives, and two stars for any number of directories where they make
up a whole segment. A backslash takes the next character literally. A glob has to match the whole
path.
-/

namespace CodeAtlas

/-- An element of a glob. -/
inductive GlobToken where
  | literal (c : Char)
  /-- One byte. -/
  | any
  /-- Any number of bytes. -/
  | zeroOrMore
  /-- Any number of directories at the beginning. -/
  | leadingDirectories
  /-- Everything below a directory. -/
  | everythingBelow
  /-- Any number of directories in the middle. -/
  | innerDirectories
  | charClass (negated : Bool) (ranges : List (Char × Char))
  | alternatives (branches : List (List GlobToken))
deriving Repr, Inhabited

/-- How a glob is read and what its wildcards match. -/
structure GlobOptions where
  /-- Wildcards do not match slashes. -/
  keepSegments : Bool
  /-- A bracket that is never closed stands for itself. -/
  allowOpenClass : Bool
deriving DecidableEq, Repr, Inhabited

namespace Glob

/-! ## Classes -/

/-- The ranges of a class up to its closing bracket, and what follows. A bracket that comes first is
a member, and so is a hyphen that comes first or last. `ranges` holds the ranges read, the last
first, and `inRange` says that the last one waits for its end. -/
def readClass (isFirst inRange : Bool) (ranges : List (Char × Char)) :
    List Char → Except Unit (Option (List (Char × Char) × List Char))
  | [] => .ok none
  | c :: rest =>
    if c = ']' ∧ !isFirst then
      let ranges := if inRange then ('-', '-') :: ranges else ranges
      .ok (some (ranges.reverse, rest))
    else if c = '-' ∧ !isFirst ∧ !inRange then
      readClass false true ranges rest
    else
      match inRange, ranges with
      | true, (low, _) :: before =>
        if c < low then .error () else readClass false false ((low, c) :: before) rest
      | _, ranges => readClass false false ((c, c) :: ranges) rest

/-! ## Reading -/

/-- The branches that are being read: the tokens of the present one, the last first, and those of
the alternatives around it. -/
structure Frame where
  /-- The tokens before the opening brace, the last first. -/
  outer : List GlobToken
  /-- The alternatives that are complete, the last first. -/
  branches : List (List GlobToken)
deriving Inhabited

/-- The tokens of two stars. Where they make up a whole segment they stand for directories: `tokens`
is what was read in this branch, the last first, `previous` the character before, `next` what
follows, and `nested` says that the stars stand in braces. Gives the tokens, and whether the slash
that follows is used up. -/
def doubleStar (tokens : List GlobToken) (previous : Option Char) (next : Option Char)
    (nested : Bool) : List GlobToken × Bool :=
  let plain := (.zeroOrMore :: .zeroOrMore :: tokens, false)
  if tokens.isEmpty then
    if next = none ∨ next = some '/' then (.leadingDirectories :: tokens, true) else plain
  else if previous ≠ some '/' ∧ !(nested ∧ (previous = some ',' ∨ previous = some '\x7b')) then
    plain
  else if next = none ∨ (nested ∧ (next = some ',' ∨ next = some '\x7d')) then
    (collapse .everythingBelow tokens, false)
  else if next = some '/' then
    (collapse .innerDirectories tokens, true)
  else plain
where
  /-- Two stars take the place of the slash before them, unless directories came before. -/
  collapse (token : GlobToken) : List GlobToken → List GlobToken
    | .leadingDirectories :: rest => .leadingDirectories :: rest
    | .everythingBelow :: rest => .everythingBelow :: rest
    | _ :: rest => token :: rest
    | [] => [token]

/-- Read the tokens of a glob. `frames` are the braces that are open, `tokens` the tokens of the
present branch, the last first, and `previous` the character before. -/
def readTokens (options : GlobOptions) :
    Nat → Bool → List Frame → List GlobToken → Option Char → List Char → Option (List GlobToken)
  | 0, _, _, _, _, _ => none
  | _ + 1, _, frames, tokens, _, [] => if frames.isEmpty then some tokens.reverse else none
  | fuel + 1, openClass, frames, tokens, previous, c :: rest =>
    if c = '?' then
      readTokens options fuel openClass frames (.any :: tokens) (some c) rest
    else if c = '*' then
      match rest with
      | '*' :: rest =>
        let (tokens, usesSlash) := doubleStar tokens previous rest.head? (!frames.isEmpty)
        if usesSlash ∧ !rest.isEmpty then
          readTokens options fuel openClass frames tokens (some '/') rest.tail
        else
          readTokens options fuel openClass frames tokens (some '*') rest
      | rest => readTokens options fuel openClass frames (.zeroOrMore :: tokens) (some c) rest
    else if c = '[' ∧ !openClass then
      let negated := rest.head? == some '!' || rest.head? == some '^'
      match readClass true false [] (if negated then rest.tail else rest) with
      | .error () => none
      | .ok (some (ranges, after)) =>
        readTokens options fuel openClass frames (.charClass negated ranges :: tokens)
          (some ']') after
      | .ok none =>
        if options.allowOpenClass then
          readTokens options fuel true frames (.literal c :: tokens) (some c) rest
        else none
    else if c = '\x7b' then
      readTokens options fuel openClass (⟨tokens, []⟩ :: frames) [] (some c) rest
    else if c = '\x7d' then
      match frames with
      | [] => none
      | frame :: frames =>
        let branches := (tokens.reverse :: frame.branches).reverse
        readTokens options fuel openClass frames (.alternatives branches :: frame.outer)
          (some c) rest
    else if c = ',' then
      match frames with
      | [] => readTokens options fuel openClass [] (.literal c :: tokens) (some c) rest
      | frame :: frames =>
        readTokens options fuel openClass
          (⟨frame.outer, tokens.reverse :: frame.branches⟩ :: frames) [] (some c) rest
    else if c = '\\' then
      match rest with
      | [] => none
      | d :: rest => readTokens options fuel openClass frames (.literal d :: tokens) (some d) rest
    else
      readTokens options fuel openClass frames (.literal c :: tokens) (some c) rest

/-! ## Patterns over bytes -/

/-- The bytes of a character. -/
def bytesOfChar (c : Char) : List Nat :=
  (String.singleton c).toUTF8.toList.map UInt8.toNat

/-- The bytes of a character one after the other. -/
def literalPattern (c : Char) : Pattern :=
  .sequenceAll ((bytesOfChar c).map fun byte => .one (.single byte))

/-- The slash. -/
def slash : Pattern :=
  .one (.single '/'.toNat)

/-- The bytes a wildcard matches. -/
def wildcard (options : GlobOptions) : CodeSet :=
  if options.keepSegments then .complement (.single '/'.toNat) else .all

/-- The bytes of a range of a class: those of its ends, with a range between the last byte of the
first and the first byte of the last. -/
def rangeSet (range : Char × Char) : CodeSet :=
  let first := bytesOfChar range.1
  let last := bytesOfChar range.2
  if range.1 = range.2 then .unionAll (first.map .single)
  else
    .union (.range (first.getLast?.getD 0) (last.head?.getD 0))
      (.unionAll ((first.dropLast ++ last.drop 1).map .single))

/-- The set of a class. -/
def classSet (negated : Bool) (ranges : List (Char × Char)) : CodeSet :=
  let set := CodeSet.unionAll (ranges.map rangeSet)
  if negated then .complement set else set

mutual

/-- The pattern of a token, if it has one: alternatives of which none counts have none. -/
def tokenPattern? (options : GlobOptions) : GlobToken → Option Pattern
  | .literal c => some (literalPattern c)
  | .any => some (.one (wildcard options))
  | .zeroOrMore => some (.anyOf (wildcard options))
  | .leadingDirectories =>
    some (.either (.repeated slash 0 (some 1)) (.sequence (.anyOf .all) slash))
  | .everythingBelow => some (.sequence slash (.anyOf .all))
  | .innerDirectories =>
    some (.either slash (.sequence slash (.sequence (.anyOf .all) slash)))
  | .charClass negated ranges => some (.one (classSet negated ranges))
  | .alternatives branches =>
    match branchPatterns options branches with
    | [] => none
    | patterns => some (.eitherAll patterns)

/-- The patterns of the tokens that have one, in order. -/
def tokenPatterns (options : GlobOptions) : List GlobToken → List Pattern
  | [] => []
  | token :: rest =>
    match tokenPattern? options token with
    | some pattern => pattern :: tokenPatterns options rest
    | none => tokenPatterns options rest

/-- The patterns of the branches that count: those with a token that has a pattern. -/
def branchPatterns (options : GlobOptions) : List (List GlobToken) → List Pattern
  | [] => []
  | tokens :: rest =>
    match tokenPatterns options tokens with
    | [] => branchPatterns options rest
    | patterns => .sequenceAll patterns :: branchPatterns options rest

end

end Glob

/-- A glob, as a pattern over the bytes of a path. -/
structure Glob where
  pattern : Pattern
deriving DecidableEq, Repr, Inhabited

namespace Glob

/-- The pattern of a whole glob; two stars alone match every path. -/
def patternOf (options : GlobOptions) : List GlobToken → Pattern
  | [.leadingDirectories] => .anyOf .all
  | tokens => .sequenceAll (tokenPatterns options tokens)

/-- Read a glob. -/
def parse? (options : GlobOptions) (s : String) : Option Glob :=
  (readTokens options (s.length + 1) false [] [] none s.toList).map fun tokens =>
    ⟨patternOf options tokens⟩

/-- The glob matches the path. -/
def isMatch (glob : Glob) (path : String) : Bool :=
  glob.pattern.matchesAll (Pattern.bytesOf path)

/-- The globs of some texts, in which wildcards match slashes; texts that are no globs are left
out. -/
def excluding (texts : List String) : List Glob :=
  texts.filterMap (parse? ⟨false, false⟩)

end Glob

end CodeAtlas
