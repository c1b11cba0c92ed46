import CodeAtlas.FileSystem
import CodeAtlas.Glob

/-!
# Ignore rules

Ignore files say which entries of a directory tree are passed over. Each line is a rule: a glob for
the entry's path relative to the directory of the file, which matches at any depth unless it holds a
slash. An exclamation mark turns a rule around, a slash at the end restricts it to directories, and
the last rule that matches decides.

Several kinds of ignore files can speak about one entry. The kinds are asked in a fixed order, and
within a kind the file nearest to the entry is asked first.
-/

namespace CodeAtlas

/-- What rules say about an entry. -/
inductive Verdict where
  | silent
  | ignored
  | wanted
deriving DecidableEq, Repr, Inhabited

/-- The first verdict, or the second where the first is silent. -/
def Verdict.orElse (first second : Verdict) : Verdict :=
  match first with
  | silent => second
  | verdict => verdict

/-- One line of an ignore file. -/
structure IgnoreRule where
  glob : Glob
  /-- The rule brings entries back. -/
  isWanted : Bool
  onlyDirectories : Bool
deriving DecidableEq, Repr, Inhabited

namespace IgnoreRule

/-- The line without blanks at its end, unless the last blank is escaped. -/
def trimLine (line : String) : String :=
  if Text.endsWith "\\ " line then line else Text.trimEnd line

/-- The exclamation mark at the beginning of a line, and what follows. -/
def cutMark (cs : List Char) : Bool × List Char :=
  match cs with
  | '!' :: rest => (true, rest)
  | rest => (false, rest)

/-- The slash at the beginning of a line, and what follows. -/
def cutAnchor (cs : List Char) : Bool × List Char :=
  match cs with
  | '/' :: rest => (true, rest)
  | rest => (false, rest)

/-- The slash at the end of a line and what stands before; a backslash before it goes with it. -/
def cutDirectory (cs : List Char) : Bool × List Char :=
  match cs.reverse with
  | '/' :: '\\' :: rest => (true, rest.reverse)
  | '/' :: rest => (true, rest.reverse)
  | _ => (false, cs)

/-- The glob of a line: at any depth unless it is anchored or holds a slash, and what is below a
directory without the directory itself. -/
def globText (isAnchored : Bool) (cs : List Char) : String :=
  let text := String.ofList cs
  let deep :=
    if isAnchored || cs.contains '/' || text == "**" then text else "**/" ++ text
  if Text.endsWith "/**" deep then deep ++ "/*" else deep

/-- The rule of a line, if the line has one. -/
def ofLine? (line : String) : Option IgnoreRule :=
  if Text.startsWith "#" line then none
  else
    let line := trimLine line
    if line = "" then none
    else
      let (isWanted, isAnchored, cs) : Bool × Bool × List Char :=
        if Text.startsWith "\\!" line || Text.startsWith "\\#" line then
          (false, false, line.toList.tail)
        else
          let (isWanted, cs) := cutMark line.toList
          let (isAnchored, cs) := cutAnchor cs
          (isWanted, isAnchored, cs)
      let (onlyDirectories, cs) := cutDirectory cs
      (Glob.parse? ⟨true, true⟩ (globText isAnchored cs)).map fun glob =>
        ⟨glob, isWanted, onlyDirectories⟩

/-- The line without the carriage return at its end. -/
def dropReturn (line : String) : String :=
  if Text.endsWith "\r" line then String.ofList line.toList.dropLast else line

/-- The rules of a file's lines. A mark of byte order at the beginning is passed over. -/
def ofLines (lines : List String) : List IgnoreRule :=
  let lines := lines.map dropReturn
  let lines :=
    match lines with
    | first :: rest => String.ofList (first.toList.dropWhile (· == Char.ofNat 0xfeff)) :: rest
    | [] => []
  lines.filterMap ofLine?

/-- What the rule says about the entry at a path. -/
def verdict (rule : IgnoreRule) (path : String) (isDirectory : Bool) : Verdict :=
  if (rule.onlyDirectories && !isDirectory) || !rule.glob.isMatch path then .silent
  else if rule.isWanted then .wanted
  else .ignored

/-- What rules say about an entry: the last that is not silent decides. -/
def verdictOf (rules : List IgnoreRule) (path : String) (isDirectory : Bool) : Verdict :=
  rules.foldl (fun verdict rule => (rule.verdict path isDirectory).orElse verdict) .silent

end IgnoreRule

/-! ## Directories -/

/-- The rules found in one directory. -/
structure IgnoreLevel where
  location : Location
  custom : List IgnoreRule
  plain : List IgnoreRule
  git : List IgnoreRule
  gitExclude : List IgnoreRule
  /-- The directory is the root of a version-controlled tree. -/
  hasGit : Bool
deriving DecidableEq, Repr, Inhabited

namespace IgnoreLevel

/-- The rules of the file at a location, if there is one. -/
def rulesAt (fs : FileSystem) (location : Location) : List IgnoreRule :=
  match fs.at? location with
  | some (.file content) => IgnoreRule.ofLines content.readableLines
  | _ => []

/-- The rules of the files in a directory. -/
def ofDirectory (fs : FileSystem) (location : Location) : IgnoreLevel where
  location := location
  custom := rulesAt fs (location ++ [".depgraphignore"])
  plain := rulesAt fs (location ++ [".ignore"])
  git := rulesAt fs (location ++ [".gitignore"])
  gitExclude := rulesAt fs (location ++ [".git", "info", "exclude"])
  hasGit := (fs.at? (location ++ [".git"])).isSome

/-- The levels of a directory and of those above it, the nearest first. -/
def upFrom (fs : FileSystem) (location : Location) : List IgnoreLevel :=
  (List.range (location.length + 1)).reverse.map fun n => ofDirectory fs (location.take n)

/-- The path of a location as seen from a level. -/
def pathFrom (level : IgnoreLevel) (location : Location) : String :=
  Text.join "/" (location.drop level.location.length)

/-- What one kind of rules says about an entry: the nearest level that is not silent decides. -/
def ask (kind : IgnoreLevel → List IgnoreRule) (levels : List IgnoreLevel) (location : Location)
    (isDirectory : Bool) : Verdict :=
  levels.foldl (fun verdict level =>
    verdict.orElse (IgnoreRule.verdictOf (kind level) (level.pathFrom location) isDirectory))
    .silent

/-- The levels up to the nearest version-controlled root, that one included. -/
def upToGit : List IgnoreLevel → List IgnoreLevel
  | [] => []
  | level :: rest => if level.hasGit then [level] else level :: upToGit rest

end IgnoreLevel

/-- The rules that hold in a directory: those of the levels, the nearest first, and the global
ones. -/
structure IgnoreScope where
  levels : List IgnoreLevel
  global : List IgnoreRule
deriving DecidableEq, Repr, Inhabited

namespace IgnoreScope

/-- What the rules say about an entry. Rules of version control count only in a version-controlled
tree. -/
def verdict (scope : IgnoreScope) (location : Location) (isDirectory : Bool) : Verdict :=
  let levels := scope.levels
  let own := (IgnoreLevel.ask (·.custom) levels location isDirectory).orElse
    (IgnoreLevel.ask (·.plain) levels location isDirectory)
  if levels.any (·.hasGit) then
    let near := IgnoreLevel.upToGit levels
    let absolute := "/" ++ Text.join "/" location
    own.orElse <| (IgnoreLevel.ask (·.git) near location isDirectory).orElse <|
      (IgnoreLevel.ask (·.gitExclude) near location isDirectory).orElse
        (IgnoreRule.verdictOf scope.global absolute isDirectory)
  else
    own

/-- The entry is passed over: rules ignore it, or it is hidden and no rule wants it. -/
def skips (scope : IgnoreScope) (location : Location) (isDirectory : Bool) : Bool :=
  match scope.verdict location isDirectory with
  | .ignored => true
  | .wanted => false
  | .silent => (location.getLast?.map (Text.startsWith ".")).getD false

end IgnoreScope

/-! ## Walking a tree -/

/-- The files below a directory that are not passed over. The depth of the tree is bounded by
`fuel`. -/
def walkFiles (fs : FileSystem) : Nat → IgnoreScope → Location → List (Location × Content)
  | 0, _, _ => []
  | fuel + 1, scope, directory =>
    (fs.namesIn directory).flatMap fun name =>
      let location := directory ++ [name]
      match fs.at? location with
      | some (.file content) => if scope.skips location false then [] else [(location, content)]
      | some .directory =>
        if scope.skips location true then []
        else
          let levels := IgnoreLevel.ofDirectory fs location :: scope.levels
          walkFiles fs fuel { scope with levels := levels } location
      | none => []

/-- The files below a directory that no ignore rule passes over. The global rules are those of the
user whose home directory is given. -/
def visibleFiles (fs : FileSystem) (home : String) (directory : Location) :
    List (Location × Content) :=
  let global :=
    match fs.locate (PathText.join home ".config/git/ignore") with
    | .ok location => IgnoreLevel.rulesAt fs location
    | .error _ => []
  walkFiles fs (fs.entries.length + 1) ⟨IgnoreLevel.upFrom fs directory, global⟩ directory

end CodeAtlas
