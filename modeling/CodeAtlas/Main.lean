import CodeAtlas.Command
import CodeAtlas.FileSystem.Bytes
import CodeAtlas.SyntaxTree.Json

/-!
# The executable

Reads the part of the disk that a command line can be about, runs the program on it, and writes back
what has changed. The syntax tree of a source file is read from a file beside it, whose name is that
of the source file followed by `.tree`.
-/

namespace CodeAtlas.Executable

/-! ## The disk as a value -/

/-- The names on the way to an absolute path. -/
def locationOf (path : String) : Location :=
  (PathText.parts path).foldl (fun location part =>
    match part with
    | .root => []
    | .here => location
    | .up => location.dropLast
    | .name text => location ++ [text]) []

/-- The directories above a location, the outermost first. -/
def above (location : Location) : List Location :=
  (List.range location.length).map fun n => location.take n

/-- The location of a path that may be relative to a directory. -/
def placed (directory path : String) : Location :=
  locationOf (PathText.join directory path)

/-- Files with rules about other files in the directories below. -/
def ruleFiles : List String :=
  [".gitignore", ".ignore", ".depgraphignore"]

/-- Read one entry of the disk, if it is there. -/
def readEntry (location : Location) : IO (List (Location × Entry)) := do
  let path := (← IO.currentDir) / FileSystem.pathOf location
  if ← path.isDir then
    return [(location, .directory)]
  else if ← path.pathExists then
    return [(location, .file (.ofStored (← IO.FS.readBinFile path)))]
  else
    return []

/-- Read a directory with everything below it; of version control only the rules are read. -/
partial def readTree (location : Location) : IO (List (Location × Entry)) := do
  let entries ← readEntry location
  match entries with
  | [(_, .directory)] =>
    if location.getLast? == some ".git" then
      return entries ++ (← readEntry (location ++ ["info"]))
        ++ (← readEntry (location ++ ["info", "exclude"]))
    let path := (← IO.currentDir) / FileSystem.pathOf location
    let mut found := entries
    for entry in ← path.readDir do
      found := found ++ (← readTree (location ++ [entry.fileName]))
    return found
  | entries => return entries

/-- Read the directories above a location and the rules in them. -/
def readAbove (location : Location) : IO (List (Location × Entry)) := do
  let mut found := []
  for directory in above location do
    found := found ++ (← readEntry directory)
    for name in ".git" :: ruleFiles do
      found := found ++ (← readEntry (directory ++ [name]))
  return found

/-- Read everything at some places and above them. -/
def readPlaces (places : List Location) : IO (List (Location × Entry)) := do
  let mut found := []
  for place in places do
    found := found ++ (← readAbove place) ++ (← readTree place)
  return found.eraseDups.filter fun entry => !entry.1.isEmpty

/-- Write what differs from the entries before. -/
def writeBack (before after : List (Location × Entry)) : IO Unit := do
  for (location, _) in before do
    if (after.lookup location).isNone then
      IO.FS.removeFile (FileSystem.pathOf location)
  for (location, entry) in after do
    if before.lookup location != some entry then
      match entry with
      | .directory => IO.FS.createDirAll (FileSystem.pathOf location)
      | .file content => IO.FS.writeBinFile (FileSystem.pathOf location) content.toBytes

/-! ## Syntax trees -/

/-- The syntax trees that are kept beside source files, by language and text. -/
def treesOf (entries : List (Location × Entry)) : List ((Language × String) × Node) :=
  entries.filterMap fun (location, entry) => do
    let name ← location.getLast?
    let language ← Language.ofPath? name
    let source ← contentText? entry
    let beside ← entries.lookup (location.dropLast ++ [name ++ ".tree"])
    let tree ← (contentText? beside).bind Json.parse?
    return ((language, Text.normalizeLines source), ← Node.ofJson? tree)
where
  /-- The text of a file. -/
  contentText? : Entry → Option String
    | .file content => content.text?
    | .directory => none

/-! ## Running -/

/-- The words of a command line that may be paths, together with those behind an equals sign. -/
def candidatePaths (words : List String) : List String :=
  words.flatMap fun word =>
    match Text.cutFirst? '=' word.toList with
    | some (_, value) => [word, String.ofList value]
    | none => [word]

/-- A number that no earlier run has used. -/
def freshNumber : IO Nat := do
  return (← IO.getRandomBytes 6).foldl (fun n byte => 256 * n + byte.toNat) 0

/-- Run the program with arguments. -/
def run (args : List String) : IO UInt32 := do
  let current := (← IO.currentDir).toString
  let home := (← IO.getEnv "HOME").getD "/"
  let settings ← ["DEPGRAPH_REPO", "DEPGRAPH_CONFIG"].filterMapM fun name => do
    return (← IO.getEnv name).map (name, ·)
  let words := candidatePaths (args ++ settings.map (·.2))
  let places := locationOf current :: placed home ConfigFiles.directoryName
    :: placed home ".config/git/ignore" :: words.map (placed current)
  let before ← readPlaces places.eraseDups
  let trees := treesOf before
  let world : World := ⟨⟨before, current⟩, [], ⟨← freshNumber⟩, home⟩
  let (outcome, world) := runProgram (fun language text => trees.lookup (language, text))
    (fun name => settings.lookup name) args world
  writeBack before world.files.entries
  IO.print outcome.stdout
  IO.eprint outcome.stderr
  return outcome.code.toUInt32

end CodeAtlas.Executable

/-- The entry point of the program. -/
def main (args : List String) : IO UInt32 :=
  CodeAtlas.Executable.run args
