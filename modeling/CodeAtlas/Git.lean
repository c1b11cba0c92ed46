import CodeAtlas.ChangeSet
import CodeAtlas.World

/-!
# Version control

A working tree under version control is recognized by the entry `.git` at its root. Its last commit,
the author of that commit and the changes since an earlier commit come from the answers of the
version control program.
-/

namespace CodeAtlas

/-- Reasons why version control gives no answer. -/
inductive GitError where
  | io (reason : IoError)
  | notARepository (path : String)
  | commandFailed (command stderr : String)
  | cloneFailed (url reason : String)
deriving DecidableEq, Repr, Inhabited

/-- The wording of an error. -/
def GitError.message : GitError → String
  | .io reason => "IO error: " ++ reason.message
  | .notARepository path => "Not a git repository: " ++ path
  | .commandFailed command stderr => "`" ++ command ++ "` failed: " ++ stderr
  | .cloneFailed url reason => "Failed to clone " ++ url ++ ": " ++ reason

namespace Git

/-- The path is the root of a working tree. -/
def isRepository (fs : FileSystem) (path : String) : Bool :=
  fs.pathExists (PathText.join path ".git")

/-- The path must be the root of a working tree. -/
def openTree (fs : FileSystem) (path : String) : Except GitError Unit :=
  if isRepository fs path then .ok () else .error (.notARepository path)

/-- The output of a command that succeeds. -/
def output (world : World) (args : List String) : Except GitError String × World :=
  let (answer, world) := world.askGit args
  if answer.code = 0 then (.ok answer.stdout, world)
  else (.error (.commandFailed (Text.join " " ("git" :: args)) (Text.trim answer.stderr)), world)

/-- The trimmed output of a command, if it succeeds and says something. -/
def outputLine? (world : World) (args : List String) : Option String × World :=
  match output world args with
  | (.ok text, world) =>
    let line := Text.trim text
    (if line = "" then none else some line, world)
  | (.error _, world) => (none, world)

/-- The last commit, if there is one. -/
def headCommit? (world : World) : Option String × World :=
  outputLine? world ["rev-parse", "--verify", "HEAD"]

/-- The author of the last commit. -/
def headAuthor? (world : World) : Option String × World :=
  outputLine? world ["log", "-1", "--format=%an <%ae>"]

/-- The changes between a commit and the working tree, untracked files included. -/
def changesSince (world : World) (commit : String) : Except GitError ChangeSet × World :=
  match output world ["diff", "--name-status", "--no-renames", "-z", commit] with
  | (.error e, world) => (.error e, world)
  | (.ok report, world) =>
    match output world ["ls-files", "--others", "--exclude-standard", "-z"] with
    | (.error e, world) => (.error e, world)
    | (.ok listing, world) =>
      let untracked := (Text.split '\x00' listing).filter (· ≠ "")
      (.ok (.ofChanges (parseNameStatus report ++ untracked.map (⟨·, .added⟩))), world)

/-- Clone an address into a directory. -/
def clone (world : World) (url destination : String) : Except GitError Unit × World :=
  match world.files.createDirectories ((PathText.parent? destination).getD "") with
  | (.error e, fs) => (.error (.io e), { world with files := fs })
  | (.ok (), fs) =>
    let (answer, world) := { world with files := fs }.askGit ["clone", "--quiet", url, destination]
    if answer.code = 0 then (openTree world.files destination, world)
    else (.error (.cloneFailed url (Text.trim answer.stderr)), world)

end Git

end CodeAtlas
