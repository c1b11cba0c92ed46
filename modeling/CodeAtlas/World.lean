import CodeAtlas.FileSystem
import CodeAtlas.SymbolTable

/-!
# The outside world

What a run depends on besides its input: the files, the answers of the version control program, the
supply of new identifiers, and the user's home directory. A step that has an effect takes a world
and gives back the world after it.
-/

namespace CodeAtlas

/-- An answer of the version control program to given arguments. -/
structure GitAnswer where
  args : List String
  code : Nat
  stdout : String
  stderr : String
  /-- A working tree that the answer creates. -/
  created : Option String
  /-- The files in the created tree, by relative path. -/
  files : List (String × String)
deriving DecidableEq, Repr, Inhabited

/-- The answer to arguments that nothing is known about. -/
def GitAnswer.unknown (args : List String) : GitAnswer where
  args := args
  code := 128
  stdout := ""
  stderr := "fatal: no scripted response\n"
  created := none
  files := []

/-- The state of everything outside. -/
structure World where
  files : FileSystem
  /-- The answers that are known; the first one to the given arguments counts. -/
  gitAnswers : List GitAnswer
  supply : IdSupply
  home : String
deriving DecidableEq, Repr, Inhabited

namespace World

/-- Write a file and create the directories above it. -/
def place (fs : FileSystem) (path : String) (content : Content) : FileSystem :=
  let (_, fs) := fs.createDirectories ((PathText.parent? path).getD "")
  match fs.write path content with
  | .ok fs => fs
  | .error _ => fs

/-- Create a working tree with files in it. -/
def createTree (fs : FileSystem) (root : String) (files : List (String × String)) : FileSystem :=
  let (_, fs) := fs.createDirectories (PathText.join root ".git")
  files.foldl (fun fs (path, text) => place fs (PathText.join root path) (.text text)) fs

/-- Ask the version control program. -/
def askGit (world : World) (args : List String) : GitAnswer × World :=
  let answer := (world.gitAnswers.find? (·.args == args)).getD (.unknown args)
  match answer.created with
  | none => (answer, world)
  | some root => (answer, { world with files := createTree world.files root answer.files })

end World

end CodeAtlas
