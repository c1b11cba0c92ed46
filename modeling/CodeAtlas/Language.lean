import CodeAtlas.PathText
import CodeAtlas.Text.LetterCase

/-!
# Supported languages

The programming languages whose files are analyzed, how they are recognized from a file's
extension, and the dotted names under which the symbols of a file are known.
-/

namespace CodeAtlas

/-- A supported programming language. -/
inductive Language where
  | python
  | javaScript
  | typeScript
  | tsx
  | rust
  | go
  | c
  | cpp
  | cSharp
deriving DecidableEq, Repr, Inhabited

namespace Language

/-- All languages. -/
def all : List Language :=
  [.python, .javaScript, .typeScript, .tsx, .rust, .go, .c, .cpp, .cSharp]

/-- The name of a language. -/
def name : Language → String
  | .python => "python"
  | .javaScript => "javascript"
  | .typeScript => "typescript"
  | .tsx => "tsx"
  | .rust => "rust"
  | .go => "go"
  | .c => "c"
  | .cpp => "cpp"
  | .cSharp => "csharp"

/-- The language with a given name. -/
def ofName? (s : String) : Option Language :=
  all.find? fun language => language.name == s

/-- The extensions of a language's files. -/
def extensions : Language → List String
  | .python => ["py"]
  | .javaScript => ["js", "mjs", "cjs", "jsx"]
  | .typeScript => ["ts"]
  | .tsx => ["tsx"]
  | .rust => ["rs"]
  | .go => ["go"]
  | .c => ["c", "h"]
  | .cpp => ["cpp", "hpp", "cc", "cxx", "hh"]
  | .cSharp => ["cs"]

/-- The language of files with the given extension, in any letter case. -/
def ofExtension? (extension : String) : Option Language :=
  all.find? fun language => language.extensions.contains (Text.lower extension)

/-- The language of the file at a path. -/
def ofPath? (path : String) : Option Language :=
  (PathText.extension? path).bind ofExtension?

/-- The path without the extension of its last segment. A last segment whose only dot is its first
character, or which follows no slash and starts with it, is kept whole. -/
def withoutExtension (path : String) : String :=
  let (folder, name) : List Char × List Char :=
    match Text.cutLast? '/' path.toList with
    | some (folder, name) => (folder ++ ['/'], name)
    | none => ([], path.toList)
  match Text.cutLast? '.' name with
  | some (before, _) => if before.isEmpty then path else String.ofList (folder ++ before)
  | none => path

/-- The non-empty segments of a path with either kind of slash. -/
def segments (path : String) : List String :=
  (Text.split '/' path).filter (· ≠ "")

/-- The segments of a module's path that its language counts: a package is named by its directory,
and a leading source directory is left out where the language does so. -/
def moduleSegments (language : Language) (segments : List String) : List String :=
  match language with
  | .python =>
    if segments.length > 1 ∧ segments.getLast? = some "__init__" then segments.dropLast
    else segments
  | .rust =>
    let segments :=
      if segments.length > 1 ∧ segments.head? = some "src" then segments.tail else segments
    if segments.length > 1 ∧ segments.getLast? = some "mod" then segments.dropLast
    else segments
  | _ => segments

/-- The dotted module path of a file, which is also the name of the file's remainder. -/
def modulePath (language : Language) (relativePath : String) : String :=
  let normalized := Text.replaceChar '\\' '/' relativePath
  Text.join "." (moduleSegments language (segments (withoutExtension normalized)))

/-- Symbols belong to the directory of their file, not to the file. -/
def isPackageScoped : Language → Bool
  | .go => true
  | _ => false

/-- The dotted directory of a path, when it names one. -/
def packagePath? (relativePath : String) : Option String :=
  match Text.cutLast? '/' (Text.replaceChar '\\' '/' relativePath).toList with
  | some (folder, _) =>
    match segments (String.ofList folder) with
    | [] => none
    | names => some (Text.join "." names)
  | none => none

/-- What the qualified names of a file's symbols start with: the package where symbols belong to it,
the module otherwise. -/
def symbolQualifier (language : Language) (relativePath : String) : String :=
  if language.isPackageScoped then
    (packagePath? relativePath).getD (language.modulePath relativePath)
  else
    language.modulePath relativePath

end Language

end CodeAtlas
