import CodeAtlas.Attribute
import CodeAtlas.PathText

/-!
# Containers

The state of one pipeline run: which repository it is about, and the attributes set so far. Reading
an attribute fails when it is not set or holds a value of another sort.
-/

namespace CodeAtlas

/-- Where a repository is and where its graph goes. -/
structure RepositoryIdentity where
  name : String
  /-- The working tree. -/
  path : String
  /-- The place of the stored graph. -/
  persistPath : String
  /-- The address to clone from, if the tree is fetched. -/
  url : Option String
deriving DecidableEq, Repr, Inhabited

namespace RepositoryIdentity

/-- A local working tree, named after its directory. -/
def ofPath (path persistPath : String) : RepositoryIdentity where
  name := (PathText.fileName? path).getD path
  path := path
  persistPath := persistPath
  url := none

/-- The last segment of an address, without `.git` at its end. -/
def nameOfUrl (url : String) : String :=
  let segments := Text.splitChars (fun c => c == '/' || c == ':')
    (Text.dropEndWhile (· == '/') url.toList)
  Text.dropSuffixes ".git" (String.ofList (segments.getLast?.getD []))

/-- A repository that is cloned from an address. -/
def ofUrl (url path persistPath : String) : RepositoryIdentity where
  name := nameOfUrl url
  path := path
  persistPath := persistPath
  url := some url

end RepositoryIdentity

/-- Reasons why an attribute cannot be read. -/
inductive AttributeError where
  | missing (key : AttributeKey)
  | wrongSort (key : AttributeKey) (expected found : ValueSort)
deriving DecidableEq, Repr, Inhabited

/-- The wording of an attribute's error. -/
def AttributeError.message : AttributeError → String
  | .missing key => "attribute `" ++ key.name ++ "` is not set"
  | .wrongSort key expected found =>
    "attribute `" ++ key.name ++ "` holds " ++ found.name ++ ", expected " ++ expected.name

/-- The state of a pipeline run. -/
structure Container where
  repository : RepositoryIdentity
  attributes : Attributes
deriving Inhabited

namespace Container

/-- There is a value under the key. -/
def has (container : Container) (key : AttributeKey) : Bool :=
  container.attributes.contains key

/-- The value under a key, as `view` sees it; `view` accepts the values of the expected sort. -/
def read {α : Type} (container : Container) (key : AttributeKey) (expected : ValueSort)
    (view : AttributeValue → Option α) : Except AttributeError α :=
  match container.attributes.get? key with
  | none => .error (.missing key)
  | some value =>
    match view value with
    | some seen => .ok seen
    | none => .error (.wrongSort key expected value.sort)

/-- The components. -/
def components (container : Container) : Except AttributeError (List Component) :=
  container.read .components .components fun
    | .components components => some components
    | _ => none

/-- The files. -/
def files (container : Container) : Except AttributeError (List SourceFile) :=
  container.read .files .files fun
    | .files files => some files
    | _ => none

/-- The table of external symbols. -/
def externalSymbols (container : Container) : Except AttributeError SymbolTable :=
  container.read .externalSymbols .externalSymbols fun
    | .externalSymbols table => some table
    | _ => none

/-- The changes. -/
def changes (container : Container) : Except AttributeError ChangeSet :=
  container.read .changes .changes fun
    | .changes changes => some changes
    | _ => none

/-- A text. -/
def text (container : Container) (key : AttributeKey) : Except AttributeError String :=
  container.read key .text fun
    | .text text => some text
    | _ => none

/-- A text that may be unset; a text that is set will do. -/
def optionalText (container : Container) (key : AttributeKey) :
    Except AttributeError (Option String) :=
  container.read key .optionalText fun
    | .optionalText text => some text
    | .text text => some (some text)
    | _ => none

/-- A truth value. -/
def flag (container : Container) (key : AttributeKey) : Except AttributeError Bool :=
  container.read key .flag fun
    | .flag flag => some flag
    | _ => none

/-- A path. -/
def path (container : Container) (key : AttributeKey) : Except AttributeError String :=
  container.read key .path fun
    | .path path => some path
    | _ => none

/-- The graph made up of three attributes. -/
def codeGraph (container : Container) : Except AttributeError CodeGraph := do
  let components ← container.components
  let files ← container.files
  let externalSymbols ← container.externalSymbols
  return ⟨components, files, externalSymbols⟩

/-- Set the attributes a stage returned. -/
def apply (container : Container) (updates : Attributes) : Container :=
  { container with attributes := container.attributes.apply updates }

end Container

end CodeAtlas
