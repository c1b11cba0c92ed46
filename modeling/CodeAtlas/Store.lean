import CodeAtlas.DatabaseFile
import CodeAtlas.Document.Rows
import CodeAtlas.Text.LetterCase

/-!
# Stores

A store is a place where a document is kept, with the format in which it is written there. Saving
writes a staging file beside the place and then moves it, so that a save that fails leaves the
previous document readable.
-/

namespace CodeAtlas

/-- The format of a stored document. -/
inductive GraphFormat where
  | json
  | sqlite
deriving DecidableEq, Repr, Inhabited

namespace GraphFormat

/-- The name of a format. -/
def name : GraphFormat → String
  | json => "json"
  | sqlite => "sqlite"

/-- The usual file name of a document in this format. -/
def fileName : GraphFormat → String
  | json => "graph.json"
  | sqlite => "graph.db"

/-- The format a path's extension suggests; JSON if it suggests none. -/
def ofPath (path : String) : GraphFormat :=
  match PathText.extension? path with
  | some "db" | some "sqlite" | some "sqlite3" => .sqlite
  | _ => .json

/-- The format a lowercase word stands for. -/
def ofWord? : String → Option GraphFormat
  | "json" => some .json
  | "sqlite" | "db" => some .sqlite
  | _ => none

end GraphFormat

/-- Reasons why a document cannot be saved or loaded. -/
inductive StoreError where
  | io (reason : IoError)
  | invalidJson
  | invalidDatabase
  | notFound (path : String)
  | otherVersion (found : String)
  | corrupt (reason : String)
  | unknownFormat (word : String)
deriving DecidableEq, Repr, Inhabited

namespace StoreError

/-- The wording of a store error. -/
def message : StoreError → String
  | io reason => "IO error: " ++ reason.message
  | invalidJson => "JSON serialization error: not a graph document"
  | invalidDatabase => "SQLite error: not a graph database"
  | notFound path => "Graph not found: " ++ path
  | otherVersion found =>
    "Schema version mismatch: expected " ++ currentSchema ++ ", found " ++ found
  | corrupt reason => "Corrupt graph store: " ++ reason
  | unknownFormat word => "Unknown graph format: " ++ word

/-- The store error for rows that make up no document. -/
def ofRows : RowError → StoreError
  | .missingVersion => corrupt "missing schema_version"
  | .otherVersion found => otherVersion found
  | .missingDetails node => corrupt ("node " ++ node ++ " has no metadata")
  | .invalidDetails => invalidJson
  | .missingKind component => corrupt ("component " ++ component ++ " has no kind")
  | .missingFile component => corrupt ("component " ++ component ++ " has no file")
  | .unexpectedTarget nodeType => corrupt ("USES edge to unexpected node type " ++ nodeType)

end StoreError

/-- The format with a given name, in any case of ASCII letters. -/
def GraphFormat.parse (word : String) : Except StoreError GraphFormat :=
  let lowered := Text.lowerAscii word
  match ofWord? lowered with
  | some format => .ok format
  | none => .error (.unknownFormat lowered)

/-- A place for a document and the format used there. -/
structure GraphStore where
  path : String
  format : GraphFormat
deriving DecidableEq, Repr, Inhabited

namespace GraphStore

/-- The store at a path, in the format its extension suggests. -/
def ofPath (path : String) : GraphStore :=
  ⟨path, .ofPath path⟩

/-- The store in a directory, under the usual name of its format. -/
def inDirectory (directory : String) (format : GraphFormat) : GraphStore :=
  ⟨PathText.join directory format.fileName, format⟩

/-- There is a file at the store's place. -/
def isPresent (store : GraphStore) (fs : FileSystem) : Bool :=
  fs.isFile store.path

/-- The place of the staging file. -/
def stagingPath (store : GraphStore) : String :=
  PathText.withFileName store.path ((PathText.fileName? store.path).getD "" ++ ".tmp")

/-- The text of a document in JSON. -/
def jsonText (document : Document) : String :=
  document.toJson.pretty ++ "\n"

/-- What is written for a document. -/
def contentOf (format : GraphFormat) (document : Document) : Content :=
  match format with
  | .json => .text (jsonText document)
  | .sqlite => .database document.toRows

/-- Remove the files that are at some paths, one after the other up to the first that cannot be
removed. -/
def removePresent : List String → FileSystem → Except IoError Unit × FileSystem
  | [], fs => (.ok (), fs)
  | path :: rest, fs =>
    if fs.pathExists path then
      match fs.removeFile path with
      | .error e => (.error e, fs)
      | .ok fs => removePresent rest fs
    else removePresent rest fs

/-- Write the staging file. A database starts from an empty file. -/
def writeStaging (store : GraphStore) (document : Document) (fs : FileSystem) :
    Except StoreError Unit × FileSystem :=
  match store.format with
  | .json =>
    match fs.write store.stagingPath (.text (jsonText document)) with
    | .error e => (.error (.io e), fs)
    | .ok fs => (.ok (), fs)
  | .sqlite =>
    match removePresent [store.stagingPath] fs with
    | (.error e, fs) => (.error (.io e), fs)
    | (.ok (), fs) =>
      match fs.createDatabase store.stagingPath document.toRows with
      | (.error _, fs) => (.error .invalidDatabase, fs)
      | (.ok (), fs) => (.ok (), fs)

/-- The files beside a database that must not be applied to a new one. -/
def sidecars (store : GraphStore) : List String :=
  match store.format with
  | .json => []
  | .sqlite => [FileSystem.logPath store.path, FileSystem.indexPath store.path]

/-- Create the directory of the store's place. -/
def createParent (store : GraphStore) (fs : FileSystem) : Except IoError Unit × FileSystem :=
  match PathText.parent? store.path with
  | some parent => fs.createDirectories parent
  | none => (.ok (), fs)

/-- Save a document. The file system is given back also when saving fails. -/
def save (store : GraphStore) (document : Document) (fs : FileSystem) :
    Except StoreError Unit × FileSystem :=
  match store.createParent fs with
  | (.error e, fs) => (.error (.io e), fs)
  | (.ok (), fs) =>
    match store.writeStaging document fs with
    | (.error e, fs) => (.error e, fs.discard store.stagingPath)
    | (.ok (), fs) =>
      match removePresent store.sidecars fs with
      | (.error e, fs) => (.error (.io e), fs)
      | (.ok (), fs) =>
        match fs.rename store.stagingPath store.path with
        | .error e => (.error (.io e), fs)
        | .ok fs => (.ok (), fs)

/-- The document of a file's content. -/
def read (format : GraphFormat) (content : Content) : Except StoreError Document :=
  match format, content with
  | .json, .text text =>
    match (Json.parse? text).bind Document.ofJson? with
    | none => .error .invalidJson
    | some document =>
      if document.isCurrent then .ok document else .error (.otherVersion document.schemaVersion)
  | .json, _ => .error .invalidJson
  | .sqlite, .database rows => (Document.ofRows rows).mapError StoreError.ofRows
  | .sqlite, _ => .error .invalidDatabase

/-- Load the document. The file system is given back, since opening a database can change it. -/
def load (store : GraphStore) (fs : FileSystem) : Except StoreError Document × FileSystem :=
  match fs.content? store.path with
  | none => (.error (.notFound store.path), fs)
  | some content =>
    match store.format with
    | .json => (read .json content, fs)
    | .sqlite =>
      match fs.openDatabase store.path with
      | (none, fs) => (.error .invalidDatabase, fs)
      | (some rows, fs) => (read .sqlite (.database rows), fs)

end GraphStore

end CodeAtlas
