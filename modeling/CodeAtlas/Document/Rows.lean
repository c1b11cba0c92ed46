import CodeAtlas.Database
import CodeAtlas.Document.Json
import CodeAtlas.Json.Parser
import CodeAtlas.Json.Printer

/-!
# Documents as rows

A document is written to an empty database: its version, repository and commit as named values, then
one node for each file, external symbol and component, and the edges of each component. Reading puts
the same document together again, as long as no identifier is repeated.
-/

namespace CodeAtlas

/-- Reasons why rows do not make up a document. -/
inductive RowError where
  | missingVersion
  | otherVersion (found : String)
  | missingDetails (node : String)
  | invalidDetails
  | missingKind (component : String)
  | missingFile (component : String)
  | unexpectedTarget (nodeType : String)
deriving DecidableEq, Repr, Inhabited

namespace Rows

/-- The sort of files. -/
def fileType : String := "file"

/-- The sort of components. -/
def componentType : String := "component"

/-- The sort of external symbols. -/
def externalType : String := "external"

/-- The sort of edges to what a component refers to. -/
def usesType : String := "USES"

/-- The sort of edges to the file of a component. -/
def insideType : String := "INSIDE"

/-! ## Writing -/

/-- The lists of a file, as JSON text. -/
def fileDetails (file : SourceFile) : String :=
  Json.compact (.object [("imports", .texts file.imports),
    ("called_symbols", .texts file.calledSymbols),
    ("callable_symbols", .texts file.callableSymbols)])

/-- The lists of a component, as JSON text. -/
def componentDetails (c : Component) : String :=
  Json.compact (.object [("spans", .array (c.spans.map Span.toJson)),
    ("referenced_symbols", .texts c.referencedSymbols)])

/-- The row of a file. -/
def ofFile (file : SourceFile) (position : Nat) : NodeRow where
  position := position
  id := file.id
  nodeType := fileType
  name := file.relativePath
  kind := none
  fileId := none
  parentId := none
  text := some file.formattedText
  details := some (fileDetails file)

/-- The row of an external symbol. -/
def ofExternal (entry : String × ExternalId) (position : Nat) : NodeRow where
  position := position
  id := entry.2
  nodeType := externalType
  name := entry.1
  kind := none
  fileId := none
  parentId := none
  text := none
  details := none

/-- The row of a component. -/
def ofComponent (c : Component) (position : Nat) : NodeRow where
  position := position
  id := c.id
  nodeType := componentType
  name := c.qualifiedName
  kind := some c.kind.name
  fileId := some c.fileId
  parentId := c.parentId
  text := some c.codeText
  details := some (componentDetails c)

/-- The edges of a component: to its file, to components, to external symbols. -/
def edgesOf (c : Component) : List EdgeRow :=
  ⟨c.id, c.fileId, fileType, insideType⟩
    :: c.linkedIds.map (⟨c.id, ·, componentType, usesType⟩)
    ++ c.externalIds.map (⟨c.id, ·, externalType, usesType⟩)

/-- The rows of a list, each with its place. -/
def numbered {α : Type} (row : α → Nat → NodeRow) (items : List α) : List NodeRow :=
  items.zipIdx.map fun (item, position) => row item position

end Rows

/-- The named values of a document. -/
def Document.values (document : Document) : List (String × String) :=
  ("schema_version", document.schemaVersion)
    :: document.repository.toList.map ("repository", ·)
    ++ document.commitHash.toList.map ("commit_hash", ·)

/-- All node rows of a document, repetitions included. -/
def Document.nodeRows (document : Document) : List NodeRow :=
  Rows.numbered Rows.ofFile document.graph.files
    ++ Rows.numbered Rows.ofExternal document.graph.externalSymbols.entries
    ++ Rows.numbered Rows.ofComponent document.graph.components

/-- The rows of a document. -/
def Document.toRows (document : Document) : Database :=
  let values := document.values.foldl (fun db entry => db.putValue entry.1 entry.2) Database.empty
  let nodes := document.nodeRows.foldl Database.putNode values
  nodes.addEdges (document.graph.components.flatMap Rows.edgesOf)

/-! ## Reading -/

namespace Rows

/-- The lists of a row, which must be there and be JSON of the expected form. -/
def detailsOf {α : Type} (read : Json → Option α) (row : NodeRow) : Except RowError α :=
  match row.details with
  | none => .error (.missingDetails row.id)
  | some text =>
    match (Json.parse? text).bind read with
    | some value => .ok value
    | none => .error .invalidDetails

/-- The three lists of a file. -/
def readFileLists (value : Json) : Option (List String × List String × List String) := do
  let list := Json.required? (Json.asList? Json.asText?)
  match ← Json.fields? ["imports", "called_symbols", "callable_symbols"] value with
  | [imports, called, callable] => return (← list imports, ← list called, ← list callable)
  | _ => none

/-- The two lists of a component. -/
def readComponentLists (value : Json) : Option (List Span × List String) := do
  match ← Json.fields? ["spans", "referenced_symbols"] value with
  | [spans, referenced] =>
    return (← Json.required? (Json.asList? Span.ofJson?) spans,
      ← Json.required? (Json.asList? Json.asText?) referenced)
  | _ => none

/-- The file of a row. -/
def toFile (row : NodeRow) : Except RowError SourceFile := do
  let (imports, called, callable) ← detailsOf readFileLists row
  return {
    id := row.id
    relativePath := row.name
    imports := imports
    calledSymbols := called
    callableSymbols := callable
    formattedText := row.text.getD "" }

/-- The first edge whose target is neither a component nor an external symbol. -/
def strayTarget? (edges : List EdgeRow) : Option String :=
  (edges.map (·.targetType)).find? fun t => t != componentType && t != externalType

/-- The targets of a component's edges that have the given sort. -/
def targets (edges : List EdgeRow) (source targetType : String) : List String :=
  (edges.filter fun edge => edge.source == source && edge.targetType == targetType).map (·.target)

/-- The component of a row, with the edges that start at it. -/
def toComponent (uses : List EdgeRow) (row : NodeRow) : Except RowError Component := do
  let (spans, referenced) ← detailsOf readComponentLists row
  match row.kind.bind ComponentKind.ofName?, row.fileId with
  | none, _ => throw (.missingKind row.id)
  | some _, none => throw (.missingFile row.id)
  | some kind, some fileId =>
    return {
      id := row.id
      qualifiedName := row.name
      codeText := row.text.getD ""
      kind := kind
      fileId := fileId
      parentId := row.parentId
      spans := spans
      linkedIds := targets uses row.id componentType
      externalIds := targets uses row.id externalType
      referencedSymbols := referenced }

end Rows

/-- The document of some rows. -/
def Document.ofRows (db : Database) : Except RowError Document := do
  let some version := db.value? "schema_version" | throw .missingVersion
  if version != currentSchema then throw (.otherVersion version)
  let files ← (db.nodesOfType Rows.fileType).mapM Rows.toFile
  let externals := SymbolTable.ofList
    ((db.nodesOfType Rows.externalType).map fun row => (row.name, row.id))
  let uses := db.edgesOfType Rows.usesType
  if let some stray := Rows.strayTarget? uses then throw (.unexpectedTarget stray)
  let components ← (db.nodesOfType Rows.componentType).mapM (Rows.toComponent uses)
  return {
    schemaVersion := version
    repository := db.value? "repository"
    commitHash := db.value? "commit_hash"
    graph := ⟨components, files, externals⟩ }

end CodeAtlas
