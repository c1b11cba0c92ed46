import CodeAtlas.Document
import CodeAtlas.Json

/-!
# Documents as JSON

A document is written as one object whose members stand in a fixed order: version, repository,
commit, components, files and external symbols. Repository, commit and the parent of a component are
left out when there is none. A reader takes the lists of a component or of a file as empty when they
are absent, and passes over members it does not know.
-/

namespace CodeAtlas

open Json (asText? asNat? asList? asMembers? asOption? fields? required? optional? variant?)

/-- A member for a text, if there is one. -/
def Json.optionalMember (name : String) (value : Option String) : List (String × Json) :=
  value.toList.map fun text => (name, .string text)

/-- A list of texts that may be absent. -/
def Json.textsOrNone? (field : Option Json) : Option (List String) :=
  optional? [] (asList? asText?) field

/-- A text that may be absent or null. -/
def Json.textOrNone? (field : Option Json) : Option (Option String) :=
  optional? none (asOption? asText?) field

/-! ## Spans -/

/-- The object of a span. -/
def Span.toJson (span : Span) : Json :=
  .object [("start", .nat span.start), ("end", .nat span.stop)]

/-- The span of an object. -/
def Span.ofJson? (value : Json) : Option Span := do
  match ← fields? ["start", "end"] value with
  | [start, stop] => return ⟨← required? asNat? start, ← required? asNat? stop⟩
  | _ => none

/-! ## Components -/

/-- The names of a component's members. -/
def Component.members : List String :=
  ["id", "qualified_name", "code_text", "kind", "file_id", "parent_id", "spans",
    "linked_component_ids", "external_component_ids", "referenced_symbols"]

/-- The object of a component. -/
def Component.toJson (c : Component) : Json :=
  .object (
    [("id", .string c.id), ("qualified_name", .string c.qualifiedName),
      ("code_text", .string c.codeText), ("kind", .string c.kind.name),
      ("file_id", .string c.fileId)]
    ++ Json.optionalMember "parent_id" c.parentId
    ++ [("spans", .array (c.spans.map Span.toJson)),
      ("linked_component_ids", .texts c.linkedIds),
      ("external_component_ids", .texts c.externalIds),
      ("referenced_symbols", .texts c.referencedSymbols)])

/-- The component of an object. -/
def Component.ofJson? (value : Json) : Option Component := do
  match ← fields? Component.members value with
  | [id, name, code, kind, file, parent, spans, linked, external, referenced] =>
    return {
      id := ← required? asText? id
      qualifiedName := ← required? asText? name
      codeText := ← required? asText? code
      kind := ← required? (variant? ComponentKind.ofName?) kind
      fileId := ← required? asText? file
      parentId := ← Json.textOrNone? parent
      spans := ← optional? [] (asList? Span.ofJson?) spans
      linkedIds := ← Json.textsOrNone? linked
      externalIds := ← Json.textsOrNone? external
      referencedSymbols := ← Json.textsOrNone? referenced }
  | _ => none

/-! ## Files -/

/-- The names of a file's members. -/
def SourceFile.members : List String :=
  ["id", "relative_path", "imports", "called_symbols", "callable_symbols", "formatted_text"]

/-- The object of a file. -/
def SourceFile.toJson (file : SourceFile) : Json :=
  .object [("id", .string file.id), ("relative_path", .string file.relativePath),
    ("imports", .texts file.imports), ("called_symbols", .texts file.calledSymbols),
    ("callable_symbols", .texts file.callableSymbols),
    ("formatted_text", .string file.formattedText)]

/-- The file of an object. -/
def SourceFile.ofJson? (value : Json) : Option SourceFile := do
  match ← fields? SourceFile.members value with
  | [id, path, imports, called, callable, text] =>
    return {
      id := ← required? asText? id
      relativePath := ← required? asText? path
      imports := ← Json.textsOrNone? imports
      calledSymbols := ← Json.textsOrNone? called
      callableSymbols := ← Json.textsOrNone? callable
      formattedText := ← required? asText? text }
  | _ => none

/-! ## External symbols -/

/-- The object with a member for each name. -/
def SymbolTable.toJson (table : SymbolTable) : Json :=
  .object (table.entries.map fun (name, id) => (name, .string id))

/-- The table of an object; of repeated names the last counts. -/
def SymbolTable.ofJson? (value : Json) : Option SymbolTable :=
  (asMembers? asText? value).map fun entries => .ofList entries.reverse

/-! ## Documents -/

/-- The names of a document's members. -/
def Document.members : List String :=
  ["schema_version", "repository", "commit_hash", "components", "files", "external_symbols"]

/-- The members of a graph. -/
def CodeGraph.toMembers (graph : CodeGraph) : List (String × Json) :=
  [("components", .array (graph.components.map Component.toJson)),
    ("files", .array (graph.files.map SourceFile.toJson)),
    ("external_symbols", graph.externalSymbols.toJson)]

/-- The object of a document. -/
def Document.toJson (document : Document) : Json :=
  .object (
    [("schema_version", .string document.schemaVersion)]
    ++ Json.optionalMember "repository" document.repository
    ++ Json.optionalMember "commit_hash" document.commitHash
    ++ document.graph.toMembers)

/-- The graph of three fields. -/
def CodeGraph.ofFields? (components files externals : Option Json) : Option CodeGraph :=
  return {
    components := ← required? (asList? Component.ofJson?) components
    files := ← required? (asList? SourceFile.ofJson?) files
    externalSymbols := ← required? SymbolTable.ofJson? externals }

/-- The document of an object. -/
def Document.ofJson? (value : Json) : Option Document := do
  match ← fields? Document.members value with
  | [version, repository, commit, components, files, externals] =>
    return {
      schemaVersion := ← required? asText? version
      repository := ← Json.textOrNone? repository
      commitHash := ← Json.textOrNone? commit
      graph := ← CodeGraph.ofFields? components files externals }
  | _ => none

end CodeAtlas
