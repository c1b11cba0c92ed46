import CodeAtlas.CodeGraph
import CodeAtlas.Text.Sorted

/-!
# Validation

What must hold of a graph: links lead to components that are referred to, external edges to known
symbols, no two external names share an identifier, components belong to known files, and every byte
of a file belongs to exactly one component. Each violation is an issue.
-/

namespace CodeAtlas

/-- A violated property of a graph. -/
inductive Issue where
  /-- A link to a component that is not in the graph. -/
  | danglingLink (component : String) (target : ComponentId)
  /-- A link to a component whose name is not referred to. -/
  | unreferencedLink (component target : String)
  /-- An edge to an identifier that is not in the table of external symbols. -/
  | unknownExternal (component : String) (external : ExternalId)
  /-- An identifier of several external names. -/
  | duplicateExternalId (id : ExternalId) (names : List String)
  /-- A component of a file that is not in the graph. -/
  | unknownFile (component : String) (file : FileId)
  /-- Bytes of a file that belong to no component. -/
  | coverageGap (file : String) (span : Span)
  /-- Bytes of a file that belong to more than one component. -/
  | coverageOverlap (file : String) (span : Span)
deriving DecidableEq, Repr, Inhabited

namespace Issue

private def bytes (span : Span) : String :=
  toString span.start ++ ".." ++ toString span.stop

/-- The wording of an issue. -/
def message : Issue → String
  | danglingLink component target => component ++ " links to missing component " ++ target
  | unreferencedLink component target =>
    component ++ " links to " ++ target ++ " without referencing it"
  | unknownExternal component external =>
    component ++ " uses unknown external id " ++ external
  | duplicateExternalId id names =>
    "external id " ++ id ++ " is shared by " ++ Text.join ", " names
  | unknownFile component file => component ++ " belongs to missing file " ++ file
  | coverageGap file span => file ++ ": bytes " ++ bytes span ++ " not covered"
  | coverageOverlap file span => file ++ ": bytes " ++ bytes span ++ " covered twice"

end Issue

namespace Validation

/-- The names with a given external identifier, in order. -/
def namesOf (table : SymbolTable) (id : ExternalId) : List String :=
  (table.entries.filter (·.2 == id)).map (·.1)

/-- The identifiers that several external names share, in order. -/
def sharedExternals (table : SymbolTable) : List Issue :=
  (Text.sortedSet (table.entries.map (·.2))).filterMap fun id =>
    let names := namesOf table id
    if names.length > 1 then some (.duplicateExternalId id names) else none

/-- The issue of one link of a component. -/
def linkIssue (graph : CodeGraph) (c : Component) (target : ComponentId) : Option Issue :=
  match graph.components.reverse.find? (·.id == target) with
  | none => some (.danglingLink c.qualifiedName target)
  | some found =>
    if c.referencedSymbols.contains found.qualifiedName then none
    else some (.unreferencedLink c.qualifiedName found.qualifiedName)

/-- The issue of one external edge of a component. -/
def externalIssue (graph : CodeGraph) (c : Component) (external : ExternalId) : Option Issue :=
  if graph.externalSymbols.entries.any (·.2 == external) then none
  else some (.unknownExternal c.qualifiedName external)

/-- The issue of a component whose file is not in the graph. -/
def fileIssue (graph : CodeGraph) (c : Component) : Option Issue :=
  if graph.files.any (·.id == c.fileId) then none
  else some (.unknownFile c.qualifiedName c.fileId)

/-- The issues of one component: its file, its links, its external edges. -/
def componentIssues (graph : CodeGraph) (c : Component) : List Issue :=
  (fileIssue graph c).toList ++ c.linkedIds.filterMap (linkIssue graph c)
    ++ c.externalIds.filterMap (externalIssue graph c)

/-- The gaps and overlaps of sorted spans over a text, when everything before `cursor` has been
looked at. -/
def coverageFrom (file : String) (length : Nat) : Nat → List Span → List Issue
  | cursor, [] => if cursor < length then [.coverageGap file ⟨cursor, length⟩] else []
  | cursor, span :: rest =>
    let here : List Issue :=
      if cursor < span.start then [.coverageGap file ⟨cursor, span.start⟩]
      else if span.start < cursor then
        [.coverageOverlap file ⟨span.start, min cursor span.stop⟩]
      else []
    here ++ coverageFrom file length (max cursor span.stop) rest

/-- The spans of a file's components that have a position, in order of their starts. -/
def spansOf (graph : CodeGraph) (file : SourceFile) : List Span :=
  Span.sort (((graph.componentsInFile file.id).flatMap (·.spans)).filter (!·.isEmpty))

/-- The coverage issues of one file. -/
def coverageIssues (graph : CodeGraph) (file : SourceFile) : List Issue :=
  coverageFrom file.relativePath file.formattedText.utf8ByteSize 0 (spansOf graph file)

end Validation

/-- All issues of a graph. -/
def validate (graph : CodeGraph) : List Issue :=
  Validation.sharedExternals graph.externalSymbols
    ++ graph.components.flatMap (Validation.componentIssues graph)
    ++ graph.files.flatMap (Validation.coverageIssues graph)

end CodeAtlas
