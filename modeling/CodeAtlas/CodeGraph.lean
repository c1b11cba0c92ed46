import CodeAtlas.SourceFile
import CodeAtlas.SymbolTable

/-!
# Code graphs

The graph of a repository: its components, its files, and the table of external symbols. A name
table maps qualified names to components; of several components with one name the last counts.
-/

namespace CodeAtlas

/-- Qualified names and the components they stand for; of repeated names the first entry counts. -/
abbrev NameTable := List (String × ComponentId)

namespace NameTable

/-- The component a name stands for. -/
def find? (table : NameTable) (name : String) : Option ComponentId :=
  table.lookup name

/-- The table in which a later entry replaces an earlier one with the same name. -/
def ofPairs (pairs : List (String × ComponentId)) : NameTable :=
  pairs.reverse

/-- The table in which the entries of `newer` come before those of `older`. -/
def override (older newer : NameTable) : NameTable :=
  newer ++ older

/-- The entries that count, each name once. -/
def bindings (table : NameTable) : List (String × ComponentId) :=
  table.foldl
    (fun kept entry => if kept.any (·.1 == entry.1) then kept else kept ++ [entry]) []

end NameTable

/-- The dependency graph of one repository. -/
structure CodeGraph where
  components : List Component
  files : List SourceFile
  externalSymbols : SymbolTable
deriving DecidableEq, Inhabited

namespace CodeGraph

/-- The graph of an empty repository. -/
def empty : CodeGraph :=
  ⟨[], [], .empty⟩

/-- The first component with the given identifier. -/
def component? (graph : CodeGraph) (id : ComponentId) : Option Component :=
  graph.components.find? (·.id == id)

/-- The last component with the given qualified name. -/
def componentByName? (graph : CodeGraph) (name : String) : Option Component :=
  graph.components.reverse.find? (·.qualifiedName == name)

/-- The first file with the given identifier. -/
def file? (graph : CodeGraph) (id : FileId) : Option SourceFile :=
  graph.files.find? (·.id == id)

/-- The first file with the given path. -/
def fileByPath? (graph : CodeGraph) (relativePath : String) : Option SourceFile :=
  graph.files.find? (·.relativePath == relativePath)

/-- The components of a file, in order. -/
def componentsInFile (graph : CodeGraph) (fileId : FileId) : List Component :=
  graph.components.filter (·.fileId == fileId)

/-- The table of the names of all components. -/
def nameTable (graph : CodeGraph) : NameTable :=
  .ofPairs (graph.components.map fun c => (c.qualifiedName, c.id))

/-- The graph has neither components nor files. -/
def isEmpty (graph : CodeGraph) : Bool :=
  graph.components.isEmpty && graph.files.isEmpty

end CodeGraph

end CodeAtlas
