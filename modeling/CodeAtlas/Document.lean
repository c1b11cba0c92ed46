import CodeAtlas.CodeGraph

/-!
# Graph documents

A document is a graph as it is kept in storage, together with the state of the repository it
describes: where the repository came from and the commit the graph was built at. The version of the
layout is part of it, and only the current version can be read.
-/

namespace CodeAtlas

/-- The version of the stored layout. -/
def currentSchema : String :=
  "1.0"

/-- A graph with the repository state it describes. -/
structure Document where
  schemaVersion : String
  /-- Name or source address of the repository. -/
  repository : Option String
  /-- The commit the graph was built at. -/
  commitHash : Option String
  graph : CodeGraph
deriving DecidableEq, Inhabited

/-- The document of a graph, of the current version. -/
def Document.ofGraph (graph : CodeGraph) (repository commitHash : Option String) : Document where
  schemaVersion := currentSchema
  repository := repository
  commitHash := commitHash
  graph := graph

/-- The document has the current version. -/
def Document.isCurrent (document : Document) : Bool :=
  document.schemaVersion == currentSchema

end CodeAtlas
