/-!
# Stored rows

The relational form of a stored graph: a table of named values, a table of nodes and a table of
edges. A node is identified by its sort and its identifier, and a later row replaces an earlier one;
edges are only added.
-/

namespace CodeAtlas

/-- The row of a file, of a component or of an external symbol. -/
structure NodeRow where
  /-- The place in the order of its sort. -/
  position : Int
  id : String
  nodeType : String
  name : String
  kind : Option String
  fileId : Option String
  parentId : Option String
  text : Option String
  /-- The lists of the node, as JSON text. -/
  details : Option String
deriving DecidableEq, Repr, Inhabited

/-- The row of an edge. -/
structure EdgeRow where
  source : String
  target : String
  targetType : String
  edgeType : String
deriving DecidableEq, Repr, Inhabited

/-- The rows of a stored graph. -/
structure Database where
  metadata : List (String × String)
  nodes : List NodeRow
  edges : List EdgeRow
deriving DecidableEq, Repr, Inhabited

namespace Database

/-- No rows. -/
def empty : Database :=
  ⟨[], [], []⟩

/-- Set a named value. -/
def putValue (db : Database) (key value : String) : Database :=
  { db with metadata := db.metadata.filter (·.1 != key) ++ [(key, value)] }

/-- The named value. -/
def value? (db : Database) (key : String) : Option String :=
  db.metadata.lookup key

/-- Add a node, in place of one with the same sort and identifier. -/
def putNode (db : Database) (row : NodeRow) : Database :=
  { db with
    nodes := (db.nodes.filter fun old => !(old.nodeType == row.nodeType && old.id == row.id))
      ++ [row] }

/-- Add edges. -/
def addEdges (db : Database) (rows : List EdgeRow) : Database :=
  { db with edges := db.edges ++ rows }

/-- The nodes of one sort, by position. -/
def nodesOfType (db : Database) (nodeType : String) : List NodeRow :=
  (db.nodes.filter (·.nodeType == nodeType)).mergeSort fun a b => decide (a.position ≤ b.position)

/-- The edges of one sort, in the order in which they were added. -/
def edgesOfType (db : Database) (edgeType : String) : List EdgeRow :=
  db.edges.filter (·.edgeType == edgeType)

end Database

end CodeAtlas
