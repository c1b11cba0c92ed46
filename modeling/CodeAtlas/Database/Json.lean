import CodeAtlas.Database
import CodeAtlas.Json
import CodeAtlas.Text.Sorted

/-!
# Stored rows as JSON

The rows of a stored graph as an object of three lists, in which a row is the list of its columns.
Named values are listed by name, and nodes by sort and position; edges keep their order.
-/

namespace CodeAtlas

/-- The columns of a node. -/
def NodeRow.toJson (row : NodeRow) : Json :=
  .array [.int row.position, .string row.id, .string row.nodeType, .string row.name,
    .text? row.kind, .text? row.fileId, .text? row.parentId, .text? row.text, .text? row.details]

/-- The node of a list of columns. -/
def NodeRow.ofJson? : Json → Option NodeRow
  | .array [position, id, nodeType, name, kind, fileId, parentId, text, details] => do
    return {
      position := ← position.asInt?
      id := ← id.asText?
      nodeType := ← nodeType.asText?
      name := ← name.asText?
      kind := kind.asText?
      fileId := fileId.asText?
      parentId := parentId.asText?
      text := text.asText?
      details := details.asText? }
  | _ => none

/-- The columns of an edge. -/
def EdgeRow.toJson (row : EdgeRow) : Json :=
  .texts [row.source, row.target, row.targetType, row.edgeType]

/-- The edge of a list of columns. -/
def EdgeRow.ofJson? (value : Json) : Option EdgeRow := do
  match ← value.asList? Json.asText? with
  | [source, target, targetType, edgeType] => return ⟨source, target, targetType, edgeType⟩
  | _ => none

/-- The named value of a list of two columns. -/
def Database.namedValue? (value : Json) : Option (String × String) := do
  match ← value.asList? Json.asText? with
  | [key, text] => return (key, text)
  | _ => none

/-- The object of a database. -/
def Database.toJson (db : Database) : Json :=
  let byPosition := db.nodes.mergeSort fun a b => decide (a.position ≤ b.position)
  .object
    [("metadata", .array ((Text.sortBy (·.1) db.metadata).map fun (key, text) =>
        .texts [key, text])),
      ("nodes", .array ((Text.sortBy (·.nodeType) byPosition).map NodeRow.toJson)),
      ("edges", .array (db.edges.map EdgeRow.toJson))]

/-- The database of an object. -/
def Database.ofJson? (value : Json) : Option Database := do
  let list {α : Type} (name : String) (read : Json → Option α) : Option (List α) :=
    (value.member? name).bind (Json.asList? read)
  return ⟨← list "metadata" namedValue?, ← list "nodes" NodeRow.ofJson?,
    ← list "edges" EdgeRow.ofJson?⟩

end CodeAtlas
