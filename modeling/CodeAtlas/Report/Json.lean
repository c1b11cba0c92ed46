import CodeAtlas.Document.Json
import CodeAtlas.Query
import CodeAtlas.Update
import CodeAtlas.Validation

/-!
# Counts and nodes as JSON

The results of building, updating and querying, written as JSON objects whose members stand in a
fixed order.
-/

namespace CodeAtlas

open Json (nat)

/-! ## Changes -/

/-- The object of a change set. -/
def ChangeSet.toJson (set : ChangeSet) : Json :=
  .object [("modified", .texts set.modified), ("added", .texts set.added),
    ("deleted", .texts set.deleted)]

/-- The change set of an object. -/
def ChangeSet.ofJson? (value : Json) : Option ChangeSet := do
  let list := Json.required? (Json.asList? Json.asText?)
  match ← Json.fields? ["modified", "added", "deleted"] value with
  | [modified, added, deleted] => return ⟨← list modified, ← list added, ← list deleted⟩
  | _ => none

/-- The object of a change. -/
def FileChange.toJson (change : FileChange) : Json :=
  .object [("path", .string change.path), ("status", .string change.status.name)]

/-- The change of an object. -/
def FileChange.ofJson? (value : Json) : Option FileChange := do
  match ← Json.fields? ["path", "status"] value with
  | [path, status] =>
    return ⟨← Json.required? Json.asText? path,
      ← Json.required? (Json.variant? ChangeStatus.ofName?) status⟩
  | _ => none

/-! ## Counts -/

/-- The members of the counts of a linking pass. -/
def LinkStats.toMembers (stats : LinkStats) : List (String × Json) :=
  [("internal_links", nat stats.internalLinks), ("external_links", nat stats.externalLinks),
    ("new_external_symbols", nat stats.newExternalSymbols)]

/-- The object of the counts of a build. -/
def BuildStats.toJson (stats : BuildStats) : Json :=
  .object (
    [("files_seen", nat stats.filesSeen), ("files_extracted", nat stats.filesExtracted),
      ("files_failed", nat stats.filesFailed), ("components", nat stats.components),
      ("components_failed", nat stats.componentsFailed),
      ("duplicate_components", nat stats.duplicateComponents)]
    ++ stats.links.toMembers)

/-- The object of the counts of an update. -/
def UpdateStats.toJson (stats : UpdateStats) : Json :=
  .object [("removed_files", nat stats.removedFiles), ("stale_files", nat stats.staleFiles),
    ("untouched_files", nat stats.untouchedFiles),
    ("removed_components", nat stats.removedComponents),
    ("stale_components", nat stats.staleComponents),
    ("retained_components", nat stats.retainedComponents),
    ("pruned_links", nat stats.prunedLinks), ("rebuilt_files", nat stats.rebuiltFiles),
    ("rebuilt_components", nat stats.rebuiltComponents),
    ("relinked_components", nat stats.relinkedComponents), ("build", stats.build.toJson)]

/-- The object of the counts of a graph. -/
def GraphView.Stats.toJson (stats : GraphView.Stats) : Json :=
  .object [("files", nat stats.files), ("components", nat stats.components),
    ("external_symbols", nat stats.externalSymbols), ("internal_edges", nat stats.internalEdges),
    ("external_edges", nat stats.externalEdges),
    ("components_by_kind",
      .object (stats.componentsByKind.map fun (kind, count) => (kind, nat count)))]

/-! ## Nodes -/

/-- The members of a node, its sort first. -/
def GraphNode.toMembers : GraphNode → List (String × Json)
  | .file id path => [("type", .string "file"), ("id", .string id), ("path", .string path)]
  | .component id name kind =>
    [("type", .string "component"), ("id", .string id), ("name", .string name),
      ("kind", .string kind.name)]
  | .external id name =>
    [("type", .string "external"), ("id", .string id), ("name", .string name)]

/-- The object of a node. -/
def GraphNode.toJson (node : GraphNode) : Json :=
  .object node.toMembers

/-! ## Issues -/

/-- The members of an issue, its sort first. -/
def Issue.toMembers : Issue → List (String × Json)
  | .danglingLink component target =>
    [("issue", .string "dangling_link"), ("component", .string component),
      ("target", .string target)]
  | .unreferencedLink component target =>
    [("issue", .string "unreferenced_link"), ("component", .string component),
      ("target", .string target)]
  | .unknownExternal component external =>
    [("issue", .string "unknown_external"), ("component", .string component),
      ("external", .string external)]
  | .duplicateExternalId id names =>
    [("issue", .string "duplicate_external_id"), ("id", .string id), ("names", .texts names)]
  | .unknownFile component file =>
    [("issue", .string "unknown_file"), ("component", .string component),
      ("file", .string file)]
  | .coverageGap file span =>
    [("issue", .string "coverage_gap"), ("file", .string file), ("start", nat span.start),
      ("end", nat span.stop)]
  | .coverageOverlap file span =>
    [("issue", .string "coverage_overlap"), ("file", .string file), ("start", nat span.start),
      ("end", nat span.stop)]

end CodeAtlas
