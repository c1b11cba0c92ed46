import CodeAtlas.ChangeSet
import CodeAtlas.CodeGraph

/-!
# Classification of a previous graph

Against a change set, each file of a previous graph is removed, stale or untouched, and its
components with it. A path that was both deleted and added is stale, and components of no known file
count as removed.
-/

namespace CodeAtlas

/-- What a change set means for a file of the previous graph. -/
inductive Bucket where
  | removed
  | stale
  | untouched
deriving DecidableEq, Repr, Inhabited

/-- The name of a bucket. -/
def Bucket.name : Bucket → String
  | .removed => "removed"
  | .stale => "stale"
  | .untouched => "untouched"

/-- Buckets by identifier; of repeated identifiers the first entry counts. -/
abbrev Buckets := List (String × Bucket)

namespace Buckets

/-- The table in which a later entry replaces an earlier one. -/
def ofPairs (pairs : List (String × Bucket)) : Buckets :=
  (pairs.reverse.foldl
    (fun kept entry => if kept.any (·.1 == entry.1) then kept else kept ++ [entry]) [])

/-- The bucket of an identifier. -/
def find? (buckets : Buckets) (id : String) : Option Bucket :=
  buckets.lookup id

/-- Number of identifiers in a bucket. -/
def count (buckets : Buckets) (bucket : Bucket) : Nat :=
  (buckets.filter (·.2 == bucket)).length

end Buckets

/-- The buckets of a previous graph's files and components. -/
structure Classification where
  files : Buckets
  components : Buckets
deriving DecidableEq, Repr, Inhabited

namespace Classification

/-- The bucket of a path. -/
def bucketOfPath (changes : ChangeSet) (path : String) : Bucket :=
  if changes.toProcess.contains path then .stale
  else if changes.deleted.contains path then .removed
  else .untouched

/-- The identifiers of the components that are not untouched. -/
def dropped (classification : Classification) : List ComponentId :=
  (classification.components.filter (·.2 != .untouched)).map (·.1)

end Classification

/-- Classify the files and components of a previous graph. -/
def classify (previous : CodeGraph) (changes : ChangeSet) : Classification :=
  let files := Buckets.ofPairs (previous.files.map fun file =>
    (file.id, Classification.bucketOfPath changes file.relativePath))
  { files := files
    components := .ofPairs (previous.components.map fun c =>
      (c.id, (files.find? c.fileId).getD .removed)) }

end CodeAtlas
