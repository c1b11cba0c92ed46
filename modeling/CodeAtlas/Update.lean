import CodeAtlas.Builder
import CodeAtlas.Classification

/-!
# Updating graphs

A graph is brought up to date with a change set: what the changes do not touch is retained, without
links to what they do touch, the changed files are built anew against the names that were retained,
and both parts are merged. Untouched components keep their identifiers, and external symbols keep
theirs.
-/

namespace CodeAtlas

/-- Counts of one update. -/
structure UpdateStats where
  removedFiles : Nat := 0
  staleFiles : Nat := 0
  untouchedFiles : Nat := 0
  removedComponents : Nat := 0
  staleComponents : Nat := 0
  retainedComponents : Nat := 0
  prunedLinks : Nat := 0
  rebuiltFiles : Nat := 0
  rebuiltComponents : Nat := 0
  relinkedComponents : Nat := 0
  build : BuildStats := {}
deriving DecidableEq, Repr, Inhabited

/-- The result of an update. -/
structure UpdateResult where
  graph : CodeGraph
  supply : IdSupply
  stats : UpdateStats
deriving DecidableEq, Inhabited

/-- Reasons why nothing is updated. -/
inductive UpdateError where
  | repositoryNotFound (directory : String)
deriving DecidableEq, Repr, Inhabited

/-- The wording of an update's error. -/
def UpdateError.message : UpdateError → String
  | .repositoryNotFound directory => "Repository not found: " ++ directory

namespace Update

/-- Take the links to dropped components away. -/
def pruneLinks (dropped : List ComponentId) (c : Component) : Component :=
  { c with linkedIds := c.linkedIds.filter fun target => !dropped.contains target }

/-- The untouched components of a graph, as they were. -/
def untouched (classification : Classification) (components : List Component) : List Component :=
  components.filter fun c => classification.components.find? c.id == some .untouched

/-- The untouched files of a graph. -/
def untouchedFiles (classification : Classification) (files : List SourceFile) :
    List SourceFile :=
  files.filter fun file => classification.files.find? file.id == some .untouched

/-- Number of links of some components. -/
def linkCount (components : List Component) : Nat :=
  components.foldl (fun count c => count + c.linkedIds.length) 0

/-- The changed paths that can be built: accepted, and files that exist. -/
def rebuildPaths (builder : Builder) (fs : FileSystem) (directory : String)
    (changes : ChangeSet) : List String :=
  Text.sortedSet (changes.toProcess.filter fun path =>
    builder.accepts path && fs.isFile (PathText.join directory path))

/-- Build the changed paths against a seed; without paths nothing is built. -/
def rebuild (builder : Builder) (fs : FileSystem) (directory : String) (paths : List String)
    (seed : LinkSeed) : BuildOutput :=
  if paths.isEmpty then
    { graph := ⟨[], [], seed.externals.table⟩
      supply := seed.externals.supply
      stats := {}
      nameTable := seed.known }
  else
    builder.buildFiles fs directory paths seed

/-- Number of components whose links differ between two lists of the same components. -/
def changedLinks (before after : List Component) : Nat :=
  (before.zip after).countP fun (a, b) =>
    a.linkedIds != b.linkedIds || a.externalIds != b.externalIds

/-- The components that do not repeat a retained identifier. -/
def additions (retained rebuilt : List Component) : List Component :=
  rebuilt.filter fun c => !retained.any (·.id == c.id)

/-- Apply changes of which there is at least one. -/
def apply (builder : Builder) (relinkRetained : Bool) (fs : FileSystem) (directory : String)
    (previous : CodeGraph) (changes : ChangeSet) (supply : IdSupply) : UpdateResult :=
  let classification := classify previous changes
  let kept := untouched classification previous.components
  let retained := kept.map (pruneLinks classification.dropped)
  let files := untouchedFiles classification previous.files
  let paths := rebuildPaths builder fs directory changes
  let seed : LinkSeed :=
    ⟨.ofPairs (retained.map fun c => (c.qualifiedName, c.id)),
      ⟨previous.externalSymbols, supply⟩⟩
  let output := rebuild builder fs directory paths seed
  let externals : Externals := ⟨output.graph.externalSymbols, output.supply⟩
  let (linked, externals) :=
    if relinkRetained then
      let (linked, externals, _) := linkAll output.nameTable externals retained
      (linked, externals)
    else (retained, externals)
  let added := additions linked output.graph.components
  { graph := ⟨linked ++ added, files ++ output.graph.files, externals.table⟩
    supply := externals.supply
    stats :=
      { removedFiles := classification.files.count .removed
        staleFiles := classification.files.count .stale
        untouchedFiles := classification.files.count .untouched
        removedComponents := classification.components.count .removed
        staleComponents := classification.components.count .stale
        retainedComponents := retained.length
        prunedLinks := linkCount kept - linkCount retained
        rebuiltFiles := paths.length
        rebuiltComponents := added.length
        relinkedComponents := changedLinks retained linked
        build := output.stats } }

end Update

/-- Bring a graph up to date with the changes of a directory. -/
def update (builder : Builder) (relinkRetained : Bool) (fs : FileSystem) (directory : String)
    (previous : CodeGraph) (changes : ChangeSet) (supply : IdSupply) :
    Except UpdateError UpdateResult :=
  if !fs.isDirectory directory then .error (.repositoryNotFound directory)
  else if !changes.hasChanges then
    .ok {
      graph := previous
      supply := supply
      stats :=
        { untouchedFiles := previous.files.length
          retainedComponents := previous.components.length } }
  else
    .ok (Update.apply builder relinkRetained fs directory previous changes supply)

end CodeAtlas
