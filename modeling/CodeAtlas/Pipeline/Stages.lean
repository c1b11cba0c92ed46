import CodeAtlas.Filter
import CodeAtlas.Pattern
import CodeAtlas.Pipeline
import CodeAtlas.Snapshot

/-!
# The stages of an analysis

The stages that find a working tree, build or load its graph, bring it up to date, filter it and
save it, and the two pipelines made of them.
-/

namespace CodeAtlas

/-- How the updated parts of a repository are found. -/
inductive ChangeDetection where
  /-- By version control and snapshot where the stored graph records a commit, by snapshot
  otherwise. -/
  | auto
  | git
  | snapshot
deriving DecidableEq, Repr, Inhabited

/-- Builds graphs and brings them up to date. -/
structure Updater where
  builder : Builder
  /-- Retained components are linked anew after the rebuild. -/
  relinkRetained : Bool

namespace Stage

/-- The attributes of a graph. -/
def graphKeys : List AttributeKey :=
  [.components, .files, .externalSymbols]

/-- A stage that may fail on an attribute, before it has any effect. -/
def reading (world : World) (body : Except AttributeError (StageOutcome × World)) :
    StageOutcome × World :=
  match body with
  | .ok outcome => outcome
  | .error error => (.failed (.attribute error), world)

/-! ## The working tree -/

/-- What the stage for a local tree declares. -/
def localRepositorySchema : StageSchema :=
  ⟨"LocalRepository", [], [], [.isDownloaded]⟩

/-- Uses a working tree that exists. -/
def localRepository : Stage where
  schema := localRepositorySchema
  run := fun container world =>
    let path := container.repository.path
    if world.files.isDirectory path then
      (.returned (.ofList [(.isDownloaded, .flag false)]), world)
    else
      (.failed (.invalid ("repository path " ++ path ++ " is not a directory")), world)

/-- What the cloning stage declares. -/
def cloneRepositorySchema : StageSchema :=
  ⟨"CloneRepository", [], [], [.isDownloaded]⟩

/-- Clones the repository's address; a clone that is there is used again. -/
def cloneRepository : Stage where
  schema := cloneRepositorySchema
  run := fun container world =>
    let repository := container.repository
    match repository.url with
    | none =>
      (.failed (.invalid ("repository " ++ repository.name ++ " has no remote URL")), world)
    | some url =>
      if Git.isRepository world.files repository.path then
        (.returned (.ofList [(.isDownloaded, .flag false)]), world)
      else
        match Git.clone world url repository.path with
        | (.ok (), world) => (.returned (.ofList [(.isDownloaded, .flag true)]), world)
        | (.error error, world) => (.failed (.git error), world)

/-- What the stage for commit and author declares. -/
def gitMetadataSchema : StageSchema :=
  ⟨"GitMetadata", [], [], [.commitHash, .author]⟩

/-- Reads the last commit and its author, which are unset outside of version control. -/
def gitMetadata : Stage where
  schema := gitMetadataSchema
  run := fun container world =>
    let (commit, author, world) :=
      if Git.isRepository world.files container.repository.path then
        let (commit, world) := Git.headCommit? world
        let (author, world) := Git.headAuthor? world
        (commit, author, world)
      else (none, none, world)
    (.returned (.ofList [(.commitHash, .optionalText commit), (.author, .optionalText author)]),
      world)

/-! ## Storage -/

/-- The store of a container, in the given format or the one its path suggests. -/
def storeOf (container : Container) (format : Option GraphFormat) : GraphStore :=
  let path := container.repository.persistPath
  ⟨path, format.getD (.ofPath path)⟩

/-- What the loading stage declares. -/
def loadGraphSchema : StageSchema :=
  ⟨"LoadGraph", [], [], graphKeys ++ [.previousCommitHash]⟩

/-- Loads the stored graph and the commit it was built at. -/
def loadGraph (format : Option GraphFormat) : Stage where
  schema := loadGraphSchema
  run := fun container world =>
    match (storeOf container format).load world.files with
    | (.error error, files) => (.failed (.store error), { world with files := files })
    | (.ok document, files) =>
      let updates := (Attributes.ofGraph document.graph).insert .previousCommitHash
        (.optionalText document.commitHash)
      (.returned updates, { world with files := files })

/-- What the saving stage declares. -/
def saveGraphSchema : StageSchema :=
  ⟨"SaveGraph", graphKeys, [.commitHash], [.persistedPath]⟩

/-- The commit to be recorded, if the attribute is set. -/
def recordedCommit (container : Container) : Except AttributeError (Option String) :=
  if container.has .commitHash then container.optionalText .commitHash else .ok none

/-- Saves the graph with the last commit, if that is known. -/
def saveGraph (format : Option GraphFormat) : Stage where
  schema := saveGraphSchema
  run := fun container world => reading world do
    let commit ← recordedCommit container
    let graph ← container.codeGraph
    let repository := container.repository.url.getD container.repository.name
    let store := storeOf container format
    match store.save (.ofGraph graph (some repository) commit) world.files with
    | (.error error, files) => return (.failed (.store error), { world with files := files })
    | (.ok (), files) =>
      return (.returned (.ofList [(.persistedPath, .path store.path)]),
        { world with files := files })

/-! ## The graph -/

/-- What the building stage declares. -/
def buildGraphSchema : StageSchema :=
  ⟨"BuildGraph", [], [], graphKeys⟩

/-- Builds the graph of the working tree. -/
def buildGraph (builder : Builder) : Stage where
  schema := buildGraphSchema
  run := fun container world =>
    match builder.buildDirectory world.files world.home container.repository.path
        world.supply with
    | none => (.brokenOff, world)
    | some (.error error) => (.failed (.builder error), world)
    | some (.ok output) =>
      (.returned (.ofGraph output.graph), { world with supply := output.supply })

/-- What change detection declares. -/
def detectChangesSchema : StageSchema :=
  ⟨"DetectChanges", [.files, .previousCommitHash], [], [.changes]⟩

/-- What change detection declares when it does not ask for the stored commit. -/
def detectWithoutCommitSchema : StageSchema :=
  ⟨"DetectChanges", [.files], [], [.changes]⟩

/-- The changes by version control since a commit, of the paths that are analyzed. -/
def gitChanges (builder : Builder) (container : Container) (world : World) (commit : String) :
    Except GitError ChangeSet × World :=
  match Git.openTree world.files container.repository.path with
  | .error error => (.error error, world)
  | .ok () =>
    match Git.changesSince world commit with
    | (.error error, world) => (.error error, world)
    | (.ok changes, world) => (.ok (changes.retain builder.accepts), world)

/-- The commit to compare with: the given one, or the stored one unless only snapshots count. -/
def baseCommit (container : Container) (mode : ChangeDetection) (since : Option String) :
    Except AttributeError (Option String) :=
  match since, mode with
  | some commit, _ => .ok (some commit)
  | none, .snapshot => .ok none
  | none, _ => container.optionalText .previousCommitHash

/-- Version control is asked for changes. -/
def usesGit (container : Container) (world : World) (mode : ChangeDetection)
    (commit : Option String) : Bool :=
  match mode with
  | .snapshot => false
  | .git => true
  | .auto => commit.isSome && Git.isRepository world.files container.repository.path

/-- Finds the changes of the working tree since the stored graph. Where version control is asked
without being demanded, the snapshot is compared as well, because the stored graph may hold content
that no commit describes. -/
def detectChanges (mode : ChangeDetection) (since : Option String) (builder : Builder) : Stage :=
  let mode := if since.isSome then .git else mode
  { schema :=
      if since.isSome || mode == .snapshot then detectWithoutCommitSchema
      else detectChangesSchema
    run := fun container world => reading world do
      let commit ← baseCommit container mode since
      let snapshot (world : World) : Except AttributeError (Option ChangeSet) := do
        let files ← container.files
        return Snapshot.changes builder world.files world.home container.repository.path files
      let finished (changes : Option ChangeSet) (world : World) : StageOutcome × World :=
        match changes with
        | none => (.brokenOff, world)
        | some changes => (.returned (.ofList [(.changes, .changes changes)]), world)
      if usesGit container world mode commit then
        match commit with
        | none =>
          return (.failed (.invalid "stored graph records no commit to diff against"), world)
        | some commit =>
          match gitChanges builder container world commit with
          | (.error error, world) => return (.failed (.git error), world)
          | (.ok changes, world) =>
            if mode == .auto then
              return finished ((← snapshot world).map changes.union) world
            else
              return finished (some changes) world
      else
        return finished (← snapshot world) world }

/-- What the updating stage declares. -/
def updateGraphSchema : StageSchema :=
  ⟨"UpdateGraph", graphKeys ++ [.changes], [], graphKeys⟩

/-- Applies the changes to the graph. -/
def updateGraph (updater : Updater) : Stage where
  schema := updateGraphSchema
  run := fun container world => reading world do
    let previous ← container.codeGraph
    let changes ← container.changes
    match update updater.builder updater.relinkRetained world.files container.repository.path
        previous changes world.supply with
    | .error error => return (.failed (.update error), world)
    | .ok result =>
      return (.returned (.ofGraph result.graph), { world with supply := result.supply })

/-- What the filtering stage declares. -/
def filterComponentsSchema : StageSchema :=
  ⟨"FilterComponents", [.components], [], [.components]⟩

/-- Keeps the components whose names match a pattern. -/
def filterComponents (pattern : Pattern) : Stage where
  schema := filterComponentsSchema
  run := fun container world => reading world do
    let components ← container.components
    return (.returned (.ofList [(.components,
      .components (CodeAtlas.filterComponents pattern.isMatch components))]), world)

/-- What all stages declare. -/
def schemas : List StageSchema :=
  [localRepositorySchema, cloneRepositorySchema, gitMetadataSchema, loadGraphSchema,
    buildGraphSchema, detectChangesSchema, updateGraphSchema, filterComponentsSchema,
    saveGraphSchema]

end Stage

/-- The producers among the stages of an analysis. -/
def Producers.standard : Producers :=
  Stage.schemas.foldl Producers.register .empty

/-- The filtering stage, if there is a pattern. -/
def Stage.filtering (filter : Option Pattern) : List Stage :=
  filter.toList.map Stage.filterComponents

/-- Find the tree, read its commit, build, filter, save. -/
def generatePipeline (clone : Bool) (builder : Builder) (filter : Option Pattern)
    (format : GraphFormat) : Pipeline :=
  .ofStages .standard (
    [if clone then .cloneRepository else .localRepository, .gitMetadata, .buildGraph builder]
    ++ Stage.filtering filter ++ [.saveGraph (some format)])

/-- Load, read the commit, find the changes with the given stage, update, filter, save. -/
def updatePipelineWith (detector : Stage) (updater : Updater) (filter : Option Pattern)
    (format : GraphFormat) : Pipeline :=
  .ofStages .standard (
    [.localRepository, .loadGraph (some format), .gitMetadata, detector, .updateGraph updater]
    ++ Stage.filtering filter ++ [.saveGraph (some format)])

/-- The same with the changes that the updater's builder sees. -/
def updatePipeline (mode : ChangeDetection) (since : Option String) (updater : Updater)
    (filter : Option Pattern) (format : GraphFormat) : Pipeline :=
  updatePipelineWith (.detectChanges mode since updater.builder) updater filter format

end CodeAtlas
