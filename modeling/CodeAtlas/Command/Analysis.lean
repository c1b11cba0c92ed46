import CodeAtlas.Command.Repository

/-!
# Commands that write graphs

A graph is generated from scratch, or a stored one is brought up to date. Both run a pipeline and
then tell what it has done.
-/

namespace CodeAtlas.Command

/-- Run a pipeline for a repository. -/
def runPipeline (pipeline : Pipeline) (identity : RepositoryIdentity) (onFailure : String) :
    Action Container := do
  let run ← get
  let (result, _, world) := pipeline.run ⟨identity, .empty⟩ run.world
  set { run with world := world }
  Action.within onFailure PipelineError.trail result

/-- Tell the commit the working tree is at, if it is known. -/
def informCommit (globals : GlobalOptions) (container : Container) : Action Unit :=
  match container.optionalText .commitHash with
  | .ok (some commit) => Action.inform globals ("  At commit " ++ commit)
  | _ => pure ()

/-- An attribute that the pipeline has set. -/
def attributeOf {α : Type} (result : Except AttributeError α) : Action α :=
  Action.ofExcept (fun error => [error.message]) result

/-- The repository to be analyzed, and where its graph goes. -/
def identityOf (globals : GlobalOptions) (options : GenerateOptions) (config : Config) :
    Action RepositoryIdentity := do
  match ← repositorySource globals with
  | .tree path => return .ofPath path (options.output.getD (config.graphPath path))
  | .address url =>
    let current ← currentDirectory
    let destination := options.cloneDirectory.getD
      (PathText.join current (RepositoryIdentity.nameOfUrl url))
    return .ofUrl url destination (options.output.getD (config.graphPath destination))

/-- Build the graph of a repository and save it. -/
def generateGraph (parser : SyntaxParser) (globals : GlobalOptions) (options : GenerateOptions)
    (config : Config) : Action Unit := do
  let config ← overridden config
    { format := options.format, componentPattern := options.filter }
  let identity ← identityOf globals options config
  let pipeline := generatePipeline identity.url.isSome (builderOf parser config)
    (filterOf config) config.storage.format
  let container ← runPipeline pipeline identity "Graph generation failed"
  let place ← attributeOf (container.path .persistedPath)
  Action.inform globals ("  Saved to " ++ place)
  informCommit globals container

/-- How changes are found. -/
def detectionOf (options : UpdateOptions) : ChangeDetection :=
  if options.snapshot then .snapshot else .auto

/-- The size of a graph in words. -/
def sizeText (graph : CodeGraph) : String :=
  toString graph.files.length ++ " files, " ++ toString graph.components.length
    ++ " components, " ++ toString graph.externalSymbols.size ++ " external symbols"

/-- Bring the stored graph of a working tree up to date. -/
def updateGraph (parser : SyntaxParser) (globals : GlobalOptions) (options : UpdateOptions)
    (config : Config) : Action Unit := do
  let config ← overridden config
    { format := options.format
      componentPattern := options.filter
      relinkRetained := if options.relink then some true else none }
  let path ← workingTree globals
  let store := storeOf config path options.graph
  requirePresent store
  let updater : Updater := ⟨builderOf parser config, config.analysis.relinkRetained⟩
  let pipeline := updatePipeline (detectionOf options) options.since updater (filterOf config)
    store.format
  let container ← runPipeline pipeline (.ofPath path store.path) "Graph update failed"
  let changes ← attributeOf container.changes
  if changes.hasChanges then
    let graph ← attributeOf container.codeGraph
    Action.inform globals ("  Now " ++ sizeText graph)
    informCommit globals container

end CodeAtlas.Command
