import CodeAtlas.Command.Outcome
import CodeAtlas.Pipeline.Stages

/-!
# What a command works on

The repository, the configuration and the stored graph that a command line stands for.
-/

namespace CodeAtlas

/-! ## Repositories -/

/-- Where a repository comes from. -/
inductive RepositorySource where
  | tree (path : String)
  | address (url : String)
deriving DecidableEq, Repr, Inhabited

/-- The text looks like the address of a repository. -/
def looksLikeAddress (text : String) : Bool :=
  Text.contains "://" text || Text.startsWith "git@" text

/-- The path from the root to a location. -/
def FileSystem.pathOf (location : Location) : String :=
  "/" ++ Text.join "/" location

/-- The path from the root to where a path leads. -/
def FileSystem.canonical (fs : FileSystem) (path : String) : Except IoError String :=
  (fs.locate path).map pathOf

namespace Command

/-- The directory in which the program runs. -/
def currentDirectory : Action String := do
  let fs ← Action.files
  Action.within "Failed to get current directory" (fun reason => [reason.message])
    (fs.canonical fs.current)

/-- The repository that is asked for; without being asked, the current directory. -/
def repositorySource (globals : GlobalOptions) : Action RepositorySource := do
  match globals.repository with
  | none => return .tree (← currentDirectory)
  | some text =>
    if looksLikeAddress text then
      return .address text
    else
      let fs ← Action.files
      if fs.isDirectory text then
        return .tree (← Action.ofExcept (fun reason => [reason.message]) (fs.canonical text))
      else
        Action.fail (.simple ("Repository path does not exist: " ++ text))

/-- The working tree that is asked for; an address will not do. -/
def workingTree (globals : GlobalOptions) : Action String := do
  match ← repositorySource globals with
  | .tree path => return path
  | .address url =>
    Action.fail
      (.simple ("'" ++ url ++ "' is a remote URL; this command needs a local working tree"))

/-- The directory whose configuration applies. -/
def configDirectory (globals : GlobalOptions) : Action String := do
  match ← repositorySource globals with
  | .tree path => return path
  | .address _ => currentDirectory

/-! ## Configurations -/

/-- The configuration that applies. -/
def loadConfig (globals : GlobalOptions) : Action Config := do
  match globals.config with
  | some path =>
    Action.within ("Failed to load config file " ++ path) ConfigError.trail
      (ConfigFiles.loadFile (← Action.files) path)
  | none =>
    let directory ← configDirectory globals
    let world := (← get).world
    Action.within "Failed to load configuration" ConfigError.trail
      ((ConfigFiles.ofHome world.home).load world.files directory {}).1

/-- The configuration with the values of one run, which must be valid. -/
def overridden (config : Config) (overrides : ConfigOverrides) : Action Config := do
  let config := config.override overrides
  Action.ofExcept ConfigError.trail config.validate
  return config

/-- The builder that a configuration asks for. -/
def builderOf (parser : SyntaxParser) (config : Config) : Builder :=
  .ofConfig
    { excludePatterns := config.analysis.excludePatterns
      maxFileSizeKb := config.analysis.maxFileSizeKb
      parallelism := config.analysis.parallelism
      maxFiles := none }
    (.standard parser)

/-- The filter that a configuration asks for. -/
def filterOf (config : Config) : Option Pattern :=
  config.filter.componentPattern.bind Pattern.parse?

/-! ## Stored graphs -/

/-- The place of the graph: the given one, in the format its extension suggests, or the configured
one. -/
def storeOf (config : Config) (repository : String) (graph : Option String) : GraphStore :=
  match graph with
  | some path => .ofPath path
  | none => ⟨config.graphPath repository, config.storage.format⟩

/-- A graph must be stored already. -/
def requirePresent (store : GraphStore) : Action Unit := do
  if !store.isPresent (← Action.files) then
    Action.fail
      (.simple ("No graph found at " ++ store.path ++ ". Run 'depgraph generate' first."))

/-- The stored document. -/
def loadDocument (store : GraphStore) : Action Document := do
  requirePresent store
  let (document, fs) := store.load (← Action.files)
  modify fun run => { run with world := { run.world with files := fs } }
  Action.within ("Failed to load graph from " ++ store.path) StoreError.trail document

end Command

end CodeAtlas
