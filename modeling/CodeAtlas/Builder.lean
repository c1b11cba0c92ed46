import CodeAtlas.Identity
import CodeAtlas.IgnoreRules
import CodeAtlas.Link
import CodeAtlas.Registry

/-!
# Building graphs

A graph is built from the files of a directory: each file is extracted, its components are
registered, assembled, given their identifiers and linked. A file or a component that fails is left
out and counted; everything else goes on. Only a size limit that overflows breaks off the program.
-/

namespace CodeAtlas

/-- What a build takes into account. -/
structure BuilderConfig where
  /-- Globs of paths that are left out. -/
  excludePatterns : List String
  /-- Files with more kibibytes are left out; zero means no limit. -/
  maxFileSizeKb : Nat
  /-- Number of workers, which does not change any result. -/
  parallelism : Nat
  /-- At most so many files are taken. -/
  maxFiles : Option Nat
deriving DecidableEq, Repr, Inhabited

/-- The usual settings: directories of tools and of build results are left out. -/
def BuilderConfig.standard : BuilderConfig where
  excludePatterns :=
    ["**/.git/**", "**/node_modules/**", "**/target/**", "**/__pycache__/**", "**/.venv/**",
      "**/venv/**", "**/.tox/**", "**/dist/**", "**/build/**"]
  maxFileSizeKb := 1024
  parallelism := 0
  maxFiles := none

namespace BuilderConfig

/-! ## Selecting files -/

/-- The size limit in bytes, if it is a number of 64 bits. -/
def byteLimit? (config : BuilderConfig) : Option Nat :=
  let limit := config.maxFileSizeKb * 1024
  if limit < 0x10000000000000000 then some limit else none

/-- A file of so many bytes is larger than the settings allow. Nothing, if there is a limit that
overflows: the program breaks off where it asks for it. -/
def isTooLarge? (config : BuilderConfig) (size : Nat) : Option Bool :=
  if config.maxFileSizeKb = 0 then some false
  else config.byteLimit?.map fun limit => decide (limit < size)

/-- The paths that are accepted and not too large, of files with their numbers of bytes. The size
counts only where the path is accepted. -/
def select (config : BuilderConfig) (accepts : String → Bool) :
    List (String × Nat) → Option (List String)
  | [] => some []
  | (path, size) :: rest =>
    if accepts path then do
      let tooLarge ← config.isTooLarge? size
      let selected ← config.select accepts rest
      return if tooLarge then selected else path :: selected
    else config.select accepts rest

/-- The selected paths in order, cut to the number that the settings allow. -/
def collect (config : BuilderConfig) (accepts : String → Bool) (walked : List (String × Nat)) :
    Option (List String) :=
  (config.select accepts walked).map fun selected =>
    let sorted := Text.sortBy id selected
    match config.maxFiles with
    | some most => sorted.take most
    | none => sorted

end BuilderConfig

/-- Counts of one build. -/
structure BuildStats where
  filesSeen : Nat := 0
  filesExtracted : Nat := 0
  filesFailed : Nat := 0
  components : Nat := 0
  componentsFailed : Nat := 0
  duplicateComponents : Nat := 0
  links : LinkStats := .zero
deriving DecidableEq, Repr, Inhabited

/-- The names and external symbols a build links against besides its own. -/
structure LinkSeed where
  known : NameTable
  externals : Externals
deriving DecidableEq, Inhabited

/-- The result of a build. -/
structure BuildOutput where
  graph : CodeGraph
  supply : IdSupply
  stats : BuildStats
  /-- The names that could be linked to. -/
  nameTable : NameTable
deriving DecidableEq, Inhabited

/-- Reasons why nothing is built. -/
inductive BuilderError where
  | repositoryNotFound (directory : String)
  | noFilesFound (directory : String)
deriving DecidableEq, Repr, Inhabited

/-- The wording of a builder's error. -/
def BuilderError.message : BuilderError → String
  | .repositoryNotFound directory => "Repository not found: " ++ directory
  | .noFilesFound directory => "No supported files found in directory: " ++ directory

/-- Builds graphs of directories. -/
structure Builder where
  config : BuilderConfig
  registry : Registry
  fingerprint : Fingerprint
  excluded : List Glob

namespace Builder

/-- The builder with given settings and extractors. -/
def ofConfig (config : BuilderConfig) (registry : Registry) : Builder where
  config := config
  registry := registry
  fingerprint := contentHash
  excluded := Glob.excluding config.excludePatterns

/-- The path would be analyzed: there is an extractor for it and it is not left out. -/
def accepts (builder : Builder) (relativePath : String) : Bool :=
  builder.registry.supports relativePath
    && !builder.excluded.any fun glob => glob.isMatch relativePath

/-! ## Collecting files -/

/-- The path of a file relative to a directory, with forward slashes. -/
def relativePath (directory location : Location) : String :=
  Text.replaceChar '\\' '/' (Text.join "/" (location.drop directory.length))

/-- The files that a walk below a directory yields: the path of each relative to the directory, and
its number of bytes. The home directory holds the user's global ignore rules. -/
def walkedFiles (fs : FileSystem) (home directory : String) : List (String × Nat) :=
  match fs.locate directory with
  | .error _ => []
  | .ok start => (visibleFiles fs home start).map fun (location, content) =>
    (relativePath start location, content.size)

/-- The files of a directory that are to be analyzed, in order, unless collecting breaks off. -/
def collectFiles (builder : Builder) (fs : FileSystem) (home directory : String) :
    Option (List String) :=
  builder.config.collect builder.accepts (walkedFiles fs home directory)

/-! ## Extracting -/

/-- Extract the file at a path below a directory. -/
def extractFile (builder : Builder) (fs : FileSystem) (directory path : String) :
    Except ExtractError ParsedFile :=
  match builder.registry.forPath? path with
  | none => .error (.unsupportedLanguage path)
  | some extractor =>
    match fs.readText (PathText.join directory path) with
    | .error e => .error (.unreadable e.message)
    | .ok source => extractor.extract path source

/-- The files that could be extracted, in order. -/
def extractFiles (builder : Builder) (fs : FileSystem) (directory : String)
    (paths : List String) : List ParsedFile :=
  paths.filterMap fun path => (builder.extractFile fs directory path).toOption

/-! ## Assembling -/

/-- The assembly of a component, unless its code cannot be cut out of the file. -/
def assembly? (file : ParsedFile) (component : ParsedComponent) : Option Assembly :=
  match file.componentText component with
  | .ok code => some ⟨code, component.spans, component.referencedSymbols⟩
  | .error _ => none

/-- The candidates of one file. A name stands for the first component that has it. -/
def candidatesOf (fileIndex : Nat) (file : ParsedFile) : List Candidate :=
  file.components.filterMap fun named =>
    (file.component? named.qualifiedName).map fun component =>
      { registration :=
          { fileIndex := fileIndex
            qualifiedName := component.qualifiedName
            kind := component.kind
            parent := component.parent }
        assembly := assembly? file component }

/-- The candidates of all files. -/
def candidates (files : List ParsedFile) : List Candidate :=
  files.zipIdx.flatMap fun (file, index) => candidatesOf index file

/-- The record of an extracted file. -/
def fileRecord (builder : Builder) (file : ParsedFile) : SourceFile :=
  .ofContent builder.fingerprint file.relativePath file.text file.imports file.calledSymbols
    file.callableSymbols

/-! ## Building -/

/-- Build the graph of parsed files. A name that is defined here is not taken from the seed. -/
def assemble (builder : Builder) (files : List ParsedFile) (seed : LinkSeed) : BuildOutput :=
  let found := candidates files
  let records := files.map builder.fileRecord
  let finalized := finalize builder.fingerprint found (records.map (·.id))
  let known := seed.known.override finalized.nameTable
  let (components, externals, links) := linkAll known seed.externals finalized.components
  { graph := ⟨components, records, externals.table⟩
    supply := externals.supply
    stats :=
      { filesSeen := files.length
        filesExtracted := files.length
        components := finalized.components.length
        componentsFailed := found.countP (·.assembly.isNone)
        duplicateComponents := finalized.duplicates
        links := links }
    nameTable := known }

/-- Build the given files of a directory. -/
def buildFiles (builder : Builder) (fs : FileSystem) (directory : String) (paths : List String)
    (seed : LinkSeed) : BuildOutput :=
  let files := builder.extractFiles fs directory paths
  let output := builder.assemble files seed
  { output with
    stats :=
      { output.stats with
        filesSeen := paths.length
        filesFailed := paths.length - files.length } }

/-- Build the graph of a directory, unless collecting its files breaks off. -/
def buildDirectory (builder : Builder) (fs : FileSystem) (home directory : String)
    (supply : IdSupply) : Option (Except BuilderError BuildOutput) :=
  if !fs.isDirectory directory then some (.error (.repositoryNotFound directory))
  else
    (builder.collectFiles fs home directory).map fun
      | [] => .error (.noFilesFound directory)
      | paths => .ok (builder.buildFiles fs directory paths ⟨[], ⟨.empty, supply⟩⟩)

end Builder

end CodeAtlas
