import CodeAtlas.Store

/-!
# Configuration

The settings of a run: where and how the graph is stored, what is analyzed, which components are
kept, and how the run is logged. Configurations are layered: a later one adds to an earlier one, and
a setting at its standard value leaves the earlier value as it is.
-/

namespace CodeAtlas

/-- Where the graph is stored, and in which format. -/
structure StorageSettings where
  /-- The directory of the graph; a relative one starts at the repository. -/
  graphDirectory : String
  format : GraphFormat
deriving DecidableEq, Repr, Inhabited

/-- What is analyzed. -/
structure AnalysisSettings where
  /-- Globs of paths that are left out. -/
  excludePatterns : List String
  /-- Files with more kibibytes are left out; zero means no limit. -/
  maxFileSizeKb : Nat
  /-- Number of workers; zero leaves the choice to the program. -/
  parallelism : Nat
  /-- Retained components are linked anew in an update. -/
  relinkRetained : Bool
deriving DecidableEq, Repr, Inhabited

/-- Which components are kept. -/
structure FilterSettings where
  /-- A pattern that the names of components must match. -/
  componentPattern : Option String
deriving DecidableEq, Repr, Inhabited

/-- The layout of log records. -/
inductive LogFormat where
  | text
  | json
deriving DecidableEq, Repr, Inhabited

namespace LogFormat

/-- The name of a layout. -/
def name : LogFormat → String
  | text => "text"
  | json => "json"

/-- The layout of a name. -/
def ofName? : String → Option LogFormat
  | "text" => some .text
  | "json" => some .json
  | _ => none

end LogFormat

/-- How a run is logged. -/
structure LoggingSettings where
  level : String
  format : LogFormat
deriving DecidableEq, Repr, Inhabited

/-- All settings of a run. -/
structure Config where
  storage : StorageSettings
  analysis : AnalysisSettings
  filter : FilterSettings
  logging : LoggingSettings
deriving DecidableEq, Repr, Inhabited

/-! ## Standard values -/

/-- The graph lies in a directory of its own below the repository, as JSON. -/
def StorageSettings.standard : StorageSettings where
  graphDirectory := ".depgraph"
  format := .json

/-- Directories of tools and of build results are left out, and so are files above one mebibyte. -/
def AnalysisSettings.standard : AnalysisSettings where
  excludePatterns :=
    ["**/node_modules/**", "**/target/**", "**/.git/**", "**/__pycache__/**", "**/dist/**",
      "**/build/**"]
  maxFileSizeKb := 1024
  parallelism := 0
  relinkRetained := false

/-- All components are kept. -/
def FilterSettings.standard : FilterSettings where
  componentPattern := none

/-- Information and above is logged as text. -/
def LoggingSettings.standard : LoggingSettings where
  level := "info"
  format := .text

/-- The settings without any configuration. -/
def Config.standard : Config where
  storage := .standard
  analysis := .standard
  filter := .standard
  logging := .standard

/-! ## Layers -/

/-- The later value, unless it is the standard one. -/
def overlaid {α : Type} (isStandard : α → Bool) (base overlay : α) : α :=
  if isStandard overlay then base else overlay

/-- The items of a list, followed by those of another that are not among them, each once. -/
def unitedWith {α : Type} [BEq α] (base : List α) (overlay : List α) : List α :=
  overlay.foldl (fun items item => if items.contains item then items else items ++ [item]) base

/-- Two paths are the same if they have the same parts. -/
def StorageSettings.isStandardDirectory (directory : String) : Bool :=
  PathText.parts directory == PathText.parts StorageSettings.standard.graphDirectory

/-- Storage settings with later ones on top. -/
def StorageSettings.layer (base overlay : StorageSettings) : StorageSettings where
  graphDirectory := overlaid isStandardDirectory base.graphDirectory overlay.graphDirectory
  format := overlaid (· == standard.format) base.format overlay.format

/-- Analysis settings with later ones on top. Patterns add up, and so does the wish to relink. -/
def AnalysisSettings.layer (base overlay : AnalysisSettings) : AnalysisSettings where
  excludePatterns := unitedWith base.excludePatterns overlay.excludePatterns
  maxFileSizeKb := overlaid (· == standard.maxFileSizeKb) base.maxFileSizeKb overlay.maxFileSizeKb
  parallelism := overlaid (· == standard.parallelism) base.parallelism overlay.parallelism
  relinkRetained := overlay.relinkRetained || base.relinkRetained

/-- Filter settings with later ones on top. -/
def FilterSettings.layer (base overlay : FilterSettings) : FilterSettings where
  componentPattern := overlay.componentPattern.or base.componentPattern

/-- Logging settings with later ones on top. -/
def LoggingSettings.layer (base overlay : LoggingSettings) : LoggingSettings where
  level := overlaid (· == standard.level) base.level overlay.level
  format := overlaid (· == standard.format) base.format overlay.format

/-- A configuration with a later one on top. -/
def Config.layer (base overlay : Config) : Config where
  storage := base.storage.layer overlay.storage
  analysis := base.analysis.layer overlay.analysis
  filter := base.filter.layer overlay.filter
  logging := base.logging.layer overlay.logging

/-! ## Overrides -/

/-- Values that are set for one run, whatever the configuration says. -/
structure ConfigOverrides where
  graphDirectory : Option String := none
  format : Option GraphFormat := none
  componentPattern : Option String := none
  logLevel : Option String := none
  parallelism : Option Nat := none
  relinkRetained : Option Bool := none
deriving DecidableEq, Repr, Inhabited

namespace Config

/-- The configuration with some values set. -/
def override (config : Config) (overrides : ConfigOverrides) : Config where
  storage :=
    { graphDirectory := overrides.graphDirectory.getD config.storage.graphDirectory
      format := overrides.format.getD config.storage.format }
  analysis :=
    { config.analysis with
      parallelism := overrides.parallelism.getD config.analysis.parallelism
      relinkRetained := overrides.relinkRetained.getD config.analysis.relinkRetained }
  filter := ⟨overrides.componentPattern.or config.filter.componentPattern⟩
  logging :=
    { config.logging with level := overrides.logLevel.getD config.logging.level }

/-! ## Places -/

/-- The directory of the graph of a repository. -/
def graphDirectory (config : Config) (repository : String) : String :=
  PathText.join repository config.storage.graphDirectory

/-- The place of the graph of a repository. -/
def graphPath (config : Config) (repository : String) : String :=
  PathText.join (config.graphDirectory repository) config.storage.format.fileName

end Config

end CodeAtlas
