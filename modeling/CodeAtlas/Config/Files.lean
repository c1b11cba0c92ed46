import CodeAtlas.Config.Text
import CodeAtlas.Pattern.Parser

/-!
# Configuration files

A configuration is put together from the user's file and the repository's file, the latter on top.
Reading and writing these files can fail, and so can the check of what they say; each failure names
the file or the setting at fault.
-/

namespace CodeAtlas

/-- Reasons why there is no configuration, or why it cannot be written. -/
inductive ConfigError where
  | unreadable (path : String) (reason : IoError)
  | notToml (path : String)
  | tooLarge
  | unwritable (path : String) (reason : IoError)
  | noDirectory (path : String) (reason : IoError)
  | noHome
  | unknownLevel (level : String)
  | unknownFormat (word : String)
  | invalidPattern
deriving DecidableEq, Repr, Inhabited

namespace ConfigError

/-- The names of the log levels. -/
def levels : List String :=
  ["trace", "debug", "info", "warn", "error"]

private def invalid (key reason : String) : String :=
  "invalid configuration value for '" ++ key ++ "': " ++ reason

/-- The wording of the reason that lies behind an error, if there is one. -/
def cause? : ConfigError → Option String
  | unreadable _ reason | unwritable _ reason | noDirectory _ reason => some reason.message
  | notToml _ => some "TOML parse error"
  | tooLarge => some "out-of-range value for u64 type"
  | _ => none

/-- The wording of a configuration error. -/
def message (error : ConfigError) : String :=
  let cause := error.cause?.getD ""
  match error with
  | unreadable path _ => "failed to read config file '" ++ path ++ "': " ++ cause
  | notToml path => "failed to parse config file '" ++ path ++ "': " ++ cause
  | tooLarge => "failed to serialize config: " ++ cause
  | unwritable path _ => "failed to write config file '" ++ path ++ "': " ++ cause
  | noDirectory path _ => "failed to create config directory '" ++ path ++ "': " ++ cause
  | noHome => "could not determine home directory"
  | unknownLevel level =>
    invalid "logging.level"
      ("unknown level '" ++ level ++ "'. Valid values: " ++ Text.join ", " levels)
  | unknownFormat word =>
    invalid "storage.format" ("unknown format '" ++ word ++ "'. Valid values: json, sqlite")
  | invalidPattern => invalid "filter.component_pattern" "regex parse error"

end ConfigError

/-- The storage format with a given name, in any letter case. -/
def GraphFormat.configured (word : String) : Except ConfigError GraphFormat :=
  match ofWord? (Text.lower word) with
  | some format => .ok format
  | none => .error (.unknownFormat word)

namespace Config

/-- The log level must be known, and the filter must be a pattern. -/
def validate (config : Config) : Except ConfigError Unit :=
  if !ConfigError.levels.contains (Text.lower config.logging.level) then
    .error (.unknownLevel config.logging.level)
  else
    match config.filter.componentPattern with
    | none => .ok ()
    | some pattern => if (Pattern.parse? pattern).isSome then .ok () else .error .invalidPattern

/-- The TOML text. -/
def toToml (config : Config) : Except ConfigError String :=
  match config.toToml? with
  | some text => .ok text
  | none => .error .tooLarge

end Config

/-- Where the user's configuration is, and what was read of it. -/
structure ConfigFiles where
  /-- The directory of the user's configuration, if there is one. -/
  globalDirectory : Option String
  /-- The user's configuration once it has been read. -/
  cached : Option Config
deriving DecidableEq, Repr, Inhabited

namespace ConfigFiles

/-- The name of configuration directories. -/
def directoryName : String := ".depgraph"

/-- The name of configuration files. -/
def fileName : String := "config.toml"

/-- The user's configuration lies in a given directory. -/
def ofDirectory (directory : String) : ConfigFiles :=
  ⟨some directory, none⟩

/-- The user's configuration lies below a home directory. -/
def ofHome (home : String) : ConfigFiles :=
  ofDirectory (PathText.join home directoryName)

/-- The place of the user's configuration. -/
def globalPath? (files : ConfigFiles) : Option String :=
  files.globalDirectory.map (PathText.join · fileName)

/-- The place of a repository's configuration. -/
def localPath (repository : String) : String :=
  PathText.join (PathText.join repository directoryName) fileName

/-- Forget what was read. -/
def clear (files : ConfigFiles) : ConfigFiles :=
  { files with cached := none }

/-! ## Reading -/

/-- The configuration of one file. -/
def readFile (fs : FileSystem) (path : String) : Except ConfigError Config :=
  match fs.readText path with
  | .error reason => .error (.unreadable path reason)
  | .ok text =>
    match Config.ofToml? text with
    | some config => .ok config
    | none => .error (.notToml path)

/-- The configuration of a file that may be absent. -/
def readIfPresent (fs : FileSystem) (path : String) : Except ConfigError (Option Config) :=
  if fs.pathExists path then (readFile fs path).map some else .ok none

/-- The user's configuration, if there is one. It is read only once. -/
def loadGlobal (files : ConfigFiles) (fs : FileSystem) :
    Except ConfigError (Option Config) × ConfigFiles :=
  match files.cached, files.globalPath? with
  | some config, _ => (.ok (some config), files)
  | none, none => (.ok none, files)
  | none, some path =>
    match readIfPresent fs path with
    | .ok found => (.ok found, { files with cached := found })
    | .error error => (.error error, files)

/-- A repository's configuration, if there is one. -/
def loadLocal (fs : FileSystem) (repository : String) : Except ConfigError (Option Config) :=
  readIfPresent fs (localPath repository)

/-- Put a configuration on top, if there is one. -/
def withLayer (base : Config) : Option Config → Config
  | some overlay => base.layer overlay
  | none => base

/-- The configuration that applies to a repository: the user's settings, then the repository's, then
those of the run. -/
def load (files : ConfigFiles) (fs : FileSystem) (repository : String)
    (overrides : ConfigOverrides) : Except ConfigError Config × ConfigFiles :=
  match files.loadGlobal fs with
  | (.error error, files) => (.error error, files)
  | (.ok global, files) =>
    let result := do
      let config := withLayer (withLayer .standard global) (← loadLocal fs repository)
      let config := config.override overrides
      config.validate
      return config
    (result, files)

/-- The configuration of one file on top of the standard settings. -/
def loadFile (fs : FileSystem) (path : String) : Except ConfigError Config := do
  let config := Config.standard.layer (← readFile fs path)
  config.validate
  return config

/-! ## Writing -/

/-- Write a configuration, creating the directory of the file if it is missing. The file system is
given back also when writing fails. -/
def saveFile (config : Config) (path : String) (fs : FileSystem) :
    Except ConfigError Unit × FileSystem :=
  let parent := (PathText.parent? path).getD ""
  match if fs.pathExists parent then (.ok (), fs) else fs.createDirectories parent with
  | (.error reason, fs) => (.error (.noDirectory parent reason), fs)
  | (.ok (), fs) =>
    match config.toToml with
    | .error error => (.error error, fs)
    | .ok text =>
      match fs.write path (.text text) with
      | .error reason => (.error (.unwritable path reason), fs)
      | .ok fs => (.ok (), fs)

/-- Write a configuration to a path and answer with the path. -/
def saveAt (config : Config) (path : String) (fs : FileSystem) :
    Except ConfigError String × FileSystem :=
  match saveFile config path fs with
  | (.ok (), fs) => (.ok path, fs)
  | (.error error, fs) => (.error error, fs)

/-- Write the standard configuration to a path unless something is there. -/
def initAt (path : String) (fs : FileSystem) : Except ConfigError String × FileSystem :=
  if fs.pathExists path then (.ok path, fs) else saveAt .standard path fs

/-- Write a repository's configuration. -/
def saveLocal (config : Config) (repository : String) (fs : FileSystem) :
    Except ConfigError String × FileSystem :=
  saveAt config (localPath repository) fs

/-- Write the standard configuration for a repository that has none. -/
def initLocal (repository : String) (fs : FileSystem) :
    Except ConfigError String × FileSystem :=
  initAt (localPath repository) fs

/-- Write the standard configuration for a user who has none. -/
def initGlobal (files : ConfigFiles) (fs : FileSystem) :
    Except ConfigError String × FileSystem :=
  match files.globalPath? with
  | none => (.error .noHome, fs)
  | some path => initAt path fs

end ConfigFiles

end CodeAtlas
