import CodeAtlas.Command.Repository

/-!
# Commands about the configuration

The configuration that applies is shown, or a configuration file is written.
-/

namespace CodeAtlas.Command

/-- The configuration files that matter for a run. -/
structure ConfigPlaces where
  global : Option String
  localPath : String
  /-- The file that was given in place of the others. -/
  explicit : Option String
  globalExists : Bool
  localExists : Bool
deriving DecidableEq, Repr, Inhabited

namespace ConfigPlaces

/-- The object of the places. -/
def toJson (places : ConfigPlaces) : Json :=
  .object [("global", .text? places.global), ("local", .string places.localPath),
    ("explicit", .text? places.explicit), ("global_exists", .bool places.globalExists),
    ("local_exists", .bool places.localExists)]

/-- A note for a file that is not there. -/
def absenceNote (isThere : Bool) : String :=
  if isThere then "" else " (not found)"

/-- The places as comments of a configuration file. -/
def toLines (places : ConfigPlaces) : List String :=
  match places.explicit with
  | some path => ["# from " ++ path]
  | none =>
    (places.global.toList.map fun path =>
      "# global: " ++ path ++ absenceNote places.globalExists)
    ++ ["# local:  " ++ places.localPath ++ absenceNote places.localExists]

end ConfigPlaces

/-- The configuration files of the user's home directory. -/
def configFiles : Action ConfigFiles := do
  return .ofHome (← get).world.home

/-- Find the configuration files. -/
def configPlaces (globals : GlobalOptions) : Action ConfigPlaces := do
  let localPath := ConfigFiles.localPath (← configDirectory globals)
  let global := (← configFiles).globalPath?
  let fs ← Action.files
  return {
    global := global
    localPath := localPath
    explicit := globals.config
    globalExists := (global.map fs.pathExists).getD false
    localExists := fs.pathExists localPath }

/-- Show the configuration that applies. -/
def showConfig (globals : GlobalOptions) (json : Bool) (config : Config) : Action Unit := do
  let places ← configPlaces globals
  if json then
    let shown : Json := .object [("config", config.toJson), ("paths", places.toJson)]
    Action.printLine shown.sortMembers.pretty
  else
    Action.printLine "# Effective configuration"
    places.toLines.forM Action.printLine
    Action.printLine ""
    Action.print (← Action.ofExcept ConfigError.trail config.toToml)

/-- Remove the file at a path if there is one. -/
def removePresent (path : String) : Action Unit := do
  let fs ← Action.files
  if fs.pathExists path then
    match fs.removeFile path with
    | .error reason => Action.fail ⟨"Failed to remove " ++ path, [reason.message]⟩
    | .ok fs => modify fun run => { run with world := { run.world with files := fs } }

/-- Write the user's configuration file. -/
def initUserWide (force : Bool) : Action String := do
  let configs ← configFiles
  if force then
    configs.globalPath?.toList.forM removePresent
  Action.changeFiles ConfigError.trail (configs.initGlobal (← Action.files))

/-- Write a repository's configuration file, if there is none or if it may be replaced. -/
def initLocal (globals : GlobalOptions) (force : Bool) : Action (Option String) := do
  let directory ← configDirectory globals
  let path := ConfigFiles.localPath directory
  let fs ← Action.files
  if force then
    some <$> Action.changeFiles ConfigError.trail (ConfigFiles.saveLocal .standard directory fs)
  else if fs.pathExists path then
    Action.inform globals
      ("Config already exists at " ++ path ++ " (use --force to overwrite)")
    return none
  else
    some <$> Action.changeFiles ConfigError.trail (ConfigFiles.initLocal directory fs)

/-- Write a configuration file and tell where. -/
def writeConfig (globals : GlobalOptions) (userWide force : Bool) : Action Unit := do
  let written ← if userWide then some <$> initUserWide force else initLocal globals force
  written.toList.forM fun path => Action.printLine ("Wrote " ++ path)

end CodeAtlas.Command
