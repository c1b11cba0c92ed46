import CodeAtlas.Store

/-!
# The command line

The commands of the program, the options that each of them takes, and what a command line asks for.
Some options belong to all commands and may stand at any place; the others follow their command.
-/

namespace CodeAtlas

/-- The name of the program. -/
def programName : String := "depgraph"

/-- The version of the program. -/
def programVersion : String := "0.1.0"

/-- The program and its commands. -/
inductive CommandName where
  | program
  | generate
  | update
  | stats
  | deps
  | config
  | configShow
  | configInit
deriving DecidableEq, Repr, Inhabited

namespace CommandName

/-- The word that selects a command. -/
def word : CommandName → String
  | program => programName
  | generate => "generate"
  | update => "update"
  | stats => "stats"
  | deps => "deps"
  | config => "config"
  | configShow => "show"
  | configInit => "init"

/-- The commands below a command. One that has any needs one of them. -/
def below : CommandName → List CommandName
  | program => [generate, update, stats, deps, config]
  | config => [configShow, configInit]
  | _ => []

/-- The command takes the name of a component. -/
def takesName : CommandName → Bool
  | deps => true
  | _ => false

end CommandName

/-- The options. -/
inductive OptionName where
  | repository
  | config
  | verbose
  | quiet
  | jsonLogs
  | output
  | format
  | filter
  | cloneDirectory
  | since
  | snapshot
  | graph
  | relink
  | reverse
  | transitive
  | json
  | validate
  | userWide
  | force
  | help
  | version
deriving DecidableEq, Repr, Inhabited

/-- What the value of an option must look like. -/
inductive ValueSyntax where
  | text
  /-- A path is not empty. -/
  | path
  /-- The name of a storage format. -/
  | format
deriving DecidableEq, Repr, Inhabited

/-- How an option is written. An option without a value is a flag. -/
structure OptionSpec where
  name : OptionName
  long : String
  short : Option Char
  value : Option ValueSyntax
deriving DecidableEq, Repr, Inhabited

namespace OptionSpec

/-- The options of all commands. -/
def globals : List OptionSpec :=
  [⟨.repository, "repo", some 'r', some .text⟩, ⟨.config, "config", some 'c', some .path⟩,
    ⟨.verbose, "verbose", some 'v', none⟩, ⟨.quiet, "quiet", some 'q', none⟩,
    ⟨.jsonLogs, "json-logs", none, none⟩]

/-- The options that only tell about the program. -/
def informative : List OptionSpec :=
  [⟨.help, "help", some 'h', none⟩, ⟨.version, "version", some 'V', none⟩]

end OptionSpec

namespace CommandName

/-- The options of one command only. -/
def ownOptions : CommandName → List OptionSpec
  | generate =>
    [⟨.output, "output", some 'o', some .path⟩, ⟨.format, "format", none, some .format⟩,
      ⟨.filter, "filter", none, some .text⟩, ⟨.cloneDirectory, "clone-dir", none, some .path⟩]
  | update =>
    [⟨.since, "since", none, some .text⟩, ⟨.snapshot, "snapshot", none, none⟩,
      ⟨.filter, "filter", none, some .text⟩, ⟨.format, "format", none, some .format⟩,
      ⟨.graph, "graph", none, some .path⟩, ⟨.relink, "relink", none, none⟩]
  | stats =>
    [⟨.json, "json", none, none⟩, ⟨.graph, "graph", none, some .path⟩,
      ⟨.validate, "validate", none, none⟩]
  | deps =>
    [⟨.reverse, "reverse", some 'R', none⟩, ⟨.transitive, "transitive", some 't', none⟩,
      ⟨.json, "json", none, none⟩, ⟨.graph, "graph", none, some .path⟩]
  | configShow => [⟨.json, "json", none, none⟩]
  | configInit => [⟨.userWide, "global", none, none⟩, ⟨.force, "force", some 'f', none⟩]
  | _ => []

/-- All options that may follow a command. -/
def options (command : CommandName) : List OptionSpec :=
  command.ownOptions ++ OptionSpec.globals ++ OptionSpec.informative

/-- The pairs of options that exclude each other. -/
def exclusions : CommandName → List (OptionName × OptionName)
  | update => [(.since, .snapshot)]
  | deps => [(.transitive, .reverse)]
  | _ => []

end CommandName

/-! ## What is asked for -/

/-- The values of the options of all commands. -/
structure GlobalOptions where
  /-- A directory or an address. -/
  repository : Option String
  /-- A configuration file in place of the usual ones. -/
  config : Option String
  verbose : Bool
  quiet : Bool
  jsonLogs : Bool
deriving DecidableEq, Repr, Inhabited

/-- Build the graph from scratch. -/
structure GenerateOptions where
  output : Option String
  format : Option GraphFormat
  filter : Option String
  cloneDirectory : Option String
deriving DecidableEq, Repr, Inhabited

/-- Bring the stored graph up to date. -/
structure UpdateOptions where
  since : Option String
  snapshot : Bool
  filter : Option String
  format : Option GraphFormat
  graph : Option String
  relink : Bool
deriving DecidableEq, Repr, Inhabited

/-- Count what the stored graph holds. -/
structure StatsOptions where
  json : Bool
  graph : Option String
  validate : Bool
deriving DecidableEq, Repr, Inhabited

/-- List what a component uses, or what uses it. -/
structure DepsOptions where
  name : String
  reverse : Bool
  transitive : Bool
  json : Bool
  graph : Option String
deriving DecidableEq, Repr, Inhabited

/-- A command with its options. -/
inductive Command where
  | generate (options : GenerateOptions)
  | update (options : UpdateOptions)
  | stats (options : StatsOptions)
  | deps (options : DepsOptions)
  /-- Show the configuration that applies. -/
  | configShow (json : Bool)
  /-- Write a configuration file, the user's or the repository's. -/
  | configInit (userWide force : Bool)
deriving DecidableEq, Repr, Inhabited

/-- Faults of a command line. -/
inductive UsageError where
  | unexpected (arg : String)
  | missingValue (option : String)
  | invalidValue (option value : String)
  | unexpectedValue (option : String)
  | repeated (option : String)
  | excluded (first second : OptionName)
  | missingCommand
  | missingName
deriving DecidableEq, Repr, Inhabited

/-- The wording of a fault. -/
def UsageError.message : UsageError → String
  | .unexpected arg => "unexpected argument '" ++ arg ++ "' found"
  | .missingValue option => "a value is required for '--" ++ option ++ "' but none was supplied"
  | .invalidValue option value =>
    "invalid value '" ++ value ++ "' for '--" ++ option ++ "'"
  | .unexpectedValue option => "unexpected value for '--" ++ option ++ "'"
  | .repeated option => "the argument '--" ++ option ++ "' cannot be used multiple times"
  | .excluded .. => "two of the arguments exclude each other"
  | .missingCommand => "a command is required"
  | .missingName => "the name of a component is required"

/-- What a command line asks for. -/
inductive Request where
  | run (globals : GlobalOptions) (command : Command)
  /-- Show the version; the commands on the way are given. -/
  | version (path : List CommandName)
  | help
  | faulty (error : UsageError)
deriving DecidableEq, Repr, Inhabited

end CodeAtlas
