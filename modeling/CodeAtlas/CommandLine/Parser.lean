import CodeAtlas.CommandLine
import CodeAtlas.Config.Files

/-!
# Reading command lines

Arguments are read from left to right. Each command on the way opens a level of its own, and an
option belongs to the level at which it stands. A value follows its option as the next argument, or
after an equals sign, or, with a short option, directly; a separate value does not begin with a
hyphen unless it is one. After two hyphens nothing is an option. An option of all commands counts
from the deepest level at which it stands, and before a variable of the environment.
-/

namespace CodeAtlas.CommandLine

/-- What has been read at one level. -/
structure Level where
  command : CommandName
  /-- Options with their values, in order; the value of a flag is empty. -/
  given : List (OptionName × String)
  /-- An option whose value is to follow. -/
  pending : Option OptionSpec
  /-- The name of a component. -/
  name : Option String
  /-- Nothing that follows is an option. -/
  closed : Bool
deriving DecidableEq, Repr, Inhabited

/-- Why reading stops before the end of the line. -/
inductive Stop where
  | fault (error : UsageError)
  | version
  | help
deriving DecidableEq, Repr, Inhabited

namespace Level

/-- A level at which nothing has been read. -/
def start (command : CommandName) : Level :=
  ⟨command, [], none, none, false⟩

/-- The option has been given at this level. -/
def has (level : Level) (name : OptionName) : Bool :=
  level.given.any (·.1 == name)

/-- The value of an option at this level. -/
def value? (level : Level) (name : OptionName) : Option String :=
  level.given.lookup name

end Level

/-- The value has the syntax that is asked for. -/
def isValid (shape : ValueSyntax) (value : String) : Bool :=
  match shape with
  | .text => true
  | .path => value ≠ ""
  | .format => (GraphFormat.configured value).toOption.isSome

/-- No value may be missing at this point. -/
def settle (level : Level) : Except Stop Level :=
  match level.pending with
  | some spec => .error (.fault (.missingValue spec.long))
  | none => .ok level

/-- Note an option with its value. -/
def note (level : Level) (spec : OptionSpec) (value : String) : Except Stop Level :=
  if level.has spec.name then .error (.fault (.repeated spec.long))
  else if (spec.value.map (isValid · value)).getD true then
    .ok { level with given := level.given ++ [(spec.name, value)], pending := none }
  else .error (.fault (.invalidValue spec.long value))

/-- Note a flag. The informative ones stop the reading. -/
def noteFlag (level : Level) (spec : OptionSpec) : Except Stop Level := do
  let level ← settle level
  match spec.name with
  | .help => .error .help
  | .version => .error .version
  | _ => note level spec ""

/-- Note an option whose value stands with it, or wait for the value. -/
def noteOption (level : Level) (spec : OptionSpec) (value : Option String) :
    Except Stop Level := do
  let level ← settle level
  match value with
  | some value => note level spec value
  | none => return { level with pending := some spec }

/-- Read an option by its long name, without the hyphens. -/
def readLong (level : Level) (text : List Char) : Except Stop Level :=
  let (name, value) : List Char × Option (List Char) :=
    match Text.cutFirst? '=' text with
    | some (name, value) => (name, some value)
    | none => (text, none)
  match level.command.options.find? (·.long.toList == name) with
  | none => .error (.fault (.unexpected ("--" ++ String.ofList text)))
  | some spec =>
    if spec.value.isSome then noteOption level spec (value.map String.ofList)
    else if value.isSome then .error (.fault (.unexpectedValue spec.long))
    else noteFlag level spec

/-- Read short options, without the hyphen. What follows an option with a value is the value. -/
def readShorts (level : Level) : List Char → Except Stop Level
  | [] => .ok level
  | c :: rest =>
    match level.command.options.find? (·.short == some c) with
    | none => .error (.fault (.unexpected ("-" ++ String.ofList [c])))
    | some spec =>
      if spec.value.isSome then
        match rest with
        | [] => noteOption level spec none
        | '=' :: value => noteOption level spec (some (String.ofList value))
        | value => noteOption level spec (some (String.ofList value))
      else
        match noteFlag level spec with
        | .ok level => readShorts level rest
        | .error stop => .error stop

/-- Read an argument that is no option: a value that is waited for, or the name of a component. -/
def readPlain (level : Level) (arg : String) : Except Stop Level :=
  match level.pending with
  | some spec =>
    if level.closed then .error (.fault (.missingValue spec.long)) else note level spec arg
  | none =>
    if level.command.takesName && level.name.isNone then .ok { level with name := some arg }
    else .error (.fault (.unexpected arg))

/-- Read one argument at a level. -/
def readArg (level : Level) (arg : String) : Except Stop Level :=
  if level.closed then readPlain level arg
  else
    match arg.toList with
    | ['-', '-'] => .ok { level with closed := true }
    | '-' :: '-' :: text => readLong level text
    | ['-'] => readPlain level arg
    | '-' :: text => readShorts level text
    | _ => readPlain level arg

/-- The command below this level that an argument selects. An argument is not looked at in this way
where a value is waited for. -/
def commandOf? (level : Level) (arg : String) : Option CommandName :=
  if level.closed || level.pending.isSome then none
  else level.command.below.find? (·.word == arg)

/-- The argument asks for help by a word. -/
def asksHelp (level : Level) (arg : String) : Bool :=
  !level.closed && level.pending.isNone && !level.command.below.isEmpty && arg == "help"

/-- Read the arguments that are left. The levels that are done are given the deepest first, and so
is the result. -/
def readArgs (done : List Level) (level : Level) :
    List String → Except (Stop × List CommandName) (List Level)
  | [] => .ok (level :: done)
  | arg :: rest =>
    if asksHelp level arg then .error (.help, [])
    else
      match commandOf? level arg with
      | some command => readArgs (level :: done) (.start command) rest
      | none =>
        match readArg level arg with
        | .ok level => readArgs done level rest
        | .error stop => .error (stop, ((level :: done).map (·.command)).reverse)

/-! ## Completing levels -/

/-- The variable of the environment that stands for an option. -/
def variableOf? : OptionName → Option String
  | .repository => some "DEPGRAPH_REPO"
  | .config => some "DEPGRAPH_CONFIG"
  | _ => none

/-- The value that the environment gives to an option. -/
def inherited? (environment : String → Option String) (name : OptionName) : Option String :=
  (variableOf? name).bind environment

/-- What is wrong with a level that has been read to its end. -/
def fault? (environment : String → Option String) (isDeepest : Bool) (level : Level) :
    Option UsageError :=
  match level.pending with
  | some spec => some (.missingValue spec.long)
  | none =>
    match level.command.exclusions.find? fun (a, b) => level.has a && level.has b with
    | some (a, b) => some (.excluded a b)
    | none =>
      if level.command.takesName && level.name.isNone then some .missingName
      else if isDeepest && !level.command.below.isEmpty then some .missingCommand
      else
        -- A variable must be valid wherever the option itself is absent.
        OptionSpec.globals.findSome? fun spec =>
          match spec.value, inherited? environment spec.name with
          | some shape, some value =>
            if level.has spec.name || isValid shape value then none
            else some (.invalidValue spec.long value)
          | _, _ => none

/-- The faults of all levels, the deepest first. -/
def faults (environment : String → Option String) : List Level → List UsageError
  | [] => []
  | deepest :: outer =>
    ((fault? environment true deepest).toList)
      ++ outer.filterMap (fault? environment false)

/-- The value of an option of all commands. -/
def globalValue? (environment : String → Option String) (levels : List Level)
    (name : OptionName) : Option String :=
  (levels.findSome? (·.value? name)).or (inherited? environment name)

/-- The values of the options of all commands. -/
def globalOptions (environment : String → Option String) (levels : List Level) :
    GlobalOptions where
  repository := globalValue? environment levels .repository
  config := globalValue? environment levels .config
  verbose := levels.any (·.has .verbose)
  quiet := levels.any (·.has .quiet)
  jsonLogs := levels.any (·.has .jsonLogs)

/-- The command of a level, if it is one that can be run. -/
def command? (level : Level) : Option Command :=
  let format := (level.value? .format).bind fun word => (GraphFormat.configured word).toOption
  match level.command with
  | .generate => some (.generate
      { output := level.value? .output
        format := format
        filter := level.value? .filter
        cloneDirectory := level.value? .cloneDirectory })
  | .update => some (.update
      { since := level.value? .since
        snapshot := level.has .snapshot
        filter := level.value? .filter
        format := format
        graph := level.value? .graph
        relink := level.has .relink })
  | .stats => some (.stats
      { json := level.has .json
        graph := level.value? .graph
        validate := level.has .validate })
  | .deps => level.name.map fun name => .deps
      { name := name
        reverse := level.has .reverse
        transitive := level.has .transitive
        json := level.has .json
        graph := level.value? .graph }
  | .configShow => some (.configShow (level.has .json))
  | .configInit => some (.configInit (level.has .userWide) (level.has .force))
  | .program | .config => none

/-- What the levels of a command line ask for. -/
def requestOf (environment : String → Option String) (levels : List Level) : Request :=
  match faults environment levels, levels.head?.bind command? with
  | error :: _, _ => .faulty error
  | [], some command => .run (globalOptions environment levels) command
  | [], none => .faulty .missingCommand

/-- What a command line asks for, in an environment. -/
def parse (environment : String → Option String) (args : List String) : Request :=
  match readArgs [] (.start .program) args with
  | .ok levels => requestOf environment levels
  | .error (.fault error, _) => .faulty error
  | .error (.version, path) => .version path
  | .error (.help, _) => .help

end CodeAtlas.CommandLine
