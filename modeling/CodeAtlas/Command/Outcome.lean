import CodeAtlas.CommandLine
import CodeAtlas.Config.Files
import CodeAtlas.Pipeline

/-!
# Running commands

A command reads and changes the world, prints lines for the user, and may fail. A failure is told
with the reasons behind it, each of which was the cause of the one before.
-/

namespace CodeAtlas

/-! ## Reasons -/

/-- A store error and the reasons behind it. -/
def StoreError.trail (error : StoreError) : List String :=
  error.message ::
    match error with
    | .io reason => [reason.message]
    | .invalidJson => ["not a graph document"]
    | .invalidDatabase => ["not a graph database"]
    | _ => []

/-- A version control error and the reasons behind it. -/
def GitError.trail (error : GitError) : List String :=
  error.message ::
    match error with
    | .io reason => [reason.message]
    | _ => []

/-- A stage's error and the reasons behind it. -/
def StageError.trail (error : StageError) : List String :=
  error.message ::
    match error with
    | .builder reason => [reason.message]
    | .update reason => [reason.message]
    | .git reason => reason.trail
    | .store reason => reason.trail
    | .attribute _ | .invalid _ => []

/-- A pipeline's error and the reasons behind it. -/
def PipelineError.trail (error : PipelineError) : List String :=
  error.message ::
    match error with
    | .stageFailed _ reason => reason.trail
    | _ => []

/-- A configuration error and the reasons behind it. -/
def ConfigError.trail (error : ConfigError) : List String :=
  error.message :: error.cause?.toList

/-! ## Failures -/

/-- Why a command fails: what went wrong, and the reasons behind it. -/
structure Failure where
  message : String
  reasons : List String
deriving DecidableEq, Repr, Inhabited

namespace Failure

/-- A failure without further reasons. -/
def simple (message : String) : Failure :=
  ⟨message, []⟩

/-- The failure of a list of messages, the last reason last. -/
def ofTrail : List String → Failure
  | [] => ⟨"", []⟩
  | message :: reasons => ⟨message, reasons⟩

/-- A number with blanks before it, five columns wide. -/
def column (n : Nat) : String :=
  let digits := (toString n).toList
  String.ofList (List.replicate (5 - digits.length) ' ' ++ digits)

/-- A reason behind the mark of its first line; further lines are indented alike. -/
def reasonLines (mark indent reason : String) : String :=
  mark ++ Text.join ("\n" ++ indent) (Text.split '\n' reason)

/-- The reasons, one below the other; several are numbered. -/
def reasonsText : List String → String
  | [] => ""
  | [reason] => "\n\nCaused by:\n" ++ reasonLines "    " "    " reason
  | reasons =>
    "\n\nCaused by:" ++ String.join (reasons.zipIdx.map fun (reason, index) =>
      "\n" ++ reasonLines (column index ++ ": ") "       " reason)

/-- What the user is told. -/
def report (failure : Failure) : String :=
  "Error: " ++ failure.message ++ reasonsText failure.reasons ++ "\n"

end Failure

/-! ## Actions -/

/-- The world, and what has been printed so far. -/
structure Run where
  world : World
  stdout : String
  stderr : String
deriving DecidableEq, Inhabited

/-- A step of a command, which may fail. What it has done by then stays done. -/
abbrev Action := ExceptT Failure (StateM Run)

namespace Action

/-- Stop with a failure. -/
def fail {α : Type} (failure : Failure) : Action α :=
  throw failure

/-- Go on with a result, or stop with what has gone wrong. -/
def ofExcept {ε α : Type} (trail : ε → List String) : Except ε α → Action α
  | .ok value => pure value
  | .error error => fail (.ofTrail (trail error))

/-- Go on with a result, or stop with a message and what has gone wrong as its reason. -/
def within {ε α : Type} (message : String) (trail : ε → List String) : Except ε α → Action α
  | .ok value => pure value
  | .error error => fail ⟨message, trail error⟩

/-- The files. -/
def files : Action FileSystem := do
  return (← get).world.files

/-- Change the files and go on with a result, or stop with what has gone wrong. -/
def changeFiles {ε α : Type} (trail : ε → List String) (result : Except ε α × FileSystem) :
    Action α := do
  modify fun run => { run with world := { run.world with files := result.2 } }
  ofExcept trail result.1

/-- Print a text. -/
def print (text : String) : Action Unit :=
  modify fun run => { run with stdout := run.stdout ++ text }

/-- Print a line. -/
def printLine (line : String) : Action Unit :=
  print (line ++ "\n")

/-- Print a line for information, unless the run is to be quiet. -/
def inform (globals : GlobalOptions) (line : String) : Action Unit :=
  if globals.quiet then pure ()
  else modify fun run => { run with stderr := run.stderr ++ line ++ "\n" }

end Action

/-- How a run ends: its exit code and what it has printed. -/
structure Outcome where
  code : Nat
  stdout : String
  stderr : String
deriving DecidableEq, Repr, Inhabited

/-- Run a command in a world. -/
def Action.outcome (action : Action Unit) (world : World) : Outcome × World :=
  let (result, run) := Id.run ((ExceptT.run action).run ⟨world, "", ""⟩)
  match result with
  | .ok () => (⟨0, run.stdout, run.stderr⟩, run.world)
  | .error failure => (⟨1, run.stdout, run.stderr ++ failure.report⟩, run.world)

end CodeAtlas
