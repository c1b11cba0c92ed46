import CodeAtlas.Container
import CodeAtlas.Git
import CodeAtlas.Store
import CodeAtlas.Update

/-!
# Pipelines

A pipeline runs stages one after the other over a container. Each stage declares the attributes it
needs and those it produces. What a stage needs must be there before it runs, and what it returns
must be exactly what it declared, with values of the right sort, before it is applied. The declared
flow of attributes can be checked without running anything.
-/

namespace CodeAtlas

/-! ## Stages -/

/-- What a stage declares. -/
structure StageSchema where
  name : String
  /-- Attributes that must be set before the stage runs. -/
  needs : List AttributeKey
  /-- Attributes that are read if they are set. -/
  optional : List AttributeKey
  /-- Attributes the stage returns, all of them. -/
  produces : List AttributeKey
deriving DecidableEq, Repr, Inhabited

/-- Reasons why a stage fails. -/
inductive StageError where
  | attribute (error : AttributeError)
  | builder (error : BuilderError)
  | update (error : UpdateError)
  | git (error : GitError)
  | store (error : StoreError)
  | invalid (reason : String)
deriving DecidableEq, Repr, Inhabited

/-- The wording of a stage's error. -/
def StageError.message : StageError → String
  | .attribute error => error.message
  | .builder error => "build failed: " ++ error.message
  | .update error => "update failed: " ++ error.message
  | .git error => "version control failed: " ++ error.message
  | .store error => "persistence failed: " ++ error.message
  | .invalid reason => reason

/-- How a stage ends. -/
inductive StageOutcome where
  | returned (updates : Attributes)
  | failed (error : StageError)
  /-- The stage broke off without an answer. -/
  | brokenOff
deriving Inhabited

/-- A stage of a pipeline. -/
structure Stage where
  schema : StageSchema
  run : Container → World → StageOutcome × World

/-! ## Producers -/

/-- The stages that are known to produce an attribute. -/
structure Producers where
  entries : List (AttributeKey × String)
deriving DecidableEq, Repr, Inhabited

namespace Producers

/-- No stages are known. -/
def empty : Producers :=
  ⟨[]⟩

/-- Add the attributes a stage declares. -/
def register (producers : Producers) (schema : StageSchema) : Producers :=
  ⟨producers.entries ++ schema.produces.map fun key => (key, schema.name)⟩

/-- The names of the stages that produce an attribute, in order. -/
def producersOf (producers : Producers) (key : AttributeKey) : List String :=
  Text.sortedSet ((producers.entries.filter (·.1 == key)).map (·.2))

/-- Number of attributes that are produced. -/
def size (producers : Producers) : Nat :=
  (producers.entries.map (·.1)).eraseDups.length

end Producers

/-! ## Errors -/

/-- An attribute that is not there, and the stages that would produce it. -/
structure MissingAttribute where
  key : AttributeKey
  producers : List String
deriving DecidableEq, Repr, Inhabited

/-- The missing attribute in words. -/
def MissingAttribute.describe (missing : MissingAttribute) : String :=
  if missing.producers.isEmpty then missing.key.name ++ " (no known producer)"
  else missing.key.name ++ " (produced by " ++ Text.join ", " missing.producers ++ ")"

/-- Ways in which a stage breaks its declaration. -/
inductive Violation where
  | undeclared (key : AttributeKey)
  | wrongSort (key : AttributeKey) (found : ValueSort)
  | notReturned (key : AttributeKey)
deriving DecidableEq, Repr, Inhabited

/-- The violation in words. -/
def Violation.describe : Violation → String
  | .undeclared key => "returned undeclared attribute `" ++ key.name ++ "`"
  | .wrongSort key found => "attribute `" ++ key.name ++ "` set to " ++ found.name ++ " value"
  | .notReturned key => "declared attribute `" ++ key.name ++ "` was not returned"

/-- Reasons why a run stops. -/
inductive PipelineError where
  | missingAttributes (stage : String) (missing : List MissingAttribute)
  | contractViolation (stage : String) (violation : Violation)
  | stageFailed (stage : String) (error : StageError)
  | brokenOff (stage : String)
deriving DecidableEq, Repr, Inhabited

/-- The wording of a pipeline's error. -/
def PipelineError.message : PipelineError → String
  | .missingAttributes stage missing =>
    "stage `" ++ stage ++ "` is missing attributes: "
      ++ Text.join "; " (missing.map MissingAttribute.describe)
  | .contractViolation stage violation =>
    "stage `" ++ stage ++ "` violated its contract: " ++ violation.describe
  | .stageFailed stage error => "stage `" ++ stage ++ "` failed: " ++ error.message
  | .brokenOff stage => "stage `" ++ stage ++ "` did not complete"

/-! ## Pipelines -/

/-- Stages in order, with the producers known to the pipeline. -/
structure Pipeline where
  stages : List Stage
  producers : Producers

/-- How far a pipeline has come. -/
inductive PipelineState where
  | pending
  /-- The stage with this number runs, or was the last one to be passed. -/
  | running (index : Nat)
  | done
  /-- The stage with this number failed. -/
  | failed (index : Nat)
deriving DecidableEq, Repr, Inhabited

namespace Pipeline

/-- The pipeline of some stages, which are added to the known producers. -/
def ofStages (producers : Producers) (stages : List Stage) : Pipeline where
  stages := stages
  producers := (stages.map (·.schema)).foldl Producers.register producers

/-- The names of the stages. -/
def stageNames (pipeline : Pipeline) : List String :=
  pipeline.stages.map (·.schema.name)

/-- What a stage needs and is not present. -/
def missing (producers : Producers) (schema : StageSchema) (present : AttributeKey → Bool) :
    List MissingAttribute :=
  (schema.needs.filter fun key => !present key).map fun key => ⟨key, producers.producersOf key⟩

/-- Follow the declared flow of attributes through stages. -/
def checkFrom (producers : Producers) (available : List AttributeKey) :
    List StageSchema → Except PipelineError Unit
  | [] => .ok ()
  | schema :: rest =>
    match missing producers schema available.contains with
    | [] => checkFrom producers (available ++ schema.produces) rest
    | absent => .error (.missingAttributes schema.name absent)

/-- Check the declared flow of attributes, starting with the given ones. -/
def check (pipeline : Pipeline) (initial : List AttributeKey) : Except PipelineError Unit :=
  checkFrom pipeline.producers initial (pipeline.stages.map (·.schema))

/-- The first entry that the schema does not allow. -/
def entryViolation? (schema : StageSchema) :
    List (AttributeKey × AttributeValue) → Option Violation
  | [] => none
  | (key, value) :: rest =>
    if !schema.produces.contains key then some (.undeclared key)
    else if !key.accepts value then some (.wrongSort key value.sort)
    else entryViolation? schema rest

/-- How the returned attributes break the declaration, if they do. -/
def violation? (schema : StageSchema) (updates : Attributes) : Option Violation :=
  match entryViolation? schema updates.entries with
  | some violation => some violation
  | none => (schema.produces.find? fun key => !updates.contains key).map .notReturned

/-- Run the stage with the given number. -/
def runStage (producers : Producers) (index : Nat) (stage : Stage) (container : Container)
    (world : World) : Except PipelineError Container × PipelineState × World :=
  let schema := stage.schema
  match missing producers schema container.has with
  | [] =>
    match stage.run container world with
    | (.brokenOff, world) => (.error (.brokenOff schema.name), .failed index, world)
    | (.failed error, world) => (.error (.stageFailed schema.name error), .failed index, world)
    | (.returned updates, world) =>
      match violation? schema updates with
      | some violation =>
        (.error (.contractViolation schema.name violation), .failed index, world)
      | none => (.ok (container.apply updates), .running index, world)
  | absent => (.error (.missingAttributes schema.name absent), .failed index, world)

/-- Run stages, of which the first has the given number. -/
def runFrom (producers : Producers) (index : Nat) :
    List Stage → Container → World → Except PipelineError Container × PipelineState × World
  | [], container, world => (.ok container, .done, world)
  | stage :: rest, container, world =>
    match runStage producers index stage container world with
    | (.error error, state, world) => (.error error, state, world)
    | (.ok container, _, world) => runFrom producers (index + 1) rest container world

/-- Run all stages: what comes out, and the state the pipeline is in afterwards. -/
def run (pipeline : Pipeline) (container : Container) (world : World) :
    Except PipelineError Container × PipelineState × World :=
  runFrom pipeline.producers 0 pipeline.stages container world

end Pipeline

end CodeAtlas
