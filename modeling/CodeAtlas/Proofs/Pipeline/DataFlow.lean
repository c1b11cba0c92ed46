import CodeAtlas.Proofs.Pipeline.Stages

/-!
# The flow of attributes through a pipeline

What a pipeline declares can be checked without running it. The check predicts which attributes are
set before each stage, and a run cannot depart from the prediction as long as it goes on: a stage
that returns anything but the attributes it declares stops the run before they are applied. So the
attributes set during a run are at every stage those of the prediction, and a run stops for missing
attributes exactly where the check does, unless it stops earlier for another reason.

## Main definitions

* `Pipeline.FailsAt`: the stage that stops a run, and why.

## Main results

* `Pipeline.not_isMissing_of_checkFrom`: a run of stages that pass the check misses nothing.
* `Pipeline.runFrom_append_of_missing`: a stage that misses something is not run.
* `Pipeline.check_agrees_with_run`: the check against the run.
-/

namespace CodeAtlas

/-- A run stopped because attributes were missing. -/
def PipelineError.isMissing : PipelineError → Bool
  | .missingAttributes _ _ => true
  | _ => false

namespace Pipeline

variable {producers : Producers} {schema : StageSchema} {stage : Stage} {stages : List Stage}
  {container : Container} {world : World} {available : List AttributeKey} {index : Nat}
  {error : PipelineError}

/-! ### The check -/

/-- The check and the run look for the same attributes. -/
theorem missing_has (hkeys : container.HasExactly available) :
    missing producers schema container.has = missing producers schema available.contains := by
  have hsame : container.has = available.contains := by
    funext key
    rw [Bool.eq_iff_iff, hkeys, List.contains_iff_mem]
  rw [hsame]

/-- A stage that misses nothing does not fail for missing attributes. -/
theorem not_isMissing_of_runStage (hnone : missing producers stage.schema container.has = [])
    (h : (runStage producers index stage container world).1 = .error error) :
    error.isMissing = false := by
  unfold runStage at h
  dsimp only at h
  rw [hnone] at h
  dsimp only at h
  split at h
  · rw [← Except.error.inj h]
    rfl
  · rw [← Except.error.inj h]
    rfl
  · split at h
    · rw [← Except.error.inj h]
      rfl
    · simp at h

/-- A check that succeeds finds everything the first stage needs. -/
theorem checkFrom_cons_eq_ok {schemas : List StageSchema}
    (h : checkFrom producers available (schema :: schemas) = .ok ()) :
    missing producers schema available.contains = [] ∧
      checkFrom producers (available ++ schema.produces) schemas = .ok () := by
  rw [checkFrom] at h
  split at h
  · rename_i hnone
    exact ⟨hnone, h⟩
  · simp at h

/-- A check that fails has found everything the stages before need, and something missing. -/
theorem exists_of_checkFrom_eq_error
    (h : checkFrom producers available (stages.map (·.schema)) = .error error) :
    ∃ before stage after absent, stages = before ++ stage :: after ∧
      checkFrom producers available (before.map (·.schema)) = .ok () ∧
      missing producers stage.schema (available ++ outputs before).contains = absent ∧
      absent ≠ [] ∧ error = .missingAttributes stage.schema.name absent := by
  induction stages generalizing available with
  | nil => simp [checkFrom] at h
  | cons stage rest ih =>
    rw [List.map_cons, checkFrom] at h
    split at h
    · rename_i hnone
      obtain ⟨before, last, after, absent, rfl, hchecked, habsent, hne, herror⟩ := ih h
      refine ⟨stage :: before, last, after, absent, rfl, ?_, ?_, hne, herror⟩
      · rw [List.map_cons, checkFrom, hnone]
        exact hchecked
      · rw [← habsent, outputs, List.flatMap_cons, List.append_assoc]
        rfl
    · rename_i hne
      refine ⟨[], stage, rest, _, rfl, rfl, ?_, hne, (Except.error.inj h).symm⟩
      rw [outputs, List.flatMap_nil, List.append_nil]

/-- A run of stages that pass the check does not fail for missing attributes. -/
theorem not_isMissing_of_checkFrom (hkeys : container.HasExactly available)
    (hcheck : checkFrom producers available (stages.map (·.schema)) = .ok ())
    (h : (runFrom producers index stages container world).1 = .error error) :
    error.isMissing = false := by
  induction stages generalizing index available container world with
  | nil => simp at h
  | cons stage rest ih =>
    obtain ⟨hnone, hrest⟩ := checkFrom_cons_eq_ok hcheck
    rw [← missing_has hkeys] at hnone
    obtain ⟨reason, after, hstage⟩ | ⟨updates, after, -, -, hdelivers, hstage⟩ :=
      runStage_cases producers index stage container world
    · rw [runFrom_cons_of_error hstage] at h
      obtain rfl := Except.error.inj h
      exact not_isMissing_of_runStage hnone (by rw [hstage])
    · rw [runFrom_cons_of_ok hstage] at h
      exact ih (hdelivers.hasExactly hkeys) hrest h

/-- Where a stage misses something, a run stops before it, whatever the stage and those after it
would do. -/
theorem runFrom_append_of_missing {before after : List Stage} {absent : List MissingAttribute}
    (hkeys : container.HasExactly available)
    (habsent : missing producers schema (available ++ outputs before).contains = absent)
    (hne : absent ≠ []) (hschema : stage.schema = schema) :
    runFrom producers index (before ++ stage :: after) container world =
      match runFrom producers index before container world with
      | (.error failure, state, world) => (.error failure, state, world)
      | (.ok _, _, world) =>
        (.error (.missingAttributes schema.name absent), .failed (index + before.length),
          world) := by
  subst hschema
  rw [runFrom_append]
  obtain ⟨next, between, hbefore⟩ | ⟨reason, position, between, -, hbefore⟩ :=
    state_of_runFrom producers index before container world
  · have hmissing : missing producers stage.schema next.has = absent := by
      rw [missing_has (hasExactly_of_runFrom hkeys hbefore), habsent]
    rw [hbefore]
    dsimp only
    rw [runFrom_cons_of_error (runStage_of_missing (hmissing.trans_ne hne)), hmissing]
  · rw [hbefore]

/-! ### The check against the run -/

/-- The stage with the number fails for the reason, in a run that has passed those before it. -/
def FailsAt (producers : Producers) (stages : List Stage) (container : Container) (world : World)
    (index : Nat) (error : PipelineError) : Prop :=
  ∃ before stage after next between, stages = before ++ stage :: after ∧ index = before.length ∧
    runFrom producers 0 before container world = (.ok next, .done, between) ∧
    (runStage producers index stage next between).1 = .error error

/-- A run that fails leaves the pipeline failed with the number of the stage that fails. -/
theorem exists_failsAt_of_run {pipeline : Pipeline}
    (h : (pipeline.run container world).1 = .error error) :
    ∃ index, (pipeline.run container world).2.1 = .failed index ∧
      FailsAt pipeline.producers pipeline.stages container world index error := by
  obtain ⟨final, world', hrun⟩ | ⟨reason, position, world', -, hrun⟩ :=
    state_of_runFrom pipeline.producers 0 pipeline.stages container world
  · rw [run, hrun] at h
    exact absurd h (by simp)
  · rw [run, hrun] at h
    obtain rfl := Except.error.inj h
    rw [Nat.zero_add] at hrun
    obtain ⟨before, stage, after, next, between, hstages, hposition, hbefore, hstage⟩ :=
      exists_of_runFrom_eq_error hrun
    refine ⟨position, by rw [run, hrun], before, stage, after, next, between, hstages, ?_,
      hbefore, by rw [hstage]⟩
    rw [hposition, Nat.zero_add]

/-- A pipeline is done exactly when its run succeeds. -/
theorem state_eq_done_iff (pipeline : Pipeline) (container : Container) (world : World) :
    (pipeline.run container world).2.1 = .done ↔
      ∃ final, (pipeline.run container world).1 = .ok final := by
  obtain ⟨final, world', hrun⟩ | ⟨error, position, world', -, hrun⟩ :=
    state_of_runFrom pipeline.producers 0 pipeline.stages container world
  · simp [run, hrun]
  · simp [run, hrun]

section Missing

variable {pipeline : Pipeline} {before after : List Stage} {absent : List MissingAttribute}

/-- Where the check finds something missing, the run stops with the same error, if it comes there;
otherwise it stops earlier, and not for missing attributes. -/
theorem run_stops_at_missing (hkeys : container.HasExactly available)
    (hstages : pipeline.stages = before ++ stage :: after)
    (hchecked : checkFrom pipeline.producers available (before.map (·.schema)) = .ok ())
    (habsent : missing pipeline.producers stage.schema (available ++ outputs before).contains =
      absent) (hne : absent ≠ []) :
    (∃ index < before.length, ∃ earlier, earlier.isMissing = false ∧
        (pipeline.run container world).1 = .error earlier ∧
        (pipeline.run container world).2.1 = .failed index) ∨
      (pipeline.run container world).1 =
          .error (.missingAttributes stage.schema.name absent) ∧
        (pipeline.run container world).2.1 = .failed before.length := by
  rw [run, hstages, runFrom_append_of_missing hkeys habsent hne rfl]
  obtain ⟨next, between, hbefore⟩ | ⟨earlier, position, between, hposition, hbefore⟩ :=
    state_of_runFrom pipeline.producers 0 before container world
  · rw [hbefore, Nat.zero_add]
    exact Or.inr ⟨rfl, rfl⟩
  · have hearlier : (runFrom pipeline.producers 0 before container world).1 = .error earlier := by
      rw [hbefore]
    have hother := not_isMissing_of_checkFrom hkeys hchecked hearlier
    rw [hbefore, Nat.zero_add]
    exact Or.inl ⟨position, hposition, earlier, hother, rfl, rfl⟩

/-- What the stage that misses something and those after it would do is of no account. -/
theorem run_congr_of_missing (hkeys : container.HasExactly available)
    (hstages : pipeline.stages = before ++ stage :: after)
    (habsent : missing pipeline.producers stage.schema (available ++ outputs before).contains =
      absent) (hne : absent ≠ []) {other : Stage} (hschema : other.schema = stage.schema)
    (others : List Stage) :
    { pipeline with stages := before ++ other :: others }.run container world =
      pipeline.run container world := by
  rw [run, run, runFrom_append_of_missing hkeys habsent hne hschema, hstages,
    runFrom_append_of_missing hkeys habsent hne rfl]

end Missing

/-- The check of a pipeline against its run, from a container with the attributes that are checked.
If the check succeeds, no run fails for missing attributes. If it fails at a stage, the run fails at
an earlier one for another reason, or there with the same error, and neither that stage nor a later
one has any part in it. A run that succeeds is done, and exactly the attributes are set that were
set before or are declared; each has the value returned by the last stage that declares it, which is
of the attribute's sort, or else the one it had. A run that fails leaves the pipeline failed with
the number of the stage that fails. -/
theorem check_agrees_with_run (pipeline : Pipeline) {initial : List AttributeKey}
    {container : Container} (hkeys : container.HasExactly initial) (world : World) :
    (pipeline.check initial = .ok () → ∀ error,
      (pipeline.run container world).1 = .error error → error.isMissing = false) ∧
    (∀ error, pipeline.check initial = .error error →
      ∃ before stage after absent, pipeline.stages = before ++ stage :: after ∧
        { pipeline with stages := before }.check initial = .ok () ∧ absent ≠ [] ∧
        absent = missing pipeline.producers stage.schema (initial ++ outputs before).contains ∧
        error = .missingAttributes stage.schema.name absent ∧
        ((∃ index < before.length, ∃ earlier, earlier.isMissing = false ∧
            (pipeline.run container world).1 = .error earlier ∧
            (pipeline.run container world).2.1 = .failed index) ∨
          (pipeline.run container world).1 = .error error ∧
            (pipeline.run container world).2.1 = .failed before.length) ∧
        ∀ (other : Stage) (others : List Stage), other.schema = stage.schema →
          { pipeline with stages := before ++ other :: others }.run container world =
            pipeline.run container world) ∧
    ((pipeline.run container world).2.1 = .done ↔
      ∃ final, (pipeline.run container world).1 = .ok final) ∧
    (∀ final, (pipeline.run container world).1 = .ok final →
      final.HasExactly (initial ++ outputs pipeline.stages) ∧
      (∀ key value, final.attributes.get? key = some value ↔
        LastReturned pipeline.producers pipeline.stages container world key value ∨
          key ∉ outputs pipeline.stages ∧ container.attributes.get? key = some value) ∧
      ∀ key value sort, LastReturned pipeline.producers pipeline.stages container world key value →
        key.sort? = some sort → value.sort = sort) ∧
    ∀ error, (pipeline.run container world).1 = .error error →
      ∃ index, (pipeline.run container world).2.1 = .failed index ∧
        FailsAt pipeline.producers pipeline.stages container world index error := by
  refine ⟨fun hcheck error hrun => not_isMissing_of_checkFrom hkeys hcheck hrun, ?_,
    state_eq_done_iff pipeline container world, ?_, fun error => exists_failsAt_of_run⟩
  · intro error hcheck
    obtain ⟨before, stage, after, absent, hstages, hchecked, habsent, hne, rfl⟩ :=
      exists_of_checkFrom_eq_error hcheck
    exact ⟨before, stage, after, absent, hstages, hchecked, hne, habsent.symm, rfl,
      run_stops_at_missing hkeys hstages hchecked habsent hne,
      fun _ others hschema => run_congr_of_missing hkeys hstages habsent hne hschema others⟩
  · intro final hfinal
    obtain ⟨state, world', hrun⟩ : ∃ state world',
        runFrom pipeline.producers 0 pipeline.stages container world = (.ok final, state, world') :=
      ⟨_, _, Prod.ext hfinal rfl⟩
    obtain rfl := state_eq_done_of_runFrom hrun
    refine ⟨hasExactly_of_runFrom hkeys hrun, fun key value => get?_eq_some_iff_of_runFrom hrun,
      fun key value sort hlast hsort => ?_⟩
    have haccepts := (hlast.get?_eq hrun).2
    simp only [AttributeKey.accepts, hsort, beq_iff_eq] at haccepts
    exact haccepts.symm

/-! ### A pipeline with a gap -/

/-- A stage that returns fixed attributes. -/
def fixedStage (schema : StageSchema) (entries : List (AttributeKey × AttributeValue)) : Stage where
  schema := schema
  run := fun _ world => (.returned (.ofList entries), world)

/-- Two stages write the same attribute one after the other. -/
def tallyStages : List Stage :=
  [fixedStage ⟨"first", [.author], [], [.extra "x"]⟩ [(.extra "x", .flag true)],
    fixedStage ⟨"second", [.extra "x"], [], [.extra "x", .isDownloaded]⟩
      [(.isDownloaded, .flag true), (.extra "x", .flag false)]]

/-- A third stage needs an attribute that nobody writes. It would break off. -/
def gapPipeline : Pipeline where
  stages := tallyStages
    ++ [⟨⟨"third", [.files, .extra "x"], [], []⟩, fun _ world => (.brokenOff, world)⟩]
  producers := .empty

/-- A container in which the author is set. -/
def gapContainer : Container where
  repository := .ofPath "/repo" "/store"
  attributes := Attributes.empty.insert .author (.optionalText none)

theorem check_agrees_with_run_gap :
    gapContainer.HasExactly [.author] ∧
    gapPipeline.check [.author] = .error (.missingAttributes "third" [⟨.files, []⟩]) ∧
    (gapPipeline.run gapContainer default).2.1 = .failed 2 ∧
    FailsAt .empty gapPipeline.stages gapContainer default 2
      (.missingAttributes "third" [⟨.files, []⟩]) ∧
    ({ gapPipeline with stages := tallyStages }.run gapContainer default).2.1 = .done ∧
    ∃ final, ({ gapPipeline with stages := tallyStages }.run gapContainer default).1 = .ok final ∧
      final.HasExactly [.author, .extra "x", .extra "x", .isDownloaded] ∧
      final.attributes.get? (.extra "x") = some (.flag false) := by
  have hkeys : gapContainer.HasExactly [.author] := by
    intro key
    rw [Container.has, gapContainer, Attributes.contains, Attributes.get?_insert]
    by_cases hkey : key = .author
    · simp [hkey]
    · simp [hkey, Attributes.empty, Attributes.get?]
  have hrun : (gapPipeline.run gapContainer default).1 =
      .error (.missingAttributes "third" [⟨.files, []⟩]) := rfl
  have hfailed : (gapPipeline.run gapContainer default).2.1 = .failed 2 := rfl
  obtain ⟨index, hstate, hfails⟩ :=
    (check_agrees_with_run gapPipeline hkeys default).2.2.2.2 _ hrun
  obtain rfl := PipelineState.failed.inj (hstate.symm.trans hfailed)
  obtain ⟨-, -, hdone, hpassed, -⟩ :=
    check_agrees_with_run { gapPipeline with stages := tallyStages } hkeys default
  exact ⟨hkeys, rfl, hfailed, hfails, hdone.mpr ⟨_, rfl⟩, _, rfl, (hpassed _ rfl).1, rfl⟩

end Pipeline

end CodeAtlas
