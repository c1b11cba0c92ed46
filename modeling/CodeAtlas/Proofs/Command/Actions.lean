import CodeAtlas.Command.Repository

/-!
# Steps of commands

What a step of a command does to the world and to what has been printed, and what follows from the
success of steps one after the other.

## Main definitions

* `Action.runIn`: the result of a step, and the run after it.
* `Action.KeepsWorld`: steps that change nothing outside.
* `Command.opened`: the run in which a store has been opened.

## Main results

* `Action.exists_of_bind`: what a success tells about the steps it is made of.
* `Action.exists_of_outcome`: what the exit code tells.
* `Command.keepsWorld_repositorySource`: looking for the repository.
* `Command.runIn_loadDocument`: the stored document.
-/

namespace CodeAtlas

namespace Action

variable {α β ε : Type} {action : Action α} {run run' : Run}

/-- The result of a step, and the run after it. -/
def runIn (action : Action α) (run : Run) : Except Failure α × Run :=
  Id.run ((ExceptT.run action).run run)

@[simp] theorem runIn_pure (value : α) (run : Run) :
    (pure value : Action α).runIn run = (.ok value, run) :=
  rfl

@[simp] theorem runIn_get (run : Run) : (get : Action Run).runIn run = (.ok run, run) :=
  rfl

@[simp] theorem runIn_set (run run' : Run) : (set run' : Action PUnit).runIn run = (.ok (), run') :=
  rfl

@[simp] theorem runIn_files (run : Run) : files.runIn run = (.ok run.world.files, run) :=
  rfl

theorem runIn_bind (action : Action α) (next : α → Action β) (run : Run) :
    (action >>= next).runIn run =
      match action.runIn run with
      | (.ok value, after) => (next value).runIn after
      | (.error failure, after) => (.error failure, after) := by
  rcases hfirst : action.runIn run with ⟨result, after⟩
  have hrun : (ExceptT.run action).run run = (result, after) := hfirst
  simp only [runIn, ExceptT.run_bind, StateT.run_bind, hrun]
  cases result <;> rfl

/-- A step that succeeds is followed by the next. -/
theorem runIn_bind_of_ok {next : α → Action β} {value : α}
    (h : action.runIn run = (.ok value, run')) :
    (action >>= next).runIn run = (next value).runIn run' := by
  rw [runIn_bind, h]

/-- Where two steps succeed, the first does, and the second from there. -/
theorem exists_of_bind {next : α → Action β} {value : β}
    (h : (action >>= next).runIn run = (.ok value, run')) :
    ∃ first between, action.runIn run = (.ok first, between) ∧
      (next first).runIn between = (.ok value, run') := by
  rw [runIn_bind] at h
  rcases hfirst : action.runIn run with ⟨result, between⟩
  rw [hfirst] at h
  cases result with
  | error failure => cases h
  | ok first => exact ⟨first, between, rfl, h⟩

/-- The exit code is zero for a success only. -/
theorem exists_of_outcome {action : Action Unit} {world world' : World} {outcome : Outcome}
    (h : action.outcome world = (outcome, world')) (hcode : outcome.code = 0) :
    ∃ run', action.runIn ⟨world, "", ""⟩ = (.ok (), run') ∧ run'.world = world' := by
  unfold Action.outcome at h
  rcases hrun : action.runIn ⟨world, "", ""⟩ with ⟨result, run'⟩
  rw [runIn] at hrun
  rw [hrun] at h
  cases result with
  | ok done =>
    obtain ⟨-, rfl⟩ := Prod.mk.inj h
    exact ⟨run', rfl, rfl⟩
  | error failure =>
    obtain ⟨rfl, -⟩ := Prod.mk.inj h
    exact absurd hcode Nat.one_ne_zero

/-- A success ends with exit code zero. -/
theorem outcome_of_runIn {action : Action Unit} {world : World}
    (h : action.runIn ⟨world, "", ""⟩ = (.ok (), run')) :
    action.outcome world = (⟨0, run'.stdout, run'.stderr⟩, run'.world) := by
  rw [runIn] at h
  rw [Action.outcome, h]

/-! ### Steps that change nothing outside -/

/-- The world is the same after the step. -/
def KeepsWorld (action : Action α) : Prop :=
  ∀ run, (action.runIn run).2.world = run.world

theorem KeepsWorld.world_eq (h : action.KeepsWorld) {result : Except Failure α}
    (hrun : action.runIn run = (result, run')) : run'.world = run.world := by
  rw [← h run, hrun]

theorem keepsWorld_pure (value : α) : (pure value : Action α).KeepsWorld :=
  fun _ => rfl

theorem keepsWorld_fail (failure : Failure) : (fail failure : Action α).KeepsWorld :=
  fun _ => rfl

theorem keepsWorld_files : files.KeepsWorld :=
  fun _ => rfl

theorem KeepsWorld.bind {next : α → Action β} (h : action.KeepsWorld)
    (hnext : ∀ value, (next value).KeepsWorld) : (action >>= next).KeepsWorld := by
  intro run
  rw [runIn_bind]
  rcases hfirst : action.runIn run with ⟨result, after⟩
  have hworld := h.world_eq hfirst
  cases result with
  | error failure => exact hworld
  | ok value => exact (hnext value after).trans hworld

theorem keepsWorld_ofExcept (trail : ε → List String) (result : Except ε α) :
    (ofExcept trail result).KeepsWorld := by
  cases result <;> exact fun _ => rfl

theorem keepsWorld_within (message : String) (trail : ε → List String) (result : Except ε α) :
    (within message trail result).KeepsWorld := by
  cases result <;> exact fun _ => rfl

theorem keepsWorld_inform (globals : GlobalOptions) (line : String) :
    (inform globals line).KeepsWorld := by
  intro run
  unfold inform
  split <;> rfl

theorem exists_runIn_inform (globals : GlobalOptions) (line : String) (run : Run) :
    ∃ run', (inform globals line).runIn run = (.ok (), run') := by
  unfold inform
  split <;> exact ⟨_, rfl⟩

end Action

namespace Command

open CodeAtlas.Action (KeepsWorld keepsWorld_files keepsWorld_ofExcept keepsWorld_pure keepsWorld_within)

/-! ### Repositories and configurations -/

theorem keepsWorld_currentDirectory : currentDirectory.KeepsWorld :=
  keepsWorld_files.bind fun _ => keepsWorld_within _ _ _

theorem keepsWorld_repositorySource (globals : GlobalOptions) :
    (repositorySource globals).KeepsWorld := by
  unfold repositorySource
  split
  · exact keepsWorld_currentDirectory.bind fun _ => keepsWorld_pure _
  · split
    · exact keepsWorld_pure _
    · refine keepsWorld_files.bind fun fs => ?_
      split
      · exact (keepsWorld_ofExcept _ _).bind fun _ => keepsWorld_pure _
      · exact Action.keepsWorld_fail _

theorem keepsWorld_overridden (config : Config) (overrides : ConfigOverrides) :
    (overridden config overrides).KeepsWorld :=
  (keepsWorld_ofExcept _ _).bind fun _ => keepsWorld_pure _

/-- The configuration that is used is the one with the values of the run. -/
theorem eq_override_of_overridden {config chosen : Config} {overrides : ConfigOverrides}
    {run run' : Run} (h : (overridden config overrides).runIn run = (.ok chosen, run')) :
    chosen = config.override overrides := by
  obtain ⟨valid, between, -, hlast⟩ := Action.exists_of_bind h
  exact (Except.ok.inj (Prod.mk.inj hlast).1).symm

/-! ### Stored graphs -/

/-- The run in which a store has been opened, which can change files. -/
def opened (store : GraphStore) (run : Run) : Run :=
  { run with world := { run.world with files := (store.load run.world.files).2 } }

/-- The stored document is loaded, or the step fails. The store has been opened then, if there is
one. -/
theorem runIn_loadDocument (store : GraphStore) (run : Run) :
    (loadDocument store).runIn run =
      if store.isPresent run.world.files then
        match (store.load run.world.files).1 with
        | .ok document => (.ok document, opened store run)
        | .error error =>
          (.error ⟨"Failed to load graph from " ++ store.path, error.trail⟩, opened store run)
      else
        (.error (.simple ("No graph found at " ++ store.path
          ++ ". Run 'depgraph generate' first.")), run) := by
  unfold loadDocument requirePresent opened
  simp only [Action.runIn_bind, Action.runIn_files]
  cases hpresent : store.isPresent run.world.files with
  | false => rfl
  | true =>
    simp only [Bool.not_true, Bool.false_eq_true, ↓reduceIte, Action.runIn_pure]
    rcases store.load run.world.files with ⟨result, fs⟩
    cases result <;> rfl

end Command

end CodeAtlas
