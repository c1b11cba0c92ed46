import CodeAtlas.Filter
import CodeAtlas.Store
import CodeAtlas.Update

/-!
# Runs

A graph is built, and then changed step by step: it is brought up to date with some changes of some
working tree, accurate or not, its components are filtered, or it is saved and loaded again. Between
the steps everything outside of the graph may change: the files, the builder and its settings, the
place where the graph is kept.

## Main definitions

* `Run.Started`: the graphs that are built, with the names that were known before the build.
* `Run.Step`: one step.
* `Run.Reached`: the graphs that are reached by any number of steps.
-/

namespace CodeAtlas.Run

/-- The graph is built by a builder from paths in a file system, all of an allowed sort. The names
are those of the build's seed. -/
inductive Started (Allowed : Builder → FileSystem → String → List String → Prop) :
    NameTable → CodeGraph → Prop
  | files {builder : Builder} {fs : FileSystem} {directory : String} {paths : List String}
      (allowed : Allowed builder fs directory paths) (seed : LinkSeed) :
      Started Allowed seed.known (builder.buildFiles fs directory paths seed).graph
  | directory {builder : Builder} {fs : FileSystem} {home directory : String}
      {collected : List String} {supply : IdSupply} {output : BuildOutput}
      (found : builder.collectFiles fs home directory = some collected)
      (allowed : Allowed builder fs directory collected)
      (built : builder.buildDirectory fs home directory supply = some (.ok output)) :
      Started Allowed [] output.graph

/-- One graph becomes another in one step. What an update builds is of an allowed sort as well. -/
inductive Step (Allowed : Builder → FileSystem → String → List String → Prop) :
    CodeGraph → CodeGraph → Prop
  | update {builder : Builder} {fs : FileSystem} {relinkRetained : Bool} {directory : String}
      {graph : CodeGraph} {changes : ChangeSet} {supply : IdSupply} {result : UpdateResult}
      (allowed : Allowed builder fs directory (Update.rebuildPaths builder fs directory changes))
      (updated : update builder relinkRetained fs directory graph changes supply = .ok result) :
      Step Allowed graph result.graph
  | filter (graph : CodeGraph) (keep : String → Bool) : Step Allowed graph (graph.filter keep)
  | reload {store : GraphStore} {fs fs' : FileSystem} {graph : CodeGraph}
      {repository commitHash : Option String} {document : Document}
      (saved : store.save (.ofGraph graph repository commitHash) fs = (.ok (), fs'))
      (loaded : (store.load fs').1 = .ok document) : Step Allowed graph document.graph

/-- The graph is reached by steps from one that was built against the given names. -/
inductive Reached (Allowed : Builder → FileSystem → String → List String → Prop)
    (known : NameTable) : CodeGraph → Prop
  | start {graph : CodeGraph} : Started Allowed known graph → Reached Allowed known graph
  | step {graph graph' : CodeGraph} :
      Reached Allowed known graph → Step Allowed graph graph' → Reached Allowed known graph'

/-- What holds of every built graph and is kept by every step holds of every graph reached. -/
theorem Reached.invariant {Allowed : Builder → FileSystem → String → List String → Prop}
    {known : NameTable} {Inv : CodeGraph → Prop}
    (hstart : ∀ graph, Started Allowed known graph → Inv graph)
    (hstep : ∀ graph graph', Inv graph → Step Allowed graph graph' → Inv graph')
    {graph : CodeGraph} (h : Reached Allowed known graph) : Inv graph := by
  induction h with
  | start hbuilt => exact hstart _ hbuilt
  | step _ hstepped ih => exact hstep _ _ ih hstepped

end CodeAtlas.Run
