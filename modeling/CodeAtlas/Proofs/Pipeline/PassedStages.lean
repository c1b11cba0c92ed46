import CodeAtlas.Proofs.Pipeline.UpdateRun

/-!
# Stages that are passed

What a stage needs in order to be passed, and what it leaves in the container. A stage that finds what
it needs is passed unless something outside fails it: the working tree is not there, nothing is
stored, version control gives no answer, or the graph cannot be saved.

## Main results

* `Container.codeGraph_apply_ofGraph`, `Container.codeGraph_apply_of_unset` and others: the graph of a
  container after a stage.
* `Stage.runStage_loadGraph`, `Stage.runStage_updateGraph` and others: one for each stage.
* `Pipeline.runFrom_detected`: the stages that update.
* `Pipeline.runFrom_filtered_save`, `Pipeline.save_of_filtered_save`: the last stages of a run.
* `Pipeline.exists_save_of_build`: the last stages of a run that builds.
-/

namespace CodeAtlas

/-- The graph that a filter leaves, if there is one. -/
def CodeGraph.filteredBy (graph : CodeGraph) : Option Pattern → CodeGraph
  | none => graph
  | some pattern => graph.filter pattern.isMatch

/-! ### Containers -/

namespace Container

/-- An attribute that can be read is set. -/
theorem has_of_read {α : Type} {container : Container} {key : AttributeKey}
    {expected : ValueSort} {view : AttributeValue → Option α} {seen : α}
    (h : container.read key expected view = .ok seen) : container.has key = true := by
  unfold read at h
  split at h
  · cases h
  · rename_i value hvalue
    rw [has, Attributes.contains, hvalue]
    rfl

variable {container : Container} {graph : CodeGraph}

/-- The parts of the graph of a container are read from it. -/
theorem of_codeGraph (h : container.codeGraph = .ok graph) :
    container.components = .ok graph.components ∧ container.files = .ok graph.files ∧
      container.externalSymbols = .ok graph.externalSymbols := by
  obtain ⟨components, hcomponents, h⟩ := exists_of_bind_eq_ok h
  obtain ⟨files, hfiles, h⟩ := exists_of_bind_eq_ok h
  obtain ⟨externalSymbols, hsymbols, h⟩ := exists_of_bind_eq_ok h
  obtain rfl := Except.ok.inj h
  exact ⟨hcomponents, hfiles, hsymbols⟩

/-- A container with a graph has the attributes that make it up. -/
theorem has_of_codeGraph (h : container.codeGraph = .ok graph) :
    ∀ key ∈ Stage.graphKeys, container.has key = true := by
  obtain ⟨hcomponents, hfiles, hsymbols⟩ := of_codeGraph h
  simpa [Stage.graphKeys] using
    ⟨has_of_read hcomponents, has_of_read hfiles, has_of_read hsymbols⟩

/-- A graph that is set is the graph of the container. -/
theorem codeGraph_apply_ofGraph (container : Container) (graph : CodeGraph) :
    (container.apply (.ofGraph graph)).codeGraph = .ok graph := by
  unfold codeGraph components files externalSymbols read apply
  simp only [Attributes.get?_apply]
  rfl

/-- So is one that is set together with the commit it was built at. -/
theorem codeGraph_apply_loaded (container : Container) (graph : CodeGraph)
    (commit : Option String) :
    (container.apply ((Attributes.ofGraph graph).insert .previousCommitHash
      (.optionalText commit))).codeGraph = .ok graph := by
  unfold codeGraph components files externalSymbols read apply
  simp only [Attributes.get?_apply]
  rfl

/-- Attributes other than those of the graph leave it. -/
theorem codeGraph_apply_of_unset {updates : Attributes}
    (h : Stage.graphKeys.any updates.contains = false) :
    (container.apply updates).codeGraph = container.codeGraph := by
  refine codeGraph_congr fun key hkey => ?_
  have hunset : updates.get? key = none := by
    simpa [Attributes.contains] using List.any_eq_false.mp h key hkey
  rw [apply, Attributes.get?_apply, hunset, Option.none_or]

/-- Components that are set take the place of those of the graph. -/
theorem codeGraph_apply_components (h : container.codeGraph = .ok graph)
    (components : List Component) :
    (container.apply (.ofList [(.components, .components components)])).codeGraph =
      .ok { graph with components := components } := by
  obtain ⟨-, hfiles, hsymbols⟩ := of_codeGraph h
  have hset : (container.apply (.ofList [(.components, .components components)])).components =
      .ok components := by
    unfold Container.components read apply
    rw [Attributes.get?_apply]
    rfl
  have hfiles' : (container.apply (.ofList [(.components, .components components)])).files =
      .ok graph.files := by
    rw [← hfiles]
    unfold Container.files read apply
    rw [Attributes.get?_apply]
    rfl
  have hsymbols' : (container.apply (.ofList [(.components,
      .components components)])).externalSymbols = .ok graph.externalSymbols := by
    rw [← hsymbols]
    unfold Container.externalSymbols read apply
    rw [Attributes.get?_apply]
    rfl
  simp only [codeGraph, hset, hfiles', hsymbols', bind, Except.bind]
  rfl

theorem changes_apply_changes (container : Container) (changes : ChangeSet) :
    (container.apply (.ofList [(.changes, .changes changes)])).changes = .ok changes := by
  unfold Container.changes read apply
  rw [Attributes.get?_apply]
  rfl

theorem path_apply_persistedPath (container : Container) (place : String) :
    (container.apply (.ofList [(.persistedPath, .path place)])).path .persistedPath = .ok place := by
  unfold Container.path read apply
  rw [Attributes.get?_apply]
  rfl

/-- The commit that is read from the working tree is to be recorded. -/
theorem recordedCommit_apply_metadata (container : Container) (commit author : Option String) :
    Stage.recordedCommit (container.apply (.ofList [(.commitHash, .optionalText commit),
      (.author, .optionalText author)])) = .ok commit := by
  unfold Stage.recordedCommit has Attributes.contains optionalText read apply
  simp only [Attributes.get?_apply]
  rfl

/-- The commit to be recorded is read from one attribute. -/
theorem recordedCommit_apply_of_unset {updates : Attributes}
    (h : updates.get? .commitHash = none) :
    Stage.recordedCommit (container.apply updates) = Stage.recordedCommit container := by
  have hget : (container.apply updates).attributes.get? .commitHash =
      container.attributes.get? .commitHash := by
    rw [apply, Attributes.get?_apply, h, Option.none_or]
  unfold Stage.recordedCommit has Attributes.contains optionalText read
  rw [hget]

end Container

/-! ### Stages -/

namespace Stage

variable {producers : Producers} {index : Nat} {builder : Builder} {mode : ChangeDetection}
  {container : Container} {world : World} {graph previous : CodeGraph}

/-- A working tree that is there is used. -/
theorem runStage_localRepository
    (h : world.files.isDirectory container.repository.path = true) :
    Pipeline.runStage producers index localRepository container world =
      (.ok (container.apply (.ofList [(.isDownloaded, .flag false)])), .running index, world) := by
  refine Pipeline.runStage_of_returned rfl ?_ (Pipeline.violation?_eq_none.mp rfl)
  simp only [localRepository, h, ↓reduceIte]

/-- The graph that is stored is loaded. -/
theorem runStage_loadGraph {format : Option GraphFormat} {document : Document} {files : FileSystem}
    (h : (storeOf container format).load world.files = (.ok document, files)) :
    Pipeline.runStage producers index (loadGraph format) container world =
      (.ok (container.apply ((Attributes.ofGraph document.graph).insert .previousCommitHash
        (.optionalText document.commitHash))), .running index, { world with files := files }) := by
  refine Pipeline.runStage_of_returned rfl ?_ (Pipeline.violation?_eq_none.mp rfl)
  simp only [loadGraph, h]

/-- The last commit and its author are read, if there are any. -/
theorem runStage_gitMetadata (h : world.GitReads) :
    ∃ author, Pipeline.runStage producers index gitMetadata container world =
      (.ok (container.apply (.ofList [(.commitHash,
        .optionalText (Git.treeCommit? world container.repository.path)),
        (.author, .optionalText author)])), .running index, world) := by
  have hcommit : (Git.headCommit? world).2 = world :=
    (Git.outputLine?_snd _ _).trans (h.askGit_snd (by simp))
  have hauthor : (Git.headAuthor? world).2 = world :=
    (Git.outputLine?_snd _ _).trans (h.askGit_snd (by simp))
  by_cases htree : Git.isRepository world.files container.repository.path = true
  · refine ⟨(Git.headAuthor? world).1, Pipeline.runStage_of_returned rfl ?_
      (Pipeline.violation?_eq_none.mp rfl)⟩
    simp only [gitMetadata, Git.treeCommit?, htree, ↓reduceIte, hcommit, hauthor]
  · refine ⟨none, Pipeline.runStage_of_returned rfl ?_ (Pipeline.violation?_eq_none.mp rfl)⟩
    simp only [gitMetadata, Git.treeCommit?, htree]
    rfl

/-- A tree with files to analyze is built. -/
theorem runStage_buildGraph {output : BuildOutput}
    (h : builder.buildDirectory world.files world.home container.repository.path world.supply =
      some (.ok output)) :
    Pipeline.runStage producers index (buildGraph builder) container world =
      (.ok (container.apply (.ofGraph output.graph)), .running index,
        { world with supply := output.supply }) := by
  refine Pipeline.runStage_of_returned rfl ?_ (Pipeline.violation?_eq_none.mp rfl)
  simp only [buildGraph, h]

/-- The stage misses nothing if the files and the commit can be read. -/
theorem missing_detectChanges {files : List SourceFile} {commit : Option String}
    (hmode : mode ≠ .git) (hfiles : container.files = .ok files)
    (hcommit : baseCommit container mode none = .ok commit) :
    Pipeline.missing producers (detectChanges mode none builder).schema container.has = [] := by
  have hasFiles : container.has .files = true := Container.has_of_read hfiles
  cases mode with
  | auto =>
    have hasCommit : container.has .previousCommitHash = true := Container.has_of_read hcommit
    simp [Pipeline.missing, detectChanges, detectChangesSchema, hasFiles, hasCommit]
  | git => exact absurd rfl hmode
  | snapshot => simp [Pipeline.missing, detectChanges, detectWithoutCommitSchema, hasFiles]

/-- The stage delivers changes, whichever they are. -/
theorem delivers_detectChanges (mode : ChangeDetection) (since : Option String) (builder : Builder)
    (changes : ChangeSet) :
    Pipeline.Delivers (detectChanges mode since builder).schema
      (.ofList [(.changes, .changes changes)]) := by
  rw [← Pipeline.violation?_eq_none]
  unfold detectChanges
  dsimp only
  generalize (if since.isSome = true then ChangeDetection.git else mode) = chosen
  split <;> rfl

/-- The changes since the snapshot are found. -/
theorem runStage_detectChanges_snapshot {changes : ChangeSet}
    (h : container.codeGraph = .ok previous)
    (hchanges : Snapshot.changes builder world.files world.home container.repository.path
      previous.files = some changes) :
    Pipeline.runStage producers index (detectChanges .snapshot none builder) container world =
      (.ok (container.apply (.ofList [(.changes, .changes changes)])), .running index, world) := by
  obtain ⟨-, hfiles, -⟩ := Container.of_codeGraph h
  refine Pipeline.runStage_of_returned (missing_detectChanges (by decide) hfiles rfl) ?_
    (delivers_detectChanges _ _ _ _)
  simp only [detectChanges, Option.isSome_none, Bool.false_eq_true, ↓reduceIte, baseCommit, usesGit,
    hfiles, bind, Except.bind, pure, Except.pure, hchanges]
  rfl

/-- The changes that were found are applied to the graph. -/
theorem runStage_updateGraph {updater : Updater} {changes : ChangeSet} {result : UpdateResult}
    (hprevious : container.codeGraph = .ok previous) (hchanges : container.changes = .ok changes)
    (hupdate : update updater.builder updater.relinkRetained world.files container.repository.path
      previous changes world.supply = .ok result) :
    Pipeline.runStage producers index (updateGraph updater) container world =
      (.ok (container.apply (.ofGraph result.graph)), .running index,
        { world with supply := result.supply }) := by
  have hnone : Pipeline.missing producers (updateGraph updater).schema container.has = [] := by
    have hkeys := Container.has_of_codeGraph hprevious
    have hset : container.has .changes = true := Container.has_of_read hchanges
    simp only [Pipeline.missing, updateGraph, updateGraphSchema, List.map_eq_nil_iff,
      List.filter_eq_nil_iff, List.forall_mem_append, List.forall_mem_singleton, hset]
    exact ⟨fun key hkey => by simp [hkeys key hkey], by simp⟩
  refine Pipeline.runStage_of_returned hnone ?_ (Pipeline.violation?_eq_none.mp rfl)
  simp only [updateGraph, hprevious, hchanges, bind, Except.bind, hupdate]
  rfl

/-- The components of the graph are filtered. -/
theorem runStage_filterComponents {pattern : Pattern} (h : container.codeGraph = .ok graph) :
    Pipeline.runStage producers index (filterComponents pattern) container world =
      (.ok (container.apply (.ofList [(.components,
        .components (graph.filter pattern.isMatch).components)])), .running index, world) := by
  obtain ⟨hcomponents, -, -⟩ := Container.of_codeGraph h
  have hnone : Pipeline.missing producers (filterComponents pattern).schema container.has = [] := by
    have hset : container.has .components = true := Container.has_of_read hcomponents
    simp [Pipeline.missing, filterComponents, filterComponentsSchema, hset]
  refine Pipeline.runStage_of_returned hnone ?_ (Pipeline.violation?_eq_none.mp rfl)
  simp only [filterComponents, hcomponents, bind, Except.bind]
  rfl

/-- The graph is saved, unless the save fails. -/
theorem runStage_saveGraph {commit : Option String} (hgraph : container.codeGraph = .ok graph)
    (hcommit : recordedCommit container = .ok commit) (format : GraphFormat) :
    Pipeline.runStage producers index (saveGraph (some format)) container world =
      match (GraphStore.mk container.repository.persistPath format).save
          (savedDocument container graph commit) world.files with
      | (.error error, files) => (.error (.stageFailed "SaveGraph" (.store error)), .failed index,
          { world with files := files })
      | (.ok (), files) => (.ok (container.apply (.ofList [(.persistedPath,
          .path container.repository.persistPath)])), .running index,
          { world with files := files }) := by
  have hnone : Pipeline.missing producers (saveGraph (some format)).schema container.has = [] := by
    have hkeys := Container.has_of_codeGraph hgraph
    simp only [Pipeline.missing, saveGraph, saveGraphSchema, List.map_eq_nil_iff,
      List.filter_eq_nil_iff]
    exact fun key hkey => by simp [hkeys key hkey]
  have hrun : (saveGraph (some format)).run container world =
      match (GraphStore.mk container.repository.persistPath format).save
          (savedDocument container graph commit) world.files with
      | (.error error, files) => (.failed (.store error), { world with files := files })
      | (.ok (), files) =>
        (.returned (.ofList [(.persistedPath, .path container.repository.persistPath)]),
          { world with files := files }) := saveGraph_run_of_ok hcommit hgraph
  rcases hsave : (GraphStore.mk container.repository.persistPath format).save
    (savedDocument container graph commit) world.files with ⟨result, files⟩
  rw [hsave] at hrun
  cases result with
  | error error => simp only [Pipeline.runStage, hnone, hrun]; rfl
  | ok done => exact Pipeline.runStage_of_returned hnone hrun (Pipeline.violation?_eq_none.mp rfl)

end Stage

namespace Pipeline

variable {producers : Producers} {container : Container} {world : World} {graph previous : CodeGraph}

/-! ### The stages that update -/

/-- The changes that are found are applied, whichever they are. -/
theorem runFrom_detected {mode : ChangeDetection} {updater : Updater} {changes : ChangeSet}
    {result : UpdateResult}
    {index : Nat}
    (hdetecting : runStage producers index (.detectChanges mode none updater.builder) container
      world = (.ok (container.apply (.ofList [(.changes, .changes changes)])), .running index,
        world))
    (hprevious : container.codeGraph = .ok previous)
    (hupdate : update updater.builder updater.relinkRetained world.files container.repository.path
      previous changes world.supply = .ok result) :
    ∃ next,
      runFrom producers index [.detectChanges mode none updater.builder, .updateGraph updater]
        container world = (.ok next, .done, { world with supply := result.supply }) ∧
      next.repository = container.repository ∧ next.codeGraph = .ok result.graph ∧
      Stage.recordedCommit next = Stage.recordedCommit container := by
  let detected := container.apply (.ofList [(.changes, .changes changes)])
  have hupdating : runStage producers (index + 1) (.updateGraph updater) detected world =
      (.ok (detected.apply (.ofGraph result.graph)), .running (index + 1),
        { world with supply := result.supply }) :=
    Stage.runStage_updateGraph ((Container.codeGraph_apply_of_unset rfl).trans hprevious)
      (Container.changes_apply_changes _ _) hupdate
  exact ⟨_, (runFrom_cons_of_ok hdetecting).trans (runFrom_cons_of_ok hupdating), rfl,
    Container.codeGraph_apply_ofGraph _ _, (Container.recordedCommit_apply_of_unset rfl).trans
      (Container.recordedCommit_apply_of_unset rfl)⟩

/-! ### The last stages -/

/-- The stages that filter leave a container with the filtered graph. -/
theorem runFrom_filtering {commit : Option String} (hgraph : container.codeGraph = .ok graph)
    (hcommit : Stage.recordedCommit container = .ok commit) (filter : Option Pattern)
    (producers : Producers) (index : Nat) (world : World) :
    ∃ filtered, runFrom producers index (Stage.filtering filter) container world =
        (.ok filtered, .done, world) ∧
      filtered.repository = container.repository ∧
      filtered.codeGraph = .ok (graph.filteredBy filter) ∧
      Stage.recordedCommit filtered = .ok commit := by
  cases filter with
  | none => exact ⟨container, rfl, rfl, hgraph, hcommit⟩
  | some pattern =>
    let filtered := container.apply (.ofList [(.components,
      .components (graph.filter pattern.isMatch).components)])
    have hfirst : runStage producers index (.filterComponents pattern) container world =
        (.ok filtered, .running index, world) := Stage.runStage_filterComponents hgraph
    exact ⟨filtered, (runFrom_cons_of_ok hfirst).trans rfl, rfl,
      Container.codeGraph_apply_components hgraph _,
      (Container.recordedCommit_apply_of_unset rfl).trans hcommit⟩

/-- At the end of a run the graph is filtered and saved, unless the save fails. -/
theorem runFrom_filtered_save {commit : Option String} (hgraph : container.codeGraph = .ok graph)
    (hcommit : Stage.recordedCommit container = .ok commit) (filter : Option Pattern)
    (format : GraphFormat) (producers : Producers) (index : Nat) (world : World) :
    ∃ final position, final.path .persistedPath = .ok container.repository.persistPath ∧
      runFrom producers index (Stage.filtering filter ++ [.saveGraph (some format)])
        container world =
      match (GraphStore.mk container.repository.persistPath format).save
          (Stage.savedDocument container (graph.filteredBy filter) commit) world.files with
      | (.error error, files) => (.error (.stageFailed "SaveGraph" (.store error)),
          .failed position, { world with files := files })
      | (.ok (), files) => (.ok final, .done, { world with files := files }) := by
  obtain ⟨filtered, hfiltering, hrepository, hfiltered, hrecorded⟩ :=
    runFrom_filtering hgraph hcommit filter producers index world
  have hlast : runStage producers (index + (Stage.filtering filter).length)
      (.saveGraph (some format)) filtered world =
      match (GraphStore.mk filtered.repository.persistPath format).save
          (Stage.savedDocument filtered (graph.filteredBy filter) commit) world.files with
      | (.error error, files) => (.error (.stageFailed "SaveGraph" (.store error)),
          .failed (index + (Stage.filtering filter).length), { world with files := files })
      | (.ok (), files) => (.ok (filtered.apply (.ofList [(.persistedPath,
          .path filtered.repository.persistPath)])),
          .running (index + (Stage.filtering filter).length), { world with files := files }) :=
    Stage.runStage_saveGraph hfiltered hrecorded format
  refine ⟨filtered.apply (.ofList [(.persistedPath, .path filtered.repository.persistPath)]),
    index + (Stage.filtering filter).length, ?_, (runFrom_append_of_ok hfiltering).trans ?_⟩
  · rw [Container.path_apply_persistedPath, hrepository]
  rw [Stage.savedDocument, ← hrepository, ← Stage.savedDocument]
  rcases hsave : (GraphStore.mk filtered.repository.persistPath format).save
    (Stage.savedDocument filtered (graph.filteredBy filter) commit) world.files with
    ⟨result, files⟩
  rw [hsave] at hlast
  cases result with
  | error error => exact runFrom_cons_of_error hlast
  | ok done => exact (runFrom_cons_of_ok hlast).trans rfl

/-- A run whose last stages are passed has saved the filtered graph. -/
theorem save_of_filtered_save {commit : Option String} (hgraph : container.codeGraph = .ok graph)
    (hcommit : Stage.recordedCommit container = .ok commit) {filter : Option Pattern}
    {format : GraphFormat} {index : Nat} {final : Container} {world' : World}
    (h : runFrom producers index (Stage.filtering filter ++ [.saveGraph (some format)])
      container world = (.ok final, .done, world')) :
    (GraphStore.mk container.repository.persistPath format).save
        (Stage.savedDocument container (graph.filteredBy filter) commit) world.files =
      (.ok (), world'.files) ∧ world'.supply = world.supply := by
  obtain ⟨last, position, -, hlast⟩ :=
    runFrom_filtered_save hgraph hcommit filter format producers index world
  rw [hlast] at h
  rcases hsave : (GraphStore.mk container.repository.persistPath format).save
    (Stage.savedDocument container (graph.filteredBy filter) commit) world.files with
    ⟨result, files⟩
  rw [hsave] at h
  cases result with
  | error error => cases h
  | ok done =>
    obtain rfl := (Prod.mk.inj (Prod.mk.inj h).2).2
    exact ⟨rfl, rfl⟩

/-- A run whose last stages build, filter and save has saved the filtered build. -/
theorem exists_save_of_build {builder : Builder} {commit : Option String}
    (hcommit : Stage.recordedCommit container = .ok commit) {filter : Option Pattern}
    {format : GraphFormat} {index : Nat} {final : Container} {world' : World}
    (h : runFrom producers index
      (.buildGraph builder :: (Stage.filtering filter ++ [.saveGraph (some format)]))
      container world = (.ok final, .done, world')) :
    ∃ output, builder.buildDirectory world.files world.home container.repository.path
        world.supply = some (.ok output) ∧
      (GraphStore.mk container.repository.persistPath format).save
        (Stage.savedDocument container (output.graph.filteredBy filter) commit) world.files =
      (.ok (), world'.files) ∧ world'.supply = output.supply := by
  obtain ⟨updates, after, -, hbuild, -, hlast⟩ := runFrom_cons_eq_ok h
  unfold Stage.buildGraph at hbuild
  dsimp only at hbuild
  split at hbuild
  · cases hbuild
  · cases hbuild
  · rename_i output houtput
    obtain ⟨hreturned, rfl⟩ := Prod.mk.inj hbuild
    obtain rfl := StageOutcome.returned.inj hreturned
    exact ⟨output, houtput, save_of_filtered_save (Container.codeGraph_apply_ofGraph _ output.graph)
      ((Container.recordedCommit_apply_of_unset rfl).trans hcommit) hlast⟩

end Pipeline

end CodeAtlas
