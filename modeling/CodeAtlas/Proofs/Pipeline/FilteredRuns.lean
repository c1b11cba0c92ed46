import CodeAtlas.Proofs.FilteredGraphs
import CodeAtlas.Proofs.Pipeline.PassedStages
import CodeAtlas.Proofs.SaveOutcome
import CodeAtlas.Proofs.StaleLinks
import CodeAtlas.Proofs.Text.Slices

/-!
# Filtered runs

A run that builds a tree, filters the graph and saves it leaves a document from which a later run can
go on: the document can be stored exactly, and so it is loaded again as it was saved. A run that
updates it passes all its stages, since nothing but the save can fail, and a save does not depend on
what is saved. What it stores agrees with what a filtered build of the new tree stores, but for
external symbols in place of concealed names.

## Main definitions

* `Container.tree`: the working tree of a repository.
* `Pipeline.fetched`: the world in which a run builds.
* `Pipeline.builtDocument`: the document of a filtered build.

## Main results

* `WorkTree.storable_filter_build`, `CodeGraph.AgreesBeside.storable`: the documents that are saved.
* `Pipeline.save_of_passed_generate`, `Pipeline.passed_generate`: a run that builds.
* `Pipeline.run_update`: a run that updates.
* `Pipeline.filtered_update_agrees`: both together.
* `Pipeline.filtered_update_adds_name`: a concealed name that becomes an external symbol.
-/

namespace CodeAtlas

/-! ### Documents that can be stored -/

/-- A table that keeps its names apart lists no identifier twice. -/
theorem SymbolTable.Apart.nodup_ids {table : SymbolTable} (h : table.Apart) :
    (table.entries.map (·.2)).Nodup := by
  refine List.Nodup.map_on ?_ table.nodup_names.of_map
  rintro ⟨name, id⟩ hentry ⟨name', id'⟩ hentry' rfl
  rw [h name name' id (get?_of_mem hentry) (get?_of_mem hentry')]

/-- The offsets of a component are within the text of its file. -/
theorem ParsedFile.fits_of_mem_unlinked {fingerprint : Fingerprint} {file : ParsedFile}
    (hsize : file.text.utf8ByteSize < Json.wordCount) {c : Component}
    (hc : c ∈ file.unlinked fingerprint) : c.fits = true := by
  obtain ⟨parsed, code, -, hcode, rfl⟩ := (file.mem_unlinked fingerprint).mp hc
  unfold componentText at hcode
  split at hcode
  · rename_i found hfound
    refine List.all_eq_true.mpr fun span hspan => ?_
    obtain ⟨hle, hstop⟩ := le_utf8ByteSize_of_pieces hfound span hspan
    simp only [Span.fits, Bool.and_eq_true, decide_eq_true_eq]
    omega
  · cases hcode

/-- A filtered build can be stored. -/
theorem WorkTree.storable_filter_build {parser : SyntaxParser} {contents : Contents}
    {builder : Builder} {tree : WorkTree} (hfree : builder.fingerprint.CollisionFree contents)
    (hregistry : builder.registry = .standard parser) (h : tree.Sound contents builder)
    (hsizes : ∀ file ∈ tree.files builder, file.text.utf8ByteSize < Json.wordCount)
    (keep : String → Bool) (supply : IdSupply) (repository commit : Option String) :
    (Document.ofGraph ((tree.build builder supply).graph.filter keep) repository commit).Storable := by
  have hsourced : ∀ file ∈ tree.files builder, file.Sourced parser contents := fun file hfile =>
    (h.standard hregistry).sourced hfile
  have hsifts : Sifts builder.fingerprint contents keep (tree.files builder)
      ((tree.build builder supply).graph.filter keep) :=
    ((h.mirrors_build hfree supply).blends keep).sifts hfree hsourced
  refine ⟨beq_self_eq_true currentSchema, hsifts.identified.nodup, ?_, ?_, ?_⟩
  · rw [Document.ofGraph, hsifts.files_eq, List.map_map]
    refine List.Nodup.map_on ?_ (h.nodup_paths hregistry).of_map
    intro file hfile other hother hid
    exact (hsourced file hfile).eq_of_ident hfree (hsourced other hother) hid
  · exact (fresh_build builder tree supply).injective.nodup_ids
  · refine List.all_eq_true.mpr fun c hc => ?_
    obtain ⟨file, hfile, hmem⟩ := hsifts.extracted c hc
    obtain ⟨d, hd, -, hsame⟩ := ParsedFile.mem_sifted.mp hmem
    have hfits : d.fits = true := ParsedFile.fits_of_mem_unlinked (hsizes file hfile) hd
    have hspans : c.unlink.spans = d.spans := by rw [← hsame]; rfl
    rw [Component.fits, show c.spans = d.spans from hspans]
    exact hfits

/-- What agrees with a graph that can be stored can be stored, if its external names are kept
apart. -/
theorem CodeGraph.AgreesBeside.storable {hidden : String → Prop} {graph other : CodeGraph}
    (h : graph.AgreesBeside hidden other) (hapart : graph.externalSymbols.Apart)
    {repository repository' commit commit' : Option String}
    (hother : (Document.ofGraph other repository' commit').Storable) :
    (Document.ofGraph graph repository commit).Storable := by
  refine ⟨beq_self_eq_true currentSchema, ?_, ?_, hapart.nodup_ids, ?_⟩
  · have hids := h.components_perm.map (·.id)
    rw [List.map_map, List.map_map] at hids
    exact hids.nodup_iff.mpr hother.components
  · exact (h.files_perm.map _).nodup_iff.mpr hother.files
  · have hfits := h.components_perm.map Component.fits
    rw [List.map_map, List.map_map] at hfits
    refine List.all_eq_true.mpr fun c hc => ?_
    have hmem : c.fits ∈ other.components.map Component.fits :=
      hfits.mem_iff.mp (List.mem_map.mpr ⟨c, hc, rfl⟩)
    obtain ⟨d, hd, heq⟩ := List.mem_map.mp hmem
    rw [← heq]
    exact List.all_eq_true.mp hother.fits d hd

/-! ### A run that builds -/

/-- The working tree of the repository. -/
def Container.tree (container : Container) (world : World) : WorkTree where
  fs := world.files
  home := world.home
  directory := container.repository.path

theorem World.gitAnswers_askGit (world : World) (args : List String) :
    (world.askGit args).2.gitAnswers = world.gitAnswers := by
  unfold askGit
  dsimp only
  split <;> rfl

theorem Git.gitAnswers_clone (world : World) (url destination : String) :
    (clone world url destination).2.gitAnswers = world.gitAnswers := by
  unfold clone
  split
  · rfl
  · dsimp only
    split <;> exact World.gitAnswers_askGit _ _

namespace Pipeline

open WorkTree (callBuilder)

/-- The world in which a run builds: the working tree is there, or was cloned. -/
def fetched (clone : Bool) (container : Container) (world : World) : World :=
  ((if clone then Stage.cloneRepository else .localRepository).run container world).2

variable {clone clone' : Bool} {parser : SyntaxParser} {contents : Contents} {builder : Builder}
  {pattern : Pattern} {format : GraphFormat} {container final final' : Container}
  {world world' : World}

theorem fetched_false (container : Container) (world : World) :
    fetched false container world = world := by
  simp only [fetched, Stage.localRepository, Bool.false_eq_true, ↓reduceIte]
  split <;> rfl

/-- Nothing happens to the world, or the repository is cloned. -/
theorem fetched_cases (clone : Bool) (container : Container) (world : World) :
    fetched clone container world = world ∨
      ∃ url, fetched clone container world =
        (Git.clone world url container.repository.path).2 := by
  cases clone with
  | false => exact Or.inl (fetched_false container world)
  | true =>
    simp only [fetched, Stage.cloneRepository, ↓reduceIte]
    split
    · exact Or.inl rfl
    · rename_i url _
      split
      · exact Or.inl rfl
      · refine Or.inr ⟨url, ?_⟩
        rcases Git.clone world url container.repository.path with ⟨result, after⟩
        cases result <;> rfl

theorem gitAnswers_fetched (clone : Bool) (container : Container) (world : World) :
    (fetched clone container world).gitAnswers = world.gitAnswers := by
  rcases fetched_cases clone container world with hfetched | ⟨url, hfetched⟩
  · rw [hfetched]
  · rw [hfetched, Git.gitAnswers_clone]

theorem gitReads_fetched (h : world.GitReads) : (fetched clone container world).GitReads := by
  unfold World.GitReads
  rwa [gitAnswers_fetched]

/-- The last stages are passed if any document can be saved. -/
theorem exists_filtered_save {graph : CodeGraph} {commit : Option String}
    (hgraph : container.codeGraph = .ok graph)
    (hcommit : Stage.recordedCommit container = .ok commit) {document : Document} (world : World)
    (hsave : ((GraphStore.mk container.repository.persistPath format).save document
      world.files).1 = .ok ())
    (filter : Option Pattern) (producers : Producers) (index : Nat) :
    ∃ (final : Container) (files : FileSystem),
      final.path .persistedPath = .ok container.repository.persistPath ∧
      runFrom producers index (Stage.filtering filter ++ [.saveGraph (some format)]) container
        world = (.ok final, .done, { world with files := files }) ∧
      (GraphStore.mk container.repository.persistPath format).save
        (Stage.savedDocument container (graph.filteredBy filter) commit) world.files =
          (.ok (), files) := by
  obtain ⟨final, position, hplace, hrun⟩ :=
    runFrom_filtered_save hgraph hcommit filter format producers index world
  have houtcome := (GraphStore.save_fst_eq _ (Stage.savedDocument container
    (graph.filteredBy filter) commit) document world.files).trans hsave
  rcases hsaved : (GraphStore.mk container.repository.persistPath format).save
    (Stage.savedDocument container (graph.filteredBy filter) commit) world.files with
    ⟨result, files⟩
  rw [hsaved] at hrun houtcome
  obtain rfl : result = .ok () := houtcome
  exact ⟨final, files, hplace, hrun, rfl⟩

/-- The document of a filtered build of the working tree in a world. -/
def builtDocument (builder : Builder) (pattern : Pattern) (container : Container) (world : World) :
    Document :=
  Stage.savedDocument container
    (((container.tree world).build builder world.supply).graph.filter pattern.isMatch)
    (Git.treeCommit? world container.repository.path)

/-- A run that is passed has saved the filtered build of the working tree. -/
theorem save_of_passed_generate (hgit : world.GitReads)
    (h : (generatePipeline clone builder (some pattern) format).run container world =
      (.ok final, .done, world')) :
    (GraphStore.mk container.repository.persistPath format).save
        (builtDocument builder pattern container (fetched clone container world))
        (fetched clone container world).files = (.ok (), world'.files) ∧
      world'.supply = ((container.tree (fetched clone container world)).build builder
        (fetched clone container world).supply).supply ∧
      ∃ paths, (container.tree (fetched clone container world)).paths? builder = some paths := by
  have hstages : runFrom (generatePipeline clone builder (some pattern) format).producers 0
      ((if clone then Stage.cloneRepository else .localRepository) :: .gitMetadata ::
        .buildGraph builder :: (Stage.filtering (some pattern) ++ [.saveGraph (some format)]))
      container world = (.ok final, .done, world') := h
  obtain ⟨updates, between, -, hfetch, -, hrest⟩ := runFrom_cons_eq_ok hstages
  obtain rfl : fetched clone container world = between := congrArg Prod.snd hfetch
  obtain ⟨author, hmetadata⟩ := Stage.runStage_gitMetadata (gitReads_fetched hgit)
  rw [runFrom_cons_of_ok hmetadata] at hrest
  obtain ⟨output, houtput, hsaved⟩ :=
    exists_save_of_build (Container.recordedCommit_apply_metadata _ _ author) hrest
  obtain ⟨collected, hcollected, rfl⟩ := Builder.buildDirectory_eq_ok houtput
  have hpaths : (container.tree (fetched clone container world)).paths? builder = some collected :=
    hcollected
  refine ⟨?_, ?_, collected, hpaths⟩
  · rw [builtDocument, WorkTree.build_eq hpaths]
    exact hsaved.1
  · rw [WorkTree.build_eq hpaths]
    exact hsaved.2

/-- A run on a tree that is there and has files to analyze is passed if the save succeeds. -/
theorem passed_generate (hgit : world.GitReads)
    (hdirectory : world.files.isDirectory container.repository.path = true)
    {collected : List String}
    (hcollected : builder.collectFiles world.files world.home container.repository.path =
      some collected) (hfiles : collected ≠ [])
    {document : Document}
    (hsave : ((GraphStore.mk container.repository.persistPath format).save document
      world.files).1 = .ok ())
    (filter : Option Pattern) :
    ∃ final world', final.path .persistedPath = .ok container.repository.persistPath ∧
      (generatePipeline false builder filter format).run container world =
        (.ok final, .done, world') := by
  let producers := (generatePipeline false builder filter format).producers
  let output := builder.buildFiles world.files container.repository.path collected
    ⟨[], ⟨.empty, world.supply⟩⟩
  have hbuild : builder.buildDirectory world.files world.home container.repository.path
      world.supply = some (.ok output) :=
    Builder.buildDirectory_of_collectFiles hdirectory hcollected hfiles world.supply
  have hlocal : runStage producers 0 .localRepository container world =
      (.ok (container.apply (.ofList [(.isDownloaded, .flag false)])), .running 0, world) :=
    Stage.runStage_localRepository hdirectory
  obtain ⟨author, hmetadata⟩ := Stage.runStage_gitMetadata hgit
  let described := (container.apply (.ofList [(.isDownloaded, .flag false)])).apply
    (.ofList [(.commitHash, .optionalText (Git.treeCommit? world container.repository.path)),
      (.author, .optionalText author)])
  have hbuilding : runStage producers 2 (.buildGraph builder) described world =
      (.ok (described.apply (.ofGraph output.graph)), .running 2,
        { world with supply := output.supply }) :=
    Stage.runStage_buildGraph hbuild
  have hgraph : (described.apply (.ofGraph output.graph)).codeGraph = .ok output.graph :=
    Container.codeGraph_apply_ofGraph _ _
  have hcommit : Stage.recordedCommit (described.apply (.ofGraph output.graph)) =
      .ok (Git.treeCommit? world container.repository.path) :=
    (Container.recordedCommit_apply_of_unset rfl).trans
      (Container.recordedCommit_apply_metadata _ _ author)
  obtain ⟨final, files, hplace, hlast, -⟩ := exists_filtered_save hgraph hcommit
    { world with supply := output.supply } hsave filter producers 3
  exact ⟨final, _, hplace, (runFrom_cons_of_ok hlocal).trans ((runFrom_cons_of_ok hmetadata).trans
    ((runFrom_cons_of_ok hbuilding).trans hlast))⟩

/-! ### A run that updates -/

/-- The first stages of an update find the stored graph and the last commit. -/
theorem runFrom_loading {document : Document} {files : FileSystem} (producers : Producers)
    (hload : (GraphStore.mk container.repository.persistPath format).load world.files =
      (.ok document, files))
    (hdirectory : world.files.isDirectory container.repository.path = true)
    (hgit : world.GitReads) :
    ∃ next,
      runFrom producers 0 [.localRepository, .loadGraph (some format), .gitMetadata] container world =
        (.ok next, .done, { world with files := files }) ∧
      next.repository = container.repository ∧ next.codeGraph = .ok document.graph ∧
      Stage.recordedCommit next =
        .ok (Git.treeCommit? { world with files := files } container.repository.path) := by
  have hlocal : runStage producers 0 .localRepository container world =
      (.ok (container.apply (.ofList [(.isDownloaded, .flag false)])), .running 0, world) :=
    Stage.runStage_localRepository hdirectory
  have hloading : runStage producers 1 (.loadGraph (some format))
      (container.apply (.ofList [(.isDownloaded, .flag false)])) world =
        (.ok ((container.apply (.ofList [(.isDownloaded, .flag false)])).apply
          ((Attributes.ofGraph document.graph).insert .previousCommitHash
            (.optionalText document.commitHash))), .running 1, { world with files := files }) :=
    Stage.runStage_loadGraph hload
  have hgit' : World.GitReads { world with files := files } := hgit
  obtain ⟨author, hmetadata⟩ := Stage.runStage_gitMetadata hgit'
  exact ⟨_, (runFrom_cons_of_ok hlocal).trans ((runFrom_cons_of_ok hloading).trans
      (runFrom_cons_of_ok hmetadata)), rfl,
    (Container.codeGraph_apply_of_unset rfl).trans (Container.codeGraph_apply_loaded _ _ _),
    Container.recordedCommit_apply_metadata _ _ author⟩

/-- The world in which the stages of an update go on: the stored graph was opened. -/
def opened (format : GraphFormat) (container : Container) (world : World) : World :=
  { world with
    files := ((GraphStore.mk container.repository.persistPath format).load world.files).2 }

theorem opened_json (container : Container) (world : World) :
    opened .json container world = world := by
  rw [opened, GraphStore.load_snd]

/-- A run that finds a stored graph is passed if any document can be saved, and saves the filtered
update. -/
theorem run_update {document other : Document} (updater : Updater) (pattern : Pattern)
    (hload : ((GraphStore.mk container.repository.persistPath format).load world.files).1 =
      .ok document)
    (hdirectory :
      (opened format container world).files.isDirectory container.repository.path = true)
    (hgit : world.GitReads) {changes : ChangeSet}
    (hchanges : Snapshot.changes updater.builder (opened format container world).files world.home
      container.repository.path document.graph.files = some changes)
    (hsave : ((GraphStore.mk container.repository.persistPath format).save other
      (opened format container world).files).1 = .ok ()) :
    ∃ result final files,
      update updater.builder updater.relinkRetained (opened format container world).files
        container.repository.path document.graph changes world.supply = .ok result ∧
      (updatePipeline .snapshot none updater (some pattern) format).run container world =
        (.ok final, .done, { world with files := files, supply := result.supply }) ∧
      (GraphStore.mk container.repository.persistPath format).save
        (Stage.savedDocument container (result.graph.filter pattern.isMatch)
          (Git.treeCommit? (opened format container world) container.repository.path))
        (opened format container world).files = (.ok (), files) := by
  let producers := (updatePipeline .snapshot none updater (some pattern) format).producers
  obtain ⟨result, hupdate⟩ := Update.exists_update_eq_ok updater.builder updater.relinkRetained
    document.graph changes world.supply hdirectory
  have hstart : world.files.isDirectory container.repository.path = true :=
    (GraphStore.directories_load _ _).isDirectory_eq.symm.trans hdirectory
  obtain ⟨loaded, hloading, hrepository, hgraph, hcommit⟩ :=
    runFrom_loading producers (Prod.ext hload rfl) hstart hgit
  have hdetecting : runStage producers 3 (.detectChanges .snapshot none updater.builder) loaded
      (opened format container world) = (.ok (loaded.apply (.ofList [(.changes, .changes changes)])),
        .running 3, opened format container world) :=
    Stage.runStage_detectChanges_snapshot hgraph (hrepository ▸ hchanges)
  rw [← hrepository] at hupdate
  obtain ⟨updated, hupdating, hrepository', hgraph', hcommit'⟩ :=
    runFrom_detected hdetecting hgraph hupdate
  rw [← hrepository, ← hrepository'] at hsave
  obtain ⟨final, files, -, hlast, hsaved⟩ := exists_filtered_save hgraph'
    (hcommit'.trans hcommit) { opened format container world with supply := result.supply } hsave
    (some pattern) producers 5
  rw [Stage.savedDocument, hrepository', hrepository] at hsaved
  refine ⟨result, final, files, hrepository ▸ hupdate, ?_, hsaved⟩
  have hstages : (updatePipeline .snapshot none updater (some pattern) format).run container world =
      runFrom producers 0 (.localRepository :: .loadGraph (some format) :: .gitMetadata ::
        .detectChanges .snapshot none updater.builder :: .updateGraph updater ::
          (Stage.filtering (some pattern) ++ [.saveGraph (some format)])) container world := rfl
  exact hstages.trans ((runFrom_append_of_ok hloading).trans ((runFrom_append_of_ok
    hupdating).trans hlast))

/-! ### Both runs -/

/-- What a run that builds has stored can be stored, and is saved. -/
theorem storable_builtDocument (pattern : Pattern)
    (hfree : builder.fingerprint.CollisionFree contents)
    (hregistry : builder.registry = .standard parser)
    (htree : (container.tree world).Sound contents builder)
    (hsizes : ∀ file ∈ (container.tree world).files builder,
      file.text.utf8ByteSize < Json.wordCount) :
    (builtDocument builder pattern container world).Storable :=
  WorkTree.storable_filter_build hfree hregistry htree hsizes _ _ _ _

/-- What an update run stores after a filtered build agrees with a filtered build of the new tree, but
for external symbols in place of concealed names. -/
theorem load_of_update_run (hfree : builder.fingerprint.CollisionFree contents)
    (hregistry : builder.registry = .standard parser) (hgit : world.GitReads) {tree : WorkTree}
    (htree : tree.Sound contents builder)
    (hnext : (container.tree (opened format container world)).Sound contents builder)
    {paths : List String}
    (hpaths : (container.tree (opened format container world)).paths? builder = some paths)
    (hsizes : ∀ file ∈ (container.tree (opened format container world)).files builder,
      file.text.utf8ByteSize < Json.wordCount)
    {first : IdSupply} (hsupply : (tree.build builder first).supply.next ≤ world.supply.next)
    {document other : Document}
    (hload : ((GraphStore.mk container.repository.persistPath format).load world.files).1 =
      .ok document)
    (hgraph : document.graph = (tree.build builder first).graph.filter pattern.isMatch)
    (hsave : ((GraphStore.mk container.repository.persistPath format).save other
      (opened format container world).files).1 = .ok ()) :
    ∃ final world' document',
      (updatePipeline .snapshot none ⟨builder, true⟩ (some pattern) format).run container world =
        (.ok final, .done, world') ∧
      ((GraphStore.mk container.repository.persistPath format).load world'.files).1 =
        .ok document' ∧
      ∀ last, document'.graph.AgreesBeside
        (tree.Conceals builder pattern.isMatch (container.tree (opened format container world)))
        (((container.tree (opened format container world)).build builder last).graph.filter
          pattern.isMatch) := by
  have hfresh : Externals.Fresh ⟨(tree.build builder first).graph.externalSymbols, world.supply⟩ :=
    (WorkTree.fresh_build builder tree first).mono hsupply
  have hchanges : Snapshot.changes builder (opened format container world).files world.home
      container.repository.path document.graph.files = some (Snapshot.changesTo builder
        (opened format container world).files container.repository.path paths
        document.graph.files) :=
    congrArg (Option.map _) hpaths
  obtain ⟨result, final, files, hupdate, hrun, hsaved⟩ :=
    run_update ⟨builder, true⟩ pattern hload hnext.isDirectory hgit hchanges hsave
  rw [hgraph] at hupdate hchanges
  have hagrees := WorkTree.agreesBeside_update hfree hregistry htree hnext hfresh hchanges hupdate
  -- A filter leaves the table of external symbols.
  have hfiltered : Externals.Fresh
      ⟨((tree.build builder first).graph.filter pattern.isMatch).externalSymbols, world.supply⟩ :=
    hfresh
  have hapart : (result.graph.filter pattern.isMatch).externalSymbols.Apart :=
    (Update.fresh_update hfiltered hupdate).injective
  have hstorable : (Stage.savedDocument container (result.graph.filter pattern.isMatch)
      (Git.treeCommit? (opened format container world) container.repository.path)).Storable :=
    (hagrees world.supply).storable hapart
      (WorkTree.storable_filter_build hfree hregistry hnext hsizes pattern.isMatch world.supply none
        none)
  have hopens := GraphStore.isBlocked_eq_false_of_load_of_save (Prod.ext hload rfl) hsaved
  exact ⟨final, _, _, hrun, hstorable.load_of_save hsaved hopens, hagrees⟩

/-- A tree is built, filtered and stored, and then edited, with the stored graph left as it is and
nothing in the way of opening it. When the edited tree is built and filtered as well and can be
stored, an update of the stored graph with the same pattern is passed, and it stores the same
components with the same links, in some order, and the same external names for each of them but for
concealed names. -/
theorem filtered_update_agrees (hfree : builder.fingerprint.CollisionFree contents)
    (hregistry : builder.registry = .standard parser) (pattern : Pattern) (format : GraphFormat)
    {start stored edited fresh rebuilt : World} (hstart : start.GitReads)
    (hedited : edited.GitReads) (hfresh : fresh.GitReads)
    (htree : (container.tree (fetched clone container start)).Sound contents builder)
    (hnext : (container.tree (opened format container edited)).Sound contents builder)
    (hsizes : ∀ file ∈ (container.tree (fetched clone container start)).files builder ++
      (container.tree (opened format container edited)).files builder,
        file.text.utf8ByteSize < Json.wordCount)
    (hfirst : (generatePipeline clone builder (some pattern) format).run container start =
      (.ok final, .done, stored))
    (hkept : edited.files.content? container.repository.persistPath =
      stored.files.content? container.repository.persistPath)
    (hopens :
      (GraphStore.mk container.repository.persistPath format).isBlocked edited.files = false)
    (hsupply : stored.supply.next ≤ edited.supply.next)
    (hsame : container.tree (fetched clone' container fresh) =
      container.tree (opened format container edited))
    (hlast : (generatePipeline clone' builder (some pattern) format).run container fresh =
      (.ok final', .done, rebuilt)) :
    ∃ last world document document',
      (updatePipeline .snapshot none ⟨builder, true⟩ (some pattern) format).run container edited =
        (.ok last, .done, world) ∧
      ((GraphStore.mk container.repository.persistPath format).load world.files).1 =
        .ok document ∧
      ((GraphStore.mk container.repository.persistPath format).load rebuilt.files).1 =
        .ok document' ∧
      document.graph.AgreesBeside
        ((container.tree (fetched clone container start)).Conceals builder pattern.isMatch
          (container.tree (opened format container edited))) document'.graph := by
  obtain ⟨hsizes, hsizes'⟩ := List.forall_mem_append.mp hsizes
  obtain ⟨hsaved, hminted, -⟩ := save_of_passed_generate hstart hfirst
  rw [hminted] at hsupply
  have hcontent := hkept.trans (GraphStore.content?_of_save hsaved)
  have hload : ((GraphStore.mk container.repository.persistPath format).load edited.files).1 =
      .ok (builtDocument builder pattern container (fetched clone container start)) := by
    have hread := (storable_builtDocument pattern hfree hregistry htree
      hsizes).read_contentOf format
    exact (GraphStore.load_fst hcontent).trans (by rw [hopens, if_neg Bool.false_ne_true, hread])
  obtain ⟨hsaved', -, paths, hpaths⟩ := save_of_passed_generate hfresh hlast
  have hfiles : (fetched clone' container fresh).files = (opened format container edited).files :=
    congrArg WorkTree.fs hsame
  rw [hfiles] at hsaved'
  rw [hsame] at hpaths
  have hopens' := GraphStore.isBlocked_eq_false_of_load_of_save (Prod.ext hload rfl) hsaved'
  have hstorable := storable_builtDocument pattern hfree hregistry (hsame ▸ hnext)
    (hsame ▸ hsizes')
  have hload' := hstorable.load_of_save hsaved' hopens'
  obtain ⟨last, world, document, hrun, hloaded, hagrees⟩ := load_of_update_run hfree hregistry
    hedited htree hnext hpaths hsizes' hsupply hload rfl (congrArg Prod.fst hsaved')
  refine ⟨last, world, document, _, hrun, hloaded, hload', ?_⟩
  have hbuilt : (builtDocument builder pattern container (fetched clone' container fresh)).graph =
      ((container.tree (opened format container edited)).build builder
        (fetched clone' container fresh).supply).graph.filter pattern.isMatch := by
    rw [← hsame]
    rfl
  rw [hbuilt]
  exact hagrees _

/-! ### A callee that is dropped -/

/-- A module that may call another one, the other one, and whatever else there is. -/
def calleeWorld (caller : String) (others : List (Location × Entry)) : World where
  files :=
    { entries :=
        [(["repo"], .directory), (["repo", "a.py"], .file (.text caller)),
          (["repo", "b.py"], .file (.text "x")), (["store"], .directory)] ++ others
      current := "/" }
  gitAnswers := []
  supply := ⟨0⟩
  home := "/"

/-- The repository of the sample, with the place of its graph. -/
def calleeContainer : Container :=
  ⟨.ofPath "/repo" "/store/graph.json", .empty⟩

/-- The letter `a`, which is in the name of the caller and not in that of the callee. -/
def callerPattern : Pattern :=
  .one (.single 97)

/-- The tree after the caller is edited, with what was stored for the tree before. -/
def editedWorld : World :=
  calleeWorld "b()" [(["store", "graph.json"], .file (GraphStore.contentOf .json
    (builtDocument callBuilder callerPattern calleeContainer (calleeWorld "x" []))))]

/-- The run that builds and filters the sample. -/
def calleeGeneration : Pipeline :=
  generatePipeline false callBuilder (some callerPattern) .json

/-- The store of the sample. -/
def calleeStore : GraphStore :=
  ⟨"/store/graph.json", .json⟩

private theorem paths_callee {world : World} (h : world ∈ [calleeWorld "x" [], editedWorld]) :
    (calleeContainer.tree world).paths? callBuilder = some ["a.py", "b.py"] := by
  simp only [List.mem_cons, List.not_mem_nil, or_false] at h
  rcases h with rfl | rfl <;>
    exact Builder.collectFiles_of_pairwise (by decide +kernel) (by decide +kernel) rfl

private theorem sound_callee {world : World} (h : world ∈ [calleeWorld "x" [], editedWorld]) :
    (calleeContainer.tree world).Sound .clear callBuilder := by
  have hpaths := paths_callee h
  simp only [List.mem_cons, List.not_mem_nil, or_false] at h
  rcases h with rfl | rfl <;>
    exact WorkTree.sound_of_clearNames rfl (by decide +kernel) (by decide +kernel)
      (by rw [WorkTree.files_eq hpaths]; decide +kernel)

private theorem sizes_callee {world : World} (h : world ∈ [calleeWorld "x" [], editedWorld]) :
    ∀ file ∈ (calleeContainer.tree world).files callBuilder,
      file.text.utf8ByteSize < Json.wordCount := by
  have hpaths := paths_callee h
  simp only [List.mem_cons, List.not_mem_nil, or_false] at h
  rcases h with rfl | rfl <;> (rw [WorkTree.files_eq hpaths]; decide +kernel)

private theorem saves_callee {world : World} (h : world ∈ [calleeWorld "x" [], editedWorld]) :
    (calleeStore.save (.ofGraph ⟨[], [], .empty⟩ none none) world.files).1 = .ok () := by
  simp only [List.mem_cons, List.not_mem_nil, or_false] at h
  rcases h with rfl | rfl <;> decide +kernel

private theorem gitReads_callee {world : World} (h : world ∈ [calleeWorld "x" [], editedWorld]) :
    world.GitReads := by
  simp only [List.mem_cons, List.not_mem_nil, or_false] at h
  rcases h with rfl | rfl <;> decide

private theorem passed_callee {world : World} (h : world ∈ [calleeWorld "x" [], editedWorld]) :
    ∃ final world', calleeGeneration.run calleeContainer world = (.ok final, .done, world') := by
  obtain ⟨final, world', -, hrun⟩ := passed_generate (gitReads_callee h)
    (sound_callee h).isDirectory (paths_callee h) (List.cons_ne_nil _ _) (saves_callee h)
    (some callerPattern)
  exact ⟨final, world', hrun⟩

private theorem load_callee {world world' : World} {final : Container}
    (h : world ∈ [calleeWorld "x" [], editedWorld])
    (hrun : calleeGeneration.run calleeContainer world = (.ok final, .done, world')) :
    (calleeStore.load world'.files).1 =
      .ok (builtDocument callBuilder callerPattern calleeContainer world) := by
  obtain ⟨hsaved, -, -⟩ := save_of_passed_generate (gitReads_callee h) hrun
  rw [fetched_false] at hsaved
  exact (storable_builtDocument callerPattern Fingerprint.collisionFree_verbatim rfl (sound_callee h)
    (sizes_callee h)).load_of_save hsaved rfl

private theorem start_mem : calleeWorld "x" [] ∈ [calleeWorld "x" [], editedWorld] :=
  List.mem_cons_self

private theorem edited_mem : editedWorld ∈ [calleeWorld "x" [], editedWorld] :=
  List.mem_cons_of_mem _ (List.mem_singleton_self _)

private theorem content?_editedWorld :
    editedWorld.files.content? calleeStore.path = some (GraphStore.contentOf .json
      (builtDocument callBuilder callerPattern calleeContainer (calleeWorld "x" []))) := rfl

private theorem load_editedWorld :
    (calleeStore.load editedWorld.files).1 =
      .ok (builtDocument callBuilder callerPattern calleeContainer (calleeWorld "x" [])) := by
  have hopens : calleeStore.isBlocked editedWorld.files = false := rfl
  rw [GraphStore.load_fst content?_editedWorld, hopens, if_neg Bool.false_ne_true]
  exact (storable_builtDocument callerPattern Fingerprint.collisionFree_verbatim rfl
    (sound_callee start_mem) (sizes_callee start_mem)).read_contentOf .json

/-- The edit leaves what was stored. -/
private theorem stored_callee {final : Container} {stored : World}
    (h : calleeGeneration.run calleeContainer (calleeWorld "x" []) = (.ok final, .done, stored)) :
    editedWorld.files.content? calleeStore.path = stored.files.content? calleeStore.path ∧
      stored.supply.next ≤ editedWorld.supply.next := by
  obtain ⟨hsaved, hsupply, -⟩ := save_of_passed_generate (by decide) h
  rw [fetched_false] at hsaved hsupply
  refine ⟨content?_editedWorld.trans (GraphStore.content?_of_save hsaved).symm, ?_⟩
  rw [hsupply, WorkTree.build_eq (paths_callee start_mem)]
  decide +kernel

/-- The name of the callee is concealed. -/
private theorem conceals_callee :
    (calleeContainer.tree (calleeWorld "x" [])).Conceals callBuilder callerPattern.isMatch
      (calleeContainer.tree editedWorld) "b" := by
  have hstart := paths_callee start_mem
  have hedited := paths_callee edited_mem
  refine ⟨by decide +kernel, ?_, ?_⟩
  · rw [WorkTree.changesSince, hedited, WorkTree.files_eq hstart, Option.getD_some]
    decide +kernel
  · rw [WorkTree.files_eq hstart, WorkTree.files_eq hedited]
    decide +kernel

/-- A filtered build has the caller with a reference to the callee and without external names. -/
private theorem exists_caller :
    ∃ d ∈ (builtDocument callBuilder callerPattern calleeContainer editedWorld).graph.components,
      "b" ∈ d.referencedSymbols ∧ (builtDocument callBuilder callerPattern calleeContainer
        editedWorld).graph.externalNames d = [] := by
  rw [builtDocument, WorkTree.build_eq (paths_callee edited_mem)]
  decide +kernel

/-- The caller is stored with the same links by both runs. -/
theorem filtered_update_agrees_edit :
    ∃ final stored final' rebuilt last world document document',
      calleeGeneration.run calleeContainer (calleeWorld "x" []) = (.ok final, .done, stored) ∧
      editedWorld.files.content? calleeStore.path = stored.files.content? calleeStore.path ∧
      calleeGeneration.run calleeContainer editedWorld = (.ok final', .done, rebuilt) ∧
      (updatePipeline .snapshot none ⟨callBuilder, true⟩ (some callerPattern) .json).run
        calleeContainer editedWorld = (.ok last, .done, world) ∧
      (calleeStore.load world.files).1 = .ok document ∧
      (calleeStore.load rebuilt.files).1 = .ok document' ∧
      document.graph.AgreesBeside
        ((calleeContainer.tree (calleeWorld "x" [])).Conceals callBuilder callerPattern.isMatch
          (calleeContainer.tree editedWorld)) document'.graph := by
  obtain ⟨final, stored, hfirst⟩ := passed_callee start_mem
  obtain ⟨final', rebuilt, hlast⟩ := passed_callee edited_mem
  obtain ⟨hkept, hsupply⟩ := stored_callee hfirst
  have hstart := fetched_false calleeContainer (calleeWorld "x" [])
  have hopened := opened_json calleeContainer editedWorld
  have hsame : calleeContainer.tree (fetched false calleeContainer editedWorld) =
      calleeContainer.tree (opened .json calleeContainer editedWorld) := by
    rw [fetched_false, hopened]
  obtain ⟨last, world, document, document', hrun, hloaded, hbuilt, hagrees⟩ :=
    filtered_update_agrees Fingerprint.collisionFree_verbatim rfl callerPattern .json (by decide)
      (by decide) (by decide) (hstart ▸ sound_callee start_mem)
      (hopened ▸ sound_callee edited_mem)
      (List.forall_mem_append.mpr ⟨hstart ▸ sizes_callee start_mem,
        hopened ▸ sizes_callee edited_mem⟩) hfirst hkept rfl hsupply hsame hlast
  rw [hstart, hopened] at hagrees
  exact ⟨final, stored, final', rebuilt, last, world, document, document', hfirst, hkept, hlast, hrun,
    hloaded, hbuilt, hagrees⟩

/-- The update stores an external symbol for the callee, and the build of the same tree does not. -/
theorem filtered_update_adds_name :
    (calleeContainer.tree (calleeWorld "x" [])).Sound .clear callBuilder ∧
    (calleeContainer.tree editedWorld).Sound .clear callBuilder ∧
    ∃ final stored final' rebuilt last world document document',
      calleeGeneration.run calleeContainer (calleeWorld "x" []) = (.ok final, .done, stored) ∧
      editedWorld.files.content? calleeStore.path = stored.files.content? calleeStore.path ∧
      calleeGeneration.run calleeContainer editedWorld = (.ok final', .done, rebuilt) ∧
      (updatePipeline .snapshot none ⟨callBuilder, true⟩ (some callerPattern) .json).run
        calleeContainer editedWorld = (.ok last, .done, world) ∧
      (calleeStore.load world.files).1 = .ok document ∧
      (calleeStore.load rebuilt.files).1 = .ok document' ∧
      ∃ c ∈ document.graph.components, ∃ d ∈ document'.graph.components, c.id = d.id ∧
        some "b" ∈ document.graph.externalNames c ∧ document'.graph.externalNames d = [] := by
  obtain ⟨final, stored, hfirst⟩ := passed_callee start_mem
  obtain ⟨final', rebuilt, hlast⟩ := passed_callee edited_mem
  obtain ⟨hkept, hsupply⟩ := stored_callee hfirst
  obtain ⟨-, hminted, -⟩ := save_of_passed_generate (by decide) hfirst
  rw [fetched_false] at hminted
  rw [hminted] at hsupply
  have hopened := opened_json calleeContainer editedWorld
  have hload : ((GraphStore.mk calleeContainer.repository.persistPath .json).load
      editedWorld.files).1 =
      .ok (builtDocument callBuilder callerPattern calleeContainer (calleeWorld "x" [])) :=
    load_editedWorld
  have hsave : ((GraphStore.mk calleeContainer.repository.persistPath .json).save
      (.ofGraph ⟨[], [], .empty⟩ none none) (opened .json calleeContainer editedWorld).files).1 =
        .ok () :=
    hopened.symm ▸ saves_callee edited_mem
  obtain ⟨last, world, document, hrun, hloaded, hagrees⟩ := load_of_update_run
    Fingerprint.collisionFree_verbatim rfl (by decide) (sound_callee start_mem)
    (hopened.symm ▸ sound_callee edited_mem) (hopened.symm ▸ paths_callee edited_mem)
    (hopened.symm ▸ sizes_callee edited_mem) hsupply hload rfl hsave
  rw [hopened] at hagrees
  obtain ⟨d, hd, hreference, hnames⟩ := exists_caller
  obtain ⟨c, hc, hbare⟩ := List.mem_map.mp ((hagrees editedWorld.supply).components_perm.mem_iff.mpr
    (List.mem_map_of_mem hd))
  obtain ⟨hid, -, -, -, -, -, -, -, -, hreferences⟩ := Component.mk.inj hbare
  have hname : some "b" ∈ document.graph.externalNames c :=
    ((hagrees editedWorld.supply).mem_names c hc d hd hid "b").mpr
      (Or.inr ⟨conceals_callee, hreferences ▸ hreference⟩)
  exact ⟨sound_callee start_mem, sound_callee edited_mem, final, stored, final', rebuilt, last, world,
    document, _, hfirst, hkept, hlast, hrun, hloaded, load_callee edited_mem hlast, c, hc, d, hd, hid,
    hname, hnames⟩

end Pipeline

end CodeAtlas
