import CodeAtlas.Command.Analysis
import CodeAtlas.Proofs.Command.Actions
import CodeAtlas.Proofs.Pipeline.FilteredRuns
import CodeAtlas.Proofs.StoreSafety

/-!
# Generated graphs that are read back

A graph is generated in the configured format, wherever it is written. The commands that are given a
place to read from go by its extension instead. Where the two agree, a graph that was generated can be
loaded, and it is as it was saved, but for files in a database that have one identifier. Where they do
not agree, it can never be loaded.

## Main definitions

* `World.TextsFit`: no text is longer than offsets can tell.
* `Command.Generated`: the documents of filtered builds.
* `Command.ReadsBack`, `Command.Unreadable`: what later commands make of a store.

## Main results

* `Builder.fits_of_mem_buildDirectory`: the offsets of a build.
* `Command.Generated.load_of_save`: what is loaded in the format of the save.
* `GraphStore.load_of_other_format`: what is loaded in the other one.
* `Command.exists_save_of_generateGraph`: the save of a command that generates.
* `Command.generated_graph_read_back`: both together.
* `Command.generated_graph_unreadable`: an extension that does not tell the format.
-/

namespace CodeAtlas

/-! ### Short texts -/

namespace Text

theorem byteLength_replacePair_le (a b : Char) (cs : List Char) :
    byteLength (replacePair a b [b] cs) ≤ byteLength cs := by
  fun_induction replacePair a b [b] cs with
  | case1 => exact Nat.le_refl _
  | case2 c => exact Nat.le_refl _
  | case3 c d rest hpair ih =>
    obtain ⟨rfl, rfl⟩ := hpair
    rw [List.singleton_append, byteLength, byteLength, byteLength]
    omega
  | case4 c d rest hpair ih =>
    rw [byteLength, byteLength]
    omega

/-- Other line ends do not make a text longer. -/
theorem utf8ByteSize_normalizeLines_le (s : String) :
    (normalizeLines s).utf8ByteSize ≤ s.utf8ByteSize := by
  rw [utf8ByteSize_eq_byteLength, utf8ByteSize_eq_byteLength, normalizeLines, String.toList_ofList]
  exact byteLength_replacePair_le _ _ _

end Text

/-- The lengths of all texts are numbers of 64 bits. -/
def FileSystem.TextsFit (fs : FileSystem) : Prop :=
  ∀ l text, fs.at? l = some (.file (.text text)) → text.utf8ByteSize < Json.wordCount

/-- So are those of the files that version control can create. -/
structure World.TextsFit (world : World) : Prop where
  files : world.files.TextsFit
  answers : ∀ answer ∈ world.gitAnswers, ∀ file ∈ answer.files,
    file.2.utf8ByteSize < Json.wordCount

namespace FileSystem.TextsFit

variable {fs fs' : FileSystem} {path text : String}

theorem readText (h : fs.TextsFit) (hread : fs.readText path = .ok text) :
    text.utf8ByteSize < Json.wordCount := by
  obtain ⟨l, -, hat, -⟩ := entry_eq_file (entry_of_readText hread)
  exact h l text hat

theorem put (h : fs.TextsFit) {location : Location} (hne : location ≠ []) {entry : Entry}
    (hentry : ∀ text, entry = .file (.text text) → text.utf8ByteSize < Json.wordCount) :
    (fs.put location entry).TextsFit := by
  intro l text hat
  rw [at?_put _ hne] at hat
  split_ifs at hat
  · exact hentry text (Option.some.inj hat)
  · exact h l text hat

theorem createAlong (h : fs.TextsFit) (location : Location) (parts : List PathText.Part) :
    (fs.createAlong location parts).2.TextsFit := by
  induction parts generalizing fs location with
  | nil => exact h
  | cons part rest ih =>
    cases part with
    | root => exact ih h []
    | here => exact ih h location
    | up => exact ih h location.dropLast
    | name text =>
      simp only [FileSystem.createAlong]
      split
      · exact ih h _
      · exact h
      · exact ih (h.put (by simp) (by simp)) _

theorem createDirectories (h : fs.TextsFit) (path : String) :
    (fs.createDirectories path).2.TextsFit := by
  unfold FileSystem.createDirectories
  split_ifs
  · exact h
  · exact h.createAlong _ _

theorem write (h : fs.TextsFit) (hsize : text.utf8ByteSize < Json.wordCount)
    (hwrite : fs.write path (.text text) = .ok fs') : fs'.TextsFit := by
  obtain ⟨l, -, -, hne, -, rfl⟩ := write_eq_ok hwrite
  refine h.put hne fun other hother => ?_
  obtain rfl := Content.text.inj (Entry.file.inj hother)
  exact hsize

theorem place (h : fs.TextsFit) (hsize : text.utf8ByteSize < Json.wordCount) :
    (World.place fs path (.text text)).TextsFit := by
  have hcreated := h.createDirectories ((PathText.parent? path).getD "")
  unfold World.place
  dsimp only
  split
  · exact hcreated.write hsize ‹_›
  · exact hcreated

/-- A tree with short texts is created. -/
theorem createTree (h : fs.TextsFit) {root : String} {files : List (String × String)}
    (hsizes : ∀ file ∈ files, file.2.utf8ByteSize < Json.wordCount) :
    (World.createTree fs root files).TextsFit := by
  have hplaces : ∀ fs : FileSystem, fs.TextsFit → (files.foldl (fun fs file =>
      World.place fs (PathText.join root file.1) (.text file.2)) fs).TextsFit := by
    intro fs h
    induction files generalizing fs with
    | nil => exact h
    | cons file files ih =>
      obtain ⟨hfile, hrest⟩ := List.forall_mem_cons.mp hsizes
      exact ih hrest _ (h.place hfile)
  exact hplaces _ (h.createDirectories _)

end FileSystem.TextsFit

namespace World.TextsFit

variable {world : World}

theorem askGit (h : world.TextsFit) (args : List String) : (world.askGit args).2.TextsFit := by
  refine ⟨?_, (gitAnswers_askGit world args).symm ▸ h.answers⟩
  have hanswer : ∀ file ∈ ((world.gitAnswers.find? (·.args == args)).getD (.unknown args)).files,
      file.2.utf8ByteSize < Json.wordCount := by
    cases hfound : world.gitAnswers.find? (·.args == args) with
    | none => exact fun file hfile => absurd hfile List.not_mem_nil
    | some answer => exact h.answers answer (List.mem_of_find?_eq_some hfound)
  unfold World.askGit
  dsimp only
  split
  · exact h.files
  · exact h.files.createTree hanswer

theorem outputLine? (h : world.TextsFit) (args : List String) :
    (Git.outputLine? world args).2.TextsFit := by
  have hworld : (Git.outputLine? world args).2 = (world.askGit args).2 := by
    unfold Git.outputLine? Git.output
    dsimp only
    split_ifs <;> rfl
  rw [hworld]
  exact h.askGit args

theorem clone (h : world.TextsFit) (url destination : String) :
    (Git.clone world url destination).2.TextsFit := by
  have hcreated := h.files.createDirectories ((PathText.parent? destination).getD "")
  unfold Git.clone
  split
  · rename_i error fs hcreate
    rw [hcreate] at hcreated
    exact ⟨hcreated, h.answers⟩
  · rename_i fs hcreate
    rw [hcreate] at hcreated
    have hworld : World.TextsFit { world with files := fs } := ⟨hcreated, h.answers⟩
    dsimp only
    split <;> exact hworld.askGit _

/-- The stage before the build that finds the tree keeps texts short. -/
theorem fetched (h : world.TextsFit) (clone : Bool) (container : Container) :
    (Pipeline.fetched clone container world).TextsFit := by
  rcases Pipeline.fetched_cases clone container world with hfetched | ⟨url, hfetched⟩
  · rwa [hfetched]
  · rw [hfetched]
    exact h.clone url container.repository.path

/-- So does the one that reads the commit. -/
theorem gitMetadata (h : world.TextsFit) (container : Container) :
    (Stage.gitMetadata.run container world).2.TextsFit := by
  unfold Stage.gitMetadata
  dsimp only
  split_ifs
  · exact (h.outputLine? _).outputLine? _
  · exact h

end World.TextsFit

/-! ### Documents of builds -/

/-- What a filter leaves of a component, besides its links, is as it was. -/
theorem CodeGraph.map_filteredBy_sublist {α : Type} {f : Component → α}
    (h : ∀ dropped c, f (Component.without dropped c) = f c) (graph : CodeGraph)
    (filter : Option Pattern) :
    ((graph.filteredBy filter).components.map f).Sublist (graph.components.map f) := by
  cases filter with
  | none => exact List.Sublist.refl _
  | some pattern =>
    simp only [filteredBy, CodeGraph.filter, filterComponents, List.map_map, Function.comp_def, h]
    exact List.filter_sublist.map f

theorem CodeGraph.externalSymbols_filteredBy (graph : CodeGraph) (filter : Option Pattern) :
    (graph.filteredBy filter).externalSymbols = graph.externalSymbols := by
  cases filter <;> rfl

/-- The offsets of a build are within short texts. -/
theorem Builder.fits_of_mem_buildDirectory {parser : SyntaxParser} {builder : Builder}
    {fs : FileSystem} {home directory : String} {supply : IdSupply} {output : BuildOutput}
    (hregistry : builder.registry = .standard parser) (htexts : fs.TextsFit)
    (houtput : builder.buildDirectory fs home directory supply = some (.ok output)) :
    ∀ c ∈ output.graph.components, c.fits = true := by
  intro c hc
  obtain ⟨collected, -, rfl⟩ := buildDirectory_eq_ok houtput
  rw [buildFiles, components_assemble] at hc
  obtain ⟨d, hd, rfl⟩ := List.mem_map.mp hc
  obtain ⟨file, hfile, hmem⟩ :=
    List.mem_flatMap.mp ((Keyed.firsts_sublist (fun c : Component => c.id) _).subset hd)
  obtain ⟨path, -, hextract⟩ := exists_extract_of_mem_extractFiles hfile
  obtain ⟨language, source, root, -, hread, -, hparsed⟩ := extractFile_standard hregistry hextract
  have htext : file.text = Text.normalizeLines source := by rw [hparsed]; rfl
  have hsize : file.text.utf8ByteSize < Json.wordCount := by
    rw [htext]
    exact Nat.lt_of_le_of_lt (Text.utf8ByteSize_normalizeLines_le source) (htexts.readText hread)
  -- A component that is linked has the spans it had.
  have hfits : d.fits = true := ParsedFile.fits_of_mem_unlinked hsize hmem
  exact hfits

namespace Command

/-- The documents of filtered builds of directories with short texts. -/
inductive Generated (builder : Builder) (filter : Option Pattern) : Document → Prop
  | build {fs : FileSystem} {home directory : String} {supply : IdSupply} {output : BuildOutput}
      (htexts : fs.TextsFit)
      (houtput : builder.buildDirectory fs home directory supply = some (.ok output))
      (repository commit : Option String) :
      Generated builder filter (.ofGraph (output.graph.filteredBy filter) repository commit)

namespace Generated

variable {parser : SyntaxParser} {builder : Builder} {filter : Option Pattern}
  {document : Document}

theorem isCurrent (h : Generated builder filter document) : document.isCurrent = true := by
  cases h
  exact beq_self_eq_true currentSchema

theorem nodup_components (h : Generated builder filter document) :
    (document.graph.components.map (·.id)).Nodup := by
  obtain ⟨htexts, houtput⟩ := h
  obtain ⟨collected, -, rfl⟩ := Builder.buildDirectory_eq_ok houtput
  exact (Builder.nodup_ids_assemble _ _ _).sublist
    (CodeGraph.map_filteredBy_sublist (fun _ _ => rfl) _ _)

theorem nodup_externals (h : Generated builder filter document) :
    (document.graph.externalSymbols.entries.map (·.2)).Nodup := by
  obtain ⟨htexts, houtput⟩ := h
  obtain ⟨collected, -, rfl⟩ := Builder.buildDirectory_eq_ok houtput
  rw [Document.ofGraph, CodeGraph.externalSymbols_filteredBy]
  exact (Builder.fresh_assemble (Externals.fresh_empty _)).injective.nodup_ids

theorem fits (h : Generated builder filter document)
    (hregistry : builder.registry = .standard parser) : document.fits = true := by
  obtain ⟨htexts, houtput⟩ := h
  refine List.all_eq_true.mpr fun c hc => ?_
  have hmem : c.fits ∈ (_ : CodeGraph).components.map Component.fits :=
    (CodeGraph.map_filteredBy_sublist (fun _ _ => rfl) _ _).subset (List.mem_map_of_mem hc)
  obtain ⟨d, hd, heq⟩ := List.mem_map.mp hmem
  rw [← heq]
  exact Builder.fits_of_mem_buildDirectory hregistry htexts houtput d hd

/-- A document that is saved is loaded in the same format, if the store can be opened. It is the
same document, but for files with one identifier in a database. -/
theorem load_of_save (h : Generated builder filter document)
    (hregistry : builder.registry = .standard parser) {store : GraphStore} {fs fs' : FileSystem}
    (hsave : store.save document fs = (.ok (), fs')) (hopens : store.isBlocked fs' = false) :
    ∃ loaded, (store.load fs').1 = .ok loaded ∧
      ((store.format = .sqlite → (document.graph.files.map (·.id)).Nodup) → loaded = document) := by
  have hfits := h.fits hregistry
  cases hformat : store.format with
  | json =>
    exact ⟨document, Document.load_of_save_json hformat h.isCurrent hfits hsave, fun _ => rfl⟩
  | sqlite =>
    refine ⟨document.kept, ?_, fun hfiles => ?_⟩
    · rw [GraphStore.load_of_save hsave, hopens]
      simp only [Bool.false_eq_true, hformat, GraphStore.contentOf, GraphStore.read,
        document.ofRows_toRows h.isCurrent h.nodup_components, hfits, ↓reduceIte, Except.mapError]
    · have hstorable : document.Storable :=
        ⟨h.isCurrent, h.nodup_components, hfiles rfl, h.nodup_externals, hfits⟩
      exact hstorable.kept_eq

end Generated

end Command

/-- What was saved in another format cannot be loaded. -/
theorem GraphStore.load_of_other_format {path : String} {format other : GraphFormat}
    {document : Document} {fs fs' : FileSystem} (hne : other ≠ format)
    (hsave : (GraphStore.mk path format).save document fs = (.ok (), fs')) :
    ∃ error, ((GraphStore.mk path other).load fs').1 = .error error := by
  have hcontent : fs'.content? path = some (contentOf format document) := content?_of_save hsave
  rw [load_fst hcontent]
  split_ifs
  · exact ⟨.invalidDatabase, rfl⟩
  · cases format <;> cases other
    · exact absurd rfl hne
    · exact ⟨.invalidDatabase, rfl⟩
    · exact ⟨.invalidJson, rfl⟩
    · exact absurd rfl hne

/-- A store that is blocked cannot be loaded. -/
theorem GraphStore.load_of_isBlocked {store : GraphStore} {document : Document}
    {fs fs' : FileSystem} (hsave : store.save document fs = (.ok (), fs'))
    (hblocked : store.isBlocked fs' = true) :
    (store.load fs').1 = .error .invalidDatabase := by
  rw [load_of_save hsave, if_pos hblocked]

/-! ### The command that generates -/

/-- A run that builds is passed with the save of a filtered build. -/
theorem Pipeline.exists_save_of_generate {clone : Bool} {builder : Builder}
    {filter : Option Pattern} {format : GraphFormat} {container final : Container}
    {world world' : World} (htexts : world.TextsFit)
    (h : (generatePipeline clone builder filter format).run container world =
      (.ok final, .done, world')) :
    ∃ document before, Command.Generated builder filter document ∧
      (GraphStore.mk container.repository.persistPath format).save document before =
        (.ok (), world'.files) := by
  have hstages : runFrom (generatePipeline clone builder filter format).producers 0
      ((if clone then Stage.cloneRepository else .localRepository) :: .gitMetadata ::
        .buildGraph builder :: (Stage.filtering filter ++ [.saveGraph (some format)]))
      container world = (.ok final, .done, world') := h
  obtain ⟨updates, between, -, hfetch, -, hrest⟩ := runFrom_cons_eq_ok hstages
  obtain rfl : fetched clone container world = between := congrArg Prod.snd hfetch
  obtain ⟨metadata, described, -, hmetadata, -, hlast⟩ := runFrom_cons_eq_ok hrest
  have hdescribed : described.TextsFit := by
    have hkept := (htexts.fetched clone container).gitMetadata (container.apply updates)
    rwa [hmetadata] at hkept
  obtain ⟨commit, author, rfl⟩ : ∃ commit author, metadata = .ofList [(.commitHash,
      .optionalText commit), (.author, .optionalText author)] :=
    ⟨_, _, (StageOutcome.returned.inj (congrArg Prod.fst hmetadata)).symm⟩
  obtain ⟨output, houtput, hsave, -⟩ :=
    exists_save_of_build (Container.recordedCommit_apply_metadata _ commit author) hlast
  exact ⟨_, described.files, .build hdescribed.files houtput _ _, hsave⟩

namespace Command

variable {parser : SyntaxParser} {globals : GlobalOptions} {options : GenerateOptions}
  {config : Config} {run run' : Run}

theorem keepsWorld_identityOf (globals : GlobalOptions) (options : GenerateOptions)
    (config : Config) : (identityOf globals options config).KeepsWorld := by
  refine (keepsWorld_repositorySource globals).bind fun source => ?_
  cases source with
  | tree path => exact Action.keepsWorld_pure _
  | address url => exact keepsWorld_currentDirectory.bind fun _ => Action.keepsWorld_pure _

/-- A graph with an output goes there. -/
theorem persistPath_of_identityOf {place : String} (houtput : options.output = some place)
    {identity : RepositoryIdentity}
    (h : (identityOf globals options config).runIn run = (.ok identity, run')) :
    identity.persistPath = place := by
  obtain ⟨source, between, -, h⟩ := Action.exists_of_bind h
  cases source with
  | tree path =>
    obtain rfl := Except.ok.inj (Prod.mk.inj h).1
    simp [RepositoryIdentity.ofPath, houtput]
  | address url =>
    obtain ⟨current, after, -, h⟩ := Action.exists_of_bind h
    obtain rfl := Except.ok.inj (Prod.mk.inj h).1
    simp [RepositoryIdentity.ofUrl, houtput]

/-- A pipeline that a command has run was passed, and left the world of the run after it. -/
theorem run_of_runPipeline {pipeline : Pipeline} {identity : RepositoryIdentity}
    {onFailure : String} {container : Container}
    (h : (runPipeline pipeline identity onFailure).runIn run = (.ok container, run')) :
    pipeline.run ⟨identity, .empty⟩ run.world = (.ok container, .done, run'.world) := by
  rcases hrun : pipeline.run ⟨identity, .empty⟩ run.world with ⟨result, state, world⟩
  simp only [runPipeline, Action.runIn_bind, Action.runIn_get, hrun, Action.runIn_set] at h
  cases result with
  | error error => cases h
  | ok final =>
    obtain ⟨hfinal, rfl⟩ := Prod.mk.inj h
    rw [Except.ok.inj hfinal, Pipeline.state_eq_done_of_runFrom hrun]

/-- What the user is told changes nothing. -/
theorem keepsWorld_informCommit (globals : GlobalOptions) (container : Container) :
    (informCommit globals container).KeepsWorld := by
  unfold informCommit
  split
  · exact Action.keepsWorld_inform _ _
  · exact Action.keepsWorld_pure _

/-- The values of one run that the command line sets. -/
def overridesOf (options : GenerateOptions) : ConfigOverrides :=
  { format := options.format, componentPattern := options.filter }

/-- A command that has generated a graph has saved it where it was asked to. -/
theorem exists_save_of_generateGraph {place : String} (houtput : options.output = some place)
    (htexts : run.world.TextsFit)
    (h : (generateGraph parser globals options config).runIn run = (.ok (), run')) :
    ∃ document before,
      Generated (builderOf parser (config.override (overridesOf options)))
        (filterOf (config.override (overridesOf options))) document ∧
      (GraphStore.mk place (config.override (overridesOf options)).storage.format).save document
        before = (.ok (), run'.world.files) := by
  obtain ⟨chosen, checked, hchosen, h⟩ := Action.exists_of_bind h
  obtain rfl := eq_override_of_overridden hchosen
  obtain ⟨identity, resolved, hidentity, h⟩ := Action.exists_of_bind h
  obtain ⟨container, passed, hpipeline, h⟩ := Action.exists_of_bind h
  have hresolved : resolved.world = run.world :=
    ((keepsWorld_identityOf _ _ _).world_eq hidentity).trans
      ((keepsWorld_overridden _ _).world_eq hchosen)
  have hpassed : run'.world = passed.world :=
    ((Action.keepsWorld_ofExcept _ _).bind fun _ => (Action.keepsWorld_inform _ _).bind fun _ =>
      keepsWorld_informCommit globals container).world_eq h
  have hrun := run_of_runPipeline hpipeline
  rw [hresolved] at hrun
  obtain ⟨document, before, hgenerated, hsave⟩ := Pipeline.exists_save_of_generate htexts hrun
  rw [hpassed]
  exact ⟨document, before, hgenerated, persistPath_of_identityOf houtput hidentity ▸ hsave⟩

/-- The commands that are given the store get the document, and so does the stage with which the
update of a working tree begins. -/
structure ReadsBack (store : GraphStore) (tree : String) (run : Run) (document : Document) :
    Prop where
  present : store.isPresent run.world.files = true
  loadDocument_eq : (loadDocument store).runIn run = (.ok document, opened store run)
  loadGraph_eq : (Stage.loadGraph (some store.format)).run ⟨.ofPath tree store.path, .empty⟩
    run.world = (.returned ((Attributes.ofGraph document.graph).insert .previousCommitHash
      (.optionalText document.commitHash)), (opened store run).world)

/-- Neither can read what is there. -/
structure Unreadable (store : GraphStore) (tree : String) (run : Run) : Prop where
  present : store.isPresent run.world.files = true
  loadDocument_eq : ∃ failure, (loadDocument store).runIn run = (.error failure, opened store run)
  loadGraph_eq : ∃ error, (Stage.loadGraph (some store.format)).run
    ⟨.ofPath tree store.path, .empty⟩ run.world =
      (.failed (.store error), (opened store run).world)

variable {store : GraphStore}

/-- What the stage makes of what is loaded. -/
theorem run_loadGraph (store : GraphStore) (tree : String) (run : Run) :
    (Stage.loadGraph (some store.format)).run ⟨.ofPath tree store.path, .empty⟩ run.world =
      ((match (store.load run.world.files).1 with
        | .ok document => .returned ((Attributes.ofGraph document.graph).insert
            .previousCommitHash (.optionalText document.commitHash))
        | .error error => .failed (.store error)), (opened store run).world) := by
  simp only [Stage.loadGraph, Stage.storeOf, RepositoryIdentity.ofPath, Option.getD_some, opened]
  rcases store.load run.world.files with ⟨result, fs⟩
  cases result <;> rfl

theorem readsBack_of_load {document : Document}
    (hpresent : store.isPresent run.world.files = true)
    (hload : (store.load run.world.files).1 = .ok document) (tree : String) :
    ReadsBack store tree run document where
  present := hpresent
  loadDocument_eq := by rw [runIn_loadDocument, if_pos hpresent, hload]
  loadGraph_eq := by rw [run_loadGraph, hload]

theorem unreadable_of_load {error : StoreError}
    (hpresent : store.isPresent run.world.files = true)
    (hload : (store.load run.world.files).1 = .error error) (tree : String) :
    Unreadable store tree run where
  present := hpresent
  loadDocument_eq := ⟨_, by rw [runIn_loadDocument, if_pos hpresent, hload]⟩
  loadGraph_eq := ⟨error, by rw [run_loadGraph, hload]⟩

section

variable {place : String} {format : GraphFormat} {document : Document} {before : FileSystem}

theorem isPresent_of_save
    (hsave : (GraphStore.mk place format).save document before = (.ok (), run.world.files)) :
    (GraphStore.ofPath place).isPresent run.world.files = true := by
  have hcontent : run.world.files.content? place = some _ := GraphStore.content?_of_save hsave
  simp only [GraphStore.isPresent, FileSystem.isFile, GraphStore.ofPath, hcontent,
    Option.isSome_some]

/-- The document of a build is read back from a place whose extension tells its format, if the
database there can be opened. -/
theorem Generated.exists_readsBack {builder : Builder} {filter : Option Pattern}
    (h : Generated builder filter document) (hregistry : builder.registry = .standard parser)
    (hsave : (GraphStore.mk place format).save document before = (.ok (), run.world.files))
    (hformat : GraphFormat.ofPath place = format)
    (hopens : (GraphStore.ofPath place).isBlocked run.world.files = false) (config : Config)
    (tree : String) :
    ∃ loaded, ReadsBack (storeOf config tree (some place)) tree run loaded ∧
      ((format = .sqlite → (document.graph.files.map (·.id)).Nodup) → loaded = document) := by
  subst hformat
  obtain ⟨loaded, hload, hsame⟩ := h.load_of_save hregistry hsave hopens
  exact ⟨loaded, readsBack_of_load (isPresent_of_save hsave) hload tree, hsame⟩

/-- From a place with another extension nothing can be read, nor from a database that cannot be
opened. -/
theorem unreadable_of_save
    (hsave : (GraphStore.mk place format).save document before = (.ok (), run.world.files))
    (hfails : GraphFormat.ofPath place ≠ format ∨
      (GraphStore.ofPath place).isBlocked run.world.files = true)
    (config : Config) (tree : String) :
    Unreadable (storeOf config tree (some place)) tree run := by
  have hload : ∃ error, ((GraphStore.ofPath place).load run.world.files).1 = .error error := by
    by_cases hformat : GraphFormat.ofPath place = format
    · subst hformat
      exact ⟨_, GraphStore.load_of_isBlocked hsave (hfails.resolve_left fun hne => hne rfl)⟩
    · exact GraphStore.load_of_other_format hformat hsave
  obtain ⟨error, hload⟩ := hload
  exact unreadable_of_load (isPresent_of_save hsave) hload tree

end

/-- A graph that was generated is read back by every command that is given its place, if the
extension tells the format that was used and no directory keeps a database there from being opened:
as it was saved, but for files with one identifier in a database. Otherwise no command can read
it. -/
theorem generated_graph_read_back (parser : SyntaxParser) (globals : GlobalOptions)
    (options : GenerateOptions) (config : Config) {place : String}
    (houtput : options.output = some place) {world world' : World} (htexts : world.TextsFit)
    {outcome : Outcome}
    (hrun : (generateGraph parser globals options config).outcome world = (outcome, world'))
    (hcode : outcome.code = 0) :
    let used := config.override (overridesOf options)
    ∃ document before, Generated (builderOf parser used) (filterOf used) document ∧
      (GraphStore.mk place used.storage.format).save document before = (.ok (), world'.files) ∧
      ∀ (config' : Config) (tree : String) (later : Run), later.world.files = world'.files →
        let store := storeOf config' tree (some place)
        (GraphFormat.ofPath place = used.storage.format →
          store.isBlocked later.world.files = false →
          ∃ loaded, ReadsBack store tree later loaded ∧
            ((used.storage.format = .sqlite → (document.graph.files.map (·.id)).Nodup) →
              loaded = document)) ∧
        (GraphFormat.ofPath place ≠ used.storage.format ∨
            store.isBlocked later.world.files = true →
          Unreadable store tree later) := by
  intro used
  obtain ⟨run', hpassed, rfl⟩ := Action.exists_of_outcome hrun hcode
  obtain ⟨document, before, hgenerated, hsave⟩ :=
    exists_save_of_generateGraph houtput htexts hpassed
  refine ⟨document, before, hgenerated, hsave, fun config' tree later hlater => ?_⟩
  rw [← hlater] at hsave
  exact ⟨fun hformat hopens => hgenerated.exists_readsBack rfl hsave hformat hopens config' tree,
    fun hfails => unreadable_of_save hsave hfails config' tree⟩

/-! ### A file that is generated -/

theorem exists_runIn_informCommit (globals : GlobalOptions) (container : Container) (run : Run) :
    ∃ run', (informCommit globals container).runIn run = (.ok (), run') := by
  unfold informCommit
  split
  · exact Action.exists_runIn_inform _ _ _
  · exact ⟨run, rfl⟩

/-- A command whose pipeline is passed succeeds. -/
theorem exists_runIn_generateGraph {identity : RepositoryIdentity} {final : Container}
    {world' : World} {place : String}
    (hvalid : (config.override (overridesOf options)).validate = .ok ())
    (hidentity : (identityOf globals options (config.override (overridesOf options))).runIn run =
      (.ok identity, run))
    (hpipeline : (generatePipeline identity.url.isSome
      (builderOf parser (config.override (overridesOf options)))
      (filterOf (config.override (overridesOf options)))
      (config.override (overridesOf options)).storage.format).run ⟨identity, .empty⟩ run.world =
        (.ok final, .done, world'))
    (hplace : final.path .persistedPath = .ok place) :
    ∃ run', (generateGraph parser globals options config).runIn run = (.ok (), run') := by
  have hoverridden : (overridden config (overridesOf options)).runIn run =
      (.ok (config.override (overridesOf options)), run) := by
    simp only [overridden, hvalid]
    rfl
  have hpassed : (runPipeline (generatePipeline identity.url.isSome
      (builderOf parser (config.override (overridesOf options)))
      (filterOf (config.override (overridesOf options)))
      (config.override (overridesOf options)).storage.format) identity
      "Graph generation failed").runIn run = (.ok final, { run with world := world' }) := by
    simp only [runPipeline, Action.runIn_bind, Action.runIn_get, hpipeline, Action.runIn_set]
    rfl
  have hattribute : (attributeOf (final.path .persistedPath)).runIn { run with world := world' } =
      (.ok place, { run with world := world' }) := by
    rw [hplace]
    rfl
  obtain ⟨told, hinform⟩ := Action.exists_runIn_inform globals ("  Saved to " ++ place)
    { run with world := world' }
  obtain ⟨run', hcommit⟩ := exists_runIn_informCommit globals final told
  exact ⟨run', (Action.runIn_bind_of_ok hoverridden).trans
    ((Action.runIn_bind_of_ok hidentity).trans ((Action.runIn_bind_of_ok hpassed).trans
      ((Action.runIn_bind_of_ok hattribute).trans ((Action.runIn_bind_of_ok hinform).trans
        hcommit))))⟩

/-- A working tree with one file, and a directory for graphs. -/
def loneWorld : World where
  files :=
    { entries :=
        [(["repo"], .directory), (["repo", "a.py"], .file (.text "x = 1\n")),
          (["out"], .directory)]
      current := "/" }
  gitAnswers := []
  supply := ⟨0⟩
  home := "/home"

/-- The working tree is named on the command line. -/
def loneGlobals : GlobalOptions :=
  ⟨some "/repo", none, false, false, false⟩

/-- So is the place of the graph. -/
def writingTo (place : String) : GenerateOptions :=
  ⟨some place, none, none, none⟩

theorem textsFit_loneWorld : loneWorld.TextsFit where
  files := by
    intro l text hat
    have hmem : (l, Entry.file (.text text)) ∈ loneWorld.files.entries := by
      unfold FileSystem.at? at hat
      split at hat
      · cases hat
      · exact mem_of_lookup_eq_some hat
    obtain ⟨-, rfl⟩ : l = ["repo", "a.py"] ∧ text = "x = 1\n" := by simpa [loneWorld] using hmem
    decide
  answers := fun _ hanswer => absurd hanswer List.not_mem_nil

/-- The tree is found, whatever the place of the graph is. -/
theorem identityOf_lone (place : String) (config : Config) :
    (identityOf loneGlobals (writingTo place) config).runIn ⟨loneWorld, "", ""⟩ =
      (.ok (.ofPath "/repo" place), ⟨loneWorld, "", ""⟩) := by
  have hsource : (repositorySource loneGlobals).runIn ⟨loneWorld, "", ""⟩ =
      (.ok (.tree "/repo"), ⟨loneWorld, "", ""⟩) := by
    decide +kernel
  exact Action.runIn_bind_of_ok hsource

theorem collectFiles_lone : (builderOf WorkTree.callParser .standard).collectFiles loneWorld.files
    loneWorld.home "/repo" = some ["a.py"] :=
  Builder.collectFiles_of_pairwise (by decide +kernel) (by decide +kernel) rfl

/-- A graph of the tree is generated where it can be saved. -/
theorem exists_outcome_lone {place : String}
    (hsave : ((GraphStore.mk place .json).save (.ofGraph ⟨[], [], .empty⟩ none none)
      loneWorld.files).1 = .ok ()) :
    ∃ outcome world', (generateGraph WorkTree.callParser loneGlobals (writingTo place)
      .standard).outcome loneWorld = (outcome, world') ∧ outcome.code = 0 := by
  have hdirectory : loneWorld.files.isDirectory "/repo" = true := by decide +kernel
  let container : Container := ⟨.ofPath "/repo" place, .empty⟩
  obtain ⟨final, world', hplace, hpipeline⟩ :=
    @Pipeline.passed_generate (builderOf WorkTree.callParser .standard) .json container loneWorld
      (by decide) hdirectory _ collectFiles_lone (List.cons_ne_nil _ _) _ hsave none
  have hvalid : Config.standard.validate = .ok () := by decide +kernel
  obtain ⟨run', hrun⟩ := @exists_runIn_generateGraph WorkTree.callParser loneGlobals
    (writingTo place) .standard ⟨loneWorld, "", ""⟩ _ _ _ _ hvalid (identityOf_lone place _)
    hpipeline hplace
  exact ⟨_, _, Action.outcome_of_runIn hrun, rfl⟩

/-- A place whose extension tells the configured format. -/
theorem generated_graph_read_back_json :
    ∃ outcome world', (generateGraph WorkTree.callParser loneGlobals
        (writingTo "/out/graph.json") .standard).outcome loneWorld = (outcome, world') ∧
      outcome.code = 0 ∧
      ∃ document before,
        (GraphStore.mk "/out/graph.json" .json).save document before = (.ok (), world'.files) ∧
        ∀ config' tree, ReadsBack (storeOf config' tree (some "/out/graph.json")) tree
          ⟨world', "", ""⟩ document := by
  obtain ⟨outcome, world', hrun, hcode⟩ :=
    exists_outcome_lone (by decide +kernel : ((GraphStore.mk "/out/graph.json" .json).save
      (.ofGraph ⟨[], [], .empty⟩ none none) loneWorld.files).1 = .ok ())
  obtain ⟨document, before, -, hsave, hback⟩ := generated_graph_read_back WorkTree.callParser
    loneGlobals (writingTo "/out/graph.json") .standard rfl textsFit_loneWorld hrun hcode
  refine ⟨outcome, world', hrun, hcode, document, before, hsave, fun config' tree => ?_⟩
  obtain ⟨loaded, hreads, hsame⟩ :=
    (hback config' tree ⟨world', "", ""⟩ rfl).1 (by decide +kernel) rfl
  exact hsame (fun hformat => nomatch hformat) ▸ hreads

/-- The place has the extension of a database, and the configured format is another. -/
theorem generated_graph_unreadable :
    ¬ ∀ (parser : SyntaxParser) (globals : GlobalOptions) (options : GenerateOptions)
      (config : Config) (place : String) (world world' : World) (outcome : Outcome),
      options.output = some place → world.TextsFit →
      (generateGraph parser globals options config).outcome world = (outcome, world') →
      outcome.code = 0 → ∀ (config' : Config) (tree : String), ∃ document later,
        (loadDocument (storeOf config' tree (some place))).runIn ⟨world', "", ""⟩ =
          (.ok document, later) := by
  intro hall
  obtain ⟨outcome, world', hrun, hcode⟩ :=
    exists_outcome_lone (by decide +kernel : ((GraphStore.mk "/out/graph.db" .json).save
      (.ofGraph ⟨[], [], .empty⟩ none none) loneWorld.files).1 = .ok ())
  obtain ⟨run', hpassed, rfl⟩ := Action.exists_of_outcome hrun hcode
  let later : Run := ⟨run'.world, "", ""⟩
  obtain ⟨saved, before, -, hsave⟩ : ∃ document before, _ ∧
      (GraphStore.mk "/out/graph.db" .json).save document before = (.ok (), later.world.files) :=
    exists_save_of_generateGraph rfl textsFit_loneWorld hpassed
  have hunreadable : Unreadable (storeOf .standard "/repo" (some "/out/graph.db")) "/repo" later :=
    unreadable_of_save hsave (.inl (by decide +kernel)) _ _
  obtain ⟨document, after, hloads⟩ := hall _ _ _ _ "/out/graph.db" _ _ _ rfl textsFit_loneWorld hrun
    hcode .standard "/repo"
  obtain ⟨failure, hfails⟩ := hunreadable.loadDocument_eq
  rw [hfails] at hloads
  cases hloads

end Command

end CodeAtlas
