import CodeAtlas.Proofs.ContentAddressing
import CodeAtlas.Proofs.Convergence
import CodeAtlas.Proofs.Pipeline.PassedStages

/-!
# Files after an update by version control and snapshot

Where version control is asked without being demanded, its report is combined with the changes since
the snapshot, and the snapshot decides about the paths it mentions. So a stored file that is no longer
collected is deleted, and one that is collected is built anew unless it is as it was stored. What the
report adds to this are paths that the snapshot does not mention. Those that are collected are current
and are built again as they are. The others are not stored and not collected, and they are built as
well: the report is asked only whether the path is accepted, and neither the ignore rules nor the
bounds on the size and the number of files are applied to it. These strays are the only difference to
the files of a fresh build.

## Main definitions

* `ChangeSet.Merges`: the combination of a report with the changes since a snapshot.
* `Builder.Yields`: a path can be extracted and holds the text.
* `Snapshot.Strays`: what a report brings in beside the collected files.

## Main results

* `Update.mem_files_of_merges`: the files after an update with such a combination.
* `Stage.detectChanges_run`: what the stage that finds the changes can do.
* `Pipeline.files_after_detection`: the files after both stages.
* `Pipeline.stray_after_detection`: an ignored file that gets into the graph.
-/

namespace CodeAtlas

/-! ### Combined changes -/

namespace ChangeSet

/-- The changes are those since a snapshot, and those of a report about other paths. -/
structure Merges (report snapshot changes : ChangeSet) : Prop where
  mem_toProcess : ∀ path, path ∈ changes.toProcess ↔
    path ∈ snapshot.toProcess ∨ path ∈ report.toProcess ∧ snapshot.mentions path = false
  mem_deleted : ∀ path, path ∈ changes.deleted ↔
    path ∈ snapshot.deleted ∨ path ∈ report.deleted ∧ snapshot.mentions path = false

theorem merges_union (report snapshot : ChangeSet) :
    Merges report snapshot (report.union snapshot) where
  mem_toProcess := by
    intro path
    have hmodified := mem_pathsOf_union report snapshot path .modified
    have hadded := mem_pathsOf_union report snapshot path .added
    simp only [pathsOf] at hmodified hadded
    simp only [toProcess, List.mem_append, hmodified, hadded]
    rw [or_or_or_comm, ← or_and_right]
  mem_deleted := fun path => mem_pathsOf_union report snapshot path .deleted

/-- Without a report the changes are those since the snapshot. -/
theorem merges_empty (snapshot : ChangeSet) : Merges .empty snapshot snapshot where
  mem_toProcess := by simp [empty, toProcess]
  mem_deleted := by simp [empty]

end ChangeSet

/-! ### Files of the combined changes -/

/-- The file at the path can be extracted, and its text, with line ends normalized, is the given
one. -/
def Builder.Yields (builder : Builder) (fs : FileSystem) (directory path text : String) : Prop :=
  (builder.extractFile fs directory path).isOk = true ∧
    ∃ source, fs.readText (PathText.join directory path) = .ok source ∧
      text = Text.normalizeLines source

/-- A path of the report is neither collected nor stored and yields the text. The file has its path,
with slashes for backslashes. -/
def Snapshot.Strays (builder : Builder) (fs : FileSystem) (directory : String)
    (collected : List String) (files : List SourceFile) (report : ChangeSet) (path text : String) :
    Prop :=
  ∃ reported ∈ report.toProcess, builder.accepts reported = true ∧ reported ∉ collected ∧
    reported ∉ files.map (·.relativePath) ∧ builder.Yields fs directory reported text ∧
    path = Text.replaceChar '\\' '/' reported

section Yields

variable {parser : SyntaxParser} {builder : Builder} {fs : FileSystem} {directory path : String}
  {file : ParsedFile}

/-- What is extracted from a path has its text. -/
theorem Builder.yields_of_extractFile (hregistry : builder.registry = .standard parser)
    (h : builder.extractFile fs directory path = .ok file) :
    builder.Yields fs directory path (builder.fileRecord file).formattedText ∧
      (builder.fileRecord file).relativePath = Text.replaceChar '\\' '/' path := by
  obtain ⟨language, source, root, -, hread, -, heq⟩ := extractFile_standard hregistry h
  refine ⟨⟨by rw [h]; rfl, source, hread, ?_⟩, ?_⟩
  · rw [heq]
    rfl
  · rw [heq]
    rfl

/-- A path that yields a text is a file. -/
theorem Builder.Yields.isFile {text : String} (h : builder.Yields fs directory path text) :
    fs.isFile (PathText.join directory path) = true := by
  obtain ⟨-, source, hread, -⟩ := h
  rw [FileSystem.isFile, FileSystem.content?_of_entry (FileSystem.entry_of_readText hread)]
  rfl

/-- A path that yields a text is extracted with it. -/
theorem Builder.Yields.exists_extractFile {text : String}
    (hregistry : builder.registry = .standard parser)
    (h : builder.Yields fs directory path text) :
    ∃ file, builder.extractFile fs directory path = .ok file ∧
      (builder.fileRecord file).relativePath = Text.replaceChar '\\' '/' path ∧
      (builder.fileRecord file).formattedText = text := by
  obtain ⟨hok, source, hread, rfl⟩ := h
  cases hextract : builder.extractFile fs directory path with
  | error e =>
    rw [hextract] at hok
    cases hok
  | ok file =>
    obtain ⟨⟨-, source', hread', htext⟩, hpath⟩ := yields_of_extractFile hregistry hextract
    obtain rfl := Except.ok.inj (hread.symm.trans hread')
    exact ⟨file, rfl, hpath, htext⟩

end Yields

/-- The changes since a snapshot do not mention what is current, and what is neither collected nor
stored. -/
theorem Snapshot.mentions_changes_eq_false {builder : Builder} {fs : FileSystem}
    {directory path : String} {collected : List String} {files : List SourceFile} :
    (changesTo builder fs directory collected files).mentions path = false ↔
      path ∈ collected ∧ Current builder fs directory files path ∨
        path ∉ collected ∧ path ∉ files.map (·.relativePath) := by
  rw [← Update.bucketOfPath_eq_untouched_iff, Classification.bucketOfPath_eq_untouched,
    mem_toProcess_changes, mem_deleted_changes]
  tauto

namespace Update

variable {parser : SyntaxParser} {contents : Contents} {builder : Builder} {relinkRetained : Bool}
  {fs : FileSystem} {home directory : String} {collected : List String} {previous : CodeGraph}
  {report changes : ChangeSet} {supply : IdSupply} {result : UpdateResult}

/-- The files outside of the combined changes are collected and current, and not in the report. -/
theorem mem_filesOutside_of_merges
    (hmerges : report.Merges
      (Snapshot.changesTo builder fs directory collected previous.files) changes)
    (hpaths : (previous.files.map (·.relativePath)).Nodup)
    (hdeleted : ∀ path ∈ report.deleted, path ∉ collected)
    {file : SourceFile} :
    file ∈ previous.filesOutside changes ↔
      file ∈ previous.files ∧ file.relativePath ∈ collected ∧
        Snapshot.currentId? builder fs directory file.relativePath = some file.id ∧
        file.relativePath ∉ report.toProcess := by
  rw [CodeGraph.filesOutside, List.mem_filter]
  refine and_congr_right fun hfile => ?_
  have hstored : file.relativePath ∈ previous.files.map (·.relativePath) :=
    List.mem_map_of_mem hfile
  have hreported := hdeleted file.relativePath
  rw [← Snapshot.current_iff hpaths hfile, Bool.not_eq_true', ← bucketOfPath_eq_untouched_iff,
    Classification.bucketOfPath_eq_untouched, hmerges.mem_toProcess, hmerges.mem_deleted,
    Snapshot.mentions_changes_eq_false, Snapshot.mem_toProcess_changes,
    Snapshot.mem_deleted_changes]
  tauto

/-- The paths that are built after the combined changes: the collected ones that are not current or
in the report, and what the report adds. -/
theorem mem_rebuildPaths_of_merges
    (hmerges : report.Merges
      (Snapshot.changesTo builder fs directory collected previous.files) changes)
    {path : String} :
    path ∈ rebuildPaths builder fs directory changes ↔
      (path ∈ collected ∧
          (path ∈ report.toProcess ∨ ¬ Snapshot.Current builder fs directory previous.files path) ∨
        path ∈ report.toProcess ∧ path ∉ collected ∧
          path ∉ previous.files.map (·.relativePath)) ∧
      builder.accepts path = true ∧ fs.isFile (PathText.join directory path) = true := by
  rw [rebuildPaths, Text.mem_sortedSet, List.mem_filter, Bool.and_eq_true, hmerges.mem_toProcess,
    Snapshot.mentions_changes_eq_false, Snapshot.mem_toProcess_changes]
  refine and_congr_left fun _ => ?_
  by_cases hcurrent : Snapshot.Current builder fs directory previous.files path <;> tauto

/-- A file is extracted among those of a path that is built. -/
theorem mem_map_rebuiltFiles {path text : String} (hregistry : builder.registry = .standard parser)
    (hpath : path ∈ rebuildPaths builder fs directory changes)
    (hyields : builder.Yields fs directory path text) :
    (Text.replaceChar '\\' '/' path, text) ∈
      ((rebuiltFiles builder fs directory changes).map builder.fileRecord).map
        fun file => (file.relativePath, file.formattedText) := by
  obtain ⟨file, hextract, hfile, rfl⟩ := hyields.exists_extractFile hregistry
  have hmem : file ∈ rebuiltFiles builder fs directory changes :=
    List.mem_filterMap.mpr ⟨path, hpath, by rw [hextract]; rfl⟩
  exact List.mem_map.mpr ⟨_, List.mem_map_of_mem hmem, by rw [hfile]⟩

/-- A stored file has the text that its path yields if it has its identifier. -/
theorem yields_iff_of_currentId? (hregistry : builder.registry = .standard parser)
    (hfree : builder.fingerprint.CollisionFree contents)
    (haddressed : previous.FilesAddressed builder.fingerprint contents)
    (htexts : fs.TextsIn contents directory (previous.files.map (·.relativePath)))
    (hparses : ∀ file ∈ previous.files, ∀ language,
      (parser language file.formattedText).isSome = true)
    {file : SourceFile} (hfile : file ∈ previous.files)
    (haccepts : builder.accepts file.relativePath = true)
    (hcurrent : Snapshot.currentId? builder fs directory file.relativePath = some file.id)
    {text : String} :
    builder.Yields fs directory file.relativePath text ↔ text = file.formattedText := by
  obtain ⟨source, hread, hid⟩ := Snapshot.currentId?_eq_some.mp hcurrent
  obtain ⟨haddress, hstored⟩ := haddressed file hfile
  rw [haddress] at hid
  have hnow := htexts file.relativePath (List.mem_map_of_mem hfile) source hread
  have htext : file.formattedText = Text.normalizeLines source :=
    (hfree _ _ _ _ hstored hnow hid).2
  constructor
  · rintro ⟨-, other, hother, rfl⟩
    obtain rfl := Except.ok.inj (hread.symm.trans hother)
    exact htext.symm
  · rintro rfl
    obtain ⟨extracted, hextract⟩ := Builder.exists_extractFile hregistry haccepts hread
      (htext ▸ hparses file hfile)
    exact ⟨by rw [hextract]; rfl, source, hread, htext⟩

/-- The files after an update with the combined changes are those that are collected and can be
extracted, and the strays of the report. -/
theorem mem_files_of_merges (hregistry : builder.registry = .standard parser)
    (hfree : builder.fingerprint.CollisionFree contents)
    (haddressed : previous.FilesAddressed builder.fingerprint contents)
    (htexts : fs.TextsIn contents directory (previous.files.map (·.relativePath)))
    (hpaths : (previous.files.map (·.relativePath)).Nodup)
    (hparses : ∀ file ∈ previous.files, ∀ language,
      (parser language file.formattedText).isSome = true)
    (hmerges : report.Merges
      (Snapshot.changesTo builder fs directory collected previous.files) changes)
    (hcollected : builder.collectFiles fs home directory = some collected)
    (hdeleted : ∀ path ∈ report.deleted, path ∉ collected)
    (h : update builder relinkRetained fs directory previous changes supply = .ok result)
    {path text : String} :
    (path, text) ∈ result.graph.files.map (fun file => (file.relativePath, file.formattedText)) ↔
      path ∈ collected ∧ builder.Yields fs directory path text ∨
        Snapshot.Strays builder fs directory collected previous.files report path text := by
  rw [files_update (haddressed.nodup_ids hfree hpaths) h, List.map_append, List.mem_append]
  constructor
  · rintro (houtside | hbuilt)
    · obtain ⟨file, hfile, heq⟩ := List.mem_map.mp houtside
      obtain ⟨rfl, rfl⟩ := Prod.mk.inj heq
      obtain ⟨hmem, hthere, hcurrent, -⟩ :=
        (mem_filesOutside_of_merges hmerges hpaths hdeleted).mp hfile
      exact Or.inl ⟨hthere, (yields_iff_of_currentId? hregistry hfree haddressed htexts hparses hmem
        (Builder.of_mem_collectFiles hcollected hthere).1 hcurrent).mpr rfl⟩
    · obtain ⟨record, hrecord, heq⟩ := List.mem_map.mp hbuilt
      obtain ⟨file, hfile, rfl⟩ := List.mem_map.mp hrecord
      obtain ⟨rfl, rfl⟩ := Prod.mk.inj heq
      obtain ⟨reported, hreported, hextract⟩ := Builder.exists_extract_of_mem_extractFiles hfile
      obtain ⟨hyields, hpath⟩ := Builder.yields_of_extractFile hregistry hextract
      obtain ⟨⟨hthere, -⟩ | ⟨hprocess, hgone, hnew⟩, haccepts, -⟩ :=
        (mem_rebuildPaths_of_merges hmerges).mp hreported
      · rw [(Builder.of_mem_collectFiles hcollected hthere).2] at hpath
        rw [hpath]
        exact Or.inl ⟨hthere, hyields⟩
      · exact Or.inr ⟨reported, hprocess, haccepts, hgone, hnew, hyields, hpath⟩
  · rintro (⟨hthere, hyields⟩ | ⟨reported, hprocess, haccepts, hgone, hnew, hyields, rfl⟩)
    · obtain ⟨haccepts, hslashes⟩ := Builder.of_mem_collectFiles hcollected hthere
      by_cases hbuilt : path ∈ report.toProcess ∨
          ¬ Snapshot.Current builder fs directory previous.files path
      · have hpath := (mem_rebuildPaths_of_merges hmerges).mpr
          ⟨Or.inl ⟨hthere, hbuilt⟩, haccepts, hyields.isFile⟩
        have hmem := mem_map_rebuiltFiles hregistry hpath hyields
        rw [hslashes] at hmem
        exact Or.inr hmem
      · obtain ⟨hreport, hcurrent⟩ := not_or.mp hbuilt
        obtain ⟨id, hstored, hnow⟩ := not_not.mp hcurrent
        obtain ⟨file, hfile, rfl, rfl⟩ := (Snapshot.storedId?_eq_some hpaths).mp hstored
        obtain rfl := (yields_iff_of_currentId? hregistry hfree haddressed htexts hparses hfile
          haccepts hnow).mp hyields
        exact Or.inl (List.mem_map.mpr ⟨file, (mem_filesOutside_of_merges hmerges hpaths
          hdeleted).mpr ⟨hfile, hthere, hnow, hreport⟩, rfl⟩)
    · exact Or.inr (mem_map_rebuiltFiles hregistry ((mem_rebuildPaths_of_merges hmerges).mpr
        ⟨Or.inr ⟨hprocess, hgone, hnew⟩, haccepts, hyields.isFile⟩) hyields)

end Update

/-! ### The stages -/

namespace Stage

/-- What version control reports to be combined with the changes since the snapshot: nothing where it
is not asked. -/
def reported (builder : Builder) (container : Container) (world : World) (mode : ChangeDetection)
    (commit : Option String) : Except GitError ChangeSet :=
  match commit with
  | none => .ok .empty
  | some since =>
    if usesGit container world mode commit then (gitChanges builder container world since).1
    else .ok .empty

variable {builder : Builder} {mode : ChangeDetection} {container : Container} {world : World}
  {commit : Option String} {files : List SourceFile} {report : ChangeSet}

/-- Where version control is not demanded, the changes are those since the snapshot, combined with
the report. -/
theorem detectChanges_run (hmode : mode ≠ .git) (hgit : world.GitReads)
    (hfiles : container.files = .ok files) (hcommit : baseCommit container mode none = .ok commit)
    (hreport : reported builder container world mode commit = .ok report) {snapshot : ChangeSet}
    (hsnapshot : Snapshot.changes builder world.files world.home container.repository.path files =
      some snapshot) :
    ∃ changes, (detectChanges mode none builder).run container world =
        (.returned (.ofList [(.changes, .changes changes)]), world) ∧
      report.Merges snapshot changes := by
  simp only [detectChanges, Option.isSome_none, Bool.false_eq_true, ↓reduceIte, hcommit, hfiles,
    bind, Except.bind, pure, Except.pure]
  by_cases huses : usesGit container world mode commit = true
  · obtain ⟨rfl, since, rfl⟩ : mode = .auto ∧ ∃ since, commit = some since := by
      cases mode with
      | auto => exact ⟨rfl, Option.isSome_iff_exists.mp (Bool.and_eq_true _ _ ▸ huses).1⟩
      | git => exact absurd rfl hmode
      | snapshot => exact absurd huses (by simp [usesGit])
    simp only [reported, huses, ↓reduceIte] at hreport
    have hchanges : gitChanges builder container world since = (.ok report, world) :=
      Prod.ext hreport (gitChanges_snd hgit builder container since)
    refine ⟨report.union snapshot, ?_, ChangeSet.merges_union report snapshot⟩
    simp only [huses, ↓reduceIte, hchanges, hsnapshot, Option.map_some]
    rfl
  · obtain rfl : report = .empty := by
      cases commit with
      | none => exact (Except.ok.inj hreport).symm
      | some since =>
        simp only [reported, huses] at hreport
        exact (Except.ok.inj hreport).symm
    refine ⟨snapshot, ?_, ChangeSet.merges_empty snapshot⟩
    simp only [huses, hsnapshot]
    rfl

/-- With nothing asked for but the snapshot there is no report. -/
theorem reported_snapshot : reported builder container world .snapshot commit = .ok .empty := by
  cases commit with
  | none => rfl
  | some since => rfl

end Stage

namespace Pipeline

variable {producers : Producers} {updater : Updater} {mode : ChangeDetection}
  {container : Container} {world : World} {commit : Option String} {previous : CodeGraph}
  {report : ChangeSet}

/-- Both stages are passed, and the graph at the end is that of an update with the combined
changes. -/
theorem run_detection (hmode : mode ≠ .git) (hgit : world.GitReads)
    (hprevious : container.codeGraph = .ok previous)
    (hcommit : Stage.baseCommit container mode none = .ok commit)
    (hreport : Stage.reported updater.builder container world mode commit = .ok report)
    (hdirectory : world.files.isDirectory container.repository.path = true)
    {snapshot : ChangeSet}
    (hsnapshot : Snapshot.changes updater.builder world.files world.home container.repository.path
      previous.files = some snapshot) :
    ∃ changes result final world', report.Merges snapshot changes ∧
      update updater.builder updater.relinkRetained world.files container.repository.path previous
        changes world.supply = .ok result ∧
      (ofStages producers [.detectChanges mode none updater.builder, .updateGraph updater]).run
        container world = (.ok final, .done, world') ∧
      final.codeGraph = .ok result.graph := by
  obtain ⟨-, hfiles, -⟩ := Container.of_codeGraph hprevious
  obtain ⟨changes, hdetected, hmerges⟩ :=
    Stage.detectChanges_run hmode hgit hfiles hcommit hreport hsnapshot
  obtain ⟨result, hupdate⟩ := Update.exists_update_eq_ok updater.builder updater.relinkRetained
    previous changes world.supply hdirectory
  have hdetecting : ∀ known, runStage known 0 (.detectChanges mode none updater.builder) container
      world = (.ok (container.apply (.ofList [(.changes, .changes changes)])), .running 0, world) :=
    fun _ =>
    runStage_of_returned (Stage.missing_detectChanges hmode hfiles hcommit) hdetected
      (Stage.delivers_detectChanges mode none updater.builder changes)
  obtain ⟨final, hrun, -, hgraph, -⟩ := runFrom_detected (hdetecting (ofStages producers
    [.detectChanges mode none updater.builder, .updateGraph updater]).producers) hprevious hupdate
  exact ⟨changes, result, final, _, hmerges, hupdate, hrun, hgraph⟩

/-- After both stages the files are those that are collected and can be extracted, with the texts
they have now. Where version control is asked there are its strays besides. -/
theorem files_after_detection {parser : SyntaxParser} {contents : Contents}
    (hregistry : updater.builder.registry = .standard parser)
    (hfree : updater.builder.fingerprint.CollisionFree contents) (producers : Producers)
    (hmode : mode ≠ .git) (hgit : world.GitReads)
    (hdirectory : world.files.isDirectory container.repository.path = true)
    (hprevious : container.codeGraph = .ok previous)
    (haddressed : previous.FilesAddressed updater.builder.fingerprint contents)
    (htexts : world.files.TextsIn contents container.repository.path
      (previous.files.map (·.relativePath)))
    (hpaths : (previous.files.map (·.relativePath)).Nodup)
    (hparses : ∀ file ∈ previous.files, ∀ language,
      (parser language file.formattedText).isSome = true)
    (hcommit : Stage.baseCommit container mode none = .ok commit)
    (hreport : Stage.reported updater.builder container world mode commit = .ok report)
    {collected : List String}
    (hcollected : updater.builder.collectFiles world.files world.home container.repository.path =
      some collected)
    (hdeleted : ∀ path ∈ report.deleted, path ∉ collected) :
    ∃ final world' graph,
      (ofStages producers [.detectChanges mode none updater.builder, .updateGraph updater]).run
        container world = (.ok final, .done, world') ∧
      final.codeGraph = .ok graph ∧
      ∀ path text,
        (path, text) ∈ graph.files.map (fun file => (file.relativePath, file.formattedText)) ↔
          path ∈ collected ∧
              updater.builder.Yields world.files container.repository.path path text ∨
            mode = .auto ∧ Snapshot.Strays updater.builder world.files container.repository.path
              collected previous.files report path text := by
  have hsnapshot : Snapshot.changes updater.builder world.files world.home
      container.repository.path previous.files = some (Snapshot.changesTo updater.builder world.files
        container.repository.path collected previous.files) := by
    rw [Snapshot.changes, hcollected, Option.map_some]
  obtain ⟨changes, result, final, world', hmerges, hupdate, hrun, hgraph⟩ :=
    run_detection hmode hgit hprevious hcommit hreport hdirectory hsnapshot
  refine ⟨final, world', result.graph, hrun, hgraph, fun path text => ?_⟩
  rw [Update.mem_files_of_merges hregistry hfree haddressed htexts hpaths hparses hmerges hcollected
    hdeleted hupdate]
  refine or_congr_right ⟨fun hstray => ⟨?_, hstray⟩, And.right⟩
  cases mode with
  | auto => rfl
  | git => exact absurd rfl hmode
  | snapshot =>
    obtain rfl := Except.ok.inj (Stage.reported_snapshot.symm.trans hreport)
    obtain ⟨reported, hreported, -⟩ := hstray
    exact absurd hreported List.not_mem_nil

/-! ### An ignored file -/

/-- A working tree under version control with a file that was edited since it was committed, and one
that was never committed and is ignored by the analysis. -/
def strayWorld : World where
  files :=
    { entries :=
        [(["repo"], .directory), (["repo", ".git"], .directory),
          (["repo", ".depgraphignore"], .file (.text "b.py\n")),
          (["repo", "a.py"], .file (.text "x = 2\n")),
          (["repo", "b.py"], .file (.text "y = 1\n"))]
      current := "/" }
  gitAnswers :=
    [⟨["diff", "--name-status", "--no-renames", "-z", "abc"], 0, "M\x00a.py\x00", "", none, []⟩,
      ⟨["ls-files", "--others", "--exclude-standard", "-z"], 0, "b.py\x00", "", none, []⟩]
  supply := ⟨0⟩
  home := "/"

/-- The graph before the edit. -/
def strayGraph : CodeGraph where
  components := []
  files := [⟨Fingerprint.verbatim "a.py" "x = 1\n", "a.py", [], [], [], "x = 1\n"⟩]
  externalSymbols := .empty

/-- The graph and its commit, as they are loaded. -/
def strayContainer : Container where
  repository := .ofPath "/repo" "/store/graph.json"
  attributes :=
    (Attributes.ofGraph strayGraph).insert .previousCommitHash (.optionalText (some "abc"))

/-- What version control says about the tree. -/
def strayReport : ChangeSet :=
  ⟨["a.py"], ["b.py"], []⟩

/-- Builds files without definitions. -/
def strayUpdater : Updater :=
  ⟨Update.mixedBuilder, true⟩

/-- Both stages, with version control and snapshot. -/
def strayPipeline : Pipeline :=
  .ofStages .standard [.detectChanges .auto none strayUpdater.builder, .updateGraph strayUpdater]

theorem reported_stray : Stage.reported strayUpdater.builder strayContainer strayWorld .auto
    (some "abc") = .ok strayReport := by
  decide +kernel

theorem collectFiles_stray : strayUpdater.builder.collectFiles strayWorld.files strayWorld.home
    strayContainer.repository.path = some ["a.py"] := by
  decide +kernel

theorem filesAddressed_stray :
    strayGraph.FilesAddressed strayUpdater.builder.fingerprint .clear := by
  intro file hfile
  obtain rfl := List.mem_singleton.mp hfile
  exact ⟨rfl, show Text.Clear "a.py" by decide⟩

theorem textsIn_stray : strayWorld.files.TextsIn .clear strayContainer.repository.path
    (strayGraph.files.map (·.relativePath)) := by
  intro path hpath _ _
  obtain rfl := List.mem_singleton.mp hpath
  exact show Text.Clear "a.py" by decide

/-- The file that is collected is brought up to date. -/
theorem files_after_detection_edit :
    ∃ final world' graph, strayPipeline.run strayContainer strayWorld = (.ok final, .done, world') ∧
      final.codeGraph = .ok graph ∧
      ∀ text, ("a.py", text) ∈ graph.files.map (fun file =>
        (file.relativePath, file.formattedText)) ↔ text = "x = 2\n" := by
  have hread : strayWorld.files.readText (PathText.join strayContainer.repository.path "a.py") =
      .ok "x = 2\n" := by
    decide +kernel
  have hextracts : (strayUpdater.builder.extractFile strayWorld.files
      strayContainer.repository.path "a.py").isOk = true := by
    decide +kernel
  obtain ⟨final, world', graph, hrun, hgraph, hfiles⟩ := files_after_detection
    (rfl : strayUpdater.builder.registry = .standard Update.mixedParser)
    Fingerprint.collisionFree_verbatim .standard (by decide : ChangeDetection.auto ≠ .git)
    (by decide : strayWorld.GitReads)
    (by decide +kernel : strayWorld.files.isDirectory strayContainer.repository.path = true)
    (rfl : strayContainer.codeGraph = .ok strayGraph) filesAddressed_stray textsIn_stray
    (by decide +kernel) (fun _ _ _ => rfl) rfl reported_stray collectFiles_stray
    (fun _ hpath => absurd hpath List.not_mem_nil)
  refine ⟨final, world', graph, hrun, hgraph, fun text => (hfiles "a.py" text).trans ⟨?_, ?_⟩⟩
  · rintro (⟨-, -, source, hsource, rfl⟩ | ⟨-, reported, hreported, -, hgone, -, -, hpath⟩)
    · obtain rfl := Except.ok.inj (hread.symm.trans hsource)
      decide +kernel
    · simp only [strayReport, ChangeSet.toProcess, List.cons_append, List.nil_append,
        List.mem_cons, List.not_mem_nil, or_false] at hreported
      rcases hreported with rfl | rfl
      · exact absurd (List.mem_singleton_self _) hgone
      · exact absurd hpath (by decide +kernel)
  · rintro rfl
    exact Or.inl ⟨List.mem_singleton_self _, hextracts, "x = 2\n", hread, by decide +kernel⟩

/-- An ignored file that version control reports gets into the graph. -/
theorem stray_after_detection :
    strayGraph.FilesAddressed strayUpdater.builder.fingerprint .clear ∧
    strayWorld.files.TextsIn .clear strayContainer.repository.path
      (strayGraph.files.map (·.relativePath)) ∧
    (strayGraph.files.map (·.relativePath)).Nodup ∧
    Stage.reported strayUpdater.builder strayContainer strayWorld .auto (some "abc") =
      .ok ⟨["a.py"], ["b.py"], []⟩ ∧
    strayUpdater.builder.collectFiles strayWorld.files strayWorld.home
      strayContainer.repository.path = some ["a.py"] ∧
    ∃ final world' graph, strayPipeline.run strayContainer strayWorld = (.ok final, .done, world') ∧
      final.codeGraph = .ok graph ∧ "b.py" ∈ graph.files.map (·.relativePath) := by
  obtain ⟨-, result, final, world', -, -, hrun, hgraph⟩ := run_detection
    (by decide : ChangeDetection.auto ≠ .git) (by decide : strayWorld.GitReads)
    (rfl : strayContainer.codeGraph = .ok strayGraph) rfl reported_stray (by decide +kernel)
    (congrArg (Option.map _) collectFiles_stray)
  have hrun : strayPipeline.run strayContainer strayWorld = (.ok final, .done, world') := hrun
  have hends : (strayPipeline.run strayContainer strayWorld).1.toOption.any (fun final =>
      final.codeGraph.toOption.any fun graph =>
        (graph.files.map (·.relativePath)).contains "b.py") = true := by
    decide +kernel
  rw [hrun] at hends
  simp only [Except.toOption, Option.any_some, hgraph, List.contains_iff_mem] at hends
  exact ⟨filesAddressed_stray, textsIn_stray, by decide +kernel, reported_stray, collectFiles_stray,
    final, world', result.graph, hrun, hgraph, hends⟩

end Pipeline

end CodeAtlas
