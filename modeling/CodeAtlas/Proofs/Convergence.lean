import CodeAtlas.Proofs.Frame
import CodeAtlas.Proofs.Snapshot

/-!
# One update is enough

The changes since a snapshot are found by comparing identifiers: the one a path is stored with, and
the one its text gives it now. An update keeps the stored files whose two identifiers agree and
builds the others, and what it builds has the identifier that was computed for the comparison. So
after the update the stored files are those that are there and can be read, with the identifiers
they have now, whatever was stored before. A second comparison then finds nothing but the files that
cannot be read, which it takes for added ones each time.

## Main definitions

* `Snapshot.UpToDate`: the stored files are those that can be read now.

## Main results

* `Snapshot.UpToDate.changes`: the changes since files that are up to date.
* `Update.upToDate_update`: the files after an update with the changes since a snapshot.
* `Update.snapshot_converges`: both together.
-/

namespace CodeAtlas

/-! ### The single changes -/

namespace Snapshot

variable {builder : Builder} {fs : FileSystem} {directory : String} {current : List String}
  {files : List SourceFile} {path : String} {id : FileId}

theorem mem_modified_changes :
    path ∈ (changesTo builder fs directory current files).modified ↔
      path ∈ current ∧
        ∃ stored, storedId? files path = some stored ∧
          currentId? builder fs directory path ≠ some stored := by
  simp only [changesTo, ChangeSet.ofChanges, Text.mem_sortedSet, ChangeSet.mem_pathsWith,
    List.mem_append, List.mem_filterMap, List.mem_map]
  constructor
  · rintro (⟨p, hp, hchange⟩ | ⟨p, -, heq⟩)
    · unfold changeOf at hchange
      split at hchange
      · simp at hchange
      · rename_i stored hstored
        split_ifs at hchange with hcurrent
        obtain rfl : p = path := (FileChange.mk.inj (Option.some.inj hchange)).1
        exact ⟨hp, stored, hstored, hcurrent⟩
    · simp at heq
  · rintro ⟨hpath, stored, hstored, hcurrent⟩
    refine Or.inl ⟨path, hpath, ?_⟩
    simp only [changeOf, hstored, if_neg hcurrent]

theorem mem_added_changes :
    path ∈ (changesTo builder fs directory current files).added ↔
      path ∈ current ∧ storedId? files path = none := by
  simp only [changesTo, ChangeSet.ofChanges, Text.mem_sortedSet, ChangeSet.mem_pathsWith,
    List.mem_append, List.mem_filterMap, List.mem_map]
  constructor
  · rintro (⟨p, hp, hchange⟩ | ⟨p, -, heq⟩)
    · unfold changeOf at hchange
      split at hchange
      · rename_i hnone
        obtain rfl : p = path := (FileChange.mk.inj (Option.some.inj hchange)).1
        exact ⟨hp, hnone⟩
      · split_ifs at hchange
        simp at hchange
    · simp at heq
  · rintro ⟨hpath, hnone⟩
    refine Or.inl ⟨path, hpath, ?_⟩
    simp only [changeOf, hnone]

/-! ### Identifiers -/

/-- The identifier a path has now comes from its text. -/
theorem currentId?_eq_some :
    currentId? builder fs directory path = some id ↔
      ∃ source, fs.readText (PathText.join directory path) = .ok source ∧
        id = builder.fingerprint path (Text.normalizeLines source) := by
  unfold currentId?
  cases fs.readText (PathText.join directory path) with
  | error e => simp
  | ok source => simp [eq_comm]

theorem currentId?_eq_none :
    currentId? builder fs directory path = none ↔
      ∀ source, fs.readText (PathText.join directory path) ≠ .ok source := by
  unfold currentId?
  cases fs.readText (PathText.join directory path) with
  | error e => simp
  | ok source => simp

/-! ### Files that are up to date -/

/-- The files are those that are there now and can be read, each once and with the identifier of its
text. -/
structure UpToDate (builder : Builder) (fs : FileSystem) (directory : String)
    (current : List String) (files : List SourceFile) : Prop where
  nodup : (files.map (·.relativePath)).Nodup
  mem_iff : ∀ path id, (path, id) ∈ files.map (fun file => (file.relativePath, file.id)) ↔
    path ∈ current ∧
      ∃ source, fs.readText (PathText.join directory path) = .ok source ∧
        id = builder.fingerprint path (Text.normalizeLines source)

namespace UpToDate

theorem storedId?_eq_some_iff (h : UpToDate builder fs directory current files) :
    storedId? files path = some id ↔
      path ∈ current ∧
        currentId? builder fs directory path = some id := by
  rw [storedId?_eq_some h.nodup, currentId?_eq_some, ← h.mem_iff]
  simp only [List.mem_map, Prod.mk.injEq]

/-- Since files that are up to date, only what cannot be read has changed. -/
theorem changes (h : UpToDate builder fs directory current files) :
    (Snapshot.changesTo builder fs directory current files).modified = [] ∧
    (Snapshot.changesTo builder fs directory current files).deleted = [] ∧
    ∀ path, path ∈ (Snapshot.changesTo builder fs directory current files).added ↔
      path ∈ current ∧
        ∀ source, fs.readText (PathText.join directory path) ≠ .ok source := by
  refine ⟨List.eq_nil_iff_forall_not_mem.mpr fun path hpath => ?_,
    List.eq_nil_iff_forall_not_mem.mpr fun path hpath => ?_, fun path => ?_⟩
  · obtain ⟨-, stored, hstored, hcurrent⟩ := mem_modified_changes.mp hpath
    exact hcurrent (h.storedId?_eq_some_iff.mp hstored).2
  · obtain ⟨hstored, hgone⟩ := mem_deleted_changes.mp hpath
    obtain ⟨file, hfile, rfl⟩ := List.mem_map.mp hstored
    exact hgone ((h.mem_iff _ file.id).mp (List.mem_map_of_mem hfile)).1
  · rw [mem_added_changes, ← currentId?_eq_none]
    refine and_congr_right fun hpath => ?_
    rw [Option.eq_none_iff_forall_ne_some, Option.eq_none_iff_forall_ne_some]
    refine forall_congr' fun id => not_congr ?_
    rw [h.storedId?_eq_some_iff]
    exact ⟨fun hid => hid.2, fun hid => ⟨hpath, hid⟩⟩

end UpToDate

end Snapshot

/-! ### What is built -/

/-- A file that can be read and parsed is extracted, with its path and its normalized text. -/
theorem Builder.exists_extractFile {parser : SyntaxParser} {builder : Builder} {fs : FileSystem}
    {directory path source : String} (hregistry : builder.registry = .standard parser)
    (haccepts : builder.accepts path = true)
    (hread : fs.readText (PathText.join directory path) = .ok source)
    (hparses : ∀ language, (parser language (Text.normalizeLines source)).isSome = true) :
    ∃ file, builder.extractFile fs directory path = .ok file := by
  have hsupports : (builder.registry.forPath? path).isSome = true :=
    (Bool.and_eq_true _ _ ▸ haccepts).1
  obtain ⟨extractor, hextractor⟩ := Option.isSome_iff_exists.mp hsupports
  have hstandard := hextractor
  rw [hregistry] at hstandard
  obtain ⟨language, -, -, -, rfl⟩ := Registry.exists_language_of_forPath? hstandard
  obtain ⟨root, hroot⟩ := Option.isSome_iff_exists.mp (hparses language)
  refine ⟨Extraction.extract language path (Text.normalizeLines source) root, ?_⟩
  simp only [extractFile, hextractor, hread, Extractor.ofLanguage, hroot]

/-- A file is built with the path it is collected under and the identifier it has now. -/
theorem Builder.fileRecord_of_extractFile {parser : SyntaxParser} {builder : Builder}
    {fs : FileSystem} {directory path : String} {file : ParsedFile}
    (hregistry : builder.registry = .standard parser)
    (hslashes : Text.replaceChar '\\' '/' path = path)
    (h : builder.extractFile fs directory path = .ok file) :
    (builder.fileRecord file).relativePath = path ∧
      Snapshot.currentId? builder fs directory path = some (builder.fileRecord file).id := by
  obtain ⟨language, source, root, -, hread, -, rfl⟩ := extractFile_standard hregistry h
  refine ⟨hslashes, Snapshot.currentId?_eq_some.mpr ⟨source, hread, ?_⟩⟩
  exact congrArg (builder.fingerprint · (Text.normalizeLines source)) hslashes

namespace Update

/-- The files of an update are those outside of the changes and those that were built, also when
nothing has changed. -/
theorem files_update {builder : Builder} {relinkRetained : Bool} {fs : FileSystem}
    {directory : String} {previous : CodeGraph} {changes : ChangeSet} {supply : IdSupply}
    {result : UpdateResult} (hids : (previous.files.map (·.id)).Nodup)
    (h : update builder relinkRetained fs directory previous changes supply = .ok result) :
    result.graph.files = previous.filesOutside changes ++
      (rebuiltFiles builder fs directory changes).map builder.fileRecord := by
  rcases update_eq_ok h with ⟨hnone, hsame, -⟩ | ⟨-, rfl⟩
  · obtain ⟨⟨hmodified, hadded⟩, hdeleted⟩ :
        (changes.modified = [] ∧ changes.added = []) ∧ changes.deleted = [] := by
      simpa [ChangeSet.hasChanges, and_assoc] using hnone
    have houtside : previous.filesOutside changes = previous.files := by
      refine List.filter_eq_self.mpr fun file _ => ?_
      simp [ChangeSet.mentions, hmodified, hadded, hdeleted]
    have hrebuilt : rebuiltFiles builder fs directory changes = [] := by
      simp [rebuiltFiles, rebuildPaths, ChangeSet.toProcess, hmodified, hadded, Text.sortedSet,
        Builder.extractFiles]
    rw [hsame, houtside, hrebuilt, List.map_nil, List.append_nil]
  · rw [graph_apply, untouchedFiles_eq_filesOutside hids]
    rfl

section Snapshot

variable {parser : SyntaxParser} {builder : Builder} {fs : FileSystem} {home directory : String}
  {current : List String} {previous : CodeGraph} {path : String} {id : FileId}

/-- The files outside of the changes are stored with the identifiers they have now. -/
theorem mem_filesOutside_changes (hpaths : (previous.files.map (·.relativePath)).Nodup)
    {file : SourceFile} :
    file ∈ previous.filesOutside (Snapshot.changesTo builder fs directory current previous.files) ↔
      file ∈ previous.files ∧ file.relativePath ∈ current ∧
        Snapshot.currentId? builder fs directory file.relativePath = some file.id := by
  rw [CodeGraph.filesOutside, List.mem_filter]
  refine and_congr_right fun hfile => ?_
  rw [Bool.not_eq_true', ← bucketOfPath_eq_untouched_iff,
    Snapshot.bucketOfPath_eq_untouched (List.mem_map_of_mem hfile)]
  exact and_congr_right fun _ => Snapshot.current_iff hpaths hfile

/-- What is built are the paths that are collected, not current, and can be read, with the
identifiers they have now. -/
theorem mem_rebuiltFiles_changes {files : List SourceFile}
    (hregistry : builder.registry = .standard parser)
    (hcollected : builder.collectFiles fs home directory = some current)
    (hparses : ∀ path ∈ current, ∀ source,
      fs.readText (PathText.join directory path) = .ok source →
        ∀ language, (parser language (Text.normalizeLines source)).isSome = true) :
    (∃ record ∈ (rebuiltFiles builder fs directory
        (Snapshot.changesTo builder fs directory current files)).map builder.fileRecord,
      record.relativePath = path ∧ record.id = id) ↔
    path ∈ current ∧
      ¬ Snapshot.Current builder fs directory files path ∧
      Snapshot.currentId? builder fs directory path = some id := by
  constructor
  · rintro ⟨record, hrecord, rfl, rfl⟩
    obtain ⟨file, hfile, rfl⟩ := List.mem_map.mp hrecord
    obtain ⟨p, hp, hextract⟩ := Builder.exists_extract_of_mem_extractFiles hfile
    obtain ⟨hthere, hcurrent, -⟩ := (mem_rebuildPaths_changes hcollected).mp hp
    obtain ⟨rfl, hid⟩ := Builder.fileRecord_of_extractFile hregistry
      (Builder.of_mem_collectFiles hcollected hthere).2 hextract
    exact ⟨hthere, hcurrent, hid⟩
  · rintro ⟨hthere, hcurrent, hid⟩
    obtain ⟨source, hread, -⟩ := Snapshot.currentId?_eq_some.mp hid
    obtain ⟨haccepts, hslashes⟩ := Builder.of_mem_collectFiles hcollected hthere
    obtain ⟨file, hextract⟩ :=
      Builder.exists_extractFile hregistry haccepts hread (hparses path hthere source hread)
    have hisFile : fs.isFile (PathText.join directory path) = true := by
      rw [FileSystem.isFile, FileSystem.content?_of_entry (FileSystem.entry_of_readText hread)]
      rfl
    have hbuilt : file ∈ rebuiltFiles builder fs directory
        (Snapshot.changesTo builder fs directory current files) :=
      List.mem_filterMap.mpr ⟨path,
        (mem_rebuildPaths_changes hcollected).mpr ⟨hthere, hcurrent, hisFile⟩, by rw [hextract]; rfl⟩
    obtain ⟨hpath, hrecordId⟩ := Builder.fileRecord_of_extractFile hregistry hslashes hextract
    rw [hid] at hrecordId
    exact ⟨_, List.mem_map_of_mem hbuilt, hpath, (Option.some.inj hrecordId).symm⟩

/-- After an update with the changes since a snapshot, the files are up to date. -/
theorem upToDate_update {relinkRetained : Bool} {supply : IdSupply} {result : UpdateResult}
    (hregistry : builder.registry = .standard parser)
    (hcollected : builder.collectFiles fs home directory = some current)
    (hparses : ∀ path ∈ current, ∀ source,
      fs.readText (PathText.join directory path) = .ok source →
        ∀ language, (parser language (Text.normalizeLines source)).isSome = true)
    (hpaths : (previous.files.map (·.relativePath)).Nodup)
    (hids : (previous.files.map (·.id)).Nodup)
    (h : update builder relinkRetained fs directory previous
      (Snapshot.changesTo builder fs directory current previous.files) supply = .ok result) :
    Snapshot.UpToDate builder fs directory current result.graph.files := by
  have hstored : ∀ {path id}, Snapshot.storedId? previous.files path = some id ↔
      ∃ file ∈ previous.files, file.relativePath = path ∧ file.id = id :=
    Snapshot.storedId?_eq_some hpaths
  rw [files_update hids h]
  refine ⟨?_, fun path id => ?_⟩
  · have hrebuilt : (((rebuiltFiles builder fs directory (Snapshot.changesTo builder fs
        directory current previous.files)).map builder.fileRecord).map (·.relativePath)).Nodup := by
      rw [List.map_map]
      exact Builder.nodup_relativePath_extractFiles hregistry (fun path hpath =>
        (Builder.of_mem_collectFiles hcollected
          ((mem_rebuildPaths_changes hcollected).mp hpath).1).2) (Text.nodup_sortedSet _)
    rw [List.map_append, List.nodup_append]
    refine ⟨hpaths.sublist (List.filter_sublist.map _), hrebuilt, ?_⟩
    rintro path hkept _ hbuilt rfl
    obtain ⟨file, hfile, rfl⟩ := List.mem_map.mp hkept
    obtain ⟨record, hrecord, hpath⟩ := List.mem_map.mp hbuilt
    obtain ⟨hmem, -, hcurrent⟩ := (mem_filesOutside_changes hpaths).mp hfile
    obtain ⟨-, hnot, -⟩ := (mem_rebuiltFiles_changes hregistry hcollected hparses).mp
      ⟨record, hrecord, hpath, rfl⟩
    exact hnot ⟨file.id, hstored.mpr ⟨file, hmem, rfl, rfl⟩, hcurrent⟩
  · have hsplit : (path, id) ∈ (previous.filesOutside (Snapshot.changesTo builder fs directory
          current previous.files) ++ (rebuiltFiles builder fs directory (Snapshot.changesTo builder fs
          directory current previous.files)).map builder.fileRecord).map
            (fun file => (file.relativePath, file.id)) ↔
        (∃ file ∈ previous.filesOutside
            (Snapshot.changesTo builder fs directory current previous.files),
          file.relativePath = path ∧ file.id = id) ∨
        ∃ record ∈ (rebuiltFiles builder fs directory (Snapshot.changesTo builder fs
          directory current previous.files)).map builder.fileRecord,
          record.relativePath = path ∧ record.id = id := by
      rw [List.mem_map]
      simp only [Prod.mk.injEq, List.mem_append, or_and_right, exists_or]
    rw [hsplit, mem_rebuiltFiles_changes hregistry hcollected hparses,
      ← Snapshot.currentId?_eq_some]
    constructor
    · rintro (⟨file, hfile, rfl, rfl⟩ | ⟨hthere, -, hid⟩)
      · exact ((mem_filesOutside_changes hpaths).mp hfile).2
      · exact ⟨hthere, hid⟩
    · rintro ⟨hthere, hid⟩
      by_cases hcurrent : Snapshot.Current builder fs directory previous.files path
      · obtain ⟨stored, hfound, hnow⟩ := hcurrent
        obtain ⟨file, hfile, rfl, rfl⟩ := hstored.mp hfound
        rw [hid] at hnow
        exact Or.inl ⟨file, (mem_filesOutside_changes hpaths).mpr
          ⟨hfile, hthere, Option.some.inj hnow ▸ hid⟩, rfl, (Option.some.inj hnow).symm⟩
      · exact Or.inr ⟨hthere, hcurrent, hid⟩

/-- The changes are found unless collecting the files breaks off. -/
theorem changes_eq_none {files : List SourceFile} :
    Snapshot.changes builder fs home directory files = none ↔
      0x40000000000000 ≤ builder.config.maxFileSizeKb ∧
        ∃ file ∈ Builder.walkedFiles fs home directory, builder.accepts file.1 = true := by
  rw [Snapshot.changes, Option.map_eq_none_iff, Builder.collectFiles, BuilderConfig.collect,
    Option.map_eq_none_iff, BuilderConfig.select_eq_none]

/-- A graph is brought up to date in one step. Where the files can be collected, which fails exactly
for an accepted file under a limit of `2 ^ 54` kibibytes or more, an update with the changes since
the files of the graph were stored, whichever they are, succeeds and leaves exactly the files that
are collected and can be read, each once and with the identifier of its path and its text. The
changes since then are that all files which cannot be read are added. -/
theorem snapshot_converges (hregistry : builder.registry = .standard parser)
    (hdirectory : fs.isDirectory directory = true)
    (hparses : ∀ current, builder.collectFiles fs home directory = some current →
      ∀ path ∈ current, ∀ source, fs.readText (PathText.join directory path) = .ok source →
        ∀ language, (parser language (Text.normalizeLines source)).isSome = true)
    (hpaths : (previous.files.map (·.relativePath)).Nodup)
    (hids : (previous.files.map (·.id)).Nodup) (relinkRetained : Bool) (supply : IdSupply) :
    (Snapshot.changes builder fs home directory previous.files = none ↔
      0x40000000000000 ≤ builder.config.maxFileSizeKb ∧
        ∃ file ∈ Builder.walkedFiles fs home directory, builder.accepts file.1 = true) ∧
    ∀ changes, Snapshot.changes builder fs home directory previous.files = some changes →
      ∃ current result again, builder.collectFiles fs home directory = some current ∧
        update builder relinkRetained fs directory previous changes supply = .ok result ∧
        (result.graph.files.map (·.relativePath)).Nodup ∧
        (∀ path id,
          (path, id) ∈ result.graph.files.map (fun file => (file.relativePath, file.id)) ↔
            path ∈ current ∧
              ∃ source, fs.readText (PathText.join directory path) = .ok source ∧
                id = builder.fingerprint path (Text.normalizeLines source)) ∧
        Snapshot.changes builder fs home directory result.graph.files = some again ∧
        again.modified = [] ∧ again.deleted = [] ∧
        ∀ path, path ∈ again.added ↔
          path ∈ current ∧ ∀ source, fs.readText (PathText.join directory path) ≠ .ok source := by
  refine ⟨changes_eq_none, fun changes hchanges => ?_⟩
  obtain ⟨current, hcollected, rfl⟩ := Option.map_eq_some_iff.mp hchanges
  obtain ⟨result, hupdate⟩ := exists_update_eq_ok builder relinkRetained previous
    (Snapshot.changesTo builder fs directory current previous.files) supply hdirectory
  have huptodate :=
    upToDate_update hregistry hcollected (hparses current hcollected) hpaths hids hupdate
  refine ⟨current, result, Snapshot.changesTo builder fs directory current result.graph.files,
    hcollected, hupdate, huptodate.nodup, huptodate.mem_iff, ?_, huptodate.changes⟩
  rw [Snapshot.changes, hcollected, Option.map_some]

/-- A file with the line ends of another system, and one that is no text. -/
def mixedTree : FileSystem where
  entries := [(["repo"], .directory), (["repo", "a.py"], .file (.text "x = 1\r\n")),
    (["repo", "b.py"], .file (.text "y = 2\n")), (["repo", "c.py"], .file (.binary [255]))]
  current := "/"

/-- A parser that finds no definitions. -/
def mixedParser : SyntaxParser :=
  fun _ text => some (.mk "module" ⟨0, text.utf8ByteSize⟩ true "" [])

/-- A builder with this parser. -/
def mixedBuilder : Builder where
  config := .standard
  registry := .standard mixedParser
  fingerprint := .verbatim
  excluded := []

/-- A graph with a file as it is in the tree, one that is stale, and one that the tree never had. -/
def mixedGraph : CodeGraph where
  components := []
  files := [⟨Fingerprint.verbatim "a.py" "x = 1\n", "a.py", [], [], [], "x = 1\n"⟩,
    ⟨Fingerprint.verbatim "b.py" "y = 1\n", "b.py", [], [], [], "y = 1\n"⟩,
    ⟨Fingerprint.verbatim "lib/z.rs" "", "lib/z.rs", [], [], [], ""⟩]
  externalSymbols := .empty

theorem snapshot_converges_mixed :
    ∃ changes result again, Snapshot.changes mixedBuilder mixedTree "/" "/repo" mixedGraph.files =
        some changes ∧
      update mixedBuilder false mixedTree "/repo" mixedGraph changes ⟨0⟩ = .ok result ∧
      ("b.py", Fingerprint.verbatim "b.py" "y = 2\n") ∈
        result.graph.files.map (fun file => (file.relativePath, file.id)) ∧
      Snapshot.changes mixedBuilder mixedTree "/" "/repo" result.graph.files = some again ∧
      again.modified = [] ∧ again.deleted = [] ∧ "c.py" ∈ again.added := by
  have hunreadable : (mixedTree.readText (PathText.join "/repo" "c.py")).isOk = false := by
    decide +kernel
  obtain ⟨hnone, hconverges⟩ :=
    snapshot_converges (rfl : mixedBuilder.registry = .standard mixedParser)
      (by decide +kernel : mixedTree.isDirectory "/repo" = true) (fun _ _ _ _ _ _ _ => rfl)
      (by decide +kernel : (mixedGraph.files.map (·.relativePath)).Nodup) (by decide +kernel) false
      ⟨0⟩
  have hfound : Snapshot.changes mixedBuilder mixedTree "/" "/repo" mixedGraph.files ≠ none :=
    fun h => absurd (hnone.mp h).1 (by decide)
  obtain ⟨changes, hchanges⟩ := Option.ne_none_iff_exists'.mp hfound
  obtain ⟨current, result, again, hcollected, hupdate, -, hfiles, hagain, hmodified, hdeleted,
    hadded⟩ := hconverges changes hchanges
  have hthere : ∀ path ∈ ["b.py", "c.py"], path ∈ current := by
    obtain ⟨selected, hselected, rfl⟩ := BuilderConfig.collect_eq_some hcollected
    rw [BuilderConfig.select_eq_some hselected]
    intro path hpath
    rw [show mixedBuilder.config.maxFiles = none from rfl, Option.getD_none, List.take_length]
    refine (Text.sortBy_perm id _).mem_iff.mpr ?_
    revert path
    decide +kernel
  refine ⟨changes, result, again, hchanges, hupdate, (hfiles _ _).mpr ⟨hthere _ (by decide),
    "y = 2\n", by decide +kernel, by decide +kernel⟩, hagain, hmodified, hdeleted,
    (hadded "c.py").mpr ⟨hthere _ (by decide), ?_⟩⟩
  intro source hread
  rw [hread] at hunreadable
  cases hunreadable

/-- The same builder under a limit of `2 ^ 54` kibibytes. -/
def hugeBuilder : Builder :=
  { mixedBuilder with config := { BuilderConfig.standard with maxFileSizeKb := 0x40000000000000 } }

/-- Under this limit no changes are found, although the only file is read and parsed, and nothing
was stored before. -/
theorem changes_hugeLimit :
    Builder.walkedFiles Builder.smallTree "/" "/repo" = [("a.py", 6)] ∧
    Builder.smallTree.readText (PathText.join "/repo" "a.py") = .ok "x = 1\n" ∧
    (∀ language, (mixedParser language (Text.normalizeLines "x = 1\n")).isSome = true) ∧
    hugeBuilder.config.maxFileSizeKb < 0x10000000000000000 ∧
    Snapshot.changes hugeBuilder Builder.smallTree "/" "/repo" [] = none := by
  refine ⟨by decide +kernel, by decide +kernel, fun _ => rfl, by decide, ?_⟩
  decide +kernel

end Snapshot

end Update

end CodeAtlas
