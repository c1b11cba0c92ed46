import CodeAtlas.Proofs.ChangeSets
import CodeAtlas.Proofs.Collecting
import CodeAtlas.Proofs.Portrait
import CodeAtlas.Snapshot

/-!
# The changes since a snapshot

Comparing a working tree with the files of a graph gives a change for every path that is there now
and is not stored with the identifier it has now, and for every stored path that is gone. An update
with these changes keeps a file exactly if it would be extracted again as it is. So the files of the
graph are afterwards those that a fresh build extracts, those that could not be extracted included.

## Main definitions

* `Snapshot.Current`: the path is stored with the identifier it has now.

## Main results

* `Snapshot.mem_toProcess_changes`, `Snapshot.mem_deleted_changes`: the changes.
* `Builder.extractFile_of_current`: a file that is current is extracted as it was.
* `Update.mem_nextFiles_changesSince`: the files after the update are those of a fresh build.
-/

namespace CodeAtlas

/-! ### Collected paths -/

/-- A collected path is accepted, and its slashes are spelled as in the extracted file. -/
theorem Builder.of_mem_collectFiles {builder : Builder} {fs : FileSystem}
    {home directory path : String} {collected : List String}
    (hcollected : builder.collectFiles fs home directory = some collected)
    (h : path ∈ collected) :
    builder.accepts path = true ∧ Text.replaceChar '\\' '/' path = path := by
  obtain ⟨haccepts, size, hwalked⟩ := BuilderConfig.mem_of_collect hcollected h
  refine ⟨haccepts, ?_⟩
  unfold walkedFiles at hwalked
  split at hwalked
  · exact absurd hwalked List.not_mem_nil
  · obtain ⟨⟨location, content⟩, -, heq⟩ := List.mem_map.mp hwalked
    obtain ⟨rfl, -⟩ := Prod.mk.inj heq
    exact Text.replaceChar_replaceChar _

/-! ### The changes -/

namespace Snapshot

variable {builder : Builder} {fs : FileSystem} {directory : String} {current : List String}
  {files : List SourceFile} {path : String}

/-- The path is stored with the identifier it has now. -/
def Current (builder : Builder) (fs : FileSystem) (directory : String) (files : List SourceFile)
    (path : String) : Prop :=
  ∃ id, storedId? files path = some id ∧ currentId? builder fs directory path = some id

theorem changeOf_eq_none : changeOf builder fs directory files path = none ↔
    Current builder fs directory files path := by
  unfold changeOf Current
  cases storedId? files path with
  | none => simp
  | some stored => simp

theorem changeOf_eq_some {change : FileChange}
    (h : changeOf builder fs directory files path = some change) :
    change = ⟨path, .added⟩ ∨ change = ⟨path, .modified⟩ := by
  unfold changeOf at h
  split at h
  · exact Or.inl (Option.some.inj h).symm
  · split_ifs at h
    exact Or.inr (Option.some.inj h).symm

/-- The paths to be extracted again are those that are there now and not current. -/
theorem mem_toProcess_changes :
    path ∈ (changesTo builder fs directory current files).toProcess ↔
      path ∈ current ∧
        ¬ Current builder fs directory files path := by
  simp only [ChangeSet.toProcess, changesTo, ChangeSet.ofChanges, List.mem_append,
    Text.mem_sortedSet, ChangeSet.mem_pathsWith, List.mem_filterMap, List.mem_map]
  constructor
  · rintro ((⟨p, hp, hchange⟩ | ⟨p, -, heq⟩) | (⟨p, hp, hchange⟩ | ⟨p, -, heq⟩))
    · obtain heq | heq := changeOf_eq_some hchange
      · simp at heq
      · obtain rfl : path = p := (FileChange.mk.inj heq).1
        exact ⟨hp, fun hcurrent => by simp [changeOf_eq_none.mpr hcurrent] at hchange⟩
    · simp at heq
    · obtain heq | heq := changeOf_eq_some hchange
      · obtain rfl : path = p := (FileChange.mk.inj heq).1
        exact ⟨hp, fun hcurrent => by simp [changeOf_eq_none.mpr hcurrent] at hchange⟩
      · simp at heq
    · simp at heq
  · rintro ⟨hpath, hcurrent⟩
    cases hchange : changeOf builder fs directory files path with
    | none => exact absurd (changeOf_eq_none.mp hchange) hcurrent
    | some change =>
      obtain rfl | rfl := changeOf_eq_some hchange
      · exact Or.inr (Or.inl ⟨path, hpath, hchange⟩)
      · exact Or.inl (Or.inl ⟨path, hpath, hchange⟩)

/-- The deleted paths are those that are stored and gone. -/
theorem mem_deleted_changes :
    path ∈ (changesTo builder fs directory current files).deleted ↔
      path ∈ files.map (·.relativePath) ∧ path ∉ current := by
  simp only [changesTo, ChangeSet.ofChanges, Text.mem_sortedSet, ChangeSet.mem_pathsWith,
    List.mem_append, List.mem_filterMap]
  constructor
  · rintro (⟨p, -, hchange⟩ | hgone)
    · obtain heq | heq := changeOf_eq_some hchange <;> simp at heq
    · obtain ⟨p, hp, heq⟩ := List.mem_map.mp hgone
      obtain rfl : p = path := (FileChange.mk.inj heq).1
      simpa using hp
  · rintro ⟨hstored, hgone⟩
    exact Or.inr (List.mem_map.mpr ⟨path, List.mem_filter.mpr ⟨hstored, by simpa using hgone⟩, rfl⟩)

/-- A stored path is untouched when it is there now and current. -/
theorem bucketOfPath_eq_untouched (hstored : path ∈ files.map (·.relativePath)) :
    Classification.bucketOfPath (changesTo builder fs directory current files) path = .untouched ↔
      path ∈ current ∧ Current builder fs directory files path := by
  rw [Classification.bucketOfPath_eq_untouched, mem_toProcess_changes, mem_deleted_changes]
  constructor
  · rintro ⟨hprocess, hdeleted⟩
    have hthere : path ∈ current := by
      by_contra hgone
      exact hdeleted ⟨hstored, hgone⟩
    refine ⟨hthere, ?_⟩
    by_contra hcurrent
    exact hprocess ⟨hthere, hcurrent⟩
  · rintro ⟨hthere, hcurrent⟩
    exact ⟨fun hprocess => hprocess.2 hcurrent, fun hdeleted => hdeleted.2 hthere⟩

/-- A stored identifier is that of a file with the path. -/
theorem exists_of_storedId? {id : FileId} (h : storedId? files path = some id) :
    ∃ file ∈ files, file.relativePath = path ∧ file.id = id := by
  obtain ⟨file, hfound, rfl⟩ := Option.map_eq_some_iff.mp h
  have hpath := List.find?_some hfound
  exact ⟨file, List.mem_reverse.mp (List.mem_of_find?_eq_some hfound), beq_iff_eq.mp hpath, rfl⟩

/-- Where the paths are distinct, each is stored with the identifier of its file. -/
theorem storedId?_eq_some (hpaths : (files.map (·.relativePath)).Nodup) {id : FileId} :
    storedId? files path = some id ↔
      ∃ file ∈ files, file.relativePath = path ∧ file.id = id := by
  refine ⟨exists_of_storedId?, ?_⟩
  rintro ⟨file, hfile, rfl, rfl⟩
  have hreversed : (files.reverse.map (·.relativePath)).Nodup := by
    rw [List.map_reverse]
    exact List.nodup_reverse.mpr hpaths
  rw [storedId?, Keyed.find?_eq_some _ hreversed (List.mem_reverse.mpr hfile), Option.map_some]

/-- Where the paths are distinct, a file is current if it is stored with the identifier it has
now. -/
theorem current_iff (hpaths : (files.map (·.relativePath)).Nodup) {file : SourceFile}
    (hfile : file ∈ files) :
    Current builder fs directory files file.relativePath ↔
      currentId? builder fs directory file.relativePath = some file.id := by
  have hstored : storedId? files file.relativePath = some file.id :=
    (storedId?_eq_some hpaths).mpr ⟨file, hfile, rfl, rfl⟩
  simp [Current, hstored]

end Snapshot

/-! ### Files that are current -/

section Files

variable {parser : SyntaxParser} {fingerprint : Fingerprint} {contents : Contents}
  {builder : Builder} {fs : FileSystem} {home directory : String} {files : List ParsedFile}

/-- The texts that can be read at the paths are among the contents. -/
def FileSystem.TextsIn (contents : Contents) (fs : FileSystem) (directory : String)
    (paths : List String) : Prop :=
  ∀ path ∈ paths, ∀ text, fs.readText (PathText.join directory path) = .ok text →
    contents path (Text.normalizeLines text)

/-- A file that has the identifier now is extracted as it was. -/
theorem Builder.extractFile_of_current (hfree : builder.fingerprint.CollisionFree contents)
    (hregistry : builder.registry = .standard parser) {paths : List String}
    (htexts : fs.TextsIn contents directory paths) {file : ParsedFile}
    (hsourced : file.Sourced parser contents) (hpath : file.relativePath ∈ paths)
    (haccepts : builder.accepts file.relativePath = true)
    (hcurrent : Snapshot.currentId? builder fs directory file.relativePath =
      some (file.ident builder.fingerprint)) :
    builder.extractFile fs directory file.relativePath = .ok file := by
  unfold Snapshot.currentId? at hcurrent
  split at hcurrent
  · rename_i source hread
    have hnow := htexts file.relativePath hpath source hread
    have htext : Text.normalizeLines source = file.text :=
      (hfree _ _ _ _ hnow hsourced.text_mem (Option.some.inj hcurrent)).2
    have hsupports : (builder.registry.forPath? file.relativePath).isSome = true :=
      (Bool.and_eq_true _ _ ▸ haccepts).1
    obtain ⟨extractor, hextractor⟩ := Option.isSome_iff_exists.mp hsupports
    obtain ⟨language, root, hmatches, hroot, hfile⟩ := hsourced.origin
    have hstandard' := hextractor
    rw [hregistry] at hstandard'
    obtain ⟨language', hmatches', rfl⟩ := Registry.exists_matches_of_readText hstandard' hread
    obtain rfl := Language.eq_of_matches hmatches hmatches'
    simp only [extractFile, hextractor, hread, Extractor.ofLanguage, htext, hroot, ← hfile]
  · simp at hcurrent

/-- Files extracted from collected paths have these paths. -/
theorem Builder.relativePath_of_extractFile (hregistry : builder.registry = .standard parser)
    {path : String} {file : ParsedFile} (h : builder.extractFile fs directory path = .ok file)
    (hpath : Text.replaceChar '\\' '/' path = path) : file.relativePath = path := by
  obtain ⟨language, source, root, -, -, -, rfl⟩ := extractFile_standard hregistry h
  exact hpath

/-- Files that have the paths they were extracted from have them in order. -/
theorem Builder.relativePath_extractFiles_sublist {paths : List String}
    (hpaths : ∀ path ∈ paths, ∀ file, builder.extractFile fs directory path = .ok file →
      file.relativePath = path) :
    ((builder.extractFiles fs directory paths).map (·.relativePath)).Sublist paths := by
  induction paths with
  | nil => exact List.Sublist.refl _
  | cons path rest ih =>
    obtain ⟨hpath, hrest⟩ := List.forall_mem_cons.mp hpaths
    have htail := ih hrest
    unfold extractFiles at htail ⊢
    cases hextract : builder.extractFile fs directory path with
    | error e =>
      rw [List.filterMap_cons_none (by rw [hextract]; rfl)]
      exact htail.cons path
    | ok file =>
      rw [List.filterMap_cons_some (by rw [hextract]; rfl), List.map_cons, hpath file hextract]
      exact htail.cons_cons path

/-- Files extracted from distinct paths have distinct paths. -/
theorem Builder.nodup_relativePath_extractFiles (hregistry : builder.registry = .standard parser)
    {paths : List String} (hpaths : ∀ path ∈ paths, Text.replaceChar '\\' '/' path = path)
    (hnodup : paths.Nodup) :
    ((builder.extractFiles fs directory paths).map (·.relativePath)).Nodup :=
  hnodup.sublist (relativePath_extractFiles_sublist fun path hpath _ hextract =>
    relativePath_of_extractFile hregistry hextract (hpaths path hpath))

end Files

/-! ### The files after an update -/

namespace Update

variable {parser : SyntaxParser} {fingerprint : Fingerprint} {contents : Contents}
  {builder : Builder} {fs : FileSystem} {home directory : String} {current : List String}
  {files : List ParsedFile}

/-- The changed paths that are built are collected, not current, and files. -/
theorem mem_rebuildPaths_changes {files : List SourceFile} {path : String}
    (hcollected : builder.collectFiles fs home directory = some current) :
    path ∈ rebuildPaths builder fs directory
        (Snapshot.changesTo builder fs directory current files) ↔
      path ∈ current ∧
        ¬ Snapshot.Current builder fs directory files path ∧
        fs.isFile (PathText.join directory path) = true := by
  rw [rebuildPaths, Text.mem_sortedSet, List.mem_filter, Snapshot.mem_toProcess_changes,
    Bool.and_eq_true, and_assoc]
  refine and_congr_right fun hpath => and_congr_right fun _ => ?_
  exact ⟨fun h => h.2, fun h => ⟨(Builder.of_mem_collectFiles hcollected hpath).1, h⟩⟩

/-- The changes of a working tree since the files were stored, with the paths that are there now. -/
def changesSince (fingerprint : Fingerprint) (builder : Builder) (fs : FileSystem)
    (directory : String) (current : List String) (files : List ParsedFile) : ChangeSet :=
  Snapshot.changesTo builder fs directory current (files.map (ParsedFile.record fingerprint))

/-- A file whose path no other has is current if it has its identifier now. -/
theorem current_iff_ident (hpaths : (files.map (·.relativePath)).Nodup) {file : ParsedFile}
    (hfile : file ∈ files) :
    Snapshot.Current builder fs directory (files.map (ParsedFile.record fingerprint))
        file.relativePath ↔
      Snapshot.currentId? builder fs directory file.relativePath =
        some (file.ident fingerprint) := by
  have hrecords : ((files.map (ParsedFile.record fingerprint)).map (·.relativePath)).Nodup := by
    rw [List.map_map]
    exact hpaths
  exact Snapshot.current_iff hrecords (List.mem_map_of_mem hfile)

/-- A file is kept if it is there now and has the identifier now. -/
theorem mem_keptFiles_changesSince (hpaths : (files.map (·.relativePath)).Nodup)
    {file : ParsedFile} :
    file ∈ keptFiles (changesSince fingerprint builder fs directory current files) files ↔
      file ∈ files ∧ file.relativePath ∈ current ∧
        Snapshot.currentId? builder fs directory file.relativePath =
          some (file.ident fingerprint) := by
  rw [mem_keptFiles]
  refine and_congr_right fun hfile => ?_
  have hstored : file.relativePath ∈
      (files.map (ParsedFile.record fingerprint)).map (·.relativePath) :=
    List.mem_map_of_mem (List.mem_map_of_mem hfile)
  rw [changesSince, Snapshot.bucketOfPath_eq_untouched hstored, current_iff_ident hpaths hfile]

/-- The files after the update are those of a fresh build. -/
theorem mem_nextFiles_changesSince (hfree : builder.fingerprint.CollisionFree contents)
    (hregistry : builder.registry = .standard parser)
    (hcollected : builder.collectFiles fs home directory = some current)
    (htexts : fs.TextsIn contents directory current)
    (hsourced : ∀ file ∈ files, file.Sourced parser contents)
    (hpaths : (files.map (·.relativePath)).Nodup) {file : ParsedFile} :
    file ∈ nextFiles builder fs directory
        (changesSince builder.fingerprint builder fs directory current files) files ↔
      file ∈ builder.extractFiles fs directory current := by
  have hextracted : ∀ {paths : List String} {path : String}, path ∈ paths →
      builder.extractFile fs directory path = .ok file →
      file ∈ builder.extractFiles fs directory paths :=
    fun hpath hextract => List.mem_filterMap.mpr ⟨_, hpath, by rw [hextract]; rfl⟩
  rw [nextFiles, List.mem_append, mem_keptFiles_changesSince hpaths]
  constructor
  · rintro (⟨hfile, hpath, hcurrent⟩ | hrebuilt)
    · exact hextracted hpath (Builder.extractFile_of_current hfree hregistry htexts
        (hsourced file hfile) hpath (Builder.of_mem_collectFiles hcollected hpath).1 hcurrent)
    · obtain ⟨path, hpath, hextract⟩ := Builder.exists_extract_of_mem_extractFiles hrebuilt
      exact hextracted ((mem_rebuildPaths_changes hcollected).mp hpath).1 hextract
  · intro hfresh
    obtain ⟨path, hpath, hextract⟩ := Builder.exists_extract_of_mem_extractFiles hfresh
    by_cases hcurrent : Snapshot.Current builder fs directory
        (files.map (ParsedFile.record builder.fingerprint)) path
    · obtain ⟨id, hstored, hid⟩ := hcurrent
      obtain ⟨record, hrecord, rfl, rfl⟩ := Snapshot.exists_of_storedId? hstored
      obtain ⟨other, hother, rfl⟩ := List.mem_map.mp hrecord
      have hagain := Builder.extractFile_of_current hfree hregistry htexts (hsourced other hother)
        hpath (Builder.of_mem_collectFiles hcollected hpath).1 hid
      obtain rfl := Except.ok.inj (hextract.symm.trans hagain)
      exact Or.inl ⟨hother, hpath, hid⟩
    · obtain ⟨-, source, -, hread, -⟩ := Builder.extractFile_eq_ok hextract
      have hfile : fs.isFile (PathText.join directory path) = true := by
        rw [FileSystem.isFile, FileSystem.content?_of_entry (FileSystem.entry_of_readText hread)]
        rfl
      exact Or.inr (hextracted ((mem_rebuildPaths_changes hcollected).mpr ⟨hpath, hcurrent, hfile⟩)
        hextract)

/-- No file comes twice. -/
theorem nodup_nextFiles_changesSince
    (hcollected : builder.collectFiles fs home directory = some current)
    (hregistry : builder.registry = .standard parser)
    (hpaths : (files.map (·.relativePath)).Nodup) :
    (nextFiles builder fs directory
      (changesSince fingerprint builder fs directory current files) files).Nodup := by
  have hslashes : ∀ path ∈ rebuildPaths builder fs directory
      (changesSince fingerprint builder fs directory current files),
      Text.replaceChar '\\' '/' path = path :=
    fun path hpath => (Builder.of_mem_collectFiles hcollected
      ((mem_rebuildPaths_changes hcollected).mp hpath).1).2
  have hrebuilt : ((rebuiltFiles builder fs directory
      (changesSince fingerprint builder fs directory current files)).map (·.relativePath)).Nodup :=
    Builder.nodup_relativePath_extractFiles hregistry hslashes (Text.nodup_sortedSet _)
  refine List.nodup_append.mpr ⟨hpaths.of_map.filter _, hrebuilt.of_map, ?_⟩
  rintro file hkept other hother rfl
  obtain ⟨hfile, -, hcurrent⟩ := (mem_keptFiles_changesSince hpaths).mp hkept
  obtain ⟨path, hpath, hextract⟩ := Builder.exists_extract_of_mem_extractFiles hother
  obtain rfl :=
    Builder.relativePath_of_extractFile hregistry hextract (hslashes path hpath)
  exact ((mem_rebuildPaths_changes hcollected).mp hpath).2.1
    ((current_iff_ident hpaths hfile).mpr hcurrent)

end Update

end CodeAtlas
