import CodeAtlas.Proofs.ByteCoverage
import CodeAtlas.Proofs.Frame
import CodeAtlas.Proofs.Snapshot
import CodeAtlas.Proofs.Text.Segments

/-!
# Content addressing

In every graph of a run an identifier stands for content. That of a component is the fingerprint of
its name and its code, that of a file is the fingerprint of its path and its text, and the code of a
component is what its spans cut out of the text of its file. No two components have one identifier,
and no two files have one identifier or one path.

The extractors of a run can be any. They are asked only to give a file the path it was extracted
from, which is what keeps the files of one build apart. Between builds, files are kept apart by the
changes: a file that is built again is mentioned in them, and so the one it replaces is dropped.

## Main definitions

* `Registry.KeepsPaths`: files are given the paths they were extracted from.
* `CodeGraph.FilesAddressed`: the files of a graph are known by their paths and texts.
* `CodeGraph.Addressed`: the components and files of a graph are known by their content.
* `Run.Apart`: the graphs that are reached from builds of distinct paths.

## Main results

* `Builder.addressed_assemble`, `Update.addressed_apply`, `CodeGraph.Addressed.filter`: builds give
  addressed graphs, and updates and filters keep them so.
* `Run.Apart.addressed`: every graph of a run is addressed.
-/

namespace CodeAtlas

/-! ### Paths of extracted files -/

/-- Replacing backslashes changes nothing exactly where there are none. -/
theorem Text.replaceChar_eq_self_iff {s : String} :
    replaceChar '\\' '/' s = s ↔ '\\' ∉ s.toList := by
  refine ⟨fun h hmem => ?_, replaceChar_of_notMem '/'⟩
  rw [← h, replaceChar, String.toList_map] at hmem
  obtain ⟨c, -, hc⟩ := List.mem_map.mp hmem
  split_ifs at hc with hback
  · exact absurd hc (by decide)
  · exact hback hc

/-- A file is given the path it was extracted from, unless that has a backslash. -/
def Registry.KeepsPaths (registry : Registry) : Prop :=
  ∀ path source extractor file, registry.forPath? path = some extractor →
    extractor.extract path source = .ok file → '\\' ∉ path.toList → file.relativePath = path

/-- The standard extractors change nothing but backslashes. -/
theorem Registry.keepsPaths_standard (parser : SyntaxParser) : (standard parser).KeepsPaths := by
  intro path source extractor file hextractor hfile hpath
  obtain ⟨language, _, _, _, rfl⟩ := exists_language_of_forPath? hextractor
  simp only [Extractor.ofLanguage] at hfile
  split at hfile
  · obtain rfl := Except.ok.inj hfile
    exact Text.replaceChar_eq_self_iff.mpr hpath
  · simp at hfile

/-- The builder identifies by the fingerprint, its extractors keep the paths of files, and the texts
that are found at the paths are among the contents. -/
structure Builder.Faithful (fingerprint : Fingerprint) (contents : Contents) (builder : Builder)
    (fs : FileSystem) (directory : String) (paths : List String) : Prop where
  fingerprint_eq : builder.fingerprint = fingerprint
  keeps_paths : builder.registry.KeepsPaths
  texts : ∀ file ∈ builder.extractFiles fs directory paths, contents file.relativePath file.text

theorem Builder.Standard.faithful {parser : SyntaxParser} {fingerprint : Fingerprint}
    {contents : Contents} {builder : Builder} {fs : FileSystem} {directory : String}
    {paths : List String} (h : builder.Standard parser fingerprint contents fs directory paths) :
    builder.Faithful fingerprint contents fs directory paths where
  fingerprint_eq := h.fingerprint_eq
  keeps_paths := h.registry_eq ▸ Registry.keepsPaths_standard parser
  texts := h.texts

namespace Builder.Faithful

variable {fingerprint : Fingerprint} {contents : Contents} {builder : Builder} {fs : FileSystem}
  {directory : String} {paths : List String}

theorem relativePath_eq (h : builder.Faithful fingerprint contents fs directory paths)
    {path : String} {file : ParsedFile}
    (hextract : builder.extractFile fs directory path = .ok file)
    (hpath : '\\' ∉ path.toList) : file.relativePath = path := by
  obtain ⟨extractor, source, hextractor, -, hfile⟩ := extractFile_eq_ok hextract
  exact h.keeps_paths path source extractor file hextractor hfile hpath

/-- Extracted files have paths out of those that were given. -/
theorem relativePath_mem (h : builder.Faithful fingerprint contents fs directory paths)
    (hslashes : ∀ path ∈ paths, '\\' ∉ path.toList) {file : ParsedFile}
    (hfile : file ∈ builder.extractFiles fs directory paths) : file.relativePath ∈ paths := by
  obtain ⟨path, hpath, hextract⟩ := exists_extract_of_mem_extractFiles hfile
  rwa [h.relativePath_eq hextract (hslashes path hpath)]

/-- Files extracted from distinct paths have distinct paths. -/
theorem nodup_relativePath (h : builder.Faithful fingerprint contents fs directory paths)
    (hslashes : ∀ path ∈ paths, '\\' ∉ path.toList) (hnodup : paths.Nodup) :
    ((builder.extractFiles fs directory paths).map (·.relativePath)).Nodup :=
  hnodup.sublist (relativePath_extractFiles_sublist fun path hpath _ hextract =>
    h.relativePath_eq hextract (hslashes path hpath))

end Builder.Faithful

/-! ### Addressed graphs -/

/-- The pieces that the component's spans cut out of the text are its code, one after the other. -/
def Component.IsCutFrom (c : Component) (text : String) : Prop :=
  ∃ found, ParsedFile.pieces text c.spans = .ok found ∧ String.join found = c.codeText

namespace CodeGraph

/-- The identifiers of the graph are the fingerprints of its content, the code of its components
comes from the texts of their files, which are among the contents, and neither identifiers nor paths
are repeated. -/
structure Addressed (fingerprint : Fingerprint) (contents : Contents)
    (graph : CodeGraph) : Prop where
  component_id : ∀ c ∈ graph.components, c.id = fingerprint c.qualifiedName c.codeText
  code_text : ∀ c ∈ graph.components, ∃ file, graph.file? c.fileId = some file ∧
    c.IsCutFrom file.formattedText
  file_id : ∀ file ∈ graph.files, file.id = fingerprint file.relativePath file.formattedText
  nodup_component_ids : (graph.components.map (·.id)).Nodup
  nodup_paths : (graph.files.map (·.relativePath)).Nodup
  nodup_file_ids : (graph.files.map (·.id)).Nodup
  texts : ∀ file ∈ graph.files, contents file.relativePath file.formattedText

variable {fingerprint : Fingerprint} {contents : Contents} {graph : CodeGraph}

/-- Each file of the graph is identified by its path and its text, and these are among the
contents. -/
def FilesAddressed (fingerprint : Fingerprint) (contents : Contents) (graph : CodeGraph) : Prop :=
  ∀ file ∈ graph.files, file.id = fingerprint file.relativePath file.formattedText ∧
    contents file.relativePath file.formattedText

/-- Files with one identifier have one path. -/
theorem FilesAddressed.relativePath_eq (h : graph.FilesAddressed fingerprint contents)
    (hfree : fingerprint.CollisionFree contents) {file other : SourceFile}
    (hfile : file ∈ graph.files)
    (hother : other ∈ graph.files) (hid : file.id = other.id) :
    file.relativePath = other.relativePath := by
  obtain ⟨hfileId, htext⟩ := h file hfile
  obtain ⟨hotherId, htext'⟩ := h other hother
  rw [hfileId, hotherId] at hid
  exact (hfree _ _ _ _ htext htext' hid).1

/-- Files with distinct paths have distinct identifiers. -/
theorem FilesAddressed.nodup_ids (h : graph.FilesAddressed fingerprint contents)
    (hfree : fingerprint.CollisionFree contents)
    (hpaths : (graph.files.map (·.relativePath)).Nodup) :
    (graph.files.map (·.id)).Nodup :=
  hpaths.of_map.map_on fun _ hfile _ hother hid =>
    List.inj_on_of_nodup_map hpaths hfile hother (h.relativePath_eq hfree hfile hother hid)

/-- Without collisions it is enough that paths are distinct, and that the file of each component is
there. -/
theorem Addressed.of_paths (hfree : fingerprint.CollisionFree contents)
    (hid : ∀ c ∈ graph.components, c.id = fingerprint c.qualifiedName c.codeText)
    (hcode : ∀ c ∈ graph.components, ∃ file ∈ graph.files, file.id = c.fileId ∧
      c.IsCutFrom file.formattedText)
    (hfile : ∀ file ∈ graph.files, file.id = fingerprint file.relativePath file.formattedText)
    (hcomponents : (graph.components.map (·.id)).Nodup)
    (hpaths : (graph.files.map (·.relativePath)).Nodup)
    (htexts : ∀ file ∈ graph.files, contents file.relativePath file.formattedText) :
    graph.Addressed fingerprint contents := by
  have hids : (graph.files.map (·.id)).Nodup :=
    FilesAddressed.nodup_ids (fun file hmem => ⟨hfile file hmem, htexts file hmem⟩) hfree hpaths
  refine ⟨hid, fun c hc => ?_, hfile, hcomponents, hpaths, hids, htexts⟩
  obtain ⟨file, hmem, heq, hcut⟩ := hcode c hc
  refine ⟨file, ?_, hcut⟩
  rw [← heq]
  exact Keyed.find?_eq_some (fun file : SourceFile => file.id) hids hmem

/-- The file of a component is in the graph. -/
theorem Addressed.exists_file (h : graph.Addressed fingerprint contents) {c : Component}
    (hc : c ∈ graph.components) :
    ∃ file ∈ graph.files, file.id = c.fileId ∧ c.IsCutFrom file.formattedText := by
  obtain ⟨file, hfile, hcut⟩ := h.code_text c hc
  have hid := List.find?_some hfile
  exact ⟨file, List.mem_of_find?_eq_some hfile, beq_iff_eq.mp hid, hcut⟩

/-- A filter keeps the graph addressed. -/
theorem Addressed.filter (h : graph.Addressed fingerprint contents) (keep : String → Bool) :
    (graph.filter keep).Addressed fingerprint contents where
  component_id := by
    intro c hc
    obtain ⟨d, hd, rfl⟩ := List.mem_map.mp hc
    exact h.component_id d (List.mem_filter.mp hd).1
  code_text := by
    intro c hc
    obtain ⟨d, hd, rfl⟩ := List.mem_map.mp hc
    exact h.code_text d (List.mem_filter.mp hd).1
  file_id := h.file_id
  nodup_component_ids := by
    have hids : (graph.filter keep).components.map (·.id) =
        (graph.components.filter fun c => keep c.qualifiedName).map (·.id) := List.map_map
    rw [hids]
    exact h.nodup_component_ids.sublist (List.filter_sublist.map _)
  nodup_paths := h.nodup_paths
  nodup_file_ids := h.nodup_file_ids
  texts := h.texts

/-- What a database keeps of a document keeps the graph addressed. -/
theorem Addressed.kept {document : Document} (h : document.graph.Addressed fingerprint contents) :
    document.kept.graph.Addressed fingerprint contents := by
  have hfiles : Keyed.lasts (·.id) document.graph.files = document.graph.files :=
    Keyed.lasts_eq_self _ h.nodup_file_ids
  rw [Document.kept, hfiles]
  exact ⟨h.component_id, h.code_text, h.file_id, h.nodup_component_ids, h.nodup_paths,
    h.nodup_file_ids, h.texts⟩

end CodeGraph

/-! ### Builds -/

namespace Builder

variable {builder : Builder} {contents : Contents} {files : List ParsedFile}

/-- The components of a build have identifiers from their content and code from their files. -/
theorem exists_cut_of_mem_assemble {seed : LinkSeed} {c : Component}
    (hc : c ∈ (builder.assemble files seed).graph.components) :
    c.id = builder.fingerprint c.qualifiedName c.codeText ∧
      ∃ file ∈ files, (builder.fileRecord file).id = c.fileId ∧ c.IsCutFrom file.text := by
  rw [components_assemble] at hc
  obtain ⟨d, hd, rfl⟩ := List.mem_map.mp hc
  have hsub := Keyed.firsts_sublist (fun c : Component => c.id) (builder.unlinked files)
  obtain ⟨file, hfile, hmem⟩ := List.mem_flatMap.mp (hsub.subset hd)
  obtain ⟨parsed, code, -, hcode, rfl⟩ := (file.mem_unlinked builder.fingerprint).mp hmem
  refine ⟨rfl, file, hfile, rfl, ?_⟩
  unfold ParsedFile.componentText at hcode
  split at hcode
  · rename_i found hfound
    exact ⟨found, hfound, Except.ok.inj hcode⟩
  · simp at hcode

/-- The build of files with distinct paths is addressed. -/
theorem addressed_assemble (hfree : builder.fingerprint.CollisionFree contents)
    (hpaths : (files.map (·.relativePath)).Nodup)
    (htexts : ∀ file ∈ files, contents file.relativePath file.text)
    (seed : LinkSeed) :
    (builder.assemble files seed).graph.Addressed builder.fingerprint contents := by
  have hfiles : (builder.assemble files seed).graph.files = files.map builder.fileRecord := rfl
  refine .of_paths hfree (fun c hc => (exists_cut_of_mem_assemble hc).1) (fun c hc => ?_) ?_ ?_ ?_ ?_
  · obtain ⟨-, file, hfile, hid, hcut⟩ := exists_cut_of_mem_assemble hc
    exact ⟨builder.fileRecord file, List.mem_map_of_mem hfile, hid, hcut⟩
  · intro record hrecord
    obtain ⟨file, -, rfl⟩ := List.mem_map.mp hrecord
    rfl
  · have hids : (builder.assemble files seed).graph.components.map (·.id) =
        (Identity.keepFirst (builder.unlinked files)).map (·.id) := by
      rw [components_assemble, List.map_map]
      rfl
    rw [hids]
    exact Keyed.nodup_map_firsts _ _
  · rw [hfiles, List.map_map]
    exact hpaths
  · intro record hrecord
    obtain ⟨file, hfile, rfl⟩ := List.mem_map.mp hrecord
    exact htexts file hfile

/-- The build of distinct paths is addressed. -/
theorem Faithful.addressed_buildFiles {fingerprint : Fingerprint} {fs : FileSystem}
    {directory : String} {paths : List String}
    (h : builder.Faithful fingerprint contents fs directory paths)
    (hfree : fingerprint.CollisionFree contents) (hnodup : paths.Nodup)
    (hslashes : ∀ path ∈ paths, '\\' ∉ path.toList) (seed : LinkSeed) :
    (builder.buildFiles fs directory paths seed).graph.Addressed fingerprint contents := by
  obtain rfl := h.fingerprint_eq
  exact addressed_assemble hfree (h.nodup_relativePath hslashes hnodup) h.texts seed

end Builder

/-! ### Updates -/

namespace Update

variable {fingerprint : Fingerprint} {contents : Contents} {builder : Builder} {fs : FileSystem}
  {directory : String} {previous : CodeGraph} {changes : ChangeSet} {supply : IdSupply}

theorem backslash_notMem_rebuildPaths (hslashes : ∀ path ∈ changes.toProcess, '\\' ∉ path.toList) :
    ∀ path ∈ rebuildPaths builder fs directory changes, '\\' ∉ path.toList := by
  intro path hpath
  exact hslashes path (List.mem_filter.mp (Text.mem_sortedSet.mp hpath)).1

/-- A file that is built is mentioned in the changes, so that no file outside of these has its path. -/
theorem relativePath_ne_of_mem_built
    (hfaithful : builder.Faithful fingerprint contents fs directory
      (rebuildPaths builder fs directory changes))
    (hslashes : ∀ path ∈ changes.toProcess, '\\' ∉ path.toList) {file record : SourceFile}
    (hfile : file ∈ previous.filesOutside changes)
    (hrecord : record ∈ (built builder fs directory previous changes supply).graph.files) :
    file.relativePath ≠ record.relativePath := by
  intro heq
  obtain ⟨parsed, hparsed, rfl⟩ := List.mem_map.mp hrecord
  have hpath : parsed.relativePath ∈ rebuildPaths builder fs directory changes :=
    hfaithful.relativePath_mem (backslash_notMem_rebuildPaths hslashes) hparsed
  have hprocess := (List.mem_filter.mp (Text.mem_sortedSet.mp hpath)).1
  have houtside := (List.mem_filter.mp hfile).2
  rw [heq, Bool.not_eq_true', ← bucketOfPath_eq_untouched_iff] at houtside
  exact (Classification.bucketOfPath_eq_untouched.mp houtside).1 hprocess

/-- The build of the changed files is addressed. -/
theorem addressed_built (hfree : fingerprint.CollisionFree contents)
    (hfaithful : builder.Faithful fingerprint contents fs directory
      (rebuildPaths builder fs directory changes))
    (hslashes : ∀ path ∈ changes.toProcess, '\\' ∉ path.toList) :
    (built builder fs directory previous changes supply).graph.Addressed fingerprint contents :=
  hfaithful.addressed_buildFiles hfree (Text.nodup_sortedSet _)
    (backslash_notMem_rebuildPaths hslashes) _

/-- A component that is kept is identified as before, and so are its code and its file. -/
theorem exists_cut_of_mem_relinked (h : previous.Addressed fingerprint contents)
    {relinkRetained : Bool}
    {c : Component}
    (hc : c ∈ (relinked builder relinkRetained fs directory previous changes supply).1) :
    c.id = fingerprint c.qualifiedName c.codeText ∧
      ∃ file ∈ previous.filesOutside changes, file.id = c.fileId ∧
        c.IsCutFrom file.formattedText := by
  obtain ⟨d, hd, heq⟩ := exists_of_mem_relinked hc
  have hmem := (mem_untouched.mp hd).1
  obtain ⟨file, hfile, hid, hcut⟩ := h.exists_file hmem
  obtain ⟨kept, hkept, hkeptId⟩ := exists_untouchedFile h.nodup_component_ids hd
  rw [untouchedFiles_eq_filesOutside h.nodup_file_ids] at hkept
  obtain rfl := List.inj_on_of_nodup_map h.nodup_file_ids (List.mem_filter.mp hkept).1 hfile
    (hkeptId.trans hid.symm)
  -- Nothing that is said here depends on links, in which alone the two differ.
  have hunlink : d.unlink.id = fingerprint d.unlink.qualifiedName d.unlink.codeText ∧
      ∃ file ∈ previous.filesOutside changes, file.id = d.unlink.fileId ∧
        d.unlink.IsCutFrom file.formattedText :=
    ⟨h.component_id d hmem, kept, hkept, hid, hcut⟩
  rw [heq] at hunlink
  exact hunlink

/-- An update keeps the graph addressed. -/
theorem addressed_apply (hfree : fingerprint.CollisionFree contents)
    (hfaithful : builder.Faithful fingerprint contents fs directory
      (rebuildPaths builder fs directory changes))
    (hslashes : ∀ path ∈ changes.toProcess, '\\' ∉ path.toList)
    (h : previous.Addressed fingerprint contents) (relinkRetained : Bool) :
    (apply builder relinkRetained fs directory previous changes supply).graph.Addressed
      fingerprint contents := by
  have hbuilt : (built builder fs directory previous changes supply).graph.Addressed
      fingerprint contents :=
    addressed_built hfree hfaithful hslashes
  have hids : ((apply builder relinkRetained fs directory previous changes supply).graph.components.map
      (·.id)).Nodup := nodup_ids_apply relinkRetained h.nodup_component_ids
  rw [graph_apply] at hids
  rw [graph_apply, untouchedFiles_eq_filesOutside h.nodup_file_ids]
  refine .of_paths hfree (fun c hc => ?_) (fun c hc => ?_) (fun file hfile => ?_) ?_ ?_
    (fun file hfile => ?_)
  · rcases List.mem_append.mp hc with hkept | hadded
    · exact (exists_cut_of_mem_relinked h hkept).1
    · exact hbuilt.component_id c ((additions_sublist _ _).subset hadded)
  · rcases List.mem_append.mp hc with hkept | hadded
    · obtain ⟨-, file, hfile, hcut⟩ := exists_cut_of_mem_relinked h hkept
      exact ⟨file, List.mem_append_left _ hfile, hcut⟩
    · obtain ⟨file, hfile, hcut⟩ := hbuilt.exists_file ((additions_sublist _ _).subset hadded)
      exact ⟨file, List.mem_append_right _ hfile, hcut⟩
  · rcases List.mem_append.mp hfile with houtside | hrebuilt
    · exact h.file_id file (List.mem_filter.mp houtside).1
    · exact hbuilt.file_id file hrebuilt
  · exact hids
  · rw [List.map_append, List.nodup_append]
    refine ⟨h.nodup_paths.sublist (List.filter_sublist.map _), hbuilt.nodup_paths, ?_⟩
    intro path hpath path' hpath' heq
    obtain ⟨file, hfile, rfl⟩ := List.mem_map.mp hpath
    obtain ⟨record, hrecord, rfl⟩ := List.mem_map.mp hpath'
    exact relativePath_ne_of_mem_built hfaithful hslashes hfile hrecord heq
  · rcases List.mem_append.mp hfile with houtside | hrebuilt
    · exact h.texts file (List.mem_filter.mp houtside).1
    · exact hbuilt.texts file hrebuilt

end Update

/-! ### Runs -/

namespace Run

/-- The graph is reached from a build of distinct paths by updates, filters, and saving and loading.
No path that is built has a backslash. -/
inductive Apart (fingerprint : Fingerprint) (contents : Contents) : CodeGraph → Prop
  | files {builder : Builder} {fs : FileSystem} {directory : String} {paths : List String}
      (faithful : builder.Faithful fingerprint contents fs directory paths)
      (distinct : paths.Nodup) (slashes : ∀ path ∈ paths, '\\' ∉ path.toList) (seed : LinkSeed) :
      Apart fingerprint contents (builder.buildFiles fs directory paths seed).graph
  | directory {builder : Builder} {fs : FileSystem} {home directory : String} {supply : IdSupply}
      {output : BuildOutput} {collected : List String}
      (found : builder.collectFiles fs home directory = some collected)
      (faithful : builder.Faithful fingerprint contents fs directory collected)
      (distinct : collected.Nodup)
      (built : builder.buildDirectory fs home directory supply = some (.ok output)) :
      Apart fingerprint contents output.graph
  | update {builder : Builder} {fs : FileSystem} {relinkRetained : Bool} {directory : String}
      {graph : CodeGraph} {changes : ChangeSet} {supply : IdSupply} {result : UpdateResult}
      (before : Apart fingerprint contents graph)
      (faithful : builder.Faithful fingerprint contents fs directory
        (Update.rebuildPaths builder fs directory changes))
      (slashes : ∀ path ∈ changes.toProcess, '\\' ∉ path.toList)
      (updated : update builder relinkRetained fs directory graph changes supply = .ok result) :
      Apart fingerprint contents result.graph
  | filter {graph : CodeGraph} (before : Apart fingerprint contents graph) (keep : String → Bool) :
      Apart fingerprint contents (graph.filter keep)
  | reload {store : GraphStore} {fs fs' : FileSystem} {graph : CodeGraph}
      {repository commitHash : Option String} {document : Document}
      (before : Apart fingerprint contents graph)
      (saved : store.save (.ofGraph graph repository commitHash) fs = (.ok (), fs'))
      (loaded : (store.load fs').1 = .ok document) : Apart fingerprint contents document.graph

variable {fingerprint : Fingerprint} {contents : Contents} {graph : CodeGraph}

/-- In every graph that is reached from a build of distinct paths, all identifiers are those of
content, the code of every component comes from the text of its file, and no identifier of a
component, no identifier of a file and no path is repeated. -/
theorem Apart.addressed (hfree : fingerprint.CollisionFree contents)
    (h : Apart fingerprint contents graph) :
    graph.Addressed fingerprint contents := by
  induction h with
  | files faithful distinct slashes seed =>
    exact faithful.addressed_buildFiles hfree distinct slashes seed
  | @directory builder fs home directory supply output collected found faithful distinct built =>
    obtain ⟨collected', hcollected, rfl⟩ := Builder.buildDirectory_eq_ok built
    obtain rfl := Option.some.inj (found.symm.trans hcollected)
    refine faithful.addressed_buildFiles hfree distinct (fun path hpath => ?_) _
    exact Text.replaceChar_eq_self_iff.mp (Builder.of_mem_collectFiles hcollected hpath).2
  | update _ faithful slashes updated ih =>
    rcases Update.update_eq_ok updated with ⟨-, hsame, -⟩ | ⟨-, rfl⟩
    · rwa [hsame]
    · exact Update.addressed_apply hfree faithful slashes ih _
  | filter _ keep ih => exact ih.filter keep
  | @reload store fs fs' graph repository commit document _ saved loaded ih =>
    have hcurrent : (Document.ofGraph graph repository commit).isCurrent = true :=
      beq_self_eq_true currentSchema
    rcases GraphStore.eq_of_load saved loaded ih.nodup_component_ids hcurrent with rfl | rfl
    · exact ih
    · exact ih.kept

/-- The build of a module. -/
def moduleBuild : BuildOutput :=
  Passed.twinBuilder.buildFiles Passed.twinTrees "/repo" ["a.py"] ⟨[], ⟨.empty, ⟨0⟩⟩⟩

/-- A package with the same text is added to the module. -/
def twinUpdate : UpdateResult :=
  Update.apply Passed.twinBuilder true Passed.twinTrees "/repo" moduleBuild.graph
    Passed.packageAdded moduleBuild.supply

theorem Apart.addressed_twinUpdate :
    twinUpdate.graph.components.map (·.id) = ["a.f\x00def f():\n    pass", "a\x00\n"] ∧
    twinUpdate.graph.files.map (·.relativePath) = ["a.py", "a/__init__.py"] ∧
    (twinUpdate.graph.filter fun name => name == "a.f").Addressed .verbatim .clear := by
  have hbuilt : Apart .verbatim .clear moduleBuild.graph :=
    .files (Passed.standard_twinBuilder _).faithful (by decide) (by decide +kernel)
      ⟨[], ⟨.empty, ⟨0⟩⟩⟩
  have hupdated : Apart .verbatim .clear twinUpdate.graph :=
    .update hbuilt (Passed.standard_twinBuilder _).faithful (by decide +kernel)
      (Update.update_eq_apply _ _ _ _ (by decide +kernel) rfl)
  exact ⟨by decide +kernel, by decide +kernel,
    Apart.addressed Fingerprint.collisionFree_verbatim (hupdated.filter _)⟩

end Run

end CodeAtlas
