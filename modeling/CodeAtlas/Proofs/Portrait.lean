import CodeAtlas.Proofs.ContentIds
import CodeAtlas.Proofs.Extraction.Origin
import CodeAtlas.Proofs.FileSystem.ClearNames

/-!
# Graphs as pictures of their files

A graph that is built and then updated stands for the files that were extracted last: those of the
update and, of the files before, those the changes do not mention. Its components are components of
these files. A component is missing only where some pass had another file with a component of the
same name and code, since of these only one is kept, and it is not brought back when the other file
goes away.

## Main definitions

* `Portrays`: the files and the components of a graph come from parsed files.
* `Update.nextFiles`: the files of a graph after an update.
* `Complete`: what is in no pass also in another file is not missing.

## Main results

* `Builder.portrays_assemble`, `Update.portrays_apply`: builds and updates give portraits.
* `Builder.complete_assemble`, `Update.complete_apply`: they are complete.
-/

namespace CodeAtlas

/-- The record of a parsed file. -/
def ParsedFile.record (fingerprint : Fingerprint) (file : ParsedFile) : SourceFile :=
  .ofContent fingerprint file.relativePath file.text file.imports file.calledSymbols
    file.callableSymbols

/-! ### Files of the standard extractors -/

/-- The file comes from the standard extractors, and its text and the codes of its components are
among the contents. -/
structure ParsedFile.Sourced (parser : SyntaxParser) (contents : Contents) (file : ParsedFile) :
    Prop where
  origin : file.HasOrigin parser
  text_mem : contents file.relativePath file.text
  codes : file.CodesIn contents

/-- A file is known by its identifier. -/
theorem ParsedFile.Sourced.eq_of_ident {parser : SyntaxParser} {contents : Contents}
    {fingerprint : Fingerprint} (hfree : fingerprint.CollisionFree contents)
    {file other : ParsedFile} (h : file.Sourced parser contents)
    (h' : other.Sourced parser contents) (hid : file.ident fingerprint = other.ident fingerprint) :
    file = other := by
  obtain ⟨hpath, htext⟩ := hfree _ _ _ _ h.text_mem h'.text_mem hid
  exact h.origin.eq h'.origin hpath htext

/-- Components of such files with one identifier have one name and one code. -/
theorem ParsedFile.Sourced.content_eq {parser : SyntaxParser} {contents : Contents}
    {fingerprint : Fingerprint} (hfree : fingerprint.CollisionFree contents)
    {file other : ParsedFile} (h : file.Sourced parser contents)
    (h' : other.Sourced parser contents) {d e : Component} (hd : d ∈ file.unlinked fingerprint)
    (he : e ∈ other.unlinked fingerprint) (hid : d.id = e.id) :
    d.qualifiedName = e.qualifiedName ∧ d.codeText = e.codeText := by
  have hdmem := h.codes.of_mem_unlinked hd
  have hemem := h'.codes.of_mem_unlinked he
  obtain ⟨parsed, code, -, -, rfl⟩ := (file.mem_unlinked fingerprint).mp hd
  obtain ⟨parsed', code', -, -, rfl⟩ := (other.mem_unlinked fingerprint).mp he
  exact hfree _ _ _ _ hdmem hemem hid

namespace Builder

/-- The builder uses the standard extractors and identifies by the fingerprint, and what it finds at
the paths is among the contents. -/
structure Standard (parser : SyntaxParser) (fingerprint : Fingerprint) (contents : Contents)
    (builder : Builder) (fs : FileSystem) (directory : String) (paths : List String) : Prop
    extends WorksWith fingerprint contents builder fs directory paths where
  registry_eq : builder.registry = .standard parser
  texts : ∀ file ∈ builder.extractFiles fs directory paths, contents file.relativePath file.text

variable {parser : SyntaxParser} {fingerprint : Fingerprint} {contents : Contents}
  {builder : Builder} {fs : FileSystem} {directory : String} {paths : List String}

theorem Standard.sourced (h : Standard parser fingerprint contents builder fs directory paths)
    {file : ParsedFile} (hfile : file ∈ builder.extractFiles fs directory paths) :
    file.Sourced parser contents := by
  obtain ⟨path, -, hextract⟩ := exists_extract_of_mem_extractFiles hfile
  exact ⟨hasOrigin_of_extractFile h.registry_eq hextract, h.texts file hfile, h.codes file hfile⟩

/-- Of fewer paths less is found. -/
theorem Standard.mono (h : Standard parser fingerprint contents builder fs directory paths)
    {fewer : List String} (hfewer : ∀ path ∈ fewer, path ∈ paths) :
    Standard parser fingerprint contents builder fs directory fewer := by
  have hsubset : ∀ file ∈ builder.extractFiles fs directory fewer,
      file ∈ builder.extractFiles fs directory paths := by
    intro file hfile
    obtain ⟨path, hpath, hextract⟩ := List.mem_filterMap.mp hfile
    exact List.mem_filterMap.mpr ⟨path, hfewer path hpath, hextract⟩
  exact ⟨⟨h.fingerprint_eq, fun file hfile => h.codes file (hsubset file hfile)⟩, h.registry_eq,
    fun file hfile => h.texts file (hsubset file hfile)⟩

/-- Where no name in the file system holds a zero character, all that is found has a clear name. -/
theorem standard_of_clearNames (builder : Builder) (hregistry : builder.registry = .standard parser)
    (hnames : fs.ClearNames) (directory : String) (paths : List String) :
    builder.Standard parser builder.fingerprint .clear fs directory paths := by
  have hclear : ∀ file ∈ builder.extractFiles fs directory paths,
      Text.Clear file.relativePath ∧ ∀ c ∈ file.components, Text.Clear c.qualifiedName := by
    intro file hfile
    obtain ⟨path, -, hextract⟩ := exists_extract_of_mem_extractFiles hfile
    obtain ⟨language, source, root, -, hread, -, rfl⟩ := extractFile_standard hregistry hextract
    have hpath := hnames.of_readText hread
    exact ⟨Text.clear_replaceChar '\\' '/' (by decide) hpath,
      fun c hc => Extraction.clear_extract hpath hc⟩
  exact ⟨⟨rfl, fun file hfile c hc _ _ => (hclear file hfile).2 c hc⟩, hregistry,
    fun file hfile => (hclear file hfile).1⟩

end Builder

/-! ### Portraits -/

/-- The files of the graph are records of the parsed files, and its components are theirs. -/
structure Portrays (fingerprint : Fingerprint) (contents : Contents) (files : List ParsedFile)
    (graph : CodeGraph) : Prop where
  files_eq : graph.files = files.map (ParsedFile.record fingerprint)
  identified : Identified fingerprint contents graph.components
  extracted : ∀ c ∈ graph.components, ∃ file ∈ files, c.unlink ∈ file.unlinked fingerprint

/-- No other file has a component with the name and the code of the given one. -/
def Alone (fingerprint : Fingerprint) (files : List ParsedFile) (file : ParsedFile)
    (d : Component) : Prop :=
  ∀ other ∈ files, ∀ e ∈ other.unlinked fingerprint,
    e.qualifiedName = d.qualifiedName → e.codeText = d.codeText → other = file

/-- A component that no pass found in another file as well is there. The passes are given by their
files, the latest first. -/
def Complete (fingerprint : Fingerprint) (files : List ParsedFile)
    (earlier : List (List ParsedFile)) (graph : CodeGraph) : Prop :=
  ∀ file ∈ files, ∀ d ∈ file.unlinked fingerprint,
    (∀ pass ∈ files :: earlier, file ∈ pass → Alone fingerprint pass file d) →
    ∃ c ∈ graph.components, c.unlink = d

/-! ### Builds -/

namespace Builder

variable {builder : Builder} {contents : Contents} {files : List ParsedFile}

theorem portrays_assemble
    (hcodes : ∀ file ∈ files, file.CodesIn contents) (seed : LinkSeed) :
    Portrays builder.fingerprint contents files (builder.assemble files seed).graph where
  files_eq := rfl
  identified := identified_assemble hcodes seed
  extracted := by
    intro c hc
    rw [components_assemble] at hc
    obtain ⟨d, hd, rfl⟩ := List.mem_map.mp hc
    have hsub := Keyed.firsts_sublist (fun c : Component => c.id) (builder.unlinked files)
    obtain ⟨file, hfile, hmem⟩ := List.mem_flatMap.mp (hsub.subset hd)
    refine ⟨file, hfile, ?_⟩
    rw [Component.unlink_linkedBy, file.unlink_of_mem_unlinked _ hmem]
    exact hmem

/-- What no other file of a build has is kept. -/
theorem exists_unlink_eq_of_alone (hfree : builder.fingerprint.CollisionFree contents)
    (hcodes : ∀ file ∈ files, file.CodesIn contents) (seed : LinkSeed)
    {file : ParsedFile} (hfile : file ∈ files) {d : Component}
    (hd : d ∈ file.unlinked builder.fingerprint)
    (halone : Alone builder.fingerprint files file d) :
    ∃ c ∈ (builder.assemble files seed).graph.components, c.unlink = d := by
  have hmem : d ∈ builder.unlinked files := List.mem_flatMap.mpr ⟨file, hfile, hd⟩
  obtain ⟨e, he, hid⟩ := Keyed.exists_mem_firsts (fun c : Component => c.id) hmem
  have hsub := Keyed.firsts_sublist (fun c : Component => c.id) (builder.unlinked files)
  obtain ⟨heid, hemem⟩ := content_of_mem_unlinked hcodes (hsub.subset he)
  obtain ⟨hdid, hdmem⟩ := content_of_mem_unlinked hcodes hmem
  obtain ⟨hname, hcode⟩ := hfree _ _ _ _ hemem hdmem (heid ▸ hdid ▸ hid)
  obtain ⟨other, hother, hin⟩ := List.mem_flatMap.mp (hsub.subset he)
  obtain rfl := halone other hother e hin hname hcode
  obtain rfl := other.eq_of_mem_unlinked builder.fingerprint hin hd hname
  rw [components_assemble]
  refine ⟨_, List.mem_map_of_mem he, ?_⟩
  rw [Component.unlink_linkedBy, other.unlink_of_mem_unlinked _ hin]

theorem complete_assemble (hfree : builder.fingerprint.CollisionFree contents)
    (hcodes : ∀ file ∈ files, file.CodesIn contents) (seed : LinkSeed) :
    Complete builder.fingerprint files [] (builder.assemble files seed).graph :=
  fun _ hfile _ hd halone => exists_unlink_eq_of_alone hfree hcodes seed hfile hd
    (halone files List.mem_cons_self hfile)

end Builder

/-! ### Updates -/

namespace Update

/-- The files that the changes do not mention. -/
def keptFiles (changes : ChangeSet) (files : List ParsedFile) : List ParsedFile :=
  files.filter fun file => Classification.bucketOfPath changes file.relativePath == .untouched

/-- The files of a graph after an update. -/
def nextFiles (builder : Builder) (fs : FileSystem) (directory : String) (changes : ChangeSet)
    (files : List ParsedFile) : List ParsedFile :=
  keptFiles changes files ++ rebuiltFiles builder fs directory changes

variable {parser : SyntaxParser} {fingerprint : Fingerprint} {contents : Contents}
  {builder : Builder} {fs : FileSystem} {directory : String} {files : List ParsedFile}
  {previous : CodeGraph} {changes : ChangeSet}
  {supply : IdSupply}

theorem mem_keptFiles {file : ParsedFile} :
    file ∈ keptFiles changes files ↔
      file ∈ files ∧ Classification.bucketOfPath changes file.relativePath = .untouched := by
  simp [keptFiles]

/-- Without changes nothing is built. -/
theorem rebuiltFiles_of_not_hasChanges {changes : ChangeSet} (h : changes.hasChanges = false)
    (builder : Builder) (fs : FileSystem) (directory : String) :
    rebuiltFiles builder fs directory changes = [] := by
  obtain ⟨modified, added, deleted⟩ := changes
  obtain ⟨⟨rfl, rfl⟩, -⟩ : (modified = [] ∧ added = []) ∧ deleted = [] := by
    simpa [ChangeSet.hasChanges] using h
  simp [rebuiltFiles, rebuildPaths, ChangeSet.toProcess, Builder.extractFiles, Text.sortedSet]

/-- Without changes the files stay. -/
theorem nextFiles_of_not_hasChanges {changes : ChangeSet} (h : changes.hasChanges = false)
    (builder : Builder) (fs : FileSystem) (directory : String) (files : List ParsedFile) :
    nextFiles builder fs directory changes files = files := by
  rw [nextFiles, rebuiltFiles_of_not_hasChanges h, List.append_nil]
  obtain ⟨modified, added, deleted⟩ := changes
  obtain ⟨⟨rfl, rfl⟩, rfl⟩ : (modified = [] ∧ added = []) ∧ deleted = [] := by
    simpa [ChangeSet.hasChanges] using h
  exact List.filter_eq_self.mpr fun _ _ => rfl

theorem sourced_nextFiles
    (hstandard : builder.Standard parser fingerprint contents fs directory
      (rebuildPaths builder fs directory changes))
    (h : ∀ file ∈ files, file.Sourced parser contents) :
    ∀ file ∈ nextFiles builder fs directory changes files, file.Sourced parser contents := by
  intro file hfile
  rcases List.mem_append.mp hfile with hkept | hrebuilt
  · exact h file (mem_keptFiles.mp hkept).1
  · exact hstandard.sourced hrebuilt

/-- A file has the bucket of its path. -/
theorem find?_files_classify (hfree : fingerprint.CollisionFree contents)
    (hsourced : ∀ file ∈ files, file.Sourced parser contents)
    (hfiles : previous.files = files.map (ParsedFile.record fingerprint)) {file : ParsedFile}
    (hfile : file ∈ files) :
    (classify previous changes).files.find? (file.ident fingerprint) =
      some (Classification.bucketOfPath changes file.relativePath) := by
  refine Buckets.find?_ofPairs_of_mem ?_ fun other hother => ?_
  · rw [hfiles, List.map_map]
    exact List.mem_map.mpr ⟨file, hfile, rfl⟩
  · rw [hfiles, List.map_map] at hother
    obtain ⟨found, hfound, heq⟩ := List.mem_map.mp hother
    obtain ⟨hid, rfl⟩ := Prod.mk.inj heq
    rw [(hsourced found hfound).eq_of_ident hfree (hsourced file hfile) hid]
    rfl

/-- The untouched files of a graph are the records of the files that are kept. -/
theorem untouchedFiles_eq (hfree : fingerprint.CollisionFree contents)
    (hsourced : ∀ file ∈ files, file.Sourced parser contents)
    (hfiles : previous.files = files.map (ParsedFile.record fingerprint)) :
    untouchedFiles (classify previous changes) previous.files =
      (keptFiles changes files).map (ParsedFile.record fingerprint) := by
  have hbucket : ∀ file ∈ files, ((classify previous changes).files.find?
      (file.record fingerprint).id == some .untouched) =
        (Classification.bucketOfPath changes file.relativePath == .untouched) := by
    intro file hfile
    have hfind : (classify previous changes).files.find? (file.record fingerprint).id =
        some (Classification.bucketOfPath changes file.relativePath) :=
      find?_files_classify hfree hsourced hfiles hfile
    rw [hfind]
    rfl
  rw [untouchedFiles]
  conv_lhs => rw [hfiles]
  rw [List.filter_map, keptFiles]
  exact congrArg _ (List.filter_congr hbucket)

/-- The files of an update are the records of the next files. -/
theorem files_apply (hfree : fingerprint.CollisionFree contents)
    (hstandard : builder.Standard parser fingerprint contents fs directory
      (rebuildPaths builder fs directory changes))
    (hsourced : ∀ file ∈ files, file.Sourced parser contents)
    (hfiles : previous.files = files.map (ParsedFile.record fingerprint)) (relinkRetained : Bool) :
    (apply builder relinkRetained fs directory previous changes supply).graph.files =
      (nextFiles builder fs directory changes files).map (ParsedFile.record fingerprint) := by
  rw [graph_apply, nextFiles, List.map_append, ← untouchedFiles_eq hfree hsourced hfiles,
    ← hstandard.fingerprint_eq]
  rfl

/-- A component is kept exactly if the file it belongs to is. -/
theorem mem_untouched_iff_of_fileId (hfree : fingerprint.CollisionFree contents)
    (hsourced : ∀ file ∈ files, file.Sourced parser contents)
    (hfiles : previous.files = files.map (ParsedFile.record fingerprint))
    (hids : (previous.components.map (·.id)).Nodup) {c : Component} (hc : c ∈ previous.components)
    {file : ParsedFile} (hfile : file ∈ files) (hfileId : c.fileId = file.ident fingerprint) :
    c ∈ untouched (classify previous changes) previous.components ↔
      file ∈ keptFiles changes files := by
  rw [mem_untouched, mem_keptFiles, find?_components_classify hids hc, hfileId,
    find?_files_classify hfree hsourced hfiles hfile]
  simp [hc, hfile]

theorem mem_untouched_iff (hfree : fingerprint.CollisionFree contents)
    (hsourced : ∀ file ∈ files, file.Sourced parser contents)
    (h : Portrays fingerprint contents files previous)
    {c : Component} (hc : c ∈ previous.components) {file : ParsedFile} (hfile : file ∈ files)
    (hmem : c.unlink ∈ file.unlinked fingerprint) :
    c ∈ untouched (classify previous changes) previous.components ↔
      file ∈ keptFiles changes files := by
  have hfileId : c.unlink.fileId = file.ident fingerprint :=
    file.fileId_of_mem_unlinked fingerprint hmem
  exact mem_untouched_iff_of_fileId hfree hsourced h.files_eq h.identified.nodup hc hfile hfileId

/-- What is retained of a graph, unlinked, is what was kept, unlinked. -/
theorem exists_of_mem_relinked {relinkRetained : Bool} {c : Component}
    (hc : c ∈ (relinked builder relinkRetained fs directory previous changes supply).1) :
    ∃ d ∈ untouched (classify previous changes) previous.components, d.unlink = c.unlink := by
  obtain ⟨f, heq, hf⟩ :=
    exists_relinked_eq_map builder relinkRetained fs directory previous changes supply
  rw [heq] at hc
  obtain ⟨e, he, rfl⟩ := List.mem_map.mp hc
  obtain ⟨d, hd, rfl⟩ := List.mem_map.mp he
  refine ⟨d, hd, ?_⟩
  rcases hf with rfl | ⟨table, rfl⟩ <;> rfl

theorem exists_mem_relinked (relinkRetained : Bool) {d : Component}
    (hd : d ∈ untouched (classify previous changes) previous.components) :
    ∃ c ∈ (relinked builder relinkRetained fs directory previous changes supply).1,
      c.unlink = d.unlink := by
  obtain ⟨f, heq, hf⟩ :=
    exists_relinked_eq_map builder relinkRetained fs directory previous changes supply
  refine ⟨f (pruneLinks (classify previous changes).dropped d), ?_, ?_⟩
  · rw [heq]
    exact List.mem_map_of_mem (List.mem_map_of_mem hd)
  · rcases hf with rfl | ⟨table, rfl⟩ <;> rfl

/-- The retained components are components of the kept files. -/
theorem exists_keptFile_of_mem_relinked (hfree : fingerprint.CollisionFree contents)
    (hsourced : ∀ file ∈ files, file.Sourced parser contents)
    (h : Portrays fingerprint contents files previous)
    {relinkRetained : Bool} {c : Component}
    (hc : c ∈ (relinked builder relinkRetained fs directory previous changes supply).1) :
    ∃ file ∈ keptFiles changes files, c.unlink ∈ file.unlinked fingerprint := by
  obtain ⟨d, hd, heq⟩ := exists_of_mem_relinked hc
  obtain ⟨file, hfile, hmem⟩ := h.extracted d (mem_untouched.mp hd).1
  exact ⟨file, (mem_untouched_iff hfree hsourced h (mem_untouched.mp hd).1 hfile hmem).mp hd,
    heq ▸ hmem⟩

theorem portrays_built
    (hstandard : builder.Standard parser fingerprint contents fs directory
      (rebuildPaths builder fs directory changes)) :
    Portrays fingerprint contents (rebuiltFiles builder fs directory changes)
      (built builder fs directory previous changes supply).graph := by
  obtain rfl := hstandard.fingerprint_eq
  exact Builder.portrays_assemble hstandard.codes _

/-- An update of a portrait is a portrait of the next files. -/
theorem portrays_apply (hfree : fingerprint.CollisionFree contents)
    (hstandard : builder.Standard parser fingerprint contents fs directory
      (rebuildPaths builder fs directory changes))
    (hsourced : ∀ file ∈ files, file.Sourced parser contents)
    (h : Portrays fingerprint contents files previous)
    (relinkRetained : Bool) :
    Portrays fingerprint contents (nextFiles builder fs directory changes files)
      (apply builder relinkRetained fs directory previous changes supply).graph where
  files_eq := files_apply hfree hstandard hsourced h.files_eq relinkRetained
  identified := identified_apply hstandard.toWorksWith h.identified relinkRetained
  extracted := by
    intro c hc
    rw [graph_apply] at hc
    rcases List.mem_append.mp hc with hc | hc
    · obtain ⟨file, hfile, hmem⟩ := exists_keptFile_of_mem_relinked hfree hsourced h hc
      exact ⟨file, List.mem_append_left _ hfile, hmem⟩
    · obtain ⟨file, hfile, hmem⟩ :=
        (portrays_built hstandard).extracted c ((additions_sublist _ _).subset hc)
      exact ⟨file, List.mem_append_right _ hfile, hmem⟩

/-- An update keeps what it does not mention, and adds what it builds unless another file has it. -/
theorem complete_apply (hfree : fingerprint.CollisionFree contents)
    (hstandard : builder.Standard parser fingerprint contents fs directory
      (rebuildPaths builder fs directory changes))
    (hsourced : ∀ file ∈ files, file.Sourced parser contents)
    (h : Portrays fingerprint contents files previous)
    {earlier : List (List ParsedFile)} (hcomplete : Complete fingerprint files earlier previous)
    (relinkRetained : Bool) :
    Complete fingerprint (nextFiles builder fs directory changes files) (files :: earlier)
      (apply builder relinkRetained fs directory previous changes supply).graph := by
  intro file hfile d hd halone
  have hnow := halone _ List.mem_cons_self hfile
  rw [graph_apply]
  rcases List.mem_append.mp hfile with hkept | hrebuilt
  · have hold := (mem_keptFiles.mp hkept).1
    obtain ⟨c, hc, heq⟩ := hcomplete file hold d hd fun pass hpass =>
      halone pass (List.mem_cons_of_mem _ hpass)
    have huntouched := (mem_untouched_iff hfree hsourced h hc hold (heq ▸ hd)).mpr hkept
    obtain ⟨e, he, hunlink⟩ := exists_mem_relinked relinkRetained huntouched
    exact ⟨e, List.mem_append_left _ he, hunlink.trans heq⟩
  · obtain rfl := hstandard.fingerprint_eq
    obtain ⟨c, hc, rfl⟩ := Builder.exists_unlink_eq_of_alone hfree hstandard.codes
      (seedOf previous changes supply) hrebuilt hd
      fun other hother => hnow other (List.mem_append_right _ hother)
    rcases mem_additions_or hc with hadded | ⟨e, he, hid⟩
    · exact ⟨c, List.mem_append_right _ hadded, rfl⟩
    · -- The identifier is retained, so the name and the code are, and only this file has these.
      obtain ⟨hname, hcode⟩ := (identified_relinked h.identified relinkRetained).content_eq hfree
        (identified_built hstandard.toWorksWith) he hc hid
      obtain ⟨other, hother, hemem⟩ := exists_keptFile_of_mem_relinked hfree hsourced h he
      obtain rfl := hnow other (List.mem_append_left _ hother) _ hemem hname hcode
      exact ⟨e, List.mem_append_left _ he,
        other.eq_of_mem_unlinked builder.fingerprint hemem hd hname⟩

end Update

end CodeAtlas
