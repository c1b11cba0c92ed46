import CodeAtlas.Proofs.ContentAddressing
import CodeAtlas.Proofs.StaleLinks
import CodeAtlas.Proofs.SymbolStability

/-!
# Updating twice with the same changes

A second update with the same changes drops everything the first one has built, builds it again and
gets the same graph, down to the order of its parts and the identifiers of its external symbols. What
the first update has kept is kept again, since whether a file is kept is decided by its path, and what
is built again has a path that the changes mention. The names to link against are then the same, and
the table holds all the external symbols already, so that nothing is minted.

The links of the components that are kept need some care. When they are linked again, they are linked
as before. When they are not, the second update takes away the links to what the first one has built.
A graph whose links lead to its own components has none of these after the first update. A graph that
was built against names of components outside of it can have some: if such a component is built by the
first update, the second one takes the link to it away.

## Main definitions

* `Builder.Steady`: what is asked of the builders of a run.
* `Update.Splits`: the parts of a graph that the changes do not mention, and those they do.

## Main results

* `Update.splits_apply`: how the changes split the graph of their own update.
* `Builder.assemble_again`: a build whose external symbols are all there already.
* `Update.apply_apply`: the second update gives the graph of the first one.
* `Run.update_again`: the same for every graph of a run.
* `Run.update_again_drops_link`: a link that the second update takes away.
-/

namespace CodeAtlas

/-! ### Files known by their content -/

/-- A file is given the path it was extracted from, with slashes for backslashes. -/
def Registry.SlashesPaths (registry : Registry) : Prop :=
  ∀ path source extractor file, registry.forPath? path = some extractor →
    extractor.extract path source = .ok file → file.relativePath = Text.replaceChar '\\' '/' path

theorem Registry.slashesPaths_standard (parser : SyntaxParser) :
    (standard parser).SlashesPaths := by
  intro path source extractor file hextractor hfile
  obtain ⟨language, _, _, _, rfl⟩ := exists_language_of_forPath? hextractor
  simp only [Extractor.ofLanguage] at hfile
  split at hfile
  · obtain rfl := Except.ok.inj hfile
    rfl
  · simp at hfile

/-- The builder identifies by the fingerprint, its extractors keep paths, and what it finds at the
paths is among the contents. -/
structure Builder.Steady (fingerprint : Fingerprint) (contents : Contents) (builder : Builder)
    (fs : FileSystem) (directory : String) (paths : List String) : Prop
    extends builder.WorksWith fingerprint contents fs directory paths where
  slashes_paths : builder.registry.SlashesPaths
  texts : ∀ file ∈ builder.extractFiles fs directory paths, contents file.relativePath file.text

theorem Builder.Standard.steady {parser : SyntaxParser} {fingerprint : Fingerprint}
    {contents : Contents} {builder : Builder} {fs : FileSystem} {directory : String}
    {paths : List String} (h : builder.Standard parser fingerprint contents fs directory paths) :
    builder.Steady fingerprint contents fs directory paths where
  toWorksWith := h.toWorksWith
  slashes_paths := h.registry_eq ▸ Registry.slashesPaths_standard parser
  texts := h.texts

theorem Builder.Steady.filesAddressed_buildFiles {fingerprint : Fingerprint} {contents : Contents}
    {builder : Builder} {fs : FileSystem} {directory : String} {paths : List String}
    (h : builder.Steady fingerprint contents fs directory paths) (seed : LinkSeed) :
    (builder.buildFiles fs directory paths seed).graph.FilesAddressed fingerprint contents := by
  intro record hrecord
  obtain ⟨file, hfile, rfl⟩ := List.mem_map.mp hrecord
  exact ⟨by rw [← h.fingerprint_eq]; rfl, h.texts file hfile⟩

namespace Update

variable {fingerprint : Fingerprint} {contents : Contents} {builder : Builder}
  {relinkRetained : Bool} {fs : FileSystem} {directory : String} {previous : CodeGraph}
  {changes : ChangeSet} {supply : IdSupply}

/-- An update keeps the files known by their content. -/
theorem filesAddressed_apply
    (hsteady : builder.Steady fingerprint contents fs directory
      (rebuildPaths builder fs directory changes))
    (h : previous.FilesAddressed fingerprint contents) (relinkRetained : Bool) :
    (apply builder relinkRetained fs directory previous changes supply).graph.FilesAddressed
      fingerprint contents := by
  intro file hfile
  rw [graph_apply] at hfile
  rcases List.mem_append.mp hfile with hkept | hbuilt
  · exact h file (List.mem_filter.mp hkept).1
  · exact hsteady.filesAddressed_buildFiles _ file hbuilt

/-- A file that is built is mentioned in the changes. -/
theorem bucketOfPath_ne_of_mem_built
    (hsteady : builder.Steady fingerprint contents fs directory
      (rebuildPaths builder fs directory changes))
    (hslashes : ∀ path ∈ changes.toProcess, fs.isFile (PathText.join directory path) = true →
      '\\' ∉ path.toList) {file : SourceFile}
    (hfile : file ∈ (built builder fs directory previous changes supply).graph.files) :
    Classification.bucketOfPath changes file.relativePath ≠ .untouched := by
  obtain ⟨parsed, hparsed, rfl⟩ := List.mem_map.mp hfile
  obtain ⟨path, hpath, hextract⟩ := Builder.exists_extract_of_mem_extractFiles hparsed
  obtain ⟨extractor, source, hextractor, -, hfound⟩ := Builder.extractFile_eq_ok hextract
  obtain ⟨hprocess, hbuildable⟩ := List.mem_filter.mp (Text.mem_sortedSet.mp hpath)
  have hback := hslashes path hprocess (Bool.and_eq_true _ _ ▸ hbuildable).2
  have hrelative : parsed.relativePath = path :=
    (hsteady.slashes_paths path source extractor parsed hextractor hfound).trans
      (Text.replaceChar_eq_self_iff.mpr hback)
  have hrecord : (builder.fileRecord parsed).relativePath = path := hrelative
  rw [hrecord]
  exact fun huntouched => (Classification.bucketOfPath_eq_untouched.mp huntouched).1 hprocess

/-! ### What the changes split off -/

/-- The graph has some files that the changes do not mention and some that they do, each with its
components; the files of one identifier have one path. -/
structure Splits (changes : ChangeSet) (graph : CodeGraph) (kept added : List Component)
    (outside inside : List SourceFile) : Prop where
  components_eq : graph.components = kept ++ added
  files_eq : graph.files = outside ++ inside
  nodup_ids : (graph.components.map (·.id)).Nodup
  paths_eq : ∀ file ∈ graph.files, ∀ other ∈ graph.files, file.id = other.id →
    file.relativePath = other.relativePath
  untouched_outside : ∀ file ∈ outside,
    Classification.bucketOfPath changes file.relativePath = .untouched
  touched_inside : ∀ file ∈ inside,
    Classification.bucketOfPath changes file.relativePath ≠ .untouched
  file_of_kept : ∀ c ∈ kept, ∃ file ∈ outside, file.id = c.fileId
  file_of_added : ∀ c ∈ added, ∃ file ∈ inside, file.id = c.fileId

/-- Where files of one identifier have one path, each has the bucket of its path. -/
theorem find?_files_of_paths_eq {graph : CodeGraph}
    (hpaths : ∀ file ∈ graph.files, ∀ other ∈ graph.files, file.id = other.id →
      file.relativePath = other.relativePath) {file : SourceFile} (hfile : file ∈ graph.files) :
    (classify graph changes).files.find? file.id =
      some (Classification.bucketOfPath changes file.relativePath) := by
  refine Buckets.find?_ofPairs_of_mem (List.mem_map.mpr ⟨file, hfile, rfl⟩) fun bucket hbucket => ?_
  obtain ⟨other, hother, heq⟩ := List.mem_map.mp hbucket
  obtain ⟨hid, rfl⟩ := Prod.mk.inj heq
  rw [hpaths other hother file hfile hid]

namespace Splits

variable {graph : CodeGraph} {kept added : List Component} {outside inside : List SourceFile}

/-- The files that are kept are those outside. -/
theorem untouchedFiles_eq (h : Splits changes graph kept added outside inside) :
    untouchedFiles (classify graph changes) graph.files = outside := by
  have hbucket : ∀ file ∈ graph.files, ((classify graph changes).files.find? file.id ==
      some .untouched) = (Classification.bucketOfPath changes file.relativePath == .untouched) := by
    intro file hfile
    rw [find?_files_of_paths_eq h.paths_eq hfile]
    rfl
  rw [untouchedFiles, List.filter_congr hbucket, h.files_eq, List.filter_append,
    List.filter_eq_self.mpr fun file hfile => by simp [h.untouched_outside file hfile],
    List.filter_eq_nil_iff.mpr fun file hfile => by simpa using h.touched_inside file hfile,
    List.append_nil]

theorem find?_components (h : Splits changes graph kept added outside inside) {c : Component}
    (hc : c ∈ graph.components) {file : SourceFile} (hfile : file ∈ graph.files)
    (hid : file.id = c.fileId) :
    (classify graph changes).components.find? c.id =
      some (Classification.bucketOfPath changes file.relativePath) := by
  rw [find?_components_classify h.nodup_ids hc, ← hid, find?_files_of_paths_eq h.paths_eq hfile,
    Option.getD_some]

/-- The components that are kept are those outside. -/
theorem untouched_eq (h : Splits changes graph kept added outside inside) :
    untouched (classify graph changes) graph.components = kept := by
  have hkept : ∀ c ∈ kept, (classify graph changes).components.find? c.id = some .untouched := by
    intro c hc
    obtain ⟨file, hfile, hid⟩ := h.file_of_kept c hc
    rw [h.find?_components (h.components_eq ▸ List.mem_append_left _ hc)
      (h.files_eq ▸ List.mem_append_left _ hfile) hid, h.untouched_outside file hfile]
  have hadded : ∀ c ∈ added, (classify graph changes).components.find? c.id ≠ some .untouched := by
    intro c hc
    obtain ⟨file, hfile, hid⟩ := h.file_of_added c hc
    rw [h.find?_components (h.components_eq ▸ List.mem_append_right _ hc)
      (h.files_eq ▸ List.mem_append_right _ hfile) hid]
    exact fun heq => h.touched_inside file hfile (Option.some.inj heq)
  rw [untouched, h.components_eq, List.filter_append,
    List.filter_eq_self.mpr fun c hc => by simp [hkept c hc],
    List.filter_eq_nil_iff.mpr fun c hc => by simpa using hadded c hc, List.append_nil]

end Splits

/-- The changes split the graph of their own update into what it has kept and what it has built. -/
theorem splits_apply (hfree : fingerprint.CollisionFree contents)
    (hsteady : builder.Steady fingerprint contents fs directory
      (rebuildPaths builder fs directory changes))
    (hslashes : ∀ path ∈ changes.toProcess, fs.isFile (PathText.join directory path) = true →
      '\\' ∉ path.toList)
    (hids : (previous.components.map (·.id)).Nodup)
    (hfiles : previous.FilesAddressed fingerprint contents) :
    Splits changes (apply builder relinkRetained fs directory previous changes supply).graph
      (relinked builder relinkRetained fs directory previous changes supply).1
      (additions (relinked builder relinkRetained fs directory previous changes supply).1
        (built builder fs directory previous changes supply).graph.components)
      (untouchedFiles (classify previous changes) previous.files)
      (built builder fs directory previous changes supply).graph.files where
  components_eq := by rw [graph_apply]
  files_eq := by rw [graph_apply]
  nodup_ids := nodup_ids_apply relinkRetained hids
  paths_eq := fun _ hfile _ hother =>
    (filesAddressed_apply hsteady hfiles relinkRetained).relativePath_eq hfree hfile hother
  untouched_outside := by
    intro file hfile
    obtain ⟨hmem, hbucket⟩ := List.mem_filter.mp hfile
    rw [find?_files_of_paths_eq (fun _ hfile _ hother => hfiles.relativePath_eq hfree hfile hother)
      hmem] at hbucket
    exact Option.some.inj (beq_iff_eq.mp hbucket)
  touched_inside := fun file hfile => bucketOfPath_ne_of_mem_built hsteady hslashes hfile
  file_of_kept := by
    intro c hc
    obtain ⟨d, hd, heq⟩ := exists_of_mem_relinked hc
    have hfileId : d.unlink.fileId = c.unlink.fileId := congrArg Component.fileId heq
    obtain ⟨file, hfile, hid⟩ := exists_untouchedFile hids hd
    exact ⟨file, hfile, hid.trans hfileId⟩
  file_of_added := fun c hc => Builder.owned_assemble ((additions_sublist _ _).subset hc)

/-- What is kept is not dropped. -/
theorem notMem_dropped_of_mem_untouched {graph : CodeGraph} {c : Component}
    (h : c ∈ untouched (classify graph changes) graph.components) :
    c.id ∉ (classify graph changes).dropped := by
  intro hdropped
  obtain ⟨⟨id, bucket⟩, hentry, rfl⟩ := List.mem_map.mp hdropped
  obtain ⟨hmem, hbucket⟩ := List.mem_filter.mp hentry
  have hkeys : ((classify graph changes).components.map Prod.fst).Nodup :=
    Keyed.nodup_map_firsts Prod.fst _
  have hkept := mem_of_lookup_eq_some (mem_untouched.mp h).2
  have heq := congrArg Prod.snd (List.inj_on_of_nodup_map hkeys hmem hkept rfl)
  exact absurd heq (bne_iff_ne.mp hbucket)

end Update

/-! ### Building again -/

theorem SymbolTable.Grows.contains {table table' : SymbolTable} (h : Grows table table')
    {name : String} (hname : table.contains name = true) : table'.contains name = true := by
  obtain ⟨id, hid⟩ := Option.isSome_iff_exists.mp hname
  exact Option.isSome_iff_exists.mpr ⟨id, h name id hid⟩

/-- A build against the same names and a table that has grown from that of an earlier build gives the
same components and mints nothing. -/
theorem Builder.assemble_again {builder : Builder} {files : List ParsedFile} {seed : LinkSeed}
    {table : SymbolTable}
    (hgrows : SymbolTable.Grows (builder.assemble files seed).graph.externalSymbols table)
    (supply : IdSupply) :
    (builder.assemble files ⟨seed.known, ⟨table, supply⟩⟩).nameTable =
        (builder.assemble files seed).nameTable ∧
      (builder.assemble files ⟨seed.known, ⟨table, supply⟩⟩).graph =
        { (builder.assemble files seed).graph with externalSymbols := table } ∧
      (builder.assemble files ⟨seed.known, ⟨table, supply⟩⟩).supply = supply := by
  have hnames : (builder.assemble files ⟨seed.known, ⟨table, supply⟩⟩).nameTable =
      (builder.assemble files seed).nameTable := by
    rw [nameTable_assemble, nameTable_assemble]
  have hexternals := externals_assemble builder files ⟨seed.known, ⟨table, supply⟩⟩
  rw [Externals.internAll_of_contains, Externals.mk.injEq] at hexternals
  · have hcomponents : (builder.assemble files ⟨seed.known, ⟨table, supply⟩⟩).graph.components =
        (builder.assemble files seed).graph.components := by
      rw [components_assemble, components_assemble builder files seed, hnames, hexternals.1]
      refine List.map_congr_left fun c hc => ?_
      rw [Component.linkedBy, Component.linkedBy,
        externalTargets_of_grows hgrows fun name hname => contains_assemble hc hname]
    have hgraph : (builder.assemble files ⟨seed.known, ⟨table, supply⟩⟩).graph =
        { (builder.assemble files seed).graph with externalSymbols := table } :=
      congrArg₂ (CodeGraph.mk · (files.map builder.fileRecord) ·) hcomponents hexternals.1
    exact ⟨hnames, hgraph, hexternals.2⟩
  · intro name hname
    obtain ⟨c, hc, hunknown⟩ := List.mem_flatMap.mp hname
    rw [hnames] at hunknown
    exact hgrows.contains (contains_assemble hc hunknown)

namespace Update

variable {fingerprint : Fingerprint} {contents : Contents} {builder : Builder}
  {relinkRetained : Bool} {fs : FileSystem} {directory : String} {previous : CodeGraph}
  {changes : ChangeSet} {supply : IdSupply}

/-- Components with the same names and identifiers are the same to link against. -/
theorem seedOf_eq {graph : CodeGraph}
    (h : (retained graph changes).map (fun c => (c.qualifiedName, c.id)) =
      (retained previous changes).map fun c => (c.qualifiedName, c.id)) (supply supply' : IdSupply) :
    seedOf graph changes supply' =
      ⟨(seedOf previous changes supply).known, ⟨graph.externalSymbols, supply'⟩⟩ := by
  rw [seedOf, h]
  rfl

/-- The kept components have the names and identifiers they had. -/
theorem map_name_relinked :
    (relinked builder relinkRetained fs directory previous changes supply).1.map
        (fun c => (c.qualifiedName, c.id)) =
      (retained previous changes).map fun c => (c.qualifiedName, c.id) := by
  obtain ⟨f, heq, hf⟩ :=
    exists_relinked_eq_map builder relinkRetained fs directory previous changes supply
  rw [heq, List.map_map]
  rcases hf with rfl | ⟨table, rfl⟩ <;> rfl

/-- Links among the kept components are not taken away by a second update. -/
theorem pruneLinks_eq_self {graph : CodeGraph} {c : Component}
    (h : ∀ target ∈ c.linkedIds, target ∉ (classify graph changes).dropped) :
    pruneLinks (classify graph changes).dropped c = c := by
  have hlinks : c.linkedIds.filter (fun target => !(classify graph changes).dropped.contains target) =
      c.linkedIds := by
    refine List.filter_eq_self.mpr fun target htarget => ?_
    simpa using h target htarget
  rw [pruneLinks, hlinks]

/-- In a graph whose links lead to its own components, the links that are left after pruning lead to
retained components. -/
theorem exists_retained_of_mem_linkedIds
    (hinside : ∀ c ∈ previous.components, ∀ target ∈ c.linkedIds,
      ∃ d ∈ previous.components, d.id = target) {c : Component} (hc : c ∈ retained previous changes)
    {target : ComponentId} (htarget : target ∈ c.linkedIds) :
    ∃ d ∈ retained previous changes, d.id = target := by
  obtain ⟨e, he, rfl⟩ := List.mem_map.mp hc
  obtain ⟨hlinked, hleft⟩ := List.mem_filter.mp htarget
  obtain ⟨d, hd, rfl⟩ := hinside e (mem_untouched.mp he).1 target hlinked
  have hkept := mem_untouched_of_not_mem_dropped hd (by simpa using hleft)
  exact ⟨_, List.mem_map_of_mem hkept, rfl⟩

/-- The kept components of the second update are those of the first. -/
theorem relinked_again {graph : CodeGraph} (supply' : IdSupply)
    (hkept : untouched (classify graph changes) graph.components =
      (relinked builder relinkRetained fs directory previous changes supply).1)
    (htable : graph.externalSymbols =
      (relinked builder relinkRetained fs directory previous changes supply).2.table)
    (hinside : relinkRetained = false → ∀ c ∈ previous.components, ∀ target ∈ c.linkedIds,
      ∃ d ∈ previous.components, d.id = target)
    (hnames : (built builder fs directory graph changes supply').nameTable =
      (built builder fs directory previous changes supply).nameTable)
    (hexternals : (built builder fs directory graph changes supply').graph.externalSymbols =
      graph.externalSymbols)
    (hsupply : (built builder fs directory graph changes supply').supply = supply') :
    relinked builder relinkRetained fs directory graph changes supply' =
      ((relinked builder relinkRetained fs directory previous changes supply).1,
        ⟨graph.externalSymbols, supply'⟩) := by
  have hretained : retained graph changes =
      (relinked builder relinkRetained fs directory previous changes supply).1.map
        (pruneLinks (classify graph changes).dropped) := by
    rw [retained, hkept]
  cases relinkRetained with
  | false =>
    have hsame : retained graph changes = retained previous changes := by
      rw [hretained]
      refine (List.map_congr_left fun c hc => pruneLinks_eq_self fun target htarget => ?_).trans
        (List.map_id _)
      obtain ⟨d, hd, rfl⟩ := exists_retained_of_mem_linkedIds (hinside rfl) hc htarget
      exact notMem_dropped_of_mem_untouched (hkept ▸ hd)
    simp only [relinked, Bool.false_eq_true, ↓reduceIte, hsame, hexternals, hsupply]
  | true =>
    -- Linking looks at nothing of a component but its identifier and its references.
    have hlinked : ∀ names table, (retained graph changes).map (Component.linkedBy names table) =
        (retained previous changes).map (Component.linkedBy names table) := by
      intro names table
      rw [hretained, relinked_fst, List.map_map, List.map_map]
      rfl
    have hreferences : (retained graph changes).flatMap (fun c => unknownNames
          (built builder fs directory previous changes supply).nameTable c.referencedSymbols) =
        (retained previous changes).flatMap fun c => unknownNames
          (built builder fs directory previous changes supply).nameTable c.referencedSymbols := by
      rw [hretained, relinked_fst, List.flatMap_map, List.flatMap_map]
      rfl
    have hsecond : (relinked builder true fs directory graph changes supply').2 =
        ⟨graph.externalSymbols, supply'⟩ := by
      rw [relinked_snd, hnames, hexternals, hsupply, hreferences]
      refine Externals.internAll_of_contains fun name hname => ?_
      simp only [htable]
      rw [relinked_snd, Externals.contains_internAll]
      exact Or.inr hname
    refine Prod.ext ?_ hsecond
    rw [relinked_fst, hsecond, hnames, hlinked, relinked_fst, htable]

/-- A second update with the same changes gives the graph of the first one and mints nothing. -/
theorem apply_apply (hfree : fingerprint.CollisionFree contents)
    (hsteady : builder.Steady fingerprint contents fs directory
      (rebuildPaths builder fs directory changes))
    (hslashes : ∀ path ∈ changes.toProcess, fs.isFile (PathText.join directory path) = true →
      '\\' ∉ path.toList)
    (hids : (previous.components.map (·.id)).Nodup)
    (hfiles : previous.FilesAddressed fingerprint contents)
    (hinside : relinkRetained = false → ∀ c ∈ previous.components, ∀ target ∈ c.linkedIds,
      ∃ d ∈ previous.components, d.id = target) (supply' : IdSupply) :
    (apply builder relinkRetained fs directory
        (apply builder relinkRetained fs directory previous changes supply).graph changes
        supply').graph =
      (apply builder relinkRetained fs directory previous changes supply).graph ∧
    (apply builder relinkRetained fs directory
        (apply builder relinkRetained fs directory previous changes supply).graph changes
        supply').supply = supply' := by
  have hsplits : Splits changes
      (apply builder relinkRetained fs directory previous changes supply).graph _ _ _ _ :=
    splits_apply hfree hsteady hslashes hids hfiles
  generalize hgraph : (apply builder relinkRetained fs directory previous changes supply).graph =
    graph at hsplits ⊢
  have hgrows := grows_built_apply builder relinkRetained fs directory previous changes supply
  rw [hgraph] at hgrows
  rw [graph_apply] at hgraph
  have htable : graph.externalSymbols =
      (relinked builder relinkRetained fs directory previous changes supply).2.table := by
    rw [← hgraph]
  have hpairs : (retained graph changes).map (fun c => (c.qualifiedName, c.id)) =
      (retained previous changes).map fun c => (c.qualifiedName, c.id) := by
    rw [retained, hsplits.untouched_eq, List.map_map, ← map_name_relinked]
    rfl
  rw [built] at hgrows
  obtain ⟨hnames, hbuilt, hsupply⟩ := Builder.assemble_again hgrows supply'
  rw [← seedOf_eq hpairs supply supply', ← built, ← built] at hnames hbuilt
  rw [← seedOf_eq hpairs supply supply', ← built] at hsupply
  have hrelinked := relinked_again supply' hsplits.untouched_eq htable hinside hnames
    (by rw [hbuilt]) hsupply
  rw [graph_apply, supply_apply, hrelinked, hsplits.untouchedFiles_eq, hbuilt, htable]
  exact ⟨hgraph, rfl⟩

/-- An update succeeds only on a directory that exists. -/
theorem isDirectory_of_update {result : UpdateResult}
    (h : update builder relinkRetained fs directory previous changes supply = .ok result) :
    fs.isDirectory directory = true := by
  unfold update at h
  split at h
  · simp at h
  · rename_i hdirectory
    simpa using hdirectory

end Update

/-! ### Runs -/

namespace Run

theorem Started.mono {Allowed Allowed' : Builder → FileSystem → String → List String → Prop}
    (hallowed : ∀ builder fs directory paths, Allowed builder fs directory paths →
      Allowed' builder fs directory paths) {known : NameTable}
    {graph : CodeGraph} (h : Started Allowed known graph) : Started Allowed' known graph := by
  cases h with
  | files allowed seed => exact .files (hallowed _ _ _ _ allowed) seed
  | directory found allowed built => exact .directory found (hallowed _ _ _ _ allowed) built

theorem Step.mono {Allowed Allowed' : Builder → FileSystem → String → List String → Prop}
    (hallowed : ∀ builder fs directory paths, Allowed builder fs directory paths →
      Allowed' builder fs directory paths) {graph graph' : CodeGraph}
    (h : Step Allowed graph graph') : Step Allowed' graph graph' := by
  cases h with
  | update allowed updated => exact .update (hallowed _ _ _ _ allowed) updated
  | filter _ keep => exact .filter graph keep
  | reload saved loaded => exact .reload saved loaded

variable {fingerprint : Fingerprint} {contents : Contents} {known : NameTable} {graph : CodeGraph}

/-- In every run the components are identified, the links sound up to the names of the first build,
and the files known by their content. -/
theorem filesAddressed_reached (hfree : fingerprint.CollisionFree contents)
    (h : Reached (Builder.Steady fingerprint contents) known graph) :
    (Identified fingerprint contents graph.components ∧ graph.LinkSound known) ∧
      graph.FilesAddressed fingerprint contents := by
  have hworks : ∀ builder fs directory paths,
      Builder.Steady fingerprint contents builder fs directory paths →
      builder.WorksWith fingerprint contents fs directory paths :=
    fun _ _ _ _ hsteady => hsteady.toWorksWith
  induction h with
  | start hstart =>
    refine ⟨linkSound_started hfree (hstart.mono hworks), ?_⟩
    cases hstart with
    | files hsteady seed => exact hsteady.filesAddressed_buildFiles seed
    | directory hfound hsteady hbuilt =>
      obtain ⟨collected, hcollected, rfl⟩ := Builder.buildDirectory_eq_ok hbuilt
      obtain rfl := Option.some.inj (hfound.symm.trans hcollected)
      exact hsteady.filesAddressed_buildFiles _
  | @step graph _ _ hstep ih =>
    obtain ⟨⟨hids, hsound⟩, hfiles⟩ := ih
    refine ⟨linkSound_step hfree hids hsound (hstep.mono hworks), ?_⟩
    cases hstep with
    | update hsteady hupdate =>
      rcases Update.update_eq_ok hupdate with ⟨-, hsame, -⟩ | ⟨-, rfl⟩
      · rwa [hsame]
      · exact Update.filesAddressed_apply hsteady hfiles _
    | filter _ keep => exact hfiles
    | @reload store fs fs' _ repository commit document hsaved hloaded =>
      have hcurrent : (Document.ofGraph graph repository commit).isCurrent = true :=
        beq_self_eq_true currentSchema
      rcases GraphStore.eq_of_load hsaved hloaded hids.nodup hcurrent with rfl | rfl
      · exact hfiles
      · exact fun file hfile => hfiles file ((Keyed.lasts_sublist _ _).subset hfile)

/-- In every run, a second update with the same changes succeeds, gives the graph of the first one
and mints nothing: always when the retained components are linked again, and otherwise when the links
of the graph lead to its own components, as they do unless the first build was given names. -/
theorem update_again (hfree : fingerprint.CollisionFree contents)
    (hreached : Reached (Builder.Steady fingerprint contents) known graph) {builder : Builder}
    {fs : FileSystem} {directory : String} {changes : ChangeSet}
    (hsteady : builder.Steady fingerprint contents fs directory
      (Update.rebuildPaths builder fs directory changes)) (hchanges : changes.hasChanges = true)
    (hslashes : ∀ path ∈ changes.toProcess, fs.isFile (PathText.join directory path) = true →
      '\\' ∉ path.toList) {relinkRetained : Bool}
    (hinside : relinkRetained = true ∨ known = [] ∨ ∀ c ∈ graph.components,
      ∀ target ∈ c.linkedIds, ∃ d ∈ graph.components, d.id = target)
    {supply : IdSupply} {result : UpdateResult}
    (hfirst : update builder relinkRetained fs directory graph changes supply = .ok result)
    (supply' : IdSupply) :
    ∃ again, update builder relinkRetained fs directory result.graph changes supply' = .ok again ∧
      again.graph = result.graph ∧ again.supply = supply' := by
  obtain ⟨⟨hids, hsound⟩, hfiles⟩ := filesAddressed_reached hfree hreached
  have hlinks : relinkRetained = false → ∀ c ∈ graph.components, ∀ target ∈ c.linkedIds,
      ∃ d ∈ graph.components, d.id = target := by
    rintro rfl c hc target htarget
    rcases hinside with hrelink | rfl | hinside
    · exact absurd hrelink (by decide)
    · obtain ⟨name, -, ⟨d, hd, hid, -⟩ | hknown⟩ := (hsound.sound c hc).target target htarget
      · exact ⟨d, hd, hid⟩
      · exact absurd hknown (by simp [NameTable.find?])
    · exact hinside c hc target htarget
  rcases Update.update_eq_ok hfirst with ⟨hnone, -⟩ | ⟨-, rfl⟩
  · exact absurd (hnone.symm.trans hchanges) (by decide)
  · exact ⟨_, Update.update_eq_apply _ _ _ _ (Update.isDirectory_of_update hfirst) hchanges,
      Update.apply_apply hfree hsteady hslashes hids.nodup hfiles hlinks supply'⟩

/-! ### A caller and its callee -/

/-- The tree in which a module calls another one. -/
def callerTree : FileSystem :=
  (WorkTree.callTree "y").fs

theorem steady_callBuilder (paths : List String) :
    WorkTree.callBuilder.Steady .verbatim .clear callerTree "/repo" paths := by
  have hnames : callerTree.ClearNames := by decide +kernel
  exact (WorkTree.callBuilder.standard_of_clearNames rfl hnames "/repo" paths).steady

/-- The caller is built, against some names. -/
def callerBuild (known : NameTable) : CodeGraph :=
  (WorkTree.callBuilder.buildFiles callerTree "/repo" ["a.py"] ⟨known, ⟨.empty, ⟨0⟩⟩⟩).graph

/-- The callee is added. -/
def calleeAdded : ChangeSet :=
  ⟨[], ["b.py"], []⟩

/-- The caller with the callee. -/
def calleeUpdate (known : NameTable) : UpdateResult :=
  Update.apply WorkTree.callBuilder false callerTree "/repo" (callerBuild known) calleeAdded ⟨1⟩

private theorem reached_callerBuild (known : NameTable) :
    Reached (Builder.Steady .verbatim .clear) known (callerBuild known) :=
  .start (.files (steady_callBuilder ["a.py"]) ⟨known, ⟨.empty, ⟨0⟩⟩⟩)

private theorem update_callerBuild (known : NameTable) :
    update WorkTree.callBuilder false callerTree "/repo" (callerBuild known) calleeAdded ⟨1⟩ =
      .ok (calleeUpdate known) :=
  Update.update_eq_apply _ _ _ _ (by decide +kernel) rfl

theorem update_again_callee :
    (calleeUpdate []).graph.components.map (·.externalIds.length) = [1, 0] ∧
    ∃ again, update WorkTree.callBuilder false callerTree "/repo" (calleeUpdate []).graph
        calleeAdded ⟨7⟩ = .ok again ∧
      again.graph = (calleeUpdate []).graph ∧ again.supply = ⟨7⟩ :=
  ⟨by decide +kernel, update_again Fingerprint.collisionFree_verbatim (reached_callerBuild [])
    (steady_callBuilder _) rfl (by decide +kernel) (Or.inr (Or.inl rfl))
    (update_callerBuild []) ⟨7⟩⟩

/-- The caller was built against the name of the callee, and is linked to it as long as it is not in
the graph when the links are pruned. -/
theorem update_again_drops_link :
    ¬ ∀ (fingerprint : Fingerprint) (contents : Contents) (known : NameTable) (graph : CodeGraph)
      (builder : Builder) (fs : FileSystem) (directory : String) (changes : ChangeSet)
      (relinkRetained : Bool) (supply supply' : IdSupply) (result : UpdateResult),
      fingerprint.CollisionFree contents →
      Reached (Builder.Steady fingerprint contents) known graph →
      builder.Steady fingerprint contents fs directory
        (Update.rebuildPaths builder fs directory changes) →
      changes.hasChanges = true →
      (∀ path ∈ changes.toProcess, fs.isFile (PathText.join directory path) = true →
        '\\' ∉ path.toList) →
      update builder relinkRetained fs directory graph changes supply = .ok result →
      ∃ again, update builder relinkRetained fs directory result.graph changes supply' =
        .ok again ∧ again.graph = result.graph := by
  intro hall
  obtain ⟨again, hagain, hgraph⟩ := hall _ _ _ _ _ _ _ _ _ _ ⟨1⟩ _
    Fingerprint.collisionFree_verbatim (reached_callerBuild [("b", "b\x00y")])
    (steady_callBuilder _) rfl (by decide +kernel)
    (update_callerBuild [("b", "b\x00y")])
  have hlinks : (calleeUpdate [("b", "b\x00y")]).graph.components.map (·.linkedIds) =
      [["b\x00y"], []] := by decide +kernel
  have hpruned : (update WorkTree.callBuilder false callerTree "/repo"
      (calleeUpdate [("b", "b\x00y")]).graph calleeAdded ⟨1⟩).toOption.map
        (fun again => again.graph.components.map (·.linkedIds)) = some [[], []] := by
    decide +kernel
  rw [hagain] at hpruned
  have hnone : again.graph.components.map (·.linkedIds) = [[], []] := Option.some.inj hpruned
  rw [hgraph, hlinks] at hnone
  exact absurd hnone (by decide)

end Run

end CodeAtlas
