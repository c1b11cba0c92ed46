import CodeAtlas.Proofs.ChangeSets
import CodeAtlas.Proofs.LinkSoundness

/-!
# What an update leaves alone

The files that a change set does not mention are outside of it, and so are the components that belong
to them. An update keeps both, in front of everything it builds and in the order they had. Of a
component that is kept nothing but its links can change: without relinking, exactly the links to
components inside of the changes are gone. Everything else in the graph was built in the update.

None of this needs identifiers to come from content, nor the graph to come from a build. It is enough
that no two components and no two files have one identifier, since the classification goes by these.

## Main definitions

* `CodeGraph.filesOutside`, `CodeGraph.componentsOutside`: what the changes do not mention.
* `CodeGraph.idsInside`: the identifiers of all other components.

## Main results

* `Update.untouchedFiles_eq_filesOutside`, `Update.untouched_eq_componentsOutside`: what is kept is
  what is outside.
* `Update.update_frames`: the graph of an update, by what was outside and what was built.
-/

namespace CodeAtlas

namespace CodeGraph

/-- The files whose paths the changes do not mention. -/
def filesOutside (graph : CodeGraph) (changes : ChangeSet) : List SourceFile :=
  graph.files.filter fun file => !changes.mentions file.relativePath

/-- The component belongs to a file that the changes do not mention. -/
def isOutside (graph : CodeGraph) (changes : ChangeSet) (c : Component) : Bool :=
  (graph.filesOutside changes).any (·.id == c.fileId)

/-- The components of the files that the changes do not mention. -/
def componentsOutside (graph : CodeGraph) (changes : ChangeSet) : List Component :=
  graph.components.filter (graph.isOutside changes)

/-- The identifiers of the components of changed files and of files that are not in the graph. -/
def idsInside (graph : CodeGraph) (changes : ChangeSet) : List ComponentId :=
  (graph.components.filter fun c => !graph.isOutside changes c).map (·.id)

end CodeGraph

namespace Update

variable {previous : CodeGraph} {changes : ChangeSet}

/-! ### The classification -/

theorem bucketOfPath_eq_untouched_iff {path : String} :
    Classification.bucketOfPath changes path = .untouched ↔ changes.mentions path = false := by
  rw [Classification.bucketOfPath_eq_untouched]
  simp [ChangeSet.mentions, ChangeSet.toProcess, and_assoc]

/-- A file identifier is untouched when it is that of a file outside of the changes. -/
theorem find?_files_eq_untouched (hfiles : (previous.files.map (·.id)).Nodup) {id : FileId} :
    (classify previous changes).files.find? id = some .untouched ↔
      ∃ file ∈ previous.filesOutside changes, file.id = id := by
  constructor
  · intro hfound
    have hlookup := hfound
    simp only [classify, Buckets.find?_ofPairs] at hlookup
    obtain ⟨file, hfile, heq⟩ :=
      List.mem_map.mp (List.mem_reverse.mp (mem_of_lookup_eq_some hlookup))
    obtain ⟨hid, hbucket⟩ := Prod.mk.inj heq
    refine ⟨file, List.mem_filter.mpr ⟨hfile, ?_⟩, hid⟩
    rw [bucketOfPath_eq_untouched_iff.mp hbucket]
    rfl
  · rintro ⟨file, hfile, rfl⟩
    obtain ⟨hmem, houtside⟩ := List.mem_filter.mp hfile
    have hbucket : Classification.bucketOfPath changes file.relativePath = .untouched :=
      bucketOfPath_eq_untouched_iff.mpr (by simpa using houtside)
    refine Buckets.find?_ofPairs_of_mem (List.mem_map.mpr ⟨file, hmem, by rw [hbucket]⟩) ?_
    intro other hother
    obtain ⟨found, hfound, heq⟩ := List.mem_map.mp hother
    obtain ⟨hid, rfl⟩ := Prod.mk.inj heq
    rw [List.inj_on_of_nodup_map hfiles hfound hmem hid, hbucket]

/-- The files that are kept are those outside of the changes. -/
theorem untouchedFiles_eq_filesOutside (hfiles : (previous.files.map (·.id)).Nodup) :
    untouchedFiles (classify previous changes) previous.files = previous.filesOutside changes := by
  refine List.filter_congr fun file hfile => ?_
  rw [Bool.eq_iff_iff, beq_iff_eq, find?_files_eq_untouched hfiles]
  constructor
  · rintro ⟨other, hother, hid⟩
    obtain ⟨hmem, houtside⟩ := List.mem_filter.mp hother
    rwa [← List.inj_on_of_nodup_map hfiles hmem hfile hid]
  · exact fun houtside => ⟨file, List.mem_filter.mpr ⟨hfile, houtside⟩, rfl⟩

/-- The components that are kept are those outside of the changes. -/
theorem untouched_eq_componentsOutside (hcomponents : (previous.components.map (·.id)).Nodup)
    (hfiles : (previous.files.map (·.id)).Nodup) :
    untouched (classify previous changes) previous.components =
      previous.componentsOutside changes := by
  refine List.filter_congr fun c hc => ?_
  rw [Bool.eq_iff_iff, beq_iff_eq, find?_components_classify hcomponents hc, Option.some.injEq,
    CodeGraph.isOutside, List.any_eq_true]
  simp only [beq_iff_eq]
  rw [← find?_files_eq_untouched hfiles]
  cases (classify previous changes).files.find? c.fileId <;> simp

/-- The identifiers that are dropped are those inside of the changes. -/
theorem mem_dropped_iff (hcomponents : (previous.components.map (·.id)).Nodup)
    (hfiles : (previous.files.map (·.id)).Nodup) {id : ComponentId} :
    id ∈ (classify previous changes).dropped ↔ id ∈ previous.idsInside changes := by
  constructor
  · intro hdropped
    obtain ⟨⟨found, bucket⟩, hentry, rfl⟩ := List.mem_map.mp hdropped
    obtain ⟨hmem, hbucket⟩ := List.mem_filter.mp hentry
    have hpair := (Keyed.firsts_sublist Prod.fst _).subset hmem
    obtain ⟨c, hc, heq⟩ := List.mem_map.mp (List.mem_reverse.mp hpair)
    obtain ⟨rfl, rfl⟩ := Prod.mk.inj heq
    refine List.mem_map_of_mem (List.mem_filter.mpr ⟨hc, ?_⟩)
    -- Were the component outside, it would be kept and its bucket would say so.
    by_contra houtside
    have hkept : c ∈ untouched (classify previous changes) previous.components := by
      rw [untouched_eq_componentsOutside hcomponents hfiles]
      exact List.mem_filter.mpr ⟨hc, by simpa using houtside⟩
    have hfound := (mem_untouched.mp hkept).2
    rw [find?_components_classify hcomponents hc] at hfound
    exact bne_iff_ne.mp hbucket (Option.some.inj hfound)
  · intro hinside
    obtain ⟨c, hc, rfl⟩ := List.mem_map.mp hinside
    obtain ⟨hmem, houtside⟩ := List.mem_filter.mp hc
    by_contra hdropped
    have hkept := mem_untouched_of_not_mem_dropped hmem hdropped
    rw [untouched_eq_componentsOutside hcomponents hfiles] at hkept
    simp [(List.mem_filter.mp hkept).2] at houtside

/-! ### The update -/

variable {builder : Builder} {relinkRetained : Bool} {fs : FileSystem} {directory : String}
  {supply : IdSupply}

/-- Without their links, the kept components are as they were. -/
theorem map_unlink_relinked (hcomponents : (previous.components.map (·.id)).Nodup)
    (hfiles : (previous.files.map (·.id)).Nodup) :
    (relinked builder relinkRetained fs directory previous changes supply).1.map
        Component.unlink =
      (previous.componentsOutside changes).map Component.unlink := by
  obtain ⟨f, heq, hf⟩ :=
    exists_relinked_eq_map builder relinkRetained fs directory previous changes supply
  rw [heq, retained, untouched_eq_componentsOutside hcomponents hfiles, List.map_map, List.map_map]
  refine List.map_congr_left fun c _ => ?_
  rcases hf with rfl | ⟨table, rfl⟩ <;> rfl

/-- Without relinking, the kept components lose their links to what is inside of the changes. -/
theorem retained_eq (hcomponents : (previous.components.map (·.id)).Nodup)
    (hfiles : (previous.files.map (·.id)).Nodup) :
    retained previous changes = (previous.componentsOutside changes).map fun c =>
      { c with linkedIds := c.linkedIds.filter (· ∉ previous.idsInside changes) } := by
  rw [retained, untouched_eq_componentsOutside hcomponents hfiles]
  refine List.map_congr_left fun c _ => ?_
  have hlinks : c.linkedIds.filter (fun target =>
      !(classify previous changes).dropped.contains target) =
        c.linkedIds.filter (· ∉ previous.idsInside changes) := by
    refine List.filter_congr fun target _ => ?_
    simp [mem_dropped_iff hcomponents hfiles]
  rw [pruneLinks, hlinks]

/-- An update that changes anything puts the files outside of the changes first, as they were, and
then the files it has built. Their components come first as well, with nothing changed but their
links: without relinking, exactly those to components inside of the changes are gone. All other
components belong to files that were built, and a changed file is there only as it was built. -/
theorem update_frames {result : UpdateResult}
    (hcomponents : (previous.components.map (·.id)).Nodup)
    (hfiles : (previous.files.map (·.id)).Nodup) (hchanges : changes.hasChanges = true)
    (h : update builder relinkRetained fs directory previous changes supply = .ok result) :
    ∃ (rebuilt : List SourceFile) (kept added : List Component),
      rebuilt = (rebuiltFiles builder fs directory changes).map builder.fileRecord ∧
      result.graph.files = previous.filesOutside changes ++ rebuilt ∧
      result.graph.components = kept ++ added ∧
      kept.map Component.unlink = (previous.componentsOutside changes).map Component.unlink ∧
      (relinkRetained = false → kept = (previous.componentsOutside changes).map fun c =>
        { c with linkedIds := c.linkedIds.filter (· ∉ previous.idsInside changes) }) ∧
      (∀ c ∈ added, ∃ file ∈ rebuilt, file.id = c.fileId) ∧
      ∀ file ∈ result.graph.files, changes.mentions file.relativePath = true → file ∈ rebuilt := by
  rcases update_eq_ok h with ⟨hnone, -⟩ | ⟨-, rfl⟩
  · exact absurd (hnone.symm.trans hchanges) (by simp)
  have hoverall : (apply builder relinkRetained fs directory previous changes supply).graph.files =
      previous.filesOutside changes ++
        (rebuiltFiles builder fs directory changes).map builder.fileRecord := by
    rw [graph_apply, untouchedFiles_eq_filesOutside hfiles]
    rfl
  refine ⟨_, (relinked builder relinkRetained fs directory previous changes supply).1,
    additions (relinked builder relinkRetained fs directory previous changes supply).1
      (built builder fs directory previous changes supply).graph.components,
    rfl, hoverall, by rw [graph_apply], map_unlink_relinked hcomponents hfiles, ?_, ?_, ?_⟩
  · rintro rfl
    exact retained_eq hcomponents hfiles
  · intro c hc
    exact Builder.owned_assemble ((additions_sublist _ _).subset hc)
  · intro file hfile hmentioned
    rw [hoverall] at hfile
    rcases List.mem_append.mp hfile with houtside | hrebuilt
    · exact absurd hmentioned (by simpa using (List.mem_filter.mp houtside).2)
    · exact hrebuilt

/-! ### An update of a graph that was not built -/

/-- A component that is linked to one of its own file, to one of a changed file, to one of a file
that is not in the graph, and to one that is nowhere. -/
def hubCaller : Component where
  id := "caller"
  qualifiedName := "hub.caller"
  codeText := "call()"
  kind := .function
  fileId := "hub"
  parentId := some "nowhere"
  spans := [⟨3, 9⟩]
  linkedIds := ["stray", "nowhere", "helper", "changed"]
  externalIds := ["print"]
  referencedSymbols := []

/-- A component with the given identifier and file. -/
def hubPart (id : ComponentId) (fileId : FileId) : Component :=
  { hubCaller with id := id, fileId := fileId, linkedIds := [] }

/-- A graph of two files with a component of a third. -/
def hubGraph : CodeGraph where
  components :=
    [hubPart "changed" "m", hubCaller, hubPart "stray" "unknown", hubPart "helper" "hub"]
  files := [⟨"m", "m.mk", [], [], [], "old"⟩, ⟨"hub", "hub.mk", [], [], [], "code"⟩]
  externalSymbols := .empty

/-- One file was modified and deleted, and so was one that is not in the graph. -/
def hubChanges : ChangeSet :=
  ⟨["m.mk", "other.mk"], [], ["other.mk", "m.mk"]⟩

theorem update_frames_hub :
    ∃ result, update Run.sampleBuilder false Run.sampleTree "/repo" hubGraph hubChanges ⟨0⟩ =
        .ok result ∧
      ∃ rebuilt added, result.graph.files = ⟨"hub", "hub.mk", [], [], [], "code"⟩ :: rebuilt ∧
        result.graph.components =
          { hubCaller with linkedIds := ["nowhere", "helper"] } :: hubPart "helper" "hub" :: added ∧
        (∀ c ∈ added, ∃ file ∈ rebuilt, file.id = c.fileId) ∧
        rebuilt.map (·.formattedText) = ["ab"] := by
  obtain ⟨result, hupdate⟩ := exists_update_eq_ok Run.sampleBuilder false hubGraph hubChanges ⟨0⟩
    (by decide +kernel : Run.sampleTree.isDirectory "/repo" = true)
  obtain ⟨rebuilt, kept, added, hrebuilt, hfiles, hcomponents, -, hkept, hadded, -⟩ :=
    update_frames (by decide) (by decide) (by decide) hupdate
  have houtside : (hubGraph.componentsOutside hubChanges).map (fun c =>
      { c with linkedIds := c.linkedIds.filter (· ∉ hubGraph.idsInside hubChanges) }) =
        [{ hubCaller with linkedIds := ["nowhere", "helper"] }, hubPart "helper" "hub"] := by
    decide
  rw [hkept rfl, houtside] at hcomponents
  refine ⟨result, hupdate, rebuilt, added, hfiles, hcomponents, hadded, ?_⟩
  rw [hrebuilt]
  decide +kernel

end Update

end CodeAtlas
