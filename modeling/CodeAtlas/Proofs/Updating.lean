import CodeAtlas.Proofs.Building
import CodeAtlas.Update

/-!
# What an update gives

An update keeps the components of the files that the changes do not mention, builds the files they
mention, and adds what was built to what was kept. Whether a component is kept is decided by its
file: the classification of a graph with distinct identifiers gives every component the bucket of
its file, and every file the bucket of its path.

## Main definitions

* `Update.retained`, `Update.rebuiltFiles`, `Update.built`, `Update.relinked`: the parts of an
  update.

## Main results

* `Update.update_eq_ok`: an update that succeeds does nothing, or is put together of its parts.
* `Update.mem_untouched_of_not_mem_dropped`: what is not kept is dropped.
* `Update.exists_untouchedFile`: the file of a component that is kept is kept.
-/

namespace CodeAtlas

/-- A path is untouched when it is neither to be extracted again nor deleted. -/
theorem Classification.bucketOfPath_eq_untouched {changes : ChangeSet} {path : String} :
    bucketOfPath changes path = .untouched ↔ path ∉ changes.toProcess ∧ path ∉ changes.deleted := by
  unfold bucketOfPath
  split_ifs with hprocess hdeleted
  · simpa using fun hnot => absurd (by simpa using hprocess) hnot
  · simpa using fun _ => by simpa using hdeleted
  · simpa using ⟨by simpa using hprocess, by simpa using hdeleted⟩

namespace Update

/-! ### Classification -/

section Classification

variable {previous : CodeGraph} {changes : ChangeSet}

theorem mem_untouched {c : Component} :
    c ∈ untouched (classify previous changes) previous.components ↔
      c ∈ previous.components ∧
        (classify previous changes).components.find? c.id = some .untouched := by
  simp [untouched]

/-- A component that is not kept is dropped. -/
theorem mem_untouched_of_not_mem_dropped {c : Component} (hc : c ∈ previous.components)
    (h : c.id ∉ (classify previous changes).dropped) :
    c ∈ untouched (classify previous changes) previous.components := by
  have hsome : ((classify previous changes).components.find? c.id).isSome = true := by
    simp only [classify, Buckets.find?_ofPairs, ← List.map_reverse]
    rw [lookup_eq_find?, Option.isSome_map, List.find?_isSome]
    exact ⟨_, List.mem_map_of_mem (List.mem_reverse.mpr hc), beq_self_eq_true _⟩
  obtain ⟨bucket, hbucket⟩ := Option.isSome_iff_exists.mp hsome
  refine mem_untouched.mpr ⟨hc, hbucket.trans ?_⟩
  by_contra hne
  refine h (List.mem_map.mpr ⟨(c.id, bucket), List.mem_filter.mpr ⟨?_, ?_⟩, rfl⟩)
  · exact mem_of_lookup_eq_some hbucket
  · simpa using fun heq => hne (congrArg some heq)

/-- The bucket of a component among distinct ones is that of its file. -/
theorem find?_components_classify (hids : (previous.components.map (·.id)).Nodup) {c : Component}
    (hc : c ∈ previous.components) :
    (classify previous changes).components.find? c.id =
      some (((classify previous changes).files.find? c.fileId).getD .removed) := by
  refine Buckets.find?_ofPairs_of_mem (List.mem_map_of_mem hc) fun other hother => ?_
  obtain ⟨d, hd, heq⟩ := List.mem_map.mp hother
  obtain ⟨hid, rfl⟩ := Prod.mk.inj heq
  rw [List.inj_on_of_nodup_map hids hd hc hid]
  rfl

/-- The file of a component that is kept is kept. -/
theorem exists_untouchedFile (hids : (previous.components.map (·.id)).Nodup) {c : Component}
    (hc : c ∈ untouched (classify previous changes) previous.components) :
    ∃ file ∈ untouchedFiles (classify previous changes) previous.files, file.id = c.fileId := by
  obtain ⟨hmem, hbucket⟩ := mem_untouched.mp hc
  rw [find?_components_classify hids hmem, Option.some.injEq] at hbucket
  cases hfile : (classify previous changes).files.find? c.fileId with
  | none => simp [hfile] at hbucket
  | some bucket =>
    obtain rfl : bucket = .untouched := by simpa [hfile] using hbucket
    have hlookup := hfile
    simp only [classify, Buckets.find?_ofPairs] at hlookup
    have hpair : (c.fileId, Bucket.untouched) ∈ previous.files.map fun file =>
        (file.id, Classification.bucketOfPath changes file.relativePath) :=
      List.mem_reverse.mp (mem_of_lookup_eq_some hlookup)
    obtain ⟨file, hfilemem, heq⟩ := List.mem_map.mp hpair
    have hid : file.id = c.fileId := congrArg Prod.fst heq
    refine ⟨file, List.mem_filter.mpr ⟨hfilemem, ?_⟩, hid⟩
    rw [hid, hfile]
    rfl

end Classification

/-! ### Parts of an update -/

section Parts

variable (builder : Builder) (relinkRetained : Bool) (fs : FileSystem) (directory : String)
  (previous : CodeGraph) (changes : ChangeSet) (supply : IdSupply)

/-- The components that are kept, without their links to what is dropped. -/
def retained : List Component :=
  (untouched (classify previous changes) previous.components).map
    (pruneLinks (classify previous changes).dropped)

/-- What the changed files are linked against. -/
def seedOf : LinkSeed :=
  ⟨.ofPairs ((retained previous changes).map fun c => (c.qualifiedName, c.id)),
    ⟨previous.externalSymbols, supply⟩⟩

/-- The changed files that can be extracted. -/
def rebuiltFiles : List ParsedFile :=
  builder.extractFiles fs directory (rebuildPaths builder fs directory changes)

/-- The build of the changed files. -/
def built : BuildOutput :=
  builder.assemble (rebuiltFiles builder fs directory changes) (seedOf previous changes supply)

/-- The kept components after the build, and the external symbols. -/
def relinked : List Component × Externals :=
  let output := built builder fs directory previous changes supply
  let externals : Externals := ⟨output.graph.externalSymbols, output.supply⟩
  if relinkRetained then
    ((linkAll output.nameTable externals (retained previous changes)).1,
      (linkAll output.nameTable externals (retained previous changes)).2.1)
  else (retained previous changes, externals)

/-- What is built of the changed files is their build also when there are none. -/
theorem rebuild_eq_built :
    (rebuild builder fs directory (rebuildPaths builder fs directory changes)
        (seedOf previous changes supply)).graph =
      (built builder fs directory previous changes supply).graph ∧
    (rebuild builder fs directory (rebuildPaths builder fs directory changes)
        (seedOf previous changes supply)).supply =
      (built builder fs directory previous changes supply).supply ∧
    (rebuild builder fs directory (rebuildPaths builder fs directory changes)
        (seedOf previous changes supply)).nameTable =
      (built builder fs directory previous changes supply).nameTable := by
  unfold rebuild
  split
  · rename_i hempty
    have hfiles : rebuiltFiles builder fs directory changes = [] := by
      rw [rebuiltFiles, List.isEmpty_iff.mp hempty]
      rfl
    rw [built, hfiles]
    exact ⟨rfl, rfl, rfl⟩
  · exact ⟨rfl, rfl, rfl⟩

/-- The graph of an update is put together of its parts. -/
theorem graph_apply :
    (apply builder relinkRetained fs directory previous changes supply).graph =
      ⟨(relinked builder relinkRetained fs directory previous changes supply).1 ++
          additions (relinked builder relinkRetained fs directory previous changes supply).1
            (built builder fs directory previous changes supply).graph.components,
        untouchedFiles (classify previous changes) previous.files ++
          (built builder fs directory previous changes supply).graph.files,
        (relinked builder relinkRetained fs directory previous changes supply).2.table⟩ := by
  obtain ⟨hgraph, hsupply, hnames⟩ :=
    rebuild_eq_built builder fs directory previous changes supply
  rw [relinked, ← hgraph, ← hsupply, ← hnames]
  cases relinkRetained <;> rfl

theorem supply_apply :
    (apply builder relinkRetained fs directory previous changes supply).supply =
      (relinked builder relinkRetained fs directory previous changes supply).2.supply := by
  obtain ⟨hgraph, hsupply, hnames⟩ :=
    rebuild_eq_built builder fs directory previous changes supply
  rw [relinked, ← hgraph, ← hsupply, ← hnames]
  cases relinkRetained <;> rfl

end Parts

/-- An update of a directory that exists succeeds. -/
theorem exists_update_eq_ok (builder : Builder) (relinkRetained : Bool) {fs : FileSystem}
    {directory : String} (previous : CodeGraph) (changes : ChangeSet) (supply : IdSupply)
    (h : fs.isDirectory directory = true) :
    ∃ result, update builder relinkRetained fs directory previous changes supply = .ok result := by
  rw [update, if_neg (by simp [h])]
  split
  · exact ⟨_, rfl⟩
  · exact ⟨_, rfl⟩

/-- An update of a directory that exists applies the changes, if there are any. -/
theorem update_eq_apply (builder : Builder) (relinkRetained : Bool) {fs : FileSystem}
    {directory : String} (previous : CodeGraph) {changes : ChangeSet} (supply : IdSupply)
    (h : fs.isDirectory directory = true) (hchanges : changes.hasChanges = true) :
    update builder relinkRetained fs directory previous changes supply =
      .ok (apply builder relinkRetained fs directory previous changes supply) := by
  rw [update, if_neg (by simp [h]), if_neg (by simp [hchanges])]

/-- An update that succeeds leaves everything as it is, when there are no changes, or applies
them. -/
theorem update_eq_ok {builder : Builder} {relinkRetained : Bool} {fs : FileSystem}
    {directory : String} {previous : CodeGraph} {changes : ChangeSet} {supply : IdSupply}
    {result : UpdateResult}
    (h : update builder relinkRetained fs directory previous changes supply = .ok result) :
    (changes.hasChanges = false ∧ result.graph = previous ∧ result.supply = supply) ∨
      (changes.hasChanges = true ∧
        result = apply builder relinkRetained fs directory previous changes supply) := by
  unfold update at h
  split at h
  · simp at h
  · split at h
    · rename_i hnone
      obtain rfl := Except.ok.inj h
      exact Or.inl ⟨by simpa using hnone, rfl, rfl⟩
    · rename_i hsome
      exact Or.inr ⟨by simpa using hsome, (Except.ok.inj h).symm⟩

end Update

end CodeAtlas
