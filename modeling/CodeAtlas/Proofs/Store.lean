import CodeAtlas.Proofs.Document.Rows
import CodeAtlas.Proofs.FileSystem.DatabaseFiles
import CodeAtlas.Store

/-!
# A saved document is loaded

After a save that succeeds, the store's place holds what was written for the document. What is moved
there is the staging file, whose content the removal of files beside a database cannot change. So
the document is loaded again: as it was from JSON, and from a database without repeated files.

## Main definitions

* `GraphStore.isBlocked`: a directory keeps the database from being opened.

## Main results

* `GraphStore.content?_of_save`: what is at the store's place after a save.
* `GraphStore.load_fst`: what is loaded.
* `GraphStore.eq_of_load`: the document that is loaded after a save.
-/

namespace CodeAtlas

namespace GraphStore

open FileSystem (Shrinks SameDirectories ChangesFiles)

variable {store : GraphStore} {document : Document} {fs fs' : FileSystem} {content : Content}

theorem shrinks_removePresent {paths : List String} {result : Except IoError Unit}
    (h : removePresent paths fs = (result, fs')) : Shrinks fs fs' := by
  induction paths generalizing fs with
  | nil =>
    obtain ⟨-, rfl⟩ := Prod.mk.inj h
    exact Shrinks.refl _
  | cons path rest ih =>
    rw [removePresent] at h
    split at h
    · split at h
      · obtain ⟨-, rfl⟩ := Prod.mk.inj h
        exact Shrinks.refl _
      · rename_i removed hremoved
        exact (FileSystem.shrinks_removeFile hremoved).trans (ih h)
    · exact ih h

/-- Removing files stops at the first that cannot be removed; what has been removed by then is none
but these files. -/
theorem changesFiles_removePresent {paths : List String} {result : Except IoError Unit}
    (h : removePresent paths fs = (result, fs')) : ChangesFiles paths fs fs' := by
  induction paths generalizing fs with
  | nil =>
    obtain ⟨-, rfl⟩ := Prod.mk.inj h
    exact ChangesFiles.refl _ _
  | cons path rest ih =>
    have hrest : rest ⊆ path :: rest := List.subset_cons_self path rest
    rw [removePresent] at h
    split at h
    · split at h
      · obtain ⟨-, rfl⟩ := Prod.mk.inj h
        exact ChangesFiles.refl _ _
      · rename_i removed hremoved
        exact (ChangesFiles.removeFile (List.mem_cons_self ..) hremoved).trans ((ih h).mono hrest)
    · exact (ih h).mono hrest

/-- The last step of writing the staging file is to write all of it. -/
theorem writeStaging_eq_ok (h : store.writeStaging document fs = (.ok (), fs')) :
    ∃ before : FileSystem,
      before.write store.stagingPath (contentOf store.format document) = .ok fs' := by
  unfold writeStaging at h
  cases hformat : store.format with
  | json =>
    simp only [hformat] at h
    split at h
    · cases h
    · obtain rfl := (Prod.mk.inj h).2
      exact ⟨fs, ‹_›⟩
  | sqlite =>
    simp only [hformat] at h
    split at h
    · cases h
    · split at h
      · cases h
      · rename_i created hcreated
        obtain rfl := (Prod.mk.inj h).2
        exact FileSystem.createDatabase_eq_ok hcreated

/-- The stages of a save that succeeds. -/
theorem save_eq_ok (h : store.save document fs = (.ok (), fs')) :
    ∃ created staged cleared, store.createParent fs = (.ok (), created) ∧
      store.writeStaging document created = (.ok (), staged) ∧
      removePresent store.sidecars staged = (.ok (), cleared) ∧
      cleared.rename store.stagingPath store.path = .ok fs' := by
  unfold save at h
  split at h
  · cases h
  · rename_i created hcreated
    split at h
    · cases h
    · rename_i staged hstaged
      split at h
      · cases h
      · rename_i cleared hcleared
        split at h
        · cases h
        · rename_i moved hmoved
          obtain rfl := (Prod.mk.inj h).2
          exact ⟨created, staged, cleared, hcreated, hstaged, hcleared, hmoved⟩

/-- After a save, the store's place holds what is written for the document. -/
theorem content?_of_save (h : store.save document fs = (.ok (), fs')) :
    fs'.content? store.path = some (contentOf store.format document) := by
  obtain ⟨created, staged, cleared, -, hstaged, hcleared, hmoved⟩ := save_eq_ok h
  obtain ⟨before, hwritten⟩ := writeStaging_eq_ok hstaged
  obtain ⟨l, hlocate, -, hne, -, rfl⟩ := FileSystem.write_eq_ok hwritten
  have hshrinks := shrinks_removePresent hcleared
  obtain ⟨l₁, target, content, hsource, hfile, htarget, hasks, hfree, rfl⟩ :=
    FileSystem.rename_eq_ok hmoved
  have hcurrent : before.current = cleared.current := hshrinks.current_eq
  obtain rfl : l = l₁ := FileSystem.locate_eq_locate hcurrent hlocate hsource
  have hcontent : content = contentOf store.format document := by
    have hat := hshrinks.at?_eq l _ hfile
    rw [FileSystem.at?_put _ hne, if_pos rfl] at hat
    exact (Entry.file.inj (Option.some.inj hat)).symm
  have htargetNe := FileSystem.ne_nil_of_at?_ne hfree
  have hplace : ((cleared.erase l).put target (.file content)).locate store.path = .ok target := by
    have hsame : cleared.current = ((cleared.erase l).put target (.file content)).current := rfl
    refine FileSystem.locate_of_opens hsame (fun d hopens => ?_) htarget
    -- A directory on the way is neither below the moved file nor the place itself.
    have hd := hopens d (List.prefix_refl d)
    have hdne : d ≠ target := fun heq => hfree (heq ▸ hd)
    rw [FileSystem.at?_put _ htargetNe, if_neg hdne, FileSystem.at?_erase, if_neg, hd]
    rintro ⟨-, hbelow⟩
    rw [hopens l hbelow] at hfile
    exact absurd hfile (by simp)
  have hat : ((cleared.erase l).put target (.file content)).at? target = some (.file content) := by
    rw [FileSystem.at?_put _ htargetNe, if_pos rfl]
  rw [← hcontent]
  exact FileSystem.content?_of_entry (FileSystem.entry_of_at? hplace hat hasks)

/-! ### Loading -/

/-- A directory is where a database would have its journal or its log, so that it cannot be
opened. -/
def isBlocked (store : GraphStore) (fs : FileSystem) : Bool :=
  match store.format with
  | .json => false
  | .sqlite =>
    fs.isDirectory (FileSystem.journalPath store.path) ||
      fs.isDirectory (FileSystem.logPath store.path)

theorem load_of_absent (h : fs.content? store.path = none) :
    store.load fs = (.error (.notFound store.path), fs) := by
  rw [load, h]

/-- What is loaded is what is read from the file. -/
theorem load_fst (h : fs.content? store.path = some content) :
    (store.load fs).1 =
      if store.isBlocked fs then .error .invalidDatabase else read store.format content := by
  unfold load isBlocked
  simp only [h]
  cases store.format with
  | json => rfl
  | sqlite =>
    have hrows := FileSystem.openDatabase_fst fs store.path
    rw [h, Option.bind_some] at hrows
    rcases hopened : fs.openDatabase store.path with ⟨found, after⟩
    rw [hopened] at hrows
    subst hrows
    dsimp only
    split_ifs with hblocked
    · rfl
    · cases content <;> rfl

/-- What is loaded is in a file, and nothing keeps it from being opened. -/
theorem content?_of_load {loaded : Document} (h : store.load fs = (.ok loaded, fs')) :
    (∃ content, fs.content? store.path = some content) ∧ store.isBlocked fs = false := by
  cases hcontent : fs.content? store.path with
  | none =>
    rw [load_of_absent hcontent] at h
    cases h
  | some content =>
    have hfst := load_fst hcontent
    rw [h] at hfst
    split_ifs at hfst with hblocked
    exact ⟨⟨content, rfl⟩, Bool.eq_false_iff.mpr hblocked⟩

/-- A load changes files only by opening a database. -/
theorem load_snd (store : GraphStore) (fs : FileSystem) :
    (store.load fs).2 =
      match store.format with
      | .json => fs
      | .sqlite => (fs.openDatabase store.path).2 := by
  unfold load
  cases hcontent : fs.content? store.path with
  | none => cases store.format <;> simp [FileSystem.openDatabase, hcontent]
  | some content =>
    cases store.format with
    | json => rfl
    | sqlite =>
      rcases fs.openDatabase store.path with ⟨found, after⟩
      cases found <;> rfl

/-- A load leaves the directories as they are. -/
theorem directories_load (store : GraphStore) (fs : FileSystem) :
    SameDirectories fs (store.load fs).2 := by
  rw [load_snd]
  split
  · exact SameDirectories.refl fs
  · exact FileSystem.directories_openDatabase fs store.path

/-- A load that succeeds changes nothing but files beside the database. -/
theorem changesFiles_of_load {loaded : Document} (h : store.load fs = (.ok loaded, fs')) :
    ChangesFiles (FileSystem.besides store.path) fs fs' := by
  obtain ⟨⟨content, hcontent⟩, hopens⟩ := content?_of_load h
  have hfst := load_fst hcontent
  have hsnd := store.load_snd fs
  rw [h, hopens] at hfst
  rw [h] at hsnd
  obtain rfl := hsnd
  cases hformat : store.format with
  | json => exact ChangesFiles.refl _ fs
  | sqlite =>
    have hblank : content.isBlank = false := by
      cases content with
      | database rows => rfl
      | text s => simp [hformat, read] at hfst
      | binary bytes => simp [hformat, read] at hfst
    exact FileSystem.changesFiles_openDatabase hcontent hblank

theorem isBlocked_eq (h : SameDirectories fs fs') : store.isBlocked fs' = store.isBlocked fs := by
  unfold isBlocked
  rw [h.isDirectory_eq, h.isDirectory_eq]

/-- Once the files beside a database have been removed, none of them is a directory. -/
theorem isDirectory_of_removePresent {paths : List String}
    (h : removePresent paths fs = (.ok (), fs')) :
    ∀ path ∈ paths, fs.isDirectory path = false := by
  induction paths generalizing fs with
  | nil => exact fun path hpath => absurd hpath List.not_mem_nil
  | cons path rest ih =>
    rw [removePresent] at h
    split at h
    · split at h
      · cases h
      · rename_i removed hremoved
        refine List.forall_mem_cons.mpr ⟨?_, fun other hother => ?_⟩
        · rw [Bool.eq_false_iff, ne_eq, FileSystem.isDirectory_iff]
          intro hdirectory
          obtain ⟨l, content, hlocate, hfile, -⟩ := FileSystem.removeFile_eq_ok hremoved
          obtain ⟨l', hlocate', hat⟩ := FileSystem.entry_eq_directory hdirectory
          obtain rfl := Except.ok.inj (hlocate.symm.trans hlocate')
          exact absurd (hfile.symm.trans hat) (by simp)
        · rw [← (SameDirectories.removeFile hremoved).isDirectory_eq]
          exact ih h other hother
    · rename_i habsent
      refine List.forall_mem_cons.mpr ⟨?_, ih h⟩
      rw [Bool.eq_false_iff, ne_eq, FileSystem.isDirectory_iff]
      intro hdirectory
      exact habsent (by rw [FileSystem.pathExists, hdirectory])

/-- After a save a database can be opened, unless a directory is in the place of its journal. -/
theorem isBlocked_eq_false_of_save (h : store.save document fs = (.ok (), fs'))
    (hjournal : store.format = .sqlite →
      fs'.isDirectory (FileSystem.journalPath store.path) = false) :
    store.isBlocked fs' = false := by
  obtain ⟨created, staged, cleared, -, -, hcleared, hmoved⟩ := save_eq_ok h
  unfold isBlocked
  cases hformat : store.format with
  | json => rfl
  | sqlite =>
    have hmem : FileSystem.logPath store.path ∈ store.sidecars := by
      rw [sidecars, hformat]
      exact List.mem_cons_self ..
    have hdirectories : SameDirectories staged fs' :=
      (changesFiles_removePresent hcleared).directories.trans (.rename hmoved)
    have hlog : fs'.isDirectory (FileSystem.logPath store.path) = false := by
      rw [hdirectories.isDirectory_eq]
      exact isDirectory_of_removePresent hcleared _ hmem
    simp only [hjournal hformat, hlog, Bool.or_self]

/-- What is loaded after a save is what is read from what was written. -/
theorem load_of_save (h : store.save document fs = (.ok (), fs')) :
    (store.load fs').1 =
      if store.isBlocked fs' then .error .invalidDatabase
      else read store.format (contentOf store.format document) :=
  load_fst (content?_of_save h)

/-- What is loaded after a save is the document, or what a database keeps of it. -/
theorem eq_of_load (h : store.save document fs = (.ok (), fs')) {loaded : Document}
    (hload : (store.load fs').1 = .ok loaded) (hids : (document.graph.components.map (·.id)).Nodup)
    (hcurrent : document.isCurrent = true) :
    loaded = document ∨ loaded = document.kept := by
  rw [load_of_save h] at hload
  split at hload
  · cases hload
  · cases hformat : store.format with
    | json =>
      have hread := document.parse?_pretty_toJson
      simp only [hformat, contentOf, read, jsonText, hread, Option.guard] at hload
      by_cases hfits : document.fits = true
      · simp only [hfits, ↓reduceIte, hcurrent] at hload
        exact Or.inl (Except.ok.inj hload).symm
      · simp [hfits] at hload
    | sqlite =>
      simp only [hformat, contentOf, read, document.ofRows_toRows hcurrent hids] at hload
      by_cases hfits : document.fits = true
      · simp only [hfits, ↓reduceIte, Except.mapError] at hload
        exact Or.inr (Except.ok.inj hload).symm
      · simp [hfits, Except.mapError] at hload

end GraphStore

end CodeAtlas
